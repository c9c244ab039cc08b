import CallAtlas.Text.Split

/-!
# Compatibility forms

Two texts that look alike may be written in different characters: a letter with an accent is one
character or two, and a ligature or a full-width letter stands for plain ones. The compatibility
form of a text (NFKC of the Unicode standard) is the same for all of them. It is found in three
steps: each character is decomposed into those that it stands for, marks that follow a character are
put in order by their class, and what belongs together is composed again.

The tables hold the decompositions, the classes of the marks and the pairs that compose. Syllables
of Hangul are decomposed and composed by arithmetic.
-/

namespace CallAtlas.Text.Compatibility

/-! ## Tables -/

/-- What characters stand for, all the way down, as code points in hexadecimal digits. A row is for
the characters from its number on, and those with an empty field stand for themselves. -/
def formRows : List (Nat × String) := [
  (0xa0, "20;;;;;;;;20 308;;61;;;;;20 304;;;32;33;20 301;3bc;;;20 327;31;6f;;31 2044 34"),
  (0xbd, "31 2044 32;33 2044 34;;41 300;41 301;41 302;41 303;41 308;41 30a;;43 327;45 300"),
  (0xc9, "45 301;45 302;45 308;49 300;49 301;49 302;49 308;;4e 303;4f 300;4f 301;4f 302;4f 303"),
  (0xd6, "4f 308;;;55 300;55 301;55 302;55 308;59 301;;;61 300;61 301;61 302;61 303;61 308"),
  (0xe5, "61 30a;;63 327;65 300;65 301;65 302;65 308;69 300;69 301;69 302;69 308;;6e 303"),
  (0xf2, "6f 300;6f 301;6f 302;6f 303;6f 308;;;75 300;75 301;75 302;75 308;79 301;;79 308"),
  (0x100, "41 304;61 304;41 306;61 306;41 328;61 328;43 301;63 301;43 302;63 302;43 307;63 307"),
  (0x10c, "43 30c;63 30c;44 30c;64 30c;;;45 304;65 304;45 306;65 306;45 307;65 307;45 328"),
  (0x119, "65 328;45 30c;65 30c;47 302;67 302;47 306;67 306;47 307;67 307;47 327;67 327;48 302"),
  (0x125, "68 302;;;49 303;69 303;49 304;69 304;49 306;69 306;49 328;69 328;49 307;;49 4a;69 6a"),
  (0x134, "4a 302;6a 302;4b 327;6b 327;;4c 301;6c 301;4c 327;6c 327;4c 30c;6c 30c;4c b7;6c b7"),
  (0x143, "4e 301;6e 301;4e 327;6e 327;4e 30c;6e 30c;2bc 6e;;;4f 304;6f 304;4f 306;6f 306"),
  (0x150, "4f 30b;6f 30b;;;52 301;72 301;52 327;72 327;52 30c;72 30c;53 301;73 301;53 302"),
  (0x15d, "73 302;53 327;73 327;53 30c;73 30c;54 327;74 327;54 30c;74 30c;;;55 303;75 303"),
  (0x16a, "55 304;75 304;55 306;75 306;55 30a;75 30a;55 30b;75 30b;55 328;75 328;57 302;77 302"),
  (0x176, "59 302;79 302;59 308;5a 301;7a 301;5a 307;7a 307;5a 30c;7a 30c;73"),
  (0x1a0, "4f 31b;6f 31b"), (0x1af, "55 31b;75 31b"),
  (0x1c4, "44 5a 30c;44 7a 30c;64 7a 30c;4c 4a;4c 6a;6c 6a;4e 4a;4e 6a;6e 6a;41 30c;61 30c"),
  (0x1cf, "49 30c;69 30c;4f 30c;6f 30c;55 30c;75 30c;55 308 304;75 308 304;55 308 301"),
  (0x1d8, "75 308 301;55 308 30c;75 308 30c;55 308 300;75 308 300;;41 308 304;61 308 304"),
  (0x1e0, "41 307 304;61 307 304;c6 304;e6 304;;;47 30c;67 30c;4b 30c;6b 30c;4f 328;6f 328"),
  (0x1ec, "4f 328 304;6f 328 304;1b7 30c;292 30c;6a 30c;44 5a;44 7a;64 7a;47 301;67 301"),
  (0x1f8, "4e 300;6e 300;41 30a 301;61 30a 301;c6 301;e6 301;d8 301;f8 301;41 30f;61 30f;41 311"),
  (0x203, "61 311;45 30f;65 30f;45 311;65 311;49 30f;69 30f;49 311;69 311;4f 30f;6f 30f;4f 311"),
  (0x20f, "6f 311;52 30f;72 30f;52 311;72 311;55 30f;75 30f;55 311;75 311;53 326;73 326;54 326"),
  (0x21b, "74 326;;;48 30c;68 30c;;;;;;;41 307;61 307;45 327;65 327;4f 308 304;6f 308 304"),
  (0x22c, "4f 303 304;6f 303 304;4f 307;6f 307;4f 307 304;6f 307 304;59 304;79 304"),
  (0x2b0, "68;266;6a;72;279;27b;281;77;79"),
  (0x2d8, "20 306;20 307;20 30a;20 328;20 303;20 30b;;;263;6c;73;78;295"),
  (0x340, "300;301;;313;308 301"),
  (0x374, "2b9;;;;;;20 345;;;;3b;;;;;;20 301;20 308 301;391 301;b7;395 301;397 301;399 301"),
  (0x38c, "39f 301;;3a5 301;3a9 301;3b9 308 301"),
  (0x3aa, "399 308;3a5 308;3b1 301;3b5 301;3b7 301;3b9 301;3c5 308 301"),
  (0x3ca, "3b9 308;3c5 308;3bf 301;3c5 301;3c9 301;;3b2;3b8;3a5;3a5 301;3a5 308;3c6;3c0"),
  (0x3f0, "3ba;3c1;3c2;;398;3b5;;;;3a3;;;;;;;415 300;415 308;;413 301;;;;406 308;;;;;41a 301"),
  (0x40d, "418 300;423 306"), (0x419, "418 306"), (0x439, "438 306"),
  (0x450, "435 300;435 308;;433 301;;;;456 308;;;;;43a 301;438 300;443 306"),
  (0x476, "474 30f;475 30f"), (0x4c1, "416 306;436 306"),
  (0x4d0, "410 306;430 306;410 308;430 308;;;415 306;435 306;;;4d8 308;4d9 308;416 308;436 308"),
  (0x4de, "417 308;437 308;;;418 304;438 304;418 308;438 308;41e 308;43e 308;;;4e8 308;4e9 308"),
  (0x4ec, "42d 308;44d 308;423 304;443 304;423 308;443 308;423 30b;443 30b;427 308;447 308"),
  (0x4f8, "42b 308;44b 308"), (0x587, "565 582"),
  (0x622, "627 653;627 654;648 654;627 655;64a 654"), (0x675, "627 674;648 674;6c7 674;64a 674"),
  (0x6c0, "6d5 654;;6c1 654"), (0x6d3, "6d2 654"), (0x929, "928 93c;;;;;;;;930 93c;;;933 93c"),
  (0x958, "915 93c;916 93c;917 93c;91c 93c;921 93c;922 93c;92b 93c;92f 93c"),
  (0x9cb, "9c7 9be;9c7 9d7"), (0x9dc, "9a1 9bc;9a2 9bc;;9af 9bc"), (0xa33, "a32 a3c;;;a38 a3c"),
  (0xa59, "a16 a3c;a17 a3c;a1c a3c;;;a2b a3c"), (0xb48, "b47 b56;;;b47 b3e;b47 b57"),
  (0xb5c, "b21 b3c;b22 b3c"), (0xb94, "b92 bd7"), (0xbca, "bc6 bbe;bc7 bbe;bc6 bd7"),
  (0xc48, "c46 c56"), (0xcc0, "cbf cd5;;;;;;;cc6 cd5;cc6 cd6;;cc6 cc2;cc6 cc2 cd5"),
  (0xd4a, "d46 d3e;d47 d3e;d46 d57"), (0xdda, "dd9 dca;;dd9 dcf;dd9 dcf dca;dd9 ddf"),
  (0xe33, "e4d e32"), (0xeb3, "ecd eb2"), (0xedc, "eab e99;eab ea1"), (0xf0c, "f0b"),
  (0xf43, "f42 fb7;;;;;;;;;;f4c fb7;;;;;f51 fb7;;;;;f56 fb7;;;;;f5b fb7"),
  (0xf69, "f40 fb5;;;;;;;;;;f71 f72;;f71 f74;fb2 f80;fb2 f71 f80;fb3 f80;fb3 f71 f80"),
  (0xf81, "f71 f80"), (0xf93, "f92 fb7;;;;;;;;;;f9c fb7;;;;;fa1 fb7;;;;;fa6 fb7;;;;;fab fb7"),
  (0xfb9, "f90 fb5"), (0x1026, "1025 102e"), (0x10fc, "10dc"),
  (0x1b06, "1b05 1b35;;1b07 1b35;;1b09 1b35;;1b0b 1b35;;1b0d 1b35;;;;1b11 1b35"),
  (0x1b3b, "1b3a 1b35;;1b3c 1b35;;;1b3e 1b35;1b3f 1b35;;1b42 1b35"),
  (0x1d2c, "41;c6;42;;44;45;18e;47;48;49;4a;4b;4c;4d;4e;;4f;222;50;52;54;55;57;61;250;251;1d02"),
  (0x1d47, "62;64;65;259;25b;25c;67;;6b;6d;14b;6f;254;1d16;1d17;70;74;75;1d1d;26f;76;1d25;3b2"),
  (0x1d5e, "3b3;3b4;3c6;3c7;69;72;75;76;3b2;3b3;3c1;3c6;3c7"), (0x1d78, "43d"),
  (0x1d9b, "252;63;255;f0;25c;66;25f;261;265;268;269;26a;1d7b;29d;26d;1d85;29f;271;270;272;273"),
  (0x1db0, "274;275;278;282;283;1ab;289;28a;1d1c;28b;28c;7a;290;291;292;3b8"),
  (0x1e00, "41 325;61 325;42 307;62 307;42 323;62 323;42 331;62 331;43 327 301;63 327 301;44 307"),
  (0x1e0b, "64 307;44 323;64 323;44 331;64 331;44 327;64 327;44 32d;64 32d;45 304 300;65 304 300"),
  (0x1e16, "45 304 301;65 304 301;45 32d;65 32d;45 330;65 330;45 327 306;65 327 306;46 307"),
  (0x1e1f, "66 307;47 304;67 304;48 307;68 307;48 323;68 323;48 308;68 308;48 327;68 327;48 32e"),
  (0x1e2b, "68 32e;49 330;69 330;49 308 301;69 308 301;4b 301;6b 301;4b 323;6b 323;4b 331;6b 331"),
  (0x1e36, "4c 323;6c 323;4c 323 304;6c 323 304;4c 331;6c 331;4c 32d;6c 32d;4d 301;6d 301;4d 307"),
  (0x1e41, "6d 307;4d 323;6d 323;4e 307;6e 307;4e 323;6e 323;4e 331;6e 331;4e 32d;6e 32d"),
  (0x1e4c, "4f 303 301;6f 303 301;4f 303 308;6f 303 308;4f 304 300;6f 304 300;4f 304 301"),
  (0x1e53, "6f 304 301;50 301;70 301;50 307;70 307;52 307;72 307;52 323;72 323;52 323 304"),
  (0x1e5d, "72 323 304;52 331;72 331;53 307;73 307;53 323;73 323;53 301 307;73 301 307"),
  (0x1e66, "53 30c 307;73 30c 307;53 323 307;73 323 307;54 307;74 307;54 323;74 323;54 331"),
  (0x1e6f, "74 331;54 32d;74 32d;55 324;75 324;55 330;75 330;55 32d;75 32d;55 303 301;75 303 301"),
  (0x1e7a, "55 304 308;75 304 308;56 303;76 303;56 323;76 323;57 300;77 300;57 301;77 301;57 308"),
  (0x1e85, "77 308;57 307;77 307;57 323;77 323;58 307;78 307;58 308;78 308;59 307;79 307;5a 302"),
  (0x1e91, "7a 302;5a 323;7a 323;5a 331;7a 331;68 331;74 308;77 30a;79 30a;61 2be;73 307"),
  (0x1ea0, "41 323;61 323;41 309;61 309;41 302 301;61 302 301;41 302 300;61 302 300;41 302 309"),
  (0x1ea9, "61 302 309;41 302 303;61 302 303;41 323 302;61 323 302;41 306 301;61 306 301"),
  (0x1eb0, "41 306 300;61 306 300;41 306 309;61 306 309;41 306 303;61 306 303;41 323 306"),
  (0x1eb7, "61 323 306;45 323;65 323;45 309;65 309;45 303;65 303;45 302 301;65 302 301"),
  (0x1ec0, "45 302 300;65 302 300;45 302 309;65 302 309;45 302 303;65 302 303;45 323 302"),
  (0x1ec7, "65 323 302;49 309;69 309;49 323;69 323;4f 323;6f 323;4f 309;6f 309;4f 302 301"),
  (0x1ed1, "6f 302 301;4f 302 300;6f 302 300;4f 302 309;6f 302 309;4f 302 303;6f 302 303"),
  (0x1ed8, "4f 323 302;6f 323 302;4f 31b 301;6f 31b 301;4f 31b 300;6f 31b 300;4f 31b 309"),
  (0x1edf, "6f 31b 309;4f 31b 303;6f 31b 303;4f 31b 323;6f 31b 323;55 323;75 323;55 309;75 309"),
  (0x1ee8, "55 31b 301;75 31b 301;55 31b 300;75 31b 300;55 31b 309;75 31b 309;55 31b 303"),
  (0x1eef, "75 31b 303;55 31b 323;75 31b 323;59 300;79 300;59 323;79 323;59 309;79 309;59 303"),
  (0x1ef9, "79 303;;;;;;;3b1 313;3b1 314;3b1 313 300;3b1 314 300;3b1 313 301;3b1 314 301"),
  (0x1f06, "3b1 313 342;3b1 314 342;391 313;391 314;391 313 300;391 314 300;391 313 301"),
  (0x1f0d, "391 314 301;391 313 342;391 314 342;3b5 313;3b5 314;3b5 313 300;3b5 314 300"),
  (0x1f14, "3b5 313 301;3b5 314 301;;;395 313;395 314;395 313 300;395 314 300;395 313 301"),
  (0x1f1d, "395 314 301;;;3b7 313;3b7 314;3b7 313 300;3b7 314 300;3b7 313 301;3b7 314 301"),
  (0x1f26, "3b7 313 342;3b7 314 342;397 313;397 314;397 313 300;397 314 300;397 313 301"),
  (0x1f2d, "397 314 301;397 313 342;397 314 342;3b9 313;3b9 314;3b9 313 300;3b9 314 300"),
  (0x1f34, "3b9 313 301;3b9 314 301;3b9 313 342;3b9 314 342;399 313;399 314;399 313 300"),
  (0x1f3b, "399 314 300;399 313 301;399 314 301;399 313 342;399 314 342;3bf 313;3bf 314"),
  (0x1f42, "3bf 313 300;3bf 314 300;3bf 313 301;3bf 314 301;;;39f 313;39f 314;39f 313 300"),
  (0x1f4b, "39f 314 300;39f 313 301;39f 314 301;;;3c5 313;3c5 314;3c5 313 300;3c5 314 300"),
  (0x1f54, "3c5 313 301;3c5 314 301;3c5 313 342;3c5 314 342;;3a5 314;;3a5 314 300;;3a5 314 301"),
  (0x1f5f, "3a5 314 342;3c9 313;3c9 314;3c9 313 300;3c9 314 300;3c9 313 301;3c9 314 301"),
  (0x1f66, "3c9 313 342;3c9 314 342;3a9 313;3a9 314;3a9 313 300;3a9 314 300;3a9 313 301"),
  (0x1f6d, "3a9 314 301;3a9 313 342;3a9 314 342;3b1 300;3b1 301;3b5 300;3b5 301;3b7 300;3b7 301"),
  (0x1f76, "3b9 300;3b9 301;3bf 300;3bf 301;3c5 300;3c5 301;3c9 300;3c9 301;;;3b1 313 345"),
  (0x1f81, "3b1 314 345;3b1 313 300 345;3b1 314 300 345;3b1 313 301 345;3b1 314 301 345"),
  (0x1f86, "3b1 313 342 345;3b1 314 342 345;391 313 345;391 314 345;391 313 300 345"),
  (0x1f8b, "391 314 300 345;391 313 301 345;391 314 301 345;391 313 342 345;391 314 342 345"),
  (0x1f90, "3b7 313 345;3b7 314 345;3b7 313 300 345;3b7 314 300 345;3b7 313 301 345"),
  (0x1f95, "3b7 314 301 345;3b7 313 342 345;3b7 314 342 345;397 313 345;397 314 345"),
  (0x1f9a, "397 313 300 345;397 314 300 345;397 313 301 345;397 314 301 345;397 313 342 345"),
  (0x1f9f, "397 314 342 345;3c9 313 345;3c9 314 345;3c9 313 300 345;3c9 314 300 345"),
  (0x1fa4, "3c9 313 301 345;3c9 314 301 345;3c9 313 342 345;3c9 314 342 345;3a9 313 345"),
  (0x1fa9, "3a9 314 345;3a9 313 300 345;3a9 314 300 345;3a9 313 301 345;3a9 314 301 345"),
  (0x1fae, "3a9 313 342 345;3a9 314 342 345;3b1 306;3b1 304;3b1 300 345;3b1 345;3b1 301 345"),
  (0x1fb6, "3b1 342;3b1 342 345;391 306;391 304;391 300;391 301;391 345;20 313;3b9;20 313;20 342"),
  (0x1fc1, "20 308 342;3b7 300 345;3b7 345;3b7 301 345;;3b7 342;3b7 342 345;395 300;395 301"),
  (0x1fca, "397 300;397 301;397 345;20 313 300;20 313 301;20 313 342;3b9 306;3b9 304;3b9 308 300"),
  (0x1fd3, "3b9 308 301;;;3b9 342;3b9 308 342;399 306;399 304;399 300;399 301;;20 314 300"),
  (0x1fde, "20 314 301;20 314 342;3c5 306;3c5 304;3c5 308 300;3c5 308 301;3c1 313;3c1 314"),
  (0x1fe6, "3c5 342;3c5 308 342;3a5 306;3a5 304;3a5 300;3a5 301;3a1 314;20 308 300;20 308 301;60"),
  (0x1ff2, "3c9 300 345;3c9 345;3c9 301 345;;3c9 342;3c9 342 345;39f 300;39f 301;3a9 300;3a9 301"),
  (0x1ffc, "3a9 345;20 301;20 314;;20;20;20;20;20;20;20;20;20;20;20;;;;;;;2010;;;;;;20 333"),
  (0x2024, "2e;2e 2e;2e 2e 2e;;;;;;;;;20;;;;2032 2032;2032 2032 2032;;2035 2035;2035 2035 2035"),
  (0x203c, "21 21;;20 305;;;;;;;;;3f 3f;3f 21;21 3f"), (0x2057, "2032 2032 2032 2032;;;;;;;;20"),
  (0x2070, "30;69;;;34;35;36;37;38;39;2b;2212;3d;28;29;6e;30;31;32;33;34;35;36;37;38;39;2b;2212"),
  (0x208c, "3d;28;29;;61;65;6f;78;259;68;6b;6c;6d;6e;70;73;74"), (0x20a8, "52 73"),
  (0x2100, "61 2f 63;61 2f 73;43;b0 43;;63 2f 6f;63 2f 75;190;;b0 46;67;48;48;48;68;127;49;49;4c"),
  (0x2113, "6c;;4e;4e 6f;;;50;51;52;52;52;;;53 4d;54 45 4c;54 4d;;5a;;3a9;;5a;;4b;41 30a;42;43"),
  (0x212f, "65;45;46;;4d;6f;5d0;5d1;5d2;5d3;69;;46 41 58;3c0;3b3;393;3a0;2211;;;;;44;64;65;69;6a"),
  (0x2150, "31 2044 37;31 2044 39;31 2044 31 30;31 2044 33;32 2044 33;31 2044 35;32 2044 35"),
  (0x2157, "33 2044 35;34 2044 35;31 2044 36;35 2044 36;31 2044 38;33 2044 38;35 2044 38"),
  (0x215e, "37 2044 38;31 2044;49;49 49;49 49 49;49 56;56;56 49;56 49 49;56 49 49 49;49 58;58"),
  (0x216a, "58 49;58 49 49;4c;43;44;4d;69;69 69;69 69 69;69 76;76;76 69;76 69 69;76 69 69 69"),
  (0x2178, "69 78;78;78 69;78 69 69;6c;63;64;6d;;;;;;;;;;30 2044 33"),
  (0x219a, "2190 338;2192 338"), (0x21ae, "2194 338"), (0x21cd, "21d0 338;21d4 338;21d2 338"),
  (0x2204, "2203 338;;;;;2208 338;;;220b 338"),
  (0x2224, "2223 338;;2225 338;;;;;;222b 222b;222b 222b 222b;;222e 222e;222e 222e 222e"),
  (0x2241, "223c 338;;;2243 338;;;2245 338;;2248 338"), (0x2260, "3d 338;;2261 338"),
  (0x226d, "224d 338;3c 338;3e 338;2264 338;2265 338;;;2272 338;2273 338;;;2276 338;2277 338"),
  (0x2280, "227a 338;227b 338;;;2282 338;2283 338;;;2286 338;2287 338"),
  (0x22ac, "22a2 338;22a8 338;22a9 338;22ab 338"),
  (0x22e0, "227c 338;227d 338;2291 338;2292 338;;;;;;;22b2 338;22b3 338;22b4 338;22b5 338"),
  (0x2329, "3008;3009"),
  (0x2460, "31;32;33;34;35;36;37;38;39;31 30;31 31;31 32;31 33;31 34;31 35;31 36;31 37;31 38"),
  (0x2472, "31 39;32 30;28 31 29;28 32 29;28 33 29;28 34 29;28 35 29;28 36 29;28 37 29;28 38 29"),
  (0x247c, "28 39 29;28 31 30 29;28 31 31 29;28 31 32 29;28 31 33 29;28 31 34 29;28 31 35 29"),
  (0x2483, "28 31 36 29;28 31 37 29;28 31 38 29;28 31 39 29;28 32 30 29;31 2e;32 2e;33 2e;34 2e"),
  (0x248c, "35 2e;36 2e;37 2e;38 2e;39 2e;31 30 2e;31 31 2e;31 32 2e;31 33 2e;31 34 2e;31 35 2e"),
  (0x2497, "31 36 2e;31 37 2e;31 38 2e;31 39 2e;32 30 2e;28 61 29;28 62 29;28 63 29;28 64 29"),
  (0x24a0, "28 65 29;28 66 29;28 67 29;28 68 29;28 69 29;28 6a 29;28 6b 29;28 6c 29;28 6d 29"),
  (0x24a9, "28 6e 29;28 6f 29;28 70 29;28 71 29;28 72 29;28 73 29;28 74 29;28 75 29;28 76 29"),
  (0x24b2, "28 77 29;28 78 29;28 79 29;28 7a 29;41;42;43;44;45;46;47;48;49;4a;4b;4c;4d;4e;4f;50"),
  (0x24c6, "51;52;53;54;55;56;57;58;59;5a;61;62;63;64;65;66;67;68;69;6a;6b;6c;6d;6e;6f;70;71;72"),
  (0x24e2, "73;74;75;76;77;78;79;7a;30"), (0x2a0c, "222b 222b 222b 222b"),
  (0x2a74, "3a 3a 3d;3d 3d;3d 3d 3d"), (0x2adc, "2add 338"), (0x2c7c, "6a;56"), (0x2d6f, "2d61"),
  (0x2e9f, "6bcd"), (0x2ef3, "9f9f"),
  (0x2f00, "4e00;4e28;4e36;4e3f;4e59;4e85;4e8c;4ea0;4eba;513f;5165;516b;5182;5196;51ab;51e0;51f5"),
  (0x2f11, "5200;529b;52f9;5315;531a;5338;5341;535c;5369;5382;53b6;53c8;53e3;56d7;571f;58eb;5902"),
  (0x2f22, "590a;5915;5927;5973;5b50;5b80;5bf8;5c0f;5c22;5c38;5c6e;5c71;5ddb;5de5;5df1;5dfe;5e72"),
  (0x2f33, "5e7a;5e7f;5ef4;5efe;5f0b;5f13;5f50;5f61;5f73;5fc3;6208;6236;624b;652f;6534;6587;6597"),
  (0x2f44, "65a4;65b9;65e0;65e5;66f0;6708;6728;6b20;6b62;6b79;6bb3;6bcb;6bd4;6bdb;6c0f;6c14;6c34"),
  (0x2f55, "706b;722a;7236;723b;723f;7247;7259;725b;72ac;7384;7389;74dc;74e6;7518;751f;7528;7530"),
  (0x2f66, "758b;7592;7676;767d;76ae;76bf;76ee;77db;77e2;77f3;793a;79b8;79be;7a74;7acb;7af9;7c73"),
  (0x2f77, "7cf8;7f36;7f51;7f8a;7fbd;8001;800c;8012;8033;807f;8089;81e3;81ea;81f3;81fc;820c;821b"),
  (0x2f88, "821f;826e;8272;8278;864d;866b;8840;884c;8863;897e;898b;89d2;8a00;8c37;8c46;8c55;8c78"),
  (0x2f99, "8c9d;8d64;8d70;8db3;8eab;8eca;8f9b;8fb0;8fb5;9091;9149;91c6;91cc;91d1;9577;9580;961c"),
  (0x2faa, "96b6;96b9;96e8;9751;975e;9762;9769;97cb;97ed;97f3;9801;98a8;98db;98df;9996;9999;99ac"),
  (0x2fbb, "9aa8;9ad8;9adf;9b25;9b2f;9b32;9b3c;9b5a;9ce5;9e75;9e7f;9ea5;9ebb;9ec3;9ecd;9ed1;9ef9"),
  (0x2fcc, "9efd;9f0e;9f13;9f20;9f3b;9f4a;9f52;9f8d;9f9c;9fa0"), (0x3000, "20"),
  (0x3036, "3012;;5341;5344;5345"),
  (0x304c, "304b 3099;;304d 3099;;304f 3099;;3051 3099;;3053 3099;;3055 3099;;3057 3099"),
  (0x305a, "3059 3099;;305b 3099;;305d 3099;;305f 3099;;3061 3099;;;3064 3099;;3066 3099"),
  (0x3069, "3068 3099;;;;;;;306f 3099;306f 309a;;3072 3099;3072 309a;;3075 3099;3075 309a"),
  (0x3079, "3078 3099;3078 309a;;307b 3099;307b 309a"),
  (0x3094, "3046 3099;;;;;;;20 3099;20 309a;;309d 3099;3088 308a"),
  (0x30ac, "30ab 3099;;30ad 3099;;30af 3099;;30b1 3099;;30b3 3099;;30b5 3099;;30b7 3099"),
  (0x30ba, "30b9 3099;;30bb 3099;;30bd 3099;;30bf 3099;;30c1 3099;;;30c4 3099;;30c6 3099"),
  (0x30c9, "30c8 3099;;;;;;;30cf 3099;30cf 309a;;30d2 3099;30d2 309a;;30d5 3099;30d5 309a"),
  (0x30d9, "30d8 3099;30d8 309a;;30db 3099;30db 309a"),
  (0x30f4, "30a6 3099;;;30ef 3099;30f0 3099;30f1 3099;30f2 3099;;;;30fd 3099;30b3 30c8"),
  (0x3131, "1100;1101;11aa;1102;11ac;11ad;1103;1104;1105;11b0;11b1;11b2;11b3;11b4;11b5;111a;1106"),
  (0x3142, "1107;1108;1121;1109;110a;110b;110c;110d;110e;110f;1110;1111;1112;1161;1162;1163;1164"),
  (0x3153, "1165;1166;1167;1168;1169;116a;116b;116c;116d;116e;116f;1170;1171;1172;1173;1174;1175"),
  (0x3164, "1160;1114;1115;11c7;11c8;11cc;11ce;11d3;11d7;11d9;111c;11dd;11df;111d;111e;1120;1122"),
  (0x3175, "1123;1127;1129;112b;112c;112d;112e;112f;1132;1136;1140;1147;114c;11f1;11f2;1157;1158"),
  (0x3186, "1159;1184;1185;1188;1191;1192;1194;119e;11a1;;;;4e00;4e8c;4e09;56db;4e0a;4e2d;4e0b"),
  (0x3199, "7532;4e59;4e19;4e01;5929;5730;4eba"),
  (0x3200, "28 1100 29;28 1102 29;28 1103 29;28 1105 29;28 1106 29;28 1107 29;28 1109 29"),
  (0x3207, "28 110b 29;28 110c 29;28 110e 29;28 110f 29;28 1110 29;28 1111 29;28 1112 29"),
  (0x320e, "28 1100 1161 29;28 1102 1161 29;28 1103 1161 29;28 1105 1161 29;28 1106 1161 29"),
  (0x3213, "28 1107 1161 29;28 1109 1161 29;28 110b 1161 29;28 110c 1161 29;28 110e 1161 29"),
  (0x3218, "28 110f 1161 29;28 1110 1161 29;28 1111 1161 29;28 1112 1161 29;28 110c 116e 29"),
  (0x321d, "28 110b 1169 110c 1165 11ab 29;28 110b 1169 1112 116e 29;;28 4e00 29;28 4e8c 29"),
  (0x3222, "28 4e09 29;28 56db 29;28 4e94 29;28 516d 29;28 4e03 29;28 516b 29;28 4e5d 29"),
  (0x3229, "28 5341 29;28 6708 29;28 706b 29;28 6c34 29;28 6728 29;28 91d1 29;28 571f 29"),
  (0x3230, "28 65e5 29;28 682a 29;28 6709 29;28 793e 29;28 540d 29;28 7279 29;28 8ca1 29"),
  (0x3237, "28 795d 29;28 52b4 29;28 4ee3 29;28 547c 29;28 5b66 29;28 76e3 29;28 4f01 29"),
  (0x323e, "28 8cc7 29;28 5354 29;28 796d 29;28 4f11 29;28 81ea 29;28 81f3 29;554f;5e7c;6587"),
  (0x3247, "7b8f;;;;;;;;;50 54 45;32 31;32 32;32 33;32 34;32 35;32 36;32 37;32 38;32 39;33 30"),
  (0x325b, "33 31;33 32;33 33;33 34;33 35;1100;1102;1103;1105;1106;1107;1109;110b;110c;110e;110f"),
  (0x326b, "1110;1111;1112;1100 1161;1102 1161;1103 1161;1105 1161;1106 1161;1107 1161;1109 1161"),
  (0x3275, "110b 1161;110c 1161;110e 1161;110f 1161;1110 1161;1111 1161;1112 1161"),
  (0x327c, "110e 1161 11b7 1100 1169;110c 116e 110b 1174;110b 116e;;4e00;4e8c;4e09;56db;4e94"),
  (0x3285, "516d;4e03;516b;4e5d;5341;6708;706b;6c34;6728;91d1;571f;65e5;682a;6709;793e;540d;7279"),
  (0x3296, "8ca1;795d;52b4;79d8;7537;5973;9069;512a;5370;6ce8;9805;4f11;5199;6b63;4e0a;4e2d;4e0b"),
  (0x32a7, "5de6;53f3;533b;5b97;5b66;76e3;4f01;8cc7;5354;591c;33 36;33 37;33 38;33 39;34 30"),
  (0x32b6, "34 31;34 32;34 33;34 34;34 35;34 36;34 37;34 38;34 39;35 30;31 6708;32 6708;33 6708"),
  (0x32c3, "34 6708;35 6708;36 6708;37 6708;38 6708;39 6708;31 30 6708;31 31 6708;31 32 6708"),
  (0x32cc, "48 67;65 72 67;65 56;4c 54 44;30a2;30a4;30a6;30a8;30aa;30ab;30ad;30af;30b1;30b3;30b5"),
  (0x32db, "30b7;30b9;30bb;30bd;30bf;30c1;30c4;30c6;30c8;30ca;30cb;30cc;30cd;30ce;30cf;30d2;30d5"),
  (0x32ec, "30d8;30db;30de;30df;30e0;30e1;30e2;30e4;30e6;30e8;30e9;30ea;30eb;30ec;30ed;30ef;30f0"),
  (0x32fd, "30f1;30f2;4ee4 548c;30a2 30cf 309a 30fc 30c8;30a2 30eb 30d5 30a1"),
  (0x3302, "30a2 30f3 30d8 309a 30a2;30a2 30fc 30eb;30a4 30cb 30f3 30af 3099;30a4 30f3 30c1"),
  (0x3306, "30a6 30a9 30f3;30a8 30b9 30af 30fc 30c8 3099;30a8 30fc 30ab 30fc;30aa 30f3 30b9"),
  (0x330a, "30aa 30fc 30e0;30ab 30a4 30ea;30ab 30e9 30c3 30c8;30ab 30ed 30ea 30fc"),
  (0x330e, "30ab 3099 30ed 30f3;30ab 3099 30f3 30de;30ad 3099 30ab 3099;30ad 3099 30cb 30fc"),
  (0x3312, "30ad 30e5 30ea 30fc;30ad 3099 30eb 30bf 3099 30fc;30ad 30ed"),
  (0x3315, "30ad 30ed 30af 3099 30e9 30e0;30ad 30ed 30e1 30fc 30c8 30eb;30ad 30ed 30ef 30c3 30c8"),
  (0x3318, "30af 3099 30e9 30e0;30af 3099 30e9 30e0 30c8 30f3;30af 30eb 30bb 3099 30a4 30ed"),
  (0x331b, "30af 30ed 30fc 30cd;30b1 30fc 30b9;30b3 30eb 30ca;30b3 30fc 30db 309a"),
  (0x331f, "30b5 30a4 30af 30eb;30b5 30f3 30c1 30fc 30e0;30b7 30ea 30f3 30af 3099;30bb 30f3 30c1"),
  (0x3323, "30bb 30f3 30c8;30bf 3099 30fc 30b9;30c6 3099 30b7;30c8 3099 30eb;30c8 30f3;30ca 30ce"),
  (0x3329, "30ce 30c3 30c8;30cf 30a4 30c4;30cf 309a 30fc 30bb 30f3 30c8;30cf 309a 30fc 30c4"),
  (0x332d, "30cf 3099 30fc 30ec 30eb;30d2 309a 30a2 30b9 30c8 30eb;30d2 309a 30af 30eb"),
  (0x3330, "30d2 309a 30b3;30d2 3099 30eb;30d5 30a1 30e9 30c3 30c8 3099;30d5 30a3 30fc 30c8"),
  (0x3334, "30d5 3099 30c3 30b7 30a7 30eb;30d5 30e9 30f3;30d8 30af 30bf 30fc 30eb;30d8 309a 30bd"),
  (0x3338, "30d8 309a 30cb 30d2;30d8 30eb 30c4;30d8 309a 30f3 30b9;30d8 309a 30fc 30b7 3099"),
  (0x333c, "30d8 3099 30fc 30bf;30db 309a 30a4 30f3 30c8;30db 3099 30eb 30c8;30db 30f3"),
  (0x3340, "30db 309a 30f3 30c8 3099;30db 30fc 30eb;30db 30fc 30f3;30de 30a4 30af 30ed"),
  (0x3344, "30de 30a4 30eb;30de 30c3 30cf;30de 30eb 30af;30de 30f3 30b7 30e7 30f3"),
  (0x3348, "30df 30af 30ed 30f3;30df 30ea;30df 30ea 30cf 3099 30fc 30eb;30e1 30ab 3099"),
  (0x334c, "30e1 30ab 3099 30c8 30f3;30e1 30fc 30c8 30eb;30e4 30fc 30c8 3099;30e4 30fc 30eb"),
  (0x3350, "30e6 30a2 30f3;30ea 30c3 30c8 30eb;30ea 30e9;30eb 30d2 309a 30fc"),
  (0x3354, "30eb 30fc 30d5 3099 30eb;30ec 30e0;30ec 30f3 30c8 30b1 3099 30f3;30ef 30c3 30c8"),
  (0x3358, "30 70b9;31 70b9;32 70b9;33 70b9;34 70b9;35 70b9;36 70b9;37 70b9;38 70b9;39 70b9"),
  (0x3362, "31 30 70b9;31 31 70b9;31 32 70b9;31 33 70b9;31 34 70b9;31 35 70b9;31 36 70b9"),
  (0x3369, "31 37 70b9;31 38 70b9;31 39 70b9;32 30 70b9;32 31 70b9;32 32 70b9;32 33 70b9"),
  (0x3370, "32 34 70b9;68 50 61;64 61;41 55;62 61 72;6f 56;70 63;64 6d;64 6d 32;64 6d 33;49 55"),
  (0x337b, "5e73 6210;662d 548c;5927 6b63;660e 6cbb;682a 5f0f 4f1a 793e;70 41;6e 41;3bc 41;6d 41"),
  (0x3384, "6b 41;4b 42;4d 42;47 42;63 61 6c;6b 63 61 6c;70 46;6e 46;3bc 46;3bc 67;6d 67;6b 67"),
  (0x3390, "48 7a;6b 48 7a;4d 48 7a;47 48 7a;54 48 7a;3bc 6c;6d 6c;64 6c;6b 6c;66 6d;6e 6d"),
  (0x339b, "3bc 6d;6d 6d;63 6d;6b 6d;6d 6d 32;63 6d 32;6d 32;6b 6d 32;6d 6d 33;63 6d 33;6d 33"),
  (0x33a6, "6b 6d 33;6d 2215 73;6d 2215 73 32;50 61;6b 50 61;4d 50 61;47 50 61;72 61 64"),
  (0x33ae, "72 61 64 2215 73;72 61 64 2215 73 32;70 73;6e 73;3bc 73;6d 73;70 56;6e 56;3bc 56"),
  (0x33b7, "6d 56;6b 56;4d 56;70 57;6e 57;3bc 57;6d 57;6b 57;4d 57;6b 3a9;4d 3a9;61 2e 6d 2e"),
  (0x33c3, "42 71;63 63;63 64;43 2215 6b 67;43 6f 2e;64 42;47 79;68 61;48 50;69 6e;4b 4b;4b 4d"),
  (0x33cf, "6b 74;6c 6d;6c 6e;6c 6f 67;6c 78;6d 62;6d 69 6c;6d 6f 6c;50 48;70 2e 6d 2e;50 50 4d"),
  (0x33da, "50 52;73 72;53 76;57 62;56 2215 6d;41 2215 6d;31 65e5;32 65e5;33 65e5;34 65e5"),
  (0x33e4, "35 65e5;36 65e5;37 65e5;38 65e5;39 65e5;31 30 65e5;31 31 65e5;31 32 65e5;31 33 65e5"),
  (0x33ed, "31 34 65e5;31 35 65e5;31 36 65e5;31 37 65e5;31 38 65e5;31 39 65e5;32 30 65e5"),
  (0x33f4, "32 31 65e5;32 32 65e5;32 33 65e5;32 34 65e5;32 35 65e5;32 36 65e5;32 37 65e5"),
  (0x33fb, "32 38 65e5;32 39 65e5;33 30 65e5;33 31 65e5;67 61 6c"), (0xa69c, "44a;44c"),
  (0xa770, "a76f"), (0xa7f2, "43;46;51;;;;126;153"), (0xab5c, "a727;ab37;26b;ab52;;;;;;;;;;28d"),
  (0xf900, "8c48;66f4;8eca;8cc8;6ed1;4e32;53e5;9f9c;9f9c;5951;91d1;5587;5948;61f6;7669;7f85;863f"),
  (0xf911, "87ba;88f8;908f;6a02;6d1b;70d9;73de;843d;916a;99f1;4e82;5375;6b04;721b;862d;9e1e;5d50"),
  (0xf922, "6feb;85cd;8964;62c9;81d8;881f;5eca;6717;6d6a;72fc;90ce;4f86;51b7;52de;64c4;6ad3;7210"),
  (0xf933, "76e7;8001;8606;865c;8def;9732;9b6f;9dfa;788c;797f;7da0;83c9;9304;9e7f;8ad6;58df;5f04"),
  (0xf944, "7c60;807e;7262;78ca;8cc2;96f7;58d8;5c62;6a13;6dda;6f0f;7d2f;7e37;964b;52d2;808b;51dc"),
  (0xf955, "51cc;7a1c;7dbe;83f1;9675;8b80;62cf;6a02;8afe;4e39;5be7;6012;7387;7570;5317;78fb;4fbf"),
  (0xf966, "5fa9;4e0d;6ccc;6578;7d22;53c3;585e;7701;8449;8aaa;6bba;8fb0;6c88;62fe;82e5;63a0;7565"),
  (0xf977, "4eae;5169;51c9;6881;7ce7;826f;8ad2;91cf;52f5;5442;5973;5eec;65c5;6ffe;792a;95ad;9a6a"),
  (0xf988, "9e97;9ece;529b;66c6;6b77;8f62;5e74;6190;6200;649a;6f23;7149;7489;79ca;7df4;806f;8f26"),
  (0xf999, "84ee;9023;934a;5217;52a3;54bd;70c8;88c2;8aaa;5ec9;5ff5;637b;6bae;7c3e;7375;4ee4;56f9"),
  (0xf9aa, "5be7;5dba;601c;73b2;7469;7f9a;8046;9234;96f6;9748;9818;4f8b;79ae;91b4;96b8;60e1;4e86"),
  (0xf9bb, "50da;5bee;5c3f;6599;6a02;71ce;7642;84fc;907c;9f8d;6688;962e;5289;677b;67f3;6d41;6e9c"),
  (0xf9cc, "7409;7559;786b;7d10;985e;516d;622e;9678;502b;5d19;6dea;8f2a;5f8b;6144;6817;7387;9686"),
  (0xf9dd, "5229;540f;5c65;6613;674e;68a8;6ce5;7406;75e2;7f79;88cf;88e1;91cc;96e2;533f;6eba;541d"),
  (0xf9ee, "71d0;7498;85fa;96a3;9c57;9e9f;6797;6dcb;81e8;7acb;7b20;7c92;72c0;7099;8b58;4ec0;8336"),
  (0xf9ff, "523a;5207;5ea6;62d3;7cd6;5b85;6d1e;66b4;8f3b;884c;964d;898b;5ed3;5140;55c0;;;585a"),
  (0xfa12, "6674;;;51de;732a;76ca;793c;795e;7965;798f;9756;7cbe;7fbd;;8612;;8af8;;;9038;90fd"),
  (0xfa2a, "98ef;98fc;9928;9db4;90de;96b7;4fae;50e7;514d;52c9;52e4;5351;559d;5606;5668;5840;58a8"),
  (0xfa3b, "5c64;5c6e;6094;6168;618e;61f2;654f;65e2;6691;6885;6d77;6e1a;6f22;716e;722b;7422;7891"),
  (0xfa4c, "793e;7949;7948;7950;7956;795d;798d;798e;7a40;7a81;7bc0;7df4;7e09;7e41;7f72;8005;81ed"),
  (0xfa5d, "8279;8279;8457;8910;8996;8b01;8b39;8cd3;8d08;8fb6;9038;96e3;97ff;983b;6075;242ee"),
  (0xfa6d, "8218;;;4e26;51b5;5168;4f80;5145;5180;52c7;52fa;559d;5555;5599;55e2;585a;58b3;5944"),
  (0xfa7f, "5954;5a62;5b28;5ed2;5ed9;5f69;5fad;60d8;614e;6108;618e;6160;61f2;6234;63c4;641c;6452"),
  (0xfa90, "6556;6674;6717;671b;6756;6b79;6bba;6d41;6edb;6ecb;6f22;701e;716e;77a7;7235;72af;732a"),
  (0xfaa1, "7471;7506;753b;761d;761f;76ca;76db;76f4;774a;7740;78cc;7ab1;7bc0;7c7b;7d5b;7df4;7f3e"),
  (0xfab2, "8005;8352;83ef;8779;8941;8986;8996;8abf;8af8;8acb;8b01;8afe;8aed;8b39;8b8a;8d08;8f38"),
  (0xfac3, "9072;9199;9276;967c;96e3;9756;97db;97ff;980b;983b;9b12;9f9c;2284a;22844;233d5;3b9d"),
  (0xfad3, "4018;4039;25249;25cd0;27ed3;9f43;9f8e"),
  (0xfb00, "66 66;66 69;66 6c;66 66 69;66 66 6c;73 74;73 74"),
  (0xfb13, "574 576;574 565;574 56b;57e 576;574 56d;;;;;;5d9 5b4;;5f2 5b7;5e2;5d0;5d3;5d4;5db"),
  (0xfb25, "5dc;5dd;5e8;5ea;2b;5e9 5c1;5e9 5c2;5e9 5bc 5c1;5e9 5bc 5c2;5d0 5b7;5d0 5b8;5d0 5bc"),
  (0xfb31, "5d1 5bc;5d2 5bc;5d3 5bc;5d4 5bc;5d5 5bc;5d6 5bc;;5d8 5bc;5d9 5bc;5da 5bc;5db 5bc"),
  (0xfb3c, "5dc 5bc;;5de 5bc;;5e0 5bc;5e1 5bc;;5e3 5bc;5e4 5bc;;5e6 5bc;5e7 5bc;5e8 5bc;5e9 5bc"),
  (0xfb4a, "5ea 5bc;5d5 5b9;5d1 5bf;5db 5bf;5e4 5bf;5d0 5dc;671;671;67b;67b;67b;67b;67e;67e;67e"),
  (0xfb59, "67e;680;680;680;680;67a;67a;67a;67a;67f;67f;67f;67f;679;679;679;679;6a4;6a4;6a4;6a4"),
  (0xfb6e, "6a6;6a6;6a6;6a6;684;684;684;684;683;683;683;683;686;686;686;686;687;687;687;687;68d"),
  (0xfb83, "68d;68c;68c;68e;68e;688;688;698;698;691;691;6a9;6a9;6a9;6a9;6af;6af;6af;6af;6b3;6b3"),
  (0xfb98, "6b3;6b3;6b1;6b1;6b1;6b1;6ba;6ba;6bb;6bb;6bb;6bb;6d5 654;6d5 654;6c1;6c1;6c1;6c1;6be"),
  (0xfbab, "6be;6be;6be;6d2;6d2;6d2 654;6d2 654"),
  (0xfbd3, "6ad;6ad;6ad;6ad;6c7;6c7;6c6;6c6;6c8;6c8;6c7 674;6cb;6cb;6c5;6c5;6c9;6c9;6d0;6d0;6d0"),
  (0xfbe7, "6d0;649;649;64a 654 627;64a 654 627;64a 654 6d5;64a 654 6d5;64a 654 648;64a 654 648"),
  (0xfbf0, "64a 654 6c7;64a 654 6c7;64a 654 6c6;64a 654 6c6;64a 654 6c8;64a 654 6c8;64a 654 6d0"),
  (0xfbf7, "64a 654 6d0;64a 654 6d0;64a 654 649;64a 654 649;64a 654 649;6cc;6cc;6cc;6cc"),
  (0xfc00, "64a 654 62c;64a 654 62d;64a 654 645;64a 654 649;64a 654 64a;628 62c;628 62d;628 62e"),
  (0xfc08, "628 645;628 649;628 64a;62a 62c;62a 62d;62a 62e;62a 645;62a 649;62a 64a;62b 62c"),
  (0xfc12, "62b 645;62b 649;62b 64a;62c 62d;62c 645;62d 62c;62d 645;62e 62c;62e 62d;62e 645"),
  (0xfc1c, "633 62c;633 62d;633 62e;633 645;635 62d;635 645;636 62c;636 62d;636 62e;636 645"),
  (0xfc26, "637 62d;637 645;638 645;639 62c;639 645;63a 62c;63a 645;641 62c;641 62d;641 62e"),
  (0xfc30, "641 645;641 649;641 64a;642 62d;642 645;642 649;642 64a;643 627;643 62c;643 62d"),
  (0xfc3a, "643 62e;643 644;643 645;643 649;643 64a;644 62c;644 62d;644 62e;644 645;644 649"),
  (0xfc44, "644 64a;645 62c;645 62d;645 62e;645 645;645 649;645 64a;646 62c;646 62d;646 62e"),
  (0xfc4e, "646 645;646 649;646 64a;647 62c;647 645;647 649;647 64a;64a 62c;64a 62d;64a 62e"),
  (0xfc58, "64a 645;64a 649;64a 64a;630 670;631 670;649 670;20 64c 651;20 64d 651;20 64e 651"),
  (0xfc61, "20 64f 651;20 650 651;20 651 670;64a 654 631;64a 654 632;64a 654 645;64a 654 646"),
  (0xfc68, "64a 654 649;64a 654 64a;628 631;628 632;628 645;628 646;628 649;628 64a;62a 631"),
  (0xfc71, "62a 632;62a 645;62a 646;62a 649;62a 64a;62b 631;62b 632;62b 645;62b 646;62b 649"),
  (0xfc7b, "62b 64a;641 649;641 64a;642 649;642 64a;643 627;643 644;643 645;643 649;643 64a"),
  (0xfc85, "644 645;644 649;644 64a;645 627;645 645;646 631;646 632;646 645;646 646;646 649"),
  (0xfc8f, "646 64a;649 670;64a 631;64a 632;64a 645;64a 646;64a 649;64a 64a;64a 654 62c"),
  (0xfc98, "64a 654 62d;64a 654 62e;64a 654 645;64a 654 647;628 62c;628 62d;628 62e;628 645"),
  (0xfca0, "628 647;62a 62c;62a 62d;62a 62e;62a 645;62a 647;62b 645;62c 62d;62c 645;62d 62c"),
  (0xfcaa, "62d 645;62e 62c;62e 645;633 62c;633 62d;633 62e;633 645;635 62d;635 62e;635 645"),
  (0xfcb4, "636 62c;636 62d;636 62e;636 645;637 62d;638 645;639 62c;639 645;63a 62c;63a 645"),
  (0xfcbe, "641 62c;641 62d;641 62e;641 645;642 62d;642 645;643 62c;643 62d;643 62e;643 644"),
  (0xfcc8, "643 645;644 62c;644 62d;644 62e;644 645;644 647;645 62c;645 62d;645 62e;645 645"),
  (0xfcd2, "646 62c;646 62d;646 62e;646 645;646 647;647 62c;647 645;647 670;64a 62c;64a 62d"),
  (0xfcdc, "64a 62e;64a 645;64a 647;64a 654 645;64a 654 647;628 645;628 647;62a 645;62a 647"),
  (0xfce5, "62b 645;62b 647;633 645;633 647;634 645;634 647;643 644;643 645;644 645;646 645"),
  (0xfcef, "646 647;64a 645;64a 647;640 64e 651;640 64f 651;640 650 651;637 649;637 64a;639 649"),
  (0xfcf8, "639 64a;63a 649;63a 64a;633 649;633 64a;634 649;634 64a;62d 649;62d 64a;62c 649"),
  (0xfd02, "62c 64a;62e 649;62e 64a;635 649;635 64a;636 649;636 64a;634 62c;634 62d;634 62e"),
  (0xfd0c, "634 645;634 631;633 631;635 631;636 631;637 649;637 64a;639 649;639 64a;63a 649"),
  (0xfd16, "63a 64a;633 649;633 64a;634 649;634 64a;62d 649;62d 64a;62c 649;62c 64a;62e 649"),
  (0xfd20, "62e 64a;635 649;635 64a;636 649;636 64a;634 62c;634 62d;634 62e;634 645;634 631"),
  (0xfd2a, "633 631;635 631;636 631;634 62c;634 62d;634 62e;634 645;633 647;634 647;637 645"),
  (0xfd34, "633 62c;633 62d;633 62e;634 62c;634 62d;634 62e;637 645;638 645;627 64b;627 64b"),
  (0xfd50, "62a 62c 645;62a 62d 62c;62a 62d 62c;62a 62d 645;62a 62e 645;62a 645 62c;62a 645 62d"),
  (0xfd57, "62a 645 62e;62c 645 62d;62c 645 62d;62d 645 64a;62d 645 649;633 62d 62c;633 62c 62d"),
  (0xfd5e, "633 62c 649;633 645 62d;633 645 62d;633 645 62c;633 645 645;633 645 645;635 62d 62d"),
  (0xfd65, "635 62d 62d;635 645 645;634 62d 645;634 62d 645;634 62c 64a;634 645 62e;634 645 62e"),
  (0xfd6c, "634 645 645;634 645 645;636 62d 649;636 62e 645;636 62e 645;637 645 62d;637 645 62d"),
  (0xfd73, "637 645 645;637 645 64a;639 62c 645;639 645 645;639 645 645;639 645 649;63a 645 645"),
  (0xfd7a, "63a 645 64a;63a 645 649;641 62e 645;641 62e 645;642 645 62d;642 645 645;644 62d 645"),
  (0xfd81, "644 62d 64a;644 62d 649;644 62c 62c;644 62c 62c;644 62e 645;644 62e 645;644 645 62d"),
  (0xfd88, "644 645 62d;645 62d 62c;645 62d 645;645 62d 64a;645 62c 62d;645 62c 645;645 62e 62c"),
  (0xfd8f, "645 62e 645;;;645 62c 62e;647 645 62c;647 645 645;646 62d 645;646 62d 649"),
  (0xfd97, "646 62c 645;646 62c 645;646 62c 649;646 645 64a;646 645 649;64a 645 645;64a 645 645"),
  (0xfd9e, "628 62e 64a;62a 62c 64a;62a 62c 649;62a 62e 64a;62a 62e 649;62a 645 64a;62a 645 649"),
  (0xfda5, "62c 645 64a;62c 62d 649;62c 645 649;633 62e 649;635 62d 64a;634 62d 64a;636 62d 64a"),
  (0xfdac, "644 62c 64a;644 645 64a;64a 62d 64a;64a 62c 64a;64a 645 64a;645 645 64a;642 645 64a"),
  (0xfdb3, "646 62d 64a;642 645 62d;644 62d 645;639 645 64a;643 645 64a;646 62c 62d;645 62e 64a"),
  (0xfdba, "644 62c 645;643 645 645;644 62c 645;646 62c 62d;62c 62d 64a;62d 62c 64a;645 62c 64a"),
  (0xfdc1, "641 645 64a;628 62d 64a;643 645 645;639 62c 645;635 645 645;633 62e 64a;646 62c 64a"),
  (0xfdf0, "635 644 6d2;642 644 6d2;627 644 644 647;627 643 628 631;645 62d 645 62f"),
  (0xfdf5, "635 644 639 645;631 633 648 644;639 644 64a 647;648 633 644 645;635 644 649"),
  (0xfdfa, "635 644 649 20 627 644 644 647 20 639 644 64a 647 20 648 633 644 645"),
  (0xfdfb, "62c 644 20 62c 644 627 644 647;631 6cc 627 644"),
  (0xfe10, "2c;3001;3002;3a;3b;21;3f;3016;3017;2e 2e 2e"),
  (0xfe30, "2e 2e;2014;2013;5f;5f;28;29;7b;7d;3014;3015;3010;3011;300a;300b;3008;3009;300c;300d"),
  (0xfe43, "300e;300f;;;5b;5d;20 305;20 305;20 305;20 305;5f;5f;5f;2c;3001;2e;;3b;3a;3f;21;2014"),
  (0xfe59, "28;29;7b;7d;3014;3015;23;26;2a;2b;2d;3c;3e;3d;;5c;24;25;40;;;;;20 64b;640 64b;20 64c"),
  (0xfe74, "20 64d;;20 64e;640 64e;20 64f;640 64f;20 650;640 650;20 651;640 651;20 652;640 652"),
  (0xfe80, "621;627 653;627 653;627 654;627 654;648 654;648 654;627 655;627 655;64a 654;64a 654"),
  (0xfe8b, "64a 654;64a 654;627;627;628;628;628;628;629;629;62a;62a;62a;62a;62b;62b;62b;62b;62c"),
  (0xfe9e, "62c;62c;62c;62d;62d;62d;62d;62e;62e;62e;62e;62f;62f;630;630;631;631;632;632;633;633"),
  (0xfeb3, "633;633;634;634;634;634;635;635;635;635;636;636;636;636;637;637;637;637;638;638;638"),
  (0xfec8, "638;639;639;639;639;63a;63a;63a;63a;641;641;641;641;642;642;642;642;643;643;643;643"),
  (0xfedd, "644;644;644;644;645;645;645;645;646;646;646;646;647;647;647;647;648;648;649;649;64a"),
  (0xfef2, "64a;64a;64a;644 627 653;644 627 653;644 627 654;644 627 654;644 627 655;644 627 655"),
  (0xfefb, "644 627;644 627;;;;;21;22;23;24;25;26;27;28;29;2a;2b;2c;2d;2e;2f;30;31;32;33;34;35"),
  (0xff16, "36;37;38;39;3a;3b;3c;3d;3e;3f;40;41;42;43;44;45;46;47;48;49;4a;4b;4c;4d;4e;4f;50;51"),
  (0xff32, "52;53;54;55;56;57;58;59;5a;5b;5c;5d;5e;5f;60;61;62;63;64;65;66;67;68;69;6a;6b;6c;6d"),
  (0xff4e, "6e;6f;70;71;72;73;74;75;76;77;78;79;7a;7b;7c;7d;7e;2985;2986;3002;300c;300d;3001"),
  (0xff65, "30fb;30f2;30a1;30a3;30a5;30a7;30a9;30e3;30e5;30e7;30c3;30fc;30a2;30a4;30a6;30a8;30aa"),
  (0xff76, "30ab;30ad;30af;30b1;30b3;30b5;30b7;30b9;30bb;30bd;30bf;30c1;30c4;30c6;30c8;30ca;30cb"),
  (0xff87, "30cc;30cd;30ce;30cf;30d2;30d5;30d8;30db;30de;30df;30e0;30e1;30e2;30e4;30e6;30e8;30e9"),
  (0xff98, "30ea;30eb;30ec;30ed;30ef;30f3;3099;309a;1160;1100;1101;11aa;1102;11ac;11ad;1103;1104"),
  (0xffa9, "1105;11b0;11b1;11b2;11b3;11b4;11b5;111a;1106;1107;1108;1121;1109;110a;110b;110c;110d"),
  (0xffba, "110e;110f;1110;1111;1112;;;;1161;1162;1163;1164;1165;1166;;;1167;1168;1169;116a;116b"),
  (0xffcf, "116c;;;116d;116e;116f;1170;1171;1172;;;1173;1174;1175;;;;a2;a3;ac;20 304;a6;a5;20a9"),
  (0xffe8, "2502;2190;2191;2192;2193;25a0;25cb"),
  (0x10781, "2d0;2d1;e6;299;253;;2a3;ab66;2a5;2a4;256;257;1d91;258;25e;2a9;264;262;260;29b;127"),
  (0x10796, "29c;267;284;2aa;2ab;26c;1df04;a78e;26e;1df05;28e;1df06;f8;276;277;71;27a;1df08;27d"),
  (0x107a9, "27e;280;2a8;2a6;ab67;2a7;288;2c71;;28f;2a1;2a2;298;1c0;1c1;1c2;1df0a;1df1e"),
  (0x1109a, "11099 110ba;;1109b 110ba"), (0x110ab, "110a5 110ba"),
  (0x1112e, "11131 11127;11132 11127"), (0x1134b, "11347 1133e;11347 11357"),
  (0x114bb, "114b9 114ba;114b9 114b0;;114b9 114bd"), (0x115ba, "115b8 115af;115b9 115af"),
  (0x11938, "11935 11930"),
  (0x1d15e, "1d157 1d165;1d158 1d165;1d158 1d165 1d16e;1d158 1d165 1d16f;1d158 1d165 1d170"),
  (0x1d163, "1d158 1d165 1d171;1d158 1d165 1d172"),
  (0x1d1bb, "1d1b9 1d165;1d1ba 1d165;1d1b9 1d165 1d16e;1d1ba 1d165 1d16e;1d1b9 1d165 1d16f"),
  (0x1d1c0, "1d1ba 1d165 1d16f"),
  (0x1d400, "41;42;43;44;45;46;47;48;49;4a;4b;4c;4d;4e;4f;50;51;52;53;54;55;56;57;58;59;5a;61;62"),
  (0x1d41c, "63;64;65;66;67;68;69;6a;6b;6c;6d;6e;6f;70;71;72;73;74;75;76;77;78;79;7a;41;42;43;44"),
  (0x1d438, "45;46;47;48;49;4a;4b;4c;4d;4e;4f;50;51;52;53;54;55;56;57;58;59;5a;61;62;63;64;65;66"),
  (0x1d454, "67;;69;6a;6b;6c;6d;6e;6f;70;71;72;73;74;75;76;77;78;79;7a;41;42;43;44;45;46;47;48;49"),
  (0x1d471, "4a;4b;4c;4d;4e;4f;50;51;52;53;54;55;56;57;58;59;5a;61;62;63;64;65;66;67;68;69;6a;6b"),
  (0x1d48d, "6c;6d;6e;6f;70;71;72;73;74;75;76;77;78;79;7a;41;;43;44;;;47;;;4a;4b;;;4e;4f;50;51"),
  (0x1d4ae, "53;54;55;56;57;58;59;5a;61;62;63;64;;66;;68;69;6a;6b;6c;6d;6e;;70;71;72;73;74;75;76"),
  (0x1d4cc, "77;78;79;7a;41;42;43;44;45;46;47;48;49;4a;4b;4c;4d;4e;4f;50;51;52;53;54;55;56;57;58"),
  (0x1d4e8, "59;5a;61;62;63;64;65;66;67;68;69;6a;6b;6c;6d;6e;6f;70;71;72;73;74;75;76;77;78;79;7a"),
  (0x1d504, "41;42;;44;45;46;47;;;4a;4b;4c;4d;4e;4f;50;51;;53;54;55;56;57;58;59;;61;62;63;64;65"),
  (0x1d523, "66;67;68;69;6a;6b;6c;6d;6e;6f;70;71;72;73;74;75;76;77;78;79;7a;41;42;;44;45;46;47"),
  (0x1d540, "49;4a;4b;4c;4d;;4f;;;;53;54;55;56;57;58;59;;61;62;63;64;65;66;67;68;69;6a;6b;6c;6d"),
  (0x1d55f, "6e;6f;70;71;72;73;74;75;76;77;78;79;7a;41;42;43;44;45;46;47;48;49;4a;4b;4c;4d;4e;4f"),
  (0x1d57b, "50;51;52;53;54;55;56;57;58;59;5a;61;62;63;64;65;66;67;68;69;6a;6b;6c;6d;6e;6f;70;71"),
  (0x1d597, "72;73;74;75;76;77;78;79;7a;41;42;43;44;45;46;47;48;49;4a;4b;4c;4d;4e;4f;50;51;52;53"),
  (0x1d5b3, "54;55;56;57;58;59;5a;61;62;63;64;65;66;67;68;69;6a;6b;6c;6d;6e;6f;70;71;72;73;74;75"),
  (0x1d5cf, "76;77;78;79;7a;41;42;43;44;45;46;47;48;49;4a;4b;4c;4d;4e;4f;50;51;52;53;54;55;56;57"),
  (0x1d5eb, "58;59;5a;61;62;63;64;65;66;67;68;69;6a;6b;6c;6d;6e;6f;70;71;72;73;74;75;76;77;78;79"),
  (0x1d607, "7a;41;42;43;44;45;46;47;48;49;4a;4b;4c;4d;4e;4f;50;51;52;53;54;55;56;57;58;59;5a;61"),
  (0x1d623, "62;63;64;65;66;67;68;69;6a;6b;6c;6d;6e;6f;70;71;72;73;74;75;76;77;78;79;7a;41;42;43"),
  (0x1d63f, "44;45;46;47;48;49;4a;4b;4c;4d;4e;4f;50;51;52;53;54;55;56;57;58;59;5a;61;62;63;64;65"),
  (0x1d65b, "66;67;68;69;6a;6b;6c;6d;6e;6f;70;71;72;73;74;75;76;77;78;79;7a;41;42;43;44;45;46;47"),
  (0x1d677, "48;49;4a;4b;4c;4d;4e;4f;50;51;52;53;54;55;56;57;58;59;5a;61;62;63;64;65;66;67;68;69"),
  (0x1d693, "6a;6b;6c;6d;6e;6f;70;71;72;73;74;75;76;77;78;79;7a;131;237;;;391;392;393;394;395;396"),
  (0x1d6ae, "397;398;399;39a;39b;39c;39d;39e;39f;3a0;3a1;398;3a3;3a4;3a5;3a6;3a7;3a8;3a9;2207;3b1"),
  (0x1d6c3, "3b2;3b3;3b4;3b5;3b6;3b7;3b8;3b9;3ba;3bb;3bc;3bd;3be;3bf;3c0;3c1;3c2;3c3;3c4;3c5;3c6"),
  (0x1d6d8, "3c7;3c8;3c9;2202;3b5;3b8;3ba;3c6;3c1;3c0;391;392;393;394;395;396;397;398;399;39a;39b"),
  (0x1d6ed, "39c;39d;39e;39f;3a0;3a1;398;3a3;3a4;3a5;3a6;3a7;3a8;3a9;2207;3b1;3b2;3b3;3b4;3b5;3b6"),
  (0x1d702, "3b7;3b8;3b9;3ba;3bb;3bc;3bd;3be;3bf;3c0;3c1;3c2;3c3;3c4;3c5;3c6;3c7;3c8;3c9;2202;3b5"),
  (0x1d717, "3b8;3ba;3c6;3c1;3c0;391;392;393;394;395;396;397;398;399;39a;39b;39c;39d;39e;39f;3a0"),
  (0x1d72c, "3a1;398;3a3;3a4;3a5;3a6;3a7;3a8;3a9;2207;3b1;3b2;3b3;3b4;3b5;3b6;3b7;3b8;3b9;3ba;3bb"),
  (0x1d741, "3bc;3bd;3be;3bf;3c0;3c1;3c2;3c3;3c4;3c5;3c6;3c7;3c8;3c9;2202;3b5;3b8;3ba;3c6;3c1;3c0"),
  (0x1d756, "391;392;393;394;395;396;397;398;399;39a;39b;39c;39d;39e;39f;3a0;3a1;398;3a3;3a4;3a5"),
  (0x1d76b, "3a6;3a7;3a8;3a9;2207;3b1;3b2;3b3;3b4;3b5;3b6;3b7;3b8;3b9;3ba;3bb;3bc;3bd;3be;3bf;3c0"),
  (0x1d780, "3c1;3c2;3c3;3c4;3c5;3c6;3c7;3c8;3c9;2202;3b5;3b8;3ba;3c6;3c1;3c0;391;392;393;394;395"),
  (0x1d795, "396;397;398;399;39a;39b;39c;39d;39e;39f;3a0;3a1;398;3a3;3a4;3a5;3a6;3a7;3a8;3a9;2207"),
  (0x1d7aa, "3b1;3b2;3b3;3b4;3b5;3b6;3b7;3b8;3b9;3ba;3bb;3bc;3bd;3be;3bf;3c0;3c1;3c2;3c3;3c4;3c5"),
  (0x1d7bf, "3c6;3c7;3c8;3c9;2202;3b5;3b8;3ba;3c6;3c1;3c0;3dc;3dd;;;30;31;32;33;34;35;36;37;38;39"),
  (0x1d7d8, "30;31;32;33;34;35;36;37;38;39;30;31;32;33;34;35;36;37;38;39;30;31;32;33;34;35;36;37"),
  (0x1d7f4, "38;39;30;31;32;33;34;35;36;37;38;39"),
  (0x1ee00, "627;628;62c;62f;;648;632;62d;637;64a;643;644;645;646;633;639;641;635;642;631;634;62a"),
  (0x1ee16, "62b;62e;630;636;638;63a;66e;6ba;6a1;66f;;628;62c;;647;;;62d;;64a;643;644;645;646;633"),
  (0x1ee2f, "639;641;635;642;;634;62a;62b;62e;;636;;63a;;;;;;;62c;;;;;62d;;64a;;644;;646;633;639"),
  (0x1ee51, "635;642;;634;;;62e;;636;;63a;;6ba;;66f;;628;62c;;647;;;62d;637;64a;643;;645;646;633"),
  (0x1ee6f, "639;641;635;642;;634;62a;62b;62e;;636;638;63a;66e;;6a1;;627;628;62c;62f;647;648;632"),
  (0x1ee87, "62d;637;64a;;644;645;646;633;639;641;635;642;631;634;62a;62b;62e;630;636;638;63a"),
  (0x1eea1, "628;62c;62f;;648;632;62d;637;64a;;644;645;646;633;639;641;635;642;631;634;62a;62b"),
  (0x1eeb7, "62e;630;636;638;63a"),
  (0x1f100, "30 2e;30 2c;31 2c;32 2c;33 2c;34 2c;35 2c;36 2c;37 2c;38 2c;39 2c;;;;;;28 41 29"),
  (0x1f111, "28 42 29;28 43 29;28 44 29;28 45 29;28 46 29;28 47 29;28 48 29;28 49 29;28 4a 29"),
  (0x1f11a, "28 4b 29;28 4c 29;28 4d 29;28 4e 29;28 4f 29;28 50 29;28 51 29;28 52 29;28 53 29"),
  (0x1f123, "28 54 29;28 55 29;28 56 29;28 57 29;28 58 29;28 59 29;28 5a 29;3014 53 3015;43;52"),
  (0x1f12d, "43 44;57 5a;;41;42;43;44;45;46;47;48;49;4a;4b;4c;4d;4e;4f;50;51;52;53;54;55;56;57;58"),
  (0x1f148, "59;5a;48 56;4d 56;53 44;53 53;50 50 56;57 43"), (0x1f16a, "4d 43;4d 44;4d 52"),
  (0x1f190, "44 4a"), (0x1f200, "307b 304b;30b3 30b3;30b5"),
  (0x1f210, "624b;5b57;53cc;30c6 3099;4e8c;591a;89e3;5929;4ea4;6620;7121;6599;524d;5f8c;518d;65b0"),
  (0x1f220, "521d;7d42;751f;8ca9;58f0;5439;6f14;6295;6355;4e00;4e09;904a;5de6;4e2d;53f3;6307;8d70"),
  (0x1f231, "6253;7981;7a7a;5408;6e80;6709;6708;7533;5272;55b6;914d;;;;;3014 672c 3015"),
  (0x1f241, "3014 4e09 3015;3014 4e8c 3015;3014 5b89 3015;3014 70b9 3015;3014 6253 3015"),
  (0x1f246, "3014 76d7 3015;3014 52dd 3015;3014 6557 3015;;;;;;;;5f97;53ef"),
  (0x1fbf0, "30;31;32;33;34;35;36;37;38;39"),
  (0x2f800, "4e3d;4e38;4e41;20122;4f60;4fae;4fbb;5002;507a;5099;50e7;50cf;349e;2063a;514d;5154"),
  (0x2f810, "5164;5177;2051c;34b9;5167;518d;2054b;5197;51a4;4ecc;51ac;51b5;291df;51f5;5203;34df"),
  (0x2f820, "523b;5246;5272;5277;3515;52c7;52c9;52e4;52fa;5305;5306;5317;5349;5351;535a;5373;537d"),
  (0x2f831, "537f;537f;537f;20a2c;7070;53ca;53df;20b63;53eb;53f1;5406;549e;5438;5448;5468;54a2"),
  (0x2f841, "54f6;5510;5553;5563;5584;5584;5599;55ab;55b3;55c2;5716;5606;5717;5651;5674;5207;58ee"),
  (0x2f852, "57ce;57f4;580d;578b;5832;5831;58ac;214e4;58f2;58f7;5906;591a;5922;5962;216a8;216ea"),
  (0x2f862, "59ec;5a1b;5a27;59d8;5a66;36ee;36fc;5b08;5b3e;5b3e;219c8;5bc3;5bd8;5be7;5bf3;21b18"),
  (0x2f872, "5bff;5c06;5f53;5c22;3781;5c60;5c6e;5cc0;5c8d;21de4;5d43;21de6;5d6e;5d6b;5d7c;5de1"),
  (0x2f882, "5de2;382f;5dfd;5e28;5e3d;5e69;3862;22183;387c;5eb0;5eb3;5eb6;5eca;2a392;5efe;22331"),
  (0x2f892, "22331;8201;5f22;5f22;38c7;232b8;261da;5f62;5f6b;38e3;5f9a;5fcd;5fd7;5ff9;6081;393a"),
  (0x2f8a2, "391c;6094;226d4;60c7;6148;614c;614e;614c;617a;618e;61b2;61a4;61af;61de;61f2;61f6"),
  (0x2f8b2, "6210;621b;625d;62b1;62d4;6350;22b0c;633d;62fc;6368;6383;63e4;22bf1;6422;63c5;63a9"),
  (0x2f8c2, "3a2e;6469;647e;649d;6477;3a6c;654f;656c;2300a;65e3;66f8;6649;3b19;6691;3b08;3ae4"),
  (0x2f8d2, "5192;5195;6700;669c;80ad;43d9;6717;671b;6721;675e;6753;233c3;3b49;67fa;6785;6852"),
  (0x2f8e2, "6885;2346d;688e;681f;6914;3b9d;6942;69a3;69ea;6aa8;236a3;6adb;3c18;6b21;238a7;6b54"),
  (0x2f8f2, "3c4e;6b72;6b9f;6bba;6bbb;23a8d;21d0b;23afa;6c4e;23cbc;6cbf;6ccd;6c67;6d16;6d3e;6d77"),
  (0x2f902, "6d41;6d69;6d78;6d85;23d1e;6d34;6e2f;6e6e;3d33;6ecb;6ec7;23ed1;6df9;6f6e;23f5e;23f8e"),
  (0x2f912, "6fc6;7039;701e;701b;3d96;704a;707d;7077;70ad;20525;7145;24263;719c;243ab;7228;7235"),
  (0x2f922, "7250;24608;7280;7295;24735;24814;737a;738b;3eac;73a5;3eb8;3eb8;7447;745c;7471;7485"),
  (0x2f932, "74ca;3f1b;7524;24c36;753e;24c92;7570;2219f;7610;24fa1;24fb8;25044;3ffc;4008;76f4"),
  (0x2f941, "250f3;250f2;25119;25133;771e;771f;771f;774a;4039;778b;4046;4096;2541d;784e;788c;78cc"),
  (0x2f951, "40e3;25626;7956;2569a;256c5;798f;79eb;412f;7a40;7a4a;7a4f;2597c;25aa7;25aa7;7aee"),
  (0x2f960, "4202;25bab;7bc6;7bc9;4227;25c80;7cd2;42a0;7ce8;7ce3;7d00;25f86;7d63;4301;7dc7;7e02"),
  (0x2f970, "7e45;4334;26228;26247;4359;262d9;7f7a;2633e;7f95;7ffa;8005;264da;26523;8060;265a8"),
  (0x2f97f, "8070;2335f;43d5;80b2;8103;440b;813e;5ab5;267a7;267b5;23393;2339c;8201;8204;8f9e;446b"),
  (0x2f98f, "8291;828b;829d;52b3;82b1;82b3;82bd;82e6;26b3c;82e5;831d;8363;83ad;8323;83bd;83e7"),
  (0x2f99f, "8457;8353;83ca;83cc;83dc;26c36;26d6b;26cd5;452b;84f1;84f3;8516;273ca;8564;26f2c;455d"),
  (0x2f9af, "4561;26fb1;270d2;456b;8650;865c;8667;8669;86a9;8688;870e;86e2;8779;8728;876b;8786"),
  (0x2f9bf, "45d7;87e1;8801;45f9;8860;8863;27667;88d7;88de;4635;88fa;34bb;278ae;27966;46be;46c7"),
  (0x2f9cf, "8aa0;8aed;8b8a;8c55;27ca8;8cab;8cc1;8d1b;8d77;27f2f;20804;8dcb;8dbc;8df0;208de;8ed4"),
  (0x2f9df, "8f38;285d2;285ed;9094;90f1;9111;2872e;911b;9238;92d7;92d8;927c;93f9;9415;28bfa;958b"),
  (0x2f9ef, "4995;95b7;28d77;49e6;96c3;5db2;9723;29145;2921a;4a6e;4a76;97e0;2940a;4ab2;29496;980b"),
  (0x2f9ff, "980b;9829;295b6;98e2;4b33;9929;99a7;99c2;99fe;4bce;29b30;9b12;9c40;9cfd;4cce;4ced"),
  (0x2fa0f, "9d67;2a0ce;4cf8;2a105;2a20e;2a291;9ebb;4d56;9ef9;9efe;9f05;9f0f;9f16;9f3b;2a600")
]

/-- Characters that compose with the one whose number the row has, each with the character they
become. -/
def compositeRows : List (Nat × String) := [
  (0x3c, "338 226e"), (0x3d, "338 2260"), (0x3e, "338 226f"),
  (0x41, "300 c0;301 c1;302 c2;303 c3;304 100;306 102;307 226;308 c4;309 1ea2;30a c5;30c 1cd"),
  (0x41, "30f 200;311 202;323 1ea0;325 1e00;328 104"), (0x42, "307 1e02;323 1e04;331 1e06"),
  (0x43, "301 106;302 108;307 10a;30c 10c;327 c7"),
  (0x44, "307 1e0a;30c 10e;323 1e0c;327 1e10;32d 1e12;331 1e0e"),
  (0x45, "300 c8;301 c9;302 ca;303 1ebc;304 112;306 114;307 116;308 cb;309 1eba;30c 11a;30f 204"),
  (0x45, "311 206;323 1eb8;327 228;328 118;32d 1e18;330 1e1a"), (0x46, "307 1e1e"),
  (0x47, "301 1f4;302 11c;304 1e20;306 11e;307 120;30c 1e6;327 122"),
  (0x48, "302 124;307 1e22;308 1e26;30c 21e;323 1e24;327 1e28;32e 1e2a"),
  (0x49, "300 cc;301 cd;302 ce;303 128;304 12a;306 12c;307 130;308 cf;309 1ec8;30c 1cf;30f 208"),
  (0x49, "311 20a;323 1eca;328 12e;330 1e2c"), (0x4a, "302 134"),
  (0x4b, "301 1e30;30c 1e8;323 1e32;327 136;331 1e34"),
  (0x4c, "301 139;30c 13d;323 1e36;327 13b;32d 1e3c;331 1e3a"),
  (0x4d, "301 1e3e;307 1e40;323 1e42"),
  (0x4e, "300 1f8;301 143;303 d1;307 1e44;30c 147;323 1e46;327 145;32d 1e4a;331 1e48"),
  (0x4f, "300 d2;301 d3;302 d4;303 d5;304 14c;306 14e;307 22e;308 d6;309 1ece;30b 150;30c 1d1"),
  (0x4f, "30f 20c;311 20e;31b 1a0;323 1ecc;328 1ea"), (0x50, "301 1e54;307 1e56"),
  (0x52, "301 154;307 1e58;30c 158;30f 210;311 212;323 1e5a;327 156;331 1e5e"),
  (0x53, "301 15a;302 15c;307 1e60;30c 160;323 1e62;326 218;327 15e"),
  (0x54, "307 1e6a;30c 164;323 1e6c;326 21a;327 162;32d 1e70;331 1e6e"),
  (0x55, "300 d9;301 da;302 db;303 168;304 16a;306 16c;308 dc;309 1ee6;30a 16e;30b 170;30c 1d3"),
  (0x55, "30f 214;311 216;31b 1af;323 1ee4;324 1e72;328 172;32d 1e76;330 1e74"),
  (0x56, "303 1e7c;323 1e7e"), (0x57, "300 1e80;301 1e82;302 174;307 1e86;308 1e84;323 1e88"),
  (0x58, "307 1e8a;308 1e8c"),
  (0x59, "300 1ef2;301 dd;302 176;303 1ef8;304 232;307 1e8e;308 178;309 1ef6;323 1ef4"),
  (0x5a, "301 179;302 1e90;307 17b;30c 17d;323 1e92;331 1e94"),
  (0x61, "300 e0;301 e1;302 e2;303 e3;304 101;306 103;307 227;308 e4;309 1ea3;30a e5;30c 1ce"),
  (0x61, "30f 201;311 203;323 1ea1;325 1e01;328 105"), (0x62, "307 1e03;323 1e05;331 1e07"),
  (0x63, "301 107;302 109;307 10b;30c 10d;327 e7"),
  (0x64, "307 1e0b;30c 10f;323 1e0d;327 1e11;32d 1e13;331 1e0f"),
  (0x65, "300 e8;301 e9;302 ea;303 1ebd;304 113;306 115;307 117;308 eb;309 1ebb;30c 11b;30f 205"),
  (0x65, "311 207;323 1eb9;327 229;328 119;32d 1e19;330 1e1b"), (0x66, "307 1e1f"),
  (0x67, "301 1f5;302 11d;304 1e21;306 11f;307 121;30c 1e7;327 123"),
  (0x68, "302 125;307 1e23;308 1e27;30c 21f;323 1e25;327 1e29;32e 1e2b;331 1e96"),
  (0x69, "300 ec;301 ed;302 ee;303 129;304 12b;306 12d;308 ef;309 1ec9;30c 1d0;30f 209;311 20b"),
  (0x69, "323 1ecb;328 12f;330 1e2d"), (0x6a, "302 135;30c 1f0"),
  (0x6b, "301 1e31;30c 1e9;323 1e33;327 137;331 1e35"),
  (0x6c, "301 13a;30c 13e;323 1e37;327 13c;32d 1e3d;331 1e3b"),
  (0x6d, "301 1e3f;307 1e41;323 1e43"),
  (0x6e, "300 1f9;301 144;303 f1;307 1e45;30c 148;323 1e47;327 146;32d 1e4b;331 1e49"),
  (0x6f, "300 f2;301 f3;302 f4;303 f5;304 14d;306 14f;307 22f;308 f6;309 1ecf;30b 151;30c 1d2"),
  (0x6f, "30f 20d;311 20f;31b 1a1;323 1ecd;328 1eb"), (0x70, "301 1e55;307 1e57"),
  (0x72, "301 155;307 1e59;30c 159;30f 211;311 213;323 1e5b;327 157;331 1e5f"),
  (0x73, "301 15b;302 15d;307 1e61;30c 161;323 1e63;326 219;327 15f"),
  (0x74, "307 1e6b;308 1e97;30c 165;323 1e6d;326 21b;327 163;32d 1e71;331 1e6f"),
  (0x75, "300 f9;301 fa;302 fb;303 169;304 16b;306 16d;308 fc;309 1ee7;30a 16f;30b 171;30c 1d4"),
  (0x75, "30f 215;311 217;31b 1b0;323 1ee5;324 1e73;328 173;32d 1e77;330 1e75"),
  (0x76, "303 1e7d;323 1e7f"),
  (0x77, "300 1e81;301 1e83;302 175;307 1e87;308 1e85;30a 1e98;323 1e89"),
  (0x78, "307 1e8b;308 1e8d"),
  (0x79, "300 1ef3;301 fd;302 177;303 1ef9;304 233;307 1e8f;308 ff;309 1ef7;30a 1e99;323 1ef5"),
  (0x7a, "301 17a;302 1e91;307 17c;30c 17e;323 1e93;331 1e95"), (0xa8, "300 1fed;301 385;342 1fc1"),
  (0xc2, "300 1ea6;301 1ea4;303 1eaa;309 1ea8"), (0xc4, "304 1de"), (0xc5, "301 1fa"),
  (0xc6, "301 1fc;304 1e2"), (0xc7, "301 1e08"), (0xca, "300 1ec0;301 1ebe;303 1ec4;309 1ec2"),
  (0xcf, "301 1e2e"), (0xd4, "300 1ed2;301 1ed0;303 1ed6;309 1ed4"),
  (0xd5, "301 1e4c;304 22c;308 1e4e"), (0xd6, "304 22a"), (0xd8, "301 1fe"),
  (0xdc, "300 1db;301 1d7;304 1d5;30c 1d9"), (0xe2, "300 1ea7;301 1ea5;303 1eab;309 1ea9"),
  (0xe4, "304 1df"), (0xe5, "301 1fb"), (0xe6, "301 1fd;304 1e3"), (0xe7, "301 1e09"),
  (0xea, "300 1ec1;301 1ebf;303 1ec5;309 1ec3"), (0xef, "301 1e2f"),
  (0xf4, "300 1ed3;301 1ed1;303 1ed7;309 1ed5"), (0xf5, "301 1e4d;304 22d;308 1e4f"),
  (0xf6, "304 22b"), (0xf8, "301 1ff"), (0xfc, "300 1dc;301 1d8;304 1d6;30c 1da"),
  (0x102, "300 1eb0;301 1eae;303 1eb4;309 1eb2"), (0x103, "300 1eb1;301 1eaf;303 1eb5;309 1eb3"),
  (0x112, "300 1e14;301 1e16"), (0x113, "300 1e15;301 1e17"), (0x14c, "300 1e50;301 1e52"),
  (0x14d, "300 1e51;301 1e53"), (0x15a, "307 1e64"), (0x15b, "307 1e65"), (0x160, "307 1e66"),
  (0x161, "307 1e67"), (0x168, "301 1e78"), (0x169, "301 1e79"), (0x16a, "308 1e7a"),
  (0x16b, "308 1e7b"), (0x17f, "307 1e9b"), (0x1a0, "300 1edc;301 1eda;303 1ee0;309 1ede;323 1ee2"),
  (0x1a1, "300 1edd;301 1edb;303 1ee1;309 1edf;323 1ee3"),
  (0x1af, "300 1eea;301 1ee8;303 1eee;309 1eec;323 1ef0"),
  (0x1b0, "300 1eeb;301 1ee9;303 1eef;309 1eed;323 1ef1"), (0x1b7, "30c 1ee"), (0x1ea, "304 1ec"),
  (0x1eb, "304 1ed"), (0x226, "304 1e0"), (0x227, "304 1e1"), (0x228, "306 1e1c"),
  (0x229, "306 1e1d"), (0x22e, "304 230"), (0x22f, "304 231"), (0x292, "30c 1ef"),
  (0x391, "300 1fba;301 386;304 1fb9;306 1fb8;313 1f08;314 1f09;345 1fbc"),
  (0x395, "300 1fc8;301 388;313 1f18;314 1f19"),
  (0x397, "300 1fca;301 389;313 1f28;314 1f29;345 1fcc"),
  (0x399, "300 1fda;301 38a;304 1fd9;306 1fd8;308 3aa;313 1f38;314 1f39"),
  (0x39f, "300 1ff8;301 38c;313 1f48;314 1f49"), (0x3a1, "314 1fec"),
  (0x3a5, "300 1fea;301 38e;304 1fe9;306 1fe8;308 3ab;314 1f59"),
  (0x3a9, "300 1ffa;301 38f;313 1f68;314 1f69;345 1ffc"), (0x3ac, "345 1fb4"), (0x3ae, "345 1fc4"),
  (0x3b1, "300 1f70;301 3ac;304 1fb1;306 1fb0;313 1f00;314 1f01;342 1fb6;345 1fb3"),
  (0x3b5, "300 1f72;301 3ad;313 1f10;314 1f11"),
  (0x3b7, "300 1f74;301 3ae;313 1f20;314 1f21;342 1fc6;345 1fc3"),
  (0x3b9, "300 1f76;301 3af;304 1fd1;306 1fd0;308 3ca;313 1f30;314 1f31;342 1fd6"),
  (0x3bf, "300 1f78;301 3cc;313 1f40;314 1f41"), (0x3c1, "313 1fe4;314 1fe5"),
  (0x3c5, "300 1f7a;301 3cd;304 1fe1;306 1fe0;308 3cb;313 1f50;314 1f51;342 1fe6"),
  (0x3c9, "300 1f7c;301 3ce;313 1f60;314 1f61;342 1ff6;345 1ff3"),
  (0x3ca, "300 1fd2;301 390;342 1fd7"), (0x3cb, "300 1fe2;301 3b0;342 1fe7"), (0x3ce, "345 1ff4"),
  (0x3d2, "301 3d3;308 3d4"), (0x406, "308 407"), (0x410, "306 4d0;308 4d2"), (0x413, "301 403"),
  (0x415, "300 400;306 4d6;308 401"), (0x416, "306 4c1;308 4dc"), (0x417, "308 4de"),
  (0x418, "300 40d;304 4e2;306 419;308 4e4"), (0x41a, "301 40c"), (0x41e, "308 4e6"),
  (0x423, "304 4ee;306 40e;308 4f0;30b 4f2"), (0x427, "308 4f4"), (0x42b, "308 4f8"),
  (0x42d, "308 4ec"), (0x430, "306 4d1;308 4d3"), (0x433, "301 453"),
  (0x435, "300 450;306 4d7;308 451"), (0x436, "306 4c2;308 4dd"), (0x437, "308 4df"),
  (0x438, "300 45d;304 4e3;306 439;308 4e5"), (0x43a, "301 45c"), (0x43e, "308 4e7"),
  (0x443, "304 4ef;306 45e;308 4f1;30b 4f3"), (0x447, "308 4f5"), (0x44b, "308 4f9"),
  (0x44d, "308 4ed"), (0x456, "308 457"), (0x474, "30f 476"), (0x475, "30f 477"),
  (0x4d8, "308 4da"), (0x4d9, "308 4db"), (0x4e8, "308 4ea"), (0x4e9, "308 4eb"),
  (0x627, "653 622;654 623;655 625"), (0x648, "654 624"), (0x64a, "654 626"), (0x6c1, "654 6c2"),
  (0x6d2, "654 6d3"), (0x6d5, "654 6c0"), (0x928, "93c 929"), (0x930, "93c 931"),
  (0x933, "93c 934"), (0x9c7, "9be 9cb;9d7 9cc"),
  (0xb47, "b3e b4b;b56 b48;b57 b4c"), (0xb92, "bd7 b94"), (0xbc6, "bbe bca;bd7 bcc"),
  (0xbc7, "bbe bcb"), (0xc46, "c56 c48"), (0xcbf, "cd5 cc0"), (0xcc6, "cc2 cca;cd5 cc7;cd6 cc8"),
  (0xcca, "cd5 ccb"), (0xd46, "d3e d4a;d57 d4c"), (0xd47, "d3e d4b"),
  (0xdd9, "dca dda;dcf ddc;ddf dde"), (0xddc, "dca ddd"), (0x1025, "102e 1026"),
  (0x1b05, "1b35 1b06"), (0x1b07, "1b35 1b08"), (0x1b09, "1b35 1b0a"), (0x1b0b, "1b35 1b0c"),
  (0x1b0d, "1b35 1b0e"), (0x1b11, "1b35 1b12"), (0x1b3a, "1b35 1b3b"), (0x1b3c, "1b35 1b3d"),
  (0x1b3e, "1b35 1b40"), (0x1b3f, "1b35 1b41"), (0x1b42, "1b35 1b43"), (0x1e36, "304 1e38"),
  (0x1e37, "304 1e39"), (0x1e5a, "304 1e5c"), (0x1e5b, "304 1e5d"), (0x1e62, "307 1e68"),
  (0x1e63, "307 1e69"), (0x1ea0, "302 1eac;306 1eb6"), (0x1ea1, "302 1ead;306 1eb7"),
  (0x1eb8, "302 1ec6"), (0x1eb9, "302 1ec7"), (0x1ecc, "302 1ed8"), (0x1ecd, "302 1ed9"),
  (0x1f00, "300 1f02;301 1f04;342 1f06;345 1f80"), (0x1f01, "300 1f03;301 1f05;342 1f07;345 1f81"),
  (0x1f02, "345 1f82"), (0x1f03, "345 1f83"), (0x1f04, "345 1f84"), (0x1f05, "345 1f85"),
  (0x1f06, "345 1f86"), (0x1f07, "345 1f87"), (0x1f08, "300 1f0a;301 1f0c;342 1f0e;345 1f88"),
  (0x1f09, "300 1f0b;301 1f0d;342 1f0f;345 1f89"), (0x1f0a, "345 1f8a"), (0x1f0b, "345 1f8b"),
  (0x1f0c, "345 1f8c"), (0x1f0d, "345 1f8d"), (0x1f0e, "345 1f8e"), (0x1f0f, "345 1f8f"),
  (0x1f10, "300 1f12;301 1f14"), (0x1f11, "300 1f13;301 1f15"), (0x1f18, "300 1f1a;301 1f1c"),
  (0x1f19, "300 1f1b;301 1f1d"), (0x1f20, "300 1f22;301 1f24;342 1f26;345 1f90"),
  (0x1f21, "300 1f23;301 1f25;342 1f27;345 1f91"), (0x1f22, "345 1f92"), (0x1f23, "345 1f93"),
  (0x1f24, "345 1f94"), (0x1f25, "345 1f95"), (0x1f26, "345 1f96"), (0x1f27, "345 1f97"),
  (0x1f28, "300 1f2a;301 1f2c;342 1f2e;345 1f98"), (0x1f29, "300 1f2b;301 1f2d;342 1f2f;345 1f99"),
  (0x1f2a, "345 1f9a"), (0x1f2b, "345 1f9b"), (0x1f2c, "345 1f9c"), (0x1f2d, "345 1f9d"),
  (0x1f2e, "345 1f9e"), (0x1f2f, "345 1f9f"), (0x1f30, "300 1f32;301 1f34;342 1f36"),
  (0x1f31, "300 1f33;301 1f35;342 1f37"), (0x1f38, "300 1f3a;301 1f3c;342 1f3e"),
  (0x1f39, "300 1f3b;301 1f3d;342 1f3f"), (0x1f40, "300 1f42;301 1f44"),
  (0x1f41, "300 1f43;301 1f45"), (0x1f48, "300 1f4a;301 1f4c"), (0x1f49, "300 1f4b;301 1f4d"),
  (0x1f50, "300 1f52;301 1f54;342 1f56"), (0x1f51, "300 1f53;301 1f55;342 1f57"),
  (0x1f59, "300 1f5b;301 1f5d;342 1f5f"), (0x1f60, "300 1f62;301 1f64;342 1f66;345 1fa0"),
  (0x1f61, "300 1f63;301 1f65;342 1f67;345 1fa1"),
  (0x1f62, "345 1fa2"), (0x1f63, "345 1fa3"), (0x1f64, "345 1fa4"), (0x1f65, "345 1fa5"),
  (0x1f66, "345 1fa6"), (0x1f67, "345 1fa7"), (0x1f68, "300 1f6a;301 1f6c;342 1f6e;345 1fa8"),
  (0x1f69, "300 1f6b;301 1f6d;342 1f6f;345 1fa9"), (0x1f6a, "345 1faa"), (0x1f6b, "345 1fab"),
  (0x1f6c, "345 1fac"), (0x1f6d, "345 1fad"), (0x1f6e, "345 1fae"), (0x1f6f, "345 1faf"),
  (0x1f70, "345 1fb2"), (0x1f74, "345 1fc2"), (0x1f7c, "345 1ff2"), (0x1fb6, "345 1fb7"),
  (0x1fbf, "300 1fcd;301 1fce;342 1fcf"), (0x1fc6, "345 1fc7"), (0x1ff6, "345 1ff7"),
  (0x1ffe, "300 1fdd;301 1fde;342 1fdf"), (0x2190, "338 219a"), (0x2192, "338 219b"),
  (0x2194, "338 21ae"), (0x21d0, "338 21cd"), (0x21d2, "338 21cf"), (0x21d4, "338 21ce"),
  (0x2203, "338 2204"), (0x2208, "338 2209"), (0x220b, "338 220c"), (0x2223, "338 2224"),
  (0x2225, "338 2226"), (0x223c, "338 2241"), (0x2243, "338 2244"), (0x2245, "338 2247"),
  (0x2248, "338 2249"), (0x224d, "338 226d"), (0x2261, "338 2262"), (0x2264, "338 2270"),
  (0x2265, "338 2271"), (0x2272, "338 2274"), (0x2273, "338 2275"), (0x2276, "338 2278"),
  (0x2277, "338 2279"), (0x227a, "338 2280"), (0x227b, "338 2281"), (0x227c, "338 22e0"),
  (0x227d, "338 22e1"), (0x2282, "338 2284"), (0x2283, "338 2285"), (0x2286, "338 2288"),
  (0x2287, "338 2289"), (0x2291, "338 22e2"), (0x2292, "338 22e3"), (0x22a2, "338 22ac"),
  (0x22a8, "338 22ad"), (0x22a9, "338 22ae"), (0x22ab, "338 22af"), (0x22b2, "338 22ea"),
  (0x22b3, "338 22eb"), (0x22b4, "338 22ec"), (0x22b5, "338 22ed"), (0x3046, "3099 3094"),
  (0x304b, "3099 304c"), (0x304d, "3099 304e"), (0x304f, "3099 3050"), (0x3051, "3099 3052"),
  (0x3053, "3099 3054"), (0x3055, "3099 3056"), (0x3057, "3099 3058"), (0x3059, "3099 305a"),
  (0x305b, "3099 305c"), (0x305d, "3099 305e"), (0x305f, "3099 3060"), (0x3061, "3099 3062"),
  (0x3064, "3099 3065"), (0x3066, "3099 3067"), (0x3068, "3099 3069"),
  (0x306f, "3099 3070;309a 3071"), (0x3072, "3099 3073;309a 3074"), (0x3075, "3099 3076;309a 3077"),
  (0x3078, "3099 3079;309a 307a"), (0x307b, "3099 307c;309a 307d"), (0x309d, "3099 309e"),
  (0x30a6, "3099 30f4"), (0x30ab, "3099 30ac"),
  (0x30ad, "3099 30ae"), (0x30af, "3099 30b0"), (0x30b1, "3099 30b2"), (0x30b3, "3099 30b4"),
  (0x30b5, "3099 30b6"), (0x30b7, "3099 30b8"), (0x30b9, "3099 30ba"), (0x30bb, "3099 30bc"),
  (0x30bd, "3099 30be"), (0x30bf, "3099 30c0"), (0x30c1, "3099 30c2"), (0x30c4, "3099 30c5"),
  (0x30c6, "3099 30c7"), (0x30c8, "3099 30c9"), (0x30cf, "3099 30d0;309a 30d1"),
  (0x30d2, "3099 30d3;309a 30d4"), (0x30d5, "3099 30d6;309a 30d7"), (0x30d8, "3099 30d9;309a 30da"),
  (0x30db, "3099 30dc;309a 30dd"), (0x30ef, "3099 30f7"), (0x30f0, "3099 30f8"),
  (0x30f1, "3099 30f9"), (0x30f2, "3099 30fa"), (0x30fd, "3099 30fe"), (0x11099, "110ba 1109a"),
  (0x1109b, "110ba 1109c"), (0x110a5, "110ba 110ab"), (0x11131, "11127 1112e"),
  (0x11132, "11127 1112f"), (0x11347, "1133e 1134b;11357 1134c"),
  (0x114b9, "114b0 114bc;114ba 114bb;114bd 114be"),
  (0x115b8, "115af 115ba"), (0x115b9, "115af 115bb"), (0x11935, "11930 11938")
]

/-- The classes of the marks, for ranges of characters. All others have class zero. -/
def classRows : List (Nat × Nat × Nat) := [
  (0x300, 0x314, 230), (0x315, 0x315, 232), (0x316, 0x319, 220), (0x31a, 0x31a, 232),
  (0x31b, 0x31b, 216), (0x31c, 0x320, 220), (0x321, 0x322, 202), (0x323, 0x326, 220),
  (0x327, 0x328, 202), (0x329, 0x333, 220), (0x334, 0x338, 1), (0x339, 0x33c, 220),
  (0x33d, 0x344, 230), (0x345, 0x345, 240), (0x346, 0x346, 230), (0x347, 0x349, 220),
  (0x34a, 0x34c, 230), (0x34d, 0x34e, 220), (0x350, 0x352, 230), (0x353, 0x356, 220),
  (0x357, 0x357, 230), (0x358, 0x358, 232), (0x359, 0x35a, 220), (0x35b, 0x35b, 230),
  (0x35c, 0x35c, 233), (0x35d, 0x35e, 234), (0x35f, 0x35f, 233), (0x360, 0x361, 234),
  (0x362, 0x362, 233), (0x363, 0x36f, 230), (0x483, 0x487, 230), (0x591, 0x591, 220),
  (0x592, 0x595, 230), (0x596, 0x596, 220), (0x597, 0x599, 230), (0x59a, 0x59a, 222),
  (0x59b, 0x59b, 220), (0x59c, 0x5a1, 230), (0x5a2, 0x5a7, 220), (0x5a8, 0x5a9, 230),
  (0x5aa, 0x5aa, 220), (0x5ab, 0x5ac, 230), (0x5ad, 0x5ad, 222), (0x5ae, 0x5ae, 228),
  (0x5af, 0x5af, 230), (0x5b0, 0x5b0, 10), (0x5b1, 0x5b1, 11), (0x5b2, 0x5b2, 12),
  (0x5b3, 0x5b3, 13), (0x5b4, 0x5b4, 14), (0x5b5, 0x5b5, 15), (0x5b6, 0x5b6, 16),
  (0x5b7, 0x5b7, 17), (0x5b8, 0x5b8, 18), (0x5b9, 0x5ba, 19),
  (0x5bb, 0x5bb, 20), (0x5bc, 0x5bc, 21), (0x5bd, 0x5bd, 22), (0x5bf, 0x5bf, 23),
  (0x5c1, 0x5c1, 24), (0x5c2, 0x5c2, 25), (0x5c4, 0x5c4, 230), (0x5c5, 0x5c5, 220),
  (0x5c7, 0x5c7, 18), (0x610, 0x617, 230), (0x618, 0x618, 30), (0x619, 0x619, 31),
  (0x61a, 0x61a, 32), (0x64b, 0x64b, 27), (0x64c, 0x64c, 28),
  (0x64d, 0x64d, 29), (0x64e, 0x64e, 30), (0x64f, 0x64f, 31), (0x650, 0x650, 32),
  (0x651, 0x651, 33), (0x652, 0x652, 34), (0x653, 0x654, 230), (0x655, 0x656, 220),
  (0x657, 0x65b, 230), (0x65c, 0x65c, 220), (0x65d, 0x65e, 230), (0x65f, 0x65f, 220),
  (0x670, 0x670, 35), (0x6d6, 0x6dc, 230), (0x6df, 0x6e2, 230), (0x6e3, 0x6e3, 220),
  (0x6e4, 0x6e4, 230), (0x6e7, 0x6e8, 230), (0x6ea, 0x6ea, 220), (0x6eb, 0x6ec, 230),
  (0x6ed, 0x6ed, 220), (0x711, 0x711, 36), (0x730, 0x730, 230), (0x731, 0x731, 220),
  (0x732, 0x733, 230), (0x734, 0x734, 220), (0x735, 0x736, 230), (0x737, 0x739, 220),
  (0x73a, 0x73a, 230), (0x73b, 0x73c, 220), (0x73d, 0x73d, 230), (0x73e, 0x73e, 220),
  (0x73f, 0x741, 230), (0x742, 0x742, 220), (0x743, 0x743, 230), (0x744, 0x744, 220),
  (0x745, 0x745, 230), (0x746, 0x746, 220), (0x747, 0x747, 230), (0x748, 0x748, 220),
  (0x749, 0x74a, 230), (0x7eb, 0x7f1, 230), (0x7f2, 0x7f2, 220), (0x7f3, 0x7f3, 230),
  (0x7fd, 0x7fd, 220), (0x816, 0x819, 230), (0x81b, 0x823, 230), (0x825, 0x827, 230),
  (0x829, 0x82d, 230), (0x859, 0x85b, 220), (0x898, 0x898, 230), (0x899, 0x89b, 220),
  (0x89c, 0x89f, 230), (0x8ca, 0x8ce, 230), (0x8cf, 0x8d3, 220), (0x8d4, 0x8e1, 230),
  (0x8e3, 0x8e3, 220), (0x8e4, 0x8e5, 230), (0x8e6, 0x8e6, 220), (0x8e7, 0x8e8, 230),
  (0x8e9, 0x8e9, 220), (0x8ea, 0x8ec, 230), (0x8ed, 0x8ef, 220), (0x8f0, 0x8f0, 27),
  (0x8f1, 0x8f1, 28), (0x8f2, 0x8f2, 29), (0x8f3, 0x8f5, 230), (0x8f6, 0x8f6, 220),
  (0x8f7, 0x8f8, 230), (0x8f9, 0x8fa, 220), (0x8fb, 0x8ff, 230), (0x93c, 0x93c, 7),
  (0x94d, 0x94d, 9), (0x951, 0x951, 230), (0x952, 0x952, 220),
  (0x953, 0x954, 230), (0x9bc, 0x9bc, 7), (0x9cd, 0x9cd, 9), (0x9fe, 0x9fe, 230), (0xa3c, 0xa3c, 7),
  (0xa4d, 0xa4d, 9), (0xabc, 0xabc, 7), (0xacd, 0xacd, 9), (0xb3c, 0xb3c, 7), (0xb4d, 0xb4d, 9),
  (0xbcd, 0xbcd, 9), (0xc3c, 0xc3c, 7), (0xc4d, 0xc4d, 9), (0xc55, 0xc55, 84), (0xc56, 0xc56, 91),
  (0xcbc, 0xcbc, 7), (0xccd, 0xccd, 9), (0xd3b, 0xd3c, 9), (0xd4d, 0xd4d, 9), (0xdca, 0xdca, 9),
  (0xe38, 0xe39, 103), (0xe3a, 0xe3a, 9), (0xe48, 0xe4b, 107), (0xeb8, 0xeb9, 118),
  (0xeba, 0xeba, 9), (0xec8, 0xecb, 122), (0xf18, 0xf19, 220), (0xf35, 0xf35, 220),
  (0xf37, 0xf37, 220), (0xf39, 0xf39, 216), (0xf71, 0xf71, 129), (0xf72, 0xf72, 130),
  (0xf74, 0xf74, 132), (0xf7a, 0xf7d, 130), (0xf80, 0xf80, 130), (0xf82, 0xf83, 230),
  (0xf84, 0xf84, 9), (0xf86, 0xf87, 230), (0xfc6, 0xfc6, 220), (0x1037, 0x1037, 7),
  (0x1039, 0x103a, 9), (0x108d, 0x108d, 220), (0x135d, 0x135f, 230), (0x1714, 0x1715, 9),
  (0x1734, 0x1734, 9), (0x17d2, 0x17d2, 9), (0x17dd, 0x17dd, 230), (0x18a9, 0x18a9, 228),
  (0x1939, 0x1939, 222), (0x193a, 0x193a, 230),
  (0x193b, 0x193b, 220), (0x1a17, 0x1a17, 230), (0x1a18, 0x1a18, 220), (0x1a60, 0x1a60, 9),
  (0x1a75, 0x1a7c, 230), (0x1a7f, 0x1a7f, 220), (0x1ab0, 0x1ab4, 230), (0x1ab5, 0x1aba, 220),
  (0x1abb, 0x1abc, 230), (0x1abd, 0x1abd, 220), (0x1abf, 0x1ac0, 220), (0x1ac1, 0x1ac2, 230),
  (0x1ac3, 0x1ac4, 220), (0x1ac5, 0x1ac9, 230), (0x1aca, 0x1aca, 220), (0x1acb, 0x1ace, 230),
  (0x1b34, 0x1b34, 7), (0x1b44, 0x1b44, 9), (0x1b6b, 0x1b6b, 230), (0x1b6c, 0x1b6c, 220),
  (0x1b6d, 0x1b73, 230), (0x1baa, 0x1bab, 9), (0x1be6, 0x1be6, 7), (0x1bf2, 0x1bf3, 9),
  (0x1c37, 0x1c37, 7), (0x1cd0, 0x1cd2, 230), (0x1cd4, 0x1cd4, 1), (0x1cd5, 0x1cd9, 220),
  (0x1cda, 0x1cdb, 230), (0x1cdc, 0x1cdf, 220), (0x1ce0, 0x1ce0, 230), (0x1ce2, 0x1ce8, 1),
  (0x1ced, 0x1ced, 220), (0x1cf4, 0x1cf4, 230), (0x1cf8, 0x1cf9, 230), (0x1dc0, 0x1dc1, 230),
  (0x1dc2, 0x1dc2, 220), (0x1dc3, 0x1dc9, 230), (0x1dca, 0x1dca, 220), (0x1dcb, 0x1dcc, 230),
  (0x1dcd, 0x1dcd, 234), (0x1dce, 0x1dce, 214), (0x1dcf, 0x1dcf, 220), (0x1dd0, 0x1dd0, 202),
  (0x1dd1, 0x1df5, 230), (0x1df6, 0x1df6, 232), (0x1df7, 0x1df8, 228), (0x1df9, 0x1df9, 220),
  (0x1dfa, 0x1dfa, 218), (0x1dfb, 0x1dfb, 230), (0x1dfc, 0x1dfc, 233), (0x1dfd, 0x1dfd, 220),
  (0x1dfe, 0x1dfe, 230), (0x1dff, 0x1dff, 220), (0x20d0, 0x20d1, 230), (0x20d2, 0x20d3, 1),
  (0x20d4, 0x20d7, 230), (0x20d8, 0x20da, 1), (0x20db, 0x20dc, 230), (0x20e1, 0x20e1, 230),
  (0x20e5, 0x20e6, 1), (0x20e7, 0x20e7, 230), (0x20e8, 0x20e8, 220), (0x20e9, 0x20e9, 230),
  (0x20ea, 0x20eb, 1), (0x20ec, 0x20ef, 220), (0x20f0, 0x20f0, 230), (0x2cef, 0x2cf1, 230),
  (0x2d7f, 0x2d7f, 9), (0x2de0, 0x2dff, 230), (0x302a, 0x302a, 218), (0x302b, 0x302b, 228),
  (0x302c, 0x302c, 232), (0x302d, 0x302d, 222), (0x302e, 0x302f, 224), (0x3099, 0x309a, 8),
  (0xa66f, 0xa66f, 230), (0xa674, 0xa67d, 230), (0xa69e, 0xa69f, 230), (0xa6f0, 0xa6f1, 230),
  (0xa806, 0xa806, 9), (0xa82c, 0xa82c, 9), (0xa8c4, 0xa8c4, 9), (0xa8e0, 0xa8f1, 230),
  (0xa92b, 0xa92d, 220), (0xa953, 0xa953, 9), (0xa9b3, 0xa9b3, 7), (0xa9c0, 0xa9c0, 9),
  (0xaab0, 0xaab0, 230), (0xaab2, 0xaab3, 230), (0xaab4, 0xaab4, 220), (0xaab7, 0xaab8, 230),
  (0xaabe, 0xaabf, 230), (0xaac1, 0xaac1, 230), (0xaaf6, 0xaaf6, 9), (0xabed, 0xabed, 9),
  (0xfb1e, 0xfb1e, 26), (0xfe20, 0xfe26, 230), (0xfe27, 0xfe2d, 220), (0xfe2e, 0xfe2f, 230),
  (0x101fd, 0x101fd, 220), (0x102e0, 0x102e0, 220), (0x10376, 0x1037a, 230),
  (0x10a0d, 0x10a0d, 220), (0x10a0f, 0x10a0f, 230), (0x10a38, 0x10a38, 230), (0x10a39, 0x10a39, 1),
  (0x10a3a, 0x10a3a, 220), (0x10a3f, 0x10a3f, 9), (0x10ae5, 0x10ae5, 230), (0x10ae6, 0x10ae6, 220),
  (0x10d24, 0x10d27, 230), (0x10eab, 0x10eac, 230), (0x10f46, 0x10f47, 220),
  (0x10f48, 0x10f4a, 230), (0x10f4b, 0x10f4b, 220),
  (0x10f4c, 0x10f4c, 230), (0x10f4d, 0x10f50, 220), (0x10f82, 0x10f82, 230),
  (0x10f83, 0x10f83, 220), (0x10f84, 0x10f84, 230), (0x10f85, 0x10f85, 220), (0x11046, 0x11046, 9),
  (0x11070, 0x11070, 9), (0x1107f, 0x1107f, 9), (0x110b9, 0x110b9, 9), (0x110ba, 0x110ba, 7),
  (0x11100, 0x11102, 230), (0x11133, 0x11134, 9), (0x11173, 0x11173, 7), (0x111c0, 0x111c0, 9),
  (0x111ca, 0x111ca, 7), (0x11235, 0x11235, 9), (0x11236, 0x11236, 7), (0x112e9, 0x112e9, 7),
  (0x112ea, 0x112ea, 9), (0x1133b, 0x1133c, 7), (0x1134d, 0x1134d, 9), (0x11366, 0x1136c, 230),
  (0x11370, 0x11374, 230), (0x11442, 0x11442, 9), (0x11446, 0x11446, 7), (0x1145e, 0x1145e, 230),
  (0x114c2, 0x114c2, 9), (0x114c3, 0x114c3, 7), (0x115bf, 0x115bf, 9), (0x115c0, 0x115c0, 7),
  (0x1163f, 0x1163f, 9), (0x116b6, 0x116b6, 9), (0x116b7, 0x116b7, 7), (0x1172b, 0x1172b, 9),
  (0x11839, 0x11839, 9), (0x1183a, 0x1183a, 7), (0x1193d, 0x1193e, 9), (0x11943, 0x11943, 7),
  (0x119e0, 0x119e0, 9), (0x11a34, 0x11a34, 9), (0x11a47, 0x11a47, 9), (0x11a99, 0x11a99, 9),
  (0x11c3f, 0x11c3f, 9), (0x11d42, 0x11d42, 7), (0x11d44, 0x11d45, 9), (0x11d97, 0x11d97, 9),
  (0x16af0, 0x16af4, 1), (0x16b30, 0x16b36, 230), (0x16ff0, 0x16ff1, 6), (0x1bc9e, 0x1bc9e, 1),
  (0x1d165, 0x1d166, 216), (0x1d167, 0x1d169, 1), (0x1d16d, 0x1d16d, 226), (0x1d16e, 0x1d172, 216),
  (0x1d17b, 0x1d182, 220), (0x1d185, 0x1d189, 230), (0x1d18a, 0x1d18b, 220),
  (0x1d1aa, 0x1d1ad, 230), (0x1d242, 0x1d244, 230),
  (0x1e000, 0x1e006, 230), (0x1e008, 0x1e018, 230), (0x1e01b, 0x1e021, 230),
  (0x1e023, 0x1e024, 230), (0x1e026, 0x1e02a, 230), (0x1e130, 0x1e136, 230),
  (0x1e2ae, 0x1e2ae, 230), (0x1e2ec, 0x1e2ef, 230),
  (0x1e8d0, 0x1e8d6, 220), (0x1e944, 0x1e949, 230), (0x1e94a, 0x1e94a, 7)
]

/-- The number that hexadecimal digits spell. -/
def ofHex (digits : List Char) : Nat :=
  digits.foldl (fun n d => 16 * n + (if d.isDigit then d.toNat - 48 else d.toNat - 87)) 0

/-- The class of a character. -/
def classOf (c : Char) : Nat :=
  match classRows.find? fun (first, last, _) => first ≤ c.toNat && c.toNat ≤ last with
  | some (_, _, n) => n
  | none => 0

/-! ## Hangul -/

/-- The first syllable, consonant, vowel and final consonant. -/
def firstSyllable : Nat := 0xac00
def firstConsonant : Nat := 0x1100
def firstVowel : Nat := 0x1161
def firstFinal : Nat := 0x11a7

/-- How many consonants, vowels and final consonants there are; no final consonant counts as one. -/
def consonants : Nat := 19
def vowels : Nat := 21
def finals : Nat := 28

/-- The parts of a syllable. -/
def syllableParts? (c : Char) : Option (List Char) :=
  let n := c.toNat - firstSyllable
  if c.toNat < firstSyllable || consonants * vowels * finals ≤ n then none
  else
    let parts :=
      [firstConsonant + n / (vowels * finals), firstVowel + n % (vowels * finals) / finals]
    some ((parts ++ if n % finals = 0 then [] else [firstFinal + n % finals]).map Char.ofNat)

/-- A consonant and a vowel as a syllable, or a syllable without a final consonant and one. -/
def syllable? (a b : Char) : Option Char :=
  let consonant := a.toNat - firstConsonant
  let vowel := b.toNat - firstVowel
  let n := a.toNat - firstSyllable
  let final := b.toNat - firstFinal
  if firstConsonant ≤ a.toNat && consonant < consonants && firstVowel ≤ b.toNat &&
    vowel < vowels then
    some (Char.ofNat (firstSyllable + (consonant * vowels + vowel) * finals))
  else if firstSyllable ≤ a.toNat && n < consonants * vowels * finals && n % finals = 0 &&
      firstFinal < b.toNat && final < finals then
    some (Char.ofNat (a.toNat + final))
  else none

/-! ## The three steps -/

/-- The field of a character in the table of forms. -/
def formField (c : Char) : List Char :=
  match (formRows.takeWhile fun row => row.1 ≤ c.toNat).getLast? with
  | none => []
  | some (first, fields) => ((split ';' fields.toList)[c.toNat - first]?).getD []

/-- The characters that a character stands for. -/
def decomposed (c : Char) : List Char :=
  match syllableParts? c with
  | some parts => parts
  | none =>
    if (formField c).isEmpty then [c] else (split ' ' (formField c)).map fun digits =>
      Char.ofNat (ofHex digits)

/-- Puts a character in front of marks, behind those of a lower class. -/
def insertMark (c : Char) : List Char → List Char
  | [] => [c]
  | d :: rest =>
    if 0 < classOf d && classOf d < classOf c then d :: insertMark c rest else c :: d :: rest

/-- The marks behind each character in the order of their classes. -/
def ordered (cs : List Char) : List Char := cs.foldr insertMark []

/-- The character that two characters become. -/
def composite? (a b : Char) : Option Char :=
  match syllable? a b with
  | some c => some c
  | none =>
    (compositeRows.filter (·.1 = a.toNat)).findSome? fun row =>
      (split ';' row.2.toList).findSome? fun field =>
        match split ' ' field with
        | [mark, whole] => if ofHex mark = b.toNat then some (Char.ofNat (ofHex whole)) else none
        | _ => none

/-- Composes a character with those behind it. Marks that are left stand between them, and a mark of
the same class as the next character, or of a higher one, keeps that from composing. -/
def composeFrom (first : Char) (marks : List Char) : List Char → List Char
  | [] => first :: marks
  | c :: rest =>
    let joins := marks.getLast?.all fun mark => classOf mark < classOf c
    match if joins then composite? first c else none with
    | some whole => composeFrom whole marks rest
    | none =>
      if classOf c = 0 then first :: (marks ++ composeFrom c [] rest)
      else composeFrom first (marks ++ [c]) rest

/-- Composes what belongs together. Marks at the very beginning belong to nothing. -/
def composed : List Char → List Char
  | [] => []
  | c :: rest => if classOf c = 0 then composeFrom c [] rest else c :: composed rest

end CallAtlas.Text.Compatibility
