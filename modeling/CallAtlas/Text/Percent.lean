/-!
# Percent encoding

In links a text stands as the bytes of its UTF-8 form. Letters, digits, `_`, `.`, `-`, `~` and the
slash stand for themselves, any other byte is written as a percent sign and two hexadecimal digits.
-/

namespace CallAtlas.Text

/-- The characters that links need not encode. -/
def isPlainInLink (c : Char) : Bool :=
  c.isAlphanum || c == '_' || c == '.' || c == '-' || c == '~' || c == '/'

/-- A hexadecimal digit, letters in upper case. -/
def upperHexDigit (n : Nat) : Char :=
  if n < 10 then Char.ofNat (48 + n) else Char.ofNat (55 + n)

/-- A byte as a percent sign and two digits. -/
def percentByte (b : UInt8) : List Char :=
  ['%', upperHexDigit (b.toNat / 16), upperHexDigit (b.toNat % 16)]

/-- The encoded form of a character. -/
def percentChar (c : Char) : List Char :=
  if isPlainInLink c then [c] else (String.utf8EncodeChar c).flatMap percentByte

/-- The encoded form of a text. -/
def percentEncoded (text : String) : String :=
  String.ofList (text.toList.flatMap percentChar)

end CallAtlas.Text
