/-!
# Reading integers from text

A written integer is an optional sign and decimal digits of any script, single underscores allowed
between digits, blanks allowed around the whole. `readInt?` reads one and refuses all else, and
refuses more than `digitLimit` digits.
-/

namespace CallAtlas.Text.Integer

/-- The code points of the digit zero, one for each script with decimal digits. -/
def zeros : List Nat := [
  0x30, 0x660, 0x6f0, 0x7c0, 0x966, 0x9e6, 0xa66, 0xae6, 0xb66, 0xbe6, 0xc66, 0xce6,
  0xd66, 0xde6, 0xe50, 0xed0, 0xf20, 0x1040, 0x1090, 0x17e0, 0x1810, 0x1946, 0x19d0, 0x1a80, 0x1a90,
  0x1b50, 0x1bb0, 0x1c40, 0x1c50, 0xa620, 0xa8d0, 0xa900, 0xa9d0, 0xa9f0, 0xaa50, 0xabf0, 0xff10,
  0x104a0, 0x10d30, 0x11066, 0x110f0, 0x11136, 0x111d0, 0x112f0, 0x11450, 0x114d0, 0x11650, 0x116c0,
  0x11730, 0x118e0, 0x11950, 0x11c50, 0x11d50, 0x11da0, 0x16a60, 0x16ac0, 0x16b50, 0x1d7ce, 0x1d7d8,
  0x1d7e2, 0x1d7ec, 0x1d7f6, 0x1e140, 0x1e2f0, 0x1e950,
  0x1fbf0
]

/-- The code points that count as blank around an integer. The separators from 0x1c to 0x1f do
not. -/
def blanks : List Nat := [
  0x9, 0xa, 0xb, 0xc, 0xd, 0x20, 0x85, 0xa0, 0x1680, 0x2000, 0x2001, 0x2002, 0x2003,
  0x2004, 0x2005, 0x2006, 0x2007, 0x2008, 0x2009, 0x200a, 0x2028, 0x2029, 0x202f, 0x205f, 0x3000
]

/-- The value of a decimal digit. -/
def digitValue? (c : Char) : Option Nat :=
  (zeros.find? fun z => z ≤ c.toNat && c.toNat < z + 10).map (c.toNat - ·)

/-- Whether a character counts as blank. -/
def isBlank (c : Char) : Bool :=
  blanks.contains c.toNat

/-- The text without the blanks on both sides. -/
def trim (cs : List Char) : List Char :=
  ((cs.dropWhile isBlank).reverse.dropWhile isBlank).reverse

/-- Integers with more digits than this are not read. -/
def digitLimit : Nat := 4300

/-- The digit values of a run of digits, with single underscores between them dropped. The flag says
whether an underscore may stand here, that is, whether a digit came just before. -/
def digitValues? : Bool → List Char → Option (List Nat)
  | afterDigit, [] => if afterDigit then some [] else none
  | afterDigit, c :: rest =>
    if c = '_' then
      if afterDigit then digitValues? false rest else none
    else do
      let d ← digitValue? c
      let ds ← digitValues? true rest
      return d :: ds

/-- The number with the given decimal digits, the most significant first. -/
def ofDigits (ds : List Nat) : Nat :=
  ds.foldl (fun n d => 10 * n + d) 0

/-- A natural number written in decimal digits. -/
def readNat? (cs : List Char) : Option Nat := do
  let ds ← digitValues? false cs
  if ds.length ≤ digitLimit then some (ofDigits ds) else none

/-- The integer that a text spells. -/
def readInt? (cs : List Char) : Option Int :=
  match trim cs with
  | '-' :: rest => (readNat? rest).map fun n => -(n : Int)
  | '+' :: rest => (readNat? rest).map fun n => (n : Int)
  | rest => (readNat? rest).map fun n => (n : Int)

end CallAtlas.Text.Integer
