import CallAtlas.Text.Printable

/-!
# Quoted text

Messages show a text in quotes, with everything escaped that would not show: single quotes, or
double ones where the text has single quotes and no double ones.
-/

namespace CallAtlas.Text

/-- A number in hexadecimal digits, padded with zeros to a width. -/
def hexPadded (width n : Nat) : List Char :=
  let digits := Nat.toDigits 16 n
  List.replicate (width - digits.length) '0' ++ digits

/-- The form of a character inside quotes. -/
def quotedChar (quote c : Char) : List Char :=
  if c = quote ∨ c = '\\' then ['\\', c]
  else if c = '\t' then ['\\', 't']
  else if c = '\n' then ['\\', 'n']
  else if c = '\r' then ['\\', 'r']
  else if Printable.isPrintable c then [c]
  else if c.toNat < 0x100 then ['\\', 'x'] ++ hexPadded 2 c.toNat
  else if c.toNat < 0x10000 then ['\\', 'u'] ++ hexPadded 4 c.toNat
  else ['\\', 'U'] ++ hexPadded 8 c.toNat

/-- The character of a code point. A surrogate that stands alone is none and reads as the
replacement character. -/
def pointChar (n : Nat) : Char := if n.isValidChar then Char.ofNat n else Char.ofNat 0xfffd

/-- The form of a code point inside quotes. -/
def quotedPoint (quote : Char) (n : Nat) : List Char :=
  if n.isValidChar then quotedChar quote (Char.ofNat n) else ['\\', 'u'] ++ hexPadded 4 n

/-- The quote that a text is shown in. -/
def quoteFor (cs : List Char) : Char :=
  if cs.contains '\x27' && !cs.contains '"' then '"' else '\x27'

/-- A text in quotes. -/
def quoted (text : String) : String :=
  let cs := text.toList
  let quote := quoteFor cs
  String.ofList (quote :: cs.flatMap (quotedChar quote) ++ [quote])

/-- Code points in quotes. -/
def quotedPoints (points : List Nat) : String :=
  let quote := quoteFor (points.map pointChar)
  String.ofList (quote :: points.flatMap (quotedPoint quote) ++ [quote])

end CallAtlas.Text
