import CallAtlas.Text.Quoted

/-!
# Writing JSON strings

`literal` writes a text as a JSON string. Quotes, backslashes and control characters are escaped in
every case; a literal in ASCII also escapes everything beyond the printable ASCII characters, in
UTF-16 units.
-/

namespace CallAtlas.Json

open Text (hexPadded)

/-- An escape with four hexadecimal digits. -/
def unitEscape (n : Nat) : List Char := '\\' :: 'u' :: hexPadded 4 n

/-- The UTF-16 units of a character as escapes. -/
def unitEscapes (c : Char) : List Char :=
  let n := c.toNat
  if n < 0x10000 then unitEscape n
  else unitEscape (0xD800 + (n - 0x10000) / 0x400) ++ unitEscape (0xDC00 + (n - 0x10000) % 0x400)

/-- A character inside a literal. -/
def literalChar (ascii : Bool) (c : Char) : List Char :=
  match c with
  | '"' => ['\\', '"']
  | '\\' => ['\\', '\\']
  | '\n' => ['\\', 'n']
  | '\r' => ['\\', 'r']
  | '\t' => ['\\', 't']
  | '\x08' => ['\\', 'b']
  | '\x0c' => ['\\', 'f']
  | c => if c < ' ' || (ascii && '~' < c) then unitEscapes c else [c]

/-- A text as a JSON string, quotes included. -/
def literal (ascii : Bool) (text : String) : String :=
  String.ofList ('"' :: text.toList.flatMap (literalChar ascii) ++ ['"'])

end CallAtlas.Json
