import CallAtlas.Source.Token

/-!
# Cutting a source text into tokens

`tokens?` reads a whole text. It works on text whose lines all end in a line feed
(`withFinalLineEnd`) and fails where no token can be read: an unknown character, an open string or
bracket, a bad number, inconsistent indentation.

- `numberSize?` and `stringSize?` measure literals.
- `Indentation` measures the blanks at the start of a line twice, with tab stops eight columns apart
  and with tabs one column wide; a block is consistent when both measures say so.
- `State` holds the open brackets and the enclosing blocks; `step?` reads one token.
-/

namespace CallAtlas.Source

/-- A character that can belong to a name, as far as can be told before the whole name is seen. -/
def isNameChar (c : Char) : Bool :=
  c.isAlphanum || c == '_' || 128 ≤ c.toNat

/-- Whether a text starts with the given one. -/
def beginsWith (cs : List Char) (start : String) : Bool :=
  start.toList.isPrefixOf cs

/-! ## Numbers -/

/-- What follows a run of digits in which single underscores stand between digits. -/
def skipDigits? (isDigit : Char → Bool) : List Char → Option (List Char)
  | [] => some []
  | ['_'] => none
  | '_' :: c :: rest => if isDigit c then skipDigits? isDigit rest else none
  | c :: rest => if isDigit c then skipDigits? isDigit rest else some (c :: rest)

/-- A number may be followed by the start of an operator word, but by no other character of a
name. -/
def endsNumber (rest : List Char) : Bool :=
  ["and", "else", "for", "if", "in", "is", "or", "not"].any (beginsWith rest) ||
    !(rest.head?.any isNameChar)

/-- What follows, provided that a number can end here. -/
def numberEnd? (rest : List Char) : Option (List Char) :=
  if endsNumber rest then some rest else none

/-- The end of a number whose digits, fraction and exponent are read: the mark of an imaginary
number may follow. -/
def numberTail? : List Char → Option (List Char)
  | 'j' :: rest | 'J' :: rest => numberEnd? rest
  | rest => numberEnd? rest

/-- The digits of an exponent after its mark and sign. -/
def exponentDigits? (rest : List Char) : Option (List Char) :=
  if rest.head?.any Char.isDigit then skipDigits? Char.isDigit rest >>= numberTail? else none

/-- The part of a number from an exponent on. A letter `e` that starts the word `else` is no
exponent. -/
def exponent? : List Char → Option (List Char)
  | 'e' :: '+' :: rest | 'e' :: '-' :: rest | 'E' :: '+' :: rest | 'E' :: '-' :: rest =>
    exponentDigits? rest
  | 'e' :: rest =>
    if rest.head?.any Char.isDigit then exponentDigits? rest
    else if beginsWith rest "lse" then some ('e' :: rest) else none
  | 'E' :: rest => exponentDigits? rest
  | rest => numberTail? rest

/-- The part of a number after its decimal point. -/
def fraction? (rest : List Char) : Option (List Char) :=
  if rest.head?.any Char.isDigit then skipDigits? Char.isDigit rest >>= exponent?
  else exponent? rest

/-- Digits in another base, at least one of them; an underscore may stand before the first. -/
def basedDigits? (isDigit : Char → Bool) (cs : List Char) : Option (List Char) :=
  match cs with
  | '_' :: c :: _ => if isDigit c then skipDigits? isDigit cs >>= numberEnd? else none
  | c :: _ => if isDigit c then skipDigits? isDigit cs >>= numberEnd? else none
  | [] => none

/-- A hexadecimal digit. -/
def isHexDigit (c : Char) : Bool :=
  c.isDigit || ('a' ≤ c && c ≤ 'f') || ('A' ≤ c && c ≤ 'F')

/-- An octal digit. -/
def isOctalDigit (c : Char) : Bool := '0' ≤ c && c ≤ '7'

/-- A binary digit. -/
def isBinaryDigit (c : Char) : Bool := c == '0' || c == '1'

/-- A whole number that starts with zero may have no other digit but zero, unless it goes on as a
fraction. -/
def leadingZero? (cs : List Char) : Option (List Char) := do
  let rest ← skipDigits? Char.isDigit cs
  match rest with
  | '.' :: more => fraction? more
  | 'e' :: _ | 'E' :: _ | 'j' :: _ | 'J' :: _ => exponent? rest
  | _ =>
    if (cs.take (cs.length - rest.length)).all (fun c => c == '0' || c == '_') then numberEnd? rest
    else none

/-- What follows the number that a text starts with. -/
def scanNumber? : List Char → Option (List Char)
  | '.' :: rest => fraction? rest
  | '0' :: 'x' :: rest | '0' :: 'X' :: rest => basedDigits? isHexDigit rest
  | '0' :: 'o' :: rest | '0' :: 'O' :: rest => basedDigits? isOctalDigit rest
  | '0' :: 'b' :: rest | '0' :: 'B' :: rest => basedDigits? isBinaryDigit rest
  | '0' :: rest => leadingZero? rest
  | cs => do
    match ← skipDigits? Char.isDigit cs with
    | '.' :: more => fraction? more
    | rest => exponent? rest

/-- The number of characters of the number that a text starts with; it ends on its line. -/
def numberSize? (cs : List Char) : Option Nat :=
  let line := cs.takeWhile (· ≠ '\n')
  (scanNumber? line).map fun rest => line.length - rest.length

/-! ## Strings -/

/-- The letters that may stand before the opening quote of a string, in lower case. -/
def stringMarks : List (List Char) :=
  ["r", "b", "u", "f", "br", "rb", "fr", "rf"].map String.toList

/-- The number of characters up to the closing quote of a string on one line, that quote and those
that were passed before included; a backslash takes the next character with it. -/
def closeShort? (quote : Char) (passed : Nat) : List Char → Option Nat
  | [] => none
  | '\\' :: _ :: rest => closeShort? quote (passed + 2) rest
  | c :: rest =>
    if c = quote then some (passed + 1)
    else if c = '\n' then none
    else closeShort? quote (passed + 1) rest

/-- The number of characters up to the three closing quotes of a long string, in the same way. -/
def closeLong? (quote : Char) (passed : Nat) : List Char → Option Nat
  | '\\' :: _ :: rest => closeLong? quote (passed + 2) rest
  | a :: b :: c :: rest =>
    if a = quote ∧ b = quote ∧ c = quote then some (passed + 3)
    else closeLong? quote (passed + 1) (b :: c :: rest)
  | _ => none

/-- The number of characters of the string whose opening quote a text starts with. -/
def stringSize? : List Char → Option Nat
  | [] => none
  | quote :: a :: b :: rest =>
    if a = quote ∧ b = quote then closeLong? quote 3 rest else closeShort? quote 1 (a :: b :: rest)
  | quote :: rest => closeShort? quote 1 rest

/-! ## Lines and blocks -/

/-- The text with a line feed at its end. -/
def withFinalLineEnd (cs : List Char) : List Char :=
  if cs.getLast? = some '\n' then cs else cs ++ ['\n']

/-- The rest of a text and the place where it starts. -/
structure Cursor where
  rest : List Char
  place : Place

namespace Cursor

/-- The cursor moved over a number of characters. -/
def advance (cursor : Cursor) (n : Nat) : Cursor :=
  ⟨cursor.rest.drop n, (cursor.rest.take n).foldl Place.after cursor.place⟩

/-- The cursor moved over characters until `rest` remains, which is a tail of the text at the
cursor. -/
def moveTo (cursor : Cursor) (rest : List Char) : Cursor :=
  ⟨rest, (cursor.rest.take (cursor.rest.length - rest.length)).foldl Place.after cursor.place⟩

/-- The characters between the cursor and `rest`. -/
def upTo (cursor : Cursor) (rest : List Char) : List Char :=
  cursor.rest.take (cursor.rest.length - rest.length)

end Cursor

/-- The measure of the blanks at the start of a line: with tab stops eight columns apart, with tabs
of one column, where the first backslash stood that continued the line, and how many characters were
measured. -/
structure Indentation where
  wide : Nat := 0
  narrow : Nat := 0
  held : Nat := 0
  passed : Nat := 0

namespace Indentation

/-- Measures the blanks at the start of a line and returns what follows them. A continued line
counts with the blanks before its first backslash. -/
def measure? : Indentation → List Char → Option (Indentation × List Char)
  | m, ' ' :: rest =>
    measure? { m with wide := m.wide + 1, narrow := m.narrow + 1, passed := m.passed + 1 } rest
  | m, '\t' :: rest =>
    let wide := (m.wide / 8 + 1) * 8
    measure? { m with wide, narrow := m.narrow + 1, passed := m.passed + 1 } rest
  | m, '\x0c' :: rest => measure? { m with wide := 0, narrow := 0, passed := m.passed + 1 } rest
  | m, '\\' :: '\n' :: c :: rest =>
    let held := if m.held = 0 then m.wide else m.held
    measure? { m with held, passed := m.passed + 2 } (c :: rest)
  | _, '\\' :: _ => none
  | m, rest => some (m, rest)

/-- The two measures that are compared with the enclosing blocks. -/
def widths (m : Indentation) : Nat × Nat :=
  if m.held = 0 then (m.wide, m.narrow) else (m.held, m.held)

end Indentation

/-- Blocks may be nested this deep. -/
def blockLimit : Nat := 100

/-- Brackets may be nested this deep. -/
def bracketLimit : Nat := 200

/-- What the reader knows between two tokens: where it stands, whether a line starts here, the open
brackets and the indentation of the enclosing blocks, the innermost first. -/
structure State where
  cursor : Cursor
  atLineStart : Bool := true
  brackets : List Char := []
  blocks : List (Nat × Nat) := []

namespace State

/-- The indentation of the innermost block. -/
def indentation (s : State) : Nat × Nat := s.blocks.headD (0, 0)

/-- A token without characters at the cursor. -/
def layout (s : State) (lexeme : Lexeme) : Token :=
  ⟨lexeme, s.cursor.place, s.cursor.place⟩

/-- The state after a number of characters. -/
def advance (s : State) (n : Nat) : State :=
  { s with cursor := s.cursor.advance n }

/-- A token made of a number of characters, and the state after it. -/
def emit (s : State) (lexeme : List Char → Lexeme) (n : Nat) : State × List Token :=
  let next := s.advance n
  (next, [⟨lexeme (s.cursor.rest.take n), s.cursor.place, next.cursor.place⟩])

/-- Opens or closes blocks for a line with the given indentation. A new block is deeper by both
measures; any other line has exactly the indentation of an enclosing block. -/
def indentTo? (s : State) (width : Nat × Nat) : Option (State × List Token) :=
  let (wide, narrow) := width
  if wide = s.indentation.1 then
    if narrow = s.indentation.2 then some (s, []) else none
  else if s.indentation.1 < wide then
    if s.indentation.2 < narrow ∧ s.blocks.length + 1 < blockLimit then
      some ({ s with blocks := width :: s.blocks }, [s.layout .indent])
    else none
  else
    let blocks := s.blocks.dropWhile (wide < ·.1)
    if blocks.headD (0, 0) = width then
      some ({ s with blocks }, List.replicate (s.blocks.length - blocks.length) (s.layout .dedent))
    else none

/-- Opens or closes a bracket. -/
def bracket? (s : State) (c : Char) : Option State :=
  let closing (opening : Char) : Option State :=
    match s.brackets with
    | b :: brackets => if b = opening then some { s with brackets } else none
    | [] => none
  if c = '(' ∨ c = '[' ∨ c = '{' then
    if s.brackets.length < bracketLimit then some { s with brackets := c :: s.brackets } else none
  else if c = ')' then closing '('
  else if c = ']' then closing '['
  else if c = '}' then closing '{'
  else some s

/-- Reads a sign: the longest that fits. -/
def sign? (s : State) : Option (State × List Token) :=
  let cs := s.cursor.rest
  if longSigns.contains (cs.take 3) then some (s.emit .sign 3)
  else if pairSigns.contains (cs.take 2) then some (s.emit .sign 2)
  else
    match cs with
    | [] => none
    | c :: _ =>
      if singleSigns.contains c then (s.bracket? c).map (·.emit .sign 1) else none

/-- Reads a name, or the string that the name is the mark of. -/
def word? (s : State) : Option (State × List Token) :=
  let cs := s.cursor.rest
  let name := cs.takeWhile isNameChar
  let rest := cs.dropWhile isNameChar
  if (rest.head? = some '"' ∨ rest.head? = some '\x27') ∧
      stringMarks.contains (name.map Char.toLower) then
    (stringSize? rest).map fun n => s.emit .string (name.length + n)
  else if name.all (·.toNat < 128) ∨ Text.Identifier.isIdentifier name then
    some (s.emit .word name.length)
  else none

/-- The number of characters of a comment, its mark included, given what follows the mark. -/
def commentSize (rest : List Char) : Nat := (rest.takeWhile (· ≠ '\n')).length + 1

/-- Reads what stands at the cursor inside a line. -/
def token? (s : State) : Option (State × List Token) :=
  match s.cursor.rest with
  | [] => none
  | '#' :: rest => some (s.advance (commentSize rest), [])
  | '\n' :: _ =>
    let next := { s.advance 1 with atLineStart := true }
    some (next, if s.brackets.isEmpty then [s.layout .lineEnd] else [])
  | '\\' :: '\n' :: _ :: _ => some (s.advance 2, [])
  | c :: rest =>
    if c = ' ' ∨ c = '\t' ∨ c = '\x0c' then some (s.advance 1, [])
    else if c.isDigit ∨ (c = '.' ∧ rest.head?.any Char.isDigit) then
      (numberSize? s.cursor.rest).map (s.emit .number)
    else if isNameChar c then s.word?
    else if c = '"' ∨ c = '\x27' then (stringSize? s.cursor.rest).map (s.emit .string)
    else s.sign?

/-- Starts a line. Lines with nothing but blanks and comments leave the blocks alone. -/
def lineStart? (s : State) : Option (State × List Token) := do
  let (measured, rest) ← Indentation.measure? {} s.cursor.rest
  let inside := { s.advance measured.passed with atLineStart := false }
  match rest with
  | '#' :: more => some ({ inside.advance (commentSize more + 1) with atLineStart := true }, [])
  | '\n' :: _ => some ({ inside.advance 1 with atLineStart := true }, [])
  | _ => if s.brackets.isEmpty then inside.indentTo? measured.widths else some (inside, [])

/-- Reads one token, or passes over blanks. -/
def step? (s : State) : Option (State × List Token) :=
  if s.atLineStart then s.lineStart? else s.token?

/-- Closes what is open at the end of the text. -/
def finish? (s : State) : Option (List Token) :=
  if s.brackets.isEmpty then
    some (List.replicate s.blocks.length (s.layout .dedent) ++ [s.layout .finish])
  else none

/-- Reads tokens to the end of the text, at most `fuel` steps; `read` holds those already read, the
last first. -/
def run? : Nat → List Token → State → Option (List Token)
  | 0, _, _ => none
  | fuel + 1, read, s =>
    if s.cursor.rest.isEmpty then do
      let last ← s.finish?
      return read.reverse ++ last
    else do
      let (next, more) ← s.step?
      run? fuel (more.reverse ++ read) next

end State

/-- The tokens of a text that starts at the given place. Every step but the one that enters a line
passes over a character, so twice the length of the text bounds their number. -/
def tokensFrom? (place : Place) (text : List Char) : Option (List Token) :=
  let cs := withFinalLineEnd text
  State.run? (2 * cs.length + 1) [] { cursor := ⟨cs, place⟩ }

/-- The tokens of a whole source text with line feeds as line ends. -/
def tokens? (text : List Char) : Option (List Token) :=
  tokensFrom? .origin text

end CallAtlas.Source
