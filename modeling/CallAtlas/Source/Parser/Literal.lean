import CallAtlas.Source.Parser.Basic

/-!
# Number and string literals

The lexer has measured a literal; here its inside is checked. A string may be marked as raw, as
bytes or as interpolated. In a string that is not raw, an escape that names a character by number or
by name has to be complete (`escapesComplete`). An interpolated string is cut into literal text and
replacement fields; the expression of each field is read with the grammar at its place in the file.
Only for strings over several lines inside of a field the columns are not reported as they are
(`Token.inField`).
-/

namespace CallAtlas.Source

/-- A whole number in decimal digits may have this many. -/
def digitLimit : Nat := 4300

/-- Whether a number literal has a value. -/
def numberFits (text : List Char) : Bool :=
  let digits := text.filter (· ≠ '_')
  !(digits.all Char.isDigit) || text.head? == some '0' || digits.length ≤ digitLimit

/-- Whether `count` hexadecimal digits follow. -/
def hexFollow (count : Nat) (cs : List Char) : Bool :=
  count ≤ cs.length && (cs.take count).all isHexDigit

/-- The value of a hexadecimal digit. -/
def hexValue (c : Char) : Nat :=
  if c.isDigit then c.toNat - 48 else c.toLower.toNat - 87

/-- The value of hexadecimal digits. -/
def hexNumber (cs : List Char) : Nat :=
  cs.foldl (fun n c => 16 * n + hexValue c) 0

/-- Whether a braced, non-empty character name follows. -/
def nameFollows : List Char → Bool
  | '{' :: rest => rest.contains '}' && rest.head? != some '}'
  | _ => false

/-- Whether every escape in a text or, for `bytes`, every hexadecimal escape is complete. -/
def escapesComplete (bytes : Bool) : List Char → Bool
  | '\\' :: c :: rest =>
    (if c = 'x' then hexFollow 2 rest
    else if bytes then true
    else if c = 'u' then hexFollow 4 rest
    else if c = 'U' then hexFollow 8 rest && hexNumber (rest.take 8) ≤ 0x10ffff
    else if c = 'N' then nameFollows rest
    else true) && escapesComplete bytes rest
  | _ :: rest => escapesComplete bytes rest
  | [] => true

/-! ## Replacement fields -/

/-- What the search for the end of an expression is inside of: a string with its quote and whether
it is a long one, and the open brackets. The next `skip` characters belong to a sign that was seen
already. -/
structure FieldScan where
  quote : Option (Char × Bool) := none
  brackets : List Char := []
  skip : Nat := 0

namespace FieldScan

/-- The search after a character inside a string. -/
def inString (scan : FieldScan) (quote : Char) (long : Bool) (c : Char)
    (rest : List Char) : FieldScan :=
  if c ≠ quote then scan
  else if !long then { scan with quote := none }
  else if rest.take 2 = [quote, quote] then { scan with quote := none, skip := 2 }
  else scan

/-- The search after the opening quote of a string. -/
def openString (scan : FieldScan) (quote : Char) (rest : List Char) : FieldScan :=
  if rest.take 2 = [quote, quote] then { scan with quote := some (quote, true), skip := 2 }
  else { scan with quote := some (quote, false) }

/-- The search after a bracket. -/
def bracket? (scan : FieldScan) (c : Char) : Option FieldScan :=
  if c = '(' ∨ c = '[' ∨ c = '{' then
    if scan.brackets.length < bracketLimit then some { scan with brackets := c :: scan.brackets }
    else none
  else
    match scan.brackets with
    | b :: outer =>
      if (b = '(' ∧ c = ')') ∨ (b = '[' ∧ c = ']') ∨ (b = '{' ∧ c = '}') then
        some { scan with brackets := outer }
      else none
    | [] => none

end FieldScan

/-- What follows the expression of a replacement field, from the character on that ends it. No
backslash and no comment may stand in the expression, strings and brackets are passed over, and
comparisons do not end it. -/
def fieldEnd? (scan : FieldScan) : List Char → Option (List Char)
  | [] => none
  | c :: rest =>
    if 0 < scan.skip then fieldEnd? { scan with skip := scan.skip - 1 } rest
    else if c = '\\' then none
    else
      match scan.quote with
      | some (quote, long) => fieldEnd? (scan.inString quote long c rest) rest
      | none =>
        if c = '"' ∨ c = '\x27' then fieldEnd? (scan.openString c rest) rest
        else if c = '#' then none
        else if scan.brackets.isEmpty ∧ ['!', ':', '}', '=', '<', '>'].contains c then
          if rest.head? = some '=' ∧ ['!', '=', '<', '>'].contains c then
            fieldEnd? { scan with skip := 1 } rest
          else if c = '<' ∨ c = '>' then fieldEnd? scan rest
          else some (c :: rest)
        else if ['(', '[', '{', ')', ']', '}'].contains c then do
          let scan ← scan.bracket? c
          fieldEnd? scan rest
        else fieldEnd? scan rest

/-- Blanks that the expression of a field may consist of no more than. -/
def isFieldBlank (c : Char) : Bool :=
  c == ' ' || c == '\t' || c == '\n' || c == '\x0c'

/-- Blanks that may follow the sign which asks for the text of the expression. -/
def isAsciiBlank (c : Char) : Bool :=
  c == ' ' || (9 ≤ c.toNat && c.toNat ≤ 13)

/-- What follows a conversion such as `!r`. -/
def afterConversion? : List Char → Option (List Char)
  | '!' :: c :: rest => if c = 's' ∨ c = 'r' ∨ c = 'a' then some rest else none
  | '!' :: [] => none
  | rest => some rest

/-- Reads a replacement field from its opening brace on. `expression` reads the expression of a
field that opens at a place, `spec` a format specification. -/
def replacementField? (expression : Place → List Char → Option Node)
    (spec : Cursor → Option (List Node × Cursor)) (cursor : Cursor) :
    Option (List Node × Cursor) := do
  let inside := cursor.rest.drop 1
  let stop ← fieldEnd? {} inside
  let text := inside.take (inside.length - stop.length)
  guard !(text.all isFieldBlank)
  let value ← expression cursor.place text
  let stop := match stop with
    | '=' :: rest => rest.dropWhile isAsciiBlank
    | _ => stop
  let stop ← afterConversion? stop
  match stop with
  | ':' :: rest =>
    let (parts, after) ← spec (cursor.moveTo rest)
    match after.rest with
    | '}' :: more => some (value :: parts, after.moveTo more)
    | _ => none
  | '}' :: more => some ([value], cursor.moveTo more)
  | _ => none

/-- What ends a stretch of literal text: the end of the string or of a format specification, a
doubled brace, or the brace that opens a field. -/
inductive TextStop where
  | finish
  | doubled
  | field

/-- What literal text is in the middle of: nothing, an escape, an escape that names a character, or
that name. -/
inductive TextScan where
  | plain
  | escape
  | named
  | characterName
  deriving DecidableEq

/-- Passes over literal text and returns what follows it. A brace inside the name of a character is
no brace; outside of format specifications a doubled brace stands for a brace and a single closing
brace is an error. -/
def literalText? (raw outermost : Bool) : TextScan → List Char → Option (TextStop × List Char)
  | _, [] => some (.finish, [])
  | .named, c :: rest =>
    literalText? raw outermost (if c = '{' then .characterName else .plain) rest
  | .characterName, c :: rest =>
    literalText? raw outermost (if c = '}' then .plain else .characterName) rest
  | scan, c :: rest =>
    if c = '\\' ∧ !raw ∧ scan = .plain then literalText? raw outermost .escape rest
    else if c = 'N' ∧ scan = .escape then literalText? raw outermost .named rest
    else if c = '{' ∨ c = '}' then
      if outermost ∧ rest.head? = some c then some (.doubled, rest.drop 1)
      else if c = '{' then some (.field, c :: rest)
      else if outermost then none
      else some (.finish, c :: rest)
    else literalText? raw outermost .plain rest

/-- Reads literal text and fields in turn, at most `fuel` times. -/
def interpolatedParts? (raw outermost : Bool) (field : Cursor → Option (List Node × Cursor)) :
    Nat → Cursor → Option (List Node × Cursor)
  | 0, _ => none
  | fuel + 1, cursor => do
    let (stop, rest) ← literalText? raw outermost .plain cursor.rest
    let text := cursor.upTo rest
    let text := match stop with
      | .doubled => text.dropLast
      | _ => text
    guard (raw || escapesComplete false text)
    match stop with
    | .finish => some ([], cursor.moveTo rest)
    | .doubled => interpolatedParts? raw outermost field fuel (cursor.moveTo rest)
    | .field =>
      let (parts, after) ← field (cursor.moveTo rest)
      let (more, final) ← interpolatedParts? raw outermost field fuel after
      return (parts ++ more, final)

/-- Reads interpolated text in which fields may be nested `depth` deep: a format specification may
hold fields, whose own specifications may not. -/
def interpolated? (expression : Place → List Char → Option Node) (raw : Bool) :
    Nat → Bool → Cursor → Option (List Node × Cursor)
  | 0, outermost, cursor =>
    interpolatedParts? raw outermost (fun _ => none) (cursor.rest.length + 1) cursor
  | depth + 1, outermost, cursor =>
    interpolatedParts? raw outermost
      (replacementField? expression (interpolated? expression raw depth false))
      (cursor.rest.length + 1) cursor

/-- A token in the expression of a field whose brace opens at a place. A string that begins on the
line of the brace and ends on another is reported as if that line began with the brace. -/
def Token.inField (t : Token) (brace : Place) : Token :=
  match t.lexeme with
  | .string _ =>
    if t.extent.start.line = brace.line ∧ t.extent.stop.line ≠ brace.line then
      { t with extent := { t.extent with start := { t.extent.start with back := brace.column } } }
    else t
  | _ => t

/-! ## String literals -/

/-- A string literal taken apart: its marks and its inside with the place where that starts. -/
structure StringLiteral where
  raw : Bool
  bytes : Bool
  interpolated : Bool
  inside : Cursor

namespace StringLiteral

/-- Takes a string token apart. -/
def ofToken (text : List Char) (start : Place) : StringLiteral :=
  let marks := (text.takeWhile Char.isAlpha).map Char.toLower
  let quoted := text.dropWhile Char.isAlpha
  let quote := quoted.headD '"'
  let size := if 6 ≤ quoted.length ∧ (quoted.take 3).all (· = quote) then 3 else 1
  let opened : Cursor := Cursor.moveTo ⟨text, start⟩ (quoted.drop size)
  { raw := marks.contains 'r'
    bytes := marks.contains 'b'
    interpolated := marks.contains 'f'
    inside := { opened with rest := opened.rest.take (opened.rest.length - size) } }

/-- Reads the inside of a string: the expressions of its replacement fields, if it is well
formed. -/
def parts? (expression : Place → List Char → Option Node) (s : StringLiteral) :
    Option (List Node) :=
  if s.interpolated then do
    let (parts, _) ← interpolated? expression s.raw 2 true s.inside
    return parts
  else if (s.bytes && !(s.inside.rest.all (·.toNat < 128))) ||
      !(s.raw || escapesComplete s.bytes s.inside.rest) then none
  else some []

end StringLiteral

namespace Parser

/-- Takes one string token. -/
def stringToken : Parser (Option StringLiteral) := do
  match ← peek with
  | .string text =>
    let start ← here
    let _ ← next
    return some (StringLiteral.ofToken text start)
  | _ => return none

/-- Adjacent string literals, which count as one; bytes and text do not mix. -/
def strings (g : Grammar) : Parser Operand := do
  let start ← here
  let pieces ← repeated stringToken
  guard (pieces.all StringLiteral.bytes || pieces.all (!·.bytes))
  let parts ← pieces.mapM fun piece => (piece.parts? g.field : Parser (List Node))
  return { node := ← otherFrom start parts.flatten }

/-- A number literal. -/
def number : Parser Operand := do
  let start ← here
  match (← next).lexeme with
  | .number text =>
    guard (numberFits text)
    return { node := ← otherFrom start [] }
  | _ => failure

end Parser

end CallAtlas.Source
