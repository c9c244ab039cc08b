/-!
# Lines of a text

A line ends at a line feed, at a carriage return, or at the two in this order, which count once. A
`LineIndex` knows where the lines of one text start and converts between the two ways of naming a
place in it:

- an offset, counted in characters from the start of the text;
- a line with a column, where a column is counted in characters (`lineAndCharacter`) or, as
  compilers report it, in bytes of UTF-8 (`offsetOf`).
-/

namespace CallAtlas.Text

/-- A stretch of a text together with the place where it starts: the line counted from one, the
character in that line counted from zero, and the two offsets. -/
structure Position where
  line : Int
  character : Int
  start : Int
  stop : Int
  deriving Repr, DecidableEq

/-- The offsets just after each line terminator of a text that stands at the given offset. -/
def lineBreaks : Nat → List Char → List Nat
  | _, [] => []
  | offset, '\r' :: '\n' :: rest => (offset + 2) :: lineBreaks (offset + 2) rest
  | offset, c :: rest =>
    if c = '\r' ∨ c = '\n' then (offset + 1) :: lineBreaks (offset + 1) rest
    else lineBreaks (offset + 1) rest

/-- How many of some increasing numbers are at most `n`. Those before `low` are, those from `high`
on are not, and the stretch between is halved until nothing is left of it. -/
def bisect (numbers : List Nat) (n low high : Nat) : Nat :=
  if low < high then
    let middle := (low + high) / 2
    if n < numbers.getD middle 0 then bisect numbers n low middle
    else bisect numbers n (middle + 1) high
  else low
termination_by high - low

/-- The characters in bytes of UTF-8, from one of the bytes on. A byte at which no character starts
is passed over. -/
def decodedFrom (bytes : ByteArray) (i : Nat) : List Char :=
  if i < bytes.size then
    match bytes.utf8DecodeChar? i with
    | some c => c :: decodedFrom bytes (i + c.utf8Size)
    | none => decodedFrom bytes (i + 1)
  else []
termination_by bytes.size - i
decreasing_by
  · have := c.utf8Size_pos
    omega
  · omega

/-- A text with the offsets at which its lines start. -/
structure LineIndex where
  text : List Char
  starts : List Nat := 0 :: lineBreaks 0 text
  starts_eq : starts = 0 :: lineBreaks 0 text := by rfl

namespace LineIndex

/-- The index of a text. -/
def ofText (text : List Char) : LineIndex := { text }

/-- The number of lines; an empty text has one. -/
def size (index : LineIndex) : Nat := index.starts.length

/-- The nearest offset inside the text. -/
def clamp (index : LineIndex) (offset : Int) : Nat :=
  min offset.toNat index.text.length

/-- Line and character of an offset, both counted from zero. An offset outside the text is moved to
its nearer end. -/
def lineAndCharacter (index : LineIndex) (offset : Int) : Nat × Nat :=
  let o := index.clamp offset
  let line := bisect index.starts o 0 index.size - 1
  (line, o - index.starts.getD line 0)

/-- The characters of a line, its terminator included; lines are counted from zero. -/
def lineText (index : LineIndex) (line : Nat) : List Char :=
  let start := index.starts.getD line 0
  let next := index.starts.getD (line + 1) index.text.length
  (index.text.drop start).take (next - start)

/-- The offset of a byte column in a line counted from one. A line outside the text is moved to the
nearer end, a column inside a character to the start of that character, and a column past the line
to the end of the line. A negative column is counted from the end of the line. -/
def offsetOf (index : LineIndex) (line column : Int) : Nat :=
  let i := min (max line 1).toNat index.size - 1
  let bytes := (String.ofList (index.lineText i)).toUTF8
  let stop := if column < 0 then (bytes.size + column).toNat else column.toNat
  index.starts.getD i 0 + (decodedFrom (bytes.extract 0 stop) 0).length

/-- The position of the stretch between two offsets. -/
def position (index : LineIndex) (start stop : Int) : Position :=
  let (line, character) := index.lineAndCharacter start
  { line := line + 1, character, start, stop }

end LineIndex

/-- Reading a text file turns every line terminator into a line feed. -/
def unifyLineEnds : List Char → List Char
  | [] => []
  | '\r' :: '\n' :: rest => '\n' :: unifyLineEnds rest
  | c :: rest => (if c = '\r' then '\n' else c) :: unifyLineEnds rest

/-- The offset of the first occurrence of a pattern. -/
def find? (pattern : List Char) : List Char → Option Nat
  | [] => if pattern.isEmpty then some 0 else none
  | c :: cs =>
    if pattern.isPrefixOf (c :: cs) then some 0 else (find? pattern cs).map (· + 1)

/-- The offset of the last occurrence of a pattern. -/
def findLast? (pattern : List Char) : List Char → Option Nat
  | [] => if pattern.isEmpty then some 0 else none
  | c :: cs =>
    match findLast? pattern cs with
    | some i => some (i + 1)
    | none => if pattern.isPrefixOf (c :: cs) then some 0 else none

end CallAtlas.Text
