import CallAtlas.Json.Value

/-!
# Reading JSON

`parse` reads a text that holds one JSON value and blanks. Beyond the standard it takes `NaN` and
the infinities, and of members with the same name the last value counts. Whole numbers have at most
`digitLimit` digits; a longer one is an error of its own. So are arrays and objects inside each
other that need more levels than there is room for.
-/

namespace CallAtlas.Json

/-- Why a text is not read: it is malformed, it holds a whole number with too many digits, or it is
nested too deep. -/
inductive ReadError where
  | malformed
  | longNumber (digits : Nat)
  | tooDeep
  deriving Repr, DecidableEq

/-- Whole numbers may have this many digits. -/
def digitLimit : Nat := 4300

/-- The blanks between the parts of a JSON text. -/
def isBlank (c : Char) : Bool :=
  c == ' ' || c == '\t' || c == '\n' || c == '\r'

/-- Passes over blanks. -/
def skipBlanks (cs : List Char) : List Char := cs.dropWhile isBlank

/-- The value of decimal digits. -/
def decimal (cs : List Char) : Nat :=
  cs.foldl (fun n c => 10 * n + (c.toNat - 48)) 0

/-- The value of a hexadecimal digit. -/
def hexDigit? (c : Char) : Option Nat :=
  if c.isDigit then some (c.toNat - 48)
  else if 'a' ≤ c ∧ c ≤ 'f' then some (c.toNat - 87)
  else if 'A' ≤ c ∧ c ≤ 'F' then some (c.toNat - 55)
  else none

/-- The code unit of four hexadecimal digits. -/
def unit? : List Char → Option (Nat × List Char)
  | a :: b :: c :: d :: rest => do
    let a ← hexDigit? a
    let b ← hexDigit? b
    let c ← hexDigit? c
    let d ← hexDigit? d
    return (((a * 16 + b) * 16 + c) * 16 + d, rest)
  | _ => none

/-- The code point of a code unit, joined with the low surrogate that follows a high one. -/
def joined (unit : Nat) (rest : List Char) : Nat × List Char :=
  if 0xd800 ≤ unit ∧ unit < 0xdc00 then
    match rest with
    | '\\' :: 'u' :: more =>
      match unit? more with
      | some (low, after) =>
        if 0xdc00 ≤ low ∧ low < 0xe000 then
          (0x10000 + (unit - 0xd800) * 0x400 + (low - 0xdc00), after)
        else (unit, rest)
      | none => (unit, rest)
    | _ => (unit, rest)
  else (unit, rest)

/-- The character of an escape with one letter. -/
def simpleEscape? (c : Char) : Option Char :=
  match c with
  | '"' => some '"'
  | '\\' => some '\\'
  | '/' => some '/'
  | 'b' => some '\x08'
  | 'f' => some '\x0c'
  | 'n' => some '\n'
  | 'r' => some '\r'
  | 't' => some '\t'
  | _ => none

/-- Reads the inside of a string and its closing quote; `read` holds the code points read, the last
first. -/
def stringFrom : Nat → List Nat → List Char → Except ReadError (List Nat × List Char)
  | 0, _, _ => .error .malformed
  | fuel + 1, read, cs =>
    match cs with
    | [] => .error .malformed
    | '"' :: rest => .ok (read.reverse, rest)
    | '\\' :: 'u' :: rest =>
      match unit? rest with
      | some (unit, after) =>
        let (point, after) := joined unit after
        stringFrom fuel (point :: read) after
      | none => .error .malformed
    | '\\' :: c :: rest =>
      match simpleEscape? c with
      | some e => stringFrom fuel (e.toNat :: read) rest
      | none => .error .malformed
    | c :: rest =>
      if c.toNat < 0x20 then .error .malformed else stringFrom fuel (c.toNat :: read) rest

/-- Reads the code points of a string after its opening quote. -/
def points (cs : List Char) : Except ReadError (List Nat × List Char) :=
  stringFrom (cs.length + 1) [] cs

/-- Reads a string after its opening quote. -/
def string (cs : List Char) : Except ReadError (Value × List Char) := do
  let (points, rest) ← points cs
  return (.ofPoints points, rest)

/-- Reads the name of a member after its opening quote. -/
def name (cs : List Char) : Except ReadError (String × List Char) := do
  let (points, rest) ← points cs
  return (pointText points, rest)

/-- The part of a number after a point: its digits, if there are any. -/
def fraction (cs : List Char) : List Char × List Char :=
  match cs with
  | '.' :: rest =>
    let digits := rest.takeWhile Char.isDigit
    if digits.isEmpty then ([], cs) else (digits, rest.dropWhile Char.isDigit)
  | _ => ([], cs)

/-- The exponent of a number, if there is one. -/
def exponent (cs : List Char) : Option Int × List Char :=
  match cs with
  | e :: rest =>
    if e = 'e' ∨ e = 'E' then
      let (negative, rest) := match rest with
        | '-' :: more => (true, more)
        | '+' :: more => (false, more)
        | _ => (false, rest)
      let digits := rest.takeWhile Char.isDigit
      if digits.isEmpty then (none, cs)
      else
        let n : Int := decimal digits
        (some (if negative then -n else n), rest.dropWhile Char.isDigit)
    else (none, cs)
  | [] => (none, cs)

/-- Reads a number after its sign. -/
def number (negative : Bool) (cs : List Char) : Except ReadError (Value × List Char) :=
  let digits := match cs with
    | '0' :: _ => ['0']
    | _ => cs.takeWhile Char.isDigit
  if digits.isEmpty then .error .malformed
  else
    let rest := cs.drop digits.length
    let (places, rest) := fraction rest
    let (power, rest) := exponent rest
    if places.isEmpty ∧ power = none then
      if digitLimit < digits.length then .error (.longNumber digits.length)
      else
        let n : Int := decimal digits
        .ok (.int (if negative then -n else n), rest)
    else
      let e := power.getD 0 - places.length
      .ok (.float (Double.ofDecimal negative (decimal (digits ++ places)) e), rest)

/-- The words that stand for values. -/
def words : List (List Char × Value) := [
  ("null".toList, .null), ("true".toList, .bool true), ("false".toList, .bool false),
  ("NaN".toList, .float Double.notANumber), ("Infinity".toList, .float (Double.infinity false)),
  ("-Infinity".toList, .float (Double.infinity true))]

mutual

/-- Reads a value that has at most `room` levels of arrays and objects; `fuel` bounds the number of
steps. -/
def value (room : Nat) : Nat → List Char → Except ReadError (Value × List Char)
  | 0, _ => .error .malformed
  | fuel + 1, cs =>
    match words.find? fun w => w.1.isPrefixOf cs with
    | some (w, v) => .ok (v, cs.drop w.length)
    | none =>
      match cs with
      | '"' :: rest => string rest
      | '{' :: rest =>
        if room = 0 then .error .tooDeep
        else
          match skipBlanks rest with
          | '}' :: more => .ok (.object [], more)
          | inner => members (room - 1) fuel [] inner
      | '[' :: rest =>
        if room = 0 then .error .tooDeep
        else
          match skipBlanks rest with
          | ']' :: more => .ok (.array [], more)
          | inner => items (room - 1) fuel [] inner
      | '-' :: rest => number true rest
      | _ => number false cs

/-- Reads the members of an object from a name on; `read` holds those before it. -/
def members (room : Nat) :
    Nat → List (String × Value) → List Char → Except ReadError (Value × List Char)
  | 0, _, _ => .error .malformed
  | fuel + 1, read, cs =>
    match cs with
    | '"' :: rest => do
      let (name, rest) ← name rest
      match skipBlanks rest with
      | ':' :: rest =>
        let (v, rest) ← value room fuel (skipBlanks rest)
        let read := insertMember read name v
        match skipBlanks rest with
        | ',' :: rest => members room fuel read (skipBlanks rest)
        | '}' :: rest => return (.object read, rest)
        | _ => .error .malformed
      | _ => .error .malformed
    | _ => .error .malformed

/-- Reads the items of an array; `read` holds those before, the last first. -/
def items (room : Nat) : Nat → List Value → List Char → Except ReadError (Value × List Char)
  | 0, _, _ => .error .malformed
  | fuel + 1, read, cs => do
    let (v, rest) ← value room fuel cs
    match skipBlanks rest with
    | ',' :: rest => items room fuel (v :: read) (skipBlanks rest)
    | ']' :: rest => return (.array (v :: read).reverse, rest)
    | _ => .error .malformed

end

/-- Reads a text that holds one value. -/
def parse (room : Nat) (text : List Char) : Except ReadError Value := do
  let (v, rest) ← value room (2 * text.length + 2) (skipBlanks text)
  if (skipBlanks rest).isEmpty then return v else throw .malformed

end CallAtlas.Json
