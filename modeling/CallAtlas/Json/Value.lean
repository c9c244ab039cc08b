import CallAtlas.Number.Double
import CallAtlas.Text.Quoted

/-!
# JSON values

Settings come as JSON values. Whole and floating-point numbers are told apart, and the members of an
object keep their order. A string is a text, unless a surrogate stands alone in it. `Value.text` is
the form in which messages show a value.
-/

namespace CallAtlas.Json

/-- A JSON value. -/
inductive Value where
  | null
  | bool (b : Bool)
  | int (n : Int)
  | float (x : Double)
  | string (s : String)
  | surrogates (points : List Nat)
  | array (items : List Value)
  | object (members : List (String × Value))
  deriving Repr, Inhabited

/-- The text of code points, with the replacement character for surrogates that stand alone. -/
def pointText (points : List Nat) : String := String.ofList (points.map Text.pointChar)

namespace Value

/-- The string that has these code points. -/
def ofPoints (points : List Nat) : Value :=
  if points.all fun n => decide n.isValidChar then .string (pointText points)
  else .surrogates points

mutual

/-- The form in which messages show a value. -/
def text : Value → String
  | .null => "None"
  | .bool b => if b then "True" else "False"
  | .int n => toString n
  | .float x => x.text
  | .string s => Text.quoted s
  | .surrogates points => Text.quotedPoints points
  | .array items => "[" ++ ", ".intercalate (itemTexts items) ++ "]"
  | .object members => "\x7b" ++ ", ".intercalate (memberTexts members) ++ "\x7d"

/-- The forms of several values. -/
def itemTexts : List Value → List String
  | [] => []
  | v :: rest => text v :: itemTexts rest

/-- The forms of the members of an object. -/
def memberTexts : List (String × Value) → List String
  | [] => []
  | (k, v) :: rest => (Text.quoted k ++ ": " ++ text v) :: memberTexts rest

end

/-- A string as it is, any other value as messages show it. -/
def plainText : Value → String
  | .string s => s
  | .surrogates points => pointText points
  | v => v.text

/-- Whether a value counts as given: everything but null, false, zeros and empty texts, arrays and
objects. -/
def isGiven : Value → Bool
  | .null => false
  | .bool b => b
  | .int n => n ≠ 0
  | .float x => !x.isZero
  | .string s => !s.isEmpty
  | .surrogates points => !points.isEmpty
  | .array items => !items.isEmpty
  | .object members => !members.isEmpty

end Value

/-- The members of an object with one more: a name that is there already keeps its place and takes
the new value. -/
def insertMember (members : List (String × Value)) (name : String) (value : Value) :
    List (String × Value) :=
  if members.any (·.1 == name) then members.map fun m => if m.1 == name then (name, value) else m
  else members ++ [(name, value)]

/-- The value of a member. -/
def findMember? (members : List (String × Value)) (name : String) : Option Value :=
  (members.find? (·.1 == name)).map Prod.snd

end CallAtlas.Json
