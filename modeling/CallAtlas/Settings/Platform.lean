import CallAtlas.FileSystem.Basic
import CallAtlas.Json.Reader

/-!
# What a platform can bear

Settings are read on a platform that has its limits. The operating system does not answer questions
about every path and does not open every file. The stack has room for so many levels of a value,
when it is read and when it is written out, and whole numbers with too many digits are not written
out at all.
-/

namespace CallAtlas

namespace Json

mutual

/-- Whether a value can be written out: its whole numbers have few enough digits, and there is room
for its levels, the innermost values being a level of their own. -/
def Value.isShowable : Nat → Value → Bool
  | room, .int n => decide (0 < room) && decide (n.natAbs < 10 ^ digitLimit)
  | room, .array items => decide (0 < room) && itemsShowable (room - 1) items
  | room, .object members => decide (0 < room) && membersShowable (room - 1) members
  | room, .null | room, .bool _ | room, .float _ | room, .string _ | room, .surrogates _ =>
    decide (0 < room)

/-- Whether several values can be written out. -/
def itemsShowable : Nat → List Value → Bool
  | _, [] => true
  | room, v :: rest => v.isShowable room && itemsShowable room rest

/-- Whether the values of members can be written out. -/
def membersShowable : Nat → List (String × Value) → Bool
  | _, [] => true
  | room, (_, v) :: rest => v.isShowable room && membersShowable room rest

end

end Json

open Json (Value)

/-- The limits of a platform. `readRoom` is for reading JSON. How much room there is to write out
the value of a setting, `showRoom`, depends on where that setting is checked. -/
structure Platform where
  answers : FileSystem → Path → Bool
  opens : FileSystem → Path → Bool
  readRoom : Nat
  showRoom : String → Nat

namespace Platform

/-- Whether the value of a setting can be written out. -/
def shows (platform : Platform) (name : String) (value : Value) : Bool :=
  value.isShowable (platform.showRoom name)

/-- A name has at most this many bytes. -/
def nameLimit : Nat := 255

/-- A path has at most this many bytes. -/
def pathLimit : Nat := 4095

/-- The directory in which a path needs a name that is too long. -/
def beforeLongName? (p : Path) : Option Path :=
  (p.parts.findIdx? fun name => nameLimit < name.utf8ByteSize).map fun i =>
    { p with parts := p.parts.take i }

/-- The usual platform. Long paths are refused at once, long names where the directory is there that
they are looked up in, and the stack bears some thousand levels. -/
def usual : Platform where
  answers fs p :=
    decide (p.text.utf8ByteSize ≤ pathLimit) &&
      ((beforeLongName? p).map fun d => !fs.isDirectory d).getD true
  opens _ _ := true
  readRoom := 980
  showRoom _ := 980

end Platform

end CallAtlas
