import CallAtlas.Path

/-!
# Resolvers

A call hierarchy is grown by asking a resolver: which declarations a place in a file refers to, what
a declaration calls and what calls it, and where an offset stands in its file. A resolver may keep a
state between questions, and any of its answers may be a failure instead; running out of stack is a
failure of its own, because the growing tree survives it.
-/

namespace CallAtlas

/-- A declaration that can be called, as a resolver reports it. The offsets are those of the
declaration and its name. -/
structure Item where
  file : Path
  name : String
  kind : String
  modifiers : String := ""
  container : Option String := none
  spanStart : Int := 0
  selectionStart : Int := 0
  deriving Repr, DecidableEq, Inhabited

/-- A related declaration with the offsets of the calls that relate it. -/
structure Relation where
  item : Item
  offsets : List Int := []
  deriving Repr, DecidableEq, Inhabited

/-- A line with a character in it. -/
structure LineColumn where
  line : Int
  character : Int
  deriving Repr, DecidableEq, Inhabited

/-- Why a resolver did not answer. -/
inductive Failure where
  | stackExhausted
  | refused
  deriving Repr, DecidableEq

/-- Whether a hierarchy shows what is called or what calls. -/
inductive Direction where
  | outgoing
  | incoming
  deriving Repr, DecidableEq, Inhabited

namespace Direction

/-- The written form of a direction. -/
def text : Direction → String
  | .outgoing => "outgoing"
  | .incoming => "incoming"

/-- The written form at the start of a sentence. -/
def capitalised : Direction → String
  | .outgoing => "Outgoing"
  | .incoming => "Incoming"

end Direction

/-- Answers a question in a state, or fails, and goes on to the next state. -/
abbrev Answer (σ α : Type) := ExceptT Failure (StateM σ) α

/-- What a hierarchy asks. Lines and characters count from zero. -/
structure Resolver (σ : Type) where
  prepare : Path → Int → Answer σ (List Item)
  outgoing : Item → Answer σ (List Relation)
  incoming : Item → Answer σ (List Relation)
  lineColumn : Path → Int → Answer σ LineColumn

namespace Resolver

/-- The declarations related to one in a direction. -/
def expand {σ : Type} (r : Resolver σ) : Direction → Item → Answer σ (List Relation)
  | .outgoing => r.outgoing
  | .incoming => r.incoming

end Resolver

namespace Item

/-- The name of an item with that of its container. -/
def fullName (item : Item) : String :=
  match item.container with
  | some c => if c.isEmpty then item.name else c ++ "." ++ item.name
  | none => item.name

/-- How messages name an item. -/
def describe (item : Item) : String :=
  item.fullName ++ " [" ++ item.kind ++ "] in " ++ item.file.text ++ "@" ++
    toString item.selectionStart

end Item

end CallAtlas
