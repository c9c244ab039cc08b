import CallAtlas.Source.Token

/-!
# Syntax trees

A syntax tree keeps what the analysis of calls looks at and passes over the rest: names, member
accesses, calls, definitions and imports are nodes of their own, every other construct is an `other`
node with its parts. The parts of a node stand in the order in which a walk visits them, which is
not always their order in the text: the keyword arguments of a call come after all its other
arguments, the decorators and the result annotation of a function after its body, the values of a
dictionary after its keys, and the condition of a conditional expression comes first.
-/

namespace CallAtlas.Source

/-- What a definition defines. -/
inductive DefinitionKind where
  | function
  | asyncFunction
  | classLike
  deriving Repr, DecidableEq, Inhabited

/-- The head of a definition: its kind and name, and the names of its decorators that have one. -/
structure Definition where
  kind : DefinitionKind
  name : String
  decorators : List String := []
  deriving Repr, DecidableEq, Inhabited

/-- An import makes a name stand for a dotted target. -/
structure Binding where
  bound : String
  target : String
  deriving Repr, DecidableEq, Inhabited

/-- A syntax tree. -/
inductive Node where
  | name (id : String) (extent : Extent)
  | member (receiver : Node) (id : String) (extent : Extent)
  | call (callee : Node) (arguments : List Node) (extent : Extent)
  | definition (head : Definition) (parts : List Node) (extent : Extent)
  | imports (bindings : List Binding) (extent : Extent)
  | other (parts : List Node) (extent : Extent)
  deriving Repr, Inhabited

namespace Node

/-- The extent of a node. -/
def extent : Node → Extent
  | .name _ e | .member _ _ e | .call _ _ e | .definition _ _ e | .imports _ e | .other _ e => e

/-- The parts of a node in the order of the walk. -/
def parts : Node → List Node
  | .name _ _ | .imports _ _ => []
  | .member receiver _ _ => [receiver]
  | .call callee arguments _ => callee :: arguments
  | .definition _ parts _ | .other parts _ => parts

/-- Whether a node is a member access. -/
def isMember : Node → Bool
  | .member _ _ _ => true
  | _ => false

/-- The name that a decorator goes by: its own, or that of the function which makes it. -/
def decoratorName? : Node → Option String
  | .name id _ | .member _ id _ | .call (.name id _) _ _ | .call (.member _ id _) _ _ => some id
  | _ => none

end Node

end CallAtlas.Source
