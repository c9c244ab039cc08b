import CallAtlas.Path
import CallAtlas.Source.Parse

/-!
# Call sites

A call site is a place in a source text where a plain name or a member is called. The callee of such
a call spans its name or, for a member, everything from the end of the receiver to the end of the
member: the dot, line breaks and comments in between. The name itself is the last occurrence of its
text in that span.

- `calleeSpan?` and `locate?` find the span and the name of a call;
- `callSites` walks a syntax tree and lists the sites in the order of the walk, each with the
  definitions around it;
- `extractCallSites` does so for a source text.
-/

namespace CallAtlas

open Source Text

/-- A call of a name or member. `span` is the span of the callee, `position` that of its name up to
the same end; `container` holds the dotted names of the enclosing definitions. -/
structure CallSite where
  file : Path
  called : String
  span : Position
  position : Position
  container : Option String := none
  deriving Repr, DecidableEq

/-- The name of a callee with the offsets of its span. -/
structure CalleeSpan where
  name : String
  start : Nat
  stop : Nat
  deriving Repr, DecidableEq

/-- The name that a call found in its text: the callee's span and the offset of the name in the
text. -/
structure Located where
  span : CalleeSpan
  offset : Nat
  deriving Repr, DecidableEq

namespace Text.LineIndex

/-- The offset of a place in the source, as it is reported. -/
def offsetAt (index : LineIndex) (place : Place) : Nat :=
  index.offsetOf place.line place.reported

/-- The characters between two offsets. -/
def slice (index : LineIndex) (start stop : Nat) : List Char :=
  (index.text.drop start).take (stop - start)

end Text.LineIndex

/-- The span of a callee that is a name or a member. -/
def calleeSpan? (index : LineIndex) : Node → Option CalleeSpan
  | .name id extent => some ⟨id, index.offsetAt extent.start, index.offsetAt extent.stop⟩
  | .member receiver id extent =>
    some ⟨id, index.offsetAt receiver.extent.stop, index.offsetAt extent.stop⟩
  | _ => none

/-- The last occurrence of the called name in the span of the callee. -/
def locate? (index : LineIndex) (callee : Node) : Option Located := do
  let span ← calleeSpan? index callee
  let found ← findLast? span.name.toList (index.slice span.start span.stop)
  return ⟨span, span.start + found⟩

/-- The dotted form of nested names, none if there are none. -/
def dotted? (names : List String) : Option String :=
  if names.isEmpty then none else some (".".intercalate names)

/-- The call site at a located name. -/
def CallSite.ofLocated (file : Path) (index : LineIndex) (context : List String)
    (l : Located) : CallSite where
  file := file
  called := l.span.name
  span := index.position l.span.start l.span.stop
  position := index.position l.offset l.span.stop
  container := dotted? context

mutual

/-- The call sites of a tree whose enclosing definitions have the names `context`, the outermost
first. -/
def callSites (file : Path) (index : LineIndex) (context : List String) : Node → List CallSite
  | .name _ _ => []
  | .member receiver _ _ => callSites file index context receiver
  | .call callee arguments _ =>
    ((locate? index callee).map (CallSite.ofLocated file index context)).toList ++
      callSites file index context callee ++ callSitesOfAll file index context arguments
  | .definition head parts _ => callSitesOfAll file index (context ++ [head.name]) parts
  | .imports _ _ => []
  | .other parts _ => callSitesOfAll file index context parts

/-- The call sites of several trees, one after the other. -/
def callSitesOfAll (file : Path) (index : LineIndex) (context : List String) :
    List Node → List CallSite
  | [] => []
  | node :: rest => callSites file index context node ++ callSitesOfAll file index context rest

end

/-- The call sites of a source text, all of them or those whose name stands on the given line. -/
def extractCallSites (file : Path) (text : List Char) (line : Option Int := none) :
    Except ParseError (List CallSite) := do
  let tree ← parseModule text
  let sites := callSites file (.ofText text) [] tree
  return match line with
    | none => sites
    | some l => sites.filter fun s => s.position.line = l

end CallAtlas
