import CallAtlas.CallSite
import CallAtlas.Hierarchy.Tree
import CallAtlas.Symbol
import CallAtlas.Text.Split

/-!
# Names and classes of what is drawn

How files and declarations are named in a graph, where a file belongs, which nodes are drawn, and
under which names the graph of a call site is written and served.
-/

namespace CallAtlas

open Text

/-- Where a file belongs. -/
inductive FileCategory where
  | standardLibrary
  | thirdParty
  | project
  deriving Repr, DecidableEq, Inhabited

/-- The written form of a category. -/
def FileCategory.text : FileCategory → String
  | .standardLibrary => "stdlib"
  | .thirdParty => "third_party"
  | .project => "project"

/-- The directories that hold installed packages. -/
def packageDirectories : List String := ["site-packages", "dist-packages"]

/-- Where the standard library usually is installed. -/
def standardDirectories : List Path := [Path.ofString "/usr/lib/python3.11"]

/-- Whether a text contains another. -/
def containsText (pattern text : String) : Bool := (find? pattern.toList text.toList).isSome

namespace Path

/-- Where a file belongs, given the directories of the standard library: what lies below a directory
of packages is third-party, whatever else holds. -/
def category (file : Path) (standard : List Path) : FileCategory :=
  if file.components.any packageDirectories.contains then .thirdParty
  else if containsText "typeshed/stdlib" file.text then .standardLibrary
  else if standard.any (·.isProperAncestor file) then .standardLibrary
  else if containsText "typeshed/stubs" file.text then .thirdParty
  else .project

/-- The name of a file seen from a directory, if it lies there. -/
def labelFrom (file : Path) (root : Option Path) : String :=
  match root with
  | none => file.text
  | some directory => ((file.relativeTo? directory).getD file).text

end Path

/-- What a node of a graph can do: `expandable` hides calls, `expanded` shows some, and of a
`truncated` one none were built. -/
inductive NodeState where
  | leaf
  | expandable
  | expanded
  | truncated
  deriving Repr, DecidableEq, Inhabited

/-- The written form of a state. -/
def NodeState.text : NodeState → String
  | .leaf => "leaf"
  | .expandable => "expandable"
  | .expanded => "expanded"
  | .truncated => "truncated"

namespace NodeData

/-- The line of the name. -/
def line (d : NodeData) : Int := d.selection.line

/-- The name with that of the container. -/
def fullName (d : NodeData) : String :=
  match d.container with
  | some c => if c.isEmpty then d.name else c ++ "." ++ d.name
  | none => d.name

/-- The text that is drawn for a node. -/
def label (d : NodeData) : String := d.fullName ++ ":" ++ toString d.line

/-- The identifier of what a node declares. -/
def graphId (d : NodeData) (root : Option Path) : String :=
  d.file.labelFrom root ++ ":" ++ d.name ++ ":" ++ toString d.line

/-- Whether a node has a kind that can be called. -/
def isCallable (d : NodeData) : Bool :=
  [SymbolKind.function, .method, .localFunction].any fun k => k.text == d.kind

/-- Whether a node is only declared. -/
def isDeclaration (d : NodeData) : Bool := (splitText ',' d.modifiers).contains declareModifier

/-- Whether a node is drawn: it can be called, and what is only declared is drawn on request. -/
def isDrawn (d : NodeData) (declaration : Bool := false) : Bool :=
  d.isCallable && (declaration || !d.isDeclaration)

end NodeData

namespace Tree

/-- What the root of a tree can do. -/
def state (t : Tree) : NodeState :=
  if !t.children.isEmpty then .expanded
  else if t.data.truncated then .truncated
  else if t.data.further then .expandable
  else .leaf

end Tree

namespace CallSite

/-- The path under which the graph of a call site is served. -/
def viewKey (site : CallSite) (root : Option Path) : String :=
  "/" ++ site.file.labelFrom root ++ "/" ++ site.called ++ ":" ++ toString site.position.line

/-- The path, without an extension, of the files that the graph of a call site is written to. -/
def outputBase (site : CallSite) (root : Option Path) (directory : Path) : Path :=
  directory.join
    (Path.ofString
      (site.file.labelFrom root ++ "#" ++ site.called ++ ":" ++ toString site.position.line))

end CallSite

end CallAtlas
