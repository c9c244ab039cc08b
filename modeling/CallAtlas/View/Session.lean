import CallAtlas.Graph.Dot
import CallAtlas.Log

/-!
# Sessions

A session shows one tree. Its working copy starts as the whole tree; a toggle hides the children of
a node that shows some, or shows the children of one that shows none, one level at a time. The tree
itself never changes, so whatever is hidden can be shown again.

A node whose children are hidden does not count as truncated, so that it can be opened again.
-/

namespace CallAtlas

namespace Tree

mutual

/-- The tree with the first subtree that has an identifier replaced, if there is one. -/
def replaceFirst? (id : Int) (f : Tree → Tree) : Tree → Option Tree
  | .node d children =>
    if d.id = id then some (f (.node d children))
    else (replaceFirstOfAll? id f children).map (.node d)

/-- The trees with the first subtree that has an identifier replaced, if there is one. -/
def replaceFirstOfAll? (id : Int) (f : Tree → Tree) : List Tree → Option (List Tree)
  | [] => none
  | t :: rest =>
    match replaceFirst? id f t with
    | some t => some (t :: rest)
    | none => (replaceFirstOfAll? id f rest).map (t :: ·)

end

/-- The root of a tree with its children hidden. -/
def collapsed (t : Tree) : Tree :=
  .node { t.data with truncated := t.data.truncated && t.children.isEmpty } []

/-- The root of a tree with its children shown, and theirs hidden. -/
def opened (t : Tree) : Tree := .node t.data (t.children.map collapsed)

/-- What a toggle makes of a shown node, given the same node of the whole tree. -/
def toggled (source shown : Tree) : Tree :=
  if shown.children.isEmpty then
    .node { shown.data with truncated := source.data.truncated } source.opened.children
  else .node { shown.data with truncated := false } []

end Tree

/-- The view of one tree, with its key: the whole tree and what is shown of it. -/
structure Session where
  key : String
  full : Tree
  current : Tree := full.copy none

namespace Session

/-- Hides the children of a node that shows some, or else shows those of the whole tree. -/
def toggle (s : Session) (id : Int) : Except NodeNotFound Session := do
  let _ ← s.current.find id "the current tree"
  let source ← s.full.find id "the original tree"
  return { s with current := (s.current.replaceFirst? id (source.toggled)).getD s.current }

/-- The DOT texts of a session, for the browser and for download. -/
structure Views where
  browser : String
  download : String

/-- The DOT texts of what a session shows, or of the whole tree. -/
def views (s : Session) (config : GraphConfig) (whole : Bool := false) : Views :=
  let tree := if whole then s.full else s.current
  { browser := tree.drawing config { interactive := true, baseUrl := Text.percentEncoded s.key }
    download := tree.dot config }

end Session

/-- Sessions by their keys. -/
abbrev Sessions := Table String Session

namespace Sessions

/-- Adds a tree under a key, unless there is one already; then that one is kept. -/
def add (sessions : Sessions) (key : String) (tree : Tree) : Sessions × List LogEntry :=
  if sessions.contains key then
    let message := "Duplicate call-site path " ++ key ++ ", keeping the first tree"
    (sessions, [⟨.info, "callscope.server", message⟩])
  else (sessions.put key { key, full := tree }, [])

/-- The sessions of some trees, with their log entries. -/
def ofTrees (trees : List (CallSite × Tree)) (root : Option Path) : Sessions × List LogEntry :=
  trees.foldl (fun (sessions, logs) (site, tree) =>
    let (sessions, more) := add sessions (site.viewKey root) tree
    (sessions, logs ++ more)) (.empty, [])

end Sessions

end CallAtlas
