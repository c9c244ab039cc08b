import CallAtlas.Graph.Labels
import CallAtlas.Table

/-!
# Call graphs

A call graph is drawn from a call hierarchy. Tree nodes that stand for the same declaration become
one node, and the nodes of a file stand in a cluster. An edge goes from caller to callee and is
there whenever the child is drawn, whether or not its parent is.

Of the tree nodes with the same identifier the first in the walk supplies everything; only when that
one is the call site itself does a later one give the label.
-/

namespace CallAtlas

/-- How a tree is drawn. Files are named as seen from `root`, and `standard` are the directories of
the standard library. -/
structure GraphConfig where
  root : Option Path := none
  declaration : Bool := false
  direction : Direction := .outgoing
  standard : List Path := []

/-- A node of a graph. `treeId` is the identifier of the tree node that it was drawn for. -/
structure GraphNode where
  id : String
  label : String
  file : Path
  treeId : Int
  state : NodeState := .leaf
  truncated : Bool := false
  deriving Repr, DecidableEq

/-- The nodes of one file. -/
structure Cluster where
  file : Path
  label : String
  category : FileCategory
  nodes : List GraphNode
  deriving Repr, DecidableEq

/-- From caller to callee, by identifiers. -/
structure Edge where
  source : String
  target : String
  deriving Repr, DecidableEq

/-- A call graph. -/
structure CallGraph where
  nodes : Table String GraphNode := .empty
  edges : List Edge := []
  clusters : List Cluster := []

/-- The first occurrences in a list. -/
def distinct {α : Type} [DecidableEq α] (xs : List α) : List α :=
  xs.foldl (fun seen x => if x ∈ seen then seen else seen ++ [x]) []

namespace GraphConfig

/-- Whether a tree node is drawn. -/
def draws (config : GraphConfig) (t : Tree) : Bool := t.data.isDrawn config.declaration

/-- The identifier of a tree node in the graph. -/
def idOf (config : GraphConfig) (t : Tree) : String := t.data.graphId config.root

/-- The graph node of a tree node. -/
def nodeOf (config : GraphConfig) (t : Tree) : GraphNode where
  id := config.idOf t
  label := t.data.label
  file := t.data.file
  treeId := t.id
  state := t.state
  truncated := t.data.truncated

/-- Takes a tree node into account. -/
def addNode (config : GraphConfig) (nodes : Table String GraphNode) (t : Tree) :
    Table String GraphNode :=
  let id := config.idOf t
  match nodes.get? id with
  | some existing =>
    if existing.treeId = 0 ∧ t.id ≠ 0 then nodes.put id { existing with label := t.data.label }
    else nodes
  | none => if config.draws t then nodes.put id (config.nodeOf t) else nodes

/-- The edge between a tree node and one of its children. -/
def edgeBetween (config : GraphConfig) (parent child : Tree) : Edge :=
  match config.direction with
  | .outgoing => ⟨config.idOf parent, config.idOf child⟩
  | .incoming => ⟨config.idOf child, config.idOf parent⟩

/-- The edges from a tree node to those of its children that are drawn. -/
def edgesOf (config : GraphConfig) (parent : Tree) : List Edge :=
  (parent.children.filter config.draws).map (config.edgeBetween parent)

/-- The nodes of a graph, file by file. -/
def clustersOf (config : GraphConfig) (nodes : List GraphNode) : List Cluster :=
  (Table.groupBy GraphNode.file nodes).entries.map fun (file, group) =>
    { file, label := file.labelFrom config.root, category := file.category config.standard,
      nodes := group }

/-- The graph of a tree. -/
def graphOf (config : GraphConfig) (tree : Tree) : CallGraph :=
  let nodes := tree.walk.foldl config.addNode .empty
  { nodes := nodes
    edges := distinct (tree.walk.flatMap config.edgesOf)
    clusters := config.clustersOf nodes.values }

end GraphConfig

end CallAtlas
