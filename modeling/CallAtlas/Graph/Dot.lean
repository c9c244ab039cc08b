import CallAtlas.Graph.Basic
import CallAtlas.Text.Percent

/-!
# Graphs as DOT text

`CallGraph.dot` writes a graph in the DOT language, with a subgraph for every cluster. The
interactive form styles nodes by their state and links them: a node that a toggle changes to the
view that toggles it, a cluster to the text of its file. The plain form links a cluster to the path
of its file.
-/

namespace CallAtlas

open Text

/-- How a graph is written. `baseUrl` is where the view of the graph is served. -/
structure DotConfig where
  interactive : Bool := false
  baseUrl : String := ""
  expandableFill : String := "#ffe4b5"
  expandedStyle : String := "bold"

namespace Dot

/-- A character of an identifier between quotes. -/
def idChar : Char → List Char
  | '\\' => ['\\', '\\']
  | '"' => ['\\', '"']
  | c => [c]

/-- A character of a label between quotes; a line break is one that aligns to the left. -/
def labelChar : Char → List Char
  | '\n' => ['\\', 'l']
  | c => idChar c

/-- The inside of a quoted identifier. -/
def escapeId (text : String) : String := String.ofList (text.toList.flatMap idChar)

/-- The inside of a quoted label. -/
def escapeLabel (text : String) : String := String.ofList (text.toList.flatMap labelChar)

/-- A text between quotes. -/
def inQuotes (text : String) : String := "\"" ++ text ++ "\""

/-- An attribute with a quoted value. -/
def assign (name value : String) : String := name ++ "=" ++ inQuotes value

/-- The background of a cluster. -/
def clusterColor? : FileCategory → Option String
  | .standardLibrary => some "#adedad"
  | .thirdParty => some "#e6ecfa"
  | .project => none

end Dot

open Dot

namespace DotConfig

/-- The attributes that show the state of a node. -/
def styleAttributes (config : DotConfig) (node : GraphNode) : List String :=
  if config.interactive then
    match node.state with
    | .leaf => []
    | .expandable => [assign "style" "filled", assign "fillcolor" config.expandableFill]
    | .expanded =>
      [assign "style" (if node.truncated then config.expandedStyle ++ ",dashed"
        else config.expandedStyle)]
    | .truncated => [assign "style" "dashed"]
  else if node.truncated then [assign "style" "dashed"]
  else []

/-- The link that toggles a node, on nodes that a toggle changes. -/
def linkAttributes (config : DotConfig) (node : GraphNode) : List String :=
  if config.interactive ∧ (node.state = .expandable ∨ node.state = .expanded) then
    [assign "href" (escapeLabel config.baseUrl ++ "?id=" ++ toString node.treeId)]
  else []

/-- The attributes of a node. -/
def nodeAttributes (config : DotConfig) (node : GraphNode) : List String :=
  [assign "shape" "oval", assign "label" (escapeLabel node.label)] ++
    config.styleAttributes node ++ config.linkAttributes node

/-- The line of a node. -/
def nodeLine (config : DotConfig) (node : GraphNode) : String :=
  "    " ++ inQuotes (escapeId node.id) ++ " [" ++ ", ".intercalate
    (config.nodeAttributes node) ++ "];"

/-- Where the link of a cluster leads. -/
def clusterLink (config : DotConfig) (cluster : Cluster) : String :=
  if config.interactive then config.baseUrl ++ "?file=" ++ percentEncoded cluster.file.text
  else cluster.file.text

/-- The lines of a cluster. -/
def clusterLines (config : DotConfig) (cluster : Cluster) : List String :=
  [ "  subgraph " ++ inQuotes ("cluster_" ++ escapeId cluster.file.text) ++ " \x7b",
    "    " ++ assign "label" (escapeLabel cluster.label) ++ ";",
    "    " ++ assign "href" (escapeLabel (config.clusterLink cluster)) ++ ";" ] ++
  ((clusterColor? cluster.category).map fun color =>
    "    " ++ assign "bgcolor" color ++ ";").toList ++
  cluster.nodes.map config.nodeLine ++
  ["  \x7d"]

/-- The line of an edge. -/
def edgeLine (edge : Edge) : String :=
  "  " ++ inQuotes (escapeId edge.source) ++ " -> " ++ inQuotes (escapeId edge.target) ++ ";"

/-- The lines before the first cluster. -/
def headLines : List String :=
  [ "digraph CallGraph \x7b",
    "  graph [charset=\"UTF-8\", rankdir=LR, compound=true];",
    "  node [fontname=\"Menlo,Consolas,monospace\"];" ]

end DotConfig

/-- The lines of a graph. -/
def CallGraph.dotLines (graph : CallGraph) (config : DotConfig) : List String :=
  DotConfig.headLines ++ graph.clusters.flatMap config.clusterLines ++
    graph.edges.map DotConfig.edgeLine ++ ["\x7d"]

/-- The DOT text of a graph. -/
def CallGraph.dot (graph : CallGraph) (config : DotConfig := {}) : String :=
  "\n".intercalate (graph.dotLines config)

namespace Tree

/-- The DOT text of the graph of a tree. -/
def dot (tree : Tree) (graph : GraphConfig := {}) (config : DotConfig := {}) : String :=
  (graph.graphOf tree).dot config

/-- The drawing of a tree. Without edges there is nothing to draw, except in a view, which always
shows a graph. -/
def drawing (tree : Tree) (graph : GraphConfig := {}) (config : DotConfig := {}) : String :=
  let g := graph.graphOf tree
  if g.edges.isEmpty && !config.interactive then "" else g.dot config

end Tree

end CallAtlas
