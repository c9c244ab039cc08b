import CallAtlas.Graph.Dot
import CallAtlas.Proofs.Graph.Nodes
import CallAtlas.Proofs.Text.Delimited
import Mathlib

/-!
# What the text of a graph shows

Names and paths may contain anything: quotes, line breaks, and text that looks like DOT itself.
Still nothing of a graph is lost in its text that the text is meant to show, and nothing else can be
read from it. What it shows of a node and of a cluster is `GraphNode.shown` and `Cluster.shown`. The
proof follows the layers of the text, from the inside:

- Quoted texts end at their closing quote, since either way of escaping tells the characters apart
  and none of them closes the quotes (`Dot.Quotable.delimited`).
- Attributes have a name without an equals sign and a quoted value, so that a list of them can be
  taken apart (`Dot.delimited_attributes`), and the attributes of a node tell all that is shown of
  it but its identifier (`DotConfig.shown_eq_iff`). The mark of a node that is cut short is not
  always written. Where it is not, it can be told from the state, because no node of a graph
  contradicts itself (`GraphConfig.consistent_of_mem_nodes`).
- A cluster has any number of nodes, and a colour or none. Each line shows by its first characters
  what it is (`DotConfig.delimited_clusterText`), and so it is with the lines of the graph.
-/

namespace CallAtlas

open Text

/-- What the text of a graph shows of a node. The state is shown in a view only, and the number of a
tree node only where there is a link to toggle it. -/
structure ShownNode where
  id : String
  label : String
  truncated : Bool
  state : Option NodeState
  link : Option Int
  deriving Repr, DecidableEq

/-- What the text of a graph shows of a cluster. -/
structure ShownCluster where
  file : String
  label : String
  category : FileCategory
  nodes : List ShownNode
  deriving Repr, DecidableEq

/-- What is shown of a node, in a view or else. -/
def GraphNode.shown (interactive : Bool) (node : GraphNode) : ShownNode where
  id := node.id
  label := node.label
  truncated := node.truncated
  state := if interactive then some node.state else none
  link :=
    if interactive ∧ (node.state = .expandable ∨ node.state = .expanded) then some node.treeId
    else none

/-- What is shown of a cluster. The link of a cluster is left out, since it follows from the
file. -/
def Cluster.shown (interactive : Bool) (cluster : Cluster) : ShownCluster where
  file := cluster.file.text
  label := cluster.label
  category := cluster.category
  nodes := cluster.nodes.map (GraphNode.shown interactive)

namespace Dot

/-! ## Quoted texts -/

/-- A way to write the characters of a quoted text: each is known from what is written for it, and
none closes the quotes. -/
structure Quotable (escape : Char → List Char) : Prop where
  tells : ∀ a b, Delimited (escape a) (escape b) (a = b)
  never_closes : ∀ c rest, ¬ escape c <+: '"' :: rest

/-- What stands after the backslash in an identifier, for the characters that are written with
one. -/
def idMark? (c : Char) : Option Char := if c = '\\' ∨ c = '"' then some c else none

/-- What stands after the backslash in a label. -/
def labelMark? (c : Char) : Option Char := if c = '\n' then some 'l' else idMark? c

/-- A character written with the mark that it has, or else as it is. -/
def marked (mark? : Char → Option Char) (c : Char) : List Char :=
  match mark? c with
  | some mark => ['\\', mark]
  | none => [c]

theorem idChar_eq_marked : idChar = marked idMark? := by
  funext c
  unfold idChar
  split
  · rfl
  · rfl
  next hslash hquote => rw [marked, idMark?, if_neg (not_or.mpr ⟨hslash, hquote⟩)]

theorem labelChar_eq_marked : labelChar = marked labelMark? := by
  funext c
  unfold labelChar
  split
  · rfl
  next hbreak => rw [idChar_eq_marked, marked, marked, labelMark?, if_neg hbreak]

/-- Marks are enough if they tell the characters apart that have one, and if the backslash and the
quote do. -/
theorem quotable_marked {mark? : Char → Option Char}
    (hinj : ∀ a b, mark? a = mark? b → mark? a ≠ none → a = b)
    (hslash : mark? '\\' ≠ none) (hquote : mark? '"' ≠ none) : Quotable (marked mark?) where
  tells a b s t := by
    have hplain (c : Char) (hc : mark? c = none) : c ≠ '\\' := fun h => hslash (h ▸ hc)
    -- a character without a mark is no backslash, and so is not taken for one with a mark
    cases ha : mark? a with
    | none =>
      cases hb : mark? b with
      | none => simp [marked, ha, hb]
      | some n =>
        have hab : a ≠ b := by
          rintro rfl
          cases ha.symm.trans hb
        simp [marked, ha, hb, hab, hplain a ha]
    | some m =>
      cases hb : mark? b with
      | none =>
        have hab : a ≠ b := by
          rintro rfl
          cases ha.symm.trans hb
        simp [marked, ha, hb, hab, (hplain b hb).symm]
      | some n =>
        have hmarks : m = n ↔ a = b := by
          constructor
          · rintro rfl
            exact hinj a b (ha.trans hb.symm) (by simp [ha])
          · rintro rfl
            exact Option.some.inj (ha.symm.trans hb)
        simp [marked, ha, hb, hmarks]
  never_closes c rest := by
    cases hc : mark? c with
    | none =>
      have hne : c ≠ '"' := fun h => hquote (h ▸ hc)
      simp [marked, hc, hne]
    | some m => simp [marked, hc]

theorem quotable_idChar : Quotable idChar := by
  rw [idChar_eq_marked]
  refine quotable_marked ?_ (by decide) (by decide)
  intro a b hab ha
  unfold idMark? at hab ha
  grind

theorem quotable_labelChar : Quotable labelChar := by
  rw [labelChar_eq_marked]
  refine quotable_marked ?_ (by decide) (by decide)
  intro a b hab ha
  unfold labelMark? idMark? at hab ha
  grind

/-- A quoted text is known from what is written, and where it ends. -/
theorem Quotable.delimited {escape : Char → List Char} (h : Quotable escape) (x y : String) :
    Delimited (inQuotes (String.ofList (x.toList.flatMap escape))).toList
      (inQuotes (String.ofList (y.toList.flatMap escape))).toList (x = y) := by
  have htext (x : String) : (inQuotes (String.ofList (x.toList.flatMap escape))).toList =
      ['"'] ++ (x.toList.flatMap escape ++ ['"']) := by
    simp [inQuotes]
  rw [htext, htext]
  refine .after _ fun s t => ?_
  have hkeys :=
    flatMap_append_eq_iff escape id (fun a (_ : a ∈ x.toList) b (_ : b ∈ y.toList) => h.tells a b)
    (fun c _ => h.never_closes c s) (fun c _ => h.never_closes c t)
  simpa [String.toList_inj] using hkeys

theorem delimited_id (x y : String) :
    Delimited (inQuotes (escapeId x)).toList (inQuotes (escapeId y)).toList (x = y) :=
  quotable_idChar.delimited x y

theorem delimited_label (x y : String) :
    Delimited (inQuotes (escapeLabel x)).toList (inQuotes (escapeLabel y)).toList (x = y) :=
  quotable_labelChar.delimited x y

theorem escapeLabel_inj {x y : String} : escapeLabel x = escapeLabel y ↔ x = y := by
  rw [← (delimited_label x y).eq_iff, String.toList_inj]
  simp [inQuotes]

-- a line break in a label does not look like the text that is written for it
example : escapeLabel "a\nb" ≠ escapeLabel "a\\lb" := by decide

theorem escapeLabel_append (x y : String) :
    escapeLabel (x ++ y) = escapeLabel x ++ escapeLabel y := by
  simp [escapeLabel]

/-- Where nothing has a mark, a label is written as it is. -/
theorem escapeLabel_eq_self {text : String} (h : ∀ c ∈ text.toList, labelMark? c = none) :
    escapeLabel text = text := by
  have hplain : ∀ c ∈ text.toList, labelChar c = [c] := by
    intro c hc
    rw [labelChar_eq_marked, marked, h c hc]
  rw [escapeLabel, List.flatMap_congr hplain]
  simp

/-! ## Attributes -/

/-- An attribute with a name and a value, as it is written. -/
def IsAttribute (text : String) : Prop :=
  ∃ name value, '=' ∉ name.toList ∧ text = assign name (escapeLabel value)

theorem assign_inj {name value value' : String} :
    assign name value = assign name value' ↔ value = value' := by
  simp [assign, inQuotes]

theorem isAttribute_assign {name value : String} (hname : '=' ∉ name.toList)
    (hvalue : escapeLabel value = value) :
    IsAttribute (assign name value) :=
  ⟨name, value, hname, by rw [hvalue]⟩

theorem delimited_attribute {a b : String} (ha : IsAttribute a) (hb : IsAttribute b) :
    Delimited a.toList b.toList (a = b) := by
  obtain ⟨name, value, hname, rfl⟩ := ha
  obtain ⟨name', value', hname', rfl⟩ := hb
  have htext (name value : String) :
      (assign name value).toList = (name.toList ++ ['=']) ++ (inQuotes value).toList := by
    simp [assign]
  have hparts := (Delimited.separated '=' hname hname').append (delimited_label value value')
  rw [← htext, ← htext] at hparts
  exact hparts.congr (hparts.eq_iff.symm.trans String.toList_inj)

/-- Attributes are known from the list that is written of them. -/
theorem delimited_attributes {as bs : List String} (has : ∀ a ∈ as, IsAttribute a)
    (hbs : ∀ b ∈ bs, IsAttribute b) (hane : as ≠ []) (hbne : bs ≠ []) :
    Delimited (", ".intercalate as ++ "];").toList (", ".intercalate bs ++ "];").toList
      (as = bs) := by
  obtain ⟨a, as, rfl⟩ := List.exists_cons_of_ne_nil hane
  obtain ⟨b, bs, rfl⟩ := List.exists_cons_of_ne_nil hbne
  have hfirst := delimited_attribute (has a List.mem_cons_self) (hbs b List.mem_cons_self)
  have hnext : ∀ a' ∈ as, ∀ b' ∈ bs,
      Delimited (", ".toList ++ a'.toList) (", ".toList ++ b'.toList) (a' = b') :=
    fun a' ha' b' hb' =>
    .after _ (delimited_attribute (has a' (List.mem_cons_of_mem a ha'))
      (hbs b' (List.mem_cons_of_mem b hb')))
  -- after an attribute stands the comma of the next one or the bracket
  have hend (x : String) (s : List Char) : ¬ ", ".toList ++ x.toList <+: "];".toList ++ s := by simp
  intro s t
  rw [String.toList_append, String.toList_append, toList_intercalate_cons, toList_intercalate_cons]
  simp only [List.append_assoc]
  rw [hfirst, flatMap_append_eq_iff _ id hnext (fun x _ => hend x s) (fun x _ => hend x t)]
  simp [and_assoc]

end Dot

open Dot

/-! ## Nodes -/

/-- A node says that it is truncated where its state says so, and does not where nothing is hidden
by a bound. -/
def GraphNode.Consistent (node : GraphNode) : Prop :=
  match node.state with
  | .leaf => node.truncated = false
  | .expandable => node.truncated = false
  | .expanded => True
  | .truncated => node.truncated = true

/-- The nodes of every graph are consistent. -/
theorem GraphConfig.consistent_of_mem_nodes {config : GraphConfig} {t : Tree} {node : GraphNode}
    (h : node ∈ (config.graphOf t).nodes.values) : node.Consistent := by
  obtain ⟨n, -, hnode⟩ := exists_of_mem_nodes h
  have hstate : node.state = n.state := by rw [hnode]; rfl
  have htruncated : node.truncated = n.data.truncated := by rw [hnode]; rfl
  rw [GraphNode.Consistent, hstate, htruncated, Tree.state]
  -- a node with children is expanded, cut short or not; any other is as its mark says
  by_cases hchildren : n.children = []
  · cases hcut : n.data.truncated with
    | true => simp [hchildren]
    | false =>
      cases hfurther : n.data.further with
      | true => simp [hchildren]
      | false => simp [hchildren]
  · simp [hchildren]

namespace DotConfig

variable (interactive : Bool) (baseUrl : String)

/-- In the link of a node only the address needs marks: a number is written without anything that
does. -/
theorem escapeLabel_link (baseUrl : String) (treeId : Int) :
    escapeLabel (baseUrl ++ "?id=" ++ toString treeId) =
      escapeLabel baseUrl ++ "?id=" ++ toString treeId := by
  have hnumber : escapeLabel (toString treeId) = toString treeId := by
    refine escapeLabel_eq_self fun c hc => ?_
    rcases mem_toString_int hc with rfl | hdigit
    · decide
    · have hbreak : c ≠ '\n' := by rintro rfl; cases hdigit
      have hslash : c ≠ '\\' := by rintro rfl; cases hdigit
      have hquote : c ≠ '"' := by rintro rfl; cases hdigit
      simp [labelMark?, idMark?, hbreak, hslash, hquote]
  have hquery : escapeLabel "?id=" = "?id=" := by decide
  rw [escapeLabel_append, escapeLabel_append, hquery, hnumber]

/-- The link of a node is an attribute. -/
theorem isAttribute_link (baseUrl : String) (treeId : Int) :
    IsAttribute (assign "href" (escapeLabel baseUrl ++ "?id=" ++ toString treeId)) :=
  ⟨"href", baseUrl ++ "?id=" ++ toString treeId, by decide, by rw [escapeLabel_link]⟩

/-- What is written of a node between the brackets are attributes. -/
theorem isAttribute_of_mem_nodeAttributes {node : GraphNode} {a : String}
    (h : a ∈ nodeAttributes { interactive, baseUrl } node) : IsAttribute a := by
  have hshape : IsAttribute (assign "shape" "oval") := isAttribute_assign (by decide) (by decide)
  have hlabel : IsAttribute (assign "label" (escapeLabel node.label)) :=
    ⟨"label", node.label, by decide, rfl⟩
  have hfilled : IsAttribute (assign "style" "filled") := isAttribute_assign (by decide) (by decide)
  have hfill : IsAttribute (assign "fillcolor" "#ffe4b5") :=
    isAttribute_assign (by decide) (by decide)
  have hbold : IsAttribute (assign "style" "bold") := isAttribute_assign (by decide) (by decide)
  have hboth : IsAttribute (assign "style" "bold,dashed") :=
    isAttribute_assign (by decide) (by decide)
  have hdashed : IsAttribute (assign "style" "dashed") := isAttribute_assign (by decide) (by decide)
  have hstyle : ∀ a ∈ styleAttributes { interactive, baseUrl } node, IsAttribute a := by
    unfold styleAttributes
    cases interactive with
    | false => cases node.truncated <;> simp [hdashed]
    | true =>
      cases node.state <;> cases node.truncated <;> simp [hfilled, hfill, hbold, hboth, hdashed]
  have hlink : ∀ a ∈ linkAttributes { interactive, baseUrl } node, IsAttribute a := by
    unfold linkAttributes
    split
    · rw [List.forall_mem_singleton]
      exact isAttribute_link baseUrl node.treeId
    · exact List.forall_mem_nil _
  rw [nodeAttributes, List.mem_append, List.mem_append] at h
  rcases h with (hfixed | ha) | ha
  · revert a
    simp [hshape, hlabel]
  · exact hstyle a ha
  · exact hlink a ha

/-- Without a view, the attributes after the label show whether a node is cut short. -/
theorem look_eq_iff_plain (n m : GraphNode) :
    styleAttributes { baseUrl } n ++ linkAttributes { baseUrl } n =
        styleAttributes { baseUrl } m ++ linkAttributes { baseUrl } m ↔
          n.truncated = m.truncated := by
  cases hn : n.truncated <;> cases hm :
    m.truncated <;> simp [styleAttributes, linkAttributes, hn, hm]

/-- In a view, they show the state and where the link leads as well. -/
theorem look_eq_iff_view {n m : GraphNode} (hn : n.Consistent) (hm : m.Consistent) :
    styleAttributes { interactive := true, baseUrl } n ++ linkAttributes
      { interactive := true, baseUrl } n =
        styleAttributes { interactive := true, baseUrl } m ++ linkAttributes
          { interactive := true, baseUrl } m ↔
      n.truncated = m.truncated ∧ n.state = m.state ∧
      (n.shown true).link = (m.shown true).link := by
  have hbold (a b : Bool) :
      ((if a then "bold,dashed" else "bold") = if b then "bold,dashed" else "bold") ↔ a = b := by
    revert a b
    decide
  -- no two states have the same style; under the same one only the mark and the number can differ
  cases hs : n.state <;> cases hs' :
    m.state <;> simp only [GraphNode.Consistent, hs, hs'] at hn hm <;>
    simp [styleAttributes, linkAttributes, GraphNode.shown, hs, hs', assign_inj, hn, hm, hbold]

/-- What is shown of a node stands in its attributes, except for its identifier. -/
theorem shown_eq_iff {n m : GraphNode} (hn : n.Consistent) (hm : m.Consistent) :
    n.shown interactive = m.shown interactive ↔ n.id = m.id ∧
      nodeAttributes { interactive, baseUrl } n = nodeAttributes { interactive, baseUrl } m := by
  have hattributes (node : GraphNode) : nodeAttributes { interactive, baseUrl } node =
      assign "shape" "oval" :: assign "label" (escapeLabel node.label) ::
        (styleAttributes { interactive, baseUrl } node ++ linkAttributes
          { interactive, baseUrl } node) := by
    simp [nodeAttributes]
  rw [hattributes, hattributes, List.cons.injEq, List.cons.injEq, assign_inj, assign_inj,
    escapeLabel_inj]
  cases interactive with
  | false =>
    rw [look_eq_iff_plain]
    simp [GraphNode.shown]
  | true =>
    rw [look_eq_iff_view baseUrl hn hm]
    simp [GraphNode.shown]

/-! ## Lines -/

/-- A line, after another. -/
def lineText (line : String) : List Char := "\n".toList ++ line.toList

/-- The line of a node. -/
def nodeText (config : DotConfig) (node : GraphNode) : List Char := lineText (config.nodeLine node)

/-- The line of an edge. -/
def edgeText (edge : Edge) : List Char := lineText (edgeLine edge)

/-- The line for the background of a cluster. -/
def colorText (color : String) : List Char := lineText ("    " ++ assign "bgcolor" color ++ ";")

theorem nodeText_eq (config : DotConfig) (node : GraphNode) : config.nodeText node =
    "\n    ".toList ++ ((inQuotes (escapeId node.id)).toList ++ (" [".toList ++
      (", ".intercalate (config.nodeAttributes node) ++ "];").toList)) := by
  simp [nodeText, lineText, nodeLine]

theorem edgeText_eq (edge : Edge) : edgeText edge =
    "\n  ".toList ++ ((inQuotes (escapeId edge.source)).toList ++ (" -> ".toList ++
      ((inQuotes (escapeId edge.target)).toList ++ ";".toList))) := by
  simp [edgeText, lineText, edgeLine]

theorem colorText_eq (color : String) :
    colorText color = "\n    bgcolor=".toList ++ ((inQuotes color).toList ++ ";".toList) := by
  simp [colorText, lineText, assign]

/-- The line of a node shows what is shown of it. -/
theorem delimited_nodeText {n m : GraphNode} (hn : n.Consistent) (hm : m.Consistent) :
    Delimited (nodeText { interactive, baseUrl } n) (nodeText { interactive, baseUrl } m)
      (n.shown interactive = m.shown interactive) := by
  have hsome (node : GraphNode) : nodeAttributes { interactive, baseUrl } node ≠ [] := by
    simp [nodeAttributes]
  have hwritten (node : GraphNode) :
      ∀ a ∈ nodeAttributes { interactive, baseUrl } node, IsAttribute a :=
    fun _ ha => isAttribute_of_mem_nodeAttributes interactive baseUrl ha
  have hattributes :=
    (delimited_attributes (hwritten n) (hwritten m) (hsome n) (hsome m)).after " [".toList
  have hline := ((delimited_id n.id m.id).append hattributes).after "\n    ".toList
  rw [← nodeText_eq, ← nodeText_eq] at hline
  exact hline.congr (shown_eq_iff interactive baseUrl hn hm).symm

/-- The line of an edge shows the edge. -/
theorem delimited_edgeText (e f : Edge) : Delimited (edgeText e) (edgeText f) (e = f) := by
  have htarget :=
    ((delimited_id e.target f.target).append (.literal ";".toList)).after " -> ".toList
  have hline := ((delimited_id e.source f.source).append htarget).after "\n  ".toList
  rw [← edgeText_eq, ← edgeText_eq] at hline
  refine hline.congr ?_
  cases e
  cases f
  simp

/-- The colours of clusters are written as they are. -/
theorem escapeLabel_of_mem_clusterColor? {category : FileCategory} {color : String}
    (h : color ∈ (clusterColor? category).toList) : escapeLabel color = color := by
  cases category with
  | standardLibrary => obtain rfl := List.mem_singleton.mp h; decide
  | thirdParty => obtain rfl := List.mem_singleton.mp h; decide
  | project => cases h

/-- The line of a colour shows it. -/
theorem delimited_colorText {a b : FileCategory} {color color' : String}
    (ha : color ∈ (clusterColor? a).toList) (hb : color' ∈ (clusterColor? b).toList) :
    Delimited (colorText color) (colorText color') (color = color') := by
  have hquoted := delimited_label color color'
  rw [escapeLabel_of_mem_clusterColor? ha, escapeLabel_of_mem_clusterColor? hb] at hquoted
  rw [colorText_eq, colorText_eq]
  exact ((hquoted.append (.literal ";".toList)).after "\n    bgcolor=".toList).congr
    (and_iff_left trivial)

/-! ## Clusters -/

/-- The lines of a cluster. -/
def clusterText (config : DotConfig) (cluster : Cluster) : List Char :=
  (config.clusterLines cluster).flatMap lineText

theorem clusterText_eq (config : DotConfig) (cluster : Cluster) : config.clusterText cluster =
    "\n  subgraph ".toList ++ ((inQuotes (escapeId ("cluster_" ++ cluster.file.text))).toList ++
      (" \x7b\n    label=".toList ++ ((inQuotes (escapeLabel cluster.label)).toList ++
        (";\n    href=".toList ++ ((inQuotes (escapeLabel (config.clusterLink cluster))).toList ++
          (";".toList ++ ((clusterColor? cluster.category).toList.flatMap colorText ++
            (cluster.nodes.flatMap config.nodeText ++ "\n  \x7d".toList)))))))) := by
  have hid (file : String) : escapeId ("cluster_" ++ file) = "cluster_" ++ escapeId file := by
    have hplain : "cluster_".toList.flatMap idChar = "cluster_".toList := by decide
    rw [escapeId, String.toList_append, List.flatMap_append, hplain, String.ofList_append,
      String.ofList_toList]
    rfl
  have hcolor (color : Option String) :
      (color.map fun color => "    " ++ assign "bgcolor" color ++ ";").toList.flatMap lineText =
        color.toList.flatMap colorText := by
    cases color with
    | none => rfl
    | some color => rfl
  have hnodes : (cluster.nodes.map config.nodeLine).flatMap lineText =
      cluster.nodes.flatMap config.nodeText :=
    List.flatMap_map ..
  rw [clusterText, clusterLines, List.flatMap_append, List.flatMap_append, List.flatMap_append,
    hcolor, hnodes, hid]
  simp [lineText, assign]

theorem clusterColor?_toList_inj {a b : FileCategory} :
    (clusterColor? a).toList = (clusterColor? b).toList ↔ a = b := by
  cases a <;> cases b <;> simp [clusterColor?]

/-- What is shown of the category and the nodes of a cluster. The line of a colour is not taken for
that of a node, and the brace after the nodes for neither. -/
theorem delimited_content {c d : Cluster} (hc : ∀ node ∈ c.nodes, node.Consistent)
    (hd : ∀ node ∈ d.nodes, node.Consistent) :
    Delimited
      ((clusterColor? c.category).toList.flatMap colorText ++
        (c.nodes.flatMap (nodeText { interactive, baseUrl }) ++ "\n  \x7d".toList))
      ((clusterColor? d.category).toList.flatMap colorText ++
        (d.nodes.flatMap (nodeText { interactive, baseUrl }) ++ "\n  \x7d".toList))
      (c.category = d.category ∧
        c.nodes.map (GraphNode.shown interactive) = d.nodes.map (GraphNode.shown interactive)) := by
  -- the line of a node is indented further than the brace, and that of a colour starts with a
  -- letter, not a quote
  have hnoNode (s : List Char) (node : GraphNode) :
      ¬ nodeText { interactive, baseUrl } node <+: "\n  \x7d".toList ++ s := by
    simp [nodeText_eq]
  have hnoColor (s : List Char) (nodes : List GraphNode) (color : String) :
      ¬ colorText color <+: nodes.flatMap (nodeText { interactive, baseUrl }) ++
      ("\n  \x7d".toList ++ s) := by
    cases nodes with
    | nil => simp [colorText_eq]
    | cons node nodes => simp [colorText_eq, nodeText_eq, inQuotes]
  intro s t
  have hnodes :=
    flatMap_append_eq_iff (nodeText { interactive, baseUrl }) (GraphNode.shown interactive)
    (fun n hn m hm => delimited_nodeText interactive baseUrl (hc n hn) (hd m hm))
    (fun node _ => hnoNode s node) (fun node _ => hnoNode t node)
  have hcolors := flatMap_append_eq_iff colorText id
    (fun _ ha _ hb => delimited_colorText (a := c.category) (b := d.category) ha hb)
    (fun color _ => hnoColor s c.nodes color) (fun color _ => hnoColor t d.nodes color)
  rw [List.map_id, List.map_id, clusterColor?_toList_inj, hnodes,
    List.append_cancel_left_eq] at hcolors
  rw [List.append_assoc, List.append_assoc, List.append_assoc, List.append_assoc, and_assoc]
  exact hcolors

/-- The lines of a cluster show what is shown of it. -/
theorem delimited_clusterText {c d : Cluster} (hc : ∀ node ∈ c.nodes, node.Consistent)
    (hd : ∀ node ∈ d.nodes, node.Consistent) :
    Delimited (clusterText { interactive, baseUrl } c) (clusterText { interactive, baseUrl } d)
      (c.shown interactive = d.shown interactive) := by
  -- from the last piece to the first
  have hcontent := (delimited_content interactive baseUrl hc hd).after ";".toList
  have hlink := ((delimited_label (clusterLink { interactive, baseUrl } c)
    (clusterLink { interactive, baseUrl } d)).append hcontent).after ";\n    href=".toList
  have hlabel := ((delimited_label c.label d.label).append hlink).after " \x7b\n    label=".toList
  have htext :=
    ((delimited_id ("cluster_" ++ c.file.text) ("cluster_" ++ d.file.text)).append hlabel).after
    "\n  subgraph ".toList
  rw [← clusterText_eq, ← clusterText_eq, String.append_right_inj] at htext
  refine htext.congr ?_
  simp only [Cluster.shown, ShownCluster.mk.injEq]
  constructor
  · rintro ⟨hfile, hlabel, -, hcategory, hnodes⟩
    exact ⟨hfile, hlabel, hcategory, hnodes⟩
  · rintro ⟨hfile, hlabel, hcategory, hnodes⟩
    -- the link says nothing that the file does not say
    have hlinks :
        clusterLink { interactive, baseUrl } c = clusterLink { interactive, baseUrl } d := by
      rw [clusterLink, clusterLink, hfile]
    exact ⟨hfile, hlabel, hlinks, hcategory, hnodes⟩

end DotConfig

/-! ## Graphs -/

/-- The text of a graph, piece by piece. -/
theorem CallGraph.toList_dot (graph : CallGraph) (config : DotConfig) :
    (graph.dot config).toList = ("\n".intercalate DotConfig.headLines).toList ++
      (graph.clusters.flatMap config.clusterText ++
        (graph.edges.flatMap DotConfig.edgeText ++ "\n\x7d".toList)) := by
  have hclusters : (graph.clusters.flatMap config.clusterLines).flatMap DotConfig.lineText =
      graph.clusters.flatMap config.clusterText :=
    List.flatMap_assoc ..
  have hedges : (graph.edges.map DotConfig.edgeLine).flatMap DotConfig.lineText =
      graph.edges.flatMap DotConfig.edgeText :=
    List.flatMap_map ..
  have hhead : DotConfig.headLines ≠ [] := List.cons_ne_nil _ _
  have hlines (lines : List String) : ("\n".intercalate (DotConfig.headLines ++ lines)).toList =
      ("\n".intercalate DotConfig.headLines).toList ++ lines.flatMap DotConfig.lineText :=
    toList_intercalate_append "\n" lines hhead
  rw [dot, dotLines, List.append_assoc, List.append_assoc, hlines, List.flatMap_append,
    List.flatMap_append, hclusters, hedges]
  rfl

namespace GraphConfig

/-- **The text of a graph determines the graph.** Two graphs, of any trees and seen from any
directories, have the same text exactly if they have the same clusters in the same order, by file,
label and category, in each of them the same nodes in the same order, and the same edges in the same
order. Of nodes this means identifier, label and whether they are cut short, and in a view also the
state and, where there is a link, the number of the tree node. -/
theorem dot_graphOf_eq_iff (interactive : Bool) (baseUrl : String) (c₁ c₂ : GraphConfig)
    (t₁ t₂ : Tree) :
    (c₁.graphOf t₁).dot { interactive, baseUrl } = (c₂.graphOf t₂).dot { interactive, baseUrl } ↔
      (c₁.graphOf t₁).clusters.map (Cluster.shown interactive) =
          (c₂.graphOf t₂).clusters.map (Cluster.shown interactive) ∧
        (c₁.graphOf t₁).edges = (c₂.graphOf t₂).edges := by
  have hconsistent (config : GraphConfig) (t : Tree) :
      ∀ cluster ∈ (config.graphOf t).clusters, ∀ node ∈ cluster.nodes, node.Consistent :=
    fun _ hcluster _ hnode => consistent_of_mem_nodes (mem_values_of_mem_cluster hcluster hnode)
  -- an edge starts with a quote, a cluster with a letter, and the closing brace is not indented
  have hnoEdge (edge : Edge) : ¬ DotConfig.edgeText edge <+: "\n\x7d".toList := by
    simp [DotConfig.edgeText_eq]
  have hnoCluster (edges : List Edge) (cluster : Cluster) :
      ¬ DotConfig.clusterText { interactive, baseUrl } cluster <+:
        edges.flatMap DotConfig.edgeText ++ "\n\x7d".toList := by
    cases edges with
    | nil => simp [DotConfig.clusterText_eq]
    | cons edge edges => simp [DotConfig.clusterText_eq, DotConfig.edgeText_eq, inQuotes]
  rw [← String.toList_inj, CallGraph.toList_dot, CallGraph.toList_dot, List.append_cancel_left_eq,
    flatMap_append_eq_iff _ (Cluster.shown interactive) (fun c hc d hd =>
      DotConfig.delimited_clusterText interactive baseUrl (hconsistent c₁ t₁ c hc)
        (hconsistent c₂ t₂ d hd))
      (fun cluster _ => hnoCluster _ cluster) (fun cluster _ => hnoCluster _ cluster),
    flatMap_append_eq_iff _ id (fun e _ f _ => DotConfig.delimited_edgeText e f)
      (fun edge _ => hnoEdge edge)
      (fun edge _ => hnoEdge edge)]
  simp

end GraphConfig

end CallAtlas
