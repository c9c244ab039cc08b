import CallAtlas.Proofs.Graph.DotText

/-!
# The links in a DOT text

A link of a DOT text is a quoted text right after `href=`, where `href=` itself stands outside of
quotes. `Dot.links` reads them off the text, character by character, and knows nothing of graphs.

The links of the text of a view are those that were meant to be there and no others, in their order:
one for each cluster, and one for each node that a toggle changes (`CallGraph.links_dot`). What
stands in a label, an identifier or a path is never taken for one. The text is a sequence of pieces,
each a quoted text with what stands before it; whether it is a link can be told from the piece
(`Dot.Adds`), so the links of a text are found piece by piece.
-/

namespace CallAtlas

open Text

namespace Dot

mutual

/-- The links in a text that starts outside of quotes; `bare` is what stands before it, since the
last quote. -/
def linksOutside (bare : List Char) : List Char → List String
  | [] => []
  | '"' :: rest => linksInside bare [] rest
  | c :: rest => linksOutside (bare ++ [c]) rest

/-- The links in a text that starts inside of quotes; `bare` stands before the quotes, `value` is
read of their text. -/
def linksInside (bare value : List Char) : List Char → List String
  | [] => []
  | '"' :: rest =>
    (if "href=".toList <:+ bare then [String.ofList value] else []) ++ linksOutside [] rest
  | '\\' :: c :: rest => linksInside bare (value ++ ['\\', c]) rest
  | c :: rest => linksInside bare (value ++ [c]) rest

end

/-- The links in a DOT text, as they are written between the quotes. -/
def links (text : String) : List String := linksOutside [] text.toList

/-! ## Reading a piece -/

theorem linksOutside_cons {c : Char} (h : c ≠ '"') (bare rest : List Char) :
    linksOutside bare (c :: rest) = linksOutside (bare ++ [c]) rest := by
  rw [linksOutside]
  exact fun heq => h heq

theorem linksOutside_append {literal : List Char} (h : '"' ∉ literal) (bare rest : List Char) :
    linksOutside bare (literal ++ rest) = linksOutside (bare ++ literal) rest := by
  induction literal generalizing bare with
  | nil => simp
  | cons c literal ih =>
    rw [List.mem_cons, not_or] at h
    rw [List.cons_append, linksOutside_cons (Ne.symm h.1), ih h.2, List.append_assoc,
      List.singleton_append]

theorem linksInside_cons {c : Char} (hquote : c ≠ '"') (hslash : c ≠ '\\')
    (bare value rest : List Char) :
    linksInside bare value (c :: rest) = linksInside bare (value ++ [c]) rest := by
  rw [linksInside]
  · exact fun heq => hquote heq
  · exact fun d rest' heq => absurd heq hslash

/-- A text that can stand between quotes: they are closed behind it, and not in it. -/
def Inside (text : String) : Prop :=
  ∀ bare rest, linksInside bare [] (text.toList ++ '"' :: rest) =
    (if "href=".toList <:+ bare then [text] else []) ++ linksOutside [] rest

/-- A text is read to its end if the backslash and the quote have a mark in it. -/
theorem inside_marked {mark? : Char → Option Char} (hslash : mark? '\\' ≠ none)
    (hquote : mark? '"' ≠ none)
    (text : String) : Inside (String.ofList (text.toList.flatMap (marked mark?))) := by
  have hread (text value bare rest : List Char) :
      linksInside bare value (text.flatMap (marked mark?) ++ '"' :: rest) =
        (if "href=".toList <:+ bare then [String.ofList (value ++ text.flatMap (marked mark?))]
          else []) ++
          linksOutside [] rest := by
    -- the value grows along with the text
    induction text generalizing value with
    | nil =>
      rw [List.flatMap_nil, List.nil_append, List.append_nil, linksInside]
    | cons c text ih =>
      rw [List.flatMap_cons, List.append_assoc]
      cases hc : mark? c with
      | none =>
        have hne : c ≠ '"' := fun h => hquote (h ▸ hc)
        have hne' : c ≠ '\\' := fun h => hslash (h ▸ hc)
        have hmarked : marked mark? c = [c] := by rw [marked, hc]
        rw [hmarked, List.singleton_append, linksInside_cons hne hne', ih, List.append_assoc]
      | some mark =>
        have hmarked : marked mark? c = ['\\', mark] := by rw [marked, hc]
        rw [hmarked, List.cons_append, List.singleton_append, linksInside, ih, List.append_assoc]
  intro bare rest
  rw [String.toList_ofList, hread, List.nil_append]

theorem inside_escapeId (text : String) : Inside (escapeId text) := by
  rw [escapeId, idChar_eq_marked]
  exact inside_marked (by decide) (by decide) text

theorem inside_escapeLabel (text : String) : Inside (escapeLabel text) := by
  rw [escapeLabel, labelChar_eq_marked]
  exact inside_marked (by decide) (by decide) text

theorem inside_of_plain {text : String} (h : escapeLabel text = text) : Inside text :=
  h ▸ inside_escapeLabel text

/-! ## Pieces -/

/-- A piece of a text adds links to those that are found behind it, whatever stands before it. -/
def Adds (piece : List Char) (new : List String) : Prop :=
  ∀ rest found, (∀ bare, linksOutside bare rest = found) →
    ∀ bare, linksOutside bare (piece ++ rest) = new ++ found

namespace Adds

variable {piece piece' : List Char} {new new' : List String}

theorem literal (h : '"' ∉ piece) : Adds piece [] := by
  intro rest found hrest bare
  rw [linksOutside_append h, hrest, List.nil_append]

theorem append (h : Adds piece new) (h' : Adds piece' new') :
    Adds (piece ++ piece') (new ++ new') := by
  intro rest found hrest bare
  rw [List.append_assoc, List.append_assoc, h _ _ (h' rest found hrest)]

theorem append_literal (h : Adds piece new) (h' : '"' ∉ piece') : Adds (piece ++ piece') new := by
  have hall := h.append (literal h')
  rwa [List.append_nil] at hall

theorem flatMap {α : Type} {f : α → List Char} {g : α → List String} {xs : List α}
    (h : ∀ x ∈ xs, Adds (f x) (g x)) : Adds (xs.flatMap f) (xs.flatMap g) := by
  induction xs with
  | nil => exact literal List.not_mem_nil
  | cons x xs ih =>
    obtain ⟨hx, hxs⟩ := List.forall_mem_cons.mp h
    rw [List.flatMap_cons, List.flatMap_cons]
    exact hx.append (ih hxs)

/-- Pieces without links are one piece without links. -/
theorem flatMap_nil {α : Type} {f : α → List Char} {xs : List α} (h : ∀ x ∈ xs, Adds (f x) []) :
    Adds (xs.flatMap f) [] := by
  have hall := Adds.flatMap h
  rwa [List.flatMap_eq_nil_iff.mpr fun _ _ => rfl] at hall

end Adds

/-- Whether it can be told from a text that `href=` ends there, without what stands before it. -/
def tellsHref (literal : List Char) : Bool := literal.getLast? ≠ some '=' || 5 ≤ literal.length

theorem href_suffix_iff {literal : List Char} (h : tellsHref literal = true) (bare : List Char)
    (hne : literal ≠ []) : "href=".toList <:+ bare ++ literal ↔ "href=".toList <:+ literal := by
  refine ⟨fun hsuffix => ?_, fun hsuffix => hsuffix.trans (List.suffix_append _ _)⟩
  rw [tellsHref, Bool.or_eq_true, decide_eq_true_eq, decide_eq_true_eq] at h
  rcases h with hlast | hlength
  · -- another last character rules it out
    obtain ⟨before, hbefore⟩ := hsuffix
    have hend := congrArg List.getLast? hbefore
    rw [List.getLast?_append_of_ne_nil _ hne, List.getLast?_append_of_ne_nil _ (by decide)] at hend
    exact absurd hend.symm hlast
  · -- there is room for all of it
    exact List.suffix_of_suffix_length_le hsuffix (List.suffix_append _ _) hlength

/-- A quoted text is a link if `href=` ends before it. -/
theorem Adds.quoted {literal : String} {text : String} (hquote : '"' ∉ literal.toList)
    (htells : tellsHref literal.toList = true) (hne : literal.toList ≠ []) (htext : Inside text) :
    Adds (literal.toList ++ (inQuotes text).toList)
      (if "href=".toList <:+ literal.toList then [text] else []) := by
  intro rest found hrest bare
  have hopen : (inQuotes text).toList ++ rest = '"' :: (text.toList ++ '"' :: rest) := by
    simp [inQuotes]
  rw [List.append_assoc, linksOutside_append hquote, hopen, linksOutside, htext, hrest]
  simp only [href_suffix_iff htells bare hne]

end Dot

open Dot

namespace DotConfig

variable (interactive : Bool) (baseUrl : String)

/-- The links of a node: the one that toggles it, if a toggle changes it. -/
def nodeLinks (config : DotConfig) (node : GraphNode) : List String :=
  if config.interactive ∧ (node.state = .expandable ∨ node.state = .expanded) then
    [escapeLabel config.baseUrl ++ "?id=" ++ toString node.treeId]
  else []

/-- The links of a cluster: its own, then those of its nodes. -/
def clusterLinks (config : DotConfig) (cluster : Cluster) : List String :=
  escapeLabel (config.clusterLink cluster) :: cluster.nodes.flatMap config.nodeLinks

theorem linkAttributes_eq (config : DotConfig) (node : GraphNode) :
    config.linkAttributes node = (config.nodeLinks node).map (assign "href") := by
  unfold linkAttributes nodeLinks
  split
  · rfl
  · rfl

/-- An attribute after another. -/
theorem adds_attribute {name value : String} (hquote : '"' ∉ (", " ++ name ++ "=").toList)
    (htells : tellsHref (", " ++ name ++ "=").toList = true) (hvalue : Inside value) :
    Adds (", ".toList ++ (assign name value).toList)
      (if "href=".toList <:+ (", " ++ name ++ "=").toList then [value] else []) := by
  have htext : ", ".toList ++ (assign name value).toList =
      (", " ++ name ++ "=").toList ++ (inQuotes value).toList := by simp [assign]
  rw [htext]
  exact .quoted hquote htells (by simp) hvalue

/-- The style of a node holds no link. -/
theorem adds_style {node : GraphNode} {a : String}
    (h : a ∈ styleAttributes { interactive, baseUrl } node) :
    Adds (", ".toList ++ a.toList) [] := by
  have hstyle (value : String) (hvalue : escapeLabel value = value) :
      Adds (", ".toList ++ (assign "style" value).toList) [] :=
    adds_attribute (by decide) (by decide) (inside_of_plain hvalue)
  have hfill : Adds (", ".toList ++ (assign "fillcolor" "#ffe4b5").toList) [] :=
    adds_attribute (by decide) (by decide) (inside_of_plain (by decide))
  unfold styleAttributes at h
  split at h
  · split at h
    · cases h
    · rcases List.mem_cons.mp h with rfl | h
      · exact hstyle _ (by decide)
      · rw [List.mem_singleton.mp h]
        exact hfill
    · rw [List.mem_singleton.mp h]
      split
      · exact hstyle "bold,dashed" (by decide)
      · exact hstyle "bold" (by decide)
    · rw [List.mem_singleton.mp h]
      exact hstyle _ (by decide)
  · split at h
    · rw [List.mem_singleton.mp h]
      exact hstyle _ (by decide)
    · cases h

/-- **The line of a node** holds its link and no other. -/
theorem adds_nodeText (node : GraphNode) :
    Adds (nodeText { interactive, baseUrl } node) (nodeLinks { interactive, baseUrl } node) := by
  have htext : nodeText { interactive, baseUrl } node =
      ("\n    ".toList ++ (inQuotes (escapeId node.id)).toList) ++
      ((" [shape=".toList ++ (inQuotes "oval").toList) ++
      ((", ".toList ++ (assign "label" (escapeLabel node.label)).toList) ++
      (((styleAttributes { interactive, baseUrl } node).flatMap fun a => ", ".toList ++ a.toList) ++
      (((nodeLinks { interactive, baseUrl } node).flatMap fun link =>
        ", ".toList ++ (assign "href" link).toList) ++
      "];".toList)))) := by
    rw [nodeText_eq, nodeAttributes, linkAttributes_eq, List.cons_append, List.cons_append,
      String.toList_append, toList_intercalate_cons]
    simp [assign, List.flatMap_map]
  have hid : Adds ("\n    ".toList ++ (inQuotes (escapeId node.id)).toList) [] :=
    .quoted (by decide) (by decide) (by decide) (inside_escapeId _)
  have hshape : Adds (" [shape=".toList ++ (inQuotes "oval").toList) [] :=
    .quoted (by decide) (by decide) (by decide) (inside_of_plain (by decide))
  have hlabel : Adds (", ".toList ++ (assign "label" (escapeLabel node.label)).toList) [] :=
    adds_attribute (by decide) (by decide) (inside_escapeLabel _)
  have hstyle :
      Adds ((styleAttributes { interactive, baseUrl } node).flatMap fun a =>
        ", ".toList ++ a.toList) [] :=
    .flatMap_nil fun _ ha => adds_style interactive baseUrl ha
  have hlinks : Adds ((nodeLinks { interactive, baseUrl } node).flatMap fun link =>
      ", ".toList ++ (assign "href" link).toList) (nodeLinks { interactive, baseUrl } node) := by
    have hlink : ∀ link ∈ nodeLinks { interactive, baseUrl } node,
        Adds (", ".toList ++ (assign "href" link).toList) [link] := by
      intro link hlink
      obtain ⟨treeId, rfl⟩ :
          ∃ treeId : Int, link = escapeLabel baseUrl ++ "?id=" ++ toString treeId := by
        unfold nodeLinks at hlink
        split at hlink
        · exact ⟨node.treeId, List.mem_singleton.mp hlink⟩
        · cases hlink
      exact adds_attribute (by decide) (by decide)
        (escapeLabel_link baseUrl treeId ▸ inside_escapeLabel _)
    have hall := Adds.flatMap hlink
    rwa [List.flatMap_singleton'] at hall
  rw [htext]
  exact hid.append
    (hshape.append (hlabel.append (hstyle.append (hlinks.append_literal (by decide)))))

/-- The line of an edge holds no link. -/
theorem adds_edgeText (edge : Edge) : Adds (edgeText edge) [] := by
  have htext : edgeText edge = ("\n  ".toList ++ (inQuotes (escapeId edge.source)).toList) ++
      ((" -> ".toList ++ (inQuotes (escapeId edge.target)).toList) ++ ";".toList) := by
    rw [edgeText_eq]
    simp
  rw [htext]
  have hsource : Adds ("\n  ".toList ++ (inQuotes (escapeId edge.source)).toList) [] :=
    .quoted (by decide) (by decide) (by decide) (inside_escapeId _)
  have htarget : Adds (" -> ".toList ++ (inQuotes (escapeId edge.target)).toList) [] :=
    .quoted (by decide) (by decide) (by decide) (inside_escapeId _)
  exact hsource.append (htarget.append_literal (by decide))

/-- **The lines of a cluster** hold its link and those of its nodes. -/
theorem adds_clusterText (cluster : Cluster) :
    Adds (clusterText { interactive, baseUrl } cluster)
      (clusterLinks { interactive, baseUrl } cluster) := by
  have htext : clusterText { interactive, baseUrl } cluster =
      ("\n  subgraph ".toList ++ (inQuotes (escapeId ("cluster_" ++ cluster.file.text))).toList) ++
      ((" \x7b\n    label=".toList ++ (inQuotes (escapeLabel cluster.label)).toList) ++
      ((";\n    href=".toList ++
        (inQuotes (escapeLabel (clusterLink { interactive, baseUrl } cluster))).toList) ++
      (";".toList ++ ((clusterColor? cluster.category).toList.flatMap colorText ++
      (cluster.nodes.flatMap (nodeText { interactive, baseUrl }) ++ "\n  \x7d".toList))))) := by
    rw [clusterText_eq]
    simp only [List.append_assoc]
  have hid : Adds
      ("\n  subgraph ".toList ++ (inQuotes (escapeId ("cluster_" ++ cluster.file.text))).toList)
        [] :=
    .quoted (by decide) (by decide) (by decide) (inside_escapeId _)
  have hlabel :
      Adds (" \x7b\n    label=".toList ++ (inQuotes (escapeLabel cluster.label)).toList) [] :=
    .quoted (by decide) (by decide) (by decide) (inside_escapeLabel _)
  have hlink : Adds (";\n    href=".toList ++
      (inQuotes (escapeLabel (clusterLink { interactive, baseUrl } cluster))).toList)
        [escapeLabel (clusterLink { interactive, baseUrl } cluster)] :=
    .quoted (by decide) (by decide) (by decide) (inside_escapeLabel _)
  have hcolor : Adds ((clusterColor? cluster.category).toList.flatMap colorText) [] := by
    refine .flatMap_nil fun color hcolor => ?_
    rw [colorText_eq, ← List.append_assoc]
    exact (Adds.quoted (by decide) (by decide) (by decide) (inside_of_plain
      (escapeLabel_of_mem_clusterColor? hcolor))).append_literal (by decide)
  have hnodes : Adds (cluster.nodes.flatMap (nodeText { interactive, baseUrl }))
      (cluster.nodes.flatMap (nodeLinks { interactive, baseUrl })) :=
    .flatMap fun node _ => adds_nodeText interactive baseUrl node
  rw [htext]
  exact hid.append (hlabel.append (hlink.append ((Adds.literal (by decide)).append
    (hcolor.append (hnodes.append_literal (by decide))))))

end DotConfig

/-- **The links of a text are those of its clusters**: the text of a graph links the files of the
clusters, and in a view the nodes that a toggle changes. -/
theorem CallGraph.links_dot (graph : CallGraph) (interactive : Bool) (baseUrl : String) :
    links (graph.dot { interactive, baseUrl }) =
      graph.clusters.flatMap (DotConfig.clusterLinks { interactive, baseUrl }) := by
  have hhead : Adds ("\n".intercalate DotConfig.headLines).toList [] := by
    have htext : ("\n".intercalate DotConfig.headLines).toList =
        ("digraph CallGraph \x7b\n  graph [charset=".toList ++ (inQuotes "UTF-8").toList) ++
        ((", rankdir=LR, compound=true];\n  node [fontname=".toList ++
          (inQuotes "Menlo,Consolas,monospace").toList) ++ "];".toList) := by decide +kernel
    have hcharset :
        Adds ("digraph CallGraph \x7b\n  graph [charset=".toList ++ (inQuotes "UTF-8").toList) [] :=
      .quoted (by decide) (by decide) (by decide) (inside_of_plain (by decide))
    have hfont : Adds (", rankdir=LR, compound=true];\n  node [fontname=".toList ++
        (inQuotes "Menlo,Consolas,monospace").toList) [] :=
      .quoted (by decide) (by decide) (by decide) (inside_of_plain (by decide))
    rw [htext]
    exact hcharset.append (hfont.append_literal (by decide))
  have hclusters : Adds (graph.clusters.flatMap (DotConfig.clusterText { interactive, baseUrl }))
      (graph.clusters.flatMap (DotConfig.clusterLinks { interactive, baseUrl })) :=
    .flatMap fun cluster _ => DotConfig.adds_clusterText interactive baseUrl cluster
  have hedges : Adds (graph.edges.flatMap DotConfig.edgeText) [] :=
    .flatMap_nil fun edge _ => DotConfig.adds_edgeText edge
  have hall :=
    hhead.append (hclusters.append (hedges.append_literal (show '"' ∉ "\n\x7d".toList by decide)))
  rw [links, CallGraph.toList_dot]
  simpa using hall [] [] (fun _ => rfl) []

end CallAtlas
