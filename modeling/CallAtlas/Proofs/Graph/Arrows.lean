import CallAtlas.Graph.Dot
import CallAtlas.Proofs.Graph.Nodes
import CallAtlas.Proofs.Text.Delimited

/-!
# The edges of a graph

An edge is drawn between a tree node and each of its children that is drawn. The parents come in
pre-order and the children of each from left to right (`Tree.couples`), and of edges with the same
ends only the first is kept, so that the edges are the first occurrences along this list
(`GraphConfig.edges_graphOf`).

Whether the other end is drawn does not matter for an edge. But what is drawn is drawn wherever it
stands in the tree, so an end that is not among the nodes of the graph is the identifier of nothing
that is drawn. The direction only turns the edges around, and without edges there is nothing to
write (`GraphConfig.graphOf_edges`).
-/

namespace CallAtlas

/-! ## Lists without repetitions -/

section

variable {α : Type} [DecidableEq α]

theorem distinct_concat (xs : List α) (x : α) :
    distinct (xs ++ [x]) = if x ∈ distinct xs then distinct xs else distinct xs ++ [x] :=
  List.foldl_concat ..

/-- **Leaving out repetitions leaves the first occurrences.** Induction from the last member on,
since members are added at the end. -/
theorem firstsOf_distinct (xs : List α) : FirstsOf xs (distinct xs) := by
  induction xs using List.reverseRecOn with
  | nil => exact firstsOf_nil
  | append_singleton xs x ih =>
    rw [distinct_concat]
    exact ih.concat x

theorem mem_distinct {xs : List α} {x : α} : x ∈ distinct xs ↔ x ∈ xs :=
  (firstsOf_distinct xs).mem_iff x

theorem distinct_eq_nil_iff {xs : List α} : distinct xs = [] ↔ xs = [] := by
  simp only [List.eq_nil_iff_forall_not_mem, mem_distinct]

/-- A change that keeps members apart can be made before or after. -/
theorem distinct_map {β : Type} [DecidableEq β] {f : α → β} (hf : Function.Injective f)
    (xs : List α) :
    distinct (xs.map f) = (distinct xs).map f := by
  induction xs using List.reverseRecOn with
  | nil => rfl
  | append_singleton xs x ih =>
    rw [List.map_append, List.map_singleton, distinct_concat, distinct_concat, ih]
    by_cases hx : x ∈ distinct xs
    · have hfx : f x ∈ (distinct xs).map f := List.mem_map_of_mem hx
      rw [if_pos hfx, if_pos hx]
    · have hfx : f x ∉ (distinct xs).map f :=
        fun hmem => hx ((List.mem_map_of_injective hf).mp hmem)
      rw [if_neg hfx, if_neg hx, List.map_append, List.map_singleton]

end

/-! ## Parents and children -/

namespace Tree

/-- The tree nodes with their children: parents in pre-order, and the children of each from left to
right. -/
def couples (t : Tree) : List (Tree × Tree) :=
  t.preorder.flatMap fun parent => parent.children.map fun child => (parent, child)

theorem mem_couples_iff {t parent child : Tree} :
    (parent, child) ∈ t.couples ↔ parent ∈ t.preorder ∧ child ∈ parent.children := by
  simp [couples]

theorem mem_tail_walk_iff {t n : Tree} : n ∈ t.walk.tail ↔ ∃ c ∈ t.children, n ∈ c.preorder := by
  obtain ⟨d, cs⟩ := t
  rw [walk_eq_preorder, preorder_node, List.tail_cons, List.mem_flatMap]
  rfl

/-- The nodes other than the root are the children. Induction on the tree: below a child of the
root, a node is that child or a child of a node below it. -/
theorem mem_tail_walk_iff_exists_parent {t n : Tree} :
    n ∈ t.walk.tail ↔ ∃ parent, (parent, n) ∈ t.couples := by
  simp only [mem_couples_iff, mem_tail_walk_iff]
  induction t using induct with
  | node d cs ih =>
    constructor
    · rintro ⟨c, hc, hn⟩
      rcases mem_preorder_iff.mp hn with rfl | hbelow
      · exact ⟨_, self_mem_preorder _, hc⟩
      · obtain ⟨parent, hparent, hchild⟩ := (ih c hc).mp hbelow
        exact ⟨parent, mem_preorder_of_mem_children hc hparent, hchild⟩
    · rintro ⟨parent, hparent, hchild⟩
      have hn : n ∈ parent.preorder := mem_preorder_of_mem_children hchild n.self_mem_preorder
      rcases mem_preorder_iff.mp hparent with rfl | ⟨c, hc, hbelow⟩
      · exact ⟨n, hchild, n.self_mem_preorder⟩
      · exact ⟨c, hc, mem_preorder_trans hbelow hn⟩

end Tree

/-! ## Edges -/

/-- The edge with its ends exchanged. -/
def Edge.reversed (e : Edge) : Edge := ⟨e.target, e.source⟩

theorem Edge.reversed_injective : Function.Injective Edge.reversed := by
  rintro ⟨source, target⟩ ⟨source', target'⟩ h
  obtain ⟨rfl, rfl⟩ := Edge.mk.inj h
  rfl

/-- The other direction. -/
def Direction.opposite : Direction → Direction
  | .outgoing => .incoming
  | .incoming => .outgoing

namespace GraphConfig

variable {config : GraphConfig} {t : Tree}

/-- The arrow between an identifier and one that is related to it, from caller to callee. -/
def arrow (config : GraphConfig) (above below : String) : Edge :=
  match config.direction with
  | .outgoing => ⟨above, below⟩
  | .incoming => ⟨below, above⟩

/-- The end of an edge at which the parent stands. -/
def parentEnd (config : GraphConfig) (e : Edge) : String :=
  match config.direction with
  | .outgoing => e.source
  | .incoming => e.target

/-- The end of an edge at which the child stands. -/
def childEnd (config : GraphConfig) (e : Edge) : String :=
  match config.direction with
  | .outgoing => e.target
  | .incoming => e.source

@[simp] theorem parentEnd_arrow (config : GraphConfig) (above below : String) :
    config.parentEnd (config.arrow above below) = above := by
  unfold parentEnd arrow
  cases config.direction with
  | outgoing => rfl
  | incoming => rfl

@[simp] theorem childEnd_arrow (config : GraphConfig) (above below : String) :
    config.childEnd (config.arrow above below) = below := by
  unfold childEnd arrow
  cases config.direction with
  | outgoing => rfl
  | incoming => rfl

theorem edgeBetween_eq_arrow (config : GraphConfig) (parent child : Tree) :
    config.edgeBetween parent child = config.arrow (config.idOf parent) (config.idOf child) := by
  unfold edgeBetween arrow
  cases config.direction with
  | outgoing => rfl
  | incoming => rfl

/-- The arrows between the tree nodes and those of their children that are drawn, in the order of
discovery. -/
def arrows (config : GraphConfig) (t : Tree) : List Edge :=
  (t.couples.filter fun couple => config.draws couple.2).map fun couple =>
    config.arrow (config.idOf couple.1) (config.idOf couple.2)

theorem mem_arrows_iff {e : Edge} :
    e ∈ config.arrows t ↔ ∃ parent ∈ t.preorder, ∃ child ∈ parent.children,
    config.draws child = true ∧ e = config.arrow (config.idOf parent) (config.idOf child) := by
  rw [arrows, List.mem_map]
  constructor
  · rintro ⟨⟨parent, child⟩, hmem, rfl⟩
    obtain ⟨hcouple, hdraws⟩ := List.mem_filter.mp hmem
    obtain ⟨hparent, hchild⟩ := Tree.mem_couples_iff.mp hcouple
    exact ⟨parent, hparent, child, hchild, hdraws, rfl⟩
  · rintro ⟨parent, hparent, child, hchild, hdraws, rfl⟩
    exact ⟨(parent, child),
      List.mem_filter.mpr ⟨Tree.mem_couples_iff.mpr ⟨hparent, hchild⟩, hdraws⟩, rfl⟩

/-- **The edges of a graph** are its arrows without repetitions. -/
theorem edges_graphOf (config : GraphConfig) (t : Tree) :
    (config.graphOf t).edges = distinct (config.arrows t) := by
  have hedges (parent : Tree) : config.edgesOf parent =
      ((parent.children.map fun child => (parent, child)).filter fun couple =>
        config.draws couple.2).map
        fun couple => config.arrow (config.idOf couple.1) (config.idOf couple.2) := by
    rw [edgesOf, List.filter_map, List.map_map]
    exact List.map_congr_left fun child _ => config.edgeBetween_eq_arrow parent child
  rw [graphOf, Tree.walk_eq_preorder, arrows, Tree.couples, List.filter_flatMap, List.map_flatMap]
  exact congrArg distinct (List.flatMap_congr fun parent _ => hedges parent)

/-- The edges of a graph: from each node of the tree to each of its children that is drawn. -/
theorem mem_edges_iff {e : Edge} :
    e ∈ (config.graphOf t).edges ↔ ∃ parent ∈ t.preorder, ∃ child ∈ parent.children,
      config.draws child = true ∧ e = config.edgeBetween parent child := by
  rw [edges_graphOf, mem_distinct, mem_arrows_iff]
  simp only [edgeBetween_eq_arrow]

/-! ## Turning around -/

theorem arrows_opposite (config : GraphConfig) (t : Tree) :
    ({ config with direction := config.direction.opposite } : GraphConfig).arrows t =
      (config.arrows t).map Edge.reversed := by
  rw [arrows, arrows, List.map_map]
  refine List.map_congr_left fun couple _ => ?_
  obtain ⟨root, declaration, direction⟩ := config
  cases direction with
  | outgoing => rfl
  | incoming => rfl

/-! ## Drawings without edges -/

/-- The text of a graph is not empty, whatever is in it. -/
theorem dot_ne_empty (graph : CallGraph) (config : DotConfig) : graph.dot config ≠ "" := by
  intro hempty
  have hhead : DotConfig.headLines ≠ [] := List.cons_ne_nil _ _
  have htext : (graph.dot config).toList = [] := by rw [hempty, String.toList_empty]
  rw [CallGraph.dot, CallGraph.dotLines, List.append_assoc, List.append_assoc,
    Text.toList_intercalate_append "\n" _ hhead, List.append_eq_nil_iff] at htext
  exact absurd htext.1 (by decide +kernel)

theorem drawing_eq_empty_iff (t : Tree) (config : GraphConfig) (dot : DotConfig) :
    t.drawing config { dot with interactive := false } = "" ↔ (config.graphOf t).edges = [] := by
  rw [Tree.drawing]
  by_cases hedges : (config.graphOf t).edges = []
  · simp [hedges]
  · simp [hedges, dot_ne_empty]

theorem arrows_eq_nil_iff : config.arrows t = [] ↔ ∀ n ∈ t.walk.tail, config.draws n = false := by
  rw [arrows, List.map_eq_nil_iff, List.filter_eq_nil_iff]
  constructor
  · intro h n hn
    obtain ⟨parent, hcouple⟩ := Tree.mem_tail_walk_iff_exists_parent.mp hn
    simpa using h (parent, n) hcouple
  · rintro h ⟨parent, child⟩ hcouple
    simp [h child (Tree.mem_tail_walk_iff_exists_parent.mpr ⟨parent, hcouple⟩)]

/-- **The edges of a graph.** They are the arrows between the tree nodes and those of their children
that are drawn, each once, in the order of discovery. The child's end is always among the nodes of
the graph; if the parent's end is not, nothing that is drawn has that identifier. In the opposite
direction every edge is reversed, and nodes and clusters are the same. Outside of a view a drawing
is empty exactly if nothing but the root is drawn. -/
theorem graphOf_edges (config : GraphConfig) (t : Tree) :
    let g := config.graphOf t
    let turned := ({ config with direction := config.direction.opposite } : GraphConfig).graphOf t
    FirstsOf (config.arrows t) g.edges ∧
    (∀ e ∈ g.edges, config.childEnd e ∈ g.nodes.keys ∧
      (config.parentEnd e ∉ g.nodes.keys → ∀ n ∈ t.walk, config.draws n = true →
        config.idOf n ≠ config.parentEnd e)) ∧
    (turned.edges = g.edges.map Edge.reversed ∧ turned.nodes = g.nodes ∧
      turned.clusters = g.clusters) ∧
    ∀ dot : DotConfig, t.drawing config { dot with interactive := false } = "" ↔
      ∀ n ∈ t.walk.tail, config.draws n = false := by
  intro g turned
  have hkeys : FirstsOf ((t.walk.filter config.draws).map config.idOf) g.nodes.keys :=
    config.firstsOf_keys t.walk
  have hkey {n : Tree} (hn : n ∈ t.walk) (hdraws : config.draws n = true) :
      config.idOf n ∈ g.nodes.keys :=
    (hkeys.mem_iff _).mpr (List.mem_map_of_mem (List.mem_filter.mpr ⟨hn, hdraws⟩))
  have hedges : g.edges = distinct (config.arrows t) := config.edges_graphOf t
  refine ⟨?_, fun e he => ?_, ⟨?_, rfl, rfl⟩, fun dot => ?_⟩
  · rw [hedges]
    exact firstsOf_distinct _
  · rw [hedges, mem_distinct, mem_arrows_iff] at he
    obtain ⟨parent, hparent, child, hchild, hdraws, rfl⟩ := he
    rw [childEnd_arrow, parentEnd_arrow]
    refine ⟨hkey ?_ hdraws, fun hnot n hn hdrawn heq => hnot (heq ▸ hkey hn hdrawn)⟩
    rw [Tree.walk_eq_preorder]
    exact Tree.mem_preorder_trans hparent
      (Tree.mem_preorder_of_mem_children hchild child.self_mem_preorder)
  · show (GraphConfig.graphOf _ t).edges = _
    rw [edges_graphOf, arrows_opposite, distinct_map Edge.reversed_injective, hedges]
  · rw [drawing_eq_empty_iff, edges_graphOf, distinct_eq_nil_iff, arrows_eq_nil_iff]

/-- A tree in which only `f` is drawn, a child of the root and also of the class `C`. -/
def throughClass : Tree :=
  .node (sharedData 0 "a.py" "a" "module" 1 none)
    [.node (sharedData 1 "a.py" "f" "function" 3 none) [],
      .node (sharedData 2 "a.py" "C" "class" 5 none)
        [.node (sharedData 3 "a.py" "f" "function" 3 none) []]]

/-- Among the callers of the class is `f`: the edge is there and ends at the class, which is not
drawn. -/
theorem graphOf_edges_throughClass :
    let config : GraphConfig := { direction := .incoming }
    let g := config.graphOf throughClass
    (∀ e ∈ g.edges, config.childEnd e ∈ g.nodes.keys) ∧ ⟨"a.py:f:3", "a.py:C:5"⟩ ∈ g.edges ∧
      (∀ n ∈ throughClass.walk, config.draws n = true → config.idOf n ≠ "a.py:C:5") ∧
      throughClass.drawing config ≠ "" := by
  intro config g
  obtain ⟨hedges, hends, -, hdrawing⟩ := graphOf_edges config throughClass
  have hedge : ⟨"a.py:f:3", "a.py:C:5"⟩ ∈ g.edges := (hedges.mem_iff _).mpr (by decide +kernel)
  have hkeys : FirstsOf ((throughClass.walk.filter config.draws).map config.idOf) g.nodes.keys :=
    config.firstsOf_keys throughClass.walk
  rw [Tree.walk_eq_preorder] at hkeys hdrawing
  refine ⟨fun e he => (hends e he).1, hedge, (hends _ hedge).2 ?_, fun hempty => ?_⟩
  · rw [hkeys.mem_iff]
    decide +kernel
  · exact absurd ((hdrawing {}).mp hempty) (by decide +kernel)

end GraphConfig

end CallAtlas
