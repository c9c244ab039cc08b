import CallAtlas.Graph.Basic
import CallAtlas.Proofs.Table
import CallAtlas.Proofs.Tree

/-!
# The nodes of a graph

A graph is built by a walk over a tree that takes one node after the other into account. What
becomes of an identifier is decided by the tree nodes with this identifier alone
(`GraphConfig.get?_foldl_addNode`): nothing happens until the first of them that is drawn, that one
gives the graph node, and the others can only change its label
(`GraphConfig.exists_of_foldl_merged`). They do so only for the root, whose identifier is zero.

- Every node of a graph was drawn for a node of the tree (`GraphConfig.exists_of_mem_nodes`), and
  every node of a cluster is a node of the graph (`GraphConfig.mem_values_of_mem_cluster`).
- `GraphConfig.graphOf_nodes` says all that the walk leaves: which nodes there are and in which
  order, where they have their data from, and how the clusters part them.
-/

namespace CallAtlas

namespace Tree

/-- The walk starts at the root. -/
theorem walk_eq_cons (t : Tree) : t.walk = t :: t.walk.tail := by
  obtain ⟨d, cs⟩ := t
  rw [walk_eq_preorder, preorder_node, List.tail_cons]

end Tree

namespace GraphConfig

variable {config : GraphConfig} {t : Tree} {ts : List Tree} {id : String} {node : GraphNode}

/-! ## What becomes of an identifier -/

/-- A graph node after another tree node with its identifier: the root gives its label away. -/
def relabelled (node : GraphNode) (t : Tree) : GraphNode :=
  if node.treeId = 0 ∧ t.id ≠ 0 then { node with label := t.data.label } else node

/-- The graph node under an identifier, if there is one, after a tree node with this identifier. -/
def merged (config : GraphConfig) : Option GraphNode → Tree → Option GraphNode
  | some node, t => some (relabelled node t)
  | none, t => if config.draws t then some (config.nodeOf t) else none

theorem addNode_of_some {nodes : Table String GraphNode} {existing : GraphNode}
    (h : nodes.get? (config.idOf t) = some existing) :
    config.addNode nodes t =
      if existing.treeId = 0 ∧ t.id ≠ 0 then
        nodes.put (config.idOf t) { existing with label := t.data.label }
      else nodes := by
  simp only [addNode, h]

theorem addNode_of_none {nodes : Table String GraphNode} (h : nodes.get? (config.idOf t) = none) :
    config.addNode nodes t = if config.draws t then nodes.put (config.idOf t) (config.nodeOf t)
      else nodes := by
  simp only [addNode, h]

/-- One step of the walk changes what is under one identifier. -/
theorem get?_addNode (config : GraphConfig) (nodes : Table String GraphNode) (t : Tree)
    (id : String) :
    (config.addNode nodes t).get? id =
      if config.idOf t = id then config.merged (nodes.get? id) t else nodes.get? id := by
  by_cases hid : config.idOf t = id
  · subst hid
    rw [if_pos rfl]
    cases hget : nodes.get? (config.idOf t) with
    | some existing =>
      rw [addNode_of_some hget, merged, relabelled]
      by_cases hroot : existing.treeId = 0 ∧ t.id ≠ 0
      · rw [if_pos hroot, if_pos hroot, Table.get?_put, if_pos rfl]
      · rw [if_neg hroot, if_neg hroot, hget]
    | none =>
      rw [addNode_of_none hget, merged]
      by_cases hdraws : config.draws t = true
      · rw [if_pos hdraws, if_pos hdraws, Table.get?_put, if_pos rfl]
      · rw [if_neg hdraws, if_neg hdraws, hget]
  · have hother (value : GraphNode) :
        (nodes.put (config.idOf t) value).get? id = nodes.get? id := by
      rw [Table.get?_put, if_neg (Ne.symm hid)]
    rw [if_neg hid]
    cases hget : nodes.get? (config.idOf t) with
    | some existing =>
      rw [addNode_of_some hget]
      split
      · exact hother _
      · rfl
    | none =>
      rw [addNode_of_none hget]
      split
      · exact hother _
      · rfl

/-- **The whole walk**: what is under an identifier is made by the tree nodes with this
identifier. -/
theorem get?_foldl_addNode (config : GraphConfig) (ts : List Tree) (nodes : Table String GraphNode)
    (id : String) :
    (ts.foldl config.addNode nodes).get? id =
      (ts.filter fun n => config.idOf n = id).foldl config.merged (nodes.get? id) := by
  induction ts generalizing nodes with
  | nil => rfl
  | cons t ts ih =>
    rw [List.foldl_cons, ih, get?_addNode]
    by_cases hid : config.idOf t = id
    · rw [if_pos hid, List.filter_cons_of_pos (by simpa using hid), List.foldl_cons]
    · rw [if_neg hid, List.filter_cons_of_neg (by simpa using hid)]

theorem foldl_merged_some (ts : List Tree) (node : GraphNode) :
    ts.foldl config.merged (some node) = some (ts.foldl relabelled node) := by
  induction ts generalizing node with
  | nil => rfl
  | cons t ts ih => exact ih (relabelled node t)

/-- A graph node is that of the first tree node that is drawn, but for the label, which those behind
it may change. -/
theorem exists_of_foldl_merged (h : ts.foldl config.merged none = some node) :
    ∃ before first after, ts = before ++ first :: after ∧ (∀ n ∈ before, config.draws n = false) ∧
      config.draws first = true ∧ node = after.foldl relabelled (config.nodeOf first) := by
  induction ts with
  | nil => cases h
  | cons t ts ih =>
    by_cases hdraws : config.draws t = true
    · refine ⟨[], t, ts, rfl, List.forall_mem_nil _, hdraws, ?_⟩
      rw [List.foldl_cons, merged, if_pos hdraws, foldl_merged_some] at h
      exact (Option.some.inj h).symm
    · rw [List.foldl_cons, merged, if_neg hdraws] at h
      obtain ⟨before, first, after, rfl, hbefore, hfirst, hnode⟩ := ih h
      exact ⟨t :: before, first, after, rfl,
        List.forall_mem_cons.mpr ⟨by simpa using hdraws, hbefore⟩, hfirst, hnode⟩

/-- The first tree node that is drawn is one of the walk, with the identifier. -/
theorem of_split {before after : List Tree} {first : Tree}
    (h : (ts.filter fun n => config.idOf n = id) = before ++ first :: after) :
    first ∈ ts ∧ config.idOf first = id := by
  have hmem : first ∈ ts.filter fun n => config.idOf n = id := by
    rw [h]
    exact List.mem_append_right _ List.mem_cons_self
  exact ⟨List.mem_of_mem_filter hmem, by simpa using (List.mem_filter.mp hmem).2⟩

/-! ## Labels -/

theorem relabelled_eq (node : GraphNode) (t : Tree) :
    relabelled node t = { node with label := (relabelled node t).label } := by
  unfold relabelled
  split
  · rfl
  · rfl

theorem foldl_relabelled_eq (ts : List Tree) (node : GraphNode) :
    ts.foldl relabelled node = { node with label := (ts.foldl relabelled node).label } := by
  induction ts generalizing node with
  | nil => rfl
  | cons t ts ih =>
    rw [List.foldl_cons, ih, relabelled_eq]

/-- A graph node that was not drawn for the root keeps its label. -/
theorem foldl_relabelled_of_ne (ts : List Tree) (h : node.treeId ≠ 0) :
    ts.foldl relabelled node = node := by
  induction ts with
  | nil => rfl
  | cons t ts ih =>
    have hstep : relabelled node t = node := if_neg fun hroot => h hroot.1
    rw [List.foldl_cons, hstep, ih]

/-- The root has its label from the last tree node. -/
theorem label_foldl_relabelled (h : node.treeId = 0) {last : Tree} (hlast : ts.getLast? = some last)
    (hid : last.id ≠ 0) : (ts.foldl relabelled node).label = last.data.label := by
  obtain ⟨ts, rfl⟩ := List.getLast?_eq_some_iff.mp hlast
  have hroot : (ts.foldl relabelled node).treeId = 0 := by
    rw [foldl_relabelled_eq]
    exact h
  rw [List.foldl_concat, relabelled, if_pos ⟨hroot, hid⟩]

/-! ## The graph of a tree -/

theorem get?_nodes_graphOf (config : GraphConfig) (t : Tree) (id : String) :
    (config.graphOf t).nodes.get? id =
      (t.walk.filter fun n => config.idOf n = id).foldl config.merged none :=
  config.get?_foldl_addNode t.walk .empty id

/-- A node of a graph stands under the identifier of a tree node that is drawn, and has its data,
but for the label. -/
theorem exists_of_mem_entries {e : String × GraphNode} (h : e ∈ (config.graphOf t).nodes.entries) :
    ∃ n ∈ t.walk.filter config.draws, config.idOf n = e.1 ∧
      e.2 = { config.nodeOf n with label := e.2.label } := by
  have hget := Table.get?_eq_some_iff.mpr h
  rw [get?_nodes_graphOf] at hget
  obtain ⟨before, first, after, hsplit, -, hfirst, hnode⟩ := exists_of_foldl_merged hget
  obtain ⟨hmem, hid⟩ := of_split hsplit
  refine ⟨first, List.mem_filter.mpr ⟨hmem, hfirst⟩, hid, ?_⟩
  rw [hnode]
  exact foldl_relabelled_eq after (config.nodeOf first)

/-- Every node of a graph was drawn for a node of the tree. -/
theorem exists_of_mem_nodes (h : node ∈ (config.graphOf t).nodes.values) :
    ∃ n ∈ t.preorder, node = { config.nodeOf n with label := node.label } := by
  obtain ⟨e, hentry, rfl⟩ := List.mem_map.mp h
  obtain ⟨n, hn, -, hnode⟩ := exists_of_mem_entries hentry
  refine ⟨n, ?_, hnode⟩
  rw [← Tree.walk_eq_preorder]
  exact List.mem_of_mem_filter hn

/-- Every node of a cluster is a node of the graph. -/
theorem mem_values_of_mem_cluster {cluster : Cluster} (h : cluster ∈ (config.graphOf t).clusters)
    (hnode : node ∈ cluster.nodes) : node ∈ (config.graphOf t).nodes.values := by
  obtain ⟨⟨file, group⟩, hgroup, rfl⟩ := List.mem_map.mp h
  have hfilter := Table.eq_filter_of_mem_groupBy hgroup
  have hmem : node ∈ group := hnode
  rw [hfilter] at hmem
  exact List.mem_of_mem_filter hmem

/-! ## Keys -/

/-- A tree node that is drawn brings in its identifier. -/
theorem keys_addNode (config : GraphConfig) (nodes : Table String GraphNode) (t : Tree) :
    (config.addNode nodes t).keys =
      if config.draws t then
        if config.idOf t ∈ nodes.keys then nodes.keys else nodes.keys ++ [config.idOf t]
      else nodes.keys := by
  cases hget : nodes.get? (config.idOf t) with
  | some existing =>
    have hkey : config.idOf t ∈ nodes.keys :=
      Table.mem_keys_iff.mpr ⟨existing, Table.get?_eq_some_iff.mp hget⟩
    have hkeys : (config.addNode nodes t).keys = nodes.keys := by
      rw [addNode_of_some hget]
      split
      · rw [Table.keys_put, if_pos hkey]
      · rfl
    rw [hkeys, if_pos hkey, ite_self]
  | none =>
    rw [addNode_of_none hget]
    split
    · rw [Table.keys_put]
    · rfl

/-- **The keys of a graph** are the first occurrences of the identifiers that are drawn. Induction
from the last step of the walk on. -/
theorem firstsOf_keys (config : GraphConfig) (ts : List Tree) :
    FirstsOf ((ts.filter config.draws).map config.idOf) (ts.foldl config.addNode .empty).keys := by
  induction ts using List.reverseRecOn with
  | nil => exact firstsOf_nil
  | append_singleton ts t ih =>
    rw [List.foldl_concat, keys_addNode, List.filter_append]
    by_cases hdraws : config.draws t = true
    · rw [if_pos hdraws, List.filter_cons_of_pos hdraws, List.filter_nil, List.map_append,
        List.map_singleton]
      exact ih.concat (config.idOf t)
    · rw [if_neg hdraws, List.filter_cons_of_neg hdraws, List.filter_nil, List.append_nil]
      exact ih

/-! ## First occurrences and the root -/

section Split

variable {before after : List Tree} {first : Tree}

/-- The first tree node that is drawn among those with an identifier is the first with it among
those drawn. -/
theorem find?_drawn (hsplit : (ts.filter fun n => config.idOf n = id) = before ++ first :: after)
    (hbefore : ∀ n ∈ before, config.draws n = false) (hfirst : config.draws first = true) :
    (ts.filter config.draws).find? (fun n => config.idOf n = id) = some first := by
  have hnone : before.find? config.draws = none := List.find?_eq_none.mpr fun n hn => by
    simp [hbefore n hn]
  have hfound : (ts.filter fun n => config.idOf n = id).find? config.draws = some first := by
    rw [hsplit, List.find?_append, hnone, Option.none_or, List.find?_cons_of_pos hfirst]
  rw [List.find?_filter] at hfound ⊢
  rw [← hfound]
  congr 1
  funext n
  simp [and_comm]

/-- Behind the root come all others with its identifier. -/
theorem after_of_root (hsplit : (t.walk.filter fun n => config.idOf n = id) = before ++ t :: after)
    (hbefore : ∀ n ∈ before, config.draws n = false) (hroot : config.draws t = true) :
    after = t.walk.tail.filter fun n => config.idOf n = id := by
  have hid : config.idOf t = id := (of_split hsplit).2
  rw [Tree.walk_eq_cons, List.filter_cons_of_pos (by simpa using hid)] at hsplit
  cases before with
  | nil => exact (List.cons.inj hsplit).2.symm
  | cons b before =>
    -- the root is drawn, and nothing before the first that is drawn
    have hb : config.draws b = false := hbefore b List.mem_cons_self
    rw [← (List.cons.inj hsplit).1, hroot] at hb
    cases hb

end Split

/-! ## Clusters -/

theorem map_file_clustersOf (config : GraphConfig) (nodes : List GraphNode) :
    (config.clustersOf nodes).map Cluster.file = (Table.groupBy GraphNode.file nodes).keys := by
  rw [clustersOf, List.map_map]
  rfl

/-- A cluster holds the nodes of its file, in their order. -/
theorem nodes_of_mem_clustersOf {nodes : List GraphNode} {cluster : Cluster}
    (h : cluster ∈ config.clustersOf nodes) :
    cluster.nodes = nodes.filter fun n => n.file = cluster.file := by
  obtain ⟨⟨file, group⟩, hgroup, rfl⟩ := List.mem_map.mp h
  exact Table.eq_filter_of_mem_groupBy hgroup

/-- No cluster is empty. -/
theorem nodes_ne_nil_of_mem_clustersOf {nodes : List GraphNode} {cluster : Cluster}
    (h : cluster ∈ config.clustersOf nodes) : cluster.nodes ≠ [] := by
  have hfile : cluster.file ∈ (Table.groupBy GraphNode.file nodes).keys := by
    rw [← map_file_clustersOf config]
    exact List.mem_map_of_mem h
  obtain ⟨n, hn, hnode⟩ := Table.mem_keys_groupBy.mp hfile
  rw [nodes_of_mem_clustersOf h]
  exact List.ne_nil_of_mem (List.mem_filter.mpr ⟨hn, by simpa using hnode⟩)

/-- The clusters part the nodes. -/
theorem perm_clustersOf (config : GraphConfig) (nodes : List GraphNode) :
    ((config.clustersOf nodes).flatMap Cluster.nodes).Perm nodes := by
  rw [clustersOf, List.flatMap_map]
  exact Table.perm_groupBy GraphNode.file nodes

/-- The nodes stand under their own identifiers. -/
theorem map_id_nodes (config : GraphConfig) (t : Tree) :
    (config.graphOf t).nodes.values.map GraphNode.id = (config.graphOf t).nodes.keys := by
  rw [Table.values, Table.keys, List.map_map]
  refine List.map_congr_left fun e he => ?_
  obtain ⟨n, -, hid, hnode⟩ := exists_of_mem_entries he
  show e.2.id = e.1
  rw [hnode]
  exact hid

/-! ## What the walk leaves -/

/-- **The nodes and clusters of a graph.** Let the root of a tree be its only node with identifier
zero. The keys of the graph are the first occurrences of the identifiers of what is drawn, in the
order of the walk. A graph node has everything from the first tree node that is drawn with its
identifier; only if that is the root, and other tree nodes have the identifier too, the label is
that of the last of them, drawn or not. The clusters come in the order of their first nodes, none is
empty, each holds the nodes of its file in the order of the graph, and together they list every key
once. -/
theorem graphOf_nodes (config : GraphConfig) {t : Tree} (hroot : t.id = 0)
    (hothers : ∀ n ∈ t.walk.tail, n.id ≠ 0) :
    let g := config.graphOf t
    FirstsOf ((t.walk.filter config.draws).map config.idOf) g.nodes.keys ∧
    (∀ id node, g.nodes.get? id = some node → ∃ first,
      (t.walk.filter config.draws).find? (fun n => config.idOf n = id) = some first ∧
      node = { config.nodeOf first with label := node.label } ∧
      (first ≠ t ∨ (t.walk.tail.filter fun n => config.idOf n = id) = [] →
        node.label = first.data.label) ∧
      (first = t → ∀ last, (t.walk.tail.filter fun n => config.idOf n = id).getLast? = some last →
        node.label = last.data.label)) ∧
    FirstsOf (g.nodes.values.map GraphNode.file) (g.clusters.map Cluster.file) ∧
    (∀ cluster ∈ g.clusters, cluster.nodes ≠ [] ∧
      cluster.nodes = g.nodes.values.filter fun n => n.file = cluster.file) ∧
    ((g.clusters.flatMap Cluster.nodes).map GraphNode.id).Perm g.nodes.keys := by
  intro g
  refine ⟨config.firstsOf_keys t.walk, fun id node hget => ?_, ?_, fun cluster hcluster => ?_, ?_⟩
  · rw [get?_nodes_graphOf] at hget
    obtain ⟨before, first, after, hsplit, hbefore, hfirst, rfl⟩ := exists_of_foldl_merged hget
    have hmem : first ∈ t :: t.walk.tail := by
      rw [← Tree.walk_eq_cons]
      exact (of_split hsplit).1
    refine ⟨first, find?_drawn hsplit hbefore hfirst, foldl_relabelled_eq after _, ?_, ?_⟩
    · intro hcase
      by_cases hfirstRoot : first = t
      · subst hfirstRoot
        rw [after_of_root hsplit hbefore hfirst, hcase.resolve_left (not_not.mpr rfl)]
        rfl
      · have htail := (List.mem_cons.mp hmem).resolve_left hfirstRoot
        rw [foldl_relabelled_of_ne after (hothers first htail)]
        rfl
    · rintro rfl last hlast
      have hmemLast : last ∈ first.walk.tail := List.mem_of_mem_filter (List.mem_of_getLast? hlast)
      rw [← after_of_root hsplit hbefore hfirst] at hlast
      exact label_foldl_relabelled hroot hlast (hothers last hmemLast)
  · rw [show g.clusters.map Cluster.file = _ from config.map_file_clustersOf _]
    exact Table.firstsOf_groupBy GraphNode.file g.nodes.values
  · exact ⟨nodes_ne_nil_of_mem_clustersOf hcluster, nodes_of_mem_clustersOf hcluster⟩
  · rw [← config.map_id_nodes t]
    exact (config.perm_clustersOf g.nodes.values).map GraphNode.id

/-- The data of a node of the example. -/
def sharedData (i : Int) (file name kind : String) (line : Int) (container : Option String) :
    NodeData :=
  { id := i, file := ⟨"", [file]⟩, name, kind, range := ⟨line, 0⟩,
    selection := ⟨line, 4⟩, container }

/-- A call of `f` on the line on which the method `f` of `C` is declared, and also a class of this
name. -/
def sharedLine : Tree :=
  .node (sharedData 0 "a.py" "f" "function" 3 none)
    [.node (sharedData 1 "a.py" "f" "method" 3 (some "C"))
    [.node (sharedData 2 "b.py" "g" "function" 1 none) [],
      .node (sharedData 3 "a.py" "f" "class" 3 (some "D")) []]]

/-- The call and the method are drawn as one node. It stands for the call, and is named after the
class, which itself is not drawn. -/
theorem graphOf_nodes_sharedLine :
    sharedLine.id = 0 ∧ (∀ n ∈ sharedLine.walk.tail, n.id ≠ 0) ∧
      let g := ({} : GraphConfig).graphOf sharedLine
      (∃ node, g.nodes.get? "a.py:f:3" = some node ∧ node.treeId = 0 ∧ node.label = "D.f:3") ∧
        g.nodes.keys.Nodup ∧ "b.py:g:1" ∈ g.nodes.keys := by
  have hothers : ∀ n ∈ sharedLine.walk.tail, n.id ≠ 0 := by
    rw [Tree.walk_eq_preorder]
    decide
  obtain ⟨hkeys, hnodes, -⟩ := graphOf_nodes {} rfl hothers
  have hdrawn : (sharedLine.walk.filter ({} : GraphConfig).draws).map ({} : GraphConfig).idOf =
      ["a.py:f:3", "a.py:f:3", "b.py:g:1"] := by
    rw [Tree.walk_eq_preorder]
    decide +kernel
  have hfind : (sharedLine.walk.filter ({} : GraphConfig).draws).find?
      (fun n => ({} : GraphConfig).idOf n = "a.py:f:3") = some sharedLine := by
    rw [Tree.walk_eq_cons, List.filter_cons_of_pos (by decide +kernel),
      List.find?_cons_of_pos (by decide +kernel)]
  have hlast :
      (sharedLine.walk.tail.filter fun n => ({} : GraphConfig).idOf n = "a.py:f:3").getLast? =
        some (.node (sharedData 3 "a.py" "f" "class" 3 (some "D")) []) := by
    rw [Tree.walk_eq_preorder]
    rfl
  rw [hdrawn] at hkeys
  obtain ⟨node, hentry⟩ := Table.mem_keys_iff.mp ((hkeys.mem_iff "a.py:f:3").mpr (by decide))
  obtain ⟨first, hfirst, hnode, -, hlabel⟩ := hnodes _ _ (Table.get?_eq_some_iff.mpr hentry)
  obtain rfl := Option.some.inj (hfind.symm.trans hfirst)
  refine ⟨rfl, hothers, ⟨node, Table.get?_eq_some_iff.mpr hentry, ?_, ?_⟩, hkeys.nodup,
    (hkeys.mem_iff "b.py:g:1").mpr (by decide)⟩
  · rw [hnode]
    rfl
  · rw [hlabel rfl _ hlast]
    decide +kernel

end GraphConfig

end CallAtlas
