import CallAtlas.Hierarchy.Tree
import Mathlib.Data.List.Nodup

/-!
# Walks over call hierarchies

Infrastructure for everything that is said about the nodes of a tree:

- `Tree.induct`: a tree is settled once its children are (the recursor Lean generates for `Tree`
  speaks about lists of trees as well, which no statement here does);
- `Tree.walk_eq_preorder`: the walk with a stack of trees still to visit meets the nodes in
  pre-order, so a fact about the walk is proved on the recursion. What a turn leaves ahead
  (`Tree.Walking.ahead_of_turn`) carries this to its end;
- `Tree.Distinct`: no identifier occurs twice. Then a node is known by its identifier
  (`Tree.eq_of_id_eq`), and looking one up finds it (`Tree.find?_of_mem`).
-/

namespace CallAtlas

namespace Tree

/-- Induction over a tree, with the hypothesis at every child. -/
@[elab_as_elim]
theorem induct {motive : Tree → Prop}
    (node : ∀ d cs, (∀ c ∈ cs, motive c) → motive (.node d cs)) : ∀ t, motive t
  | .node d cs => node d cs fun c hc =>
    have : sizeOf c < sizeOf (Tree.node d cs) :=
      Nat.lt_of_lt_of_le (List.sizeOf_lt_of_mem hc) (by simp)
    induct node c
termination_by t => sizeOf t

@[simp] theorem data_node (d : NodeData) (cs : List Tree) : (Tree.node d cs).data = d := rfl

@[simp] theorem children_node (d : NodeData) (cs : List Tree) : (Tree.node d cs).children = cs :=
  rfl

@[simp] theorem id_node (d : NodeData) (cs : List Tree) : (Tree.node d cs).id = d.id := rfl

/-! ## The walk in pre-order -/

theorem preorderOfAll_eq_flatMap (ts : List Tree) : preorderOfAll ts = ts.flatMap preorder := by
  induction ts with
  | nil => rw [preorderOfAll, List.flatMap_nil]
  | cons t ts ih => rw [preorderOfAll, List.flatMap_cons, ih]

@[simp] theorem preorder_node (d : NodeData) (cs : List Tree) :
    (Tree.node d cs).preorder = .node d cs :: cs.flatMap preorder := by
  rw [preorder, preorderOfAll_eq_flatMap]

namespace Walking

variable {s next : Walking}

/-- The nodes that a walk has still to meet: those of the trees on its stack, from the top down. -/
def ahead (s : Walking) : List Tree := s.stack.toList.reverse.flatMap preorder

/-- **What a turn does**: it meets the first node ahead, and the others stay ahead. The stack then
has siblings of one more level, but read from its top they still come in pre-order. -/
theorem ahead_of_turn (h : s.turn = some next) :
    ∃ n, next.met = s.met.push n ∧ s.ahead = n :: next.ahead := by
  obtain ⟨rest, t, hstack, rfl⟩ := turn_eq_some_iff.mp h
  refine ⟨t, rfl, ?_⟩
  cases t with
  | node d cs =>
    rw [ahead, ahead, hstack, Array.toList_push, Array.toList_appendList, List.reverse_concat,
      List.flatMap_cons, List.reverse_append, List.reverse_reverse,
      List.flatMap_append, preorder_node]
    rfl

theorem ahead_of_turn_eq_none (h : s.turn = none) : s.ahead = [] := by
  have hstack : s.stack = #[] := by simpa [turn] using h
  rw [ahead, hstack]
  rfl

/-- A walk comes to meet what is ahead of it, and nothing else. -/
theorem toList_finish (s : Walking) : s.finish.toList = s.met.toList ++ s.ahead := by
  fun_induction finish s with
  | case1 s h => rw [ahead_of_turn_eq_none h, List.append_nil]
  | case2 s next h ih =>
    obtain ⟨n, hmet, hahead⟩ := ahead_of_turn h
    rw [ih, hmet, hahead, Array.toList_push, List.append_assoc, List.singleton_append]

end Walking

/-- The walk is the pre-order. -/
theorem walk_eq_preorder (t : Tree) : t.walk = t.preorder := by
  rw [walk, Walking.toList_finish, Walking.ahead]
  simp only [List.reverse_singleton, List.flatMap_singleton, List.nil_append]

theorem self_mem_preorder (t : Tree) : t ∈ t.preorder := by
  cases t with
  | node d cs => simp

theorem mem_preorder_iff {t n : Tree} :
    n ∈ t.preorder ↔ n = t ∨ ∃ c ∈ t.children, n ∈ c.preorder := by
  cases t with
  | node d cs => simp

/-- What lies below a child of a node lies below that node. -/
theorem mem_preorder_of_mem_children {t c n : Tree} (hc : c ∈ t.children) (hn : n ∈ c.preorder) :
    n ∈ t.preorder :=
  mem_preorder_iff.mpr (.inr ⟨c, hc, hn⟩)

/-- The subtrees of a subtree are subtrees. -/
theorem mem_preorder_trans {t s n : Tree} (hs : s ∈ t.preorder) (hn : n ∈ s.preorder) :
    n ∈ t.preorder := by
  induction t using induct with
  | node d cs ih =>
    rcases mem_preorder_iff.mp hs with rfl | ⟨c, hc, hsc⟩
    · exact hn
    · exact mem_preorder_of_mem_children hc (ih c hc hsc)

/-! ## Depths -/

mutual

/-- The subtrees of a tree that stands at a depth, in pre-order, each with its own depth. -/
def levelsFrom (depth : Nat) : Tree → List (Nat × Tree)
  | .node d cs => (depth, .node d cs) :: levelsFromOfAll (depth + 1) cs

/-- The subtrees of several trees that stand at a depth. -/
def levelsFromOfAll (depth : Nat) : List Tree → List (Nat × Tree)
  | [] => []
  | t :: rest => levelsFrom depth t ++ levelsFromOfAll depth rest

end

/-- The subtrees of a tree with their depths; the root has depth zero. -/
def levels (t : Tree) : List (Nat × Tree) := t.levelsFrom 0

theorem levelsFromOfAll_eq_flatMap (depth : Nat) (ts : List Tree) :
    levelsFromOfAll depth ts = ts.flatMap (levelsFrom depth) := by
  induction ts with
  | nil => rw [levelsFromOfAll, List.flatMap_nil]
  | cons t ts ih => rw [levelsFromOfAll, List.flatMap_cons, ih]

/-- Without the depths this is the pre-order. -/
theorem map_snd_levelsFrom (depth : Nat) (t : Tree) :
    (t.levelsFrom depth).map Prod.snd = t.preorder := by
  induction t using induct generalizing depth with
  | node d cs ih =>
    rw [levelsFrom, levelsFromOfAll_eq_flatMap, List.map_cons, List.map_flatMap, preorder_node]
    congr 1
    exact List.flatMap_congr fun c hc => ih c hc (depth + 1)

/-! ## Identifiers -/

/-- The identifiers of a tree, in pre-order. -/
def ids (t : Tree) : List Int := t.preorder.map Tree.id

@[simp] theorem ids_node (d : NodeData) (cs : List Tree) :
    (Tree.node d cs).ids = d.id :: cs.flatMap ids := by
  rw [ids, preorder_node, List.map_cons, List.map_flatMap]
  rfl

theorem mem_ids_iff {t : Tree} {i : Int} : i ∈ t.ids ↔ ∃ n ∈ t.preorder, n.id = i := by
  simp [ids]

/-- No identifier occurs twice in a tree. -/
def Distinct (t : Tree) : Prop := t.ids.Nodup

instance (t : Tree) : Decidable t.Distinct := inferInstanceAs (Decidable t.ids.Nodup)

/-- In a tree with distinct identifiers a node is known by its identifier. -/
theorem eq_of_id_eq {t m n : Tree} (h : t.Distinct) (hm : m ∈ t.preorder) (hn : n ∈ t.preorder)
    (hid : m.id = n.id) : m = n :=
  List.inj_on_of_nodup_map h hm hn hid

theorem find?_eq_none_iff {t : Tree} {i : Int} : t.find? i = none ↔ i ∉ t.ids := by
  rw [find?, walk_eq_preorder, List.find?_eq_none, mem_ids_iff]
  simp

theorem mem_of_find?_eq_some {t n : Tree} {i : Int} (h : t.find? i = some n) :
    n ∈ t.preorder ∧ n.id = i := by
  rw [find?, walk_eq_preorder] at h
  exact ⟨List.mem_of_find?_eq_some h, by simpa using List.find?_some h⟩

/-- Looking up the identifier of a node finds that node. -/
theorem find?_of_mem {t n : Tree} (h : t.Distinct) (hn : n ∈ t.preorder) :
    t.find? n.id = some n := by
  cases hf : t.find? n.id with
  | none => exact absurd (mem_ids_iff.mpr ⟨n, hn, rfl⟩) (find?_eq_none_iff.mp hf)
  | some m =>
    obtain ⟨hm, hid⟩ := mem_of_find?_eq_some hf
    rw [eq_of_id_eq h hm hn hid]

/-! ## Distinct identifiers below a node -/

theorem distinct_node_iff {d : NodeData} {cs : List Tree} :
    (Tree.node d cs).Distinct ↔
      (∀ c ∈ cs, d.id ∉ c.ids) ∧ (∀ c ∈ cs, c.Distinct) ∧
        cs.Pairwise fun a b => List.Disjoint a.ids b.ids := by
  rw [Distinct, ids_node, List.nodup_cons, List.nodup_flatMap, List.mem_flatMap]
  constructor
  · rintro ⟨hroot, hin, hout⟩
    exact ⟨fun c hc hi => hroot ⟨c, hc, hi⟩, hin, hout⟩
  · rintro ⟨hroot, hin, hout⟩
    exact ⟨fun ⟨c, hc, hi⟩ => hroot c hc hi, hin, hout⟩

theorem Distinct.child {t c : Tree} (h : t.Distinct) (hc : c ∈ t.children) : c.Distinct := by
  cases t with
  | node d cs => exact (distinct_node_iff.mp h).2.1 c hc

end Tree

end CallAtlas
