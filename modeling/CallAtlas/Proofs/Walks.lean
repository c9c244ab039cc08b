import CallAtlas.Proofs.Copies
import Mathlib

/-!
# Walks, turn by turn

A walk takes as many turns as the tree has nodes, and after any number of them it has met that many
nodes of the pre-order (`Tree.Walking.turns_met`). A search, which stops a walk early, has seen the
first nodes and no others.

The pre-order is told without recursion as well: a node has a place, the path to it, and the walk
meets the nodes in the lexicographic order of their places (`Tree.pairwise_places`), each place once
and none left out (`Tree.mem_places_iff`).
-/

namespace CallAtlas.Tree

/-! ## Turns -/

namespace Walking

/-- The walk after some turns, if it takes so many. -/
def turns : Nat → Walking → Option Walking
  | 0, s => some s
  | n + 1, s => s.turn.bind (turns n)

/-- **What the turns of a walk meet**: the first nodes ahead, in their order. It takes as many turns
as there are nodes ahead, and no more. -/
theorem turns_met (n : Nat) (s : Walking) :
    (s.turns n).map (·.met.toList) = if n ≤
      s.ahead.length then some (s.met.toList ++ s.ahead.take n) else none := by
  -- For every walk under way and not only from the root: after the first turn the stack is another
  -- one.
  induction n generalizing s with
  | zero => simp [turns]
  | succ n ih =>
    cases h : s.turn with
    | none =>
      rw [turns, h, ahead_of_turn_eq_none h, if_neg (by simp)]
      rfl
    | some next =>
      obtain ⟨first, hmet, hahead⟩ := ahead_of_turn h
      rw [turns, h, Option.bind_some, ih, hmet, hahead, Array.toList_push, List.take_succ_cons,
        List.length_cons, List.append_assoc, List.singleton_append]
      simp only [Nat.add_le_add_iff_right]

end Walking

/-! ## The number of nodes -/

mutual

theorem length_preorder : ∀ t : Tree, t.preorder.length = t.size
  | .node d cs => by rw [preorder, List.length_cons, length_preorderOfAll cs, size]

theorem length_preorderOfAll : ∀ ts : List Tree, (preorderOfAll ts).length = sizeOfAll ts
  | [] => rfl
  | t :: rest => by
    rw [preorderOfAll, List.length_append, length_preorder t, length_preorderOfAll rest, sizeOfAll]

end

/-! ## Places -/

mutual

/-- The paths from the root of a tree to its nodes, in pre-order. -/
def places : Tree → List (List Nat)
  | .node _ cs => [] :: placesFrom 0 cs

/-- The paths to the nodes of several trees, which are children from the given number on. -/
def placesFrom (i : Nat) : List Tree → List (List Nat)
  | [] => []
  | t :: rest => (places t).map (i :: ·) ++ placesFrom (i + 1) rest

end

theorem placesFrom_eq_flatMap (i : Nat) (ts : List Tree) :
    placesFrom i ts = (ts.zipIdx i).flatMap fun x => x.1.places.map (x.2 :: ·) := by
  induction ts generalizing i with
  | nil => rfl
  | cons t ts ih => rw [placesFrom, List.zipIdx_cons, List.flatMap_cons, ih]

theorem places_node (d : NodeData) (cs : List Tree) :
    (Tree.node d cs).places = [] :: cs.zipIdx.flatMap fun x => x.1.places.map (x.2 :: ·) := by
  rw [places, placesFrom_eq_flatMap]

/-- A place below the root is a place in a child. -/
theorem cons_mem_places_iff {d : NodeData} {cs : List Tree} {step : Nat} {path : List Nat} :
    step :: path ∈ (Tree.node d cs).places ↔ ∃ c, cs[step]? = some c ∧ path ∈ c.places := by
  rw [places_node, List.mem_cons, or_iff_right (List.cons_ne_nil _ _), List.mem_flatMap]
  constructor
  · rintro ⟨⟨c, i⟩, hc, hpath⟩
    obtain ⟨_, hbelow, heq⟩ := List.mem_map.mp hpath
    cases heq
    exact ⟨c, List.mem_zipIdx_iff_getElem?.mp hc, hbelow⟩
  · rintro ⟨c, hc, hpath⟩
    exact ⟨(c, step), List.mem_zipIdx_iff_getElem?.mpr hc, List.mem_map_of_mem hpath⟩

/-- **No place is left out**, and whatever is listed is one. -/
theorem mem_places_iff {t : Tree} {path : List Nat} :
    path ∈ t.places ↔ (t.descend path).isSome = true := by
  -- On the path and not on the tree: this is how `descend` goes.
  induction path generalizing t with
  | nil =>
    cases t with
    | node d cs => simp [places_node, descend]
  | cons step path ih =>
    cases t with
    | node d cs =>
      rw [cons_mem_places_iff, descend_cons]
      cases cs[step]? with
      | none => simp
      | some c => simpa using ih

/-- At the places of a tree stand the subtrees of its pre-order. -/
theorem map_descend_places (t : Tree) : t.places.map t.descend = t.preorder.map some := by
  induction t using induct with
  | node d cs ih =>
    have hchild : ∀ x ∈ cs.zipIdx,
        (x.1.places.map (x.2 :: ·)).map (Tree.node d cs).descend = x.1.preorder.map some := by
      rintro ⟨c, i⟩ hx
      have hc : cs[i]? = some c := List.mem_zipIdx_iff_getElem?.mp hx
      rw [List.map_map, ← ih c (List.mem_of_getElem? hc)]
      refine List.map_congr_left fun path _ => ?_
      rw [Function.comp_apply, descend_cons, hc, Option.bind_some]
    have hchildren : cs.flatMap preorder = cs.zipIdx.flatMap fun x => x.1.preorder := by
      rw [← List.flatMap_map Prod.fst preorder, List.zipIdx_map_fst]
    rw [places_node, preorder_node, List.map_cons, List.map_cons, hchildren, List.map_flatMap,
      List.map_flatMap, List.flatMap_congr hchild]
    rfl

/-- **The pre-order is the lexicographic order of the places**: a node comes before those below it,
and all of these before its next sibling. -/
theorem pairwise_places (t : Tree) : t.places.Pairwise (· < ·) := by
  induction t using induct with
  | node d cs ih =>
    rw [places_node, List.pairwise_cons, List.pairwise_flatMap]
    refine ⟨fun path hpath => ?_, fun ⟨c, i⟩ hc => ?_, ?_⟩
    · obtain ⟨x, -, hpath⟩ := List.mem_flatMap.mp hpath
      obtain ⟨below, -, rfl⟩ := List.mem_map.mp hpath
      exact List.nil_lt_cons _ _
    · have hchild : c ∈ cs := List.mem_of_getElem? (List.mem_zipIdx_iff_getElem?.mp hc)
      rw [List.pairwise_map]
      exact (ih c hchild).imp fun hlt => List.cons_lt_cons_self.mpr hlt
    · -- Places in different children differ in their first step.
      have hnumbers : cs.zipIdx.Pairwise fun x y => x.2 < y.2 := by
        have hrange : (cs.zipIdx.map Prod.snd).Pairwise (· < ·) := by
          rw [List.zipIdx_map_snd]
          exact List.pairwise_lt_range'
        exact List.pairwise_map.mp hrange
      refine hnumbers.imp fun hlt a ha b hb => ?_
      obtain ⟨_, -, rfl⟩ := List.mem_map.mp ha
      obtain ⟨_, -, rfl⟩ := List.mem_map.mp hb
      exact List.cons_lt_cons_iff.mpr (.inl hlt)

/-- The subtrees of the pre-order are those that some path ends in. -/
theorem mem_preorder_iff_exists_descend {t n : Tree} :
    n ∈ t.preorder ↔ ∃ path, t.descend path = some n := by
  constructor
  · intro hn
    have hplaces : some n ∈ t.places.map t.descend := by
      rw [map_descend_places]
      exact List.mem_map_of_mem hn
    obtain ⟨path, -, hpath⟩ := List.mem_map.mp hplaces
    exact ⟨path, hpath⟩
  · rintro ⟨path, hpath⟩
    have hplace : path ∈ t.places := mem_places_iff.mpr (by rw [hpath, Option.isSome_some])
    have hmem : some n ∈ t.preorder.map some := by
      rw [← map_descend_places, ← hpath]
      exact List.mem_map_of_mem hplace
    simpa using hmem

theorem ncard_places (t : Tree) : {path | (t.descend path).isSome = true}.ncard = t.size := by
  have hplaces :
      {path | (t.descend path).isSome = true} = (t.places.toFinset : Set (List Nat)) := by
    rw [List.coe_toFinset]
    exact Set.ext fun path => mem_places_iff.symm
  have hlength : t.places.length = t.preorder.length := by
    rw [← List.length_map t.descend, map_descend_places, List.length_map]
  rw [hplaces, Set.ncard_coe_finset, List.toFinset_card_of_nodup (t.pairwise_places.imp ne_of_lt),
    hlength, length_preorder]

/-! ## Searches -/

theorem find_eq_ok_iff {t n : Tree} {i : Int} {place : String} :
    t.find i place = .ok n ↔
      ∃ before after, t.preorder = before ++ n :: after ∧ n.id = i ∧ ∀ m ∈ before, m.id ≠ i := by
  have hfirst : t.find i place = .ok n ↔ t.find? i = some n := by
    rw [find]
    cases t.find? i <;> simp
  rw [hfirst, find?, walk_eq_preorder, List.find?_eq_some_iff_append]
  simp only [decide_eq_true_eq, Bool.not_eq_true', decide_eq_false_iff_not]
  constructor
  · rintro ⟨hid, before, after, hpreorder, hbefore⟩
    exact ⟨before, after, hpreorder, hid, hbefore⟩
  · rintro ⟨before, after, hpreorder, hid, hbefore⟩
    exact ⟨hid, before, after, hpreorder, hbefore⟩

theorem find_eq_error_iff {t : Tree} {i : Int} {place : String} {e : NodeNotFound} :
    t.find i place = .error e ↔ e = ⟨i, place⟩ ∧ ∀ n ∈ t.preorder, n.id ≠ i := by
  have hnone : (∀ n ∈ t.preorder, n.id ≠ i) ↔ t.find? i = none := by
    rw [find?_eq_none_iff, mem_ids_iff]
    simp
  rw [hnone, find]
  cases t.find? i <;> simp [eq_comm]

/-- **Walks are exact.** A walk ends after as many turns as the tree has nodes, and until then each
turn meets the next node of the pre-order. This is the lexicographic order of the places in the
tree, and each place is met once, so a walk counts the nodes. A search gives the first node in this
order that has the identifier. It gives an error, with the identifier and the name of the tree,
exactly if at no place of the tree there is such a node. -/
theorem walk_exact (t : Tree) :
    (∀ n, (Walking.turns n ⟨#[], #[t]⟩).map (·.met.toList) =
        if n ≤ t.size then some (t.preorder.take n) else none) ∧
      t.walk = t.preorder ∧
      (∃ places : List (List Nat), places.Pairwise (· < ·) ∧
        (∀ path, path ∈ places ↔ (t.descend path).isSome = true) ∧
        t.walk.map some = places.map t.descend) ∧
      t.count = t.size ∧ t.count = {path | (t.descend path).isSome = true}.ncard ∧
      (∀ i place n, t.find i place = .ok n ↔
        ∃ before after, t.walk = before ++ n :: after ∧ n.id = i ∧ ∀ m ∈ before, m.id ≠ i) ∧
      ∀ i place e, t.find i place = .error e ↔
        e = ⟨i, place⟩ ∧ ∀ path n, t.descend path = some n → n.id ≠ i := by
  have hwalk := t.walk_eq_preorder
  have hcount : t.count = t.size := by rw [count, hwalk, length_preorder]
  refine ⟨fun n => ?_, hwalk, ⟨t.places, t.pairwise_places, fun path => mem_places_iff, ?_⟩, hcount,
    ?_, fun i place n => ?_, fun i place e => ?_⟩
  · have hahead : Walking.ahead ⟨#[], #[t]⟩ = t.preorder := by simp [Walking.ahead]
    rw [Walking.turns_met, hahead, length_preorder]
    rfl
  · rw [hwalk, map_descend_places]
  · rw [hcount, ncard_places]
  · rw [hwalk, find_eq_ok_iff]
  · rw [find_eq_error_iff]
    simp only [mem_preorder_iff_exists_descend, forall_exists_index]
    rw [forall_comm]

end CallAtlas.Tree
