import CallAtlas.Proofs.Copies
import CallAtlas.Proofs.Growth.Unfolding
import CallAtlas.Proofs.Growth.WellGrown

/-!
# Hierarchies under different bounds on the depth

A resolver that always answers has one unfolding, which may well be endless, and a bound on the
depth only says where it is cut:

- under a smaller bound the tree is a copy of the one under a larger bound down to that level, once
  the numbers and the marks are taken off (`Facts.unmarked_copy_unfolding`);
- the marks stand at the nodes on the last level for which relations were reported, and nowhere
  else;
- without a mark nothing was cut, so that a larger bound changes nothing, not even the numbers
  (`Facts.unfolding_eq_of_not_truncated`). This holds of recursive programs too: there a mark is
  always left.

The larger bound has to fit on the stack. Beyond it the stack cuts in its own way, and what is there
under a smaller bound can be missing under a larger one (`HierarchyPlan.grow_upTo_not_cut`).
-/

namespace CallAtlas

namespace Tree

mutual

/-- A tree with the data of every node changed. -/
def mapData (f : NodeData → NodeData) : Tree → Tree
  | .node d cs => .node (f d) (mapDataOfAll f cs)

/-- Trees with the data of every node changed. -/
def mapDataOfAll (f : NodeData → NodeData) : List Tree → List Tree
  | [] => []
  | t :: rest => mapData f t :: mapDataOfAll f rest

end

/-- A tree without the numbers of its nodes and without the marks where it was cut. -/
def unmarked (t : Tree) : Tree := t.mapData fun d => { d with id := 0, truncated := false }

theorem mapDataOfAll_eq_map (f : NodeData → NodeData) (ts : List Tree) :
    mapDataOfAll f ts = ts.map (mapData f) := by
  induction ts with
  | nil => rw [mapDataOfAll, List.map_nil]
  | cons t ts ih => rw [mapDataOfAll, List.map_cons, ih]

theorem unmarked_node (d : NodeData) (cs : List Tree) :
    (Tree.node d cs).unmarked = .node { d with id := 0, truncated := false } (cs.map unmarked) := by
  rw [unmarked, mapData, mapDataOfAll_eq_map]
  rfl

end Tree

/-- What does not depend on the numbers agrees on two lists of trees if it agrees on the histories,
pair by pair. -/
theorem History.map_trees_congr {α β : Type} (f f' : Tree → α) {history history' : β → History}
    {xs : List β} (h : ∀ x ∈ xs, ∀ i j, f ((history x).tree i) = f' ((history' x).tree j))
    (i j : Nat) :
    (History.trees i (xs.map history)).map f = (History.trees j (xs.map history')).map f' := by
  induction xs generalizing i j with
  | nil => rfl
  | cons x xs ih =>
    simp only [List.map_cons, trees]
    rw [h x List.mem_cons_self i j, ih fun x' hx' => h x' (List.mem_cons_of_mem _ hx')]

namespace Facts

variable {facts : Facts} {direction : Direction}

/-- The data of a node, its number and its mark apart, depend on the declaration alone. -/
theorem unmarked_rootData (levels levels' i j : Nat) (item : Item) :
    { facts.rootData direction levels i item with id := 0, truncated := false } =
      { facts.rootData direction levels' j item with id := 0, truncated := false } := rfl

/-- **A smaller unfolding is a copy of a larger one**, numbers and marks apart. Induction on the
smaller number of levels. -/
theorem unmarked_copy_unfolding {levels levels' : Nat} (h : levels ≤ levels') (i j : Nat)
    (item : Item) :
    ((facts.unfolding direction levels item).tree i).unmarked =
      (((facts.unfolding direction levels' item).tree j).copy (some levels)).unmarked := by
  induction levels generalizing levels' i j item with
  | zero =>
    have hdata := facts.data_tree_unfolding direction levels' j item
    generalize (facts.unfolding direction levels' item).tree j = deep at hdata ⊢
    obtain ⟨d, cs⟩ := deep
    rw [Tree.data_node] at hdata
    rw [tree_unfolding_zero, Tree.copy_zero, Tree.unmarked_node, Tree.unmarked_node, hdata,
      unmarked_rootData 0 levels' i j]
  | succ levels ih =>
    obtain ⟨levels', rfl⟩ : ∃ n, levels' = n + 1 := ⟨levels' - 1, by omega⟩
    have hrelated (relation : Relation) (_ : relation ∈ facts.related direction item) (i j : Nat) :=
      ih (Nat.le_of_succ_le_succ h) i j relation.item
    have hchildren := History.map_trees_congr Tree.unmarked
      (fun t => (t.copy (some levels)).unmarked) hrelated (i + 1) (j + 1)
    rw [tree_unfolding_succ, tree_unfolding_succ, Tree.copy_succ, Tree.unmarked_node,
      Tree.unmarked_node, hchildren, List.map_map, unmarked_rootData (levels + 1) (levels' + 1) i j]
    rfl

theorem truncated_tree_unfolding (facts : Facts) (direction : Direction) (levels i : Nat)
    (item : Item) :
    ((facts.unfolding direction levels item).tree i).data.truncated = true ↔
      levels = 0 ∧ facts.related direction item ≠ [] := by
  simp [rootData]

theorem shows_tree_unfolding (levels i : Nat) (item : Item) :
    ((facts.unfolding direction levels item).tree i).Shows item := by
  cases levels with
  | zero => exact History.shows_tree i _
  | succ levels => exact History.shows_tree i _

/-- **Without a mark nothing was cut**: more levels do not change an unfolding that has no mark.
Induction on the levels; on the last one a node without a mark has no relations. -/
theorem unfolding_eq_of_not_truncated {levels levels' i : Nat} {item : Item}
    (hle : levels ≤ levels')
    (h : ∀ n ∈ ((facts.unfolding direction levels item).tree i).preorder,
      n.data.truncated = false) :
    facts.unfolding direction levels' item = facts.unfolding direction levels item := by
  induction levels generalizing levels' i item with
  | zero =>
    have hnone : facts.related direction item = [] := by
      by_contra hsome
      have hcut := (facts.truncated_tree_unfolding direction 0 i item).mpr ⟨rfl, hsome⟩
      rw [h _ (Tree.self_mem_preorder _)] at hcut
      cases hcut
    cases levels' with
    | zero => rfl
    | succ levels' =>
      rw [unfolding, unfolding, hnone]
      rfl
  | succ levels ih =>
    obtain ⟨levels', rfl⟩ : ∃ n, levels' = n + 1 := ⟨levels' - 1, by omega⟩
    rw [unfolding, unfolding]
    congr 1
    refine List.map_congr_left fun relation hrelation => ?_
    obtain ⟨j, hchild⟩ := exists_mem_children_of_relation levels i hrelation
    exact ih (i := j) (Nat.le_of_succ_le_succ hle) fun n hn =>
      h n (Tree.mem_preorder_of_mem_children hchild hn)

/-- However far a copy reaches, a lineage does not branch. -/
theorem length_children_copy_lineage (facts : Facts) (direction : Direction) (item : Item)
    (levels i depth : Nat) :
    ((facts.lineage direction item levels i).copy (some (depth + 1))).unmarked.children.length ≤
      1 := by
  cases levels with
  | zero =>
    rw [lineage, Tree.copy_succ, Tree.unmarked_node]
    exact Nat.zero_le 1
  | succ levels =>
    rw [lineage, Tree.copy_succ, Tree.unmarked_node]
    exact Nat.le_refl 1

end Facts

namespace HierarchyPlan

variable {σ : Type} {r : Resolver σ} {facts : Facts} {direction : Direction}

/-- Under the call site the copies have one level more. -/
theorem unmarked_copy_wrap (site : CallSite) {levels levels' : Nat} (h : levels ≤ levels')
    (item : Item) :
    (site.wrap ((facts.unfolding direction levels item).tree 1)).unmarked =
      ((site.wrap ((facts.unfolding direction levels' item).tree 1)).copy
        (some (levels + 1))).unmarked := by
  simp only [CallSite.wrap, Tree.copy_succ, Tree.unmarked_node, List.map_cons, List.map_nil,
    Facts.data_tree_unfolding, Facts.unmarked_copy_unfolding h 1 1]
  rfl

/-- A node below the call site shows the declaration at the end of its path, and is marked exactly
if it stands on the last level and relations were reported for that declaration. -/
theorem marks_of_descend (site : CallSite) {levels step : Nat} {item : Item}
    {path : List Nat} {n : Tree}
    (h : (site.wrap ((facts.unfolding direction levels item).tree 1)).descend (step :: path) =
      some n) :
    ∃ u, facts.follow direction item path = some u ∧ n.Shows u ∧
      (n.data.further = true ↔ facts.related direction u ≠ []) ∧
      (n.data.truncated = true ↔ path.length + 1 = levels + 1 ∧
        facts.related direction u ≠ []) := by
  obtain ⟨c, hc, hpath⟩ := Option.bind_eq_some_iff.mp h
  obtain rfl : c = (facts.unfolding direction levels item).tree 1 :=
    List.mem_singleton.mp (List.mem_of_getElem? hc)
  obtain ⟨hlength, u, j, hfollow, rfl⟩ := Facts.exists_follow_of_descend hpath
  refine ⟨u, hfollow, Facts.shows_tree_unfolding _ j u, by simp [Facts.rootData], ?_⟩
  rw [Facts.truncated_tree_unfolding]
  have hlast : levels - path.length = 0 ↔ path.length + 1 = levels + 1 := by omega
  rw [hlast]

/-- **Bounds on the depth cut one and the same tree.** With a resolver that always answers, and if
what is met under the larger bound fits on the stack, the tree under a bound is the copy, down to
that level, of the tree under a larger one, but for the numbers and the marks; the marked nodes are
those on the last level for which relations were reported; and if no node is marked, the larger
bound gives the same tree. -/
theorem grow_upTo_cut (h : r.Tells facts) (site : CallSite) (direction : Direction)
    (state state' : σ) {d d' room : Nat} (hd : 1 ≤ d) (hle : d ≤ d')
    (hfits : ∀ f ∈ (facts.prepared site.file site.position.start).head?,
      facts.Fits direction room d' f) :
    let shallow := ((upTo site d room).grow r direction state).1.tree
    let deep := ((upTo site d' room).grow r direction state').1.tree
    (make site (some d) room = .ok (upTo site d room) ∧
      make site (some d') room = .ok (upTo site d' room)) ∧
      (shallow = none ↔ facts.prepared site.file site.position.start = []) ∧
      shallow.map Tree.unmarked = deep.map (fun t => (t.copy (some d)).unmarked) ∧
      (∀ t, shallow = some t → t.data.truncated = false ∧
        ∃ f others, facts.prepared site.file site.position.start = f :: others ∧
          ∀ step path n, t.descend (step :: path) = some n →
            ∃ u, facts.follow direction f path = some u ∧ n.Shows u ∧
              (n.data.further = true ↔ facts.related direction u ≠ []) ∧
              (n.data.truncated = true ↔ path.length + 1 = d ∧ facts.related direction u ≠ [])) ∧
      ∀ t, shallow = some t → (∀ n ∈ t.walk, n.data.truncated = false) → deep = some t := by
  obtain ⟨levels, rfl⟩ : ∃ levels, d = levels + 1 := ⟨d - 1, by omega⟩
  obtain ⟨levels', rfl⟩ : ∃ levels', d' = levels' + 1 := ⟨d' - 1, by omega⟩
  have hlevels : levels ≤ levels' := Nat.le_of_succ_le_succ hle
  intro shallow deep
  have hshallow : shallow = (facts.prepared site.file site.position.start).head?.map fun item =>
      site.wrap ((facts.unfolding direction levels item).tree 1) :=
    grow_upTo h site direction levels (fun f hf => (hfits f hf).mono hle) state
  have hdeep : deep = (facts.prepared site.file site.position.start).head?.map fun item =>
      site.wrap ((facts.unfolding direction levels' item).tree 1) :=
    grow_upTo h site direction levels' hfits state'
  refine ⟨⟨make_eq_upTo site hd room, make_eq_upTo site (Nat.le_trans hd hle) room⟩, ?_⟩
  rw [hshallow, hdeep]
  cases facts.prepared site.file site.position.start with
  | nil => simp
  | cons f others =>
    simp only [List.head?_cons, Option.map_some, Option.some.injEq, reduceCtorEq, true_and]
    refine ⟨unmarked_copy_wrap site hlevels f, ?_, ?_⟩
    · rintro t rfl
      exact ⟨rfl, f, others, rfl, fun step path n hn => marks_of_descend site hn⟩
    · rintro t rfl hall
      have hbelow : ∀ n ∈ ((facts.unfolding direction levels f).tree 1).preorder,
          n.data.truncated = false := by
        intro n hn
        refine hall n ?_
        rw [Tree.walk_eq_preorder]
        exact Tree.mem_preorder_of_mem_children List.mem_cons_self hn
      rw [Facts.unfolding_eq_of_not_truncated hlevels hbelow]

/-- A program in which `walk` calls `step` and then itself, and `step` calls nothing. -/
def recursive : Facts where
  prepared _ _ := [declaration "walk"]
  related _ item :=
    if item.name = "walk" then [⟨declaration "step", [4]⟩, ⟨declaration "walk", [9]⟩] else []
  place _ offset := ⟨0, offset⟩
where
  declaration (name : String) : Item := { file := {}, name, kind := "function" }

/-- A call of `walk`. -/
def callOfWalk : CallSite :=
  { file := {}, called := "walk", span := ⟨7, 0, 60, 64⟩, position := ⟨7, 0, 60, 64⟩ }

/-- What is grown from the call of `walk` with two levels: the inner `walk` is cut. -/
def walkOnTwoLevels : Tree :=
  let data (i : Int) (name : String) : NodeData :=
    { id := i, file := {}, name, kind := "function", range := ⟨1, 0⟩, selection := ⟨1, 0⟩ }
  .node { data 0 "walk" with range := ⟨7, 0⟩, selection := ⟨7, 0⟩, further := true }
    [.node { data 1 "walk" with further := true }
      [.node (data 2 "step") [],
        .node { data 3 "walk" with further := true, truncated := true } []]]

theorem grow_recursive_two {room : Nat} (hroom : 2 ≤ room) :
    ((upTo callOfWalk 2 room).grow recursive.resolver .outgoing ()).1.tree =
      some walkOnTwoLevels := by
  rw [grow_upTo recursive.tells_resolver callOfWalk .outgoing 1
    (fun f _ => Facts.fits_of_le hroom f) ()]
  rfl

/-- The recursion is cut at the second level, where the third goes on; the mark stands at the inner
`walk`, and not at `step` beside it. -/
theorem grow_upTo_cut_recursive :
    recursive.resolver.Tells recursive ∧
      recursive.Fits .outgoing 3 3 (recursive.declaration "walk") ∧
      ((upTo callOfWalk 2 3).grow recursive.resolver .outgoing ()).1.tree = some walkOnTwoLevels ∧
      some walkOnTwoLevels.unmarked =
        ((upTo callOfWalk 3 3).grow recursive.resolver .outgoing ()).1.tree.map
          (fun t => (t.copy (some 2)).unmarked) ∧
      ∀ step path n, walkOnTwoLevels.descend (step :: path) = some n →
        ∃ u, recursive.follow .outgoing (recursive.declaration "walk") path = some u ∧ n.Shows u ∧
          (n.data.truncated = true ↔ path.length + 1 = 2 ∧ recursive.related .outgoing u ≠ []) := by
  have htells := recursive.tells_resolver
  have hfits (f : Item) : recursive.Fits .outgoing 3 3 f := Facts.fits_of_le (Nat.le_refl 3) f
  have htree := grow_recursive_two (show 2 ≤ 3 by decide)
  have hcut := grow_upTo_cut htells callOfWalk .outgoing () () (by decide : 1 ≤ 2)
    (by decide : 2 ≤ 3) fun f _ => hfits f
  simp only [htree, Option.map_some, Option.some.injEq, forall_eq'] at hcut
  obtain ⟨-, -, hcopy, ⟨-, f, others, hf, hmarks⟩, -⟩ := hcut
  obtain ⟨rfl, -⟩ := List.cons.inj hf
  refine ⟨htells, hfits _, htree, hcopy, fun step path n hn => ?_⟩
  obtain ⟨u, hu, hshows, -, hmark⟩ := hmarks step path n hn
  exact ⟨u, hu, hshows, hmark⟩

/-- A program in which `walk` calls itself and then `step`. -/
def selfFirst : Facts where
  prepared _ _ := [recursive.declaration "walk"]
  related _ item :=
    if item.name = "walk" then
      [⟨recursive.declaration "walk", [4]⟩, ⟨recursive.declaration "step", [12]⟩]
    else []
  place _ offset := ⟨0, offset⟩

theorem selfFirst_walk (direction : Direction) :
    selfFirst.SelfFirst direction (recursive.declaration "walk") :=
  ⟨_, _, _, rfl, rfl⟩

/-- Under a bound beyond the stack, `walk` is all that is shown. -/
theorem grow_selfFirst {bound room : Nat} (hroom : 0 < room) (hbound : room < bound) :
    ((upTo callOfWalk bound room).grow selfFirst.resolver .outgoing ()).1.tree =
      some (callOfWalk.wrap
        (selfFirst.lineage .outgoing (recursive.declaration "walk") (room - 1) 1)) := by
  obtain ⟨state, htree⟩ :=
    tree_grow_of_tells selfFirst.tells_resolver (upTo callOfWalk bound room) .outgoing ()
  rw [htree]
  refine growFrom_of_selfFirst selfFirst.tells_resolver.tellsOf trivial
    (selfFirst_walk .outgoing) hroom ?_ state
  rintro _ ⟨⟩
  exact hbound

/-- **The stack cuts in its own way.** With the usual room, 1500 levels of `walk` lack the call of
`step` that stands already on the second level: down to there they are not what is grown with two
levels. -/
theorem grow_upTo_not_cut :
    ((upTo callOfWalk 2 stackRoom).grow selfFirst.resolver .outgoing ()).1.tree.map Tree.unmarked ≠
      ((upTo callOfWalk 1500 stackRoom).grow selfFirst.resolver .outgoing ()).1.tree.map
        (fun t => (t.copy (some 2)).unmarked) := by
  have hshallow := grow_upTo selfFirst.tells_resolver callOfWalk .outgoing 1
    (fun f _ => Facts.fits_of_le (show 2 ≤ stackRoom by decide) f) ()
  rw [hshallow, grow_selfFirst (by decide : 0 < stackRoom) (by decide)]
  -- Below the first node there are two nodes on the one side and one on the other.
  intro heq
  have hcounts :=
    congrArg (Option.map fun t : Tree => t.children.map fun c => c.children.length) heq
  simp only [Option.map_some, CallSite.wrap, Tree.copy_succ, Tree.unmarked_node] at hcounts
  have htwo : 2 =
      ((selfFirst.lineage .outgoing (recursive.declaration "walk") (stackRoom - 1) 1).copy
        (some (0 + 1))).unmarked.children.length := (List.cons.inj (Option.some.inj hcounts)).1
  have hone :=
    selfFirst.length_children_copy_lineage .outgoing (recursive.declaration "walk")
      (stackRoom - 1) 1 0
  omega

end HierarchyPlan

end CallAtlas
