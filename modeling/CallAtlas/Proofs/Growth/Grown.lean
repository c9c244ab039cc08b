import CallAtlas.Proofs.Growth.WellGrown

/-!
# What every grown tree has

Whatever the resolver answers and wherever it fails, a tree that a plan grows is that of a history
below a call site (`HierarchyPlan.exists_history_of_grow`). Two consequences matter to those who go
on working with such trees:

- no number occurs twice (`HierarchyPlan.distinct_of_grow`);
- a node says that there are further relations exactly if it shows some of them or is marked because
  some are missing (`HierarchyPlan.candid_of_grow`). So a node without children and without a mark
  has nothing more to show.
-/

namespace CallAtlas

/-- The nodes of a tree say that there are further relations exactly if some are shown or marked as
missing. -/
def Tree.Candid (t : Tree) : Prop :=
  ∀ n ∈ t.preorder, n.data.further = true ↔ n.children ≠ [] ∨ n.data.truncated = true

namespace History

theorem trees_eq_nil_iff {i : Nat} {hs : List History} : trees i hs = [] ↔ hs = [] := by
  cases hs with
  | nil => simp [trees]
  | cons h hs => simp [trees]

/-- A node that keeps to the rules has further relations exactly if it shows some or misses some. -/
theorem Follows.further_iff {maxDepth : Option Nat} {depth : Nat} {h : History}
    (hfollows : h.Follows maxDepth depth) (i : Nat) :
    (h.tree i).data.further = true ↔
      (h.tree i).children ≠ [] ∨ (h.tree i).data.truncated = true := by
  obtain ⟨item, start, selection, relations, hs⟩ := h
  have hlength : hs.length ≤ relations.length := by
    simpa using hfollows.1.length_le
  rw [tree, Tree.children_node, Ne, trees_eq_nil_iff]
  simp only [Tree.data_node, Bool.not_eq_true', List.isEmpty_eq_false_iff, decide_eq_true_eq]
  constructor
  · intro hrelations
    by_cases hchildren : hs = []
    · refine .inr ?_
      rw [hchildren]
      exact List.length_pos_iff.mpr hrelations
    · exact .inl hchildren
  · intro h hrelations
    rw [hrelations, List.length_nil] at hlength h
    rcases h with hchildren | hmissing
    · exact hchildren (List.length_eq_zero_iff.mp (Nat.le_zero.mp hlength))
    · exact absurd hmissing (Nat.not_lt_zero _)

end History

namespace HierarchyPlan

variable {σ : Type} {plan : HierarchyPlan} {r : Resolver σ} {direction : Direction}
  {state : σ} {t : Tree}

/-- **A grown tree has a history** that keeps to the rules. -/
theorem exists_history_of_grow (ht : (plan.grow r direction state).1.tree = some t) :
    ∃ h : History, h.Follows plan.maxDepth 1 ∧ t = plan.site.wrap (h.tree 1) := by
  obtain ⟨hsame, -⟩ := plan.grow_recorded r direction state []
  rw [← hsame] at ht
  rcases hanswer : (r.recorded.prepare plan.site.file plan.site.position.start).run.run (state, [])
    with ⟨e | (_ | ⟨item, others⟩), state₁⟩
  · rw [grow_of_error direction hanswer] at ht
    cases ht
  · rw [grow_of_nil direction hanswer] at ht
    cases ht
  · obtain ⟨choice, hgrow, -⟩ := grow_of_cons direction hanswer
    rw [hgrow] at ht
    obtain ⟨subtree, g, hrun, rfl, -⟩ := growFrom_tree_eq_some ht
    cases hroom : plan.room with
    | zero =>
      -- a visit without room gives no tree
      rw [hroom, Grow.exec_visit_zero] at hrun
      cases hrun
    | succ room =>
      rw [hroom] at hrun
      obtain ⟨h, tail, -, rfl, hexplained⟩ := Grow.exec_visit_history rfl hrun
      exact ⟨h, hexplained.follow.1, rfl⟩

theorem distinct_of_grow (ht : (plan.grow r direction state).1.tree = some t) : t.Distinct := by
  obtain ⟨h, -, rfl⟩ := exists_history_of_grow ht
  have hids := numbered_wrap plan.site h
  rw [Tree.walk_eq_preorder] at hids
  rw [Tree.Distinct, Tree.ids, hids]
  exact List.nodup_range.map fun i j hij => Int.ofNat.inj hij

theorem candid_of_grow (ht : (plan.grow r direction state).1.tree = some t) : t.Candid := by
  obtain ⟨h, hfollows, rfl⟩ := exists_history_of_grow ht
  intro n hn
  rw [← Tree.walk_eq_preorder, walk_wrap, List.mem_cons, List.mem_map] at hn
  rcases hn with rfl | ⟨v, hv, rfl⟩
  · -- the call site always shows the declaration that is called
    simp [CallSite.wrap]
  · exact (hfollows.of_mem_visits h hv).further_iff v.id

end HierarchyPlan

end CallAtlas
