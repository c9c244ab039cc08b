import CallAtlas.Proofs.Growth.History

/-!
# Grown hierarchies

What holds of every tree that a plan grows, whatever the resolver answers and wherever it fails:

- the nodes are numbered in pre-order, from the call site on;
- each node agrees with what the resolver reported for it (`Tree.Agrees`);
- no node lies below the bound on the depth;
- once the stack has given out, nothing is asked any more, and without that nothing is cut above the
  bound.

All of it is read off the history of the tree. The facts about histories come first, by induction on
their structure; the trees of a plan (`HierarchyPlan.grow_wellGrown`) come last.
-/

namespace CallAtlas

namespace History

/-! ## The nodes of a history -/

theorem id_tree (i : Nat) (h : History) : (h.tree i).id = i := by
  cases h with
  | node item start selection relations hs => rfl

mutual

/-- The nodes of the tree of a history are those of the history. -/
theorem levelsFrom_tree (depth i : Nat) :
    (h : History) → (h.tree i).levelsFrom depth =
      (h.visits depth i).map fun v => (v.depth, v.history.tree v.id)
  | .node item start selection relations hs => by
    rw [visits, List.map_cons, tree, Tree.levelsFrom, levelsFromOfAll_trees]

theorem levelsFromOfAll_trees (depth i : Nat) :
    (hs : List History) → Tree.levelsFromOfAll depth (trees i hs) =
      (visitsOfAll depth i hs).map fun v => (v.depth, v.history.tree v.id)
  | [] => rfl
  | h :: hs => by
    rw [visitsOfAll, List.map_append, trees, Tree.levelsFromOfAll, levelsFrom_tree,
      levelsFromOfAll_trees]

end

mutual

/-- The nodes are numbered one after the other. -/
theorem map_id_visits (depth i : Nat) :
    (h : History) → (h.visits depth i).map Visit.id = List.range' i h.size
  | .node item start selection relations hs => by
    rw [visits, List.map_cons, map_id_visitsOfAll, size, List.range'_succ]

theorem map_id_visitsOfAll (depth i : Nat) :
    (hs : List History) → (visitsOfAll depth i hs).map Visit.id = List.range' i (sizeOfAll hs)
  | [] => rfl
  | h :: hs => by
    rw [visitsOfAll, List.map_append, map_id_visits, map_id_visitsOfAll, sizeOfAll,
      List.range'_append_1]

end

theorem length_visits (depth i : Nat) (h : History) : (h.visits depth i).length = h.size := by
  rw [← List.length_map Visit.id, map_id_visits, List.length_range']

mutual

/-- Every node was expanded once, in the order of the numbers. -/
theorem reports_exchanges (direction : Direction) (depth i : Nat) :
    (h : History) → (h.exchanges direction).filterMap Exchange.report? =
      (h.visits depth i).map fun v => (v.history.item, v.history.relations)
  | .node item start selection relations hs => by
    rw [visits, List.map_cons, ← reports_exchangesOfAll direction, exchanges]
    rfl

theorem reports_exchangesOfAll (direction : Direction) (depth i : Nat) :
    (hs : List History) → (exchangesOfAll direction hs).filterMap Exchange.report? =
      (visitsOfAll depth i hs).map fun v => (v.history.item, v.history.relations)
  | [] => rfl
  | h :: hs => by
    rw [visitsOfAll, List.map_append, exchangesOfAll, List.filterMap_append,
      reports_exchanges direction depth i, reports_exchangesOfAll direction depth (i + h.size)]

end

mutual

/-- What was asked for the nodes of a history was answered. -/
theorem not_ranOut_of_mem_exchanges {direction : Direction} {e : Exchange} :
    (h : History) → e ∈ h.exchanges direction → ¬e.ranOut
  | .node item start selection relations hs, he => by
    rw [exchanges, List.mem_cons, List.mem_cons, List.mem_cons] at he
    rcases he with rfl | rfl | rfl | he
    · simp [Exchange.ranOut]
    · simp [Exchange.ranOut]
    · simp [Exchange.ranOut]
    · exact not_ranOut_of_mem_exchangesOfAll hs he

theorem not_ranOut_of_mem_exchangesOfAll {direction : Direction} {e : Exchange} :
    (hs : List History) → e ∈ exchangesOfAll direction hs → ¬e.ranOut
  | [], he => absurd he List.not_mem_nil
  | h :: hs, he => by
    rw [exchangesOfAll, List.mem_append] at he
    exact he.elim (not_ranOut_of_mem_exchanges h) (not_ranOut_of_mem_exchangesOfAll hs)

end

theorem visitsOfAll_singleton (depth i : Nat) (h : History) :
    visitsOfAll depth i [h] = h.visits depth i := by
  rw [visitsOfAll, visitsOfAll, List.append_nil]

theorem further_tree_iff (v : Visit) :
    (v.history.tree v.id).data.further = true ↔ v.history.relations ≠ [] := by
  obtain ⟨depth, i, item, start, selection, relations, hs⟩ := v
  simp [tree, History.relations]

/-- The place of a node among the others is its number. -/
theorem getElem?_visits {depth i : Nat} {h : History} {v : Visit} (hv : v ∈ h.visits depth i) :
    i ≤ v.id ∧ (h.visits depth i)[v.id - i]? = some v := by
  obtain ⟨k, hk⟩ := List.mem_iff_getElem?.mp hv
  have hid : (List.range' i h.size)[k]? = some v.id := by
    rw [← map_id_visits depth, List.getElem?_map, hk]
    rfl
  obtain ⟨hlt, hval⟩ := List.getElem?_eq_some_iff.mp hid
  rw [List.getElem_range', Nat.one_mul] at hval
  have hplace : v.id - i = k := by omega
  exact ⟨by omega, hplace ▸ hk⟩

/-! ## What lies below a node -/

mutual

/-- What lies below a node of a history belongs to the history. -/
theorem mem_visits_trans {v w : Visit} {depth i : Nat} :
    (h : History) → v ∈ h.visits depth i →
      w ∈ visitsOfAll (v.depth + 1) (v.id + 1) v.history.children → w ∈ h.visits depth i
  | .node item start selection relations hs, hv, hw => by
    rw [visits, List.mem_cons] at hv ⊢
    rcases hv with rfl | hv
    · exact .inr hw
    · exact .inr (mem_visitsOfAll_trans hs hv hw)

theorem mem_visitsOfAll_trans {v w : Visit} {depth i : Nat} :
    (hs : List History) → v ∈ visitsOfAll depth i hs →
      w ∈ visitsOfAll (v.depth + 1) (v.id + 1) v.history.children → w ∈ visitsOfAll depth i hs
  | [], hv, _ => absurd hv List.not_mem_nil
  | h :: hs, hv, hw => by
    rw [visitsOfAll, List.mem_append] at hv ⊢
    exact hv.imp (fun hv => mem_visits_trans h hv hw) fun hv => mem_visitsOfAll_trans hs hv hw

end

mutual

/-- Every node of a history keeps to the rules if the history does. -/
theorem Follows.of_mem_visits {maxDepth : Option Nat} {v : Visit} {depth i : Nat} :
    (h : History) → h.Follows maxDepth depth → v ∈ h.visits depth i →
      v.history.Follows maxDepth v.depth
  | .node item start selection relations hs, hfollows, hv => by
    rw [visits, List.mem_cons] at hv
    rcases hv with rfl | hv
    · exact hfollows
    · exact AllFollow.of_mem_visitsOfAll hs hfollows.2.2 hv

theorem AllFollow.of_mem_visitsOfAll {maxDepth : Option Nat} {v : Visit} {depth i : Nat} :
    (hs : List History) → AllFollow maxDepth depth hs → v ∈ visitsOfAll depth i hs →
      v.history.Follows maxDepth v.depth
  | [], _, hv => absurd hv List.not_mem_nil
  | h :: hs, hfollow, hv => by
    rw [visitsOfAll, List.mem_append] at hv
    exact hv.elim (Follows.of_mem_visits h hfollow.1)
      (AllFollow.of_mem_visitsOfAll hs hfollow.2)

end

mutual

/-- A history that keeps to the rules stays within the bound on the depth. -/
theorem depth_le_of_mem_visits {bound : Nat} {v : Visit} {depth i : Nat} (hdepth : depth ≤ bound) :
    (h : History) → h.Follows (some bound) depth → v ∈ h.visits depth i → v.depth ≤ bound
  | .node item start selection relations hs, hfollows, hv => by
    rw [visits, List.mem_cons] at hv
    rcases hv with rfl | hv
    · exact hdepth
    · by_cases hbound : bound ≤ depth
      · rw [hfollows.2.1 (by simpa using hbound)] at hv
        exact absurd hv List.not_mem_nil
      · exact depth_le_of_mem_visitsOfAll (by omega) hs hfollows.2.2 hv

theorem depth_le_of_mem_visitsOfAll {bound : Nat} {v : Visit} {depth i : Nat}
    (hdepth : depth ≤ bound) :
    (hs : List History) → AllFollow (some bound) depth hs → v ∈ visitsOfAll depth i hs →
      v.depth ≤ bound
  | [], _, hv => absurd hv List.not_mem_nil
  | h :: hs, hfollow, hv => by
    rw [visitsOfAll, List.mem_append] at hv
    exact hv.elim (depth_le_of_mem_visits hdepth h hfollow.1)
      (depth_le_of_mem_visitsOfAll hdepth hs hfollow.2)

end

/-- The trees of the children stand for the first relations, one by one. -/
theorem forall₂_trees (depth i : Nat) {hs : List History} {relations : List Relation}
    (hitems : hs.map item <+: relations.map Relation.item) :
    List.Forall₂ (fun t relation => ∃ v ∈ visitsOfAll depth i hs,
        v.history.item = relation.item ∧ t = v.history.tree v.id)
      (trees i hs) (relations.take hs.length) := by
  induction hs generalizing i relations with
  | nil => exact .nil
  | cons h hs ih =>
    cases relations with
    | nil => exact absurd (List.prefix_nil.mp hitems) (List.cons_ne_nil _ _)
    | cons relation rest =>
      obtain ⟨hitem, hrest⟩ := List.cons_prefix_cons.mp hitems
      refine .cons ⟨⟨depth, i, h⟩, ?_, hitem, rfl⟩ ((ih (i + h.size) hrest).imp ?_)
      · rw [visitsOfAll]
        cases h with
        | node item start selection relations children => exact List.mem_cons_self
      · rintro t relation' ⟨v, hv, heq, rfl⟩
        exact ⟨v, List.mem_append_right _ hv, heq, rfl⟩

end History

/-! ## Trees that agree with the reports -/

/-- What was reported for a node: its number says how many declarations were expanded before it. -/
def Tree.report? (log : List Exchange) (n : Tree) : Option (Item × List Relation) :=
  (log.filterMap Exchange.report?)[n.id.toNat - 1]?

/-- A node stands for a declaration. -/
structure Tree.Shows (n : Tree) (item : Item) : Prop where
  file : n.data.file = item.file
  name : n.data.name = item.name
  kind : n.data.kind = item.kind
  modifiers : n.data.modifiers = item.modifiers
  container : n.data.container = item.container

/-- A node agrees with what was reported for it: it stands for the declaration that was expanded; it
has further relations exactly if some were reported; its children are, in order, the nodes of the
first of them; and it is truncated exactly if others are left. -/
def Tree.Agrees (log : List Exchange) (n : Tree) : Prop :=
  ∃ item shown hidden, n.report? log = some (item, shown ++ hidden) ∧ n.Shows item ∧
    (n.data.further = true ↔ shown ++ hidden ≠ []) ∧ (n.data.truncated = true ↔ hidden ≠ []) ∧
    List.Forall₂ (fun c relation => c.Shows relation.item ∧
      ∃ relations, c.report? log = some (relation.item, relations)) n.children shown

theorem History.shows_tree (i : Nat) (h : History) : (h.tree i).Shows h.item := by
  cases h with
  | node item start selection relations hs => exact ⟨rfl, rfl, rfl, rfl, rfl⟩

/-- If the reports of a run are those of a history, the nodes of its tree find theirs. -/
theorem History.report?_tree {log : List Exchange} {h : History} {v : Visit}
    (hlog : log.filterMap Exchange.report? =
      (h.visits 1 1).map fun v => (v.history.item, v.history.relations))
    (hv : v ∈ h.visits 1 1) :
    (v.history.tree v.id).report? log = some (v.history.item, v.history.relations) := by
  rw [Tree.report?, hlog, id_tree, Int.toNat_natCast, List.getElem?_map, (getElem?_visits hv).2]
  rfl

/-- The nodes of a history that keeps to the rules agree with the reports. -/
theorem History.agrees_tree {log : List Exchange} {maxDepth : Option Nat} {h : History} {v : Visit}
    (hlog : log.filterMap Exchange.report? =
      (h.visits 1 1).map fun v => (v.history.item, v.history.relations))
    (hfollows : h.Follows maxDepth 1) (hv : v ∈ h.visits 1 1) :
    (v.history.tree v.id).Agrees log := by
  have hreport := report?_tree hlog hv
  have hrules := hfollows.of_mem_visits h hv
  have hbelow (w : Visit) (hw : w ∈ visitsOfAll (v.depth + 1) (v.id + 1) v.history.children) :
      w ∈ h.visits 1 1 := mem_visits_trans h hv hw
  obtain ⟨depth, i, item, start, selection, relations, hs⟩ := v
  refine ⟨item, relations.take hs.length, relations.drop hs.length, ?_, shows_tree _ _, ?_, ?_, ?_⟩
  · rw [List.take_append_drop]
    exact hreport
  · rw [List.take_append_drop, tree]
    simp
  · rw [tree]
    simp
  · rw [tree]
    refine (forall₂_trees (depth + 1) (i + 1) hrules.1).imp ?_
    rintro c relation ⟨w, hw, hitem, rfl⟩
    exact ⟨hitem ▸ shows_tree _ _, _, hitem ▸ report?_tree hlog (hbelow w hw)⟩

namespace HierarchyPlan

/-- A node that has further relations and stands, above the bound on the depth, on the last level
with room on the stack. -/
def Cramps (plan : HierarchyPlan) (level : Nat × Tree) : Prop :=
  level.1 = plan.room ∧ level.2.data.further = true ∧ plan.maxDepth.any (· ≤ level.1) = false

/-- What holds of a tree that a plan has grown, when the resolver was asked `log`. -/
structure WellGrown (plan : HierarchyPlan) (direction : Direction)
    (log : List Exchange) (t : Tree) :
    Prop where
  /-- The root is the call site, with one declaration below it. -/
  root : t.id = 0 ∧ ∃ c, t.children = [c]
  /-- The numbers count the nodes in pre-order. -/
  numbered : t.walk.map Tree.id = (List.range t.count).map Int.ofNat
  /-- There is one report for each node but the root. -/
  reported : (log.filterMap Exchange.report?).length + 1 = t.count
  agrees : ∀ n ∈ t.walk, n.id ≠ 0 → n.Agrees log
  bounded : ∀ d, plan.maxDepth = some d → ∀ level ∈ t.levels, level.1 ≤ d
  /-- A question that runs out of stack is the last. -/
  quiet : ∀ e ∈ log.dropLast, ¬e.ranOut
  /-- A node without room for its children is the last, and nothing is asked after its expansion. -/
  noRoom : ∀ level ∈ t.levels, plan.Cramps level → level.2.id + 1 = t.count ∧
    ∃ item relations, log.getLast? = some (.expanded direction item (.ok relations))
  /-- Above the bound, a node is cut only because the stack has given out. -/
  cut : ∀ level ∈ t.levels, level.1 ≠ 0 → level.2.data.truncated = true →
    plan.maxDepth.any (· ≤ level.1) = true ∨ (∃ e, log.getLast? = some e ∧ e.ranOut) ∨
      ∃ level' ∈ t.levels, plan.Cramps level'

/-! ## From the history to the tree -/

theorem levels_wrap (site : CallSite) (h : History) :
    (site.wrap (h.tree 1)).levels = (0, site.wrap (h.tree 1)) ::
      (h.visits 1 1).map fun v => (v.depth, v.history.tree v.id) := by
  rw [← History.levelsFrom_tree]
  simp [CallSite.wrap, Tree.levels, Tree.levelsFrom, Tree.levelsFromOfAll]

theorem walk_wrap (site : CallSite) (h : History) :
    (site.wrap (h.tree 1)).walk = site.wrap (h.tree 1) ::
      (h.visits 1 1).map fun v => v.history.tree v.id := by
  rw [Tree.walk_eq_preorder, ← Tree.map_snd_levelsFrom 0, ← Tree.levels, levels_wrap,
    List.map_cons, List.map_map]
  rfl

theorem count_wrap (site : CallSite) (h : History) :
    (site.wrap (h.tree 1)).count = h.size + 1 := by
  rw [Tree.count, walk_wrap, List.length_cons, List.length_map, History.length_visits]

theorem mem_levels_wrap {site : CallSite} {h : History} {level : Nat × Tree} :
    level ∈ (site.wrap (h.tree 1)).levels ↔ level = (0, site.wrap (h.tree 1)) ∨
      ∃ v ∈ h.visits 1 1, level = (v.depth, v.history.tree v.id) := by
  rw [levels_wrap, List.mem_cons, List.mem_map]
  simp only [eq_comm]

theorem numbered_wrap (site : CallSite) (h : History) :
    (site.wrap (h.tree 1)).walk.map Tree.id =
      (List.range (site.wrap (h.tree 1)).count).map Int.ofNat := by
  have hids : (h.visits 1 1).map (fun v => (v.history.tree v.id).id) =
      (List.range' 1 h.size).map Int.ofNat := by
    rw [← History.map_id_visits 1, List.map_map]
    exact List.map_congr_left fun v _ => v.history.id_tree v.id
  rw [count_wrap, walk_wrap, List.range_eq_range', List.range'_succ, List.map_cons, List.map_map,
    List.map_cons, ← hids]
  rfl

section

variable {σ : Type} {plan : HierarchyPlan} {direction : Direction} {file : Path} {offset : Int}
  {items : List Item} {g g' : Growth (σ × List Exchange)} {h : History} {tail : List Exchange}

/-- The reports of a run that a history explains are those of its nodes. -/
theorem reports_eq
    (hexplained : Grow.Explains direction plan.maxDepth plan.room 1 g g' [h] tail)
    (hasked : g.resolver.2 = [.prepared file offset (.ok items)]) :
    g'.resolver.2.filterMap Exchange.report? =
      (h.visits 1 1).map fun v => (v.history.item, v.history.relations) := by
  have htail : tail.filterMap Exchange.report? = [] := by
    cases hg' : g'.exhausted with
    | false => rw [(hexplained.intact hg').2.1, List.filterMap_nil]
    | true =>
      rcases hexplained.gaveOut hg' with hbroken | ⟨rfl, -⟩
      · exact List.filterMap_eq_nil_iff.mpr hbroken.1
      · rfl
  rw [hexplained.log, hasked, List.filterMap_append, List.filterMap_append, htail,
    History.exchangesOfAll, History.exchangesOfAll, List.append_nil, List.append_nil,
    History.reports_exchanges direction 1 1]
  rfl

/-- A question that runs out of stack is the last of a run that a history explains. -/
theorem not_ranOut_of_mem_dropLast
    (hexplained : Grow.Explains direction plan.maxDepth plan.room 1 g g' [h] tail)
    (hasked : g.resolver.2 = [.prepared file offset (.ok items)]) :
    ∀ e ∈ g'.resolver.2.dropLast, ¬e.ranOut := by
  have hanswered : ∀ e ∈ g.resolver.2 ++ History.exchangesOfAll direction [h], ¬e.ranOut := by
    intro e he
    rw [List.mem_append, hasked, List.mem_singleton] at he
    rcases he with rfl | he
    · simp [Exchange.ranOut]
    · exact History.not_ranOut_of_mem_exchangesOfAll [h] he
  have hcases : tail = [] ∨ BrokenOff tail := by
    cases hg' : g'.exhausted with
    | false => exact .inl (hexplained.intact hg').2.1
    | true => exact (hexplained.gaveOut hg').symm.imp And.left id
  intro e he
  rw [hexplained.log, ← List.append_assoc] at he
  rcases hcases with rfl | hbroken
  · rw [List.append_nil] at he
    exact hanswered e (List.dropLast_subset _ he)
  · obtain ⟨last, hlast, -⟩ := hbroken.2.2
    rw [List.dropLast_append_of_ne_nil (fun hnil => by simp [hnil] at hlast), List.mem_append] at he
    exact he.elim (hanswered e) (hbroken.2.1 e)

/-- A node without room for its children is the last, and nothing is asked after its expansion. -/
theorem last_of_cramps (hroom : plan.room ≠ 0) (hid : g.nextId = 1)
    (hexplained : Grow.Explains direction plan.maxDepth plan.room 1 g g' [h] tail)
    {level : Nat × Tree} (hlevel : level ∈ (plan.site.wrap (h.tree 1)).levels)
    (hcramps : plan.Cramps level) :
    level.2.id + 1 = (plan.site.wrap (h.tree 1)).count ∧
      ∃ item relations, g'.resolver.2.getLast? =
        some (.expanded direction item (.ok relations)) := by
  obtain ⟨hdepth, hmore, hfree⟩ := hcramps
  rcases mem_levels_wrap.mp hlevel with rfl | ⟨v, hv, rfl⟩
  · -- the call site itself takes no level on the stack
    exact absurd hdepth.symm hroom
  · have hv' : v ∈ History.visitsOfAll 1 g.nextId [h] := by
      rwa [hid, History.visitsOfAll_singleton]
    obtain ⟨-, rfl, hnext, hlast⟩ :=
      hexplained.cramped v hv' ⟨hdepth, (History.further_tree_iff v).mp hmore, hfree⟩
    refine ⟨?_, v.history.item, v.history.relations, ?_⟩
    · simp only [hid, History.sizeOfAll] at hnext
      rw [count_wrap, History.id_tree]
      omega
    · rw [hexplained.log, List.append_nil, List.getLast?_append, hlast]
      rfl

/-- Above the bound, a node is cut only because the stack has given out. -/
theorem gaveOut_of_truncated (hid : g.nextId = 1)
    (hexplained : Grow.Explains direction plan.maxDepth plan.room 1 g g' [h] tail)
    {level : Nat × Tree} (hlevel : level ∈ (plan.site.wrap (h.tree 1)).levels)
    (hne : level.1 ≠ 0) (hcut : level.2.data.truncated = true) :
    plan.maxDepth.any (· ≤ level.1) = true ∨
      (∃ e, g'.resolver.2.getLast? = some e ∧ e.ranOut) ∨
      ∃ level' ∈ (plan.site.wrap (h.tree 1)).levels, plan.Cramps level' := by
  rcases mem_levels_wrap.mp hlevel with rfl | ⟨v, hv, rfl⟩
  · exact absurd rfl hne
  · have hvisits : History.visitsOfAll 1 g.nextId [h] = h.visits 1 1 := by
      rw [hid, History.visitsOfAll_singleton]
    cases hg' : g'.exhausted with
    | false =>
      rcases (hexplained.intact hg').2.2 v (hvisits ▸ hv) with hbound | hall
      · exact .inl hbound
      · obtain ⟨depth, i, item, start, selection, relations, hs⟩ := v
        have hshort : hs.length < relations.length := by simpa [History.tree] using hcut
        exact absurd hall (Nat.ne_of_lt hshort)
    | true =>
      right
      rcases hexplained.gaveOut hg' with ⟨-, -, e, hlast, hout⟩ | ⟨-, w, hw, hdepth, hmore, hfree⟩
      · left
        refine ⟨e, ?_, hout⟩
        rw [hexplained.log, List.getLast?_append, List.getLast?_append, hlast]
        rfl
      · right
        rw [hvisits] at hw
        exact ⟨_, mem_levels_wrap.mpr (.inr ⟨w, hw, rfl⟩), hdepth,
          (History.further_tree_iff w).mpr hmore, hfree⟩

/-- A tree is well grown if a history explains how it was grown. -/
theorem wellGrown_of_explains (hd : ∀ d, plan.maxDepth = some d → 1 ≤ d) (hroom : plan.room ≠ 0)
    (hexplained : Grow.Explains direction plan.maxDepth plan.room 1 g g' [h] tail)
    (hasked : g.resolver.2 = [.prepared file offset (.ok items)]) (hid : g.nextId = 1) :
    plan.WellGrown direction g'.resolver.2 (plan.site.wrap (h.tree 1)) where
  root := ⟨rfl, _, rfl⟩
  numbered := numbered_wrap plan.site h
  reported := by
    rw [reports_eq hexplained hasked, List.length_map, History.length_visits, count_wrap]
  agrees := by
    intro n hn hne
    rw [walk_wrap, List.mem_cons, List.mem_map] at hn
    rcases hn with rfl | ⟨v, hv, rfl⟩
    · exact absurd rfl hne
    · exact History.agrees_tree (reports_eq hexplained hasked) hexplained.follow.1 hv
  bounded := by
    intro d hmax level hlevel
    have hfollows : h.Follows (some d) 1 := hmax ▸ hexplained.follow.1
    rcases mem_levels_wrap.mp hlevel with rfl | ⟨v, hv, rfl⟩
    · exact Nat.zero_le d
    · exact History.depth_le_of_mem_visits (hd d hmax) h hfollows hv
  quiet := not_ranOut_of_mem_dropLast hexplained hasked
  noRoom _ hlevel hcramps := last_of_cramps hroom hid hexplained hlevel hcramps
  cut _ hlevel hne hcut := gaveOut_of_truncated hid hexplained hlevel hne hcut

end

/-- **Grown hierarchies are well grown**: whatever the resolver answers, remembers or refuses, and
however much room there is on the stack. The record of the questions is the one that the recording
resolver makes. -/
theorem grow_wellGrown {σ : Type} (plan : HierarchyPlan) (r : Resolver σ) (direction : Direction)
    (state : σ) (hd : ∀ d, plan.maxDepth = some d → 1 ≤ d) {t : Tree}
    (ht : (plan.grow r direction state).1.tree = some t) :
    ∃ log, plan.grow r.recorded direction (state, []) =
        ((plan.grow r direction state).1, ((plan.grow r direction state).2, log)) ∧
      plan.WellGrown direction log t := by
  obtain ⟨hsame, hstate⟩ := plan.grow_recorded r direction state []
  refine ⟨(plan.grow r.recorded direction (state, [])).2.2,
    Prod.ext hsame (Prod.ext hstate rfl), ?_⟩
  rw [← hsame] at ht
  have hasked := run_recordedAnswer (.prepared plan.site.file plan.site.position.start)
    (r.prepare plan.site.file plan.site.position.start) state []
  generalize (r.prepare plan.site.file plan.site.position.start).run.run state = p at hasked
  obtain ⟨e | (_ | ⟨item, others⟩), state₁⟩ := p
  · rw [grow_of_error (r := r.recorded) direction hasked] at ht
    cases ht
  · rw [grow_of_nil (r := r.recorded) direction hasked] at ht
    cases ht
  · obtain ⟨choice, hgrow, -⟩ := grow_of_cons (r := r.recorded) direction hasked
    rw [hgrow] at ht ⊢
    obtain ⟨subtree, g, hrun, rfl, hlog⟩ := growFrom_tree_eq_some ht
    rw [hlog]
    -- a visit without room gives no tree
    have hroom : plan.room ≠ 0 := by
      intro hzero
      rw [hzero, Grow.exec_visit_zero] at hrun
      cases hrun
    obtain ⟨room, hsucc⟩ := Nat.exists_eq_succ_of_ne_zero hroom
    rw [hsucc] at hrun
    obtain ⟨h, tail, -, rfl, hexplained⟩ := Grow.exec_visit_history rfl hrun
    rw [Nat.add_comm 1 room, ← Nat.succ_eq_add_one, ← hsucc] at hexplained
    exact wellGrown_of_explains hd hroom hexplained rfl rfl

/-- A resolver that counts the questions it was asked and runs out of stack at the one with number
`limit`. Every declaration calls `a`, `b` and `c`, but for `a`, which calls nothing. -/
def counting (limit : Nat) : Resolver Nat where
  prepare _ _ := answered [declaration "main"]
  outgoing item := answered (if item.name = "a" then [] else
    [⟨declaration "a", [3]⟩, ⟨declaration "b", [5]⟩, ⟨declaration "c", [8]⟩])
  incoming _ := answered []
  lineColumn _ offset := answered ⟨0, offset⟩
where
  declaration (name : String) : Item := { file := {}, name, kind := "function" }
  answered {α : Type} (answer : α) : Answer Nat α := ExceptT.mk fun n =>
    (if n = limit then .error .stackExhausted else .ok answer, n + 1)

/-- The call of `main` that the hierarchy starts at, with a bound on the depth. -/
def fromMain : HierarchyPlan where
  site := { file := {}, called := "main", span := ⟨1, 0, 0, 4⟩, position := ⟨1, 0, 0, 4⟩ }
  maxDepth := some 3
  room := 3

/-- The tree when the stack gives out at the place of `b`: its parent keeps `a`, and `c` is not
begun. -/
def cutBeforeB : Tree :=
  let data (i : Int) (name : String) : NodeData :=
    { id := i, file := {}, name, kind := "function", range := ⟨1, 0⟩, selection := ⟨1, 0⟩ }
  .node { data 0 "main" with further := true }
    [.node { data 1 "main" with further := true, truncated := true } [.node (data 2 "a") []]]

/-- The number that `b` had taken is not missed, and nothing was asked after the eighth question,
which failed. -/
theorem grow_wellGrown_cutBeforeB :
    (∀ d, fromMain.maxDepth = some d → 1 ≤ d) ∧
      (fromMain.grow (counting 7) .outgoing 0).1.tree = some cutBeforeB ∧
      ∃ log, (fromMain.grow (counting 7).recorded .outgoing (0, [])).2 = (8, log) ∧
        fromMain.WellGrown .outgoing log cutBeforeB := by
  have hd : ∀ d, fromMain.maxDepth = some d → 1 ≤ d := by
    intro d h
    cases h
    decide
  have ht : (fromMain.grow (counting 7) .outgoing 0).1.tree = some cutBeforeB := by rfl
  have hasked : (fromMain.grow (counting 7) .outgoing 0).2 = 8 := by rfl
  obtain ⟨log, hrecord, hgrown⟩ := grow_wellGrown fromMain (counting 7) .outgoing 0 hd ht
  refine ⟨hd, ht, log, ?_, hgrown⟩
  rw [hrecord, hasked]

end HierarchyPlan

end CallAtlas
