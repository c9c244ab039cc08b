import CallAtlas.Proofs.Growth.History

/-!
# Hierarchies of resolvers that always answer

A resolver whose answers depend on nothing but the question is known by the `Facts` that it tells.
What a plan with a bound on the depth grows from it is then the *unfolding* of the reported
relations: every relation is followed, level by level, down to the bound, and recursion in the
program is unfolded like everything else. All this as far as the stack reaches: the relations that
are followed have to *fit* on it (`Facts.Fits`), as they do if the bound is not larger than the room
there.

- `Facts.unfolding`: the unfolding of a declaration for a number of levels, as a history;
- `Grow.exec_visit_of_tellsOf`: a visit gives the tree of the unfolding. The resolver need only know
  the declarations that it meets on the way;
- `HierarchyPlan.grow_upTo`: the tree that a plan grows, in one equation;
- `HierarchyPlan.growFrom_of_selfFirst`: under a bound beyond the stack, a declaration that calls
  itself before anything else hides all that it calls later;
- `Tree.descend` and `Facts.follow` walk down the same path, in the tree and along the relations.
  The node at the end of the one shows the declaration at the end of the other
  (`Facts.exists_follow_of_descend`, `Facts.exists_descend_of_follow`).
-/

namespace CallAtlas

/-- What a resolver tells, if it tells the same every time. -/
structure Facts where
  prepared : Path → Int → List Item
  related : Direction → Item → List Relation
  place : Path → Int → LineColumn

variable {σ : Type} {r : Resolver σ} {facts : Facts} {direction : Direction}

/-- A resolver tells the facts about the declarations that it knows: it answers every question about
them, in whatever state it is, and reports only declarations that it knows. -/
structure Resolver.TellsOf (r : Resolver σ) (facts : Facts) (known : Item → Prop) : Prop where
  expand : ∀ direction item state, known item →
    ((r.expand direction item).run.run state).1 = .ok (facts.related direction item)
  start : ∀ item state, known item →
    ((r.lineColumn item.file item.spanStart).run.run state).1 =
      .ok (facts.place item.file item.spanStart)
  selection : ∀ item state, known item →
    ((r.lineColumn item.file item.selectionStart).run.run state).1 =
      .ok (facts.place item.file item.selectionStart)
  closed : ∀ direction item, known item →
    ∀ relation ∈ facts.related direction item, known relation.item

/-- A resolver tells the facts: it answers every question, in whatever state it is. -/
structure Resolver.Tells (r : Resolver σ) (facts : Facts) : Prop where
  prepare : ∀ file offset state,
    ((r.prepare file offset).run.run state).1 = .ok (facts.prepared file offset)
  expand : ∀ direction item state,
    ((r.expand direction item).run.run state).1 = .ok (facts.related direction item)
  lineColumn : ∀ file offset state,
    ((r.lineColumn file offset).run.run state).1 = .ok (facts.place file offset)

theorem Resolver.Tells.tellsOf (h : r.Tells facts) : r.TellsOf facts fun _ => True where
  expand direction item state _ := h.expand direction item state
  start _ state _ := h.lineColumn _ _ state
  selection _ state _ := h.lineColumn _ _ state
  closed _ _ _ _ _ := trivial

namespace Facts

/-- The resolver that tells the facts and remembers nothing. -/
def resolver (facts : Facts) : Resolver Unit where
  prepare file offset := pure (facts.prepared file offset)
  outgoing item := pure (facts.related .outgoing item)
  incoming item := pure (facts.related .incoming item)
  lineColumn file offset := pure (facts.place file offset)

theorem tells_resolver (facts : Facts) : facts.resolver.Tells facts where
  prepare _ _ _ := rfl
  expand direction _ _ := by
    cases direction with
    | outgoing => rfl
    | incoming => rfl
  lineColumn _ _ _ := rfl

/-- The unfolding of a declaration, with a number of levels below it. -/
def unfolding (facts : Facts) (direction : Direction) : Nat → Item → History
  | 0, item =>
    .node item (facts.place item.file item.spanStart) (facts.place item.file item.selectionStart)
      (facts.related direction item) []
  | levels + 1, item =>
    .node item (facts.place item.file item.spanStart) (facts.place item.file item.selectionStart)
      (facts.related direction item)
      ((facts.related direction item).map fun relation =>
        facts.unfolding direction levels relation.item)

/-- The data of the root of an unfolding: it is cut exactly if there are relations and no levels for
them. -/
def rootData (facts : Facts) (direction : Direction) (levels i : Nat) (item : Item) : NodeData :=
  { Grow.nodeData i item (facts.place item.file item.spanStart)
      (facts.place item.file item.selectionStart) with
    further := !(facts.related direction item).isEmpty
    truncated := decide (levels = 0) && !(facts.related direction item).isEmpty }

/-- The data of a node some of whose relations may have been left out. -/
def nodeData (facts : Facts) (direction : Direction) (i : Nat) (item : Item)
    (missing : Bool) : NodeData :=
  { facts.rootData direction 0 i item with truncated := missing }

/-- With levels below it nothing is missing at the root. -/
theorem rootData_succ (facts : Facts) (direction : Direction) (levels i : Nat) (item : Item) :
    facts.rootData direction (levels + 1) i item = facts.nodeData direction i item false := by
  simp [rootData, nodeData]

theorem tree_unfolding_zero (i : Nat) (item : Item) :
    (facts.unfolding direction 0 item).tree i = .node (facts.rootData direction 0 i item) [] := by
  rw [unfolding, rootData, ← Grow.tree_of_bounded]
  rfl

theorem tree_unfolding_succ (levels i : Nat) (item : Item) :
    (facts.unfolding direction (levels + 1) item).tree i =
      .node (facts.rootData direction (levels + 1) i item)
        (History.trees (i + 1) ((facts.related direction item).map fun relation =>
          facts.unfolding direction levels relation.item)) := by
  rw [unfolding, rootData, History.tree]
  simp

/-- Whatever number of levels is below it, the root shows its declaration. -/
@[simp] theorem data_tree_unfolding (facts : Facts) (direction : Direction) (levels i : Nat)
    (item : Item) :
    ((facts.unfolding direction levels item).tree i).data =
      facts.rootData direction levels i item := by
  cases levels with
  | zero => rw [tree_unfolding_zero, Tree.data_node]
  | succ levels => rw [tree_unfolding_succ, Tree.data_node]

/-- The declaration at the end of a path, which gives the number of a relation at each step. -/
def follow (facts : Facts) (direction : Direction) : Item → List Nat → Option Item
  | item, [] => some item
  | item, step :: path =>
    ((facts.related direction item)[step]?).bind fun relation =>
      facts.follow direction relation.item path

/-- The declarations that are met under a bound on the depth fit on a stack: each of them is reached
within the room there. -/
def Fits (facts : Facts) (direction : Direction) (room bound : Nat) (item : Item) : Prop :=
  ∀ path, (facts.follow direction item path).isSome = true → path.length < bound →
    path.length < room

/-- A bound within the room of the stack leaves nothing to ask for. -/
theorem fits_of_le {room bound : Nat} (h : bound ≤ room) (item : Item) :
    facts.Fits direction room bound item :=
  fun _ _ hbound => Nat.lt_of_lt_of_le hbound h

/-- What fits has room for itself. -/
theorem Fits.room_pos {room levels : Nat} {item : Item}
    (h : facts.Fits direction room (levels + 1) item) :
    0 < room := h [] rfl (Nat.succ_pos levels)

theorem Fits.mono {room bound bound' : Nat} {item : Item}
    (h : facts.Fits direction room bound' item)
    (hle : bound ≤ bound') : facts.Fits direction room bound item :=
  fun path hpath hbound => h path hpath (Nat.lt_of_lt_of_le hbound hle)

/-- Below a declaration one level less has to fit. -/
theorem Fits.of_related {room bound : Nat} {item : Item}
    (h : facts.Fits direction (room + 1) (bound + 1) item)
    {relation : Relation} (hrelation : relation ∈ facts.related direction item) :
    facts.Fits direction room bound relation.item := by
  intro path hpath hbound
  obtain ⟨step, hstep⟩ := List.mem_iff_getElem?.mp hrelation
  have hfollow : (facts.follow direction item (step :: path)).isSome = true := by
    rw [follow, hstep, Option.bind_some, hpath]
  exact Nat.lt_of_succ_lt_succ (h (step :: path) hfollow (Nat.succ_lt_succ hbound))

end Facts

/-! ## The growth of an unfolding -/

namespace Grow

variable {known : Item → Prop}

/-- A question that is answered leaves everything but the resolver as it is. -/
theorem exec_ask_of_answer {α : Type} {question : Answer σ α} {a : α}
    (h : ∀ state, (question.run.run state).1 = .ok a) (g : Growth σ) :
    ∃ g', exec (ask question) g = (.ok a, g') ∧ g'.nextId = g.nextId ∧
      g'.exhausted = g.exhausted := by
  refine ⟨{ g with resolver := (question.run.run g.resolver).2 }, ?_, rfl, rfl⟩
  rw [exec_ask, h]

theorem exec_dataOf_of_tellsOf (h : r.TellsOf facts known) {item : Item} (hitem : known item)
    (g : Growth σ) :
    ∃ g', exec (dataOf r item) g = (.ok (nodeData g.nextId item
        (facts.place item.file item.spanStart) (facts.place item.file item.selectionStart)), g') ∧
      g'.nextId = g.nextId + 1 ∧ g'.exhausted = g.exhausted := by
  obtain ⟨g₁, h₁, hid₁, hex₁⟩ := exec_ask_of_answer (fun state => h.start item state hitem)
    { g with nextId := g.nextId + 1 }
  obtain ⟨g₂, h₂, hid₂, hex₂⟩ := exec_ask_of_answer (fun state => h.selection item state hitem) g₁
  refine ⟨g₂, ?_, hid₂.trans hid₁, hex₂.trans hex₁⟩
  rw [exec_dataOf, h₁, andThen_ok, h₂, andThen_ok]

/-- A visit whose questions are answered: the node gets its number, and unless the bound on the
depth is reached its children are looked for. -/
theorem exec_visit_of_answers (h : r.TellsOf facts known) {item : Item} (hitem : known item)
    (direction : Direction) (maxDepth : Option Nat) (room depth : Nat) (g : Growth σ) :
    ∃ g₁ : Growth σ, g₁.nextId = g.nextId + 1 ∧ g₁.exhausted = g.exhausted ∧
      exec (visit r direction maxDepth (room + 1) depth item) g =
        if maxDepth.any (· ≤ depth) then
          (.ok (.node (facts.rootData direction 0 g.nextId item) []), g₁)
        else
          andThen (exec (childrenOf (visit r direction maxDepth room (depth + 1))
            (facts.related direction item)) g₁) fun (children, missing) g₂ =>
              (.ok (.node (facts.nodeData direction g.nextId item missing) children), g₂) := by
  obtain ⟨g₁, h₁, hid₁, hex₁⟩ := exec_dataOf_of_tellsOf h hitem { g with current := some item }
  obtain ⟨g₂, h₂, hid₂, hex₂⟩ :=
    exec_ask_of_answer (fun state => h.expand direction item state hitem) g₁
  refine ⟨g₂, hid₂.trans hid₁, hex₂.trans hex₁, ?_⟩
  rw [exec_visit, h₁, andThen_ok, h₂, andThen_ok]
  rfl

/-- If the visit of every related declaration gives the tree of a history, the children are the
trees of those histories, numbered one after the other, and none is missing. -/
theorem exec_childrenOf_of_visits (visit : Item → Grow σ Tree) (history : Item → History)
    {relations : List Relation}
    (hvisit : ∀ relation ∈ relations, ∀ g : Growth σ, g.exhausted = false →
      ∃ g', exec (visit relation.item) g = (.ok ((history relation.item).tree g.nextId), g') ∧
        g'.nextId = g.nextId + (history relation.item).size ∧ g'.exhausted = false)
    {g : Growth σ} (hg : g.exhausted = false) :
    ∃ g', exec (childrenOf visit relations) g =
        (.ok (History.trees g.nextId (relations.map fun relation => history relation.item), false),
          g') ∧
      g'.nextId = g.nextId +
        History.sizeOfAll (relations.map fun relation => history relation.item) ∧
      g'.exhausted = false := by
  induction relations generalizing g with
  | nil => exact ⟨g, rfl, rfl, hg⟩
  | cons relation rest ih =>
    obtain ⟨g₁, h₁, hid₁, hg₁⟩ := hvisit relation List.mem_cons_self g hg
    obtain ⟨g₂, h₂, hid₂, hg₂⟩ :=
      ih (fun relation' h => hvisit relation' (List.mem_cons_of_mem _ h)) hg₁
    refine ⟨g₂, ?_, ?_, hg₂⟩
    · rw [exec_childrenOf_cons visit relation rest hg, h₁]
      simp only [h₂, andThen_ok]
      rw [hid₁, List.map_cons, History.trees]
    · rw [hid₂, hid₁, List.map_cons, History.sizeOfAll, Nat.add_assoc]

/-- **A visit unfolds a declaration** down to the bound on the depth, if that fits on the stack.
Induction on the levels below the declaration. -/
theorem exec_visit_of_tellsOf (h : r.TellsOf facts known) (direction : Direction) (depth : Nat)
    {levels room : Nat} {item : Item} (hfits : facts.Fits direction room (levels + 1) item)
    (hitem : known item) {g : Growth σ} (hg : g.exhausted = false) :
    ∃ g', exec (visit r direction (some (depth + levels)) room depth item) g =
        (.ok ((facts.unfolding direction levels item).tree g.nextId), g') ∧
      g'.nextId = g.nextId + (facts.unfolding direction levels item).size ∧
      g'.exhausted = false := by
  induction levels generalizing depth item g room with
  | zero =>
    obtain ⟨room, rfl⟩ := Nat.exists_eq_succ_of_ne_zero (Nat.ne_of_gt hfits.room_pos)
    obtain ⟨g₁, hid₁, hex₁, hrun⟩ :=
      exec_visit_of_answers h hitem direction (some (depth + 0)) room depth g
    have hbound : (some (depth + 0)).any (fun bound => decide (bound ≤ depth)) = true := by simp
    rw [if_pos hbound, ← Facts.tree_unfolding_zero] at hrun
    exact ⟨g₁, hrun, hid₁, hex₁.trans hg⟩
  | succ levels ih =>
    obtain ⟨room, rfl⟩ := Nat.exists_eq_succ_of_ne_zero (Nat.ne_of_gt hfits.room_pos)
    rw [show depth + (levels + 1) = depth + 1 + levels by omega]
    obtain ⟨g₁, hid₁, hex₁, hrun⟩ :=
      exec_visit_of_answers h hitem direction (some (depth + 1 + levels)) room depth g
    have hfree : ¬(some (depth + 1 + levels)).any (fun bound => decide (bound ≤ depth)) = true := by
      simp only [Option.any_some, decide_eq_true_eq]
      omega
    obtain ⟨g₂, h₂, hid₂, hg₂⟩ := exec_childrenOf_of_visits
      (visit r direction (some (depth + 1 + levels)) room (depth + 1))
      (facts.unfolding direction levels)
      (fun relation hrelation g hg => ih (depth + 1) (hfits.of_related hrelation)
        (h.closed direction item hitem relation hrelation) hg)
      (hex₁.trans hg)
    refine ⟨g₂, ?_, ?_, hg₂⟩
    · rw [hrun, if_neg hfree, h₂, andThen_ok, Facts.tree_unfolding_succ, hid₁,
        Facts.rootData_succ]
    · rw [hid₂, hid₁, Facts.unfolding, History.size]
      omega

end Grow

namespace HierarchyPlan

/-- The plan for a call site with a bound on the depth. -/
def upTo (site : CallSite) (bound room : Nat) : HierarchyPlan where
  site := site
  maxDepth := some bound
  room := room

/-- Every positive bound is accepted. -/
theorem make_eq_upTo (site : CallSite) {bound : Nat} (h : 1 ≤ bound) (room : Nat) :
    make site (some bound) room = .ok (upTo site bound room) := by
  have hpos : ¬(bound : Int) < 1 := by omega
  simp only [make, if_neg hpos]
  rfl

/-- What grows below a declaration is its unfolding. -/
theorem growFrom_upTo {known : Item → Prop} (h : r.TellsOf facts known) (site : CallSite)
    {levels room : Nat} {item : Item} (hfits : facts.Fits direction room (levels + 1) item)
    (hitem : known item) (state : σ) :
    ((upTo site (levels + 1) room).growFrom r direction item state).1.tree =
      some (site.wrap ((facts.unfolding direction levels item).tree 1)) := by
  obtain ⟨g, hrun, -, -⟩ := Grow.exec_visit_of_tellsOf h direction 1 hfits hitem
    (g := { resolver := state }) rfl
  rw [Nat.add_comm 1 levels] at hrun
  unfold Grow.exec at hrun
  have hrun' :
      (Grow.visit r direction (upTo site (levels + 1) room).maxDepth
        (upTo site (levels + 1) room).room
      1 item).run.run { resolver := state } =
        (.ok ((facts.unfolding direction levels item).tree 1), g) := hrun
  rw [growFrom, hrun']
  rfl

/-- What grows from a call site is what grows below the first declaration that is found there, and
nothing if there is none. -/
theorem tree_grow_of_tells (h : r.Tells facts) (plan : HierarchyPlan)
    (direction : Direction) (state : σ) :
    ∃ state', (plan.grow r direction state).1.tree =
      (facts.prepared plan.site.file plan.site.position.start).head?.bind fun item =>
        (plan.growFrom r direction item state').1.tree := by
  have hfound := h.prepare plan.site.file plan.site.position.start state
  rcases hanswer :
    (r.prepare plan.site.file plan.site.position.start).run.run state with ⟨answer, state₁⟩
  rw [hanswer] at hfound
  subst hfound
  refine ⟨state₁, ?_⟩
  cases hitems : facts.prepared plan.site.file plan.site.position.start with
  | nil =>
    rw [hitems] at hanswer
    rw [grow_of_nil direction hanswer]
    rfl
  | cons item others =>
    rw [hitems] at hanswer
    obtain ⟨choice, hgrow, -⟩ := grow_of_cons direction hanswer
    rw [hgrow]
    rfl

/-- **The tree of a plan**: the first declaration that is found at the call site, unfolded down to
the bound if that fits on the stack. There is none exactly if none is found. -/
theorem grow_upTo (h : r.Tells facts) (site : CallSite) (direction : Direction)
    (levels : Nat) {room : Nat}
    (hfits : ∀ item ∈ (facts.prepared site.file site.position.start).head?,
      facts.Fits direction room (levels + 1) item) (state : σ) :
    ((upTo site (levels + 1) room).grow r direction state).1.tree =
      (facts.prepared site.file site.position.start).head?.map fun item =>
        site.wrap ((facts.unfolding direction levels item).tree 1) := by
  obtain ⟨state', htree⟩ := tree_grow_of_tells h (upTo site (levels + 1) room) direction state
  rw [htree, show (upTo site (levels + 1) room).site = site from rfl]
  cases hitem : (facts.prepared site.file site.position.start).head? with
  | none => rfl
  | some item =>
    rw [Option.bind_some, Option.map_some]
    exact growFrom_upTo h.tellsOf site (hfits item hitem) trivial state'

end HierarchyPlan

/-! ## Running out of stack -/

/-- A declaration calls itself first, and then something else. -/
def Facts.SelfFirst (facts : Facts) (direction : Direction) (item : Item) : Prop :=
  ∃ first next rest, facts.related direction item = first :: next :: rest ∧ first.item = item

theorem Facts.selfFirst_of_items {item other : Item} {others : List Item}
    (h : (facts.related direction item).map Relation.item = item :: other :: others) :
    facts.SelfFirst direction item := by
  obtain ⟨first, tail, hrelated, hfirst, htail⟩ := List.map_eq_cons_iff.mp h
  obtain ⟨next, rest, rfl, -, -⟩ := List.map_eq_cons_iff.mp htail
  exact ⟨first, next, rest, hrelated, hfirst⟩

/-- A declaration below itself, for a number of levels. All nodes are marked. -/
def Facts.lineage (facts : Facts) (direction : Direction) (item : Item) : Nat → Nat → Tree
  | 0, i => .node (facts.nodeData direction i item true) []
  | levels + 1, i =>
    .node (facts.nodeData direction i item true) [facts.lineage direction item levels (i + 1)]

namespace Grow

variable {known : Item → Prop} {item : Item}

/-- A visit above the bound on the depth: the node has the children that are found. -/
theorem exec_visit_of_childrenOf (h : r.TellsOf facts known) (hitem : known item)
    {maxDepth : Option Nat}
    {room depth : Nat} (hdepth : ∀ bound ∈ maxDepth, depth < bound) {children : List Tree}
    {missing : Bool} {g : Growth σ} (hg : g.exhausted = false)
    (hchildren : ∀ g₁ : Growth σ, g₁.nextId = g.nextId + 1 → g₁.exhausted = false → ∃ g',
      exec (childrenOf (visit r direction maxDepth room (depth + 1))
        (facts.related direction item)) g₁ = (.ok (children, missing), g') ∧
      g'.exhausted = true) :
    ∃ g', exec (visit r direction maxDepth (room + 1) depth item) g =
      (.ok (.node (facts.nodeData direction g.nextId item missing) children), g') ∧
      g'.exhausted = true := by
  obtain ⟨g₁, hid₁, hex₁, hrun⟩ :=
    exec_visit_of_answers h hitem direction maxDepth room depth g
  obtain ⟨g', hfound, hex⟩ := hchildren g₁ hid₁ (hex₁.trans hg)
  have hfree : ¬maxDepth.any (fun bound => decide (bound ≤ depth)) = true := by
    rw [Option.any_eq_true]
    rintro ⟨bound, hmem, hle⟩
    exact absurd (of_decide_eq_true hle) (Nat.not_le_of_lt (hdepth bound hmem))
  refine ⟨g', ?_, hex⟩
  rw [hrun, if_neg hfree, hfound, andThen_ok]

/-- **Recursion hides what stands behind it.** A declaration that calls itself first is visited
again and again until the stack gives out, and after that none of its other relations is followed,
on whatever level. Induction on the room. -/
theorem exec_visit_of_selfFirst (h : r.TellsOf facts known) (hitem : known item)
    (hself : facts.SelfFirst direction item) {maxDepth : Option Nat} {room depth : Nat}
    (hbound : ∀ bound ∈ maxDepth, depth + room < bound) {g : Growth σ} (hg : g.exhausted = false) :
    ∃ g', exec (visit r direction maxDepth (room + 1) depth item) g =
      (.ok (facts.lineage direction item room g.nextId), g') ∧ g'.exhausted = true := by
  obtain ⟨first, next, rest, hrelated, hfirst⟩ := hself
  have hdepth : ∀ bound ∈ maxDepth, depth < bound := fun bound hmem =>
    Nat.lt_of_le_of_lt (Nat.le_add_right depth room) (hbound bound hmem)
  induction room generalizing depth g with
  | zero =>
    refine exec_visit_of_childrenOf h hitem hdepth hg fun g₁ _ hg₁ =>
      ⟨{ g₁ with exhausted := true }, ?_, rfl⟩
    rw [exec_childrenOf_visit_zero _ _ _ _ _ hg₁, hrelated]
    rfl
  | succ room ih =>
    refine exec_visit_of_childrenOf h hitem hdepth hg fun g₁ hid hg₁ => ?_
    have hbelow : ∀ bound ∈ maxDepth, depth + 1 + room < bound := fun bound hmem =>
      Nat.succ_add_eq_add_succ depth room ▸ hbound bound hmem
    obtain ⟨g₂, hrun, hex⟩ := ih hbelow hg₁ fun bound hmem =>
      Nat.lt_of_le_of_lt (Nat.le_add_right (depth + 1) room) (hbelow bound hmem)
    refine ⟨g₂, ?_, hex⟩
    rw [hrelated, exec_childrenOf_cons _ first _ hg₁, hfirst, hrun]
    simp only
    rw [exec_childrenOf_of_exhausted _ next rest hex, andThen_ok, hid]

/-- A declaration that leads to nothing but one that calls itself first. -/
theorem exec_visit_of_leads (h : r.TellsOf facts known) (hitem : known item) {only : Relation}
    (hrelated : facts.related direction item = [only]) (hself : facts.SelfFirst direction only.item)
    {maxDepth : Option Nat} {room depth : Nat}
    (hbound : ∀ bound ∈ maxDepth, depth + 1 + room < bound)
    {g : Growth σ} (hg : g.exhausted = false) :
    ∃ g', exec (visit r direction maxDepth (room + 1 + 1) depth item) g =
      (.ok (.node (facts.nodeData direction g.nextId item false)
        [facts.lineage direction only.item room (g.nextId + 1)]), g') ∧ g'.exhausted = true := by
  have hdepth : ∀ bound ∈ maxDepth, depth < bound := fun bound hmem => by
    have := hbound bound hmem
    omega
  refine exec_visit_of_childrenOf h hitem hdepth hg fun g₁ hid hg₁ => ?_
  have hknown : known only.item :=
    h.closed direction item hitem only (by rw [hrelated]; exact List.mem_singleton_self _)
  obtain ⟨g₂, hrun, hex⟩ := exec_visit_of_selfFirst h hknown hself hbound hg₁
  refine ⟨g₂, ?_, hex⟩
  rw [hrelated, exec_childrenOf_cons _ only _ hg₁, hrun, hid]
  rfl

end Grow

namespace HierarchyPlan

variable {known : Item → Prop} {item : Item} {plan : HierarchyPlan}

theorem growFrom_of_exec {subtree : Tree} {state : σ}
    (h : ∃ g', Grow.exec (Grow.visit r direction plan.maxDepth plan.room 1 item)
      { resolver := state } =
        (.ok subtree, g') ∧ g'.exhausted = true) :
    (plan.growFrom r direction item state).1.tree = some (plan.site.wrap subtree) := by
  obtain ⟨g, hrun, -⟩ := h
  unfold Grow.exec at hrun
  rw [growFrom, hrun]
  rfl

/-- Under a bound beyond the stack, or under none, a declaration that calls itself first shows
nothing but itself. -/
theorem growFrom_of_selfFirst (h : r.TellsOf facts known) (hitem : known item)
    (hself : facts.SelfFirst direction item) (hroom : 0 < plan.room)
    (hbound : ∀ bound ∈ plan.maxDepth, plan.room < bound) (state : σ) :
    (plan.growFrom r direction item state).1.tree =
      some (plan.site.wrap (facts.lineage direction item (plan.room - 1) 1)) := by
  obtain ⟨room, hroom⟩ := Nat.exists_eq_add_one.mpr hroom
  refine growFrom_of_exec ?_
  rw [hroom, Nat.add_sub_cancel]
  rw [hroom, Nat.add_comm] at hbound
  exact Grow.exec_visit_of_selfFirst h hitem hself hbound rfl

/-- One that leads to nothing else shows it below itself. -/
theorem growFrom_of_leads (h : r.TellsOf facts known) (hitem : known item) {only : Relation}
    (hrelated : facts.related direction item = [only]) (hself : facts.SelfFirst direction only.item)
    (hroom : 1 < plan.room) (hbound : ∀ bound ∈ plan.maxDepth, plan.room < bound) (state : σ) :
    (plan.growFrom r direction item state).1.tree =
      some (plan.site.wrap (.node (facts.nodeData direction 1 item false)
        [facts.lineage direction only.item (plan.room - 2) 2])) := by
  obtain ⟨room, hroom⟩ : ∃ room, plan.room = room + 1 + 1 := ⟨plan.room - 2, by omega⟩
  refine growFrom_of_exec ?_
  rw [hroom, show room + 1 + 1 - 2 = room by omega]
  rw [hroom] at hbound
  exact Grow.exec_visit_of_leads h hitem hrelated hself
    (fun bound hmem => by have := hbound bound hmem; omega) rfl

end HierarchyPlan

namespace Facts

/-- All nodes of a lineage show the same declaration. -/
theorem data_of_mem_lineage {item : Item} {levels i : Nat} {n : Tree}
    (h : n ∈ (facts.lineage direction item levels i).preorder) :
    ∃ j, n.data = facts.nodeData direction j item true := by
  induction levels generalizing i with
  | zero =>
    rcases Tree.mem_preorder_iff.mp h with rfl | ⟨c, hc, -⟩
    · exact ⟨i, rfl⟩
    · cases hc
  | succ levels ih =>
    rcases Tree.mem_preorder_iff.mp h with rfl | ⟨c, hc, hn⟩
    · exact ⟨i, rfl⟩
    · obtain rfl := List.mem_singleton.mp hc
      exact ih hn

end Facts

/-! ## Paths -/

namespace Tree

/-- The nodes of a tree are those at the ends of its paths. -/
theorem mem_preorder_iff_descend {t n : Tree} :
    n ∈ t.preorder ↔ ∃ path, t.descend path = some n := by
  constructor
  · intro hn
    induction t using induct with
    | node d cs ih =>
      rcases mem_preorder_iff.mp hn with rfl | ⟨c, hc, hnc⟩
      · exact ⟨[], rfl⟩
      · obtain ⟨step, hstep⟩ := List.mem_iff_getElem?.mp hc
        obtain ⟨path, hpath⟩ := ih c hc hnc
        refine ⟨step :: path, ?_⟩
        rw [descend, hstep, Option.bind_some, hpath]
  · rintro ⟨path, hpath⟩
    induction path generalizing t with
    | nil =>
      cases hpath
      exact self_mem_preorder _
    | cons step path ih =>
      obtain ⟨c, hc, hpath⟩ := Option.bind_eq_some_iff.mp hpath
      exact mem_preorder_of_mem_children (List.mem_of_getElem? hc) (ih hpath)

end Tree

theorem History.getElem?_trees (i : Nat) (hs : List History) (step : Nat) :
    (History.trees i hs)[step]? =
      (hs[step]?).map fun h => h.tree (i + sizeOfAll (hs.take step)) := by
  induction hs generalizing i step with
  | nil => simp [trees]
  | cons h hs ih =>
    cases step with
    | zero => simp [trees, sizeOfAll]
    | succ step =>
      rw [trees, List.getElem?_cons_succ, List.getElem?_cons_succ, ih,
        List.take_succ_cons, sizeOfAll, Nat.add_assoc]

namespace Facts

/-- The children of an unfolding are the unfoldings of the related declarations, with one level
less. -/
theorem getElem?_children_unfolding (facts : Facts) (direction : Direction) (levels i : Nat)
    (item : Item) (step : Nat) :
    ∃ j, ((facts.unfolding direction (levels + 1) item).tree i).children[step]? =
      ((facts.related direction item)[step]?).map fun relation =>
        (facts.unfolding direction levels relation.item).tree j := by
  refine ⟨i + 1 + History.sizeOfAll (((facts.related direction item).map fun relation =>
    facts.unfolding direction levels relation.item).take step), ?_⟩
  rw [tree_unfolding_succ, Tree.children_node, History.getElem?_trees, List.getElem?_map,
    Option.map_map]
  rfl

theorem exists_relation_of_mem_children {levels i : Nat} {item : Item} {c : Tree}
    (h : c ∈ ((facts.unfolding direction (levels + 1) item).tree i).children) :
    ∃ relation ∈ facts.related direction item, ∃ j,
      c = (facts.unfolding direction levels relation.item).tree j := by
  obtain ⟨step, hstep⟩ := List.mem_iff_getElem?.mp h
  obtain ⟨j, hj⟩ := facts.getElem?_children_unfolding direction levels i item step
  rw [hj] at hstep
  obtain ⟨relation, hrelation, rfl⟩ := Option.map_eq_some_iff.mp hstep
  exact ⟨relation, List.mem_of_getElem? hrelation, j, rfl⟩

theorem exists_mem_children_of_relation (levels i : Nat) {item : Item} {relation : Relation}
    (h : relation ∈ facts.related direction item) :
    ∃ j, (facts.unfolding direction levels relation.item).tree j ∈
      ((facts.unfolding direction (levels + 1) item).tree i).children := by
  obtain ⟨step, hstep⟩ := List.mem_iff_getElem?.mp h
  obtain ⟨j, hj⟩ := facts.getElem?_children_unfolding direction levels i item step
  rw [hstep, Option.map_some] at hj
  exact ⟨j, List.mem_of_getElem? hj⟩

/-- A node of an unfolding is the unfolding of the declaration at the end of its path, with the
levels that are left. -/
theorem exists_follow_of_descend {levels i : Nat} {item : Item} {path : List Nat} {n : Tree}
    (h : ((facts.unfolding direction levels item).tree i).descend path = some n) :
    path.length ≤ levels ∧ ∃ u j, facts.follow direction item path = some u ∧
      n = (facts.unfolding direction (levels - path.length) u).tree j := by
  induction path generalizing levels i item with
  | nil =>
    cases h
    exact ⟨Nat.zero_le _, item, i, rfl, rfl⟩
  | cons step path ih =>
    obtain ⟨c, hc, h⟩ := Option.bind_eq_some_iff.mp h
    cases levels with
    | zero =>
      rw [tree_unfolding_zero] at hc
      cases hc
    | succ levels =>
      obtain ⟨k, hk⟩ := facts.getElem?_children_unfolding direction levels i item step
      rw [hk] at hc
      obtain ⟨relation, hrelation, rfl⟩ := Option.map_eq_some_iff.mp hc
      obtain ⟨hlength, u, j, hfollow, rfl⟩ := ih h
      refine ⟨Nat.succ_le_succ hlength, u, j, ?_, ?_⟩
      · rw [follow, hrelation, Option.bind_some, hfollow]
      · rw [List.length_cons, Nat.add_sub_add_right]

/-- Every path along the relations that is not longer than the unfolding is deep leads to a node of
it. -/
theorem exists_descend_of_follow {levels : Nat} (i : Nat) {item u : Item} {path : List Nat}
    (h : facts.follow direction item path = some u) (hlength : path.length ≤ levels) :
    ∃ j, ((facts.unfolding direction levels item).tree i).descend path =
      some ((facts.unfolding direction (levels - path.length) u).tree j) := by
  induction path generalizing levels i item with
  | nil =>
    cases h
    exact ⟨i, rfl⟩
  | cons step path ih =>
    obtain ⟨relation, hrelation, h⟩ := Option.bind_eq_some_iff.mp h
    obtain ⟨levels, rfl⟩ : ∃ n, levels = n + 1 :=
      ⟨levels - 1, by rw [List.length_cons] at hlength; omega⟩
    obtain ⟨k, hk⟩ := facts.getElem?_children_unfolding direction levels i item step
    obtain ⟨j, hj⟩ := ih k h (Nat.le_of_succ_le_succ hlength)
    refine ⟨j, ?_⟩
    rw [Tree.descend, hk, hrelation, Option.map_some, Option.bind_some, hj, List.length_cons,
      Nat.add_sub_add_right]

end Facts

end CallAtlas
