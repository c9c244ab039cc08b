import CallAtlas.Proofs.Growth.History

/-!
# Plans that are carried out again and again

A plan may be carried out many times with a resolver that fails whenever it likes. What one build
remembers (the next number, whether the stack gave out, the declaration that was being expanded) is
still there when the next one begins. This module says that none of it matters, and which failures
cost a tree:

- `HierarchyPlan.exec_build`: whatever was remembered, a build reports what a plan that is carried
  out for the first time reports, and it never fails itself;
- `Grow.Asked`: a refusal is never survived, so a part of the growth is refused exactly if one of
  its questions was;
- `Grow.Guarded`: a stack that gives out costs a node only in one of the three questions about the
  node itself; further down it is caught by the parent of whatever was being visited.
-/

namespace CallAtlas

/-- A question put to a resolver. -/
inductive Question where
  | prepare (file : Path) (offset : Int)
  | expand (direction : Direction) (item : Item)
  | place (file : Path) (offset : Int)
deriving DecidableEq

/-- The questions about a declaration itself: its two places and its relations. -/
def Question.about (direction : Direction) (item : Item) : List Question :=
  [.place item.file item.spanStart, .place item.file item.selectionStart, .expand direction item]

namespace Exchange

def question : Exchange → Question
  | .prepared file offset _ => .prepare file offset
  | .expanded direction item _ => .expand direction item
  | .placed file offset _ => .place file offset

/-- How an answer failed, if it did. -/
def failureOf {α : Type} : Except Failure α → Option Failure
  | .error e => some e
  | .ok _ => none

/-- How the resolver failed to answer, if it did. -/
def failure? : Exchange → Option Failure
  | .prepared _ _ answer => failureOf answer
  | .expanded _ _ answer => failureOf answer
  | .placed _ _ answer => failureOf answer

end Exchange

variable {σ α β : Type}

theorem Resolver.lineColumn_recorded (r : Resolver σ) (file : Path) (offset : Int) :
    r.recorded.lineColumn file offset =
      recordedAnswer (.placed file offset) (r.lineColumn file offset) := rfl

namespace Grow

/-! ## Failures and questions -/

/-- The questions of a part of the growth that began with the record `log`: they were written down,
and the part was refused exactly if one of them was. -/
structure Asked (log : List Exchange) (p : Except Failure α × Growth (σ × List Exchange))
    (tail : List Exchange) : Prop where
  record : p.2.resolver.2 = log ++ tail
  refused : p.1 = .error .refused ↔ ∃ x ∈ tail, x.failure? = some .refused

/-- In addition, `first` is what is asked first, and a stack that gives out later is caught. -/
structure Guarded (first : List Question) (log : List Exchange)
    (p : Except Failure α × Growth (σ × List Exchange)) (tail : List Exchange) : Prop
    extends Asked log p tail where
  opening : (tail.take first.length).map Exchange.question <+: first
  exhausted : p.1 = .error .stackExhausted ↔
    ∃ x ∈ tail.take first.length, x.failure? = some .stackExhausted

section Asked

variable {g : Growth (σ × List Exchange)} {p : Except Failure α × Growth (σ × List Exchange)}
  {q : Except Failure β × Growth (σ × List Exchange)}
  {f : α → Growth (σ × List Exchange) → Except Failure β × Growth (σ × List Exchange)}
  {log tail tail' : List Exchange} {first : List Question}

theorem asked_of_ne_refused {outcome : Except Failure α} (h : outcome ≠ .error .refused) :
    Asked g.resolver.2 (outcome, g) [] where
  record := (List.append_nil _).symm
  refused := iff_of_false h (by simp)

theorem guarded_ok (a : α) (g : Growth (σ × List Exchange)) :
    Guarded [] g.resolver.2 (.ok a, g) [] where
  toAsked := asked_of_ne_refused (by simp)
  opening := List.nil_prefix
  exhausted := iff_of_false (by simp) (by simp)

theorem Asked.not_mem_of_ne_refused (h : Asked log p tail) (hp : p.1 ≠ .error .refused) :
    ¬∃ x ∈ tail, x.failure? = some .refused :=
  mt h.refused.mpr hp

/-- After a part that was not refused, the next part decides. -/
theorem Asked.append (h : Asked log p tail) (hp : p.1 ≠ .error .refused)
    (h' : Asked p.2.resolver.2 q tail') : Asked log q (tail ++ tail') where
  record := by rw [h'.record, h.record, List.append_assoc]
  refused := by
    simp only [h'.refused, List.mem_append, or_and_right, exists_or,
      h.not_mem_of_ne_refused hp, false_or]

/-- What is made of a result at the end asks nothing and cannot fail. -/
theorem andThen_of_forall_ok (p : Except Failure α × Growth (σ × List Exchange))
    (hf : ∀ a g, ∃ b, f a g = (.ok b, g)) :
    (andThen p f).2 = p.2 ∧ ∀ e, (andThen p f).1 = .error e ↔ p.1 = .error e := by
  obtain ⟨e | a, g⟩ := p
  · refine ⟨rfl, fun e' => ?_⟩
    simp only [andThen, Except.error.injEq]
  · obtain ⟨b, hb⟩ := hf a g
    rw [andThen_ok, hb]
    exact ⟨rfl, fun e => by simp⟩

theorem Asked.andThen (h : Asked log p tail) (hf : ∀ a g, ∃ b, f a g = (.ok b, g)) :
    Asked log (andThen p f) tail := by
  obtain ⟨hstate, hfailed⟩ := andThen_of_forall_ok p hf
  exact ⟨hstate ▸ h.record, (hfailed _).trans h.refused⟩

theorem Guarded.andThen (h : Guarded first log p tail) (hf : ∀ a g, ∃ b, f a g = (.ok b, g)) :
    Guarded first log (andThen p f) tail :=
  ⟨h.toAsked.andThen hf, h.opening, ((andThen_of_forall_ok p hf).2 _).trans h.exhausted⟩

/-- A question whose failure is not caught, and what follows if it is answered. -/
theorem exists_guarded_ask {note : Except Failure α → Exchange} {asked : Question}
    (hquestion : ∀ answer, (note answer).question = asked)
    (hnote : ∀ answer, (note answer).failure? = Exchange.failureOf answer) {question : Answer σ α}
    (hlog : g.resolver.2 = log) (hf : ∀ a g, ∃ tail, Guarded first g.resolver.2 (f a g) tail) :
    ∃ tail, Guarded (asked :: first) log
      (Grow.andThen (exec (ask (recordedAnswer note question)) g) f) tail := by
  subst hlog
  rcases h : exec (ask (recordedAnswer note question)) g with ⟨e | a, g₁⟩
  · have hrecord := (exec_ask_recorded h).2.2
    have hfailure : (note (.error e)).failure? = some e := hnote _
    refine ⟨[note (.error e)], ⟨hrecord, by simp [Grow.andThen, hfailure]⟩, ?_,
      by simp [Grow.andThen, hfailure]⟩
    simp [hquestion]
  · have hrecord := (exec_ask_recorded h).2.2
    have hfailure : (note (.ok a)).failure? = none := hnote _
    obtain ⟨tail, hrest⟩ := hf a g₁
    refine ⟨note (.ok a) :: tail, ⟨?_, ?_⟩, ?_, ?_⟩
    · show (f a g₁).2.resolver.2 = _
      rw [hrest.record, hrecord, List.append_assoc, List.singleton_append]
    · show (f a g₁).1 = _ ↔ _
      rw [hrest.refused, List.exists_mem_cons_iff, hfailure]
      simp
    · rw [List.length_cons, List.take_succ_cons, List.map_cons, hquestion, List.cons_prefix_cons]
      exact ⟨rfl, hrest.opening⟩
    · show (f a g₁).1 = _ ↔ _
      rw [hrest.exhausted, List.length_cons, List.take_succ_cons,
        List.exists_mem_cons_iff, hfailure]
      simp

end Asked

/-! ## The parts of the growth -/

theorem andThen_assoc {γ : Type} (p : Except Failure α × Growth σ)
    (f : α → Growth σ → Except Failure β × Growth σ)
    (k : β → Growth σ → Except Failure γ × Growth σ) :
    andThen (andThen p f) k = andThen p fun a g => andThen (f a g) k := by
  obtain ⟨e | a, g⟩ := p
  · rfl
  · rfl

/-- Children run out of stack in silence, but they do not survive a refusal. -/
theorem exists_asked_childrenOf {visit : Item → Grow (σ × List Exchange) Tree}
    (h : ∀ item g, ∃ tail, Asked g.resolver.2 (exec (visit item) g) tail)
    (relations : List Relation) (g : Growth (σ × List Exchange)) :
    ∃ tail, Asked g.resolver.2 (exec (childrenOf visit relations) g) tail := by
  induction relations generalizing g with
  | nil => exact ⟨[], asked_of_ne_refused (by simp)⟩
  | cons relation rest ih =>
    cases hg : g.exhausted with
    | true =>
      rw [exec_childrenOf_of_exhausted visit relation rest hg]
      exact ⟨[], asked_of_ne_refused (by simp)⟩
    | false =>
      rw [exec_childrenOf_cons visit relation rest hg]
      obtain ⟨tail, hfirst⟩ := h relation.item g
      generalize exec (visit relation.item) g = p at hfirst
      obtain ⟨(_ | _) | tree, g₁⟩ := p
      · have hnone := hfirst.not_mem_of_ne_refused (by simp)
        exact ⟨tail, hfirst.record, iff_of_false (by simp) hnone⟩
      · have hrefused := hfirst.refused
        exact ⟨tail, hfirst.record, by simpa using hrefused⟩
      · obtain ⟨tail', hrest⟩ := ih g₁
        exact ⟨tail ++ tail', hfirst.append (by simp) (hrest.andThen fun _ _ => ⟨_, rfl⟩)⟩

theorem exists_guarded_childrenOf {visit : Item → Grow (σ × List Exchange) Tree}
    (h : ∀ item g, ∃ tail, Asked g.resolver.2 (exec (visit item) g) tail)
    (relations : List Relation) (g : Growth (σ × List Exchange)) :
    ∃ tail, Guarded [] g.resolver.2 (exec (childrenOf visit relations) g) tail := by
  obtain ⟨tail, hasked⟩ := exists_asked_childrenOf h relations g
  refine ⟨tail, hasked, List.nil_prefix, iff_of_false ?_ (by simp)⟩
  intro hfailed
  have hrefused := eq_refused_of_exec_childrenOf (Prod.ext hfailed rfl)
  cases hrefused

/-- One level of the tree: two places and the relations of the node, whose failures are its own, and
below them the children, who catch a stack that gives out. -/
theorem exists_guarded_visit_succ {r : Resolver σ} {direction : Direction} {maxDepth : Option Nat}
    {room depth : Nat}
    (h : ∀ item g, ∃ tail, Asked g.resolver.2
      (exec (visit r.recorded direction maxDepth room (depth + 1) item) g) tail)
    (item : Item) (g : Growth (σ × List Exchange)) :
    ∃ tail, Guarded (Question.about direction item) g.resolver.2
      (exec (visit r.recorded direction maxDepth (room + 1) depth item) g) tail := by
  rw [exec_visit, exec_dataOf]
  simp only [andThen_assoc, andThen_ok, Resolver.lineColumn_recorded, Resolver.expand_recorded]
  refine exists_guarded_ask (fun _ => by rfl) (fun _ => by rfl) rfl fun start g₁ => ?_
  refine exists_guarded_ask (fun _ => by rfl) (fun _ => by rfl) rfl fun selection g₂ => ?_
  refine exists_guarded_ask (fun _ => by rfl) (fun _ => by rfl) rfl fun relations g₃ => ?_
  split
  · exact ⟨[], guarded_ok _ g₃⟩
  · obtain ⟨tail, hchildren⟩ := exists_guarded_childrenOf h relations g₃
    exact ⟨tail, hchildren.andThen fun _ _ => ⟨_, rfl⟩⟩

theorem exists_asked_visit (r : Resolver σ) (direction : Direction) (maxDepth : Option Nat)
    (room depth : Nat) (item : Item) (g : Growth (σ × List Exchange)) :
    ∃ tail, Asked g.resolver.2 (exec (visit r.recorded direction maxDepth room depth item) g)
      tail := by
  induction room generalizing depth item g with
  | zero => exact ⟨[], asked_of_ne_refused (by simp)⟩
  | succ room ih =>
    obtain ⟨tail, hvisit⟩ := exists_guarded_visit_succ (ih (depth + 1)) item g
    exact ⟨tail, hvisit.toAsked⟩

/-- A visit with room for its own node is refused exactly if one of its questions is, and it runs
out of stack exactly if one of those about the node itself does. -/
theorem exists_guarded_visit (r : Resolver σ) (direction : Direction) (maxDepth : Option Nat)
    {room : Nat} (hroom : 0 < room) (depth : Nat) (item : Item) (g : Growth (σ × List Exchange)) :
    ∃ tail, Guarded (Question.about direction item) g.resolver.2
      (exec (visit r.recorded direction maxDepth room depth item) g) tail := by
  obtain ⟨room, rfl⟩ := Nat.exists_eq_add_one_of_ne_zero (Nat.ne_of_gt hroom)
  exact exists_guarded_visit_succ (exists_asked_visit r direction maxDepth room (depth + 1)) item g

end Grow

/-! ## One build -/

namespace HierarchyPlan

variable {plan : HierarchyPlan} {r : Resolver σ} {g : Growth σ} {state : σ}

theorem exec_build_of_error (direction : Direction) {e : Failure}
    (h : (r.prepare plan.site.file plan.site.position.start).run.run g.resolver =
      (.error e, state)) :
    Grow.exec (plan.build r direction) g = (.ok plan.unresolved, { g with resolver := state }) := by
  simp only [build, Grow.exec_bind, Grow.exec_tryCatch, Grow.exec_map, Grow.exec_ask, h]
  rfl

theorem exec_build_of_nil (direction : Direction)
    (h : (r.prepare plan.site.file plan.site.position.start).run.run g.resolver = (.ok [], state)) :
    Grow.exec (plan.build r direction) g = (.ok plan.undeclared, { g with resolver := state }) := by
  simp only [build, Grow.exec_bind, Grow.exec_tryCatch, Grow.exec_map, Grow.exec_ask, h]
  rfl

/-- What an earlier build left behind is gone before the first declaration is visited. -/
theorem exec_build_of_cons (direction : Direction) {item : Item} {others : List Item}
    (h : (r.prepare plan.site.file plan.site.position.start).run.run g.resolver =
      (.ok (item :: others), state))
    {outcome : Except Failure Tree} {g' : Growth σ}
    (hvisit : Grow.exec (Grow.visit r direction plan.maxDepth plan.room 1 item)
      { resolver := state } = (outcome, g')) :
    Grow.exec (plan.build r direction) g =
      (.ok (plan.chosen item others (plan.growing direction outcome g')), g') := by
  simp only [build, Grow.exec_bind, Grow.exec_tryCatch, Grow.exec_map, Grow.exec_ask, h,
    Grow.andThen_ok, Grow.exec_modify, Grow.exec_get, Grow.exec_pure, hvisit]
  cases outcome with
  | error e => rfl
  | ok tree => rfl

/-- The same declaration grown once, without anything remembered. -/
theorem grow_of_visit (direction : Direction) {item : Item} {others : List Item} {state₁ : σ}
    (h : (r.prepare plan.site.file plan.site.position.start).run.run state =
      (.ok (item :: others), state₁))
    {outcome : Except Failure Tree} {g' : Growth σ}
    (hvisit : Grow.exec (Grow.visit r direction plan.maxDepth plan.room 1 item)
      { resolver := state₁ } = (outcome, g')) :
    plan.grow r direction state =
      (plan.chosen item others (plan.growing direction outcome g'), g'.resolver) := by
  unfold Grow.exec at hvisit
  simp only [grow, h, growFrom, hvisit]

/-- **Nothing is left of earlier builds**: a build reports what a plan that is carried out for the
first time reports, and the resolver goes through the same states. -/
theorem exec_build (plan : HierarchyPlan) (r : Resolver σ) (direction : Direction) (g : Growth σ) :
    ∃ g', Grow.exec (plan.build r direction) g = (.ok (plan.grow r direction g.resolver).1, g') ∧
      g'.resolver = (plan.grow r direction g.resolver).2 := by
  rcases h : (r.prepare plan.site.file plan.site.position.start).run.run g.resolver with
    ⟨e | (_ | ⟨item, others⟩), state⟩
  · rw [exec_build_of_error direction h, grow_of_error direction h]
    exact ⟨_, rfl, rfl⟩
  · rw [exec_build_of_nil direction h, grow_of_nil direction h]
    exact ⟨_, rfl, rfl⟩
  · rcases hvisit : Grow.exec (Grow.visit r direction plan.maxDepth plan.room 1 item)
      { resolver := state } with ⟨outcome, g'⟩
    rw [exec_build_of_cons direction h hvisit, grow_of_visit direction h hvisit]
    exact ⟨_, rfl, rfl⟩

/-- However often a plan was carried out, no build failed. -/
theorem exists_exec_mapM_build (plan : HierarchyPlan) (r : Resolver σ) (before : List Direction)
    (g : Growth σ) :
    ∃ reports g', Grow.exec (before.mapM (plan.build r)) g = (.ok reports, g') := by
  induction before generalizing g with
  | nil => exact ⟨[], g, rfl⟩
  | cons direction rest ih =>
    obtain ⟨g₁, hbuild, -⟩ := plan.exec_build r direction g
    obtain ⟨reports, g₂, hrest⟩ := ih g₁
    refine ⟨(plan.grow r direction g.resolver).1 :: reports, g₂, ?_⟩
    rw [List.mapM_cons, Grow.exec_bind, hbuild, Grow.andThen_ok, Grow.exec_bind, hrest,
      Grow.andThen_ok, Grow.exec_pure]

/-! ## What a build asks -/

/-- The answer to which declarations the call site calls. -/
def declarations (plan : HierarchyPlan) (r : Resolver σ) (state : σ) : Except Failure (List Item) :=
  ((r.prepare plan.site.file plan.site.position.start).run.run state).1

end HierarchyPlan

/-- What the growth remembers, with an empty record. -/
def Growth.recording (g : Growth σ) : Growth (σ × List Exchange) where
  nextId := g.nextId
  exhausted := g.exhausted
  current := g.current
  resolver := (g.resolver, [])

namespace HierarchyPlan

variable {plan : HierarchyPlan} {r : Resolver σ} {g : Growth σ} {state : σ}

theorem growing_forget (direction : Direction) (outcome : Except Failure Tree)
    (g : Growth (σ × List Exchange)) :
    plan.growing direction outcome g.forget = plan.growing direction outcome g := by
  rcases outcome with (_ | _) | tree
  · rfl
  · rfl
  · rfl

/-- The first question of a build, on an empty record. -/
theorem prepare_recorded {answer : Except Failure (List Item)}
    (h : (r.prepare plan.site.file plan.site.position.start).run.run g.resolver = (answer, state)) :
    (r.recorded.prepare plan.site.file plan.site.position.start).run.run g.recording.resolver =
      (answer, (state, [.prepared plan.site.file plan.site.position.start answer])) := by
  have hrec := run_recordedAnswer (.prepared plan.site.file plan.site.position.start)
    (r.prepare plan.site.file plan.site.position.start) g.resolver []
  rw [h] at hrec
  exact hrec

/-- The record changes nothing in a build either. -/
theorem mirrors_build (plan : HierarchyPlan) (r : Resolver σ) (direction : Direction)
    (g : Growth σ) :
    Grow.Mirrors (Grow.exec (plan.build r.recorded direction) g.recording)
      (Grow.exec (plan.build r direction) g) := by
  rcases h : (r.prepare plan.site.file plan.site.position.start).run.run g.resolver with
    ⟨answer, state⟩
  have hrec := prepare_recorded h
  rcases answer with e | (_ | ⟨item, others⟩)
  · rw [exec_build_of_error direction h, exec_build_of_error direction hrec]
    exact ⟨rfl, rfl⟩
  · rw [exec_build_of_nil direction h, exec_build_of_nil direction hrec]
    exact ⟨rfl, rfl⟩
  · have hmirrors := Grow.mirrors_visit r direction plan.maxDepth plan.room 1 item
      { resolver := (state,
        [.prepared plan.site.file plan.site.position.start (.ok (item :: others))]) }
    rcases hvisit : Grow.exec (Grow.visit r.recorded direction plan.maxDepth plan.room 1 item)
      { resolver := (state,
        [.prepared plan.site.file plan.site.position.start (.ok (item :: others))]) } with
      ⟨outcome, g'⟩
    rw [hvisit] at hmirrors
    have hplain : Grow.exec (Grow.visit r direction plan.maxDepth plan.room 1 item)
        { resolver := state } = (outcome, g'.forget) := Prod.ext hmirrors.1.symm hmirrors.2.symm
    rw [exec_build_of_cons direction h hplain, exec_build_of_cons direction hrec hvisit,
      growing_forget]
    exact ⟨rfl, rfl⟩

theorem tree_growing_eq_none_iff {direction : Direction} {outcome : Except Failure Tree} :
    (plan.growing direction outcome g).tree = none ↔
      outcome = .error .stackExhausted ∨ outcome = .error .refused := by
  rcases outcome with (_ | _) | tree
  · simp [growing]
  · simp [growing]
  · simp [growing]

/-- What a build asks once a declaration was found, and when that costs the tree. -/
theorem record_of_cons (hroom : 0 < plan.room) {direction : Direction} {item : Item}
    {others : List Item}
    (h : (r.prepare plan.site.file plan.site.position.start).run.run g.resolver =
      (.ok (item :: others), state))
    {report : Growing} {g' : Growth (σ × List Exchange)}
    (hbuild : Grow.exec (plan.build r.recorded direction) g.recording = (.ok report, g')) :
    ∃ tail, g'.resolver.2 =
        .prepared plan.site.file plan.site.position.start (.ok (item :: others)) :: tail ∧
      (tail.take 3).map Exchange.question <+: Question.about direction item ∧
      (report.tree = none ↔
        (∃ x ∈ tail.take 3, x.failure? = some .stackExhausted) ∨
          ∃ x ∈ tail, x.failure? = some .refused) := by
  obtain ⟨tail, hguarded⟩ := Grow.exists_guarded_visit r direction plan.maxDepth hroom 1 item
    { resolver := (state,
      [.prepared plan.site.file plan.site.position.start (.ok (item :: others))]) }
  rcases hvisit : Grow.exec (Grow.visit r.recorded direction plan.maxDepth plan.room 1 item)
    { resolver := (state,
      [.prepared plan.site.file plan.site.position.start (.ok (item :: others))]) } with
    ⟨outcome, g₁⟩
  rw [hvisit] at hguarded
  rw [exec_build_of_cons direction (prepare_recorded h) hvisit] at hbuild
  cases hbuild
  refine ⟨tail, hguarded.record, hguarded.opening, ?_⟩
  exact tree_growing_eq_none_iff.trans (or_congr hguarded.exhausted hguarded.refused)

/-- **Builds do not depend on each other**, and the failures of a resolver are contained. Whatever a
resolver does, however often a plan with room for a node (as `HierarchyPlan.make` gives it) was
carried out before and however that ended, the next build does not fail. It reports what the plan
reports when it is carried out for the first time with the resolver in the same state. There is no
tree exactly if the call site could not be resolved, if nothing is declared for it, if the stack
gave out in one of the questions about the declaration itself (they follow the first question), or
if any question was refused. -/
theorem build_contained (hroom : 0 < plan.room) (r : Resolver σ) (before : List Direction)
    (direction : Direction) (state : σ) :
    ∃ reports g report g',
      Grow.exec (before.mapM (plan.build r)) { resolver := state } = (.ok reports, g) ∧
      Grow.exec (plan.build r direction) g = (.ok report, g'.forget) ∧
      Grow.exec (plan.build r.recorded direction) g.recording = (.ok report, g') ∧
      plan.grow r direction g.resolver = (report, g'.resolver.1) ∧
      (∀ item others, plan.declarations r g.resolver = .ok (item :: others) →
        ((g'.resolver.2.drop 1).take 3).map Exchange.question <+: Question.about direction item) ∧
      (report.tree = none ↔
        (∃ e, plan.declarations r g.resolver = .error e) ∨
        plan.declarations r g.resolver = .ok [] ∨
        (∃ x ∈ (g'.resolver.2.drop 1).take 3, x.failure? = some .stackExhausted) ∨
        ∃ x ∈ g'.resolver.2, x.failure? = some .refused) := by
  obtain ⟨reports, g, hbefore⟩ := exists_exec_mapM_build plan r before { resolver := state }
  obtain ⟨g₁, hbuild, hstate⟩ := exec_build plan r direction g
  rcases hrecorded : Grow.exec (plan.build r.recorded direction) g.recording with ⟨outcome, g'⟩
  have hmirrors := mirrors_build plan r direction g
  rw [hrecorded, hbuild] at hmirrors
  obtain ⟨rfl, rfl⟩ : outcome = _ ∧ g'.forget = g₁ := hmirrors
  refine ⟨reports, g, _, g', hbefore, hbuild, hrecorded, Prod.ext rfl hstate.symm, ?_⟩
  rcases h : (r.prepare plan.site.file plan.site.position.start).run.run g.resolver with
    ⟨e | (_ | ⟨item, others⟩), state'⟩
  · have hdeclared : plan.declarations r g.resolver = .error e := congrArg Prod.fst h
    rw [hdeclared, grow_of_error direction h]
    refine ⟨fun _ _ hok => ?_, iff_of_true rfl (.inl ⟨e, rfl⟩)⟩
    cases hok
  · have hdeclared : plan.declarations r g.resolver = .ok [] := congrArg Prod.fst h
    rw [hdeclared, grow_of_nil direction h]
    refine ⟨fun _ _ hok => ?_, iff_of_true rfl (.inr (.inl rfl))⟩
    cases hok
  · have hdeclared : plan.declarations r g.resolver = .ok (item :: others) := congrArg Prod.fst h
    obtain ⟨tail, hrecord, hopening, htree⟩ := record_of_cons hroom h hrecorded
    rw [hdeclared, hrecord, htree]
    refine ⟨fun item' others' hok => ?_, ?_⟩
    · cases hok
      exact hopening
    · simp [Exchange.failure?, Exchange.failureOf]

/-- A resolver that counts its questions, refuses the fifth and runs out of stack at the tenth. `f`
calls `g`, and `g` calls `f`. -/
def moody : Resolver Nat where
  prepare _ _ := answered [declaration "f"]
  outgoing item := answered (if item.name = "f" then [⟨declaration "g", [3]⟩] else [])
  incoming item := answered (if item.name = "f" then [⟨declaration "g", [7]⟩] else [])
  lineColumn _ offset := answered ⟨0, offset⟩
where
  declaration (name : String) : Item := { file := {}, name, kind := "function" }
  answered {α : Type} (answer : α) : Answer Nat α := ExceptT.mk fun n =>
    (if n = 4 then .error .refused else if n = 9 then .error .stackExhausted else .ok answer, n + 1)

/-- The call of `f`. -/
def fromF : HierarchyPlan where
  site := { file := {}, called := "f", span := ⟨1, 0, 0, 1⟩, position := ⟨1, 0, 0, 1⟩ }
  maxDepth := some 3
  room := 3

/-- The first build is refused below `f` and the second is cut there. The third is complete: it is
the one that a plan carried out for the first time gives. -/
theorem build_contained_moody :
    0 < fromF.room ∧
      ∃ reports g report g',
        Grow.exec ([.outgoing, .incoming].mapM (fromF.build moody)) { resolver := 0 } =
          (.ok reports, g) ∧
        reports.map (·.tree.isSome) = [false, true] ∧
        g = { nextId := 3, exhausted := true, current := some (moody.declaration "g"),
              resolver := 10 } ∧
        Grow.exec (fromF.build moody .outgoing) g = (.ok report, g') ∧
        (report, g'.resolver) = fromF.grow moody .outgoing 10 ∧
        report.tree ≠ none ∧ g'.exhausted = false := by
  have hroom : 0 < fromF.room := by decide
  obtain ⟨reports, g, report, g', hbefore, hbuild, -, hfresh, -⟩ :=
    build_contained hroom moody [.outgoing, .incoming] .outgoing 0
  have hrun : Grow.exec ([.outgoing, .incoming].mapM (fromF.build moody)) { resolver := 0 } =
      (.ok [(fromF.grow moody .outgoing 0).1, (fromF.grow moody .incoming 5).1],
        { nextId := 3, exhausted := true, current := some (moody.declaration "g"),
          resolver := 10 }) :=
    rfl
  cases hbefore.symm.trans hrun
  refine ⟨hroom, _, _, report, _, hbefore, rfl, rfl, hbuild, hfresh.symm, ?_, ?_⟩
  · have hreport : report = (fromF.grow moody .outgoing 10).1 := congrArg Prod.fst hfresh.symm
    rw [hreport]
    intro hnone
    cases hnone
  · have hstate : g'.forget = (Grow.exec (fromF.build moody .outgoing)
        { nextId := 3, exhausted := true, current := some (moody.declaration "g"),
          resolver := 10 }).2 :=
      (congrArg Prod.snd hbuild).symm
    rw [hstate]
    rfl

end HierarchyPlan

end CallAtlas
