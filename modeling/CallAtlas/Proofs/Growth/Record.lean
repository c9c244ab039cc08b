import CallAtlas.Proofs.Growth.Run

/-!
# What a resolver was asked

A statement such as "the resolver reported these relations" or "the resolver was not asked again" is
about the questions of a run and their answers. `Resolver.recorded` is a resolver that also writes
them down. Nothing else changes: a hierarchy grown with it is the one grown with the plain resolver,
which goes through the same states (`HierarchyPlan.grow_recorded`).
-/

namespace CallAtlas

/-- A question put to a resolver, with its answer. -/
inductive Exchange where
  | prepared (file : Path) (offset : Int) (answer : Except Failure (List Item))
  | expanded (direction : Direction) (item : Item) (answer : Except Failure (List Relation))
  | placed (file : Path) (offset : Int) (answer : Except Failure LineColumn)

namespace Exchange

/-- Whether the resolver ran out of stack. -/
def ranOut : Exchange → Prop
  | .prepared _ _ answer => answer = .error .stackExhausted
  | .expanded _ _ answer => answer = .error .stackExhausted
  | .placed _ _ answer => answer = .error .stackExhausted

/-- The declaration that was expanded and the relations reported for it. -/
def report? : Exchange → Option (Item × List Relation)
  | .expanded _ item (.ok relations) => some (item, relations)
  | _ => none

end Exchange

variable {σ α : Type}

/-- Answers a question and writes it down with its answer. -/
def recordedAnswer (note : Except Failure α → Exchange) (question : Answer σ α) :
    Answer (σ × List Exchange) α := ExceptT.mk fun (state, log) =>
  let (answer, state) := question.run.run state
  (answer, (state, log ++ [note answer]))

/-- A resolver that writes down every question with its answer. -/
def Resolver.recorded (r : Resolver σ) : Resolver (σ × List Exchange) where
  prepare file offset := recordedAnswer (.prepared file offset) (r.prepare file offset)
  outgoing item := recordedAnswer (.expanded .outgoing item) (r.outgoing item)
  incoming item := recordedAnswer (.expanded .incoming item) (r.incoming item)
  lineColumn file offset := recordedAnswer (.placed file offset) (r.lineColumn file offset)

@[simp] theorem Resolver.expand_recorded (r : Resolver σ) (direction : Direction) (item : Item) :
    r.recorded.expand direction item =
      recordedAnswer (.expanded direction item) (r.expand direction item) := by
  cases direction with
  | outgoing => rfl
  | incoming => rfl

theorem run_recordedAnswer (note : Except Failure α → Exchange) (question : Answer σ α) (state : σ)
    (log : List Exchange) :
    (recordedAnswer note question).run.run (state, log) =
      ((question.run.run state).1,
        ((question.run.run state).2, log ++ [note (question.run.run state).1])) := rfl

/-! ## The record changes nothing -/

/-- What the growth remembers, without the record. -/
def Growth.forget (g : Growth (σ × List Exchange)) : Growth σ where
  nextId := g.nextId
  exhausted := g.exhausted
  current := g.current
  resolver := g.resolver.1

namespace Grow

/-- A run with the record and a run without it have the same outcome and, the record apart, the same
state. -/
def Mirrors (p : Except Failure α × Growth (σ × List Exchange)) (q : Except Failure α × Growth σ) :
    Prop :=
  p.1 = q.1 ∧ p.2.forget = q.2

theorem Mirrors.andThen {β : Type} {p : Except Failure α × Growth (σ × List Exchange)}
    {q : Except Failure α × Growth σ}
    {f : α → Growth (σ × List Exchange) → Except Failure β × Growth (σ × List Exchange)}
    {k : α → Growth σ → Except Failure β × Growth σ} (h : Mirrors p q)
    (hf : ∀ a g, Mirrors (f a g) (k a g.forget)) : Mirrors (andThen p f) (andThen q k) := by
  obtain ⟨outcome, g⟩ := p
  obtain ⟨outcome', g'⟩ := q
  obtain ⟨rfl, rfl⟩ : outcome = outcome' ∧ g.forget = g' := h
  cases outcome with
  | error e => exact ⟨rfl, rfl⟩
  | ok a => exact hf a g

theorem mirrors_ask (note : Except Failure α → Exchange) (question : Answer σ α)
    (g : Growth (σ × List Exchange)) :
    Mirrors (exec (ask (recordedAnswer note question)) g) (exec (ask question) g.forget) :=
  ⟨rfl, rfl⟩

theorem mirrors_dataOf (r : Resolver σ) (item : Item) (g : Growth (σ × List Exchange)) :
    Mirrors (exec (dataOf r.recorded item) g) (exec (dataOf r item) g.forget) := by
  rw [exec_dataOf, exec_dataOf]
  refine .andThen (mirrors_ask _ _ _) fun start g₁ => ?_
  exact .andThen (mirrors_ask _ _ _) fun selection g₂ => ⟨rfl, rfl⟩

/-- If the visits of the children mirror each other, so do all children together. -/
theorem mirrors_childrenOf {visit : Item → Grow (σ × List Exchange) Tree}
    {visit' : Item → Grow σ Tree}
    (h : ∀ item g, Mirrors (exec (visit item) g) (exec (visit' item) g.forget))
    (relations : List Relation) (g : Growth (σ × List Exchange)) :
    Mirrors (exec (childrenOf visit relations) g)
      (exec (childrenOf visit' relations) g.forget) := by
  induction relations generalizing g with
  | nil => exact ⟨rfl, rfl⟩
  | cons relation rest ih =>
    cases hg : g.exhausted with
    | true =>
      rw [exec_childrenOf_of_exhausted visit relation rest hg,
        exec_childrenOf_of_exhausted visit' relation rest (g := g.forget) hg]
      exact ⟨rfl, rfl⟩
    | false =>
      rw [exec_childrenOf_cons visit relation rest hg,
        exec_childrenOf_cons visit' relation rest (g := g.forget) hg]
      have hfirst := h relation.item g
      generalize exec (visit relation.item) g = p at hfirst
      generalize exec (visit' relation.item) g.forget = q at hfirst
      obtain ⟨outcome, g₁⟩ := p
      obtain ⟨outcome', g₁'⟩ := q
      obtain ⟨rfl, rfl⟩ : outcome = outcome' ∧ g₁.forget = g₁' := hfirst
      rcases outcome with (_ | _) | tree
      · exact ⟨rfl, rfl⟩
      · exact ⟨rfl, rfl⟩
      · exact .andThen (ih g₁) fun _ _ => ⟨rfl, rfl⟩

theorem mirrors_visit (r : Resolver σ) (direction : Direction) (maxDepth : Option Nat)
    (room depth : Nat) (item : Item) (g : Growth (σ × List Exchange)) :
    Mirrors (exec (visit r.recorded direction maxDepth room depth item) g)
      (exec (visit r direction maxDepth room depth item) g.forget) := by
  induction room generalizing depth item g with
  | zero => exact ⟨rfl, rfl⟩
  | succ room ih =>
    rw [exec_visit, exec_visit]
    refine .andThen (mirrors_dataOf r item _) fun data g₁ => ?_
    rw [Resolver.expand_recorded]
    refine .andThen (mirrors_ask _ _ _) fun relations g₂ => ?_
    split
    · exact ⟨rfl, rfl⟩
    · exact .andThen (mirrors_childrenOf (ih (depth + 1)) relations g₂) fun _ _ => ⟨rfl, rfl⟩

end Grow

namespace HierarchyPlan

/-- The record changes nothing below a declaration. -/
theorem growFrom_recorded (plan : HierarchyPlan) (r : Resolver σ) (direction : Direction)
    (item : Item) (state : σ) (log : List Exchange) :
    (plan.growFrom r.recorded direction item (state, log)).1 =
        (plan.growFrom r direction item state).1 ∧
      (plan.growFrom r.recorded direction item (state, log)).2.1 =
        (plan.growFrom r direction item state).2 := by
  have h := Grow.mirrors_visit r direction plan.maxDepth plan.room 1 item
    { resolver := (state, log) }
  unfold Grow.exec at h
  unfold growFrom
  generalize (Grow.visit r.recorded direction plan.maxDepth plan.room 1 item).run.run
    { resolver := (state, log) } = p at h
  generalize hq : (Grow.visit r direction plan.maxDepth plan.room 1 item).run.run
    { resolver := state } = q
  replace h : Grow.Mirrors p q := hq ▸ h
  obtain ⟨outcome, g⟩ := p
  obtain ⟨outcome', g'⟩ := q
  obtain ⟨rfl, rfl⟩ : outcome = outcome' ∧ g.forget = g' := h
  rcases outcome with (_ | _) | tree
  · exact ⟨rfl, rfl⟩
  · exact ⟨rfl, rfl⟩
  · exact ⟨rfl, rfl⟩

/-- **The record changes nothing**: with it a plan gives the same tree and the same messages, and
the resolver ends in the same state. -/
theorem grow_recorded (plan : HierarchyPlan) (r : Resolver σ) (direction : Direction) (state : σ)
    (log : List Exchange) :
    (plan.grow r.recorded direction (state, log)).1 = (plan.grow r direction state).1 ∧
      (plan.grow r.recorded direction (state, log)).2.1 = (plan.grow r direction state).2 := by
  have hrec := run_recordedAnswer (.prepared plan.site.file plan.site.position.start)
    (r.prepare plan.site.file plan.site.position.start) state log
  rcases h : (r.prepare plan.site.file plan.site.position.start).run.run state with ⟨answer, state₁⟩
  rw [h] at hrec
  rcases answer with e | (_ | ⟨item, others⟩)
  · rw [grow_of_error direction h, grow_of_error (r := r.recorded) direction hrec]
    exact ⟨rfl, rfl⟩
  · rw [grow_of_nil direction h, grow_of_nil (r := r.recorded) direction hrec]
    exact ⟨rfl, rfl⟩
  · obtain ⟨choice, hgrow, rfl⟩ := grow_of_cons direction h
    obtain ⟨choice', hgrow', rfl⟩ := grow_of_cons (r := r.recorded) direction hrec
    obtain ⟨htree, hstate⟩ := plan.growFrom_recorded r direction item state₁
      (log ++ [.prepared plan.site.file plan.site.position.start (.ok (item :: others))])
    rw [hgrow, hgrow', htree]
    exact ⟨rfl, hstate⟩

end HierarchyPlan

end CallAtlas
