import CallAtlas.Hierarchy.Builder

/-!
# Runs of the growth of a hierarchy

The growth of a tree is a computation that may fail, and what it remembers survives the failure.
`Grow.exec` runs one from a state to its outcome and the state after it. The equations below say
what each part of the growth does; whatever is proved about hierarchies goes through them:

- `Grow.exec_dataOf`: a node takes the next identifier and asks for two places;
- `Grow.exec_childrenOf_cons`: a child is begun only while the stack has not given out, and a child
  that runs out of stack is dropped by its parent;
- `Grow.exec_visit`: a node, its relations and, above the bound on the depth, its children.
-/

namespace CallAtlas

namespace Grow

variable {σ α β : Type}

/-- The outcome of a computation from a state, and the state after it. -/
def exec (m : Grow σ α) (g : Growth σ) : Except Failure α × Growth σ := m.run.run g

/-- Goes on from an outcome; a failure stays what it is. -/
def andThen (p : Except Failure α × Growth σ) (f : α → Growth σ → Except Failure β × Growth σ) :
    Except Failure β × Growth σ :=
  match p with
  | (.ok a, g) => f a g
  | (.error e, g) => (.error e, g)

@[simp] theorem andThen_ok (a : α) (g : Growth σ) (f : α → Growth σ → Except Failure β × Growth σ) :
    andThen (.ok a, g) f = f a g := rfl

/-- If something followed, the first outcome was a result. -/
theorem andThen_eq_ok {p : Except Failure α × Growth σ}
    {f : α → Growth σ → Except Failure β × Growth σ} {b : β} {g' : Growth σ}
    (h : andThen p f = (.ok b, g')) : ∃ a g, p = (.ok a, g) ∧ f a g = (.ok b, g') := by
  obtain ⟨e | a, g⟩ := p
  · cases h
  · exact ⟨a, g, rfl, h⟩

/-- A failure in the end is that of the first outcome, or of what followed it. -/
theorem andThen_eq_error {p : Except Failure α × Growth σ}
    {f : α → Growth σ → Except Failure β × Growth σ} {e : Failure} {g' : Growth σ}
    (h : andThen p f = (.error e, g')) :
    p = (.error e, g') ∨ ∃ a g, p = (.ok a, g) ∧ f a g = (.error e, g') := by
  obtain ⟨e | a, g⟩ := p
  · cases h
    exact .inl rfl
  · exact .inr ⟨a, g, rfl, h⟩

@[simp] theorem exec_pure (a : α) (g : Growth σ) : exec (pure a : Grow σ α) g = (.ok a, g) := rfl

@[simp] theorem exec_get (g : Growth σ) : exec (get : Grow σ (Growth σ)) g = (.ok g, g) := rfl

@[simp] theorem exec_modify (f : Growth σ → Growth σ) (g : Growth σ) :
    exec (modify f : Grow σ PUnit) g = (.ok ⟨⟩, f g) := rfl

/-- A question changes the resolver and nothing else. -/
theorem exec_ask (question : Answer σ α) (g : Growth σ) :
    exec (ask question) g =
      ((question.run.run g.resolver).1, { g with resolver := (question.run.run g.resolver).2 }) :=
  rfl

/-- A computation in two parts. -/
theorem exec_bind (m : Grow σ α) (f : α → Grow σ β) (g : Growth σ) :
    exec (m >>= f) g = andThen (exec m g) fun a g₁ => exec (f a) g₁ := by
  simp only [exec, ExceptT.run_bind, StateT.run_bind]
  rcases StateT.run (ExceptT.run m) g with ⟨_ | _, _⟩ <;> rfl

theorem exec_map (f : α → β) (m : Grow σ α) (g : Growth σ) :
    exec (f <$> m) g = andThen (exec m g) fun a g₁ => (.ok (f a), g₁) := by
  rw [map_eq_pure_bind, exec_bind]
  rfl

/-- A handler starts from the state in which the computation failed. -/
theorem exec_tryCatch (m : Grow σ α) (handler : Failure → Grow σ α) (g : Growth σ) :
    exec (tryCatch m handler) g =
      match exec m g with
      | (.ok a, g₁) => (.ok a, g₁)
      | (.error e, g₁) => exec (handler e) g₁ := by
  simp only [exec, ExceptT.run_tryCatch, StateT.run_bind]
  rcases StateT.run (ExceptT.run m) g with ⟨_ | _, _⟩ <;> rfl

/-! ## The parts of the growth -/

/-- The data of the node of a declaration, with what the resolver says about its places. -/
def nodeData (i : Nat) (item : Item) (start selection : LineColumn) : NodeData where
  id := i
  file := item.file
  name := item.name
  kind := item.kind
  modifiers := item.modifiers
  container := item.container
  range := ⟨start.line + 1, start.character⟩
  selection := ⟨selection.line + 1, selection.character⟩

/-- A node takes its number before the resolver is asked, so that the number is used up even if that
fails. -/
theorem exec_dataOf (r : Resolver σ) (item : Item) (g : Growth σ) :
    exec (dataOf r item) g =
      andThen (exec (ask (r.lineColumn item.file item.spanStart)) { g with nextId := g.nextId + 1 })
        fun start g₁ => andThen (exec (ask (r.lineColumn item.file item.selectionStart)) g₁)
          fun selection g₂ => (.ok (nodeData g.nextId item start selection), g₂) := by
  simp only [dataOf, exec_bind, exec_get, exec_modify, exec_pure, andThen_ok]
  rfl

@[simp] theorem exec_childrenOf_nil (visit : Item → Grow σ Tree) (g : Growth σ) :
    exec (childrenOf visit []) g = (.ok ([], false), g) := rfl

/-- Once the stack has given out, no child is begun and nothing is asked. -/
theorem exec_childrenOf_of_exhausted (visit : Item → Grow σ Tree) (relation : Relation)
    (rest : List Relation) {g : Growth σ} (h : g.exhausted = true) :
    exec (childrenOf visit (relation :: rest)) g = (.ok ([], true), g) := by
  simp only [childrenOf, exec_bind, exec_get, andThen_ok, h]
  rfl

/-- The first child, and what its outcome means for the others. -/
theorem exec_childrenOf_cons (visit : Item → Grow σ Tree) (relation : Relation)
    (rest : List Relation) {g : Growth σ} (h : g.exhausted = false) :
    exec (childrenOf visit (relation :: rest)) g =
      match exec (visit relation.item) g with
      | (.ok tree, g₁) =>
        andThen (exec (childrenOf visit rest) g₁) fun (more, missing) g₂ =>
          (.ok (tree :: more, missing), g₂)
      | (.error .stackExhausted, g₁) => (.ok ([], true), { g₁ with exhausted := true })
      | (.error .refused, g₁) => (.error .refused, g₁) := by
  simp only [childrenOf, exec_bind, exec_get, andThen_ok, h, Bool.false_eq_true, if_false,
    exec_tryCatch, exec_map]
  rcases exec (visit relation.item) g with ⟨(_ | _) | tree, g₁⟩
  · rfl
  · rfl
  · simp only [andThen_ok, exec_bind]
    rfl

/-- A stack that gives out below a node is caught there, so the children of a node never fail for
that reason. -/
theorem eq_refused_of_exec_childrenOf {visit : Item → Grow σ Tree} {relations : List Relation}
    {g g' : Growth σ} {e : Failure} (h : exec (childrenOf visit relations) g = (.error e, g')) :
    e = .refused := by
  induction relations generalizing g with
  | nil => cases h
  | cons relation rest ih =>
    cases hg : g.exhausted with
    | true =>
      rw [exec_childrenOf_of_exhausted visit relation rest hg] at h
      cases h
    | false =>
      rw [exec_childrenOf_cons visit relation rest hg] at h
      generalize exec (visit relation.item) g = p at h
      obtain ⟨(_ | _) | tree, g₁⟩ := p
      · cases h
      · cases h
        rfl
      · rcases andThen_eq_error h with h | ⟨_, _, -, h⟩
        · exact ih h
        · cases h

/-- Children are found one after the other, up to the end or to the first that runs out of stack. -/
theorem exec_childrenOf_cons_eq_ok {visit : Item → Grow σ Tree} {relation : Relation}
    {rest : List Relation} {g g' : Growth σ} {ts : List Tree} {missing : Bool}
    (hg : g.exhausted = false)
    (h : exec (childrenOf visit (relation :: rest)) g = (.ok (ts, missing), g')) :
    (∃ g₁, exec (visit relation.item) g = (.error .stackExhausted, g₁) ∧
        ts = [] ∧ missing = true ∧ g' = { g₁ with exhausted := true }) ∨
      ∃ tree more g₁, exec (visit relation.item) g = (.ok tree, g₁) ∧
        exec (childrenOf visit rest) g₁ = (.ok (more, missing), g') ∧ ts = tree :: more := by
  rw [exec_childrenOf_cons visit relation rest hg] at h
  generalize hp : exec (visit relation.item) g = p at h
  obtain ⟨(_ | _) | tree, g₁⟩ := p
  · cases h
    exact .inl ⟨g₁, rfl, rfl, rfl, rfl⟩
  · cases h
  · obtain ⟨⟨more, missing'⟩, g₂, hmore, heq⟩ := andThen_eq_ok h
    cases heq
    exact .inr ⟨tree, more, g₁, rfl, hmore, rfl⟩

/-- Without room a visit fails and leaves everything as it is. -/
@[simp] theorem exec_visit_zero (r : Resolver σ) (direction : Direction) (maxDepth : Option Nat)
    (depth : Nat) (item : Item) (g : Growth σ) :
    exec (visit r direction maxDepth 0 depth item) g = (.error .stackExhausted, g) := rfl

/-- Without room for another level, the first child already runs out. -/
theorem exec_childrenOf_visit_zero (r : Resolver σ) (direction : Direction) (maxDepth : Option Nat)
    (depth : Nat) (relations : List Relation) {g : Growth σ} (h : g.exhausted = false) :
    exec (childrenOf (visit r direction maxDepth 0 depth) relations) g =
      (.ok ([], !relations.isEmpty), { g with exhausted := !relations.isEmpty }) := by
  cases relations with
  | nil =>
    rw [exec_childrenOf_nil]
    exact congrArg (Prod.mk _) (by cases g; cases h; rfl)
  | cons relation rest =>
    rw [exec_childrenOf_cons _ relation rest h, exec_visit_zero]
    rfl

/-- A node, its relations and, above the bound on the depth, its children. -/
theorem exec_visit (r : Resolver σ) (direction : Direction) (maxDepth : Option Nat)
    (room depth : Nat) (item : Item) (g : Growth σ) :
    exec (visit r direction maxDepth (room + 1) depth item) g =
      andThen (exec (dataOf r item) { g with current := some item }) fun data g₁ =>
        andThen (exec (ask (r.expand direction item)) g₁) fun relations g₂ =>
          if maxDepth.any (· ≤ depth) then
            (.ok (.node { data with
              further := !relations.isEmpty
              truncated := !relations.isEmpty } []), g₂)
          else
            andThen (exec (childrenOf (visit r direction maxDepth room (depth + 1)) relations) g₂)
              fun (children, missing) g₃ =>
                (.ok (.node { data with
                  further := !relations.isEmpty
                  truncated := missing } children), g₃) := by
  simp only [visit, exec_bind, exec_modify, andThen_ok]
  congr 1
  funext data g₁
  congr 1
  funext relations g₂
  split
  · rfl
  · rw [exec_bind]
    rfl

end Grow

/-! ## From the call site -/

namespace HierarchyPlan

variable {σ : Type} {plan : HierarchyPlan} {r : Resolver σ} {state state₁ : σ}

/-- A resolver that fails at the call site leaves it unresolved. -/
theorem grow_of_error (direction : Direction) {e : Failure}
    (h : (r.prepare plan.site.file plan.site.position.start).run.run state = (.error e, state₁)) :
    plan.grow r direction state =
      (plan.unresolved, state₁) := by
  simp only [grow, h]

/-- A call site without declarations is reported. -/
theorem grow_of_nil (direction : Direction)
    (h : (r.prepare plan.site.file plan.site.position.start).run.run state = (.ok [], state₁)) :
    plan.grow r direction state =
      (plan.undeclared, state₁) := by
  simp only [grow, h]

/-- The first declaration that is found is grown; that there were others is reported. -/
theorem grow_of_cons (direction : Direction) {item : Item} {others : List Item}
    (h : (r.prepare plan.site.file plan.site.position.start).run.run state =
      (.ok (item :: others), state₁)) :
    ∃ choice, plan.grow r direction state =
      (⟨(plan.growFrom r direction item state₁).1.tree,
        choice ++ (plan.growFrom r direction item state₁).1.logs⟩,
        (plan.growFrom r direction item state₁).2) ∧
      choice = if others.isEmpty then []
        else [entry .info (toString (others.length + 1) ++ " candidate declarations for " ++
          plan.site.describe ++ ", using " ++ item.describe)] := by
  refine ⟨_, ?_, rfl⟩
  simp only [grow, h]
  rfl

/-- A tree comes from the visit of a declaration, put below the call site. -/
theorem growFrom_tree_eq_some {direction : Direction} {item : Item} {t : Tree}
    (h : (plan.growFrom r direction item state).1.tree = some t) :
    ∃ subtree g,
      Grow.exec (Grow.visit r direction plan.maxDepth plan.room 1 item) { resolver := state } =
        (.ok subtree, g) ∧
      t = plan.site.wrap subtree ∧ (plan.growFrom r direction item state).2 = g.resolver := by
  unfold growFrom at h ⊢
  unfold Grow.exec
  generalize (Grow.visit r direction plan.maxDepth plan.room 1 item).run.run
    { resolver := state } = p at h
  obtain ⟨(_ | _) | subtree, g⟩ := p
  · cases h
  · cases h
  · exact ⟨subtree, g, rfl, (Option.some.inj h).symm, rfl⟩

end HierarchyPlan

end CallAtlas
