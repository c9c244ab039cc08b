import CallAtlas.Proofs.Layout.Spacing
import CallAtlas.Source.Tree

/-!
# Calls that do not overlap

A `Callee` is a name that is called together with the stretch of source in which it stands. The
callees of a tree are listed in the order of the walk, which is not that of the text; still no two
of them overlap, because they belong to parts of the tree that stand apart.

- `Laid` says so of a tree: at every node the parts are `Apart`, one wholly before the other as far
  as their callees go, and the callee of a call stands between the receiver's callees and those of
  the arguments.
- `Snug` is what an expression is besides, so that it can be called or have members: its callees lie
  within its own extent.
- `Spread lo hi nodes` says that nodes lie apart from each other between two places, in whatever
  order. Rows of nodes that follow each other in the text are put together (`Spread.append`) and can
  then be reordered (`Spread.of_subperm`).
-/

namespace CallAtlas.Source

/-- A called name, with the stretch of source in which it stands. -/
structure Callee where
  name : String
  extent : Extent

/-- A callee has a name, and its stretch lies between two places. -/
structure Callee.In (lo hi : Place) (c : Callee) : Prop where
  name : c.name ≠ ""
  le : lo ≤ c.extent.start
  lt : c.extent.start < c.extent.stop
  stop : c.extent.stop ≤ hi

namespace Node

/-- What is called where a node is called: a name, or a member with all that stands between it and
its receiver. -/
def callee? : Node → Option Callee
  | .name id extent => some ⟨id, extent⟩
  | .member receiver id extent => some ⟨id, receiver.extent.stop, extent.stop⟩
  | .call _ _ _ | .definition _ _ _ | .imports _ _ | .other _ _ => none

mutual

/-- The callees in a tree, in the order of the walk. -/
def callees : Node → List Callee
  | .name _ _ | .imports _ _ => []
  | .member receiver _ _ => callees receiver
  | .call callee arguments _ => callee.callee?.toList ++ callees callee ++ calleesOfAll arguments
  | .definition _ parts _ | .other parts _ => calleesOfAll parts

/-- The callees in several trees. -/
def calleesOfAll : List Node → List Callee
  | [] => []
  | node :: rest => callees node ++ calleesOfAll rest

end

/-- The callees of several trees are those of each, in order. -/
@[simp]
theorem calleesOfAll_eq_flatMap (nodes : List Node) :
    calleesOfAll nodes = nodes.flatMap callees := by
  induction nodes with
  | nil => rfl
  | cons node rest ih => rw [calleesOfAll, List.flatMap_cons, ih]

@[simp]
theorem callees_name (id : String) (extent : Extent) : (name id extent).callees = [] := by
  rw [callees]

@[simp]
theorem callees_imports (bindings : List Binding) (extent : Extent) :
    (imports bindings extent).callees = [] := by
  rw [callees]

/-- A member that is not called adds nothing to the callees of its receiver. -/
@[simp]
theorem callees_member (receiver : Node) (id : String) (extent : Extent) :
    (member receiver id extent).callees = receiver.callees := by
  rw [callees]

/-- A call lists its own callee first, although that stands behind those of the receiver. -/
@[simp]
theorem callees_call (callee : Node) (arguments : List Node) (extent : Extent) :
    (call callee arguments extent).callees =
      callee.callee?.toList ++ callee.callees ++ arguments.flatMap callees := by
  rw [callees, calleesOfAll_eq_flatMap]

/-- The callees of a definition are those of its decorators, parameters and body. -/
@[simp]
theorem callees_definition (head : Definition) (parts : List Node) (extent : Extent) :
    (definition head parts extent).callees = parts.flatMap callees := by
  rw [callees, calleesOfAll_eq_flatMap]

@[simp]
theorem callees_other (parts : List Node) (extent : Extent) :
    (other parts extent).callees = parts.flatMap callees := by
  rw [callees, calleesOfAll_eq_flatMap]

/-! ## Laid out trees -/

/-- Every callee of the one stands before every callee of the other. -/
def Precedes (as bs : List Callee) : Prop :=
  ∀ c ∈ as, ∀ d ∈ bs, c.extent.stop ≤ d.extent.start

/-- A node stands before another, if both hold callees: it begins earlier, and so do its callees. -/
structure Before (p q : Node) : Prop where
  start : p.callees ≠ [] → q.callees ≠ [] → p.extent.start < q.extent.start
  callees : Precedes p.callees q.callees

/-- One of two nodes stands before the other. -/
def Apart (p q : Node) : Prop := p.Before q ∨ q.Before p

theorem Apart.symm {p q : Node} (h : p.Apart q) : q.Apart p := Or.symm h

/-- The parts of a node stand apart. A call has its name behind the callees of the receiver and
before those of the arguments. -/
def Tidy : Node → Prop
  | .name _ _ | .member _ _ _ | .imports _ _ => True
  | .call callee arguments _ =>
    arguments.Pairwise Apart ∧ Precedes callee.callees (arguments.flatMap callees) ∧
      Precedes callee.callees callee.callee?.toList ∧
      Precedes callee.callee?.toList (arguments.flatMap callees)
  | .definition _ parts _ | .other parts _ => parts.Pairwise Apart

/-- A tree is tidy at every node. -/
inductive Laid : Node → Prop
  | intro {node : Node} (tidy : node.Tidy) (parts : ∀ part ∈ node.parts, part.Laid) : Laid node

/-- One of two callees ends before the other begins. -/
def Clear (c d : Callee) : Prop := c.extent.stop ≤ d.extent.start ∨ d.extent.stop ≤ c.extent.start

/-- Callees that stand before others do not overlap with them. -/
theorem Precedes.clear {as bs : List Callee} (h : Precedes as bs) : ∀ c ∈ as, ∀ d ∈ bs, Clear c d :=
  fun c hc d hd => .inl (h c hc d hd)

/-- Callees that stand behind others do not overlap with them either. -/
theorem Precedes.clear_swap {as bs : List Callee} (h : Precedes bs as) :
    ∀ c ∈ as, ∀ d ∈ bs, Clear c d :=
  fun c hc d hd => .inr (h d hd c hc)

/-- The callees of parts that stand apart do not overlap, within a part and across two. -/
theorem pairwise_clear_flatMap {parts : List Node} (h : parts.Pairwise Apart)
    (hparts : ∀ p ∈ parts, p.callees.Pairwise Clear) : (parts.flatMap callees).Pairwise Clear := by
  refine List.pairwise_flatMap.mpr ⟨hparts, h.imp fun hapart => ?_⟩
  rcases hapart with hbefore | hbefore
  · exact hbefore.callees.clear
  · exact hbefore.callees.clear_swap

/-- **The callees of a laid out tree do not overlap.** -/
theorem Laid.pairwise_clear {tree : Node} (h : tree.Laid) : tree.callees.Pairwise Clear := by
  induction h with
  | @intro tree tidy _ ih =>
    cases tree with
    | name id extent => simp
    | imports bindings extent => simp
    | member receiver id extent =>
      rw [callees_member]
      exact ih receiver List.mem_cons_self
    | call callee arguments extent =>
      obtain ⟨hapart, hreceiver, hbehind, hbefore⟩ := tidy
      have hown : callee.callee?.toList.Pairwise Clear := by cases callee.callee? <;> simp
      rw [callees_call, List.pairwise_append, List.pairwise_append]
      refine ⟨⟨hown, ih callee List.mem_cons_self, hbehind.clear_swap⟩,
        pairwise_clear_flatMap hapart fun n hn => ih n (List.mem_cons_of_mem _ hn), ?_⟩
      exact List.forall_mem_append.mpr ⟨hbefore.clear, hreceiver.clear⟩
    | definition head parts extent =>
      rw [callees_definition]
      exact pairwise_clear_flatMap tidy ih
    | other parts extent =>
      rw [callees_other]
      exact pairwise_clear_flatMap tidy ih

/-- A node lies between two places, as far as it holds callees, and is laid out. It does not have to
hold its callees within its own extent: the decorators of a definition stand before it. -/
structure Placed (lo hi : Place) (node : Node) : Prop where
  start : lo ≤ node.extent.start
  stop : node.extent.stop ≤ hi
  start_lt : node.callees ≠ [] → node.extent.start < hi
  callees : ∀ c ∈ node.callees, c.In lo hi
  laid : node.Laid

/-- A node holds its callees within its own extent, and what is called where it is called stands
behind them. -/
structure Snug (node : Node) : Prop where
  start_le : node.extent.start ≤ node.extent.stop
  callees : ∀ c ∈ node.callees, c.In node.extent.start node.extent.stop
  own : ∀ c ∈ node.callee?, c.In node.extent.start node.extent.stop
  behind : Precedes node.callees node.callee?.toList
  laid : node.Laid

end Node

variable {lo hi lo' hi' mid mid' : Place}

/-- A callee lies in every wider stretch. -/
theorem Callee.In.mono {c : Callee} (h : c.In lo hi) (hlo : lo' ≤ lo) (hhi : hi ≤ hi') :
    c.In lo' hi' :=
  ⟨h.name, hlo.trans h.le, h.lt, h.stop.trans hhi⟩

/-- Callees on the two sides of a place. -/
theorem Node.Precedes.of_in {as bs : List Callee} (has : ∀ c ∈ as, c.In lo mid)
    (hbs : ∀ d ∈ bs, d.In mid' hi) (hmid : mid ≤ mid') : Precedes as bs :=
  fun c hc d hd => (has c hc).stop.trans (hmid.trans (hbs d hd).le)

namespace Node.Placed

variable {node : Node}

theorem mono (h : node.Placed lo hi) (hlo : lo' ≤ lo) (hhi : hi ≤ hi') : node.Placed lo' hi' where
  start := hlo.trans h.start
  stop := h.stop.trans hhi
  start_lt hsome := (h.start_lt hsome).trans_le hhi
  callees c hc := (h.callees c hc).mono hlo hhi
  laid := h.laid

/-- Nodes on the two sides of a place stand apart. -/
theorem apart {other : Node} (h : node.Placed lo mid) (hother : other.Placed mid' hi)
    (hmid : mid ≤ mid') :
    node.Apart other := by
  refine .inl ⟨fun hsome _ => ?_, .of_in h.callees hother.callees hmid⟩
  exact (h.start_lt hsome).trans_le (hmid.trans hother.start)

end Node.Placed

/-- A snug node lies wherever its extent does. -/
theorem Node.Snug.placed {node : Node} (h : node.Snug) (hlo : lo ≤ node.extent.start)
    (hhi : node.extent.stop ≤ hi) :
    node.Placed lo hi where
  start := hlo
  stop := hhi
  start_lt hsome := by
    obtain ⟨c, hc⟩ := List.exists_mem_of_ne_nil _ hsome
    have hin := h.callees c hc
    exact hin.le.trans_lt (hin.lt.trans_le (hin.stop.trans hhi))
  callees c hc := (h.callees c hc).mono hlo hhi
  laid := h.laid

/-! ## Spread nodes -/

/-- Nodes lie between two places and apart from each other. -/
structure Spread (lo hi : Place) (nodes : List Node) : Prop where
  placed : ∀ n ∈ nodes, n.Placed lo hi
  apart : nodes.Pairwise Node.Apart

namespace Spread

variable {as bs : List Node}

theorem nil : Spread lo hi [] := ⟨List.forall_mem_nil _, .nil⟩

theorem singleton {n : Node} (h : n.Placed lo hi) : Spread lo hi [n] :=
  ⟨List.forall_mem_singleton.mpr h, List.pairwise_singleton _ _⟩

theorem mono (h : Spread lo hi as) (hlo : lo' ≤ lo) (hhi : hi ≤ hi') : Spread lo' hi' as :=
  ⟨fun n hn => (h.placed n hn).mono hlo hhi, h.apart⟩

/-- What follows stands apart. -/
theorem append (has : Spread lo mid as) (hbs : Spread mid' hi bs) (hmid : mid ≤ mid')
    (hlo : lo ≤ mid') (hhi : mid ≤ hi) : Spread lo hi (as ++ bs) where
  placed := List.forall_mem_append.mpr ⟨(has.mono le_rfl hhi).placed, (hbs.mono hlo le_rfl).placed⟩
  apart := List.pairwise_append.mpr ⟨has.apart, hbs.apart, fun a ha b hb =>
    (has.placed a ha).apart (hbs.placed b hb) hmid⟩

/-- The order does not matter, and there may be fewer. -/
theorem of_subperm (h : Spread lo hi as) (hsub : bs.Subperm as) : Spread lo hi bs := by
  obtain ⟨cs, hperm, hsublist⟩ := hsub
  exact ⟨fun n hn => h.placed n (hsublist.subset (hperm.mem_iff.mpr hn)),
    hperm.pairwise (h.apart.sublist hsublist) Node.Apart.symm⟩

/-- The callees of all nodes. -/
theorem callees (h : Spread lo hi as) : ∀ c ∈ as.flatMap Node.callees, c.In lo hi := by
  intro c hc
  obtain ⟨n, hn, hmem⟩ := List.mem_flatMap.mp hc
  exact (h.placed n hn).callees c hmem

theorem laid (h : Spread lo hi as) : ∀ n ∈ as, n.Laid := fun n hn => (h.placed n hn).laid

end Spread

/-! ## Nodes of each kind -/

namespace Node

variable {parts arguments : List Node} {base : Node} {id : String}

/-- Parts that are spread over an extent make a node that is snug in it. -/
theorem snug_other (h : Spread lo hi parts) (hle : lo ≤ hi) : (other parts ⟨lo, hi⟩).Snug where
  start_le := hle
  callees := by
    rw [callees_other]
    exact h.callees
  own c hc := by cases hc
  behind c _ d hd := by cases hd
  laid := .intro h.apart h.laid

/-- A name holds no callees, and is itself what is called where it is called. -/
theorem snug_name (hid : id ≠ "") (hlt : lo < hi) : (name id ⟨lo, hi⟩).Snug where
  start_le := hlt.le
  callees c hc := by
    rw [callees_name] at hc
    cases hc
  own c hc := by
    cases hc
    exact ⟨hid, le_rfl, hlt, le_rfl⟩
  behind c hc := by
    rw [callees_name] at hc
    cases hc
  laid := .intro trivial (List.forall_mem_nil _)

/-- The name of a member stands behind the receiver, and so behind all of its callees. -/
theorem snug_member (h : base.Snug) (hid : id ≠ "") (hlo : lo ≤ base.extent.start)
    (hlt : base.extent.stop < hi) :
    (member base id ⟨lo, hi⟩).Snug where
  start_le := hlo.trans (h.start_le.trans hlt.le)
  callees c hc := by
    rw [callees_member] at hc
    exact (h.callees c hc).mono hlo hlt.le
  own c hc := by
    cases hc
    exact ⟨hid, hlo.trans h.start_le, hlt, le_rfl⟩
  behind c hc d hd := by
    rw [callees_member] at hc
    cases List.mem_singleton.mp hd
    exact (h.callees c hc).stop
  laid := .intro trivial (List.forall_mem_singleton.mpr h.laid)

/-- The arguments of a call come after what is called. -/
theorem snug_call (h : base.Snug) (hlo : lo ≤ base.extent.start) (hmid : base.extent.stop ≤ mid)
    (harguments : Spread mid hi arguments) (hhi : mid ≤ hi) :
    (call base arguments ⟨lo, hi⟩).Snug where
  start_le := hlo.trans (h.start_le.trans (hmid.trans hhi))
  callees c hc := by
    rw [callees_call, List.mem_append, List.mem_append, Option.mem_toList] at hc
    rcases hc with (hc | hc) | hc
    · exact (h.own c hc).mono hlo (hmid.trans hhi)
    · exact (h.callees c hc).mono hlo (hmid.trans hhi)
    · exact (harguments.callees c hc).mono (hlo.trans (h.start_le.trans hmid)) le_rfl
  own c hc := by cases hc
  behind c _ d hd := by cases hd
  laid := by
    refine .intro ⟨harguments.apart, .of_in h.callees harguments.callees hmid, h.behind, ?_⟩ ?_
    · exact .of_in (fun c hc => h.own c (Option.mem_toList.mp hc)) harguments.callees hmid
    · exact List.forall_mem_cons.mpr ⟨h.laid, harguments.laid⟩

/-- A definition begins behind its decorators, and before its end. -/
theorem placed_definition {head : Definition} {start : Place} (h : Spread lo hi parts)
    (hlo : lo ≤ start) (hlt : start < hi) : (definition head parts ⟨start, hi⟩).Placed lo hi where
  start := hlo
  stop := le_rfl
  start_lt _ := hlt
  callees := by
    rw [callees_definition]
    exact h.callees
  laid := .intro h.apart h.laid

/-- An import holds no callees. -/
theorem placed_imports {bindings : List Binding} : (imports bindings ⟨lo, hi⟩).Placed lo hi where
  start := le_rfl
  stop := le_rfl
  start_lt hsome := absurd (callees_imports _ _) hsome
  callees c hc := by
    rw [callees_imports] at hc
    cases hc
  laid := .intro trivial (List.forall_mem_nil _)

end Node

end CallAtlas.Source
