import CallAtlas.Proofs.Growth.Record
import CallAtlas.Proofs.Tree
import Mathlib.Data.List.Forall2

/-!
# The history behind a hierarchy

A tree that was grown is determined by what the resolver answered on the way. A `History` holds just
that: for every node the declaration, its two places and *all* relations reported for it, and the
histories of the children that were built. Everything a node of the tree says is read off its
history (`History.tree`), and so is every question that was put to the resolver
(`History.exchanges`).

The work is split accordingly:

- `Grow.Explains`: what it means that histories explain a part of the growth, with a lemma for each
  way in which a node can end: after its children, at the bound on the depth, or where the stack has
  no room for another level.
- `Grow.exec_visit_history`: a visit that gives a tree is explained by a history. This is the only
  place where the run of the growth is looked at, with one induction on the room on the stack and
  one on the relations of a node.
-/

namespace CallAtlas

/-- What the resolver answered for a node and for those below it. -/
inductive History where
  | node (item : Item) (start selection : LineColumn) (relations : List Relation)
    (children : List History)

namespace History

/-- The declaration. -/
def item : History → Item
  | .node i _ _ _ _ => i

/-- All relations that the resolver reported. -/
def relations : History → List Relation
  | .node _ _ _ rs _ => rs

/-- The histories of the children that were built. -/
def children : History → List History
  | .node _ _ _ _ hs => hs

mutual

/-- The number of nodes. -/
def size : History → Nat
  | .node _ _ _ _ hs => sizeOfAll hs + 1

/-- The number of nodes of several histories. -/
def sizeOfAll : List History → Nat
  | [] => 0
  | h :: hs => h.size + sizeOfAll hs

end

mutual

/-- The tree of a history, numbered from `i` on in pre-order. A node is truncated when children are
missing. -/
def tree (i : Nat) : History → Tree
  | .node item start selection relations hs =>
    .node { Grow.nodeData i item start selection with
      further := !relations.isEmpty
      truncated := decide (hs.length < relations.length) } (trees (i + 1) hs)

/-- The trees of several histories, numbered one after the other. -/
def trees (i : Nat) : List History → List Tree
  | [] => []
  | h :: hs => h.tree i :: trees (i + h.size) hs

end

mutual

/-- The questions behind a history, with their answers. -/
def exchanges (direction : Direction) : History → List Exchange
  | .node item start selection relations hs =>
    .placed item.file item.spanStart (.ok start) ::
      .placed item.file item.selectionStart (.ok selection) ::
      .expanded direction item (.ok relations) :: exchangesOfAll direction hs

/-- The questions behind several histories. -/
def exchangesOfAll (direction : Direction) : List History → List Exchange
  | [] => []
  | h :: hs => h.exchanges direction ++ exchangesOfAll direction hs

end

mutual

/-- A history keeps to the rules of the growth: the children are those of the first relations, and a
node at the bound has none. -/
def Follows (maxDepth : Option Nat) (depth : Nat) : History → Prop
  | .node _ _ _ relations hs =>
    hs.map item <+: relations.map Relation.item ∧
      (maxDepth.any (· ≤ depth) = true → hs = []) ∧ AllFollow maxDepth (depth + 1) hs

/-- Several histories keep to the rules. -/
def AllFollow (maxDepth : Option Nat) (depth : Nat) : List History → Prop
  | [] => True
  | h :: hs => h.Follows maxDepth depth ∧ AllFollow maxDepth depth hs

end

/-- A node of a history: its depth, its number and what is below it. -/
structure Visit where
  depth : Nat
  id : Nat
  history : History

mutual

/-- The nodes of a history that stands at a depth and is numbered from `i` on, in pre-order. -/
def visits (depth i : Nat) : History → List Visit
  | .node item start selection relations hs =>
    ⟨depth, i, .node item start selection relations hs⟩ :: visitsOfAll (depth + 1) (i + 1) hs

/-- The nodes of several histories, one after the other. -/
def visitsOfAll (depth i : Nat) : List History → List Visit
  | [] => []
  | h :: hs => h.visits depth i ++ visitsOfAll depth (i + h.size) hs

end

/-- All relations of a node were followed, or the bound on the depth forbade it. -/
def Visit.Complete (maxDepth : Option Nat) (v : Visit) : Prop :=
  maxDepth.any (· ≤ v.depth) = true ∨ v.history.children.length = v.history.relations.length

/-- A node that would have to go deeper than the level `bottom`, the last that has room on the
stack. -/
def Visit.Cramped (maxDepth : Option Nat) (bottom : Nat) (v : Visit) : Prop :=
  v.depth = bottom ∧ v.history.relations ≠ [] ∧ maxDepth.any (· ≤ v.depth) = false

/-- The question after which the relations of a node were known. -/
def Visit.expansion (direction : Direction) (v : Visit) : Exchange :=
  .expanded direction v.history.item (.ok v.history.relations)

end History

/-! ## From the run to the history -/

/-- The questions about a node that was given up: nothing was reported for it, and the last
question, and no other, ran out of stack. -/
def BrokenOff (tail : List Exchange) : Prop :=
  (∀ e ∈ tail, e.report? = none) ∧ (∀ e ∈ tail.dropLast, ¬e.ranOut) ∧
    ∃ e, tail.getLast? = some e ∧ e.ranOut

namespace Grow

variable {σ α : Type}

theorem exec_ask_recorded {note : Except Failure α → Exchange} {question : Answer σ α}
    {g g' : Growth (σ × List Exchange)} {answer : Except Failure α}
    (h : exec (ask (recordedAnswer note question)) g = (answer, g')) :
    g'.nextId = g.nextId ∧ g'.exhausted = g.exhausted ∧
      g'.resolver.2 = g.resolver.2 ++ [note answer] := by
  rw [exec_ask] at h
  cases h
  exact ⟨rfl, rfl, rfl⟩

/-- A node takes one number and asks for two places. -/
theorem exec_dataOf_ok {r : Resolver σ} {item : Item} {g g' : Growth (σ × List Exchange)}
    {data : NodeData} (h : exec (dataOf r.recorded item) g = (.ok data, g')) :
    g'.nextId = g.nextId + 1 ∧ g'.exhausted = g.exhausted ∧
      ∃ start selection, data = nodeData g.nextId item start selection ∧
        g'.resolver.2 = g.resolver.2 ++ [.placed item.file item.spanStart (.ok start),
          .placed item.file item.selectionStart (.ok selection)] := by
  rw [exec_dataOf] at h
  obtain ⟨start, g₁, h₁, h⟩ := andThen_eq_ok h
  obtain ⟨selection, g₂, h₂, h⟩ := andThen_eq_ok h
  cases h
  obtain ⟨hid₁, hex₁, hlog₁⟩ := exec_ask_recorded h₁
  obtain ⟨hid₂, hex₂, hlog₂⟩ := exec_ask_recorded h₂
  refine ⟨hid₂.trans hid₁, hex₂.trans hex₁, start, selection, rfl, ?_⟩
  rw [hlog₂, hlog₁, List.append_assoc]
  rfl

theorem exec_dataOf_error {r : Resolver σ} {item : Item} {g g' : Growth (σ × List Exchange)}
    (h : exec (dataOf r.recorded item) g = (.error .stackExhausted, g')) :
    ∃ tail, g'.resolver.2 = g.resolver.2 ++ tail ∧ BrokenOff tail := by
  rw [exec_dataOf] at h
  rcases andThen_eq_error h with h₁ | ⟨start, g₁, h₁, h⟩
  · obtain ⟨-, -, hlog₁⟩ := exec_ask_recorded h₁
    exact ⟨_, hlog₁, by simp [BrokenOff, Exchange.report?, Exchange.ranOut]⟩
  · obtain ⟨-, -, hlog₁⟩ := exec_ask_recorded h₁
    rcases andThen_eq_error h with h₂ | ⟨selection, g₂, -, h⟩
    · obtain ⟨-, -, hlog₂⟩ := exec_ask_recorded h₂
      refine ⟨_, by rw [hlog₂, hlog₁, List.append_assoc], ?_⟩
      simp [BrokenOff, Exchange.report?, Exchange.ranOut]
    · cases h

/-- A visit that had room and still ran out of stack was given up before anything was reported for
it. -/
theorem exec_visit_exhausted {r : Resolver σ} {direction : Direction} {maxDepth : Option Nat}
    {room depth : Nat} {item : Item} {g g' : Growth (σ × List Exchange)}
    (h : exec (visit r.recorded direction maxDepth (room + 1) depth item) g =
      (.error .stackExhausted, g')) :
    ∃ tail, g'.resolver.2 = g.resolver.2 ++ tail ∧ BrokenOff tail := by
  rw [exec_visit] at h
  rcases andThen_eq_error h with h₁ | ⟨data, g₁, h₁, h⟩
  · obtain ⟨tail, hlog₁, hbroken⟩ := exec_dataOf_error h₁
    exact ⟨tail, hlog₁, hbroken⟩
  · obtain ⟨-, -, start, selection, -, hlog₁⟩ := exec_dataOf_ok h₁
    rw [Resolver.expand_recorded] at h
    rcases andThen_eq_error h with h₂ | ⟨relations, g₂, -, h⟩
    · obtain ⟨-, -, hlog₂⟩ := exec_ask_recorded h₂
      refine ⟨_, by rw [hlog₂, hlog₁, List.append_assoc], ?_⟩
      simp [BrokenOff, Exchange.report?, Exchange.ranOut]
    · split at h
      · cases h
      · -- the children would have caught it
        rcases andThen_eq_error h with h₃ | ⟨_, _, -, h⟩
        · cases eq_refused_of_exec_childrenOf h₃
        · cases h

/-- What a visit that gives a tree has done: it took a number, asked for two places and for the
relations, and above the bound on the depth it went on to the children. -/
theorem exec_visit_eq_ok {r : Resolver σ} {direction : Direction} {maxDepth : Option Nat}
    {room depth : Nat} {item : Item} {g g' : Growth (σ × List Exchange)} {t : Tree}
    (h : exec (visit r.recorded direction maxDepth (room + 1) depth item) g = (.ok t, g')) :
    ∃ start selection relations g₁, g₁.nextId = g.nextId + 1 ∧ g₁.exhausted = g.exhausted ∧
      g₁.resolver.2 = g.resolver.2 ++ [.placed item.file item.spanStart (.ok start),
        .placed item.file item.selectionStart (.ok selection),
        .expanded direction item (.ok relations)] ∧
      ∃ ts missing,
        t = .node { nodeData g.nextId item start selection with
          further := !relations.isEmpty
          truncated := missing } ts ∧
        (maxDepth.any (· ≤ depth) = true ∧ ts = [] ∧ missing = !relations.isEmpty ∧ g' = g₁ ∨
          maxDepth.any (· ≤ depth) = false ∧
            exec (childrenOf (visit r.recorded direction maxDepth room (depth + 1)) relations) g₁ =
              (.ok (ts, missing), g')) := by
  rw [exec_visit] at h
  obtain ⟨data, g₀, h₀, h⟩ := andThen_eq_ok h
  obtain ⟨hid₀, hex₀, start, selection, rfl, hlog₀⟩ := exec_dataOf_ok h₀
  rw [Resolver.expand_recorded] at h
  obtain ⟨relations, g₁, h₁, h⟩ := andThen_eq_ok h
  obtain ⟨hid₁, hex₁, hlog₁⟩ := exec_ask_recorded h₁
  refine ⟨start, selection, relations, g₁, hid₁.trans hid₀, hex₁.trans hex₀, ?_, ?_⟩
  · rw [hlog₁, hlog₀, List.append_assoc]
    rfl
  · split at h
    next hbound =>
      cases h
      exact ⟨[], _, rfl, .inl ⟨hbound, rfl, rfl, rfl⟩⟩
    next hbound =>
      obtain ⟨⟨ts, missing⟩, g₂, hchildren, h⟩ := andThen_eq_ok h
      cases h
      exact ⟨ts, missing, rfl, .inr ⟨by simpa using hbound, hchildren⟩⟩

/-! ## Explained parts of the growth -/

/-- A part of the growth at a depth is explained by histories and by the questions `tail` about a
node that was given up:

- the histories keep to the rules and account for every question;
- if the stack is intact, they also account for every number, and nothing was cut above the bound;
- if it gave out, a question ran out of it, or a node found no room on it;
- a node that found no room on the stack is the last, and its expansion was the last question. -/
structure Explains (direction : Direction) (maxDepth : Option Nat) (bottom depth : Nat)
    (g g' : Growth (σ × List Exchange)) (hs : List History) (tail : List Exchange) : Prop where
  follow : History.AllFollow maxDepth depth hs
  log : g'.resolver.2 = g.resolver.2 ++ (History.exchangesOfAll direction hs ++ tail)
  intact : g'.exhausted = false → g'.nextId = g.nextId + History.sizeOfAll hs ∧ tail = [] ∧
    ∀ v ∈ History.visitsOfAll depth g.nextId hs, v.Complete maxDepth
  gaveOut : g'.exhausted = true → BrokenOff tail ∨
    tail = [] ∧ ∃ v ∈ History.visitsOfAll depth g.nextId hs, v.Cramped maxDepth bottom
  cramped : ∀ v ∈ History.visitsOfAll depth g.nextId hs, v.Cramped maxDepth bottom →
    g'.exhausted = true ∧ tail = [] ∧ v.id + 1 = g.nextId + History.sizeOfAll hs ∧
      (History.exchangesOfAll direction hs).getLast? = some (v.expansion direction)

section Explains

variable {direction : Direction} {maxDepth : Option Nat} {bottom depth : Nat}
  {g g₁ g' : Growth (σ × List Exchange)} {h : History} {hs : List History} {tail : List Exchange}
  {item : Item} {start selection : LineColumn} {relations : List Relation}

theorem explains_nil (hg : g.exhausted = false) :
    Explains direction maxDepth bottom depth g g [] [] where
  follow := trivial
  log := (List.append_nil _).symm
  intact _ := ⟨rfl, rfl, fun _ hv => absurd hv List.not_mem_nil⟩
  gaveOut hex := by
    rw [hg] at hex
    cases hex
  cramped _ hv := absurd hv List.not_mem_nil

/-- A first child that is given up leaves its parent without children. -/
theorem explains_brokenOff (hex : g'.exhausted = true)
    (hlog : g'.resolver.2 = g.resolver.2 ++ tail) (htail : BrokenOff tail) :
    Explains direction maxDepth bottom depth g g' [] tail where
  follow := trivial
  log := hlog
  intact hg' := by
    rw [hex] at hg'
    cases hg'
  gaveOut _ := .inl htail
  cramped _ hv := absurd hv List.not_mem_nil

/-- After a first child that left the stack intact come the others. -/
theorem Explains.cons {tail₁ : List Exchange}
    (hfirst : Explains direction maxDepth bottom depth g g₁ [h] tail₁) (hg₁ : g₁.exhausted = false)
    (hrest : Explains direction maxDepth bottom depth g₁ g' hs tail) :
    Explains direction maxDepth bottom depth g g' (h :: hs) tail := by
  obtain ⟨hnext, rfl, hcomplete⟩ := hfirst.intact hg₁
  simp only [History.sizeOfAll, History.visitsOfAll, List.append_nil, Nat.add_zero]
    at hnext hcomplete
  have hvisits : History.visitsOfAll depth g.nextId (h :: hs) =
      h.visits depth g.nextId ++ History.visitsOfAll depth g₁.nextId hs := by
    rw [History.visitsOfAll, hnext]
  have hsize : g₁.nextId + History.sizeOfAll hs = g.nextId + History.sizeOfAll (h :: hs) := by
    rw [hnext, History.sizeOfAll, Nat.add_assoc]
  refine ⟨⟨hfirst.follow.1, hrest.follow⟩, ?_, ?_, ?_, ?_⟩
  · rw [hrest.log, hfirst.log]
    simp [History.exchangesOfAll]
  · intro hg'
    obtain ⟨hnext', htail, hcomplete'⟩ := hrest.intact hg'
    refine ⟨hnext'.trans hsize, htail, fun v hv => ?_⟩
    rw [hvisits, List.mem_append] at hv
    exact hv.elim (hcomplete v) (hcomplete' v)
  · intro hex
    refine (hrest.gaveOut hex).imp id fun ⟨htail, v, hv, hcramped⟩ => ⟨htail, v, ?_, hcramped⟩
    rw [hvisits]
    exact List.mem_append_right _ hv
  · intro v hv hcramped
    rw [hvisits, List.mem_append] at hv
    rcases hv with hv | hv
    · -- the first child would have used up the stack
      have hmem : v ∈ History.visitsOfAll depth g.nextId [h] := by
        simpa [History.visitsOfAll] using hv
      have hex := (hfirst.cramped v hmem hcramped).1
      rw [hg₁] at hex
      cases hex
    · obtain ⟨hex, htail, hid, hlast⟩ := hrest.cramped v hv hcramped
      refine ⟨hex, htail, hid.trans hsize, ?_⟩
      rw [History.exchangesOfAll, List.getLast?_append, hlast]
      rfl

/-- A node whose children are explained is explained, unless it has itself no room for them. -/
theorem Explains.node (hnext : g₁.nextId = g.nextId + 1)
    (hlog : g₁.resolver.2 = g.resolver.2 ++ [.placed item.file item.spanStart (.ok start),
      .placed item.file item.selectionStart (.ok selection),
      .expanded direction item (.ok relations)])
    (hitems : hs.map History.item <+: relations.map Relation.item)
    (hbound : maxDepth.any (· ≤ depth) = true → hs = [])
    (hroom : depth = bottom → relations ≠ [] → maxDepth.any (· ≤ depth) = true)
    (hall : g'.exhausted = false →
      maxDepth.any (· ≤ depth) = true ∨ hs.length = relations.length)
    (hchildren : Explains direction maxDepth bottom (depth + 1) g₁ g' hs tail) :
    Explains direction maxDepth bottom depth g g'
      [.node item start selection relations hs] tail := by
  have hvisits : History.visitsOfAll depth g.nextId [.node item start selection relations hs] =
      ⟨depth, g.nextId, .node item start selection relations hs⟩ ::
        History.visitsOfAll (depth + 1) g₁.nextId hs := by
    rw [hnext]
    simp [History.visitsOfAll, History.visits]
  have hsize : g₁.nextId + History.sizeOfAll hs =
      g.nextId + History.sizeOfAll [.node item start selection relations hs] := by
    simp only [History.sizeOfAll, History.size]
    omega
  refine ⟨⟨⟨hitems, hbound, hchildren.follow⟩, trivial⟩, ?_, ?_, ?_, ?_⟩
  · rw [hchildren.log, hlog]
    simp [History.exchangesOfAll, History.exchanges]
  · intro hg'
    obtain ⟨hnext', htail, hcomplete⟩ := hchildren.intact hg'
    refine ⟨hnext'.trans hsize, htail, fun v hv => ?_⟩
    rw [hvisits, List.mem_cons] at hv
    rcases hv with rfl | hv
    · exact hall hg'
    · exact hcomplete v hv
  · intro hex
    refine (hchildren.gaveOut hex).imp id fun ⟨htail, v, hv, hcramped⟩ => ⟨htail, v, ?_, hcramped⟩
    rw [hvisits]
    exact List.mem_cons_of_mem _ hv
  · intro v hv hcramped
    rw [hvisits, List.mem_cons] at hv
    rcases hv with rfl | hv
    · obtain ⟨hdepth, hrelations, hfree⟩ := hcramped
      rw [hroom hdepth hrelations] at hfree
      cases hfree
    · obtain ⟨hex, htail, hid, hlast⟩ := hchildren.cramped v hv hcramped
      refine ⟨hex, htail, hid.trans hsize, ?_⟩
      simp only [History.exchangesOfAll, History.exchanges, List.append_nil]
      rw [List.getLast?_cons_cons, List.getLast?_cons_cons, List.getLast?_cons, hlast]
      rfl

/-- A node that needs no children, since nothing was reported for it or since it stands at the bound
on the depth. -/
theorem explains_leaf (hnext : g'.nextId = g.nextId + 1) (hg' : g'.exhausted = false)
    (hlog : g'.resolver.2 = g.resolver.2 ++ [.placed item.file item.spanStart (.ok start),
      .placed item.file item.selectionStart (.ok selection),
      .expanded direction item (.ok relations)])
    (hleaf : maxDepth.any (· ≤ depth) = true ∨ relations = []) :
    Explains direction maxDepth bottom depth g g' [.node item start selection relations []] [] := by
  refine .node hnext hlog List.nil_prefix (fun _ => rfl) ?_ ?_ (explains_nil hg')
  · intro _ hrelations
    exact hleaf.resolve_right hrelations
  · intro _
    exact hleaf.imp id fun h => (congrArg List.length h).symm

/-- A node that has relations but no room for a child. -/
theorem explains_cramped (hex : g'.exhausted = true)
    (hlog : g'.resolver.2 = g.resolver.2 ++ [.placed item.file item.spanStart (.ok start),
      .placed item.file item.selectionStart (.ok selection),
      .expanded direction item (.ok relations)])
    (hrelations : relations ≠ []) (hfree : maxDepth.any (· ≤ bottom) = false) :
    Explains direction maxDepth bottom bottom g g'
      [.node item start selection relations []] [] := by
  have hvisits : History.visitsOfAll bottom g.nextId [.node item start selection relations []] =
      [⟨bottom, g.nextId, .node item start selection relations []⟩] := by
    simp [History.visitsOfAll, History.visits]
  refine ⟨⟨⟨List.nil_prefix, fun _ => rfl, trivial⟩, trivial⟩, ?_, ?_, ?_, ?_⟩
  · rw [hlog]
    rfl
  · intro hg'
    rw [hex] at hg'
    cases hg'
  · intro _
    rw [hvisits]
    exact .inr ⟨rfl, _, List.mem_singleton_self _, rfl, hrelations, hfree⟩
  · intro v hv _
    rw [hvisits, List.mem_singleton] at hv
    subst hv
    exact ⟨hex, rfl, rfl, rfl⟩

/-- The children of a node are explained when each of their visits is. Induction on the relations: a
child that leaves the stack intact is followed by the others; one after which the stack is used up
is the last; one that runs out is not built. -/
theorem exec_childrenOf_history {visit : Item → Grow (σ × List Exchange) Tree}
    (hok : ∀ item (g g' : Growth (σ × List Exchange)) t, g.exhausted = false →
      exec (visit item) g = (.ok t, g') → ∃ h tail, History.item h = item ∧ t = h.tree g.nextId ∧
        Explains direction maxDepth bottom depth g g' [h] tail)
    (hout : ∀ item (g g' : Growth (σ × List Exchange)),
      exec (visit item) g = (.error .stackExhausted, g') →
        ∃ tail, g'.resolver.2 = g.resolver.2 ++ tail ∧ BrokenOff tail)
    {ts : List Tree} {missing : Bool} (hg : g.exhausted = false)
    (hrun : exec (childrenOf visit relations) g = (.ok (ts, missing), g')) :
    ∃ hs tail, hs.map History.item <+: relations.map Relation.item ∧
      missing = decide (hs.length < relations.length) ∧ ts = History.trees g.nextId hs ∧
      (g'.exhausted = false → hs.length = relations.length) ∧
        Explains direction maxDepth bottom depth g g' hs tail := by
  induction relations generalizing g ts with
  | nil =>
    cases hrun
    exact ⟨[], [], List.prefix_rfl, rfl, rfl, fun _ => rfl, explains_nil hg⟩
  | cons relation rest ih =>
    rcases exec_childrenOf_cons_eq_ok hg hrun with
      ⟨g₁, hvisit, rfl, rfl, rfl⟩ | ⟨t, more, g₁, hvisit, hmore, rfl⟩
    · obtain ⟨tail, hlog, hbroken⟩ := hout _ _ _ hvisit
      refine ⟨[], tail, List.nil_prefix, rfl, rfl, ?_, explains_brokenOff rfl hlog hbroken⟩
      intro hg'
      cases hg'
    · obtain ⟨h, tail₁, hitem, rfl, hfirst⟩ := hok _ _ _ _ hg hvisit
      cases hg₁ : g₁.exhausted with
      | false =>
        obtain ⟨hs, tail, hitems, rfl, rfl, hall, hrest⟩ := ih hg₁ hmore
        refine ⟨h :: hs, tail, ?_, by simp, ?_, fun hg' => ?_, hfirst.cons hg₁ hrest⟩
        · rw [List.map_cons, List.map_cons, hitem]
          exact List.cons_prefix_cons.mpr ⟨rfl, hitems⟩
        · rw [History.trees, (hfirst.intact hg₁).1]
          simp [History.sizeOfAll]
        · rw [List.length_cons, List.length_cons, hall hg']
      | true =>
        have hlast : more = [] ∧ missing = decide (1 < (relation :: rest).length) ∧ g' = g₁ := by
          cases rest with
          | nil =>
            cases hmore
            exact ⟨rfl, rfl, rfl⟩
          | cons relation' rest =>
            rw [exec_childrenOf_of_exhausted visit relation' rest hg₁] at hmore
            cases hmore
            exact ⟨rfl, by simp, rfl⟩
        obtain ⟨rfl, rfl, rfl⟩ := hlast
        refine ⟨[h], tail₁, ?_, rfl, rfl, fun hg' => ?_, hfirst⟩
        · rw [List.map_cons, List.map_cons, hitem]
          exact List.cons_prefix_cons.mpr ⟨rfl, List.nil_prefix⟩
        · rw [hg₁] at hg'
          cases hg'

end Explains

/-- A node without children lacks all of those that were reported. -/
theorem tree_of_bounded (i : Nat) (item : Item) (start selection : LineColumn)
    (relations : List Relation) :
    Tree.node { nodeData i item start selection with
      further := !relations.isEmpty
      truncated := !relations.isEmpty } [] =
        (History.node item start selection relations []).tree i := by
  cases relations with
  | nil => rfl
  | cons relation rest => rfl

/-- **A tree has a history.** Induction on the room on the stack; the children of a node have one
level less. -/
theorem exec_visit_history {r : Resolver σ} {direction : Direction} {maxDepth : Option Nat}
    {room depth : Nat} {item : Item} {g g' : Growth (σ × List Exchange)} {t : Tree}
    (hg : g.exhausted = false)
    (hrun : exec (visit r.recorded direction maxDepth (room + 1) depth item) g = (.ok t, g')) :
    ∃ h tail, History.item h = item ∧ t = h.tree g.nextId ∧
      Explains direction maxDepth (depth + room) depth g g' [h] tail := by
  induction room generalizing depth item g g' t with
  | zero =>
    obtain ⟨start, selection, relations, g₁, hid, hex, hlog, ts, missing, rfl, hend⟩ :=
      exec_visit_eq_ok hrun
    have hg₁ : g₁.exhausted = false := hex.trans hg
    rcases hend with ⟨hbound, rfl, rfl, rfl⟩ | ⟨hfree, hchildren⟩
    · exact ⟨_, [], rfl, tree_of_bounded _ _ _ _ _, explains_leaf hid hg₁ hlog (.inl hbound)⟩
    · rw [exec_childrenOf_visit_zero _ _ _ _ _ hg₁] at hchildren
      cases hchildren
      refine ⟨_, [], rfl, tree_of_bounded _ _ _ _ _, ?_⟩
      cases relations with
      | nil => exact explains_leaf hid rfl hlog (.inr rfl)
      | cons relation rest => exact explains_cramped rfl hlog (List.cons_ne_nil _ _) hfree
  | succ room ih =>
    obtain ⟨start, selection, relations, g₁, hid, hex, hlog, ts, missing, rfl, hend⟩ :=
      exec_visit_eq_ok hrun
    have hg₁ : g₁.exhausted = false := hex.trans hg
    rcases hend with ⟨hbound, rfl, rfl, rfl⟩ | ⟨hfree, hchildren⟩
    · exact ⟨_, [], rfl, tree_of_bounded _ _ _ _ _, explains_leaf hid hg₁ hlog (.inl hbound)⟩
    · have hbottom : depth + 1 + room = depth + (room + 1) := by omega
      obtain ⟨hs, tail, hitems, rfl, rfl, hall, hexplained⟩ :=
        exec_childrenOf_history (fun _ _ _ _ => ih)
          (fun _ _ _ => exec_visit_exhausted) hg₁ hchildren
      rw [hbottom] at hexplained
      refine ⟨.node item start selection relations hs, tail, rfl, ?_, ?_⟩
      · rw [History.tree, hid]
      · refine .node hid hlog hitems (fun hbound => ?_) (fun hdepth => ?_)
          (fun hg' => .inr (hall hg')) hexplained
        · rw [hfree] at hbound
          cases hbound
        · omega

end Grow

end CallAtlas
