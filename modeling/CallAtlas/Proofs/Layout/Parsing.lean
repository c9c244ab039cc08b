import CallAtlas.Proofs.Layout.Nodes
import CallAtlas.Proofs.Source.Reading

/-!
# What parsers have read so far

While a construct is read, `Span fin lo begun nodes` holds of the input: the nodes that were read so
far are spread between the place `lo` where the construct starts and the end of the last token that
was taken. Before the first token is taken, nothing has `begun`.

- `Lays p nodes Q`: a parser reads a construct, of which the nodes are left.
- `Adds p nodes`: a parser reads what may follow inside a construct.

Both say how a span grows when the parser is run inside a longer one, so that the proof about a
parser follows its text and never compares places.
-/

namespace CallAtlas.Text

namespace Compatibility

theorem decomposed_ne_nil (c : Char) : decomposed c ≠ [] := by
  unfold decomposed
  split
  next parts hparts =>
    unfold syllableParts? at hparts
    dsimp only at hparts
    split at hparts
    · simp at hparts
    · rw [← Option.some_inj.mp hparts]
      simp
  next =>
    split
    · simp
    · simpa using split_ne_nil ' ' (formField c)

theorem insertMark_ne_nil (c : Char) (cs : List Char) : insertMark c cs ≠ [] := by
  cases cs with
  | nil => simp [insertMark]
  | cons d rest =>
    rw [insertMark]
    split <;> simp

theorem composeFrom_ne_nil (first : Char) (marks rest : List Char) :
    composeFrom first marks rest ≠ [] := by
  fun_induction composeFrom first marks rest <;> simp_all

theorem composed_ne_nil {cs : List Char} (h : cs ≠ []) : composed cs ≠ [] := by
  obtain ⟨c, rest, rfl⟩ := List.exists_cons_of_ne_nil h
  rw [composed]
  split
  · exact composeFrom_ne_nil c [] rest
  · exact List.cons_ne_nil _ _

end Compatibility

open Compatibility in
/-- An identifier stays one in its plain form. -/
theorem Identifier.plainForm_ne_nil {cs : List Char} (h : cs ≠ []) : plainForm cs ≠ [] := by
  unfold plainForm
  split
  · exact h
  · have hcs : cs.flatMap decomposed ≠ [] := by
      obtain ⟨c, rest, rfl⟩ := List.exists_cons_of_ne_nil h
      rw [List.flatMap_cons]
      exact List.append_ne_nil_of_left_ne_nil (decomposed_ne_nil c) _
    obtain ⟨d, others, hd⟩ := List.exists_cons_of_ne_nil hcs
    rw [hd]
    exact composed_ne_nil (insertMark_ne_nil d (ordered others))

end CallAtlas.Text

namespace CallAtlas.Source

/-! ## Inputs -/

namespace Input

/-- Where the next token starts. -/
def front (i : Input) : Place := (i.tokens.head?.map (·.extent.start)).getD i.last

/-- The next token is of the given kind. -/
def Faces (l : Lexeme) (i : Input) : Prop := (i.tokens.head?.map Token.lexeme).getD .finish = l

/-- The tokens of an input are spaced behind what was read, and something can be repeated. -/
structure Ready (fin : Place) (i : Input) : Prop where
  last_le : i.last ≤ fin
  spaced : Spaced fin i.last i.tokens
  bound_pos : 0 < i.bound

variable {fin : Place} {i j : Input} {t : Token}

theorem Ready.last_le_front (h : i.Ready fin) : i.last ≤ i.front := by
  have hspaced := h.spaced
  unfold front
  cases htokens : i.tokens with
  | nil => exact le_rfl
  | cons t ts =>
    rw [htokens] at hspaced
    exact hspaced.1

theorem lexeme_of_faces {l : Lexeme} (h : i.Faces l) (hnext : Parser.next i = some (t, j)) :
    t.lexeme = l := by
  rw [Faces, Parser.tokens_of_next hnext] at h
  exact h

theorem Ready.sound_of_next (h : i.Ready fin) (hnext : Parser.next i = some (t, j)) :
    i.front = t.extent.start ∧ t.Sound fin := by
  have htokens := Parser.tokens_of_next hnext
  have hspaced := h.spaced
  rw [htokens] at hspaced
  exact ⟨by rw [front, htokens]; rfl, hspaced.2.1⟩

theorem last_of_next (hnext : Parser.next i = some (t, j)) :
    (j.last = if t.lexeme.isLayout = true then i.last else t.extent.stop) ∧ j.bound = i.bound := by
  unfold Parser.next at hnext
  split at hnext
  · cases hnext
  · cases hnext
    exact ⟨rfl, rfl⟩

/-- Layout does not move the end of what was read, any other token does. -/
theorem Ready.of_next (h : i.Ready fin) (hnext : Parser.next i = some (t, j)) :
    j.Ready fin ∧ i.last ≤ j.last := by
  obtain ⟨hlast, hbound⟩ := last_of_next hnext
  have hpos : 0 < j.bound := hbound ▸ h.bound_pos
  have hspaced := h.spaced
  rw [Parser.tokens_of_next hnext] at hspaced
  obtain ⟨hle, hsound, hrest⟩ := hspaced
  have hstop : i.last ≤ t.extent.stop := hle.trans hsound.start_le
  by_cases hlayout : t.lexeme.isLayout = true
  · rw [if_pos hlayout] at hlast
    exact ⟨⟨hlast ▸ h.last_le, hlast ▸ hrest.of_le hstop, hpos⟩, hlast.ge⟩
  · rw [if_neg hlayout] at hlast
    exact ⟨⟨hlast ▸ hsound.stop_le (Bool.eq_false_iff.mpr hlayout), hlast ▸ hrest, hpos⟩,
      hlast ▸ hstop⟩

end Input

/-! ## Spans -/

/-- The nodes read so far are spread behind the place where a construct starts. -/
structure Span (fin lo : Place) (begun : Bool) (nodes : List Node) (i : Input) : Prop where
  ready : i.Ready fin
  front : lo ≤ i.front
  last : begun = true → lo ≤ i.last
  spread : Spread lo i.last nodes

variable {fin lo start : Place} {begun : Bool} {nodes more : List Node} {i j : Input} {t : Token}

namespace Span

/-- A construct starts at the next token. -/
theorem fresh (h : i.Ready fin) : Span fin i.front false [] i :=
  ⟨h, le_rfl, by simp, .nil⟩

theorem of_begun (h : Span fin lo true nodes i) : Span fin lo begun nodes i :=
  { h with last := fun _ => h.last rfl }

theorem of_subperm (h : Span fin lo begun nodes i) (hsub : more.Subperm nodes) :
    Span fin lo begun more i :=
  { h with spread := h.spread.of_subperm hsub }

/-- A span that has begun goes on from where the input is. -/
theorem advance (h : Span fin lo true nodes i) (hj : j.Ready fin) (hle : i.last ≤ j.last) :
    Span fin lo true nodes j where
  ready := hj
  front := (h.last rfl).trans (hle.trans hj.last_le_front)
  last _ := (h.last rfl).trans hle
  spread := h.spread.mono le_rfl hle

/-- What starts at the next token goes into a longer span. -/
theorem append (h : Span fin lo begun nodes i) (hmore : Span fin i.front true more j) :
    Span fin lo true (nodes ++ more) j where
  ready := hmore.ready
  front := h.front.trans hmore.front
  last _ := h.front.trans (hmore.last rfl)
  spread := h.spread.append hmore.spread h.ready.last_le_front h.front
    (h.ready.last_le_front.trans (hmore.last rfl))

/-- A span that starts later lies behind nodes that were read before. -/
theorem behind (h : Span fin start true nodes i) (hmore : Spread lo start more) (hle : lo ≤ start) :
    Span fin lo true (more ++ nodes) i where
  ready := h.ready
  front := hle.trans h.front
  last _ := hle.trans (h.last rfl)
  spread := hmore.append h.spread le_rfl hle (h.last rfl)

theorem of_le (h : Span fin start true nodes i) (hle : lo ≤ start) : Span fin lo true nodes i :=
  h.behind .nil hle

theorem of_next (h : Span fin lo begun nodes i) (hnext : Parser.next i = some (t, j))
    (hlayout : t.lexeme.isLayout = false) :
    Span fin lo true nodes j ∧ lo ≤ t.extent.start ∧ t.Sound fin := by
  obtain ⟨hfront, hsound⟩ := h.ready.sound_of_next hnext
  obtain ⟨hready, hle⟩ := h.ready.of_next hnext
  have hlast := (Input.last_of_next hnext).1
  rw [hlayout, if_neg Bool.false_ne_true] at hlast
  have hstart : lo ≤ t.extent.start := hfront ▸ h.front
  have hlo : lo ≤ j.last := hlast ▸ hstart.trans hsound.start_le
  exact ⟨⟨hready, hlo.trans hready.last_le_front, fun _ => hlo, h.spread.mono le_rfl hle⟩,
    hstart, hsound⟩

theorem of_next_word (h : Span fin lo begun nodes i) (hnext : Parser.next i = some (t, j))
    {w : List Char} (hword : t.lexeme = .word w) : Span fin lo true nodes j ∧ lo < j.last := by
  have hlayout : t.lexeme.isLayout = false := by rw [hword]; rfl
  obtain ⟨hspan, hstart, hsound⟩ := h.of_next hnext hlayout
  refine ⟨hspan, ?_⟩
  rw [(Input.last_of_next hnext).1, hlayout, if_neg Bool.false_ne_true]
  exact hstart.trans_lt (hsound.start_lt hword)

/-- An expression that ends with what was read. -/
theorem of_snug (h : Span fin lo true nodes i) {n : Node} (hn : n.Snug) (hlo : lo ≤ n.extent.start)
    (hstop : n.extent.stop ≤ i.last) : Span fin lo true [n] i :=
  { h with spread := .singleton (hn.placed hlo hstop) }

end Span

/-! ## Parsers inside a span -/

namespace Parser

variable {α β : Type} {p : Parser α} {f : α → Parser β} {R : α → Input → Prop}
  {S : β → Input → Prop}
variable {Q : α → Prop} {left : α → List Node}

/-- A parser reads a construct, of which the nodes `left` remain. -/
def Lays (fin : Place) (p : Parser α) (left : α → List Node) (Q : α → Prop) : Prop :=
  ∀ lo, Runs (Span fin lo false []) p fun a j => Span fin lo true (left a) j ∧ Q a

/-- A parser reads what may follow inside a construct. -/
def Adds (fin : Place) (p : Parser α) (left : α → List Node) : Prop :=
  ∀ lo, Runs (Span fin lo true []) p fun a j => Span fin lo true (left a) j

/-- A parser reads an expression. -/
def Sets (fin : Place) (p : Parser Operand) : Prop :=
  Lays fin p (fun a => [a.node]) fun a => a.node.Snug

/-- A parser takes tokens, but no nodes. -/
def Passes (fin : Place) (p : Parser α) : Prop := Lays fin p (fun _ => []) fun _ => True

/-- A parser may take tokens, but no nodes. -/
def Keeps (fin : Place) (p : Parser α) : Prop := Adds fin p fun _ => []

/-- A parser may take tokens, says whether it did, and leaves the input alone if it did not. -/
def Tries (fin : Place) (test : Parser Bool) : Prop :=
  ∀ lo begun nodes, Runs (Span fin lo begun nodes) test fun found =>
    Span fin lo (begun || found) nodes

theorem Lays.adds (h : Lays fin p left Q) : Adds fin p left :=
  fun lo => ((h lo).weaken fun _ hspan => hspan.of_begun).imp fun _ _ hspan => hspan.1

/-- A construct that starts here, with what else is known of the input. -/
theorem Runs.here {P : Input → Prop} {k : Place → Parser α}
    (h : ∀ start, Runs (fun i => Span fin start false [] i ∧ P i) (k start) fun a j =>
      Span fin start true (left a) j ∧ Q a) :
    Runs (fun i => Span fin lo false [] i ∧ P i) (here >>= k) fun a j =>
    Span fin lo true (left a) j ∧ Q a := by
  rintro i a j ⟨hspan, hi⟩ hread
  obtain ⟨start, i', hfirst, hread⟩ := bind_eq_some_iff.mp hread
  cases hfirst
  obtain ⟨hend, ha⟩ := h _ i a j ⟨.fresh hspan.ready, hi⟩ hread
  exact ⟨hend.of_le hspan.front, ha⟩

/-- A node that starts here, behind nodes that were read before. -/
theorem Runs.hereBehind {k : Place → Parser β}
    (hf : ∀ start, lo ≤ start →
      Runs (fun i => Span fin lo begun nodes i ∧ start ≤ i.front) (k start) S) :
    Runs (Span fin lo begun nodes) (Parser.here >>= k) S := by
  intro i b j hspan hread
  obtain ⟨start, i', hfirst, hread⟩ := bind_eq_some_iff.mp hread
  cases hfirst
  exact hf _ hspan.front i b j ⟨hspan, le_rfl⟩ hread

theorem Lays.here {k : Place → Parser α}
    (h : ∀ start, Runs (Span fin start false []) (k start) fun a j =>
      Span fin start true (left a) j ∧ Q a) :
    Lays fin (here >>= k) left Q := fun _ =>
  (Runs.here (P := fun _ => True) fun start => (h start).weaken fun _ hspan => hspan.1).weaken
    fun _ hspan => ⟨hspan, trivial⟩

/-- From here on what follows is a construct of its own, behind the nodes read before. -/
theorem Runs.freshWith {P : Place → Prop}
    (h : ∀ mid, P mid → lo ≤ mid → Spread lo mid nodes → Runs (Span fin mid true []) p R) :
    Runs (fun i => Span fin lo true nodes i ∧ P i.last) p R := by
  rintro i a j ⟨hspan, hlast⟩ hread
  have hi : Span fin i.last true [] i :=
    ⟨hspan.ready, hspan.ready.last_le_front, fun _ => le_rfl, .nil⟩
  exact h i.last hlast (hspan.last rfl) hspan.spread i a j hi hread

theorem Runs.fresh (h : ∀ mid, lo ≤ mid → Spread lo mid nodes → Runs (Span fin mid true []) p R) :
    Runs (Span fin lo true nodes) p R :=
  (Runs.freshWith (P := fun _ => True) fun mid _ => h mid).weaken fun _ hspan => ⟨hspan, trivial⟩

/-- What may follow is read in the same way behind nodes as without. -/
theorem Adds.runs (h : Adds fin p left) :
    Runs (Span fin lo true nodes) p fun a => Span fin lo true (nodes ++ left a) :=
  .fresh fun mid hle hspread => (h mid).imp fun _ _ hspan => hspan.behind hspread hle

namespace Runs

/-- A construct inside a longer one. -/
theorem lay (hp : Lays fin p left Q)
    (hf : ∀ a, Q a → Runs (Span fin lo true (nodes ++ left a)) (f a) S) :
    Runs (Span fin lo begun nodes) (p >>= f) S := by
  intro i b k hspan hread
  obtain ⟨a, j, hfirst, hread⟩ := bind_eq_some_iff.mp hread
  obtain ⟨hend, ha⟩ := hp i.front i a j (.fresh hspan.ready) hfirst
  exact hf a ha j b k (hspan.append hend) hread

/-- What may follow inside a construct. -/
theorem add (hp : Adds fin p left) (hf : ∀ a, Runs (Span fin lo true (nodes ++ left a)) (f a) S) :
    Runs (Span fin lo true nodes) (p >>= f) S :=
  .bind hp.runs hf

theorem pass (hp : Passes fin p) (hf : ∀ a, Runs (Span fin lo true nodes) (f a) S) :
    Runs (Span fin lo begun nodes) (p >>= f) S :=
  .lay hp fun a _ => by
    rw [List.append_nil]
    exact hf a

theorem keep (hp : Keeps fin p) (hf : ∀ a, Runs (Span fin lo true nodes) (f a) S) :
    Runs (Span fin lo true nodes) (p >>= f) S :=
  .add hp fun a => by
    rw [List.append_nil]
    exact hf a

/-- A node that ends with what was read. -/
theorem close {P : Input → Prop} {k : Extent → α} (h : ∀ i, P i → R (k ⟨start, i.last⟩) i) :
    Runs P (extentFrom start >>= fun extent => Pure.pure (k extent)) R := by
  intro i a j hi hread
  obtain ⟨extent, i', hfirst, hread⟩ := bind_eq_some_iff.mp hread
  cases hfirst
  cases hread
  exact h i hi

theorem peek {P : Input → Prop} {k : Lexeme → Parser β}
    (hf : ∀ l, Runs (fun i => P i ∧ i.Faces l) (k l) S) :
    Runs P (peek >>= k) S :=
  .see (fun _ => rfl) hf

/-- A token is taken that is known not to be layout. -/
theorem next {l : Lexeme} {k : Token → Parser β} (hlayout : l.isLayout = false)
    (hf : ∀ t, t.lexeme = l → Runs (Span fin lo true nodes) (k t) S) :
    Runs (fun i => Span fin lo begun nodes i ∧ i.Faces l) (next >>= k) S := by
  rintro i b j ⟨hspan, hfaces⟩ hread
  obtain ⟨t, i', hfirst, hread⟩ := bind_eq_some_iff.mp hread
  have ht := Input.lexeme_of_faces hfaces hfirst
  exact hf t ht i' b j (hspan.of_next hfirst (ht ▸ hlayout)).1 hread

/-- A token is taken that turns out not to be layout. -/
theorem nextLexeme {k : Token → Parser β}
    (hf : ∀ t, Runs (fun i => t.lexeme.isLayout = false → Span fin lo true nodes i) (k t) S) :
    Runs (Span fin lo begun nodes) (Parser.next >>= k) S := by
  intro i b j hspan hread
  obtain ⟨t, i', hfirst, hread⟩ := bind_eq_some_iff.mp hread
  exact hf t i' b j (fun hlayout => (hspan.of_next hfirst hlayout).1) hread

/-- A branch on whether tokens could be taken. -/
theorem test {test : Parser Bool} {yes no : Parser β} (htest : Tries fin test)
    (hyes : Runs (Span fin lo true nodes) yes S) (hno : Runs (Span fin lo begun nodes) no S) :
    Runs (Span fin lo begun nodes) (test >>= fun found => if found = true then yes else no) S := by
  refine .bind (htest lo begun nodes) fun found => ?_
  cases found with
  | true => exact hyes.weaken fun _ hspan => Bool.or_true begun ▸ hspan
  | false => exact hno.weaken fun _ hspan => Bool.or_false begun ▸ hspan

end Runs

/-! ### Single tokens -/

theorem Takes.tries {test : Parser Bool} {l : Lexeme} (h : Takes test l)
    (hlayout : l.isLayout = false) :
    Tries fin test := by
  intro lo begun nodes i found j hspan hread
  rcases h i found j hread with ⟨rfl, t, ht, hnext⟩ | ⟨rfl, rfl⟩
  · rw [Bool.or_true]
    exact (hspan.of_next hnext (ht ▸ hlayout)).1
  · rw [Bool.or_false]
    exact hspan

theorem tries_optSign (text : String) : Tries fin (optSign text) := (takes_optSign text).tries rfl

theorem tries_optWord (text : String) : Tries fin (optWord text) := (takes_optWord text).tries rfl

theorem tries_optSignOf (texts : List String) : Tries fin (optSignOf texts) := by
  intro lo begun nodes
  refine .peek fun l => ?_
  split
  next cs =>
    split
    · refine .next rfl fun t _ => .pure fun i hspan => ?_
      rwa [Bool.or_true]
    · refine .pure fun i hspan => ?_
      rw [Bool.or_false]
      exact hspan.1
  next =>
    refine .pure fun i hspan => ?_
    rw [Bool.or_false]
    exact hspan.1

theorem Tries.keeps {test : Parser Bool} (h : Tries fin test) : Keeps fin test :=
  fun lo => h lo true []

/-- Tokens that have to be there. -/
theorem Tries.passes {test : Parser Bool} (h : Tries fin test) :
    Passes fin (test >>= fun found => guard (found = true)) := by
  intro lo i u j hspan hread
  obtain ⟨found, i', hfirst, hguard⟩ := bind_eq_some_iff.mp hread
  obtain ⟨rfl, rfl⟩ := of_guard hguard
  exact ⟨h lo false [] i true j hspan hfirst, trivial⟩

theorem passes_sign (text : String) : Passes fin (sign text) := (tries_optSign text).passes

theorem passes_word (text : String) : Passes fin (word text) := (tries_optWord text).passes

theorem keeps_next : Keeps fin next := by
  intro lo i t j hspan hread
  obtain ⟨hready, hle⟩ := hspan.ready.of_next hread
  exact hspan.advance hready hle

theorem keeps_layout (lexeme : Lexeme) : Keeps fin (layout lexeme) := by
  intro lo i u j hspan hread
  obtain ⟨t, i', hfirst, hguard⟩ := bind_eq_some_iff.mp hread
  obtain ⟨-, rfl⟩ := of_guard hguard
  exact keeps_next lo i t j hspan hfirst

/-- Behind a word something was read since any place before it. -/
theorem Runs.word {text : String} {k : Unit → Parser β}
    (hf : Runs (fun i => Span fin lo true nodes i ∧ start < i.last) (k ()) S) :
    Runs (fun i => Span fin lo begun nodes i ∧ start ≤ i.front) (word text >>= k) S := by
  rintro i b k ⟨hspan, hstart⟩ hread
  obtain ⟨u, j, hfirst, hread⟩ := bind_eq_some_iff.mp hread
  obtain ⟨found, j', hopt, hguard⟩ := bind_eq_some_iff.mp hfirst
  obtain ⟨rfl, rfl⟩ := of_guard hguard
  rcases takes_optWord text i true j hopt with ⟨-, t, ht, hnext⟩ | ⟨hfalse, -⟩
  · have hword := (Span.fresh hspan.ready).of_next_word hnext ht
    exact hf j b k ⟨(hspan.of_next_word hnext ht).1, hstart.trans_lt hword.2⟩ hread
  · cases hfalse

theorem of_name {i j : Input} {id : String} (h : name i = some (id, j)) :
    ∃ t w, next i = some (t, j) ∧ t.lexeme = .word w ∧
      id = String.ofList (Text.Identifier.plainForm w) := by
  obtain ⟨t, i', hnext, h⟩ := bind_eq_some_iff.mp h
  cases hw : t.lexeme with
  | word w =>
    rw [hw] at h
    obtain ⟨u, i'', hguard, hpure⟩ := bind_eq_some_iff.mp h
    obtain ⟨-, rfl⟩ := of_guard hguard
    cases hpure
    exact ⟨t, w, hnext, hw, rfl⟩
  | _ =>
    rw [hw] at h
    cases h

/-- A name is not empty, and behind it something was read. -/
theorem Runs.name {k : String → Parser β}
    (hf : ∀ id, id ≠ "" → Runs (fun i => Span fin lo true [] i ∧ lo < i.last) (k id) S) :
    Runs (Span fin lo begun []) (name >>= k) S := by
  intro i b k hspan hread
  obtain ⟨id, j, hfirst, hread⟩ := bind_eq_some_iff.mp hread
  obtain ⟨t, w, hnext, hw, rfl⟩ := of_name hfirst
  obtain ⟨-, -, hsound⟩ := hspan.of_next hnext (by rw [hw]; rfl)
  refine hf _ (fun hempty => ?_) j b k (hspan.of_next_word hnext hw) hread
  exact Text.Identifier.plainForm_ne_nil (hsound.word w hw) (String.ofList_eq_empty_iff.mp hempty)

theorem passes_name : Passes fin name := by
  intro lo
  rw [← bind_pure name]
  exact .name fun id _ => .pure fun i hspan => ⟨hspan.1, trivial⟩

/-- A branch on whether a token could be taken: if so, what follows starts at this token. -/
theorem Runs.testAt {test : Parser Bool} {l : Lexeme} {opened : Place} {yes no : Parser β}
    (htest : Takes test l) (hlayout : l.isLayout = false)
    (hyes : lo ≤ opened → Spread lo opened nodes → Runs (Span fin opened true []) yes S)
    (hno : Runs (fun i => Span fin lo begun nodes i ∧ i.front = opened) no S) :
    Runs (fun i => Span fin lo begun nodes i ∧ i.front = opened)
      (test >>= fun found => if found = true then yes else no) S := by
  rintro i b j ⟨hspan, rfl⟩ hread
  obtain ⟨found, i', hfirst, hrest⟩ := bind_eq_some_iff.mp hread
  rcases htest i found i' hfirst with ⟨rfl, t, ht, hnext⟩ | ⟨rfl, rfl⟩
  · have hopened := ((Span.fresh hspan.ready).of_next hnext (ht ▸ hlayout)).1
    have hspread := hspan.spread.mono le_rfl hspan.ready.last_le_front
    exact hyes hspan.front hspread i' b j hopened hrest
  · exact hno i' b j ⟨hspan, rfl⟩ hrest

/-! ### Lists -/

/-- Items one after the other. -/
theorem Adds.repeated {item : Parser (Option α)}
    (h : Adds fin item fun found => found.toList.flatMap left) :
    Adds fin (repeated item) fun items => items.flatMap left := by
  intro lo
  refine @Runs.repeated _ _ (fun done => Span fin lo true (done.flatMap left)) fun done =>
    h.runs.imp fun found j hspan => ?_
  rwa [List.flatMap_append]

/-- Nodes one after the other. -/
theorem Adds.repeatedNodes {item : Parser (Option Node)} (h : Adds fin item Option.toList) :
    Adds fin (Parser.repeated item) fun ns => ns := by
  have hitem : Adds fin item fun found => found.toList.flatMap fun n => [n] := by simpa using h
  simpa using hitem.repeated

/-- Items as long as something stands before them. -/
theorem Adds.led {lead : Parser Bool} {item : Parser α} (hlead : Tries fin lead)
    (h : Lays fin item left Q) :
    Adds fin (Parser.repeated (lead >>= fun found => if found = true then item >>= fun a =>
      pure (some a) else pure none))
      fun items => items.flatMap left := by
  refine .repeated fun lo => .test hlead ?_ ?_
  · refine .lay h fun a _ => .pure fun i hspan => ?_
    simpa using hspan
  · exact .pure fun i hspan => hspan

theorem Adds.keeps (h : Adds fin p left) (hnone : ∀ a, left a = []) : Keeps fin p :=
  fun lo => (h lo).imp fun a _ hspan => hnone a ▸ hspan

theorem Lays.passes (h : Lays fin p left Q) (hnone : ∀ a, left a = []) : Passes fin p :=
  fun lo => (h lo).imp fun a _ hspan => ⟨hnone a ▸ hspan.1, trivial⟩

theorem adds_afterCommas (starts : Lexeme → Bool) {item : Parser α} (h : Lays fin item left Q) :
    Adds fin (afterCommas starts item) fun r => r.1.flatMap left := by
  have hitem : Adds fin (Parser.repeated (isSign "," >>= fun comma => if comma = true then
      peekSecond >>= fun l => if starts l = true then next >>= fun _ => item >>= fun a =>
        pure (some a) else pure none
      else pure none)) fun items => items.flatMap left := by
    refine .repeated fun lo => .look (fun _ => rfl) fun comma => ?_
    split
    · refine .look (fun _ => rfl) fun l => ?_
      split
      · refine .keep keeps_next fun _ => .lay h fun a _ => .pure fun i hspan => ?_
        simpa using hspan
      · exact .pure fun i hspan => hspan
    · exact .pure fun i hspan => hspan
  intro lo
  unfold afterCommas
  exact .look (fun _ => rfl) fun comma => .bind (hitem lo) fun items =>
    .keep (tries_optSign ",").keeps fun trailing => .pure fun i hspan => hspan

theorem lays_commaList (starts : Lexeme → Bool) {item : Parser α} (h : Lays fin item left Q) :
    Lays fin (commaList starts item) (fun items => items.flatMap left) fun _ => True := by
  intro lo
  unfold commaList
  exact .lay h fun first _ => .add (adds_afterCommas starts h) fun r => .pure fun i hspan =>
    ⟨hspan, trivial⟩

theorem lays_strictCommaList {item : Parser α} (h : Lays fin item left Q) :
    Lays fin (strictCommaList item) (fun items => items.flatMap left) fun _ => True := by
  intro lo
  unfold strictCommaList
  exact .lay h fun first _ => .add (.led (tries_optSign ",") h) fun more => .pure fun i hspan =>
    ⟨hspan, trivial⟩

/-! ### Nodes -/

/-- A node that spans all that was read. -/
theorem runs_otherFrom {parts : List Node} (h : parts.Subperm nodes) :
    Runs (Span fin lo true nodes) (otherFrom lo parts) fun n j =>
      Span fin lo true [n] j ∧ n.Snug := by
  refine .close fun i hspan => ?_
  have hsnug := Node.snug_other (hspan.spread.of_subperm h) (hspan.last rfl)
  exact ⟨hspan.of_snug hsnug le_rfl le_rfl, hsnug⟩

end Parser

end CallAtlas.Source
