import CallAtlas.Source.Parser.Basic
import Mathlib.Data.Option.Basic

/-!
# What parsers read

A `Mark` is what the analysis of declarations later sees of a definition: its kind, its name and
where it starts. The marks of a tree stand in the order of the walk, and a tree without any is
`Bare`.

Three judgements say what a parser does wherever it succeeds. `Reads p Q`: what `p` leaves is an end
of its tokens, and its result has the property `Q`. `Runs P p R` also follows the input: from an
input with `P` the parser comes to a result and an input with `R`, and `Holds P p R` says the same
where only the tokens of the input matter. All are closed under the ways in which parsers are put
together, so that the proof about a parser follows its text.
-/

namespace CallAtlas.Source

/-! ## The definitions in a tree -/

/-- What a definition shows of itself: its kind, its name and its start. -/
structure Mark where
  kind : DefinitionKind
  name : String
  start : Place

namespace Node

mutual

/-- The definitions in a tree, in the order of the walk. -/
def marks : Node → List Mark
  | .name _ _ | .imports _ _ => []
  | .member receiver _ _ => marks receiver
  | .call callee arguments _ => marks callee ++ marksOfAll arguments
  | .definition head parts extent => ⟨head.kind, head.name, extent.start⟩ :: marksOfAll parts
  | .other parts _ => marksOfAll parts

/-- The definitions in several trees. -/
def marksOfAll : List Node → List Mark
  | [] => []
  | node :: rest => marks node ++ marksOfAll rest

end

/-- The definitions of several trees are those of each, in order. -/
@[simp]
theorem marksOfAll_eq_flatMap (nodes : List Node) : marksOfAll nodes = nodes.flatMap marks := by
  induction nodes with
  | nil => rfl
  | cons node rest ih => rw [marksOfAll, List.flatMap_cons, ih]

/-- The definitions in a node of no kind of its own are those of its parts. -/
@[simp]
theorem marks_other (parts : List Node) (extent : Extent) :
    (other parts extent).marks = parts.flatMap marks := by
  rw [marks, marksOfAll_eq_flatMap]

/-- A definition comes before those inside it. -/
@[simp]
theorem marks_definition (head : Definition) (parts : List Node) (extent : Extent) :
    (definition head parts extent).marks =
      ⟨head.kind, head.name, extent.start⟩ :: parts.flatMap marks := by
  rw [marks, marksOfAll_eq_flatMap]

/-- There is no definition in a tree. -/
def Bare (node : Node) : Prop := node.marks = []

@[simp]
theorem bare_name (id : String) (extent : Extent) : (name id extent).Bare := by
  rw [Bare, marks]

@[simp]
theorem bare_imports (bindings : List Binding) (extent : Extent) :
    (imports bindings extent).Bare := by
  rw [Bare, marks]

/-- A member is as bare as its receiver. -/
@[simp]
theorem bare_member {receiver : Node} {id : String} {extent : Extent} :
    (member receiver id extent).Bare ↔ receiver.Bare := by
  rw [Bare, marks, Bare]

/-- A call is bare if its callee and all its arguments are. -/
@[simp]
theorem bare_call {callee : Node} {arguments : List Node} {extent : Extent} :
    (call callee arguments extent).Bare ↔ callee.Bare ∧ ∀ a ∈ arguments, a.Bare := by
  simp only [Bare, marks, marksOfAll_eq_flatMap, List.append_eq_nil_iff, List.flatMap_eq_nil_iff]

/-- A node of no kind of its own is bare if its parts are. -/
@[simp]
theorem bare_other {parts : List Node} {extent : Extent} :
    (other parts extent).Bare ↔ ∀ n ∈ parts, n.Bare := by
  simp only [Bare, marks_other, List.flatMap_eq_nil_iff]

/-- Bare nodes show no definitions together either. -/
theorem flatMap_marks_of_bare {nodes : List Node} (h : ∀ n ∈ nodes, n.Bare) :
    nodes.flatMap marks = [] :=
  List.flatMap_eq_nil_iff.mpr h

/-- Bodies that are put together show their definitions one body after the other. -/
theorem flatMap_marks_flatten (bodies : List (List Node)) :
    bodies.flatten.flatMap marks = bodies.flatMap (·.flatMap marks) := by
  rw [← List.flatMap_id, List.flatMap_assoc]
  rfl

end Node

/-- There is no definition in an expression that was read. -/
def Operand.Bare (operand : Operand) : Prop := operand.node.Bare

@[simp]
theorem Operand.bare_node {operand : Operand} : operand.node.Bare ↔ operand.Bare := Iff.rfl

theorem Operand.Bare.marks_eq {operand : Operand} (h : operand.Bare) : operand.node.marks = [] := h

namespace Parser

variable {α β : Type} {p : Parser α} {f : α → Parser β}

/-! ## Results -/

/-- A parser leaves an end of its tokens, and its result has a property. -/
def Reads (p : Parser α) (Q : α → Prop) : Prop :=
  ∀ input a rest, p input = some (a, rest) → rest.tokens <:+ input.tokens ∧ Q a

/-- Two parsers in a row succeed if the first does, and then the second on what the first leaves. -/
theorem bind_eq_some_iff {input : Input} {r : β × Input} :
    (p >>= f) input = some r ↔ ∃ a next, p input = some (a, next) ∧ f a next = some r := by
  change (p input).bind (fun x => f x.1 x.2) = some r ↔ _
  rw [Option.bind_eq_some_iff, Prod.exists]

namespace Reads

variable {P Q : α → Prop} {R : β → Prop}

/-- A weaker property of the result. -/
theorem imp (h : Reads p P) (himp : ∀ a, P a → Q a) : Reads p Q := by
  intro input a rest hread
  obtain ⟨hsuffix, ha⟩ := h input a rest hread
  exact ⟨hsuffix, himp a ha⟩

theorem pure {a : α} (h : Q a) : Reads (pure a) Q := by
  intro input _ rest hread
  cases hread
  exact ⟨List.suffix_rfl, h⟩

/-- The second parser may use what is known of the result of the first; an end of an end is an
end. -/
theorem bind (hp : Reads p P) (hf : ∀ a, P a → Reads (f a) R) : Reads (p >>= f) R := by
  intro input b rest hread
  obtain ⟨a, next, hfirst, hsecond⟩ := bind_eq_some_iff.mp hread
  obtain ⟨hsuffix, ha⟩ := hp input a next hfirst
  obtain ⟨hsuffix', hb⟩ := hf a ha next b rest hsecond
  exact ⟨hsuffix'.trans hsuffix, hb⟩

/-- As `bind`, where only the tokens of the first parser matter. -/
theorem skip {R' : α → Prop} (hp : Reads p R') (hf : ∀ a, Reads (f a) R) : Reads (p >>= f) R :=
  hp.bind fun a _ => hf a

/-- A parser that fails reads anything. -/
theorem failure : Reads (failure : Parser α) Q := by
  intro input a rest hread
  cases hread

/-- The second alternative is tried on the same input as the first. -/
theorem orElse {q : Parser α} (hp : Reads p Q) (hq : Reads q Q) : Reads (p <|> q) Q := by
  intro input a rest hread
  change (p input <|> q input) = some (a, rest) at hread
  cases hfirst : p input with
  | none =>
    rw [hfirst] at hread
    exact hq input a rest hread
  | some r =>
    rw [hfirst] at hread
    cases hread
    exact hp input a rest hfirst

/-- A result that was found without reading. -/
theorem lift {found : Option α} (h : ∀ a, found = some a → Q a) : Reads (liftM found) Q := by
  intro input a rest hread
  cases found with
  | none => cases hread
  | some b =>
    cases hread
    exact ⟨List.suffix_rfl, h a rfl⟩

/-- Items are taken as long as there are some, so what holds of each holds of all. -/
theorem takeItems {item : Parser (Option α)}
    (h : Reads item fun found => ∀ a ∈ found, Q a) (fuel : Nat) :
    Reads (takeItems item fuel) fun items => ∀ a ∈ items, Q a := by
  induction fuel with
  | zero => exact .pure (by simp)
  | succ fuel ih =>
    unfold Parser.takeItems
    refine .bind h fun found hfound => ?_
    cases found with
    | none => exact .pure (by simp)
    | some a =>
      refine .bind ih fun items hitems => .pure ?_
      rw [List.forall_mem_cons]
      exact ⟨hfound a rfl, hitems⟩

/-- As `takeItems`, with as much fuel as there are tokens. -/
theorem repeated {item : Parser (Option α)} (h : Reads item fun found => ∀ a ∈ found, Q a) :
    Reads (repeated item) fun items => ∀ a ∈ items, Q a :=
  fun input => takeItems h input.bound input

end Reads

/-! ### The parsers of single tokens -/

/-- A guard that lets through leaves the input as it was. -/
theorem of_guard {c : Prop} [Decidable c] {input rest : Input} {u : Unit}
    (h : (guard c : Parser Unit) input = some (u, rest)) : c ∧ rest = input := by
  change (if c then pure () else failure : Parser Unit) input = some (u, rest) at h
  by_cases hc : c
  · rw [if_pos hc] at h
    cases h
    exact ⟨hc, rfl⟩
  · rw [if_neg hc] at h
    cases h

/-- Behind a guard its condition is known. -/
theorem reads_guard (c : Prop) [Decidable c] : Reads (guard c : Parser Unit) fun _ => c := by
  intro input u rest h
  obtain ⟨hc, rfl⟩ := of_guard h
  exact ⟨List.suffix_rfl, hc⟩

/-- A parser that only looks. -/
theorem reads_of_look {look : Input → α} (h : ∀ input, p input = some (look input, input)) :
    Reads p fun _ => True := by
  intro input a rest hread
  rw [h] at hread
  cases hread
  exact ⟨List.suffix_rfl, trivial⟩

theorem reads_peek : Reads peek fun _ => True := reads_of_look fun _ => rfl

theorem reads_peekSecond : Reads peekSecond fun _ => True := reads_of_look fun _ => rfl

theorem reads_here : Reads here fun _ => True := reads_of_look fun _ => rfl

theorem reads_extentFrom (start : Place) : Reads (extentFrom start) fun _ => True :=
  reads_of_look fun _ => rfl

theorem reads_isSign (text : String) : Reads (isSign text) fun _ => True :=
  reads_of_look fun _ => rfl

theorem reads_isWord (text : String) : Reads (isWord text) fun _ => True :=
  reads_of_look fun _ => rfl

/-- `next` takes the first of the tokens. -/
theorem tokens_of_next {input rest : Input} {t : Token} (h : next input = some (t, rest)) :
    input.tokens = t :: rest.tokens := by
  unfold next at h
  split at h
  next => cases h
  next t' tokens htokens =>
    cases h
    exact htokens

/-- Taking one token leaves an end of the tokens. -/
theorem reads_next : Reads next fun _ => True := by
  intro input t rest hread
  rw [tokens_of_next hread]
  exact ⟨List.suffix_cons t rest.tokens, trivial⟩

/-- A parser takes the next token if that is of the given kind, and says whether. -/
def Takes (p : Parser Bool) (lexeme : Lexeme) : Prop :=
  ∀ input found rest, p input = some (found, rest) →
    (found = true ∧ ∃ t, t.lexeme = lexeme ∧ next input = some (t, rest)) ∨
    (found = false ∧ rest = input)

/-- Looking at a token and then taking it is what the parsers of optional tokens do. -/
theorem takes_of_look {look : Parser Bool} {lexeme : Lexeme}
    (h : ∀ input, look input =
      some ((input.tokens.head?.map Token.lexeme).getD .finish == lexeme, input)) :
    Takes (look >>= fun c => if c = true then next >>= fun _ => pure true
      else pure false) lexeme := by
  intro input found rest hread
  obtain ⟨c, after, hlook, hread⟩ := bind_eq_some_iff.mp hread
  rw [h] at hlook
  cases hlook
  split at hread
  next hc =>
    obtain ⟨t, after, hnext, hread⟩ := bind_eq_some_iff.mp hread
    cases hread
    rw [tokens_of_next hnext] at hc
    exact .inl ⟨rfl, t, eq_of_beq hc, hnext⟩
  next =>
    cases hread
    exact .inr ⟨rfl, rfl⟩

/-- An optional sign is taken only if it is the next token. -/
theorem takes_optSign (text : String) : Takes (optSign text) (.sign text.toList) :=
  takes_of_look fun _ => rfl

/-- An optional word is taken only if it is the next token. -/
theorem takes_optWord (text : String) : Takes (optWord text) (.word text.toList) :=
  takes_of_look fun _ => rfl

/-- Whether or not the token is there, an end of the tokens is left. -/
theorem Takes.reads {p : Parser Bool} {lexeme : Lexeme} (h : Takes p lexeme) :
    Reads p fun _ => True := by
  intro input found rest hread
  rcases h input found rest hread with ⟨-, t, -, hnext⟩ | ⟨-, rfl⟩
  · exact reads_next input t rest hnext
  · exact ⟨List.suffix_rfl, trivial⟩

theorem reads_optSign (text : String) : Reads (optSign text) fun _ => True :=
  (takes_optSign text).reads

theorem reads_optWord (text : String) : Reads (optWord text) fun _ => True :=
  (takes_optWord text).reads

/-- A sign that has to be there is an optional one with a guard. -/
theorem reads_sign (text : String) : Reads (sign text) fun _ => True :=
  .skip (reads_optSign text) fun found => (reads_guard (found = true)).imp fun _ _ => trivial

theorem reads_word (text : String) : Reads (word text) fun _ => True :=
  .skip (reads_optWord text) fun found => (reads_guard (found = true)).imp fun _ _ => trivial

/-- One of several signs, or none. -/
theorem reads_optSignOf (texts : List String) : Reads (optSignOf texts) fun _ => True := by
  unfold optSignOf
  refine .skip reads_peek fun l => ?_
  split
  · split
    · exact .skip reads_next fun _ => .pure trivial
    · exact .pure trivial
  · exact .pure trivial

/-- A name is a word that is not reserved. -/
theorem reads_name : Reads name fun _ => True := by
  unfold name
  refine .skip reads_next fun t => ?_
  split
  · exact .skip (reads_guard _) fun _ => .pure trivial
  · exact .failure

/-! ### Lists -/

variable {item : Parser α} {Q : α → Prop}

/-- Each item follows a comma, and a comma behind the last one is allowed. -/
theorem reads_afterCommas (starts : Lexeme → Bool) (h : Reads item Q) :
    Reads (afterCommas starts item) fun r => ∀ a ∈ r.1, Q a := by
  unfold afterCommas
  refine .skip (reads_isSign ",") fun comma => .bind (.repeated ?_) fun items hitems =>
    .skip (reads_optSign ",") fun trailing => .pure hitems
  refine .skip (reads_isSign ",") fun found => ?_
  split
  · refine .skip reads_peekSecond fun l => ?_
    split
    · exact .skip reads_next fun _ => h.bind fun a ha => .pure (by simpa using ha)
    · exact .pure (by simp)
  · exact .pure (by simp)

/-- At least one item, with commas between them. -/
theorem reads_commaList (starts : Lexeme → Bool) (h : Reads item Q) :
    Reads (commaList starts item) fun items => ∀ a ∈ items, Q a := by
  unfold commaList
  refine h.bind fun first hfirst => .bind (reads_afterCommas starts h) fun r hr => .pure ?_
  rw [List.forall_mem_cons]
  exact ⟨hfirst, hr⟩

/-- Items as long as a sign or a word stands before them. -/
theorem reads_led {lead : Parser Bool} (hlead : Reads lead fun _ => True) (h : Reads item Q) :
    Reads (repeated (lead >>= fun found => if found = true then item >>= fun a => pure (some a)
      else pure none))
      fun items => ∀ a ∈ items, Q a := by
  refine .repeated (.skip hlead fun found => ?_)
  split
  · exact h.bind fun a ha => .pure (by simpa using ha)
  · exact .pure (by simp)

/-- As `reads_commaList`, without a comma behind the last item. -/
theorem reads_strictCommaList (h : Reads item Q) :
    Reads (strictCommaList item) fun items => ∀ a ∈ items, Q a := by
  unfold strictCommaList
  refine h.bind fun first hfirst => .bind (reads_led (reads_optSign ",") h) fun more hmore =>
    .pure ?_
  rw [List.forall_mem_cons]
  exact ⟨hfirst, hmore⟩

/-- A node of no kind of its own is bare if its parts are. -/
theorem reads_otherFrom (start : Place) {parts : List Node} (h : ∀ n ∈ parts, n.Bare) :
    Reads (otherFrom start parts) Node.Bare :=
  .skip (reads_extentFrom start) fun _ => .pure (Node.bare_other.mpr h)

/-! ## Results with the input that is left -/

/-- From an input with a property a parser comes to a result and an input with another. -/
def Runs (P : Input → Prop) (p : Parser α) (R : α → Input → Prop) : Prop :=
  ∀ input a rest, P input → p input = some (a, rest) → R a rest

namespace Runs

variable {P T : Input → Prop} {R R' : α → Input → Prop} {S : β → Input → Prop}

/-- A stronger property of the input to begin with. -/
theorem weaken (h : Runs T p R) (himp : ∀ input, P input → T input) : Runs P p R :=
  fun input a rest hp hread => h input a rest (himp _ hp) hread

/-- A weaker property of what is left in the end. -/
theorem imp (h : Runs P p R) (himp : ∀ a rest, R a rest → R' a rest) : Runs P p R' :=
  fun input a rest hp hread => himp a rest (h input a rest hp hread)

/-- A part of the property that is not about the input. -/
theorem given {c : Prop} (h : c → Runs P p R) : Runs (fun input => P input ∧ c) p R :=
  fun input a rest hp hread => h hp.2 input a rest hp.1 hread

theorem pure {a : α} (h : ∀ input, P input → R a input) : Runs P (pure a) R := by
  intro input _ rest hp hread
  cases hread
  exact h _ hp

/-- What the first parser leaves is what the second begins with. -/
theorem bind (hp : Runs P p R) (hf : ∀ a, Runs (R a) (f a) S) : Runs P (p >>= f) S := by
  intro input b rest hpre hread
  obtain ⟨a, next, hfirst, hsecond⟩ := bind_eq_some_iff.mp hread
  exact hf a next b rest (hp input a next hpre hfirst) hsecond

/-- A parser that only looks, with what it sees. -/
theorem see {found : Input → α} (hp : ∀ input, p input = some (found input, input))
    (hf : ∀ a, Runs (fun input => P input ∧ found input = a) (f a) S) : Runs P (p >>= f) S := by
  intro input b rest hpre hread
  obtain ⟨a, next, hfirst, hsecond⟩ := bind_eq_some_iff.mp hread
  rw [hp] at hfirst
  cases hfirst
  exact hf _ input b rest ⟨hpre, rfl⟩ hsecond

/-- As `see`, where what was seen does not matter. -/
theorem look {found : Input → α} (hp : ∀ input, p input = some (found input, input))
    (hf : ∀ a, Runs P (f a) S) :
    Runs P (p >>= f) S :=
  .see hp fun a => (hf a).weaken fun _ h => h.1

/-- Behind a guard its condition is known, and the input is the same. -/
theorem guard {c : Prop} [Decidable c] {k : Unit → Parser β} (hf : c → Runs P (k ()) S) :
    Runs P (guard c >>= k) S := by
  intro input b rest hpre hread
  obtain ⟨a, next, hfirst, hsecond⟩ := bind_eq_some_iff.mp hread
  obtain ⟨hc, rfl⟩ := of_guard hfirst
  exact hf hc next b rest hpre hsecond

theorem failure : Runs P (failure : Parser α) R := by
  intro input a rest _ hread
  cases hread

/-- The second alternative is tried on the same input as the first. -/
theorem orElse {q : Parser α} (hp : Runs P p R) (hq : Runs P q R) : Runs P (p <|> q) R := by
  intro input a rest hpre hread
  change (p input <|> q input) = some (a, rest) at hread
  cases hfirst : p input with
  | none =>
    rw [hfirst] at hread
    exact hq input a rest hpre hread
  | some r =>
    rw [hfirst] at hread
    cases hread
    exact hp input a rest hpre hfirst

/-- What holds of the items taken so far holds of all of them in the end. -/
theorem takeItems {item : Parser (Option α)} {I : List α → Input → Prop}
    (h : ∀ done, Runs (I done) item fun found => I (done ++ found.toList)) (fuel : Nat)
    (done : List α) :
    Runs (I done) (takeItems item fuel) fun items => I (done ++ items) := by
  induction fuel generalizing done with
  | zero => exact .pure fun input hinput => by rwa [List.append_nil]
  | succ fuel ih =>
    unfold Parser.takeItems
    refine .bind (h done) fun found => ?_
    cases found with
    | none => exact .pure fun input hinput => hinput
    | some a =>
      refine .bind (ih _) fun items => .pure fun input hinput => ?_
      rwa [Option.toList_some, List.append_assoc] at hinput

/-- As `takeItems`, from the first item on. -/
theorem repeated {item : Parser (Option α)} {I : List α → Input → Prop}
    (h : ∀ done, Runs (I done) item fun found => I (done ++ found.toList)) :
    Runs (I []) (repeated item) I :=
  fun input => takeItems h input.bound [] input

end Runs

/-! ## Results with the tokens that are left -/

/-- From tokens with a property a parser comes to a result and tokens with another. -/
def Holds (P : List Token → Prop) (p : Parser α) (R : α → List Token → Prop) : Prop :=
  Runs (fun input => P input.tokens) p fun a rest => R a rest.tokens

/-- Before a token of the given kind was taken the tokens had a property. -/
def Taken (P : List Token → Prop) (lexeme : Lexeme) (ts : List Token) : Prop :=
  ∃ t, t.lexeme = lexeme ∧ P (t :: ts)

/-- A weaker property of the tokens before one was taken. -/
theorem Taken.imp {P T : List Token → Prop} {lexeme : Lexeme} {ts : List Token}
    (h : Taken P lexeme ts) (himp : ∀ ts, P ts → T ts) : Taken T lexeme ts := by
  obtain ⟨t, ht, hp⟩ := h
  exact ⟨t, ht, himp _ hp⟩

namespace Holds

variable {P T : List Token → Prop} {R : α → List Token → Prop} {S : β → List Token → Prop}

theorem weaken (h : Holds T p R) (himp : ∀ ts, P ts → T ts) : Holds P p R :=
  Runs.weaken h fun input => himp input.tokens

/-- A part of the property that is not about the tokens. -/
theorem given {c : Prop} (h : c → Holds P p R) : Holds (fun ts => P ts ∧ c) p R :=
  Runs.given h

theorem pure {a : α} (h : ∀ ts, P ts → R a ts) : Holds P (pure a) R :=
  Runs.pure fun input => h input.tokens

theorem bind (hp : Holds P p R) (hf : ∀ a, Holds (R a) (f a) S) : Holds P (p >>= f) S :=
  Runs.bind hp hf

/-- A parser for which only its result matters, where the property holds of all ends of the tokens
as well. -/
theorem after {Q : α → Prop} (hp : Reads p Q) (hP : ∀ ts rest, P ts → rest <:+ ts → P rest)
    (hf : ∀ a, Q a → Holds P (f a) S) : Holds P (p >>= f) S := by
  intro input b rest hpre hread
  obtain ⟨a, next, hfirst, hsecond⟩ := bind_eq_some_iff.mp hread
  obtain ⟨hsuffix, ha⟩ := hp input a next hfirst
  exact hf a ha next b rest (hP _ _ hpre hsuffix) hsecond

/-- A parser that only looks. -/
theorem look {found : Input → α} (hp : ∀ input, p input = some (found input, input))
    (hf : ∀ a, Holds P (f a) S) :
    Holds P (p >>= f) S :=
  Runs.look hp hf

theorem guard {c : Prop} [Decidable c] {k : Unit → Parser β} (hf : c → Holds P (k ()) S) :
    Holds P (guard c >>= k) S :=
  Runs.guard hf

theorem failure : Holds P (failure : Parser α) R := Runs.failure

theorem orElse {q : Parser α} (hp : Holds P p R) (hq : Holds P q R) : Holds P (p <|> q) R :=
  Runs.orElse hp hq

/-- The property of the tokens before the one that was taken. -/
theorem next {k : Token → Parser β} (hf : ∀ t, Holds (fun ts => P (t :: ts)) (k t) S) :
    Holds P (next >>= k) S := by
  intro input b rest hpre hread
  obtain ⟨t, after, hfirst, hsecond⟩ := bind_eq_some_iff.mp hread
  rw [tokens_of_next hfirst] at hpre
  exact hf t after b rest hpre hsecond

/-- A token of the layout is taken, and the tokens before it had the property. -/
theorem layout {lexeme : Lexeme} {k : Unit → Parser β} (hf : Holds (Taken P lexeme) (k ()) S) :
    Holds P (layout lexeme >>= k) S := by
  unfold Parser.layout
  rw [bind_assoc]
  exact .next fun t => .guard fun ht => hf.weaken fun _ hp => ⟨t, ht, hp⟩

/-- A definition reads its name in plain form. -/
theorem name {k : String → Parser β}
    (hf : ∀ w, Holds (Taken P (.word w)) (k (String.ofList (Text.Identifier.plainForm w))) S) :
    Holds P (name >>= k) S := by
  unfold Parser.name
  rw [bind_assoc]
  refine .next fun t => ?_
  split
  next w hw =>
    rw [bind_assoc]
    exact .guard fun _ => (hf w).weaken fun _ hp => ⟨t, hw, hp⟩
  next => exact .failure

/-- The place at which a parser stands is the start of the next token, if there is one. -/
theorem here {k : Place → Parser β}
    (hf : ∀ start, Holds (fun ts => P ts ∧ ∀ t ∈ ts.head?, t.extent.start = start) (k start) S) :
    Holds P (here >>= k) S := by
  intro input b rest hpre hread
  obtain ⟨start, after, hfirst, hsecond⟩ := bind_eq_some_iff.mp hread
  cases hfirst
  refine hf _ input b rest ⟨hpre, fun t ht => ?_⟩ hsecond
  rw [Option.mem_def.mp ht]
  rfl

/-- Nothing is said about where an extent stops. -/
theorem extentFrom {start : Place} {k : Extent → Parser β}
    (hf : ∀ stop, Holds P (k ⟨start, stop⟩) S) :
    Holds P (extentFrom start >>= k) S := by
  intro input b rest hpre hread
  obtain ⟨extent, after, hfirst, hsecond⟩ := bind_eq_some_iff.mp hread
  cases hfirst
  exact hf _ input b rest hpre hsecond

/-- A branch on whether a token could be taken. -/
theorem ifTaken {p : Parser Bool} {lexeme : Lexeme} {yes no : Parser β} (hp : Takes p lexeme)
    (hyes : Holds (Taken P lexeme) yes S) (hno : Holds P no S) :
    Holds P (p >>= fun found => if found = true then yes else no) S := by
  intro input b rest hpre hread
  obtain ⟨found, after, hfirst, hsecond⟩ := bind_eq_some_iff.mp hread
  rcases hp input found after hfirst with ⟨rfl, t, ht, hnext⟩ | ⟨rfl, rfl⟩
  · rw [tokens_of_next hnext] at hpre
    exact hyes after b rest ⟨t, ht, hpre⟩ hsecond
  · exact hno after b rest hpre hsecond

/-- A word that has to be there was taken. -/
theorem word {text : String} {k : Unit → Parser β}
    (hf : Holds (Taken P (.word text.toList)) (k ()) S) :
    Holds P (word text >>= k) S := by
  intro input b rest hpre hread
  obtain ⟨u, after, hfirst, hsecond⟩ := bind_eq_some_iff.mp hread
  obtain ⟨found, last, hopt, hguard⟩ := bind_eq_some_iff.mp hfirst
  obtain ⟨rfl, rfl⟩ := of_guard hguard
  rcases takes_optWord text input true after hopt with ⟨-, t, ht, hnext⟩ | ⟨hfalse, -⟩
  · rw [tokens_of_next hnext] at hpre
    exact hf after b rest ⟨t, ht, hpre⟩ hsecond
  · cases hfalse

/-- What holds of the items taken so far holds of all of them in the end. -/
theorem repeated {item : Parser (Option α)} {I : List α → List Token → Prop}
    (h : ∀ done, Holds (I done) item fun found => I (done ++ found.toList)) :
    Holds (I []) (repeated item) I :=
  @Runs.repeated _ _ (fun done input => I done input.tokens) h

end Holds

end Parser

end CallAtlas.Source
