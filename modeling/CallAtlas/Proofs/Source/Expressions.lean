import CallAtlas.Proofs.Source.Reading
import CallAtlas.Source.Parser.Pattern

/-!
# Expressions hold no definitions

A definition is a statement, so no parser of expressions or patterns brings one into the tree.
`Grammar.Plain` says so of the parsers through which the grammar refers to itself; each parser built
on a plain grammar gives bare nodes.
-/

namespace CallAtlas.Source

/-- The expressions and patterns that a grammar reads hold no definitions. -/
structure Grammar.Plain (g : Grammar) : Prop where
  expression : Parser.Reads g.expression Operand.Bare
  inversion : Parser.Reads g.inversion Operand.Bare
  factor : Parser.Reads g.factor Operand.Bare
  primary : Parser.Reads g.primary Operand.Bare
  pattern : Parser.Reads g.pattern Node.Bare
  field : ∀ place text node, g.field place text = some node → node.Bare

/-! ## Literals -/

/-- Only bare nodes come out of a stretch of interpolated text. -/
def BareParts (read : Cursor → Option (List Node × Cursor)) : Prop :=
  ∀ cursor parts after, read cursor = some (parts, after) → ∀ n ∈ parts, n.Bare

section Literals

variable {expression : Place → List Char → Option Node}

/-- A replacement field gives the node of its expression, and then those of its format spec. -/
theorem bareParts_replacementField?
    (he : ∀ place text node, expression place text = some node → node.Bare)
    {spec : Cursor → Option (List Node × Cursor)} (hspec : BareParts spec) :
    BareParts (replacementField? expression spec) := by
  intro cursor parts after h
  unfold replacementField? at h
  obtain ⟨stop, -, h⟩ := Option.bind_eq_some_iff.mp h
  obtain ⟨-, -, h⟩ := Option.bind_eq_some_iff.mp h
  obtain ⟨value, hvalue, h⟩ := Option.bind_eq_some_iff.mp h
  obtain ⟨stop', -, h⟩ := Option.bind_eq_some_iff.mp h
  have hbare := he _ _ _ hvalue
  split at h
  next rest =>
    obtain ⟨⟨parts', after'⟩, hr, h⟩ := Option.bind_eq_some_iff.mp h
    have hparts := hspec _ _ _ hr
    dsimp only at h
    split at h
    next => cases h; exact List.forall_mem_cons.mpr ⟨hbare, hparts⟩
    next => cases h
  next => cases h; exact List.forall_mem_singleton.mpr hbare
  next => cases h

/-- Interpolated text gives what its fields give, one after the other; the text between them gives
nothing. -/
theorem bareParts_interpolatedParts? {raw outermost : Bool}
    {field : Cursor → Option (List Node × Cursor)}
    (hfield : BareParts field) (fuel : Nat) :
    BareParts (interpolatedParts? raw outermost field fuel) := by
  induction fuel with
  | zero => intro cursor parts after h; cases h
  | succ fuel ih =>
    intro cursor parts after h
    unfold interpolatedParts? at h
    obtain ⟨⟨stop, rest⟩, -, h⟩ := Option.bind_eq_some_iff.mp h
    obtain ⟨-, -, h⟩ := Option.bind_eq_some_iff.mp h
    cases stop with
    | finish => cases h; simp
    | doubled => exact ih _ _ _ h
    | field =>
      obtain ⟨⟨first, next⟩, hfirst, h⟩ := Option.bind_eq_some_iff.mp h
      obtain ⟨⟨more, last⟩, hmore, h⟩ := Option.bind_eq_some_iff.mp h
      cases h
      rw [List.forall_mem_append]
      exact ⟨hfield _ _ _ hfirst, ih _ _ _ hmore⟩

/-- A format spec is interpolated text again, one level further in. -/
theorem bareParts_interpolated?
    (he : ∀ place text node, expression place text = some node → node.Bare)
    (raw : Bool) (depth : Nat) (outermost : Bool) :
    BareParts (interpolated? expression raw depth outermost) := by
  induction depth generalizing outermost with
  | zero =>
    have hnone : BareParts fun _ => none := by
      intro cursor parts after h
      cases h
    intro cursor
    exact bareParts_interpolatedParts? hnone _ cursor
  | succ depth ih =>
    intro cursor
    exact bareParts_interpolatedParts? (bareParts_replacementField? he (ih false)) _ cursor

/-- A string literal brings into the tree only the expressions of its replacement fields. -/
theorem StringLiteral.bare_of_parts?
    (he : ∀ place text node, expression place text = some node → node.Bare)
    {s : StringLiteral} {parts : List Node} (h : s.parts? expression = some parts) :
    ∀ n ∈ parts, n.Bare := by
  unfold StringLiteral.parts? at h
  split at h
  next =>
    obtain ⟨⟨parts', last⟩, hparts, h⟩ := Option.bind_eq_some_iff.mp h
    cases h
    exact bareParts_interpolated? he _ _ _ _ _ _ hparts
  next =>
    split at h
    next => cases h
    next => cases h; simp

end Literals

namespace Parser

variable {g : Grammar}

theorem reads_stringToken : Reads stringToken fun _ => True := by
  unfold stringToken
  refine .skip reads_peek fun l => ?_
  split
  · exact .skip reads_here fun _ => .skip reads_next fun _ => .pure trivial
  · exact .pure trivial

/-- What a parser reads of each item of a list. -/
theorem Reads.mapM {α β : Type} {f : α → Parser β} {Q : β → Prop} (h : ∀ a, Reads (f a) Q)
    (items : List α) :
    Reads (items.mapM f) fun found => ∀ b ∈ found, Q b := by
  induction items with
  | nil => exact .pure (by simp)
  | cons item rest ih =>
    rw [List.mapM_cons]
    refine .bind (h item) fun b hb => .bind ih fun more hmore => .pure ?_
    rw [List.forall_mem_cons]
    exact ⟨hb, hmore⟩

/-- An operand made of bare parts is bare. -/
theorem reads_valueFrom (start : Place) {parts : List Node} (h : ∀ n ∈ parts, n.Bare) :
    Reads (valueFrom start parts) Operand.Bare :=
  .bind (reads_otherFrom start h) fun _ hnode => .pure hnode

/-- Adjacent string literals are one operand, with the fields of all of them. -/
theorem reads_strings (hg : g.Plain) : Reads (strings g) Operand.Bare := by
  unfold strings
  refine .skip reads_here fun start =>
    .skip (.repeated (Q := fun _ => True) (reads_stringToken.imp (by simp)))
    fun pieces => .skip (reads_guard _) fun _ => ?_
  refine .bind (.mapM (fun piece => .lift fun parts h => piece.bare_of_parts? hg.field h) pieces)
    fun parts hparts => ?_
  refine reads_valueFrom start fun n hn => ?_
  obtain ⟨ns, hns, hmem⟩ := List.mem_flatten.mp hn
  exact hparts ns hns n hmem

theorem reads_number : Reads number Operand.Bare := by
  unfold number
  refine .skip reads_here fun start => .skip reads_next fun t => ?_
  split
  · exact .skip (reads_guard _) fun _ => reads_valueFrom start (by simp)
  · exact .failure

/-! ## Lists of operands -/

theorem reads_sequenceFrom (start : Place) {items : List Operand} (h : ∀ item ∈ items, item.Bare) :
    Reads (sequenceFrom start items) Operand.Bare :=
  .bind (reads_otherFrom start (by simpa using h)) fun _ hnode => .pure hnode

theorem reads_starredFrom (start : Place) {value : Operand} (h : value.Bare) :
    Reads (starredFrom start value) Operand.Bare :=
  .bind (reads_otherFrom start (by simpa using h)) fun _ hnode => .pure hnode

theorem reads_startsAssignment : Reads startsAssignment fun _ => True := reads_of_look fun _ => rfl

theorem reads_nameOperand : Reads nameOperand Operand.Bare :=
  .skip reads_here fun start => .skip reads_name fun id =>
    .skip (reads_extentFrom start) fun extent =>
    .pure (Node.bare_name id extent)

/-- An assignment expression has the name as a part as well as the value. -/
theorem reads_namedExpression (hg : g.Plain) : Reads (namedExpression g) Operand.Bare := by
  unfold namedExpression
  refine .skip reads_startsAssignment fun found => ?_
  split
  · exact .skip reads_here fun start => .bind reads_nameOperand fun target htarget =>
      .skip (reads_sign ":=") fun _ => .bind hg.expression fun value hvalue =>
        reads_valueFrom start (by simp [htarget, hvalue])
  · exact hg.expression

/-! ## Operators -/

section Operators

variable {operand : Parser Operand}

/-- Each operator puts the chain so far and the next operand into one node, so the induction is on
the operators and carries the bareness of what stands to their left. -/
theorem reads_leftChain (h : Reads operand Operand.Bare) (operators : List String) :
    Reads (leftChain operand operators) Operand.Bare := by
  unfold leftChain
  refine .skip reads_here fun start => h.bind fun first hfirst =>
    .bind (.repeated (Q := fun r => r.1.Bare) ?_) fun more hmore => ?_
  · refine .skip (reads_optSignOf operators) fun found => ?_
    split
    · exact h.bind fun right hright => .skip (reads_extentFrom start) fun extent =>
        .pure (by simpa using hright)
    · exact .pure (by simp)
  · split
    · exact .pure hfirst
    · refine .pure (List.foldlRecOn more _ hfirst fun left hleft right hright => ?_)
      simp [hleft, hmore right hright]

/-- One operand, or several as the parts of one node. -/
theorem reads_joined (start : Place) {first : Operand} {more : List Operand} (hfirst : first.Bare)
    (hmore : ∀ operand ∈ more, operand.Bare) :
    Reads (valueFrom start (first.node :: more.map Operand.node)) Operand.Bare :=
  reads_valueFrom start (by simpa using ⟨hfirst, hmore⟩)

/-- Operands joined by a word are parts of one node, however many there are. -/
theorem reads_wordChain (h : Reads operand Operand.Bare) (joint : String) :
    Reads (wordChain operand joint) Operand.Bare := by
  unfold wordChain
  refine .skip reads_here fun start => h.bind fun first hfirst =>
    .bind (reads_led (reads_optWord joint) h) fun more hmore => ?_
  split
  · exact .pure hfirst
  · exact reads_joined start hfirst hmore

theorem reads_awaited (hg : g.Plain) : Reads (awaited g) Operand.Bare := by
  unfold awaited
  refine .skip reads_here fun start => .skip (reads_optWord "await") fun found => ?_
  split
  · exact hg.primary.bind fun value hvalue => reads_valueFrom start (by simpa using hvalue)
  · exact hg.primary

/-- The exponent is read through the grammar, as it may have a sign. -/
theorem reads_power (hg : g.Plain) : Reads (power g) Operand.Bare := by
  unfold power
  refine .skip reads_here fun start => .bind (reads_awaited hg) fun base hbase =>
    .skip (reads_optSign "**") fun found => ?_
  split
  · exact hg.factor.bind fun exponent hexponent =>
      reads_valueFrom start (by simp [hbase, hexponent])
  · exact .pure hbase

theorem reads_factor (hg : g.Plain) : Reads (factor g) Operand.Bare := by
  unfold factor
  refine .skip reads_here fun start => .skip (reads_optSignOf _) fun found => ?_
  split
  · exact hg.factor.bind fun value hvalue => reads_valueFrom start (by simpa using hvalue)
  · exact reads_power hg

/-- The levels of the arithmetic and bitwise operators are left chains, each over the one before. -/
theorem reads_bitwiseOr (hg : g.Plain) : Reads (bitwiseOr g) Operand.Bare :=
  reads_leftChain
    (reads_leftChain (reads_leftChain (reads_leftChain (reads_leftChain (reads_leftChain
    (reads_factor hg) _) _) _) _) _) _

/-- An operator of two words takes two tokens, and a word that is none of them takes nothing. -/
theorem reads_optComparison : Reads optComparison fun _ => True := by
  unfold optComparison
  refine .skip (reads_optSignOf _) fun found => ?_
  split
  · exact .pure trivial
  refine .skip (reads_optWord "in") fun found => ?_
  split
  · exact .pure trivial
  refine .skip (reads_optWord "is") fun found => ?_
  split
  · exact .skip (reads_optWord "not") fun _ => .pure trivial
  refine .skip (reads_optWord "not") fun found => ?_
  split
  · exact .skip (reads_word "in") fun _ => .pure trivial
  · exact .pure trivial

/-- A chain of comparisons is one node with all its operands. -/
theorem reads_comparison (hg : g.Plain) : Reads (comparison g) Operand.Bare := by
  unfold comparison
  refine .skip reads_here fun start => .bind (reads_bitwiseOr hg) fun first hfirst =>
    .bind (reads_led reads_optComparison (reads_bitwiseOr hg)) fun more hmore => ?_
  split
  · exact .pure hfirst
  · exact reads_joined start hfirst hmore

theorem reads_inversion (hg : g.Plain) : Reads (inversion g) Operand.Bare := by
  unfold inversion
  refine .skip reads_here fun start => .skip (reads_optWord "not") fun found => ?_
  split
  · exact hg.inversion.bind fun value hvalue => reads_valueFrom start (by simpa using hvalue)
  · exact reads_comparison hg

/-- `and` binds tighter than `or`: a chain of chains. -/
theorem reads_disjunction (hg : g.Plain) : Reads (disjunction g) Operand.Bare :=
  reads_wordChain (reads_wordChain (reads_inversion hg) "and") "or"

theorem reads_starExpression (hg : g.Plain) : Reads (starExpression g) Operand.Bare := by
  unfold starExpression
  refine .skip reads_here fun start => .skip (reads_optSign "*") fun found => ?_
  split
  · exact .bind (reads_bitwiseOr hg) fun value hvalue => reads_starredFrom start hvalue
  · exact hg.expression

/-- A starred element of a display, or an expression that may assign. -/
theorem reads_starNamedExpression (hg : g.Plain) : Reads (starNamedExpression g) Operand.Bare := by
  unfold starNamedExpression
  refine .skip (reads_isSign "*") fun found => ?_
  split
  · exact reads_starExpression hg
  · exact reads_namedExpression hg

/-- One item, or a sequence of several without parentheses. -/
theorem reads_loose {item : Parser Operand} (h : Reads item Operand.Bare) (start : Place) :
    Reads (item >>= fun first => afterCommas startsExpression item >>= fun r =>
      if r.2 = true then sequenceFrom start (first :: r.1) else pure first) Operand.Bare := by
  refine h.bind fun first hfirst => .bind (reads_afterCommas _ h) fun r hr => ?_
  split
  · exact reads_sequenceFrom start (List.forall_mem_cons.mpr ⟨hfirst, hr⟩)
  · exact .pure hfirst

/-- Without a comma the expression stands for itself, with one it becomes a tuple. -/
theorem reads_starExpressions (hg : g.Plain) : Reads (starExpressions g) Operand.Bare :=
  .skip reads_here (reads_loose (reads_starExpression hg))

/-- A `yield` without a value is a node without parts. -/
theorem reads_yieldExpression (hg : g.Plain) : Reads (yieldExpression g) Operand.Bare := by
  unfold yieldExpression
  refine .skip reads_here fun start => .skip (reads_word "yield") fun _ =>
    .skip (reads_optWord "from") fun found => ?_
  split
  · exact hg.expression.bind fun value hvalue => reads_valueFrom start (by simpa using hvalue)
  refine .skip reads_peek fun l => ?_
  split
  · exact .bind (reads_starExpressions hg) fun value hvalue =>
      reads_valueFrom start (by simpa using hvalue)
  · exact reads_valueFrom start (by simp)

/-- A target is a primary; a star makes it take the rest. -/
theorem reads_target (hg : g.Plain) : Reads (target g) Operand.Bare := by
  unfold target
  refine .skip reads_here fun start => .skip (reads_optSign "*") fun found => ?_
  split
  · exact hg.primary.bind fun value hvalue => .skip (reads_guard _) fun _ =>
      reads_starredFrom start hvalue
  · exact hg.primary.bind fun value hvalue => .skip (reads_guard _) fun _ => .pure hvalue

theorem reads_targets (hg : g.Plain) : Reads (targets g) Operand.Bare :=
  .skip reads_here (reads_loose (reads_target hg))

/-! ## Comprehensions, arguments, elements -/

theorem reads_startsClauses : Reads startsClauses fun _ => True := reads_of_look fun _ => rfl

/-- A clause holds its target, what it runs over and its conditions. -/
theorem reads_clause (hg : g.Plain) : Reads (clause g) fun found => ∀ n ∈ found, n.Bare := by
  unfold clause
  refine .skip reads_startsClauses fun found => ?_
  split
  · refine .skip reads_here fun start => .skip (reads_optWord "async") fun _ =>
      .skip (reads_word "for") fun _ =>
      .bind (reads_targets hg) fun bound hbound => .skip (reads_word "in") fun _ => ?_
    refine .bind (reads_disjunction hg) fun source hsource => .bind (.repeated (Q := Node.Bare) ?_)
      fun conditions hconditions => ?_
    · refine .skip (reads_optWord "if") fun found => ?_
      split
      · exact .bind (reads_disjunction hg) fun value hvalue => .pure (by simpa using hvalue)
      · exact .pure (by simp)
    · exact .bind (reads_otherFrom start (by simpa using ⟨hbound, hsource, hconditions⟩))
        fun node hnode =>
        .pure (by simpa using hnode)
  · exact .pure (by simp)

theorem reads_clauses (hg : g.Plain) : Reads (clauses g) fun nodes => ∀ n ∈ nodes, n.Bare :=
  .skip reads_startsClauses fun _ => .skip (reads_guard _) fun _ => .repeated (reads_clause hg)

/-- A plain argument is its value, one with a keyword or a star a node around it. -/
theorem reads_argument (hg : g.Plain) (stage : ArgumentStage) :
    Reads (argument g stage) fun a => a.node.Bare := by
  unfold argument
  refine .skip reads_here fun start => .skip (reads_optSign "**") fun found => ?_
  split
  · exact hg.expression.bind fun value hvalue =>
      .bind (reads_otherFrom start (by simpa using hvalue)) fun _ hnode =>
      .pure hnode
  refine .skip (reads_optSign "*") fun found => ?_
  split
  · exact .skip (reads_guard _) fun _ => hg.expression.bind fun value hvalue =>
      .bind (reads_otherFrom start (by simpa using hvalue)) fun _ hnode => .pure hnode
  refine .skip reads_peek fun l => .skip reads_peekSecond fun l' => ?_
  split
  · exact .skip reads_name fun _ => .skip (reads_sign "=") fun _ =>
      hg.expression.bind fun value hvalue =>
      .bind (reads_otherFrom start (by simpa using hvalue)) fun _ hnode => .pure hnode
  · exact .skip (reads_guard _) fun _ => .bind (reads_namedExpression hg) fun value hvalue =>
      .pure hvalue

/-- The stage of the list decides only which arguments may follow, not what they hold. -/
theorem reads_argumentsFrom (hg : g.Plain) (fuel : Nat) (stage : ArgumentStage) :
    Reads (argumentsFrom g fuel stage) fun all => ∀ a ∈ all, a.node.Bare := by
  induction fuel generalizing stage with
  | zero => exact .failure
  | succ fuel ih =>
    unfold argumentsFrom
    refine .skip (reads_optSign ")") fun found => ?_
    split
    · exact .pure (by simp)
    refine .bind (reads_argument hg stage) fun first hfirst =>
      .skip (reads_optSign ",") fun found => ?_
    split
    · exact (ih first.stage).bind fun more hmore => .pure (List.forall_mem_cons.mpr ⟨hfirst, hmore⟩)
    · exact .skip (reads_sign ")") fun _ => .pure (List.forall_mem_singleton.mpr hfirst)

/-- Positional arguments are visited before keyword arguments; a generator that stands alone is an
argument with its own clauses. -/
theorem reads_arguments (hg : g.Plain) (alone : Option Place) :
    Reads (arguments g alone) fun nodes => ∀ n ∈ nodes, n.Bare := by
  intro input
  unfold arguments
  dsimp only
  -- After a first argument there is nothing more, or a comma with the rest behind it.
  have hrest : ∀ first : Argument, first.node.Bare → Reads
      (optSign "," >>= fun found =>
        if found = true then argumentsFrom g input.bound first.stage >>= fun more =>
          pure (((first :: more).partition Argument.late).2 ++
            ((first :: more).partition Argument.late).1 |>.map
            Argument.node)
        else sign ")" >>= fun _ => pure [first.node]) fun nodes => ∀ n ∈ nodes, n.Bare := by
    intro first hfirst
    refine .skip (reads_optSign ",") fun found => ?_
    split
    · refine .bind (reads_argumentsFrom hg _ _) fun more hmore => .pure ?_
      have hall : ∀ a ∈ first :: more, a.node.Bare := List.forall_mem_cons.mpr ⟨hfirst, hmore⟩
      rw [List.partition_eq_filter_filter, List.forall_mem_map, List.forall_mem_append]
      exact ⟨fun a ha => hall a (List.mem_filter.mp ha).1, fun a ha =>
        hall a (List.mem_filter.mp ha).1⟩
    · exact .skip (reads_sign ")") fun _ => .pure (List.forall_mem_singleton.mpr hfirst)
  refine Reads.skip (reads_optSign ")") (fun found => ?_) input
  split
  · exact .pure (by simp)
  refine .bind (reads_argument hg _) fun first hfirst => ?_
  split
  next start =>
    refine .skip reads_startsClauses fun found => ?_
    split
    · exact .bind (reads_clauses hg) fun parts hparts => .skip (reads_sign ")") fun _ =>
        .bind (reads_otherFrom start (List.forall_mem_cons.mpr ⟨hfirst, hparts⟩)) fun node hnode =>
          .pure (List.forall_mem_singleton.mpr hnode)
    · exact hrest first hfirst
  next => exact hrest first hfirst

/-- A slice holds those of its three bounds that are written. -/
theorem reads_subscriptItem (hg : g.Plain) : Reads (subscriptItem g) Operand.Bare := by
  unfold subscriptItem
  refine .skip reads_here fun start => ?_
  extract_lets bound afterColon
  have hbound : Reads bound fun nodes => ∀ n ∈ nodes, n.Bare := by
    refine .skip reads_peek fun l => ?_
    split
    · exact hg.expression.bind fun value hvalue => .pure (List.forall_mem_singleton.mpr hvalue)
    · exact .pure (by simp)
  have hafter : ∀ lower : List Node, (∀ n ∈ lower, n.Bare) →
      Reads (afterColon lower) Operand.Bare := by
    intro lower hlower
    refine hbound.bind fun upper hupper => .skip (reads_optSign ":") fun found => ?_
    have hboth : ∀ n ∈ lower ++ upper, n.Bare := List.forall_mem_append.mpr ⟨hlower, hupper⟩
    split
    · exact hbound.bind fun step hstep =>
        reads_valueFrom start (List.forall_mem_append.mpr ⟨hboth, hstep⟩)
    · exact reads_valueFrom start hboth
  refine .skip (reads_optSign "*") fun found => ?_
  split
  · exact hg.expression.bind fun value hvalue => reads_starredFrom start hvalue
  refine .skip (reads_optSign ":") fun found => ?_
  split
  · exact hafter [] (by simp)
  refine .skip reads_startsAssignment fun found => ?_
  split
  · exact reads_namedExpression hg
  refine hg.expression.bind fun value hvalue => .skip (reads_optSign ":") fun found => ?_
  split
  · exact hafter [value.node] (List.forall_mem_singleton.mpr hvalue)
  · exact .pure hvalue

/-- A single item is the index itself, several are parts of one node. -/
theorem reads_subscript (hg : g.Plain) : Reads (subscript g) Node.Bare := by
  unfold subscript
  refine .skip reads_here fun start => .bind (reads_subscriptItem hg) fun first hfirst =>
    .bind (reads_afterCommas _ (reads_subscriptItem hg)) fun r hr => ?_
  dsimp only
  split
  · exact reads_otherFrom start (by simpa using ⟨hfirst, hr⟩)
  · exact .pure hfirst

/-! ## Parameters -/

/-- There is no definition in the parameters read so far. -/
structure Parameters.Bare (p : Parameters) : Prop where
  annotations : ∀ n ∈ p.annotations, n.Bare
  restAnnotation : ∀ n ∈ p.restAnnotation, n.Bare
  keywordAnnotations : ∀ n ∈ p.keywordAnnotations, n.Bare
  keywordDefaults : ∀ n ∈ p.keywordDefaults, n.Bare
  keywordRestAnnotation : ∀ n ∈ p.keywordRestAnnotation, n.Bare
  defaults : ∀ n ∈ p.defaults, n.Bare

/-- All that the parameters bring into the tree: annotations and defaults. -/
theorem Parameters.Bare.nodes {p : Parameters} (h : p.Bare) : ∀ n ∈ p.nodes, n.Bare := by
  simp only [Parameters.nodes, List.forall_mem_append]
  exact ⟨⟨⟨⟨⟨h.annotations, h.restAnnotation⟩, h.keywordAnnotations⟩, h.keywordDefaults⟩,
    h.keywordRestAnnotation⟩, h.defaults⟩

theorem Parameters.bare_empty : Parameters.Bare {} := by
  constructor <;> exact List.forall_mem_nil _

/-- Only parameters of a function have annotations, those of a lambda do not. -/
theorem reads_annotated (hg : g.Plain) (annotated starAllowed : Bool) :
    Reads ( annotation g annotated starAllowed) fun nodes => ∀ n ∈ nodes, n.Bare := by
  unfold annotation
  split
  · refine .skip (reads_optSign ":") fun found => ?_
    split
    · split
      · exact .bind (reads_starExpression hg) fun value hvalue =>
          .pure (List.forall_mem_singleton.mpr hvalue)
      · exact hg.expression.bind fun value hvalue => .pure (List.forall_mem_singleton.mpr hvalue)
    · exact .pure (by simp)
  · exact .pure (by simp)

/-- One more parameter adds its annotation and its default to what was collected, and the signs `/`
and `*` add nothing. -/
theorem reads_parameter (hg : g.Plain) (annotated : Bool) {p : Parameters} (h : p.Bare) :
    Reads (parameter g annotated p) Parameters.Bare := by
  unfold parameter
  refine .skip (reads_guard _) fun _ => .skip (reads_optSign "/") fun found => ?_
  split
  · exact .skip (reads_guard _) fun _ => .pure { h with }
  refine .skip (reads_optSign "**") fun found => ?_
  split
  · exact .skip (reads_guard _) fun _ => .skip reads_name fun _ =>
      .bind (reads_annotated hg _ _) fun _ hnote =>
      .pure { h with keywordRestAnnotation := hnote }
  refine .skip (reads_optSign "*") fun found => ?_
  split
  · refine .skip (reads_guard _) fun _ => .skip reads_peek fun l => ?_
    split
    · exact .skip reads_name fun _ => .bind (reads_annotated hg _ _) fun _ hnote =>
        .pure { h with restAnnotation := hnote }
    · exact .pure { h with }
  refine .skip reads_name fun _ => .bind (reads_annotated hg _ _) fun note hnote =>
    .skip (reads_optSign "=") fun found => ?_
  extract_lets withValue
  have hwith : ∀ value : List Node, (∀ n ∈ value, n.Bare) →
      Reads (withValue value) Parameters.Bare := by
    intro value hvalue
    unfold withValue
    split
    · exact .pure { h with
        keywordAnnotations := List.forall_mem_append.mpr ⟨h.keywordAnnotations, hnote⟩
        keywordDefaults := List.forall_mem_append.mpr ⟨h.keywordDefaults, hvalue⟩ }
    · exact .skip (reads_guard _) fun _ => .pure { h with
        annotations := List.forall_mem_append.mpr ⟨h.annotations, hnote⟩
        defaults := List.forall_mem_append.mpr ⟨h.defaults, hvalue⟩ }
  split
  · exact hg.expression.bind fun value hvalue =>
      hwith [value.node] (List.forall_mem_singleton.mpr hvalue)
  · exact hwith [] (List.forall_mem_nil _)

/-- The parameters are collected one by one, so what is carried through the loop is that all of them
so far are bare. -/
theorem reads_parametersFrom (hg : g.Plain) (annotated : Bool) (closing : String) (fuel : Nat)
    {p : Parameters}
    (h : p.Bare) : Reads (parametersFrom g annotated closing fuel p) Parameters.Bare := by
  induction fuel generalizing p with
  | zero => exact .failure
  | succ fuel ih =>
    unfold parametersFrom
    refine .skip (reads_isSign closing) fun found => ?_
    split
    · exact .skip (reads_guard _) fun _ => .pure h
    refine .bind (reads_parameter hg annotated h) fun p' hp' =>
      .skip (reads_optSign ",") fun found => ?_
    split
    · exact ih hp'
    · exact .skip (reads_isSign closing) fun _ => .skip (reads_guard _) fun _ => .pure hp'

theorem reads_parameters (hg : g.Plain) (annotated : Bool) (closing : String) :
    Reads (parameters g annotated closing) fun nodes => ∀ n ∈ nodes, n.Bare := by
  intro input
  have hread : Reads (parametersFrom g annotated closing input.bound {} >>= fun p => pure p.nodes)
      fun nodes => ∀ n ∈ nodes, n.Bare :=
    .bind (reads_parametersFrom hg annotated closing input.bound Parameters.bare_empty) fun _ hp =>
    .pure hp.nodes
  exact hread input

/-- A lambda has the defaults of its parameters as parts, and its body. -/
theorem reads_lambda (hg : g.Plain) : Reads (lambda g) Operand.Bare := by
  unfold lambda
  refine .skip reads_here fun start => .skip (reads_word "lambda") fun _ =>
    .bind (reads_parameters hg _ _)
    fun inner hinner => .skip (reads_sign ":") fun _ => hg.expression.bind fun body hbody =>
    reads_valueFrom start ?_
  rw [List.forall_mem_append]
  exact ⟨hinner, List.forall_mem_singleton.mpr hbody⟩

/-- A conditional expression has three parts, the test before the two branches. -/
theorem reads_expression (hg : g.Plain) : Reads (expression g) Operand.Bare := by
  unfold expression
  refine .skip (reads_isWord "lambda") fun found => ?_
  split
  · exact reads_lambda hg
  refine .skip reads_here fun start => .bind (reads_disjunction hg) fun value hvalue =>
    .skip (reads_optWord "if") fun found => ?_
  split
  · exact .bind (reads_disjunction hg) fun condition hcondition =>
      .skip (reads_word "else") fun _ =>
      hg.expression.bind fun otherwise hotherwise =>
        reads_valueFrom start (by simp [hcondition, hvalue, hotherwise])
  · exact .pure hvalue

/-! ## Atoms -/

/-- A comprehension after its first part, up to the closing sign. -/
theorem reads_comprehension (hg : g.Plain) (start : Place) (parts : List Node)
    (h : ∀ n ∈ parts, n.Bare) (closing : String) :
    Reads (clauses g >>= fun more => sign closing >>= fun _ => valueFrom start (parts ++ more))
      Operand.Bare :=
  .bind (reads_clauses hg) fun _ hmore => .skip (reads_sign closing) fun _ =>
    reads_valueFrom start (List.forall_mem_append.mpr ⟨h, hmore⟩)

/-- Parentheses around one expression leave its node as it is. -/
theorem reads_parenthesised (hg : g.Plain) : Reads (parenthesised g) Operand.Bare := by
  unfold parenthesised
  refine .skip reads_here fun start => .skip (reads_sign "(") fun _ =>
    .skip (reads_optSign ")") fun found => ?_
  split
  · exact reads_sequenceFrom start (by simp)
  refine .skip (reads_isWord "yield") fun found => ?_
  split
  · exact .bind (reads_yieldExpression hg) fun value hvalue =>
      .skip (reads_sign ")") fun _ => .pure hvalue
  refine .bind (reads_starNamedExpression hg) fun first hfirst =>
    .skip reads_startsClauses fun found => ?_
  split
  · exact .skip (reads_guard _) fun _ =>
      reads_comprehension hg start [first.node] (List.forall_mem_singleton.mpr hfirst) ")"
  refine .bind (reads_afterCommas _ (reads_starNamedExpression hg)) fun r hr =>
    .skip (reads_sign ")") fun _ => ?_
  split
  · exact reads_sequenceFrom start (List.forall_mem_cons.mpr ⟨hfirst, hr⟩)
  · exact .skip (reads_guard _) fun _ => .pure hfirst

theorem reads_bracketed (hg : g.Plain) : Reads (bracketed g) Operand.Bare := by
  unfold bracketed
  refine .skip reads_here fun start => .skip (reads_sign "[") fun _ =>
    .skip (reads_optSign "]") fun found => ?_
  split
  · exact reads_sequenceFrom start (by simp)
  refine .bind (reads_starNamedExpression hg) fun first hfirst =>
    .skip reads_startsClauses fun found => ?_
  split
  · exact .skip (reads_guard _) fun _ =>
      reads_comprehension hg start [first.node] (List.forall_mem_singleton.mpr hfirst) "]"
  · exact .bind (reads_afterCommas _ (reads_starNamedExpression hg)) fun r hr =>
      .skip (reads_sign "]") fun _ =>
      reads_sequenceFrom start (List.forall_mem_cons.mpr ⟨hfirst, hr⟩)

/-- An entry with a double star has no key. -/
theorem reads_entry (hg : g.Plain) : Reads (entry g) fun r => (∀ n ∈ r.1, n.Bare) ∧ r.2.Bare := by
  unfold entry
  refine .skip (reads_optSign "**") fun found => ?_
  split
  · exact .bind (reads_bitwiseOr hg) fun value hvalue => .pure ⟨by simp, hvalue⟩
  · exact hg.expression.bind fun key hkey => .skip (reads_sign ":") fun _ =>
      hg.expression.bind fun value hvalue =>
      .pure ⟨List.forall_mem_singleton.mpr hkey, hvalue⟩

/-- A dictionary has the nodes of its keys, and then those of its values. -/
theorem reads_dictionaryRest (hg : g.Plain) (start : Place) {first : List Node × Node}
    (hfirst : (∀ n ∈ first.1, n.Bare) ∧ first.2.Bare) :
    Reads (dictionaryRest g start first) Operand.Bare := by
  unfold dictionaryRest
  refine .bind (reads_afterCommas _ (reads_entry hg)) fun r hr => .skip (reads_sign _) fun _ =>
    reads_valueFrom start ?_
  have hall : ∀ e ∈ first :: r.1, (∀ n ∈ e.1, n.Bare) ∧ e.2.Bare := by
    rw [List.forall_mem_cons]
    exact ⟨hfirst, hr⟩
  rw [List.forall_mem_append, List.forall_mem_map]
  refine ⟨fun n hn => ?_, fun e he => (hall e he).2⟩
  obtain ⟨e, he, hmem⟩ := List.mem_flatMap.mp hn
  exact (hall e he).1 n hmem

theorem reads_setRest (hg : g.Plain) (start : Place) {first : Operand} (hfirst : first.Bare) :
    Reads (setRest g start first) Operand.Bare := by
  unfold setRest
  refine .skip reads_startsClauses fun found => ?_
  split
  · exact reads_comprehension hg start [first.node] (List.forall_mem_singleton.mpr hfirst) _
  · exact .bind (reads_afterCommas _ (reads_starNamedExpression hg)) fun r hr =>
      .skip (reads_sign _) fun _ =>
      reads_joined start hfirst hr

/-- The first item decides what the braces hold: an entry makes a dictionary, anything else a set,
and a clause behind either a comprehension. -/
theorem reads_braced (hg : g.Plain) : Reads (braced g) Operand.Bare := by
  unfold braced
  refine .skip reads_here fun start => .skip (reads_sign _) fun _ =>
    .skip (reads_optSign _) fun found => ?_
  split
  · exact reads_valueFrom start (by simp)
  refine .skip (reads_isSign "**") fun found => ?_
  split
  · exact .bind (reads_entry hg) fun first hfirst => reads_dictionaryRest hg start hfirst
  refine .skip (reads_isSign "*") fun found => .skip reads_startsAssignment fun found' => ?_
  split
  · exact .bind (reads_starNamedExpression hg) fun first hfirst => reads_setRest hg start hfirst
  refine hg.expression.bind fun first hfirst => .skip (reads_optSign ":") fun found => ?_
  split
  · refine hg.expression.bind fun value hvalue => .skip reads_startsClauses fun found => ?_
    split
    · exact reads_comprehension hg start [first.node, value.node] (by simp [hfirst, hvalue]) _
    · exact reads_dictionaryRest hg start ⟨List.forall_mem_singleton.mpr hfirst, hvalue⟩
  · exact reads_setRest hg start hfirst

end Operators

/-- An atom is a name, a literal, or something in parentheses, brackets or braces. -/
theorem reads_atom (hg : g.Plain) : Reads (atom g) Operand.Bare := by
  unfold atom
  refine .skip reads_peek fun l => ?_
  split
  next cs =>
    split
    · exact reads_nameOperand
    · exact .skip (reads_guard _) fun _ => .skip reads_here fun start => .skip reads_next fun _ =>
        reads_valueFrom start (by simp)
  next => exact reads_strings hg
  next => exact reads_number
  next cs =>
    split
    · exact reads_parenthesised hg
    split
    · exact reads_bracketed hg
    split
    · exact reads_braced hg
    · exact .skip reads_here fun start => .skip (reads_sign "...") fun _ =>
        reads_valueFrom start (by simp)
  next => exact .failure

/-- A suffix puts the operand before it into a member, a call or an element. -/
theorem reads_suffix (hg : g.Plain) (start : Place) {base : Operand} (hbase : base.Bare) :
    Reads (suffix g start base) fun found => ∀ o ∈ found, o.Bare := by
  unfold suffix
  refine .skip reads_here fun opened => .skip (reads_optSign ".") fun found => ?_
  split
  · refine .skip reads_name fun id => .skip (reads_extentFrom start) fun extent =>
      .pure fun o ho => ?_
    cases ho
    exact Node.bare_member.mpr hbase
  refine .skip (reads_optSign "(") fun found => ?_
  split
  · refine .bind (reads_arguments hg _) fun inner hinner =>
      .skip (reads_extentFrom start) fun extent =>
      .pure fun o ho => ?_
    cases ho
    exact Node.bare_call.mpr ⟨hbase, hinner⟩
  refine .skip (reads_optSign "[") fun found => ?_
  split
  · refine .bind (reads_subscript hg) fun index hindex => .skip (reads_sign "]") fun _ =>
      .bind (reads_otherFrom start (by simp [hbase, hindex])) fun node hnode => .pure fun o ho => ?_
    cases ho
    exact hnode
  · exact .pure (by simp)

/-- The induction is on the suffixes; the operand that they have made so far is bare. -/
theorem reads_suffixes (hg : g.Plain) (start : Place) (fuel : Nat) {base : Operand}
    (hbase : base.Bare) :
    Reads (suffixes g start fuel base) Operand.Bare := by
  induction fuel generalizing base with
  | zero => exact .failure
  | succ fuel ih =>
    unfold suffixes
    refine .bind (reads_suffix hg start hbase) fun found hfound => ?_
    cases found with
    | none => exact .pure hbase
    | some longer => exact ih (hfound longer rfl)

theorem reads_primary (hg : g.Plain) : Reads (primary g) Operand.Bare :=
  fun input => Reads.skip reads_here (fun start => .bind (reads_atom hg) fun _ hbase =>
    reads_suffixes hg start input.bound hbase) input

/-! ## Patterns -/

theorem reads_capture : Reads capture fun _ => True := by
  unfold capture
  exact .skip reads_peek fun _ => .skip (reads_guard _) fun _ => .skip reads_name fun _ =>
    .skip (reads_isSign ".") fun _ => .skip (reads_isSign "(") fun _ =>
      .skip (reads_isSign "=") fun _ =>
      (reads_guard _).imp fun _ _ => trivial

/-- A dotted name is a name with members. -/
theorem reads_dottedNode : Reads dottedNode Node.Bare := by
  unfold dottedNode
  refine .skip reads_here fun start => .bind reads_nameOperand fun first hfirst =>
    .skip (.repeated (Q := fun _ => True) ?_) fun more => .pure ?_
  · refine .skip (reads_optSign ".") fun found => ?_
    split
    · exact .skip reads_name fun _ => .skip (reads_extentFrom start) fun _ => .pure (by simp)
    · exact .pure (by simp)
  · exact List.foldlRecOn more _ hfirst fun receiver hreceiver _ _ => Node.bare_member.mpr hreceiver

/-- The sign of a negative number makes a node of its own. -/
theorem reads_signedNumber : Reads signedNumber fun r => ∀ n ∈ r.1, n.Bare := by
  unfold signedNumber
  refine .skip reads_here fun start => .skip (reads_optSign "-") fun negative =>
    .skip reads_peek fun l => ?_
  split
  · refine .bind reads_number fun value hvalue => ?_
    extract_lets withNode
    have hwith : ∀ node : Node, node.Bare → Reads (withNode node) fun r => ∀ n ∈ r.1, n.Bare :=
      fun _ hnode => .pure (List.forall_mem_singleton.mpr hnode)
    split
    · exact .bind (reads_otherFrom start (by simpa using hvalue)) hwith
    · exact hwith value.node hvalue
  · exact .failure

/-- A complex number is written as a sum, and so is one node with two parts. -/
theorem reads_complexNumber : Reads complexNumber Node.Bare := by
  unfold complexNumber
  refine .skip reads_here fun start => .bind reads_signedNumber fun r hr =>
    .skip (reads_optSignOf _) fun found => ?_
  split
  · refine .skip (reads_guard _) fun _ => .skip reads_peek fun l => ?_
    split
    · exact .skip (reads_guard _) fun _ => .bind reads_number fun value hvalue =>
        reads_otherFrom start
          (List.forall_mem_append.mpr ⟨hr, List.forall_mem_singleton.mpr hvalue⟩)
    · exact .failure
  · exact reads_otherFrom start hr

/-- Only the strings among the literals can have parts. -/
theorem reads_literal (hg : g.Plain) : Reads (literal g) Node.Bare := by
  unfold literal
  refine .skip reads_peek fun l => ?_
  split
  · exact .bind (reads_strings hg) fun value hvalue => .pure hvalue
  · exact .skip reads_here fun start => .skip reads_next fun _ => reads_otherFrom start (by simp)
  · exact reads_complexNumber

/-- The name for the rest of a sequence leaves a node without parts. -/
theorem reads_starPattern (hg : g.Plain) : Reads (starPattern g) fun r => r.1.Bare := by
  unfold starPattern
  refine .skip reads_here fun start => .skip (reads_optSign "*") fun found => ?_
  split
  · refine .skip reads_peek fun l => ?_
    extract_lets rest
    have hrest : Reads (rest ()) fun r => r.1.Bare :=
      .bind (reads_otherFrom start (by simp)) fun _ hnode => .pure hnode
    split
    · exact .skip reads_next fun _ => hrest
    · exact .skip reads_capture fun _ => hrest
  · exact hg.pattern.bind fun _ hnode => .pure hnode

/-- What stands between the brackets is one node with a part for each pattern. -/
theorem reads_sequencePattern (hg : g.Plain) (closing : String) (grouping : Bool) :
    Reads (sequencePattern g closing grouping) Node.Bare := by
  unfold sequencePattern
  refine .skip reads_here fun start => .skip (reads_optSign closing) fun found => ?_
  split
  · exact reads_otherFrom start (by simp)
  refine .bind (reads_starPattern hg) fun first hfirst =>
    .bind (reads_afterCommas _ (reads_starPattern hg))
    fun r hr => .skip (reads_sign closing) fun _ => .skip (reads_guard _) fun _ =>
    reads_otherFrom start ?_
  rw [List.forall_mem_cons, List.forall_mem_map]
  exact ⟨hfirst, hr⟩

/-- An entry gives the nodes of its key apart from those of its value, which are visited later. -/
theorem reads_mappingEntry (hg : g.Plain) :
    Reads (mappingEntry g) fun r => (∀ n ∈ r.1, n.Bare) ∧ ∀ n ∈ r.2.1, n.Bare := by
  unfold mappingEntry
  refine .skip (reads_optSign "**") fun found => ?_
  split
  · exact .skip reads_capture fun _ => .pure (by simp)
  refine .skip reads_peek fun l => ?_
  extract_lets withKey
  have hwith : ∀ key : Node, key.Bare → Reads (withKey key) fun r => (∀ n ∈ r.1, n.Bare) ∧
      ∀ n ∈ r.2.1, n.Bare :=
    fun _ hkey => .skip (reads_sign ":") fun _ => hg.pattern.bind fun _ hvalue =>
      .pure ⟨List.forall_mem_singleton.mpr hkey, List.forall_mem_singleton.mpr hvalue⟩
  split
  · exact .bind (reads_literal hg) hwith
  · exact .bind reads_dottedNode fun node hnode => .skip (reads_guard _) fun _ => hwith node hnode

/-- A mapping pattern has the nodes of all keys and then of all values. -/
theorem reads_mappingPattern (hg : g.Plain) (start : Place) :
    Reads (mappingPattern g start) Node.Bare := by
  unfold mappingPattern
  refine .skip (reads_optSign _) fun found => ?_
  split
  · exact reads_otherFrom start (by simp)
  refine .bind (reads_commaList _ (reads_mappingEntry hg)) fun entries hentries =>
    .skip (reads_sign _) fun _ =>
    .skip (reads_guard _) fun _ => reads_otherFrom start ?_
  rw [List.forall_mem_append]
  constructor
  · intro n hn
    obtain ⟨e, he, hmem⟩ := List.mem_flatMap.mp hn
    exact (hentries e he).1 n hmem
  · intro n hn
    obtain ⟨e, he, hmem⟩ := List.mem_flatMap.mp hn
    exact (hentries e he).2 n hmem

/-- The keyword of an argument leaves no node. -/
theorem reads_classArgument (hg : g.Plain) : Reads (classArgument g) fun r => r.1.Bare := by
  unfold classArgument
  refine .skip reads_peek fun l => .skip reads_peekSecond fun l' => ?_
  split
  · exact .skip reads_name fun _ => .skip (reads_sign "=") fun _ =>
      hg.pattern.bind fun _ hnode => .pure hnode
  · exact hg.pattern.bind fun _ hnode => .pure hnode

/-- A class pattern has the class as its first part. -/
theorem reads_classPattern (hg : g.Plain) (start : Place) {cls : Node} (hcls : cls.Bare) :
    Reads (classPattern g start cls) Node.Bare := by
  unfold classPattern
  refine .skip (reads_optSign ")") fun found => ?_
  split
  · exact reads_otherFrom start (List.forall_mem_singleton.mpr hcls)
  refine .bind (reads_commaList _ (reads_classArgument hg)) fun inner hinner =>
    .skip (reads_sign ")") fun _ =>
    .skip (reads_guard _) fun _ => reads_otherFrom start ?_
  rw [List.forall_mem_cons, List.forall_mem_map]
  exact ⟨hcls, hinner⟩

/-- A name alone is bound by the pattern and leaves a node without parts; a dotted name is looked
up. -/
theorem reads_closedPattern (hg : g.Plain) : Reads (closedPattern g) Node.Bare := by
  unfold closedPattern
  refine .skip reads_here fun start => .skip reads_peek fun l => ?_
  split
  · exact reads_literal hg
  refine .skip (reads_optSign "(") fun found => ?_
  split
  · exact reads_sequencePattern hg ")" true
  refine .skip (reads_optSign "[") fun found => ?_
  split
  · exact reads_sequencePattern hg "]" false
  refine .skip (reads_optSign _) fun found => ?_
  split
  · exact reads_mappingPattern hg start
  refine .bind reads_dottedNode fun node hnode => .skip (reads_optSign "(") fun found => ?_
  split
  · exact reads_classPattern hg start hnode
  refine .skip (reads_isSign "=") fun _ => .skip (reads_guard _) fun _ => ?_
  split
  · exact .pure hnode
  · exact reads_otherFrom start (by simp)

/-- The alternatives are parts of one node, to which a name that is given adds nothing. -/
theorem reads_pattern (hg : g.Plain) : Reads (pattern g) Node.Bare := by
  unfold pattern
  refine .skip reads_here fun start => .bind (reads_closedPattern hg) fun first hfirst =>
    .bind (reads_led (reads_optSign "|") (reads_closedPattern hg)) fun more hmore =>
    .skip (reads_optWord "as") fun found => ?_
  have hall : ∀ n ∈ first :: more, n.Bare := List.forall_mem_cons.mpr ⟨hfirst, hmore⟩
  split
  · exact .skip reads_capture fun _ => reads_otherFrom start hall
  · exact reads_otherFrom start hall

/-- Patterns without brackets are parts of one node, even if there is only one. -/
theorem reads_openPattern (hg : g.Plain) : Reads (openPattern g) Node.Bare := by
  unfold openPattern
  refine .skip reads_here fun start => .bind (reads_starPattern hg) fun first hfirst =>
    .bind (reads_afterCommas _ (reads_starPattern hg)) fun r hr => .skip (reads_guard _) fun _ =>
    reads_otherFrom start ?_
  rw [List.forall_mem_cons, List.forall_mem_map]
  exact ⟨hfirst, hr⟩

end Parser

end CallAtlas.Source
