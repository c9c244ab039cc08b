import CallAtlas.Proofs.Layout.Literals
import CallAtlas.Source.Parser.Pattern

/-!
# Expressions are laid out

Every parser of an expression or pattern lays out what it reads, provided that the grammar of what
stands inside does (`Grammar.LaysOut`). Most constructs list their parts in the order of the text.
Where they do not, in conditional expressions, dictionaries, arguments and parameters, the parts are
the same in another order.
-/

namespace CallAtlas.Source

/-- The parsers through which a grammar refers to itself lay out what they read. -/
structure Grammar.LaysOut (g : Grammar) : Prop where
  expression : ∀ {fin}, Parser.Sets fin g.expression
  inversion : ∀ {fin}, Parser.Sets fin g.inversion
  factor : ∀ {fin}, Parser.Sets fin g.factor
  primary : ∀ {fin}, Parser.Sets fin g.primary
  block : ∀ {fin}, Parser.Adds fin g.block fun ns => ns
  pattern : ∀ {fin}, Parser.Lays fin g.pattern (fun n => [n]) fun _ => True
  field : FieldPlaced g.field

namespace Parser

variable {fin lo start : Place} {begun : Bool} {nodes : List Node} {g : Grammar}

/-! ## Lists of operands -/

/-- The nodes of operands that were read one after the other. -/
theorem map_subperm (items : List Operand) :
    (items.map Operand.node).Subperm (items.flatMap fun a => [a.node]) := by
  rw [List.map_eq_flatMap]

/-- As `map_subperm`, with the first operand read on its own. -/
theorem cons_map_subperm (first : Operand) (more : List Operand) :
    (first.node :: more.map Operand.node).Subperm
      ([first.node] ++ more.flatMap fun a => [a.node]) :=
  map_subperm (first :: more)

/-- An operand closes the stretch over which its parts are spread. -/
theorem runs_valueFrom {parts : List Node} (h : parts.Subperm nodes) :
    Runs (Span fin lo true nodes) (valueFrom lo parts) fun a j =>
      Span fin lo true [a.node] j ∧ a.node.Snug :=
  .bind (runs_otherFrom h) fun _ => .pure fun _ hspan => hspan

/-- A display closes the stretch over which its items are spread. -/
theorem runs_sequenceFrom {items : List Operand} (h : (items.map Operand.node).Subperm nodes) :
    Runs (Span fin lo true nodes) (sequenceFrom lo items) fun a j =>
      Span fin lo true [a.node] j ∧ a.node.Snug :=
  .bind (runs_otherFrom h) fun _ => .pure fun _ hspan => hspan

/-- A star closes the stretch with the operand behind it. -/
theorem runs_starredFrom {value : Operand} :
    Runs (Span fin lo true [value.node]) (starredFrom lo value) fun a j =>
      Span fin lo true [a.node] j ∧ a.node.Snug :=
  .bind (runs_otherFrom (.refl _)) fun _ => .pure fun _ hspan => hspan

/-- An operand is returned as it was read. -/
theorem runs_return {a : Operand} (ha : a.node.Snug) (h : [a.node].Subperm nodes) :
    Runs (Span fin lo true nodes) (pure a) fun a j => Span fin lo true [a.node] j ∧ a.node.Snug :=
  .pure fun _ hspan => ⟨hspan.of_subperm h, ha⟩

theorem sets_number : Sets fin number := by
  refine .here fun start => .nextLexeme fun t => ?_
  split
  next text ht =>
    refine .guard fun _ => .weaken (runs_valueFrom (.refl [])) fun i hspan => hspan ?_
    rw [ht]
    rfl
  next => exact .failure

theorem sets_nameOperand : Sets fin nameOperand := by
  refine .here fun start => .name fun id hid => .close fun i hspan => ?_
  have hsnug := Node.snug_name hid hspan.2
  exact ⟨hspan.1.of_snug hsnug le_rfl le_rfl, hsnug⟩

/-- The name of an assignment expression stands before its value, and both are parts of it. -/
theorem sets_namedExpression (hg : g.LaysOut) : Sets fin (namedExpression g) := by
  intro lo
  unfold namedExpression
  refine .look (fun _ => rfl) fun found => ?_
  split
  · exact Lays.here (fun start => .lay sets_nameOperand fun target _ =>
      .pass (passes_sign ":=") fun _ =>
      .lay hg.expression fun value _ => runs_valueFrom (.refl _)) lo
  · exact hg.expression lo

/-! ## Operators -/

section Operators

variable {operand : Parser Operand}

/-- Each operator closes the stretch from the start of the chain to the operand behind it, so the
chain so far is snug at every step. -/
theorem sets_leftChain (h : Sets fin operand) (operators : List String) :
    Sets fin (leftChain operand operators) := by
  refine .here fun start => .lay h fun first hfirst => ?_
  -- The operands joined so far are one node, and the next operand comes behind it.
  refine .bind (R := fun more i =>
    Span fin start true [more.foldl (fun left r => .other [left, r.1] r.2) first.node] i ∧
    (more.foldl (fun left r => Node.other [left, r.1] r.2) first.node).Snug) ?_ fun more => ?_
  · refine .weaken (.repeated fun done => .given fun hleft =>
      .test (tries_optSignOf operators) ?_ ?_)
      fun i hspan => ⟨hspan, hfirst⟩
    · refine .lay h fun right _ => .close fun i hspan => ?_
      rw [Option.toList_some, List.foldl_append]
      have hsnug := Node.snug_other hspan.spread (hspan.last rfl)
      exact ⟨hspan.of_snug hsnug le_rfl le_rfl, hsnug⟩
    · refine .pure fun i hspan => ?_
      rw [Option.toList_none, List.append_nil]
      exact ⟨hspan, hleft⟩
  · split
    · exact .pure fun i hspan => hspan
    · exact .pure fun i hspan => hspan

/-- The operands joined by a word follow each other in the text. -/
theorem sets_wordChain (h : Sets fin operand) (joint : String) :
    Sets fin (wordChain operand joint) := by
  refine .here fun start => .lay h fun first hfirst =>
    .add (.led (tries_optWord joint) h) fun more => ?_
  split
  · exact runs_return hfirst (.refl _)
  · exact runs_valueFrom (cons_map_subperm first _)

theorem sets_awaited (hg : g.LaysOut) : Sets fin (awaited g) :=
  .here fun start =>
    .test (tries_optWord "await") (.lay hg.primary fun _ _ => runs_valueFrom (.refl _))
    (hg.primary start)

/-- The exponent stands behind the base. -/
theorem sets_power (hg : g.LaysOut) : Sets fin (power g) :=
  .here fun _ => .lay (sets_awaited hg) fun _ hbase => .test (tries_optSign "**")
    (.lay hg.factor fun _ _ => runs_valueFrom (.refl _)) (runs_return hbase (.refl _))

theorem sets_factor (hg : g.LaysOut) : Sets fin (factor g) :=
  .here fun start => .test (tries_optSignOf _) (.lay hg.factor fun _ _ => runs_valueFrom (.refl _))
    (sets_power hg start)

theorem sets_bitwiseOr (hg : g.LaysOut) : Sets fin (bitwiseOr g) :=
  sets_leftChain (sets_leftChain (sets_leftChain (sets_leftChain (sets_leftChain (sets_leftChain
    (sets_factor hg) _) _) _) _) _) _

/-- A comparison operator moves on by its words, or not at all. -/
theorem tries_optComparison : Tries fin optComparison := by
  intro lo begun nodes
  have htaken : Runs (Span fin lo true nodes) (pure true) fun found =>
      Span fin lo (begun || found) nodes :=
    .pure fun i hspan => by rwa [Bool.or_true]
  refine .test (tries_optSignOf _) htaken
    (.test (tries_optWord "in") htaken (.test (tries_optWord "is") ?_
    (.test (tries_optWord "not") ?_ ?_)))
  · exact .keep (tries_optWord "not").keeps fun _ => htaken
  · exact .pass (passes_word "in") fun _ => htaken
  · exact .pure fun i hspan => by rwa [Bool.or_false]

/-- The operands of a chain of comparisons follow each other in the text. -/
theorem sets_comparison (hg : g.LaysOut) : Sets fin (comparison g) := by
  refine .here fun start => .lay (sets_bitwiseOr hg) fun first hfirst =>
    .add (.led tries_optComparison (sets_bitwiseOr hg)) fun more => ?_
  split
  · exact runs_return hfirst (.refl _)
  · exact runs_valueFrom (cons_map_subperm first _)

theorem sets_inversion (hg : g.LaysOut) : Sets fin (inversion g) :=
  .here fun start =>
    .test (tries_optWord "not") (.lay hg.inversion fun _ _ => runs_valueFrom (.refl _))
    (sets_comparison hg start)

theorem sets_disjunction (hg : g.LaysOut) : Sets fin (disjunction g) :=
  sets_wordChain (sets_wordChain (sets_inversion hg) "and") "or"

theorem sets_starExpression (hg : g.LaysOut) : Sets fin (starExpression g) :=
  .here fun start =>
    .test (tries_optSign "*") (.lay (sets_bitwiseOr hg) fun _ _ => runs_starredFrom)
    (hg.expression start)

/-- A starred element begins with its star. -/
theorem sets_starNamedExpression (hg : g.LaysOut) : Sets fin (starNamedExpression g) := by
  intro lo
  unfold starNamedExpression
  refine .look (fun _ => rfl) fun found => ?_
  split
  · exact sets_starExpression hg lo
  · exact sets_namedExpression hg lo

/-- One item, or a sequence of several without parentheses. -/
theorem runs_loose {item : Parser Operand} (h : Sets fin item) (start : Place) :
    Runs (Span fin start false []) (item >>= fun first =>
      afterCommas startsExpression item >>= fun r =>
      if r.2 = true then sequenceFrom start (first :: r.1) else pure first)
      fun a j => Span fin start true [a.node] j ∧ a.node.Snug := by
  refine .lay h fun first hfirst => .add (adds_afterCommas _ h) fun r => ?_
  split
  · exact runs_sequenceFrom (cons_map_subperm first r.1)
  · exact runs_return hfirst (List.sublist_append_left _ _).subperm

/-- A tuple without parentheses reaches from its first item to its last. -/
theorem sets_starExpressions (hg : g.LaysOut) : Sets fin (starExpressions g) :=
  .here fun start => runs_loose (sets_starExpression hg) start

/-- A `yield` begins with its word, and its value stands behind it. -/
theorem sets_yieldExpression (hg : g.LaysOut) : Sets fin (yieldExpression g) := by
  refine .here fun start => .pass (passes_word "yield") fun _ => .test (tries_optWord "from")
    (.lay hg.expression fun value _ => runs_valueFrom (.refl _)) (.look (fun _ => rfl) fun l => ?_)
  split
  · exact .lay (sets_starExpressions hg) fun value _ => runs_valueFrom (.refl _)
  · exact runs_valueFrom (.refl [])

theorem sets_target (hg : g.LaysOut) : Sets fin (target g) :=
  .here fun _ => .test (tries_optSign "*")
    (.lay hg.primary fun _ _ => .guard fun _ => runs_starredFrom)
    (.lay hg.primary fun _ hvalue => .guard fun _ => runs_return hvalue (.refl _))

theorem sets_targets (hg : g.LaysOut) : Sets fin (targets g) :=
  .here fun start => runs_loose (sets_target hg) start

/-! ## Comprehensions, arguments, elements -/

/-- The parts of a clause follow each other: the target, what it runs over, the conditions. -/
theorem adds_clause (hg : g.LaysOut) : Adds fin (clause g) Option.toList := by
  intro lo
  unfold clause
  refine .look (fun _ => rfl) fun found => ?_
  split
  · refine (Lays.here (Q := fun _ => True) fun start => ?_).adds lo
    refine .bind (tries_optWord "async" _ _ _) fun _ => .pass (passes_word "for") fun _ =>
      .lay (sets_targets hg) fun bound _ => .pass (passes_word "in") fun _ =>
      .lay (sets_disjunction hg) fun source _ =>
      .add (.repeatedNodes fun lo => ?_) fun conditions => ?_
    · refine .test (tries_optWord "if") (.lay (sets_disjunction hg) fun value _ => ?_) ?_
      · exact .pure fun i hspan => hspan
      · exact .pure fun i hspan => hspan
    · exact .bind (runs_otherFrom (.refl _)) fun node => .pure fun i hspan => ⟨hspan.1, trivial⟩
  · exact .pure fun i hspan => hspan

theorem adds_clauses (hg : g.LaysOut) : Adds fin (clauses g) fun ns => ns := fun lo =>
  .look (fun _ => rfl) fun _ => .guard fun _ => Adds.repeatedNodes (adds_clause hg) lo

/-- An argument reaches from its keyword or star, if it has one, to the end of its value. -/
theorem lays_argument (hg : g.LaysOut) (stage : ArgumentStage) :
    Lays fin (argument g stage) (fun a => [a.node]) fun _ => True := by
  refine .here fun start => ?_
  -- A value behind a star, a double star or a keyword.
  have hvalue {more : Node → Argument} (hmore : ∀ n, (more n).node = n) :
      Runs (Span fin start true [])
      (g.expression >>= fun value => otherFrom start [value.node] >>= fun node => pure (more node))
      fun a j => Span fin start true [a.node] j ∧ True :=
    .lay hg.expression fun value _ => .bind (runs_otherFrom (.refl _)) fun node =>
    .pure fun i hspan => by
      rw [hmore]
      exact ⟨hspan.1, trivial⟩
  refine .test (tries_optSign "**") (hvalue fun _ => rfl) (.test (tries_optSign "*") ?_ ?_)
  · exact .guard fun _ => hvalue fun _ => rfl
  · refine .look (fun _ => rfl) fun l => .look (fun _ => rfl) fun l' => ?_
    split
    · exact .pass passes_name fun _ => .pass (passes_sign "=") fun _ => hvalue fun _ => rfl
    · exact .guard fun _ => .lay (sets_namedExpression hg) fun value _ => .pure fun i hspan =>
        ⟨hspan, trivial⟩

/-- Arguments are read in the order of the text, whatever order they are visited in. -/
theorem lays_argumentsFrom (hg : g.LaysOut) (fuel : Nat) (stage : ArgumentStage) :
    Lays fin (argumentsFrom g fuel stage) (fun all => all.map Argument.node) fun _ => True := by
  induction fuel generalizing stage with
  | zero => exact fun lo => .failure
  | succ fuel ih =>
    intro lo
    unfold argumentsFrom
    refine .test (tries_optSign ")") ?_ (.lay (lays_argument hg stage) fun first _ =>
      .test (tries_optSign ",") ?_ ?_)
    · exact .pure fun i hspan => ⟨hspan, trivial⟩
    · exact .lay (ih first.stage) fun more _ => .pure fun i hspan => ⟨hspan, trivial⟩
    · exact .pass (passes_sign ")") fun _ => .pure fun i hspan => ⟨hspan, trivial⟩

/-- A comprehension that is the only argument begins at the parenthesis of the call. -/
theorem runs_arguments (hg : g.LaysOut) {alone : Option Place}
    (halone : ∀ opened ∈ alone, opened = lo) :
    Runs (Span fin lo false []) (arguments g alone) (Span fin lo true) := by
  intro input
  unfold arguments
  dsimp only
  -- After a first argument there is nothing more, or a comma with the rest behind it.
  have hrest (first : Argument) : Runs (Span fin lo true [first.node])
      (optSign "," >>= fun found =>
        if found = true then argumentsFrom g input.bound first.stage >>= fun more =>
          pure (((first :: more).partition Argument.late).2 ++
            ((first :: more).partition Argument.late).1 |>.map
            Argument.node)
        else sign ")" >>= fun _ => pure [first.node]) (Span fin lo true) := by
    refine .test (tries_optSign ",") ?_ (.pass (passes_sign ")") fun _ =>
      .pure fun i hspan => hspan)
    refine .lay (lays_argumentsFrom hg _ _) fun more _ => .pure fun i hspan => hspan.of_subperm ?_
    rw [List.partition_eq_filter_filter]
    exact ((List.perm_append_comm.trans (List.filter_append_perm _ _)).map Argument.node).subperm
  refine Runs.test (tries_optSign ")") (.pure fun i hspan => hspan)
    (.lay (lays_argument hg _) fun first _ => ?_) input
  split
  next opened =>
    obtain rfl := halone opened rfl
    refine .look (fun _ => rfl) fun found => ?_
    split
    · exact .add (adds_clauses hg) fun parts => .pass (passes_sign ")") fun _ =>
        .bind (runs_otherFrom (.refl _)) fun node => .pure fun i hspan => hspan.1
    · exact hrest first
  next => exact hrest first

/-- The bounds of a slice follow each other, those that are left out apart. -/
theorem sets_subscriptItem (hg : g.LaysOut) : Sets fin (subscriptItem g) := by
  refine .here fun start => ?_
  extract_lets bound afterColon
  have hbound : Adds fin bound fun ns => ns := by
    intro lo
    refine .look (fun _ => rfl) fun l => ?_
    split
    · exact .lay hg.expression fun value _ => .pure fun i hspan => hspan
    · exact .pure fun i hspan => hspan
  have hafter (lower : List Node) : Runs (Span fin start true lower) (afterColon lower)
      fun a j => Span fin start true [a.node] j ∧ a.node.Snug :=
    .add hbound fun upper =>
    .test (tries_optSign ":") (.add hbound fun step => runs_valueFrom (.refl _))
      (runs_valueFrom (.refl _))
  refine .test (tries_optSign "*") (.lay hg.expression fun _ _ => runs_starredFrom)
    (.test (tries_optSign ":") (hafter []) (.look (fun _ => rfl) fun found => ?_))
  split
  · exact sets_namedExpression hg start
  · exact .lay hg.expression fun value hvalue => .test (tries_optSign ":") (hafter [value.node])
      (runs_return hvalue (.refl _))

theorem lays_subscript (hg : g.LaysOut) : Lays fin (subscript g) (fun n => [n]) fun _ => True := by
  refine .here fun start => .lay (sets_subscriptItem hg) fun first hfirst =>
    .add (adds_afterCommas _ (sets_subscriptItem hg)) fun r => ?_
  dsimp only
  split
  · exact (runs_otherFrom (cons_map_subperm first r.1)).imp fun _ _ hspan => ⟨hspan.1, trivial⟩
  · exact .pure fun i hspan => ⟨hspan.of_subperm (List.sublist_append_left _ _).subperm, trivial⟩

/-! ## Parameters -/

/-- An annotation stands behind its parameter. -/
theorem adds_annotated (hg : g.LaysOut) (annotated starAllowed : Bool) :
    Adds fin ( annotation g annotated starAllowed) fun ns => ns := by
  intro lo
  unfold annotation
  split
  · refine .test (tries_optSign ":") ?_ (.pure fun i hspan => hspan)
    split
    · exact .lay (sets_starExpression hg) fun value _ => .pure fun i hspan => hspan
    · exact .lay hg.expression fun value _ => .pure fun i hspan => hspan
  · exact .pure fun i hspan => hspan

/-- The nodes of the parameters are those that were read, whichever list a parameter goes to. -/
theorem runs_parameter (hg : g.LaysOut) (annotated : Bool) (p : Parameters) :
    Runs (Span fin lo true p.nodes) (parameter g annotated p) fun p' =>
      Span fin lo true p'.nodes := by
  unfold parameter
  refine .guard fun _ => .test (tries_optSign "/") (.guard fun _ => .pure fun i hspan => hspan)
    (.test (tries_optSign "**") ?_ (.test (tries_optSign "*") ?_ ?_))
  · refine .guard fun _ => .pass passes_name fun _ => .add (adds_annotated hg _ _) fun note =>
      .pure fun i hspan =>
      hspan.of_subperm
        (Multiset.coe_le.mp (Multiset.le_iff_exists_add.mpr ⟨p.keywordRestAnnotation, ?_⟩))
    simp only [Parameters.nodes, ← Multiset.coe_add]
    abel
  · refine .guard fun _ => .look (fun _ => rfl) fun l => ?_
    split
    · refine .pass passes_name fun _ => .add (adds_annotated hg _ _) fun note =>
        .pure fun i hspan =>
        hspan.of_subperm
          (Multiset.coe_le.mp (Multiset.le_iff_exists_add.mpr ⟨p.restAnnotation, ?_⟩))
      simp only [Parameters.nodes, ← Multiset.coe_add]
      abel
    · exact .pure fun i hspan => hspan
  · refine .pass passes_name fun _ => .add (adds_annotated hg _ _) fun note => ?_
    refine .bind (tries_optSign "=" _ _ _) fun found => ?_
    extract_lets withValue
    have hwith (value : List Node) :
        Runs (Span fin lo true (p.nodes ++ note ++ value)) (withValue value)
        fun p' => Span fin lo true p'.nodes := by
      unfold withValue
      split
      · refine .pure fun i hspan => hspan.of_subperm (Multiset.coe_le.mp (le_of_eq ?_))
        simp only [Parameters.nodes, ← Multiset.coe_add]
        abel
      · refine .guard fun _ => .pure fun i hspan =>
          hspan.of_subperm (Multiset.coe_le.mp (le_of_eq ?_))
        simp only [Parameters.nodes, ← Multiset.coe_add]
        abel
    split
    · exact .lay hg.expression fun value _ => hwith [value.node]
    · exact (hwith []).weaken fun i hspan => by rwa [List.append_nil]

/-- The parameters collected so far are spread over what was read so far. -/
theorem runs_parametersFrom (hg : g.LaysOut) (annotated : Bool) (closing : String) (fuel : Nat)
    (p : Parameters) :
    Runs (Span fin lo true p.nodes) (parametersFrom g annotated closing fuel p) fun p' =>
      Span fin lo true p'.nodes := by
  induction fuel generalizing p with
  | zero => exact .failure
  | succ fuel ih =>
    unfold parametersFrom
    refine .look (fun _ => rfl) fun found => ?_
    split
    · exact .guard fun _ => .pure fun i hspan => hspan
    · exact .bind (runs_parameter hg annotated p) fun p' => .test (tries_optSign ",") (ih p')
        (.look (fun _ => rfl) fun _ => .guard fun _ => .pure fun i hspan => hspan)

/-- The nodes of the parameters are spread over the text up to the closing sign. -/
theorem adds_parameters (hg : g.LaysOut) (annotated : Bool) (closing : String) :
    Adds fin (parameters g annotated closing) fun ns => ns := fun _ input =>
  Runs.bind (runs_parametersFrom hg annotated closing input.bound {})
    (fun _ => .pure fun _ hspan => hspan) input

/-- The body of a lambda stands behind its parameters. -/
theorem sets_lambda (hg : g.LaysOut) : Sets fin (lambda g) :=
  .here fun _ => .pass (passes_word "lambda") fun _ => .add (adds_parameters hg _ _) fun _ =>
    .pass (passes_sign ":") fun _ => .lay hg.expression fun _ _ => runs_valueFrom (.refl _)

/-- A conditional expression is read with the branch before the test and lists the test first, so
its parts are those read in another order. -/
theorem sets_expression (hg : g.LaysOut) : Sets fin (expression g) := by
  intro lo
  unfold expression
  refine .look (fun _ => rfl) fun found => ?_
  split
  · exact sets_lambda hg lo
  · refine Lays.here (fun start => .lay (sets_disjunction hg) fun value hvalue =>
      .test (tries_optWord "if") ?_
      (runs_return hvalue (.refl _))) lo
    -- The condition is visited first, though the value stands before it.
    exact .lay (sets_disjunction hg) fun condition _ => .pass (passes_word "else") fun _ =>
      .lay hg.expression fun otherwise _ =>
        runs_valueFrom (List.Perm.swap value.node condition.node _).subperm

/-! ## Atoms -/

/-- A tuple begins with its parenthesis, but one expression keeps its own extent within them. -/
theorem sets_parenthesised (hg : g.LaysOut) : Sets fin (parenthesised g) := by
  refine .here fun start => .pass (passes_sign "(") fun _ =>
    .test (tries_optSign ")") (runs_sequenceFrom (.refl []))
    (.look (fun _ => rfl) fun found => ?_)
  split
  · exact .lay (sets_yieldExpression hg) fun value hvalue => .pass (passes_sign ")") fun _ =>
      runs_return hvalue (.refl _)
  · refine .lay (sets_starNamedExpression hg) fun first hfirst =>
      .look (fun _ => rfl) fun found => ?_
    split
    · exact .guard fun _ => .add (adds_clauses hg) fun parts => .pass (passes_sign ")") fun _ =>
        runs_valueFrom (.refl _)
    · refine .add (adds_afterCommas _ (sets_starNamedExpression hg)) fun r =>
        .pass (passes_sign ")") fun _ => ?_
      split
      · exact runs_sequenceFrom (cons_map_subperm first r.1)
      · exact .guard fun _ => runs_return hfirst (List.sublist_append_left _ _).subperm

theorem sets_bracketed (hg : g.LaysOut) : Sets fin (bracketed g) := by
  refine .here fun start => .pass (passes_sign "[") fun _ =>
    .test (tries_optSign "]") (runs_sequenceFrom (.refl []))
    (.lay (sets_starNamedExpression hg) fun first _ => .look (fun _ => rfl) fun found => ?_)
  split
  · exact .guard fun _ => .add (adds_clauses hg) fun parts => .pass (passes_sign "]") fun _ =>
      runs_valueFrom (.refl _)
  · exact .add (adds_afterCommas _ (sets_starNamedExpression hg)) fun r =>
      .pass (passes_sign "]") fun _ =>
      runs_sequenceFrom (cons_map_subperm first r.1)

/-- A key stands before its value. -/
theorem lays_entry (hg : g.LaysOut) : Lays fin (entry g) (fun r => r.1 ++ [r.2]) fun _ => True :=
  fun _ =>
  .test (tries_optSign "**") (.lay (sets_bitwiseOr hg) fun _ _ => .pure fun _ hspan =>
    ⟨hspan, trivial⟩)
    (.lay hg.expression fun _ _ => .pass (passes_sign ":") fun _ => .lay hg.expression fun _ _ =>
      .pure fun _ hspan => ⟨hspan, trivial⟩)

/-- All keys are visited before all values. -/
theorem runs_dictionaryRest (hg : g.LaysOut) (first : List Node × Node) :
    Runs (Span fin start true (first.1 ++ [first.2])) (dictionaryRest g start first)
      fun a j => Span fin start true [a.node] j ∧ a.node.Snug := by
  unfold dictionaryRest
  refine .add (adds_afterCommas _ (lays_entry hg)) fun r => .pass (passes_sign _) fun _ =>
    runs_valueFrom ?_
  rw [List.map_eq_flatMap]
  exact (List.flatMap_append_perm (first :: r.1) Prod.fst fun e => [e.2]).subperm

/-- The items of a set follow its first. -/
theorem runs_setRest (hg : g.LaysOut) {first : Operand} :
    Runs (Span fin start true [first.node]) (setRest g start first)
      fun a j => Span fin start true [a.node] j ∧ a.node.Snug := by
  unfold setRest
  refine .look (fun _ => rfl) fun found => ?_
  split
  · exact .add (adds_clauses hg) fun parts => .pass (passes_sign _) fun _ =>
      runs_valueFrom (.refl _)
  · exact .add (adds_afterCommas _ (sets_starNamedExpression hg)) fun r =>
      .pass (passes_sign _) fun _ =>
      runs_valueFrom (cons_map_subperm first r.1)

/-- Whatever the braces hold begins with the opening one and ends with the closing one. -/
theorem sets_braced (hg : g.LaysOut) : Sets fin (braced g) := by
  refine .here fun start => .pass (passes_sign _) fun _ =>
    .test (tries_optSign _) (runs_valueFrom (.refl []))
    (.look (fun _ => rfl) fun found => ?_)
  split
  · exact .lay (lays_entry hg) fun first _ => runs_dictionaryRest hg first
  refine .look (fun _ => rfl) fun star => .look (fun _ => rfl) fun assignment => ?_
  split
  · exact .lay (sets_starNamedExpression hg) fun first _ => runs_setRest hg
  refine .lay hg.expression fun first _ =>
    .test (tries_optSign ":") (.lay hg.expression fun value _ =>
    .look (fun _ => rfl) fun found => ?_) (runs_setRest hg)
  split
  · exact .add (adds_clauses hg) fun parts => .pass (passes_sign _) fun _ =>
      runs_valueFrom (.refl _)
  · exact runs_dictionaryRest hg ([first.node], value.node)

end Operators

/-- A construct of one token that is known. -/
theorem runs_single {l : Lexeme} (hlayout : l.isLayout = false) :
    Runs (fun i => Span fin lo false [] i ∧ i.Faces l) (here >>= fun start => next >>= fun _ =>
      otherFrom start [])
      fun n j => Span fin lo true [n] j ∧ n.Snug :=
  .here fun _ => .next hlayout fun _ _ => runs_otherFrom (.refl _)

/-- An atom is snug: it holds all its callees between its first and its last token. -/
theorem sets_atom (hg : g.LaysOut) : Sets fin (atom g) := by
  intro lo
  unfold atom
  refine .peek fun l => ?_
  split
  next cs =>
    split
    · exact (sets_nameOperand lo).weaken fun _ hspan => hspan.1
    · exact .guard fun _ => .here fun _ => .next rfl fun _ _ => runs_valueFrom (.refl _)
  next => exact runs_strings hg.field
  next => exact (sets_number lo).weaken fun _ hspan => hspan.1
  next cs =>
    refine .weaken ?_ fun _ hspan => hspan.1
    split
    · exact sets_parenthesised hg lo
    split
    · exact sets_bracketed hg lo
    split
    · exact sets_braced hg lo
    · exact Lays.here (fun _ => .pass (passes_sign "...") fun _ => runs_valueFrom (.refl _)) lo
  next => exact .failure

/-- One suffix more, if there is one: a call has its arguments behind the name, and a member its
name behind the receiver. -/
theorem runs_suffix (hg : g.LaysOut) {base : Operand} (hbase : base.node.Snug) :
    Runs (Span fin start true [base.node]) (suffix g start base) fun found j =>
      Span fin start true [(found.getD base).node] j ∧ (found.getD base).node.Snug := by
  unfold suffix
  refine .see (fun _ => rfl) fun opened => .testAt (takes_optSign ".") rfl (fun hle hspread => ?_)
    (.testAt (takes_optSign "(") rfl (fun hle hspread => ?_)
      (.testAt (takes_optSign "[") rfl (fun hle hspread => ?_) ?_))
  · have hplaced := hspread.placed base.node List.mem_cons_self
    refine .name fun id hid => .close fun i hspan => ?_
    have hsnug := Node.snug_member hbase hid hplaced.start (hplaced.stop.trans_lt hspan.2)
    exact ⟨(hspan.1.of_le hle).of_snug hsnug le_rfl le_rfl, hsnug⟩
  · have hplaced := hspread.placed base.node List.mem_cons_self
    refine .bind ((runs_arguments hg (by simp)).weaken fun _ hspan => hspan.of_begun) fun inner =>
      .close fun i hspan => ?_
    have hsnug := Node.snug_call hbase hplaced.start hplaced.stop hspan.spread (hspan.last rfl)
    exact ⟨(hspan.of_le hle).of_snug hsnug le_rfl le_rfl, hsnug⟩
  · refine .lay (lays_subscript hg) fun index _ => .pass (passes_sign "]") fun _ => .weaken
      (.bind (runs_otherFrom (.refl _)) fun node => .pure fun i hspan => hspan) fun i hspan =>
      hspan.behind hspread hle
  · exact .pure fun i hspan => ⟨hspan.1, hbase⟩

/-- Each suffix goes on from the snug operand that the suffixes before it have made. -/
theorem runs_suffixes (hg : g.LaysOut) (fuel : Nat) {base : Operand} (hbase : base.node.Snug) :
    Runs (Span fin start true [base.node]) (suffixes g start fuel base) fun a j =>
      Span fin start true [a.node] j ∧ a.node.Snug := by
  induction fuel generalizing base with
  | zero => exact .failure
  | succ fuel ih =>
    unfold suffixes
    refine .bind (runs_suffix hg hbase) fun found => ?_
    cases found with
    | none => exact .pure fun i hspan => hspan
    | some longer => exact .given fun hlonger => ih hlonger

theorem sets_primary (hg : g.LaysOut) : Sets fin (primary g) := fun lo input =>
  Lays.here (fun _ => .lay (sets_atom hg) fun _ hbase =>
    runs_suffixes hg input.bound hbase) lo input

/-! ## Patterns -/

/-- A node that spans all that was read, where it does not matter that it is an expression. -/
theorem runs_nodeFrom {parts : List Node} (h : parts.Subperm nodes) :
    Runs (Span fin lo true nodes) (otherFrom lo parts) fun n j => Span fin lo true [n] j ∧ True :=
  (runs_otherFrom h).imp fun _ _ hspan => ⟨hspan.1, trivial⟩

theorem passes_capture : Passes fin capture := fun _ =>
  .look (fun _ => rfl) fun _ => .guard fun _ => .pass passes_name fun _ =>
    .look (fun _ => rfl) fun _ =>
    .look (fun _ => rfl) fun _ => .look (fun _ => rfl) fun _ => by
      rw [← bind_pure (guard _)]
      exact .guard fun _ => .pure fun _ hspan => ⟨hspan, trivial⟩

/-- Each name of a dotted name stands behind the receiver that was read before it. -/
theorem lays_dottedNode : Lays fin dottedNode (fun n => [n]) fun _ => True := by
  refine .here fun start => .lay sets_nameOperand fun first hfirst => ?_
  -- The members read so far are one node, and the next name comes behind it.
  refine .bind (R := fun more i =>
    Span fin start true [more.foldl (fun base r => .member base r.1 r.2) first.node] i ∧
    (more.foldl (fun base r => Node.member base r.1 r.2) first.node).Snug) ?_ fun more =>
    .pure fun i hspan => ⟨hspan.1, trivial⟩
  refine .weaken (.repeated fun done => .given fun hbase => .test (tries_optSign ".") ?_ ?_)
    fun i hspan => ⟨hspan, hfirst⟩
  · refine .fresh fun mid hle hspread => .name fun id hid => .close fun i hspan => ?_
    have hplaced := hspread.placed _ List.mem_cons_self
    rw [Option.toList_some, List.foldl_append]
    have hsnug := Node.snug_member hbase hid hplaced.start (hplaced.stop.trans_lt hspan.2)
    exact ⟨(hspan.1.of_le hle).of_snug hsnug le_rfl le_rfl, hsnug⟩
  · refine .pure fun i hspan => ?_
    rw [Option.toList_none, List.append_nil]
    exact ⟨hspan, hbase⟩

/-- The sign stands before its number. -/
theorem lays_signedNumber : Lays fin signedNumber Prod.fst fun _ => True := by
  refine .here fun start => .bind (tries_optSign "-" _ _ _) fun negative =>
    .look (fun _ => rfl) fun l => ?_
  split
  · refine .lay sets_number fun value _ => ?_
    extract_lets withNode
    have hwith (node : Node) : Runs (Span fin start true [node]) (withNode node)
        fun r j => Span fin start true r.1 j ∧ True := .pure fun _ hspan => ⟨hspan, trivial⟩
    split
    · exact .bind (runs_otherFrom (.refl _)) fun node => .given fun _ => hwith node
    · exact hwith value.node
  · exact .failure

theorem lays_complexNumber : Lays fin complexNumber (fun n => [n]) fun _ => True := by
  refine .here fun start => .lay lays_signedNumber fun r _ =>
    .test (tries_optSignOf _) ?_ (runs_nodeFrom (.refl _))
  refine .guard fun _ => .look (fun _ => rfl) fun l => ?_
  split
  · exact .guard fun _ => .lay sets_number fun value _ => runs_nodeFrom (.refl _)
  · exact .failure

/-- Only a string can hold callees, those in its replacement fields. -/
theorem lays_literal (hg : g.LaysOut) : Lays fin (literal g) (fun n => [n]) fun _ => True := by
  intro lo
  unfold literal
  refine .peek fun l => ?_
  split
  · exact .bind (runs_strings hg.field) fun value => .pure fun i hspan => ⟨hspan.1, trivial⟩
  · exact (runs_single rfl).imp fun _ _ hspan => ⟨hspan.1, trivial⟩
  · exact (lays_complexNumber lo).weaken fun _ hspan => hspan.1

theorem lays_starPattern (hg : g.LaysOut) :
    Lays fin (starPattern g) (fun r => [r.1]) fun _ => True := by
  refine .here fun start => .test (tries_optSign "*") (.look (fun _ => rfl) fun l => ?_)
    (.lay hg.pattern fun node _ => .pure fun i hspan => ⟨hspan, trivial⟩)
  extract_lets rest
  have hrest : Runs (Span fin start true []) (rest ()) fun r j =>
      Span fin start true [r.1] j ∧ True :=
    .bind (runs_otherFrom (.refl _)) fun node => .pure fun i hspan => ⟨hspan.1, trivial⟩
  split
  · exact .keep keeps_next fun _ => hrest
  · exact .pass passes_capture fun _ => hrest

/-- The nodes of patterns that were read one after the other. -/
theorem map_fst_subperm {α : Type} (items : List (Node × α)) :
    (items.map Prod.fst).Subperm (items.flatMap fun r => [r.1]) := by
  rw [List.map_eq_flatMap]

/-- The patterns of a sequence follow each other between the brackets. -/
theorem lays_sequencePattern (hg : g.LaysOut) (closing : String) (grouping : Bool) :
    Lays fin (sequencePattern g closing grouping) (fun n => [n]) fun _ => True := by
  refine .here fun start =>
    .test (tries_optSign closing) (runs_nodeFrom (.refl _)) (.lay (lays_starPattern hg)
    fun first _ => .add (adds_afterCommas _ (lays_starPattern hg)) fun r =>
    .pass (passes_sign closing) fun _ =>
    .guard fun _ => runs_nodeFrom ?_)
  exact map_fst_subperm (first :: r.1)

/-- The key of an entry stands before the pattern of its value. -/
theorem lays_mappingEntry (hg : g.LaysOut) :
    Lays fin (mappingEntry g) (fun r => r.1 ++ r.2.1) fun _ => True := by
  intro lo
  unfold mappingEntry
  refine .test (tries_optSign "**") (.pass passes_capture fun _ => .pure fun i hspan =>
    ⟨hspan, trivial⟩)
    (.look (fun _ => rfl) fun l => ?_)
  extract_lets withKey
  have hwith (key : Node) : Runs (Span fin lo true [key]) (withKey key)
      fun r j => Span fin lo true (r.1 ++ r.2.1) j ∧ True :=
    .pass (passes_sign ":") fun _ => .lay hg.pattern fun value _ => .pure fun i hspan =>
    ⟨hspan, trivial⟩
  split
  · exact .lay (lays_literal hg) fun key _ => hwith key
  · exact .lay lays_dottedNode fun node _ => .guard fun _ => hwith node

/-- All keys are visited before all values. -/
theorem runs_mappingPattern (hg : g.LaysOut) :
    Runs (Span fin start true []) (mappingPattern g start) fun n j =>
      Span fin start true [n] j ∧ True := by
  unfold mappingPattern
  refine .test (tries_optSign _) (runs_nodeFrom (.refl _))
    (.lay (lays_commaList _ (lays_mappingEntry hg))
    fun entries _ => .pass (passes_sign _) fun _ => .guard fun _ => runs_nodeFrom ?_)
  exact (List.flatMap_append_perm entries Prod.fst fun e => e.2.1).subperm

theorem lays_classArgument (hg : g.LaysOut) :
    Lays fin (classArgument g) (fun r => [r.1]) fun _ => True := by
  intro lo
  unfold classArgument
  refine .look (fun _ => rfl) fun l => .look (fun _ => rfl) fun l' => ?_
  split
  · exact .pass passes_name fun _ => .pass (passes_sign "=") fun _ => .lay hg.pattern fun node _ =>
      .pure fun i hspan => ⟨hspan, trivial⟩
  · exact .lay hg.pattern fun node _ => .pure fun i hspan => ⟨hspan, trivial⟩

/-- The arguments of a class pattern stand behind the class. -/
theorem runs_classPattern (hg : g.LaysOut) {cls : Node} :
    Runs (Span fin start true [cls]) (classPattern g start cls) fun n j =>
      Span fin start true [n] j ∧ True := by
  unfold classPattern
  refine .test (tries_optSign ")") (runs_nodeFrom (.refl _))
    (.lay (lays_commaList _ (lays_classArgument hg))
    fun inner _ => .pass (passes_sign ")") fun _ => .guard fun _ => runs_nodeFrom ?_)
  exact (List.subperm_append_left [cls]).mpr (map_fst_subperm inner)

theorem lays_closedPattern (hg : g.LaysOut) :
    Lays fin (closedPattern g) (fun n => [n]) fun _ => True := by
  refine .here fun start => .look (fun _ => rfl) fun l => ?_
  split
  · exact lays_literal hg start
  refine .test (tries_optSign "(") ?_
    (.test (tries_optSign "[") ?_ (.test (tries_optSign _) (runs_mappingPattern hg)
    (.lay lays_dottedNode fun node _ =>
      .test (tries_optSign "(") (runs_classPattern hg) (.look (fun _ => rfl) fun _ =>
      .guard fun _ => ?_))))
  · exact (lays_sequencePattern hg ")" true start).weaken fun _ hspan => hspan.of_begun
  · exact (lays_sequencePattern hg "]" false start).weaken fun _ hspan => hspan.of_begun
  · split
    · exact .pure fun i hspan => ⟨hspan, trivial⟩
    · exact runs_nodeFrom (List.nil_sublist _).subperm

/-- The alternatives follow each other, and the name that is bound holds no callee. -/
theorem lays_pattern (hg : g.LaysOut) : Lays fin (pattern g) (fun n => [n]) fun _ => True := by
  refine .here fun start => .lay (lays_closedPattern hg) fun first _ =>
    .add (.led (tries_optSign "|") (lays_closedPattern hg)) fun more => ?_
  have hall : (first :: more).Subperm ([first] ++ more.flatMap fun n => [n]) := by
    rw [List.flatMap_singleton']; rfl
  exact .test (tries_optWord "as") (.pass passes_capture fun _ => runs_nodeFrom hall)
    (runs_nodeFrom hall)

theorem lays_openPattern (hg : g.LaysOut) :
    Lays fin (openPattern g) (fun n => [n]) fun _ => True := by
  refine .here fun start => .lay (lays_starPattern hg) fun first _ =>
    .add (adds_afterCommas _ (lays_starPattern hg))
    fun r => .guard fun _ => runs_nodeFrom ?_
  exact map_fst_subperm (first :: r.1)

end Parser

end CallAtlas.Source
