import CallAtlas.Proofs.Layout.Expressions
import CallAtlas.Proofs.Source.Places
import CallAtlas.Source.Parse

/-!
# Modules are laid out

The parsers of statements lay out what they read, as those of expressions do. The parts of a
definition are visited in an order of their own: the decorators and the annotation of the result
come last, though the ones stand before the definition and the other before its body.

The induction is over the nesting of the grammar (`laysOut_grammar`), and `laid_of_parseModule`
draws the conclusion for a whole source: its tree is laid out, with all callees within the source.
-/

namespace CallAtlas.Source

namespace Parser

variable {fin lo start : Place} {begun : Bool} {nodes : List Node} {g : Grammar}

/-! ## Simple statements -/

/-- Items that hold no nodes, each behind a sign or a word. -/
theorem keeps_led {α : Type} {lead : Parser Bool} {item : Parser α} (hlead : Tries fin lead)
    (h : Passes fin item) :
    Keeps fin (repeated (lead >>= fun found => if found = true then item >>= fun a => pure (some a)
      else pure none)) :=
  (Adds.led hlead h).keeps (by simp)

theorem passes_strictCommaList {α : Type} {item : Parser α} (h : Passes fin item) :
    Passes fin (strictCommaList item) :=
  (lays_strictCommaList h).passes (by simp)

theorem passes_commaList {α : Type} (starts : Lexeme → Bool) {item : Parser α}
    (h : Passes fin item) :
    Passes fin (commaList starts item) :=
  (lays_commaList starts h).passes (by simp)

/-- A dotted name in an import is text, not an expression. -/
theorem passes_dottedName : Passes fin dottedName := fun _ =>
  .pass passes_name fun _ => .keep (keeps_led (tries_optSign ".") passes_name) fun _ =>
    .pure fun _ hspan => ⟨hspan, trivial⟩

theorem keeps_optAlias : Keeps fin optAlias := fun _ =>
  .test (tries_optWord "as") (.pass passes_name fun _ => .pure fun _ hspan => hspan)
    (.pure fun _ hspan => hspan)

/-- An import closes its stretch with a node that holds no callees. -/
theorem runs_imports {bindings : List Binding} :
    Runs (Span fin lo true []) (extentFrom lo >>= fun extent => pure (.imports bindings extent))
      fun n j => Span fin lo true [n] j ∧ True :=
  .close fun _ hspan => ⟨{ hspan with spread := .singleton Node.placed_imports }, trivial⟩

theorem lays_importModules : Lays fin importModules (fun n => [n]) fun _ => True := by
  refine .here fun start => .pass (passes_word "import") fun _ =>
    .pass (passes_strictCommaList fun lo => ?_)
    fun bindings => runs_imports
  refine .pass passes_dottedName fun parts => .keep keeps_optAlias fun bound => ?_
  split
  · exact .pure fun _ hspan => ⟨hspan, trivial⟩
  · exact .pure fun _ hspan => ⟨hspan, trivial⟩

theorem lays_importNames : Lays fin importNames (fun n => [n]) fun _ => True := by
  refine .here fun start => .pass (passes_word "from") fun _ => .keep (Adds.keeps (.repeated
    (fun lo => .test (tries_optSignOf _) ?_ ?_) : Adds fin _ fun dots => dots.flatMap fun _ =>
    []) (by simp)) fun dots =>
    .look (fun _ => rfl) fun found => ?_
  · exact .pure fun _ hspan => hspan
  · exact .pure fun _ hspan => hspan
  extract_lets withBindings withSource
  have hbindings (bindings : List Binding) : Runs (Span fin start true []) (withBindings bindings)
      fun n j => Span fin start true [n] j ∧ True := runs_imports
  have hsource (source : List String) : Runs (Span fin start true []) (withSource source)
      fun n j => Span fin start true [n] j ∧ True := by
    refine .guard fun _ => .pass (passes_word "import") fun _ => ?_
    extract_lets binding item
    have hitem : Passes fin item :=
      fun _ => .pass passes_name fun _ => .keep keeps_optAlias fun _ =>
      .pure fun _ hspan => ⟨hspan, trivial⟩
    -- Both signs are looked for before a branch is chosen.
    refine .keep (tries_optSign "*").keeps fun star =>
      .keep (tries_optSign "(").keeps fun opened => ?_
    split
    · exact hbindings [binding "*" none]
    split
    · exact .pass (passes_commaList _ hitem) fun inner => .pass (passes_sign ")") fun _ =>
        hbindings inner
    · exact .pass (passes_strictCommaList hitem) hbindings
  split
  · exact hsource []
  · exact .pass passes_dottedName hsource

/-- A value on the right of an assignment is laid out, a `yield` included. -/
theorem sets_assignedValue (hg : g.LaysOut) : Sets fin (assignedValue g) := by
  intro lo
  unfold assignedValue
  refine .look (fun _ => rfl) fun found => ?_
  split
  · exact sets_yieldExpression hg lo
  · exact sets_starExpressions hg lo

/-- The values of a chain of assignments follow each other. -/
theorem adds_assignedValues (hg : g.LaysOut) :
    Adds fin (assignedValues g) fun values => values.map Operand.node := fun _ =>
  .add (.led (tries_optSign "=") (sets_assignedValue hg)) fun values => .guard fun _ =>
    .pure fun _ hspan =>
    hspan.of_subperm (map_subperm values)

/-- The parts of an assignment follow each other: target, annotation, value. -/
theorem lays_expressionStatement (hg : g.LaysOut) :
    Lays fin (expressionStatement g) (fun n => [n]) fun _ => True := by
  refine .here fun start => .lay (sets_assignedValue hg) fun first _ =>
    .look (fun _ => rfl) fun found => ?_
  split
  · exact .guard fun _ => .add (adds_assignedValues hg) fun _ => runs_nodeFrom (.refl _)
  refine .test (tries_optSign ":") ?_ (.test (tries_optSignOf _) ?_ (runs_nodeFrom (.refl _)))
  · refine .guard fun _ => .lay hg.expression fun note _ =>
      .bind (tries_optSign "=" _ _ _) fun found => ?_
    extract_lets withValue
    have hwith (value : List Node) :
        Runs (Span fin start true ([first.node, note.node] ++ value)) (withValue value)
        fun n j => Span fin start true [n] j ∧ True := runs_nodeFrom (.refl _)
    split
    · exact .lay (sets_assignedValue hg) fun value _ => hwith [value.node]
    · exact hwith []
  · exact .guard fun _ => .lay (sets_assignedValue hg) fun _ _ => runs_nodeFrom (.refl _)

/-- The targets of a `del` statement follow each other. -/
theorem lays_deletion (hg : g.LaysOut) : Lays fin (deletion g) (fun n => [n]) fun _ => True := by
  have hitem :
      Lays fin (g.primary >>= fun item => guard (item.role.erasable = true) >>= fun _ =>
        pure item.node)
      (fun n => [n]) fun _ => True := fun _ =>
    .lay hg.primary fun _ _ => .guard fun _ => .pure fun _ hspan => ⟨hspan, trivial⟩
  refine .here fun start => .pass (passes_word "del") fun _ =>
    .lay (lays_commaList _ hitem) fun items _ => ?_
  exact runs_nodeFrom (by rw [List.flatMap_singleton']; rfl)

/-- The cause stands behind the exception. -/
theorem lays_raising (hg : g.LaysOut) : Lays fin (raising g) (fun n => [n]) fun _ => True := by
  refine .here fun start => .pass (passes_word "raise") fun _ => .look (fun _ => rfl) fun l => ?_
  split
  · exact .lay hg.expression fun _ _ => .test (tries_optWord "from")
      (.lay hg.expression fun _ _ => runs_nodeFrom (.refl _)) (runs_nodeFrom (.refl _))
  · exact runs_nodeFrom (.refl _)

theorem lays_assertion (hg : g.LaysOut) : Lays fin (assertion g) (fun n => [n]) fun _ => True :=
  .here fun _ => .pass (passes_word "assert") fun _ => .lay hg.expression fun _ _ =>
    .test (tries_optSign ",")
    (.lay hg.expression fun _ _ => runs_nodeFrom (.refl _)) (runs_nodeFrom (.refl _))

theorem lays_returning (hg : g.LaysOut) : Lays fin (returning g) (fun n => [n]) fun _ => True := by
  refine .here fun start => .pass (passes_word "return") fun _ => .look (fun _ => rfl) fun l => ?_
  split
  · exact .lay (sets_starExpressions hg) fun _ _ => runs_nodeFrom (.refl _)
  · exact runs_nodeFrom (.refl _)

/-- Names in a scope statement hold no callees. -/
theorem runs_scopeStatement {l : Lexeme} (hlayout : l.isLayout = false) :
    Runs (fun i => Span fin lo false [] i ∧ i.Faces l) scopeStatement fun n j =>
      Span fin lo true [n] j ∧ True :=
  .here fun _ => .next hlayout fun _ _ => .pass (passes_strictCommaList passes_name) fun _ =>
  runs_nodeFrom (.refl _)

/-- Each kind of simple statement is laid out, by the lemma about it. -/
theorem lays_simpleStatement (hg : g.LaysOut) :
    Lays fin (simpleStatement g) (fun n => [n]) fun _ => True := by
  intro lo
  unfold simpleStatement
  refine .peek fun l => ?_
  split
  next cs =>
    split
    · exact (runs_single rfl).imp fun _ _ hspan => ⟨hspan.1, trivial⟩
    split
    · exact runs_scopeStatement rfl
    refine .weaken ?_ fun _ hspan => hspan.1
    split
    · exact lays_returning hg lo
    split
    · exact lays_raising hg lo
    split
    · exact lays_assertion hg lo
    split
    · exact lays_deletion hg lo
    split
    · exact lays_importModules lo
    split
    · exact lays_importNames lo
    · exact lays_expressionStatement hg lo
  next => exact (lays_expressionStatement hg lo).weaken fun _ hspan => hspan.1

/-- Statements on one line follow each other. -/
theorem lays_simpleStatements (hg : g.LaysOut) :
    Lays fin (simpleStatements g) (fun ns => ns) fun _ => True := by
  intro lo
  unfold simpleStatements
  refine .lay (lays_simpleStatement hg) fun first _ =>
    .add (.repeatedNodes fun lo => .look (fun _ => rfl) fun found =>
    .look (fun _ => rfl) fun l => ?_) fun more => .keep (tries_optSign ";").keeps fun _ =>
      .keep (keeps_layout _) fun _ =>
      .pure fun _ hspan => ⟨hspan, trivial⟩
  split
  · exact .keep keeps_next fun _ => .lay (lays_simpleStatement hg) fun _ _ =>
      .pure fun _ hspan => hspan
  · exact .pure fun _ hspan => hspan

/-! ## Compound statements -/

theorem lays_colonBlock (hg : g.LaysOut) : Lays fin (colonBlock g) (fun ns => ns) fun _ => True :=
  fun _ =>
  .pass (passes_sign ":") fun _ => (hg.block _).imp fun _ _ hspan => ⟨hspan, trivial⟩

/-- A block that is left out adds nothing. -/
theorem adds_optBlock (hg : g.LaysOut) (head : String) : Adds fin (optBlock g head) fun ns => ns :=
  fun lo =>
  .test (tries_optWord head) ((lays_colonBlock hg).adds lo) (.pure fun _ hspan => hspan)

/-- The condition stands before its branch, and the branches follow each other. -/
theorem lays_conditional (hg : g.LaysOut) :
    Lays fin (conditional g) (fun n => [n]) fun _ => True := by
  refine .here fun start => .pass (passes_word "if") fun _ =>
    .lay (sets_namedExpression hg) fun test _ =>
    .lay (lays_colonBlock hg) fun body _ =>
      .add (.repeated (fun lo => .test (tries_optWord "elif") ?_ ?_) :
      Adds fin _ fun branches => branches.flatMap id) fun branches =>
      .add (adds_optBlock hg "else") fun otherwise => ?_
  · exact .lay (sets_namedExpression hg) fun test _ => .lay (lays_colonBlock hg) fun body _ =>
      .pure fun _ hspan => by simpa using hspan
  · exact .pure fun _ hspan => hspan
  · exact runs_nodeFrom (by rw [List.flatMap_id]; rfl)

theorem lays_whileLoop (hg : g.LaysOut) : Lays fin (whileLoop g) (fun n => [n]) fun _ => True :=
  .here fun _ => .pass (passes_word "while") fun _ => .lay (sets_namedExpression hg) fun _ _ =>
    .lay (lays_colonBlock hg) fun _ _ => .add (adds_optBlock hg "else") fun _ =>
      runs_nodeFrom (.refl _)

/-- The target of a loop stands before what it runs over, and the body behind both. -/
theorem lays_forLoop (hg : g.LaysOut) : Lays fin (forLoop g) (fun n => [n]) fun _ => True :=
  .here fun _ => .pass (passes_word "for") fun _ => .lay (sets_targets hg) fun _ _ =>
    .pass (passes_word "in") fun _ =>
    .lay (sets_starExpressions hg) fun _ _ => .lay (lays_colonBlock hg) fun _ _ =>
      .add (adds_optBlock hg "else") fun _ =>
    runs_nodeFrom (.refl _)

theorem lays_withItem (hg : g.LaysOut) : Lays fin (withItem g) (fun ns => ns) fun _ => True :=
  fun _ =>
  .lay hg.expression fun _ _ => .test (tries_optWord "as")
    (.lay (sets_target hg) fun _ _ => .pure fun _ hspan => ⟨hspan, trivial⟩) (.pure fun _ hspan =>
      ⟨hspan, trivial⟩)

/-- With parentheses or without, the items of a `with` statement follow each other. -/
theorem lays_withItems (hg : g.LaysOut) : Lays fin (withItems g) (fun ns => ns) fun _ => True := by
  intro lo
  unfold withItems
  refine .bind (R := fun items => Span fin lo true items.flatten) (.orElse ?_ ?_) fun items =>
    .pure fun _ hspan => ⟨hspan, trivial⟩
  · exact .pass (passes_sign "(") fun _ => .lay (lays_commaList _ (lays_withItem hg)) fun items _ =>
      .pass (passes_sign ")") fun _ => .look (fun _ => rfl) fun _ => .guard fun _ =>
        .pure fun _ hspan => by
        rwa [← List.flatMap_id]
  · exact .lay (lays_strictCommaList (lays_withItem hg)) fun items _ =>
      .look (fun _ => rfl) fun _ => .guard fun _ =>
      .pure fun _ hspan => by rwa [← List.flatMap_id]

theorem lays_withStatement (hg : g.LaysOut) :
    Lays fin (withStatement g) (fun n => [n]) fun _ => True :=
  .here fun _ => .pass (passes_word "with") fun _ => .lay (lays_withItems hg) fun _ _ =>
    .lay (lays_colonBlock hg) fun _ _ => runs_nodeFrom (.refl _)

/-- The type of a handler stands before its block. -/
theorem adds_handler (hg : g.LaysOut) :
    Adds fin (handler g) fun found => found.toList.flatMap Prod.fst := by
  intro lo
  unfold handler
  refine .test (tries_optWord "except") (.keep (tries_optSign "*").keeps fun group =>
    .look (fun _ => rfl) fun colon => ?_)
    (.pure fun _ hspan => hspan)
  split
  · exact .lay (lays_colonBlock hg) fun body _ => .pure fun _ hspan => by simpa using hspan
  · exact .lay hg.expression fun error _ => .keep keeps_optAlias fun _ =>
      .lay (lays_colonBlock hg) fun body _ =>
      .pure fun _ hspan => by simpa using hspan

/-- The body, the handlers and the last two blocks follow each other. -/
theorem lays_tryStatement (hg : g.LaysOut) :
    Lays fin (tryStatement g) (fun n => [n]) fun _ => True := by
  refine .here fun start => .pass (passes_word "try") fun _ =>
    .lay (lays_colonBlock hg) fun body _ =>
    .add (.repeated (adds_handler hg)) fun handlers => .guard fun _ => ?_
  extract_lets withElse
  have hwith (otherwise : List Node) :
      Runs (Span fin start true (body ++ handlers.flatMap Prod.fst ++ otherwise))
      (withElse otherwise) fun n j => Span fin start true [n] j ∧ True :=
    .look (fun _ => rfl) fun _ => .guard fun _ => .add (adds_optBlock hg "finally") fun _ =>
    runs_nodeFrom (.refl _)
  split
  · exact (hwith []).weaken fun _ hspan => by rwa [List.append_nil]
  · exact .add (adds_optBlock hg "else") hwith

/-! ## Definitions -/

/-- The end of a definition, from the place `mid` behind its keyword on. -/
theorem runs_definition (hg : g.LaysOut) {mid : Place} {head : Definition}
    {decorators done : List Node}
    {parts : List Node → List Node} (hdecorators : Spread lo mid decorators) (hlo : lo ≤ start)
    (hmid : start < mid) (hparts : ∀ body, (parts body).Subperm (decorators ++ (done ++ body))) :
    Runs (Span fin mid true done) (colonBlock g >>= fun body =>
      extentFrom start >>= fun extent => pure (Node.definition head (parts body) extent))
      fun n j => Span fin lo true [n] j ∧ True := by
  refine .lay (lays_colonBlock hg) fun body _ => .close fun i hspan => ⟨?_, trivial⟩
  have hall := hspan.behind hdecorators (hlo.trans hmid.le)
  have hparts := hall.spread.of_subperm (hparts body)
  have hstart := hmid.trans_le (hspan.last rfl)
  exact { hall with spread := .singleton (Node.placed_definition hparts hlo hstart) }

/-- A function, behind decorators and perhaps behind the word before its keyword. -/
theorem runs_function (hg : g.LaysOut) {kind : DefinitionKind} {decorators : List Node}
    (hlo : lo ≤ start) :
    Runs (fun i => Span fin lo begun decorators i ∧ start ≤ i.front)
      (function g start kind decorators)
      fun n j => Span fin lo true [n] j ∧ True := by
  unfold function
  refine .word (.freshWith fun mid hmid _ hdecorators => .pass passes_name fun id =>
    .pass (passes_sign "(") fun _ =>
    .add (adds_parameters hg _ _) fun inner => .pass (passes_sign ")") fun _ =>
    .bind (tries_optSign "->" _ _ _) fun found => ?_)
  extract_lets head withResult
  have hwith (result : List Node) : Runs (Span fin mid true (inner ++ result)) (withResult result)
      fun n j => Span fin lo true [n] j ∧ True := by
    refine runs_definition hg hdecorators hlo hmid fun body => Multiset.coe_le.mp (le_of_eq ?_)
    simp only [← Multiset.coe_add]
    abel
  split
  · exact .lay hg.expression fun result _ => hwith [result.node]
  · exact (hwith []).weaken fun _ hspan => by rwa [List.append_nil]

/-- A class begins behind its decorators, so only its place is said, not that it is snug. -/
theorem runs_classDefinition (hg : g.LaysOut) {decorators : List Node} :
    Runs (Span fin lo begun decorators) (classDefinition g decorators) fun n j =>
      Span fin lo true [n] j ∧ True := by
  unfold classDefinition
  refine .hereBehind fun start hlo =>
    .word (.freshWith fun mid hmid _ hdecorators => .pass passes_name fun id =>
    .bind (tries_optSign "(" _ _ _) fun found => ?_)
  extract_lets head withBases
  have hwith (bases : List Node) : Runs (Span fin mid true bases) (withBases bases)
      fun n j => Span fin lo true [n] j ∧ True := by
    refine runs_definition hg hdecorators hlo hmid fun body => Multiset.coe_le.mp (le_of_eq ?_)
    simp only [← Multiset.coe_add]
    abel
  split
  · exact .bind ((runs_arguments hg (by simp)).weaken fun _ hspan => hspan.of_begun) hwith
  · exact hwith []

/-- What `async` stands before begins with it, and may have decorators before that. -/
theorem runs_asyncStatement (hg : g.LaysOut) {decorators : List Node} :
    Runs (Span fin lo begun decorators) (asyncStatement g decorators) fun n j =>
      Span fin lo true [n] j ∧ True := by
  unfold asyncStatement
  refine .hereBehind fun start hlo => .word (.look (fun _ => rfl) fun found => ?_)
  split
  · exact (runs_function hg hlo).weaken fun _ hspan =>
      ⟨hspan.1, hspan.2.le.trans hspan.1.ready.last_le_front⟩
  · refine .guard fun hempty => .look (fun _ => rfl) fun found => .weaken ?_ fun _ hspan => hspan.1
    obtain rfl := List.isEmpty_iff.mp hempty
    split
    · exact (lays_forLoop hg lo).weaken fun _ hspan => hspan.of_begun
    · exact (lays_withStatement hg lo).weaken fun _ hspan => hspan.of_begun

/-- The decorators stand before the definition, which lists them behind its body. -/
theorem lays_decorated (hg : g.LaysOut) : Lays fin (decorated g) (fun n => [n]) fun _ => True := by
  intro lo
  unfold decorated
  refine .bind (.repeated (I := Span fin lo false) fun done => .test (tries_optSign "@") ?_ ?_)
    fun decorators =>
    .look (fun _ => rfl) fun found => ?_
  · exact .lay (sets_namedExpression hg) fun value _ => .keep (keeps_layout _) fun _ =>
      .pure fun _ hspan => hspan.of_begun
  · exact .pure fun _ hspan => by rwa [Option.toList_none, List.append_nil]
  split
  · exact runs_classDefinition hg
  refine .look (fun _ => rfl) fun found => ?_
  split
  · exact .look (fun _ => rfl) fun _ => .guard fun _ => runs_asyncStatement hg
  · exact .hereBehind fun start hlo => runs_function hg hlo

/-! ## Statements and blocks -/

/-- The subject of a `match` reaches from its word to the line end. -/
theorem lays_matchHead (hg : g.LaysOut) : Lays fin (matchHead g) (fun n => [n]) fun _ => True := by
  intro lo
  unfold matchHead
  have hitem {fin : Place} : Sets fin (starNamedExpression g) := sets_starNamedExpression hg
  refine .pass (passes_word "match") fun _ =>
    .weaken (Lays.here (fun start => .lay hitem fun first _ =>
    .add (adds_afterCommas _ hitem) fun r => .guard fun _ => .pass (passes_sign ":") fun _ =>
      .keep (keeps_layout _) fun _ =>
    runs_nodeFrom ?_) lo) fun _ hspan => hspan.of_begun
  exact cons_map_subperm first r.1

/-- The pattern of a case stands before its guard, and the block behind both. -/
theorem adds_matchCase (hg : g.LaysOut) :
    Adds fin (matchCase g) fun found => found.toList.flatMap id := by
  intro lo
  unfold matchCase
  refine .test (tries_optWord "case") (.lay (lays_openPattern hg) fun shape _ =>
    .bind (tries_optWord "if" _ _ _) fun found => ?_) (.pure fun _ hspan => hspan)
  extract_lets withCondition
  have hwith (condition : List Node) :
      Runs (Span fin lo true ([shape] ++ condition)) (withCondition condition)
      fun found => Span fin lo true (found.toList.flatMap id) :=
    .lay (lays_colonBlock hg) fun body _ => .pure fun _ hspan => by simpa using hspan
  split
  · exact .lay (sets_namedExpression hg) fun condition _ => hwith [condition.node]
  · exact hwith []

/-- The subject stands before the cases, which follow each other. -/
theorem lays_matchStatement (hg : g.LaysOut) :
    Lays fin (matchStatement g) (fun n => [n]) fun _ => True := by
  refine .here fun start => .lay (lays_matchHead hg) fun subject _ =>
    .keep (keeps_layout _) fun _ =>
    .add (.repeated (adds_matchCase hg)) fun cases => .guard fun _ =>
      .keep (keeps_layout _) fun _ => runs_nodeFrom ?_
  rw [List.flatMap_id]
  rfl

/-- Each kind of statement is laid out, by the lemma about it. -/
theorem lays_statement (hg : g.LaysOut) : Lays fin (statement g) (fun ns => ns) fun _ => True := by
  intro lo
  unfold statement
  have hone {p : Parser Node} (h : Lays fin p (fun n => [n]) fun _ => True) :
      Runs (Span fin lo false []) (p >>= fun n => pure [n]) fun ns j =>
      Span fin lo true ns j ∧ True :=
    .bind (h lo) fun _ => .pure fun _ hspan => hspan
  refine .look (fun _ => rfl) fun l => ?_
  split
  next =>
    split
    · exact hone (lays_decorated hg)
    · exact lays_simpleStatements hg lo
  next =>
    split
    · exact hone (lays_conditional hg)
    split
    · exact hone (lays_whileLoop hg)
    split
    · exact hone (lays_forLoop hg)
    split
    · exact hone (lays_tryStatement hg)
    split
    · exact hone (lays_withStatement hg)
    split
    · exact .hereBehind fun start hlo => .bind (runs_function hg hlo) fun _ =>
        .pure fun _ hspan => hspan
    split
    · exact .bind (runs_classDefinition hg) fun _ => .pure fun _ hspan => hspan
    split
    · exact .bind (runs_asyncStatement hg) fun _ => .pure fun _ hspan => hspan
    split
    · exact .orElse (hone (lays_matchStatement hg)) (lays_simpleStatements hg lo)
    · exact lays_simpleStatements hg lo
  next => exact lays_simpleStatements hg lo

/-- The statements of a body follow each other. -/
theorem adds_statements (hg : g.LaysOut) : Adds fin (statements g) fun ns => ns := by
  intro lo
  unfold statements
  refine .add (.repeated (fun lo => .look (fun _ => rfl) fun l => ?_) : Adds fin _ fun lines =>
    lines.flatMap id)
    fun lines => .pure fun _ hspan => by rwa [← List.flatMap_id]
  split
  · exact .pure fun _ hspan => hspan
  · exact .pure fun _ hspan => hspan
  · exact .lay (lays_statement hg) fun _ _ => .pure fun _ hspan => by simpa using hspan

/-- An indented block, or the rest of the line. -/
theorem adds_block (hg : g.LaysOut) : Adds fin (block g) fun ns => ns := by
  intro lo
  unfold block
  refine .look (fun _ => rfl) fun l => ?_
  split
  · exact .keep (keeps_layout _) fun _ => .keep (keeps_layout _) fun _ =>
      .add (adds_statements hg) fun body =>
      .keep (keeps_layout _) fun _ => .pure fun _ hspan => hspan
  · exact (lays_simpleStatements hg).adds lo

end Parser

/-! ## The grammar -/

theorem laysOut_empty : Grammar.empty.LaysOut where
  expression _ := .failure
  inversion _ := .failure
  factor _ := .failure
  primary _ := .failure
  block _ := .failure
  pattern _ := .failure
  field place text node h := by cases h

/-- The expression of a field is read from tokens of its own. -/
theorem Grammar.LaysOut.level {g : Grammar} (hg : g.LaysOut) : g.level.LaysOut where
  expression := Parser.sets_expression hg
  inversion := Parser.sets_inversion hg
  factor := Parser.sets_factor hg
  primary := Parser.sets_primary hg
  block := Parser.adds_block hg
  pattern := Parser.lays_pattern hg
  field place text node h := by
    obtain ⟨tokens, htokens, h⟩ := Option.bind_eq_some_iff.mp h
    obtain ⟨⟨value, rest⟩, hvalue, h⟩ := Option.bind_eq_some_iff.mp h
    cases h
    have hspaced := (spaced_of_tokensFrom? htokens).map_inField place
    have hready : Input.Ready (('(' :: text ++ [')']).foldl Place.after place)
        { tokens := tokens.map (·.inField place), last := place } :=
      ⟨Place.le_foldl_after _ _, hspaced, Nat.succ_pos _⟩
    obtain ⟨hspan, -⟩ :=
      Parser.sets_starExpressions hg place _ _ _
        ⟨hready, hready.last_le_front, by simp, .nil⟩ hvalue
    exact (hspan.spread.placed _ List.mem_cons_self).mono le_rfl hspan.ready.last_le

/-- **The grammar lays out what it reads**, however deep it is nested. -/
theorem laysOut_grammar (depth : Nat) : (grammar depth).LaysOut := by
  induction depth with
  | zero => exact laysOut_empty
  | succ depth ih => exact ih.level

/-- **The statements of a source are spread over it.** -/
theorem spread_of_statements? {text : List Char} {body : List Node}
    (h : statements? text = some body) :
    Spread .origin (placeAfter text) body := by
  obtain ⟨tokens, htokens, h⟩ := Option.bind_eq_some_iff.mp h
  obtain ⟨⟨body', rest⟩, hbody, h⟩ := Option.bind_eq_some_iff.mp h
  obtain ⟨-, -, h⟩ := Option.bind_eq_some_iff.mp h
  cases h
  have hready : Input.Ready (placeAfter text) { tokens } :=
    ⟨Place.le_foldl_after _ _, spaced_of_tokensFrom? htokens, Nat.succ_pos _⟩
  have hspan :=
    Parser.adds_statements (laysOut_grammar _) _ _ _ _ ⟨hready, hready.last_le_front,
      fun _ => le_rfl, .nil⟩ hbody
  exact hspan.spread.mono le_rfl hspan.ready.last_le

/-- **A module is laid out**, and its callees stand within the text. -/
theorem laid_of_parseModule {text : List Char} {tree : Node} (h : parseModule text = .ok tree) :
    tree.Laid ∧ ∀ c ∈ tree.callees, c.In .origin (placeAfter (Text.unifyLineEnds text)) := by
  unfold parseModule at h
  split at h
  next => cases h
  next =>
    split at h
    next body hbody =>
      cases h
      have hspread := spread_of_statements? hbody
      exact ⟨.intro hspread.apart hspread.laid, by simpa using hspread.callees⟩
    next => cases h

end CallAtlas.Source
