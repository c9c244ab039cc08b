import CallAtlas.Proofs.Source.Expressions
import CallAtlas.Proofs.Source.Tokens
import CallAtlas.Source.Parse

/-!
# Every definition stands at its keyword

A definition in the tree of a source comes from a line that begins with its keyword, and its name is
the word after that: `Begins` says where the definition starts and which token is its name. The
parsers of statements find the definitions in the order of these tokens. `Passed all ds ts` says
that `ds` were found among the tokens `all` before the end `ts`, and `AtLine` that a line begins
there besides; the induction is over the nesting of the grammar, with `Grammar.Tracks` for the
blocks.

`exists_passed_of_statements?` draws the conclusion for a whole source.
-/

namespace CallAtlas.Source

/-! ## Simple statements -/

namespace Parser

variable {g : Grammar}

theorem reads_dottedName : Reads dottedName fun _ => True := by
  unfold dottedName
  exact .skip reads_name fun _ => .skip (reads_led (reads_optSign ".") reads_name) fun _ =>
    .pure trivial

theorem reads_optAlias : Reads optAlias fun _ => True := by
  unfold optAlias
  refine .skip (reads_optWord "as") fun found => ?_
  split
  · exact .skip reads_name fun _ => .pure trivial
  · exact .pure trivial

/-- Imports bind names and leave no expressions in the tree. -/
theorem reads_importModules : Reads importModules Node.Bare := by
  unfold importModules
  refine .skip reads_here fun start => .skip (reads_word "import") fun _ =>
    .skip (reads_strictCommaList (Q := fun _ => True) ?_) fun bindings =>
      .skip (reads_extentFrom start) fun extent =>
    .pure (Node.bare_imports bindings extent)
  refine .skip reads_dottedName fun parts => .skip reads_optAlias fun bound => ?_
  split
  · exact .pure trivial
  · exact .pure trivial

/-- As `reads_importModules`, with the dots of a relative module before its name. -/
theorem reads_importNames : Reads importNames Node.Bare := by
  unfold importNames
  refine .skip reads_here fun start => .skip (reads_word "from") fun _ =>
    .skip (.repeated (Q := fun _ => True) ?_) fun dots =>
      .skip (reads_isWord "import") fun found => ?_
  · refine .skip (reads_optSignOf _) fun found => ?_
    split
    · exact .pure (by simp)
    · exact .pure (by simp)
  extract_lets withBindings withSource
  have hbindings : ∀ bindings, Reads (withBindings bindings) Node.Bare :=
    fun bindings => .skip (reads_extentFrom start) fun extent =>
      .pure (Node.bare_imports bindings extent)
  have hsource : ∀ source, Reads (withSource source) Node.Bare := by
    intro source
    refine .skip (reads_guard _) fun _ => .skip (reads_word "import") fun _ => ?_
    extract_lets binding item
    have hitem : Reads item fun _ => True :=
      .skip reads_name fun _ => .skip reads_optAlias fun _ => .pure trivial
    -- Both signs are looked for before a branch is chosen.
    refine .skip (reads_optSign "*") fun star => .skip (reads_optSign "(") fun opened => ?_
    split
    · exact hbindings [binding "*" none]
    split
    · exact .skip (reads_commaList _ hitem) fun inner => .skip (reads_sign ")") fun _ =>
        hbindings inner
    · exact .skip (reads_strictCommaList hitem) hbindings
  split
  · exact hsource []
  · exact .skip reads_dottedName hsource

/-- On the right of an assignment a `yield` may stand without parentheses. -/
theorem reads_assignedValue (hg : g.Plain) : Reads (assignedValue g) Operand.Bare := by
  unfold assignedValue
  refine .skip (reads_isWord "yield") fun found => ?_
  split
  · exact reads_yieldExpression hg
  · exact reads_starExpressions hg

/-- All values of a chain of assignments, of which all but the last are targets too. -/
theorem reads_assignedValues (hg : g.Plain) :
    Reads (assignedValues g) fun values => ∀ v ∈ values, v.Bare :=
  .bind (reads_led (reads_optSign "=") (reads_assignedValue hg)) fun _ hvalues =>
    .skip (reads_guard _) fun _ =>
    .pure hvalues

/-- An assignment has its targets and values as parts, with an annotation in between if there is
one. -/
theorem reads_expressionStatement (hg : g.Plain) : Reads (expressionStatement g) Node.Bare := by
  unfold expressionStatement
  refine .skip reads_here fun start => .bind (reads_assignedValue hg) fun first hfirst =>
    .skip (reads_isSign "=") fun found => ?_
  split
  · exact .skip (reads_guard _) fun _ => .bind (reads_assignedValues hg) fun values hvalues =>
      reads_otherFrom start (by simpa using ⟨hfirst, hvalues⟩)
  refine .skip (reads_optSign ":") fun found => ?_
  split
  · refine .skip (reads_guard _) fun _ => hg.expression.bind fun note hnote =>
      .skip (reads_optSign "=") fun found => ?_
    extract_lets withValue
    have hwith : ∀ value : List Node, (∀ n ∈ value, n.Bare) → Reads (withValue value) Node.Bare :=
      fun value hvalue => reads_otherFrom start (by simpa using ⟨hfirst, hnote, hvalue⟩)
    split
    · exact .bind (reads_assignedValue hg) fun value hvalue =>
        hwith _ (List.forall_mem_singleton.mpr hvalue)
    · exact hwith [] (by simp)
  refine .skip (reads_optSignOf _) fun found => ?_
  split
  · exact .skip (reads_guard _) fun _ => .bind (reads_assignedValue hg) fun value hvalue =>
      reads_otherFrom start (by simp [hfirst, hvalue])
  · exact reads_otherFrom start (List.forall_mem_singleton.mpr hfirst)

/-- What a `del` statement names is read as targets. -/
theorem reads_deletion (hg : g.Plain) : Reads (deletion g) Node.Bare := by
  unfold deletion
  refine .skip reads_here fun start => .skip (reads_word "del") fun _ =>
    .bind (reads_commaList _ (Q := Node.Bare) ?_) fun items hitems => reads_otherFrom start hitems
  exact hg.primary.bind fun item hitem => .skip (reads_guard _) fun _ => .pure hitem

/-- The cause behind `from` is a part as well as the exception. -/
theorem reads_raising (hg : g.Plain) : Reads (raising g) Node.Bare := by
  unfold raising
  refine .skip reads_here fun start => .skip (reads_word "raise") fun _ =>
    .skip reads_peek fun l => ?_
  split
  · refine hg.expression.bind fun error herror => .skip (reads_optWord "from") fun found => ?_
    split
    · exact hg.expression.bind fun cause hcause => reads_otherFrom start (by simp [herror, hcause])
    · exact reads_otherFrom start (List.forall_mem_singleton.mpr herror)
  · exact reads_otherFrom start (by simp)

theorem reads_assertion (hg : g.Plain) : Reads (assertion g) Node.Bare := by
  unfold assertion
  refine .skip reads_here fun start => .skip (reads_word "assert") fun _ =>
    hg.expression.bind fun test htest =>
    .skip (reads_optSign ",") fun found => ?_
  split
  · exact hg.expression.bind fun message hmessage =>
      reads_otherFrom start (by simp [htest, hmessage])
  · exact reads_otherFrom start (List.forall_mem_singleton.mpr htest)

/-- A `return` without a value is a node without parts. -/
theorem reads_returning (hg : g.Plain) : Reads (returning g) Node.Bare := by
  unfold returning
  refine .skip reads_here fun start => .skip (reads_word "return") fun _ =>
    .skip reads_peek fun l => ?_
  split
  · exact .bind (reads_starExpressions hg) fun value hvalue =>
      reads_otherFrom start (List.forall_mem_singleton.mpr hvalue)
  · exact reads_otherFrom start (by simp)

/-- Names in a scope statement leave no nodes. -/
theorem reads_scopeStatement : Reads scopeStatement Node.Bare :=
  .skip reads_here fun start => .skip reads_next fun _ =>
    .skip (reads_strictCommaList reads_name) fun _ =>
    reads_otherFrom start (by simp)

theorem reads_wordStatement : Reads wordStatement Node.Bare :=
  .skip reads_here fun start => .skip reads_next fun _ => reads_otherFrom start (by simp)

/-- The first word decides which statement is read; without a known one it is an expression. -/
theorem reads_simpleStatement (hg : g.Plain) : Reads (simpleStatement g) Node.Bare := by
  unfold simpleStatement
  refine .skip reads_peek fun l => ?_
  split
  · split
    · exact reads_wordStatement
    split
    · exact reads_scopeStatement
    split
    · exact reads_returning hg
    split
    · exact reads_raising hg
    split
    · exact reads_assertion hg
    split
    · exact reads_deletion hg
    split
    · exact reads_importModules
    split
    · exact reads_importNames
    · exact reads_expressionStatement hg
  · exact reads_expressionStatement hg

end Parser

/-! ## The definitions passed -/

/-- A definition begins a line, with its keyword or with the word `async` before that; the first of
the tokens is its name. -/
inductive Begins (all : List Token) : Mark → List Token → Prop where
  | line {k t : Token} {ts : List Token} {kind : DefinitionKind} {w : List Char}
      (hopens : State.Opens all (k :: t :: ts)) (hkeyword : k.lexeme = .word kind.keyword.toList)
      (hname : t.lexeme = .word w) :
      Begins all ⟨kind, String.ofList (Text.Identifier.plainForm w), k.extent.start⟩ (t :: ts)
  | async {a k t : Token} {ts : List Token} {w : List Char}
      (hopens : State.Opens all (a :: k :: t :: ts))
      (hasync : a.lexeme = .word "async".toList) (hkeyword : k.lexeme = .word "def".toList)
      (hname : t.lexeme = .word w) :
      Begins all ⟨.asyncFunction, String.ofList (Text.Identifier.plainForm w),
        a.extent.start⟩ (t :: ts)

/-- The definitions found among the tokens `all` before the end `ts`, in the order of their
names. -/
inductive Passed (all : List Token) : List Mark → List Token → Prop where
  | start {ts : List Token} (h : ts <:+ all) : Passed all [] ts
  | mark {ds : List Mark} {d : Mark} {t : Token} {rest ts : List Token}
      (h : Passed all ds (t :: rest))
      (hd : Begins all d (t :: rest)) (hts : ts <:+ rest) : Passed all (ds ++ [d]) ts

/-- As `Passed`, where a line begins. -/
structure AtLine (all : List Token) (ds : List Mark) (ts : List Token) : Prop where
  passed : Passed all ds ts
  opens : State.Opens all ts

section Passed

variable {all ts rest : List Token} {ds : List Mark} {P : List Token → Prop} {lexeme : Lexeme}

/-- Definitions that were passed at some tokens were passed at every end of them. -/
theorem Passed.of_suffix (h : Passed all ds ts) (hrest : rest <:+ ts) : Passed all ds rest := by
  cases h with
  | start h => exact .start (hrest.trans h)
  | mark h hd hts => exact .mark h hd (hrest.trans hts)

/-- The tokens that are left are an end of all tokens. -/
theorem Passed.suffix (h : Passed all ds ts) : ts <:+ all := by
  induction h with
  | start h => exact h
  | mark h hd hts ih => exact (hts.trans (List.suffix_cons _ _)).trans ih

/-- A token that is taken is passed. -/
theorem Passed.of_taken (h : Parser.Taken (Passed all ds) lexeme ts) : Passed all ds ts := by
  obtain ⟨t, -, h⟩ := h
  exact h.of_suffix (List.suffix_cons t ts)

/-- After a token without characters a line begins. -/
theorem AtLine.of_taken (h : Parser.Taken (Passed all ds) lexeme ts)
    (hlayout : lexeme.isLayout = true) :
    AtLine all ds ts := by
  obtain ⟨t, rfl, h⟩ := h
  exact ⟨h.of_suffix (List.suffix_cons t ts), .inr ⟨t, hlayout, h.suffix⟩⟩

/-- Once a token of a line is taken the line has begun. -/
theorem AtLine.passed_of_taken (h : Parser.Taken (AtLine all ds) lexeme ts) : Passed all ds ts :=
  .of_taken (h.imp fun _ => AtLine.passed)

/-- A definition whose keyword begins a line. -/
theorem AtLine.passed_name {k t : Token} {ts : List Token} {w : List Char}
    (h : AtLine all ds (k :: t :: ts))
    (kind : DefinitionKind) (hk : k.lexeme = .word kind.keyword.toList) (ht : t.lexeme = .word w) :
    Passed all (ds ++ [⟨kind, String.ofList (Text.Identifier.plainForm w), k.extent.start⟩]) ts :=
  .mark (h.passed.of_suffix (List.suffix_cons k _)) (.line h.opens hk ht) List.suffix_rfl

end Passed

/-- The blocks that a grammar reads give their definitions in order, and end where a line begins. -/
structure Grammar.Tracks (g : Grammar) (all : List Token) : Prop extends g.Plain where
  block : ∀ ds, Parser.Holds (Passed all ds) g.block fun body =>
    AtLine all (ds ++ body.flatMap Node.marks)

namespace Parser

variable {g : Grammar} {all : List Token} {ds : List Mark} {α β : Type}

/-- A parser without definitions, in the middle of a line. -/
theorem Holds.across {p : Parser α} {f : α → Parser β} {Q : α → Prop} {S : β → List Token → Prop}
    (hp : Reads p Q)
    (hf : ∀ a, Q a → Holds (Passed all ds) (f a) S) : Holds (Passed all ds) (p >>= f) S :=
  .after hp (fun _ _ h hsuffix => h.of_suffix hsuffix) hf

/-- After a token without characters a line begins. -/
theorem Holds.newLine {lexeme : Lexeme} {k : Unit → Parser β} {S : β → List Token → Prop}
    (hf : Holds (AtLine all ds) (k ()) S) (hlayout : lexeme.isLayout = true) :
    Holds (Passed all ds) (Parser.layout lexeme >>= k) S :=
  .layout (hf.weaken fun _ hts => .of_taken hts hlayout)

/-- The last line of a statement: its parts hold what was found. -/
theorem holds_otherFrom (start : Place) {parts : List Node} {ds' : List Mark}
    (h : ds' = ds ++ parts.flatMap Node.marks) :
    Holds (AtLine all ds') (otherFrom start parts) fun node => AtLine all (ds ++ node.marks) := by
  subst h
  exact .look (fun _ => rfl) fun extent => .pure fun ts hts => by rwa [Node.marks_other]

/-- Statements on one line hold no definitions, and behind the line end another line begins. -/
theorem holds_simpleStatements (hg : g.Plain) (ds : List Mark) :
    Holds (Passed all ds) (simpleStatements g) fun body =>
      AtLine all (ds ++ body.flatMap Node.marks) := by
  unfold simpleStatements
  refine .across (reads_simpleStatement hg) fun first hfirst =>
    .across (.repeated (Q := Node.Bare) ?_)
    fun more hmore => .across (reads_optSign ";") fun _ _ => .newLine (.pure fun ts hts => ?_) rfl
  · refine .skip (reads_isSign ";") fun found => .skip reads_peekSecond fun l => ?_
    split
    · exact .skip reads_next fun _ => .bind (reads_simpleStatement hg) fun n hn =>
        .pure (by simpa using hn)
    · exact .pure (by simp)
  · rw [Node.flatMap_marks_of_bare (List.forall_mem_cons.mpr ⟨hfirst, hmore⟩), List.append_nil]
    exact hts

/-- A colon holds nothing, so a block behind it tells what the block tells. -/
theorem holds_colonBlock (hg : g.Tracks all) (ds : List Mark) :
    Holds (Passed all ds) (colonBlock g) fun body => AtLine all (ds ++ body.flatMap Node.marks) :=
  .across (reads_sign ":") fun _ _ => hg.block ds

/-- Without the word nothing is read and no definitions are added. -/
theorem holds_optBlock (hg : g.Tracks all) (head : String) (ds : List Mark) :
    Holds (AtLine all ds) (optBlock g head) fun body =>
      AtLine all (ds ++ body.flatMap Node.marks) := by
  refine .ifTaken (takes_optWord head) ?_ (.pure fun ts hts => by simpa using hts)
  exact (holds_colonBlock hg ds).weaken fun ts hts => AtLine.passed_of_taken hts

/-- Items that begin where a line begins and end so. -/
theorem holds_lines {item : Parser (Option α)} {m : α → List Mark}
    (h : ∀ ds, Holds (AtLine all ds) item fun found => AtLine all (ds ++ found.toList.flatMap m))
    (ds : List Mark) :
    Holds (AtLine all ds) (repeated item) fun items => AtLine all (ds ++ items.flatMap m) := by
  refine (Holds.repeated (I := fun items => AtLine all (ds ++ items.flatMap m)) fun done =>
    ?_).weaken
    fun ts hts => by simpa using hts
  simpa using h (ds ++ done.flatMap m)

/-- An item with a word before it. -/
theorem holds_led {text : String} {found : Parser (Option α)} {m : α → List Mark}
    (h : Holds (Passed all ds) found fun a => AtLine all (ds ++ a.toList.flatMap m)) :
    Holds (AtLine all ds) (optWord text >>= fun c => if c = true then found else pure none)
      fun a => AtLine all (ds ++ a.toList.flatMap m) :=
  .ifTaken (takes_optWord text) (h.weaken fun _ hts => AtLine.passed_of_taken hts)
    (.pure fun _ hts => by simpa using hts)

/-- The definitions of a conditional are those of its branches, in the order of the text. -/
theorem holds_conditional (hg : g.Tracks all) (ds : List Mark) :
    Holds (Passed all ds) (conditional g) fun node => AtLine all (ds ++ node.marks) := by
  unfold conditional
  have hbranch :
      ∀ ds, Holds (Passed all ds) (namedExpression g >>= fun test => colonBlock g >>= fun body =>
      pure (some (test.node :: body))) fun found =>
        AtLine all (ds ++ found.toList.flatMap (·.flatMap Node.marks)) :=
    fun ds => .across (reads_namedExpression hg.toPlain) fun test htest =>
    .bind (holds_colonBlock hg ds) fun body =>
      .pure fun ts hts => by simpa [htest.marks_eq] using hts
  refine .look (fun _ => rfl) fun start => .across (reads_word "if") fun _ _ =>
    .across (reads_namedExpression hg.toPlain) fun test htest =>
      .bind (holds_colonBlock hg ds) fun body =>
    .bind (holds_lines (fun ds => holds_led (hbranch ds)) _) fun branches =>
    .bind (holds_optBlock hg "else" _)
    fun otherwise => holds_otherFrom start ?_
  simp [htest.marks_eq, Node.flatMap_marks_flatten]

/-- The condition is bare, so the definitions are those of the body and then of the `else` branch.
-/
theorem holds_whileLoop (hg : g.Tracks all) (ds : List Mark) :
    Holds (Passed all ds) (whileLoop g) fun node => AtLine all (ds ++ node.marks) := by
  unfold whileLoop
  refine .look (fun _ => rfl) fun start => .across (reads_word "while") fun _ _ =>
    .across (reads_namedExpression hg.toPlain) fun test htest =>
      .bind (holds_colonBlock hg ds) fun body =>
    .bind (holds_optBlock hg "else" _) fun otherwise => holds_otherFrom start ?_
  simp [htest.marks_eq]

/-- The target and what the loop runs over are bare. -/
theorem holds_forLoop (hg : g.Tracks all) (ds : List Mark) :
    Holds (Passed all ds) (forLoop g) fun node => AtLine all (ds ++ node.marks) := by
  unfold forLoop
  refine .look (fun _ => rfl) fun start => .across (reads_word "for") fun _ _ =>
    .across (reads_targets hg.toPlain) fun bound hbound => .across (reads_word "in") fun _ _ =>
    .across (reads_starExpressions hg.toPlain) fun source hsource =>
    .bind (holds_colonBlock hg ds) fun body =>
    .bind (holds_optBlock hg "else" _) fun otherwise => holds_otherFrom start ?_
  simp [hbound.marks_eq, hsource.marks_eq]

theorem reads_withItem (hg : g.Plain) : Reads (withItem g) fun nodes => ∀ n ∈ nodes, n.Bare := by
  unfold withItem
  refine hg.expression.bind fun value hvalue => .skip (reads_optWord "as") fun found => ?_
  split
  · exact .bind (reads_target hg) fun bound hbound => .pure (by simp [hvalue, hbound])
  · exact .pure (List.forall_mem_singleton.mpr hvalue)

/-- The items are first tried in parentheses; both ways of reading them give bare nodes. -/
theorem reads_withItems (hg : g.Plain) : Reads (withItems g) fun nodes => ∀ n ∈ nodes, n.Bare := by
  unfold withItems
  refine .bind (P := fun items => ∀ nodes ∈ items, ∀ n ∈ nodes, n.Bare) (.orElse ?_ ?_)
    fun items hitems =>
    .pure fun n hn => ?_
  · exact .skip (reads_sign "(") fun _ =>
      .bind (reads_commaList _ (reads_withItem hg)) fun items hitems =>
      .skip (reads_sign ")") fun _ => .skip (reads_isSign ":") fun _ =>
        .skip (reads_guard _) fun _ => .pure hitems
  · exact .bind (reads_strictCommaList (reads_withItem hg)) fun items hitems =>
      .skip (reads_isSign ":") fun _ =>
      .skip (reads_guard _) fun _ => .pure hitems
  · obtain ⟨nodes, hnodes, hmem⟩ := List.mem_flatten.mp hn
    exact hitems nodes hnodes n hmem

theorem holds_withStatement (hg : g.Tracks all) (ds : List Mark) :
    Holds (Passed all ds) (withStatement g) fun node => AtLine all (ds ++ node.marks) := by
  unfold withStatement
  refine .look (fun _ => rfl) fun start => .across (reads_word "with") fun _ _ =>
    .across (reads_withItems hg.toPlain) fun items hitems =>
      .bind (holds_colonBlock hg ds) fun body =>
    holds_otherFrom start ?_
  simp [Node.flatMap_marks_of_bare hitems]

/-- A handler adds the definitions of its block; where there is no handler nothing is added. -/
theorem holds_handler (hg : g.Tracks all) (ds : List Mark) :
    Holds (AtLine all ds) (handler g) fun found =>
      AtLine all (ds ++ found.toList.flatMap (·.1.flatMap Node.marks)) := by
  unfold handler
  refine holds_led (.across (reads_optSign "*") fun group _ => .look (fun _ => rfl) fun colon => ?_)
  split
  · exact .bind (holds_colonBlock hg ds) fun body => .pure fun ts hts => by simpa using hts
  · exact .across hg.expression fun error herror => .across reads_optAlias fun _ _ =>
      .bind (holds_colonBlock hg ds) fun body => .pure fun ts hts => by
        simpa [herror.marks_eq] using hts

/-- The body, the handlers, `else` and `finally` follow each other in the text and in the tree. -/
theorem holds_tryStatement (hg : g.Tracks all) (ds : List Mark) :
    Holds (Passed all ds) (tryStatement g) fun node => AtLine all (ds ++ node.marks) := by
  unfold tryStatement
  refine .look (fun _ => rfl) fun start => .across (reads_word "try") fun _ _ =>
    .bind (holds_colonBlock hg ds)
    fun body => .bind (holds_lines (holds_handler hg) _) fun handlers => .guard fun _ => ?_
  extract_lets withElse
  have hwith : ∀ otherwise : List Node, Holds (AtLine all (ds ++ body.flatMap Node.marks ++
      handlers.flatMap (·.1.flatMap Node.marks) ++ otherwise.flatMap Node.marks))
        (withElse otherwise)
      fun node => AtLine all (ds ++ node.marks) := by
    intro otherwise
    refine .look (fun _ => rfl) fun hasFinal => .guard fun _ =>
      .bind (holds_optBlock hg "finally" _) fun final =>
      holds_otherFrom start ?_
    simp [List.flatMap_assoc]
  split
  · exact (hwith []).weaken fun ts hts => by simpa using hts
  · exact .bind (holds_optBlock hg "else" _) hwith

/-! ## Definitions -/

/-- The end of a definition: what was found after the definition itself is in its body. -/
theorem holds_definition (hg : g.Tracks all) {start : Place} {head : Definition}
    {parts : List Node → List Node}
    (hparts : ∀ body, (parts body).flatMap Node.marks = body.flatMap Node.marks) :
    Holds (Passed all (ds ++ [⟨head.kind, head.name, start⟩])) (colonBlock g >>= fun body =>
      extentFrom start >>= fun extent => pure (Node.definition head (parts body) extent))
      fun node => AtLine all (ds ++ node.marks) := by
  refine .bind (holds_colonBlock hg _) fun body => .extentFrom fun stop => .pure fun ts hts => ?_
  rw [Node.marks_definition, hparts]
  simpa using hts

/-- A function, where the words before its parameters make it begin at `start`. -/
theorem holds_function (hg : g.Tracks all) {P : List Token → Prop} {start : Place}
    {kind : DefinitionKind} {decorators : List Node} (hdecorators : ∀ n ∈ decorators, n.Bare)
    (hP : ∀ k t ts w, P (k :: t :: ts) → k.lexeme = .word "def".toList → t.lexeme = .word w →
      Passed all (ds ++ [⟨kind, String.ofList (Text.Identifier.plainForm w), start⟩]) ts) :
    Holds P (function g start kind decorators) fun node => AtLine all (ds ++ node.marks) := by
  unfold function
  refine .word (.name fun w => ?_)
  -- With its name read the definition counts as found; parameters and result hold no other.
  refine Holds.weaken
    (T := Passed all (ds ++ [⟨kind, String.ofList (Text.Identifier.plainForm w), start⟩])) ?_ ?_
  · refine .across (reads_sign "(") fun _ _ =>
      .across (reads_parameters hg.toPlain _ _) fun inner hinner =>
      .across (reads_sign ")") fun _ _ => .across (reads_optSign "->") fun found _ => ?_
    extract_lets head withResult
    have hwith : ∀ result : List Node, (∀ n ∈ result, n.Bare) →
        Holds (Passed all (ds ++ [⟨head.kind, head.name, start⟩])) (withResult result)
          fun node => AtLine all (ds ++ node.marks) := by
      intro result hresult
      refine holds_definition hg fun body => ?_
      simp [Node.flatMap_marks_of_bare hinner, Node.flatMap_marks_of_bare hdecorators,
        Node.flatMap_marks_of_bare hresult]
    split
    · exact .across hg.expression fun result hresult =>
        hwith _ (List.forall_mem_singleton.mpr hresult)
    · exact hwith [] (List.forall_mem_nil _)
  · rintro ts ⟨t, ht, k, hk, hp⟩
    exact hP k t ts w hp hk ht

/-- A class is marked at its own start, behind its decorators, and before all that its body
defines. -/
theorem holds_classDefinition (hg : g.Tracks all) {decorators : List Node}
    (hdecorators : ∀ n ∈ decorators, n.Bare) (ds : List Mark) :
    Holds (AtLine all ds) (classDefinition g decorators) fun node =>
      AtLine all (ds ++ node.marks) := by
  unfold classDefinition
  refine .here fun start => .word (.name fun w => ?_)
  refine Holds.weaken
    (T := Passed all (ds ++ [⟨.classLike, String.ofList (Text.Identifier.plainForm w), start⟩])) ?_
      ?_
  · refine .across (reads_optSign "(") fun found _ => ?_
    extract_lets head withBases
    have hwith : ∀ bases : List Node, (∀ n ∈ bases, n.Bare) →
        Holds (Passed all (ds ++ [⟨head.kind, head.name, start⟩])) (withBases bases)
          fun node => AtLine all (ds ++ node.marks) := by
      intro bases hbases
      refine holds_definition hg fun body => ?_
      simp [Node.flatMap_marks_of_bare hbases, Node.flatMap_marks_of_bare hdecorators]
    split
    · exact .across (reads_arguments hg.toPlain none) hwith
    · exact hwith [] (List.forall_mem_nil _)
  · rintro ts ⟨t, ht, k, hk, hline, hstart⟩
    obtain rfl := hstart k rfl
    exact hline.passed_name .classLike hk ht

/-- `async` stands before a function, a loop or a `with` statement; a function starts with it. -/
theorem holds_asyncStatement (hg : g.Tracks all) {decorators : List Node}
    (hdecorators : ∀ n ∈ decorators, n.Bare) (ds : List Mark) :
    Holds (AtLine all ds) (asyncStatement g decorators) fun node =>
      AtLine all (ds ++ node.marks) := by
  unfold asyncStatement
  refine .here fun start => .word (.look (fun _ => rfl) fun found => ?_)
  split
  · refine holds_function hg hdecorators fun k t ts w hp hk ht => ?_
    obtain ⟨a, ha, hline, hstart⟩ := hp
    obtain rfl := hstart a rfl
    exact .mark (hline.passed.of_suffix ((List.suffix_cons k _).trans (List.suffix_cons a _)))
      (.async hline.opens ha hk ht) List.suffix_rfl
  -- Any other statement behind `async` is read as if a line did not begin here.
  refine Holds.weaken (T := Passed all ds) (.guard fun _ => .look (fun _ => rfl) fun found => ?_) ?_
  · split
    · exact holds_forLoop hg ds
    · exact holds_withStatement hg ds
  · rintro ts ⟨a, ha, hline, -⟩
    exact hline.passed.of_suffix (List.suffix_cons a ts)

/-- A function without `async`, where a line begins. -/
theorem holds_plainFunction (hg : g.Tracks all) {decorators : List Node}
    (hdecorators : ∀ n ∈ decorators, n.Bare) (start : Place) (ds : List Mark) :
    Holds (fun ts => AtLine all ds ts ∧ ∀ t ∈ ts.head?, t.extent.start = start)
      (function g start .function decorators) fun node => AtLine all (ds ++ node.marks) := by
  refine holds_function hg hdecorators fun k t ts w hp hk ht => ?_
  obtain rfl := hp.2 k rfl
  exact hp.1.passed_name .function hk ht

/-- Decorators are bare and stand before the definition, so the first mark is that of the
definition. -/
theorem holds_decorated (hg : g.Tracks all) (ds : List Mark) :
    Holds (AtLine all ds) (decorated g) fun node => AtLine all (ds ++ node.marks) := by
  unfold decorated
  have hnone : ∀ ts, AtLine all ds ts → AtLine all ds ts ∧ ∀ n ∈ ([] : List Node), n.Bare :=
    fun ts hts => ⟨hts, List.forall_mem_nil _⟩
  refine .bind
    ((Holds.repeated (I := fun done ts => AtLine all ds ts ∧ ∀ n ∈ done, n.Bare) ?_).weaken hnone)
    fun decorators => .given fun hdecorators => ?_
  · refine fun done => .given fun hdone => .ifTaken (takes_optSign "@") ?_ (.pure fun ts hts => ?_)
    · refine Holds.weaken (T := Passed all ds) ?_ fun ts hts => AtLine.passed_of_taken hts
      refine .across (reads_namedExpression hg.toPlain) fun value hvalue =>
        .newLine (.pure fun ts hts => ?_) rfl
      exact ⟨hts, List.forall_mem_append.mpr ⟨hdone, List.forall_mem_singleton.mpr hvalue⟩⟩
    · exact ⟨hts, by simpa using hdone⟩
  refine .look (fun _ => rfl) fun found => ?_
  split
  · exact holds_classDefinition hg hdecorators ds
  refine .look (fun _ => rfl) fun found => ?_
  split
  · exact .look (fun _ => rfl) fun second => .guard fun _ => holds_asyncStatement hg hdecorators ds
  · exact .here fun start => holds_plainFunction hg hdecorators start ds

/-! ## Statements and blocks -/

/-- The subject of a `match` is bare. -/
theorem holds_matchHead (hg : g.Tracks all) (ds : List Mark) :
    Holds (Passed all ds) (matchHead g) fun node ts => AtLine all ds ts ∧ node.Bare := by
  unfold matchHead
  have hitem := reads_starNamedExpression hg.toPlain
  refine .across (reads_word "match") fun _ _ => .look (fun _ => rfl) fun start =>
    .across hitem fun first hfirst =>
    .across (reads_afterCommas _ hitem) fun r hr => .guard fun _ =>
      .across (reads_sign ":") fun _ _ =>
    .newLine (.look (fun _ => rfl) fun extent => .pure fun ts hts => ⟨hts, ?_⟩) rfl
  simpa using ⟨hfirst, hr⟩

/-- The pattern and the guard of a case are bare, so a case adds the definitions of its block. -/
theorem holds_matchCase (hg : g.Tracks all) (ds : List Mark) :
    Holds (AtLine all ds) (matchCase g) fun found =>
      AtLine all (ds ++ found.toList.flatMap (·.flatMap Node.marks)) := by
  unfold matchCase
  refine holds_led (.across (reads_openPattern hg.toPlain) fun shape hshape =>
    .across (reads_optWord "if")
    fun found _ => ?_)
  extract_lets withCondition
  have hwith : ∀ condition : List Node, (∀ n ∈ condition, n.Bare) →
      Holds (Passed all ds) (withCondition condition)
      fun found => AtLine all (ds ++ found.toList.flatMap (·.flatMap Node.marks)) := by
    intro condition hcondition
    refine .bind (holds_colonBlock hg ds) fun body => .pure fun ts hts => ?_
    have hnone : shape.marks = [] := hshape
    simpa [hnone, Node.flatMap_marks_of_bare hcondition] using hts
  split
  · exact .across (reads_namedExpression hg.toPlain) fun value hvalue =>
      hwith _ (List.forall_mem_singleton.mpr hvalue)
  · exact hwith [] (List.forall_mem_nil _)

/-- The cases follow each other, each with the definitions of its block. -/
theorem holds_matchStatement (hg : g.Tracks all) (ds : List Mark) :
    Holds (Passed all ds) (matchStatement g) fun node => AtLine all (ds ++ node.marks) := by
  unfold matchStatement
  refine .look (fun _ => rfl) fun start => .bind (holds_matchHead hg ds) fun subject =>
    .given fun hsubject => ?_
  refine Holds.weaken (.newLine ?_ rfl) fun _ => AtLine.passed
  refine .bind (holds_lines (holds_matchCase hg) ds) fun cases => .guard fun _ => ?_
  refine Holds.weaken (.newLine (holds_otherFrom start ?_) rfl) fun _ => AtLine.passed
  have hnone : subject.marks = [] := hsubject
  simp [hnone, Node.flatMap_marks_flatten]

theorem holds_single {P : List Token → Prop} {p : Parser Node}
    (h : Holds P p fun node => AtLine all (ds ++ node.marks)) :
    Holds P (p >>= fun node => pure [node]) fun body =>
    AtLine all (ds ++ body.flatMap Node.marks) :=
  .bind h fun node => .pure fun ts hts => by rwa [List.flatMap_singleton]

/-- Each kind of statement tells its definitions, by the lemma about it. -/
theorem holds_statement (hg : g.Tracks all) (ds : List Mark) :
    Holds (AtLine all ds) (statement g) fun body => AtLine all (ds ++ body.flatMap Node.marks) := by
  unfold statement
  have hsimple : Holds (AtLine all ds) (simpleStatements g) fun body =>
      AtLine all (ds ++ body.flatMap Node.marks) :=
    (holds_simpleStatements hg.toPlain ds).weaken fun _ => AtLine.passed
  have hcompound :
      ∀ {p : Parser Node}, Holds (Passed all ds) p (fun node => AtLine all (ds ++ node.marks)) →
      Holds (AtLine all ds) (p >>= fun node => pure [node]) fun body =>
      AtLine all (ds ++ body.flatMap Node.marks) :=
    fun h => holds_single (h.weaken fun _ => AtLine.passed)
  refine .look (fun _ => rfl) fun l => ?_
  split
  next cs =>
    split
    · exact holds_single (holds_decorated hg ds)
    · exact hsimple
  next cs =>
    split
    · exact hcompound (holds_conditional hg ds)
    split
    · exact hcompound (holds_whileLoop hg ds)
    split
    · exact hcompound (holds_forLoop hg ds)
    split
    · exact hcompound (holds_tryStatement hg ds)
    split
    · exact hcompound (holds_withStatement hg ds)
    split
    · exact .here fun start =>
        holds_single (holds_plainFunction hg (List.forall_mem_nil _) start ds)
    split
    · exact holds_single (holds_classDefinition hg (List.forall_mem_nil _) ds)
    split
    · exact holds_single (holds_asyncStatement hg (List.forall_mem_nil _) ds)
    split
    -- Both readings of `match` start at the same tokens.
    · exact .orElse (hcompound (holds_matchStatement hg ds)) hsimple
    · exact hsimple
  next => exact hsimple

/-- Statement after statement, the definitions are added at the end of those before. -/
theorem holds_statements (hg : g.Tracks all) (ds : List Mark) :
    Holds (AtLine all ds) (statements g) fun body =>
      AtLine all (ds ++ body.flatMap Node.marks) := by
  unfold statements
  refine .bind
    (holds_lines (m := (·.flatMap Node.marks)) (fun ds => .look (fun _ => rfl) fun l => ?_) ds)
    fun lines => .pure fun ts hts => by rwa [Node.flatMap_marks_flatten]
  split
  · exact .pure fun _ hts => by simpa using hts
  · exact .pure fun _ hts => by simpa using hts
  · exact .bind (holds_statement hg ds) fun body => .pure fun _ hts => by simpa using hts

/-- An indented block, or the rest of the line. -/
theorem holds_block (hg : g.Tracks all) (ds : List Mark) :
    Holds (Passed all ds) (block g) fun body => AtLine all (ds ++ body.flatMap Node.marks) := by
  unfold block
  refine .look (fun _ => rfl) fun l => ?_
  split
  · refine .newLine (.weaken (.newLine (.bind (holds_statements hg ds) fun body => ?_) rfl) fun _ =>
      AtLine.passed) rfl
    exact Holds.weaken (.newLine (.pure fun _ hts => hts) rfl) fun _ => AtLine.passed
  · exact holds_simpleStatements hg.toPlain ds

end Parser

/-! ## The whole source -/

/-- One more level of nesting. -/
theorem Grammar.Plain.level {g : Grammar} (hg : g.Plain) : g.level.Plain where
  expression := Parser.reads_expression hg
  inversion := Parser.reads_inversion hg
  factor := Parser.reads_factor hg
  primary := Parser.reads_primary hg
  pattern := Parser.reads_pattern hg
  field place text node h := by
    -- A replacement field has tokens of its own, so only what is read from them matters.
    obtain ⟨tokens, -, h⟩ := Option.bind_eq_some_iff.mp h
    obtain ⟨⟨value, rest⟩, hvalue, h⟩ := Option.bind_eq_some_iff.mp h
    cases h
    exact (Parser.reads_starExpressions hg _ _ _ hvalue).2

/-- One more level of nesting keeps what is told. -/
theorem Grammar.tracks_level {g : Grammar} {all : List Token} (hg : g.Tracks all) :
    g.level.Tracks all where
  toPlain := hg.toPlain.level
  block := Parser.holds_block hg

theorem Grammar.tracks_empty (all : List Token) : Grammar.empty.Tracks all where
  expression := .failure
  inversion := .failure
  factor := .failure
  primary := .failure
  pattern := .failure
  field place text node h := by cases h
  block _ := .failure

/-- **Every level of the grammar tells its definitions in the order of the text.** Induction on the
levels. -/
theorem tracks_grammar (depth : Nat) (all : List Token) : (grammar depth).Tracks all := by
  induction depth with
  | zero => exact Grammar.tracks_empty all
  | succ depth ih => exact Grammar.tracks_level ih

/-- **The definitions of a source begin its lines**, in the order of the walk. -/
theorem exists_passed_of_statements? {text : List Char} {body : List Node}
    (h : statements? text = some body) :
    ∃ all ts, tokens? text = some all ∧ Passed all (body.flatMap Node.marks) ts := by
  obtain ⟨all, hall, h⟩ := Option.bind_eq_some_iff.mp h
  obtain ⟨⟨body', input⟩, hbody, h⟩ := Option.bind_eq_some_iff.mp h
  obtain ⟨-, -, h⟩ := Option.bind_eq_some_iff.mp h
  cases h
  have hstart : AtLine all [] all := ⟨.start List.suffix_rfl, .inl rfl⟩
  exact ⟨all, input.tokens, hall,
    (Parser.holds_statements (tracks_grammar _ all) [] _ _ _ hstart hbody).passed⟩

end CallAtlas.Source
