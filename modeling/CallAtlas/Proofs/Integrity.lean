import CallAtlas.Proofs.Calls
import CallAtlas.Proofs.Table
import Mathlib.Data.List.Perm.Basic

/-!
# Referential integrity of projects

The symbols of a project come from a first pass over its files and its calls from a second one, by
another walk. Still every identifier that a recorded call mentions is that of a symbol
(`Project.indexProject_integrity`):

- the table of symbols knows exactly the identifiers that the files declare, whatever is replaced on
  the way (`mem_keys_foldl_addSymbols`), and every symbol stands under its own identifier (`Keyed`);
- so the candidates of a call, which are symbols of the table, are keys, and no two are the same
  (`drawnFrom_candidates`);
- the definitions around a call are among the declarations of its file, because both walks go
  through the same nesting (`exists_declaration_of_within`).
-/

namespace CallAtlas

open Source Text

/-! ## The table of symbols -/

/-- The identifiers that a file declares: that of the module and those of its definitions. -/
def SourceFile.Declares (f : SourceFile) (id : String) : Prop :=
  id = (moduleSymbol f.path f.index).id ∨
    ∃ s ∈ declarations f.path f.index [] f.tree, s.id = id

/-- Every symbol of a table stands under its own identifier. -/
def Keyed (symbols : Table String Symbol) : Prop :=
  ∀ id s, (id, s) ∈ symbols.entries → s.id = id

theorem keyed_empty : Keyed .empty := fun _ _ h => absurd h List.not_mem_nil

theorem Keyed.put {symbols : Table String Symbol} (h : Keyed symbols) (s : Symbol) :
    Keyed (symbols.put s.id s) := by
  intro id s' hs'
  rcases Table.mem_entries_put.mp hs' with ⟨rfl, rfl⟩ | ⟨-, hold⟩
  · rfl
  · exact h id s' hold

theorem Keyed.foldl_put {symbols : Table String Symbol} (h : Keyed symbols) (added : List Symbol) :
    Keyed (added.foldl (fun t s => t.put s.id s) symbols) := by
  induction added generalizing symbols with
  | nil => exact h
  | cons s added ih => exact ih (h.put s)

theorem Keyed.addSymbols {symbols : Table String Symbol} (h : Keyed symbols) (f : SourceFile) :
    Keyed (addSymbols symbols f) := by
  unfold CallAtlas.addSymbols
  apply Keyed.foldl_put
  split
  · exact h
  · exact h.put _

theorem Keyed.foldl_addSymbols {symbols : Table String Symbol} (h : Keyed symbols)
    (files : List SourceFile) : Keyed (files.foldl CallAtlas.addSymbols symbols) := by
  induction files generalizing symbols with
  | nil => exact h
  | cons f files ih => exact ih (h.addSymbols f)

/-- The identifiers of the values are the keys, in order. -/
theorem Keyed.map_id_values {symbols : Table String Symbol} (h : Keyed symbols) :
    symbols.values.map Symbol.id = symbols.keys := by
  rw [Table.values, Table.keys, List.map_map]
  exact List.map_congr_left fun e he => h e.1 e.2 he

theorem mem_keys_foldl_put {symbols : Table String Symbol} {added : List Symbol} {id : String} :
    id ∈ (added.foldl (fun t s => t.put s.id s) symbols).keys ↔
      id ∈ symbols.keys ∨ ∃ s ∈ added, s.id = id := by
  induction added generalizing symbols with
  | nil => simp
  | cons s added ih =>
    rw [List.foldl_cons, ih, Table.mem_keys_put, or_assoc, List.exists_mem_cons_iff, eq_comm]

/-- A file adds the identifiers that it declares, and no key is lost. -/
theorem mem_keys_addSymbols {symbols : Table String Symbol} {f : SourceFile} {id : String} :
    id ∈ (addSymbols symbols f).keys ↔ id ∈ symbols.keys ∨ f.Declares id := by
  have hwhole : id ∈ (if symbols.contains (moduleSymbol f.path f.index).id then symbols
      else symbols.put (moduleSymbol f.path f.index).id (moduleSymbol f.path f.index)).keys ↔
        id ∈ symbols.keys ∨ id = (moduleSymbol f.path f.index).id := by
    split
    next hcontains =>
      -- the module is passed over, but then its identifier is there already
      have hmem : (moduleSymbol f.path f.index).id ∈ symbols.keys := by
        simpa [Table.contains] using hcontains
      constructor
      · exact .inl
      · rintro (h | rfl)
        · exact h
        · exact hmem
    next => exact Table.mem_keys_put
  rw [addSymbols, mem_keys_foldl_put, hwhole, or_assoc]
  rfl

/-- The keys of the table are the identifiers that the files declare. -/
theorem mem_keys_foldl_addSymbols {symbols : Table String Symbol} {files : List SourceFile}
    {id : String} :
    id ∈ (files.foldl addSymbols symbols).keys ↔
      id ∈ symbols.keys ∨ ∃ f ∈ files, f.Declares id := by
  induction files generalizing symbols with
  | nil => simp
  | cons f files ih =>
    rw [List.foldl_cons, ih, mem_keys_addSymbols, or_assoc, List.exists_mem_cons_iff]

/-! ## Candidates -/

/-- Symbols drawn from others, none of them twice. -/
def DrawnFrom (values found : List Symbol) : Prop := found.Nodup ∧ found ⊆ values

theorem drawnFrom_nil (values : List Symbol) : DrawnFrom values [] :=
  ⟨List.nodup_nil, List.nil_subset values⟩

theorem perm_rankCandidates (symbols : List Symbol) : (rankCandidates symbols).Perm symbols :=
  List.mergeSort_perm _ _

theorem DrawnFrom.rankCandidates {values found : List Symbol} (h : DrawnFrom values found) :
    DrawnFrom values (rankCandidates found) := by
  have hperm := perm_rankCandidates found
  exact ⟨hperm.nodup_iff.mpr h.1, fun s hs => h.2 (hperm.mem_iff.mp hs)⟩

section

variable {values : List Symbol}

/-- A group of the index is drawn from the symbols. -/
theorem drawnFrom_group (hvalues : values.Nodup) {key : String × String} {group : List Symbol}
    (h : (key, group) ∈ (symbolIndex values).entries) : DrawnFrom values group := by
  rw [Table.eq_filter_of_mem_groupBy h]
  refine ⟨(hvalues.filter _).filter _, fun s hs => ?_⟩
  exact List.mem_of_mem_filter (List.mem_of_mem_filter hs)

/-- Groups of the index share no symbol: they have different keys, and a symbol has but one. -/
theorem pairwise_disjoint_groups (values : List Symbol) :
    (symbolIndex values).entries.Pairwise fun a b => List.Disjoint a.2 b.2 := by
  have hkeys : (symbolIndex values).entries.Pairwise fun a b => a.1 ≠ b.1 :=
    List.pairwise_map.mp (symbolIndex values).nodup
  refine hkeys.imp_of_mem ?_
  intro a b ha hb hne s hsa hsb
  rw [Table.eq_filter_of_mem_groupBy ha, List.mem_filter, decide_eq_true_iff] at hsa
  rw [Table.eq_filter_of_mem_groupBy hb, List.mem_filter, decide_eq_true_iff] at hsb
  exact hne (hsa.2.symm.trans hsb.2)

theorem drawnFrom_globalCandidates (hvalues : values.Nodup) (name : String) :
    DrawnFrom values (globalCandidates (symbolIndex values) name) := by
  have hall : DrawnFrom values
      (((symbolIndex values).entries.filter (·.1.2 == name)).flatMap Prod.snd) := by
    constructor
    · rw [List.nodup_flatMap]
      refine ⟨fun e he => ?_, (pairwise_disjoint_groups values).filter _⟩
      exact (drawnFrom_group hvalues (List.mem_of_mem_filter he)).1
    · intro s hs
      obtain ⟨e, he, hse⟩ := List.mem_flatMap.mp hs
      exact (drawnFrom_group hvalues (List.mem_of_mem_filter he)).2 hse
  unfold globalCandidates
  generalize ((symbolIndex values).entries.filter (·.1.2 == name)).flatMap Prod.snd = found at hall
  cases found with
  | nil => exact drawnFrom_nil values
  | cons s rest =>
    simp only
    split
    · exact hall
    · exact drawnFrom_nil values

/-- The candidates of a call are drawn from the symbols. -/
theorem drawnFrom_candidates (hvalues : values.Nodup) (module raw : String) :
    DrawnFrom values (candidates (symbolIndex values) module raw) := by
  unfold candidates
  split
  · exact drawnFrom_nil values
  · simp only
    split
    next found hfound =>
      exact (drawnFrom_group hvalues (Table.get?_eq_some_iff.mp hfound)).rankCandidates
    next => exact (drawnFrom_globalCandidates hvalues _).rankCandidates

end

theorem Keyed.nodup_map_id {symbols : Table String Symbol} (h : Keyed symbols) :
    (symbols.values.map Symbol.id).Nodup := by
  rw [h.map_id_values]
  exact symbols.nodup

/-- No two candidates have the same identifier, since no two symbols of the table have. -/
theorem Keyed.nodup_candidates {symbols : Table String Symbol} (h : Keyed symbols)
    (module raw : String) :
    ((candidates (symbolIndex symbols.values) module raw).map Symbol.id).Nodup := by
  obtain ⟨hnodup, hsubset⟩ := drawnFrom_candidates (h.nodup_map_id.of_map _) module raw
  refine hnodup.map_on fun s hs s' hs' heq => ?_
  exact List.inj_on_of_nodup_map h.nodup_map_id (hsubset hs) (hsubset hs') heq

/-! ## The definitions around a call -/

theorem definitionSymbol_id (file : Path) (index : LineIndex) (outer : List (String × SymbolKind))
    (head : Definition) (extent : Extent) :
    (definitionSymbol file index outer head extent).id =
      symbolId (".".intercalate (moduleName file :: outer.map Prod.fst ++ [head.name])) file := by
  rw [definitionSymbol]

theorem moduleSymbol_id (file : Path) (index : LineIndex) :
    (moduleSymbol file index).id = symbolId (moduleName file) file := by
  rw [moduleSymbol]

theorem declarationsOfAll_eq_flatMap (file : Path) (index : LineIndex)
    (outer : List (String × SymbolKind)) (trees : List Node) :
    declarationsOfAll file index outer trees = trees.flatMap (declarations file index outer) := by
  induction trees with
  | nil => rw [declarationsOfAll, List.flatMap_nil]
  | cons tree rest ih => rw [declarationsOfAll, List.flatMap_cons, ih]

/-- Every definition around a node is declared, under the names of those around it. Induction on the
way to the node. -/
theorem exists_declaration_of_within {file : Path} {index : LineIndex} {inner tree : Node}
    {inside names : List String} (h : inner.Within inside tree) (hnames : names <+: inside)
    (hne : names ≠ []) (outer : List (String × SymbolKind)) :
    ∃ s ∈ declarations file index outer tree,
      s.id = symbolId (".".intercalate (moduleName file :: (outer.map Prod.fst ++ names)))
      file := by
  induction h generalizing names outer with
  | here => exact absurd (List.prefix_nil.mp hnames) hne
  | @part context inside tree part hpart _ hinside ih =>
    subst hinside
    cases tree with
    | name => cases hpart
    | imports => cases hpart
    | member receiver id extent =>
      obtain rfl := List.mem_singleton.mp hpart
      obtain ⟨s, hs, hid⟩ := ih hnames hne outer
      exact ⟨s, by rwa [declarations], hid⟩
    | call callee arguments extent =>
      obtain ⟨s, hs, hid⟩ := ih hnames hne outer
      refine ⟨s, ?_, hid⟩
      rw [declarations, declarationsOfAll_eq_flatMap, List.mem_append, List.mem_flatMap]
      rcases List.mem_cons.mp hpart with rfl | hpart
      · exact .inl hs
      · exact .inr ⟨part, hpart, hs⟩
    | other parts extent =>
      obtain ⟨s, hs, hid⟩ := ih hnames hne outer
      refine ⟨s, ?_, hid⟩
      rw [declarations, declarationsOfAll_eq_flatMap, List.mem_flatMap]
      exact ⟨part, hpart, hs⟩
    | definition head parts extent =>
      rw [declarations, declarationsOfAll_eq_flatMap]
      cases names with
      | nil => exact absurd rfl hne
      | cons name rest =>
        obtain ⟨rfl, hrest⟩ := List.cons_prefix_cons.mp hnames
        by_cases hlast : rest = []
        · subst hlast
          refine ⟨_, List.mem_cons_self, ?_⟩
          rw [definitionSymbol_id, List.cons_append]
        · obtain ⟨s, hs, hid⟩ := ih hrest hlast (outer ++ [(head.name, head.kind.symbolKind outer)])
          refine ⟨s, List.mem_cons_of_mem _ (List.mem_flatMap.mpr ⟨part, hpart, hs⟩), ?_⟩
          rw [hid, List.map_append, List.append_assoc]
          rfl

/-- The identifiers in a file that is not a stub are the qualified names. -/
theorem symbolId_of_suffix {file : Path} (h : file.suffix = sourceSuffix) (qualname : String) :
    symbolId qualname file = qualname := by
  have hstub : file.isStub = false := by
    rw [Path.isStub, h]
    decide
  rw [symbolId, hstub]
  rfl

/-- A source file declares its module and the definitions around each of its nodes. -/
theorem declares_of_within {f : SourceFile} {inner : Node} {inside names : List String}
    (hsuffix : f.path.suffix = sourceSuffix) (h : inner.Within inside f.tree)
    (hnames : names <+: inside) : f.Declares (".".intercalate (moduleName f.path :: names)) := by
  by_cases hne : names = []
  · subst hne
    left
    rw [moduleSymbol_id, symbolId_of_suffix hsuffix, String.intercalate_singleton]
  · obtain ⟨s, hs, hid⟩ := exists_declaration_of_within h hnames hne []
    exact .inr ⟨s, hs, hid.trans (symbolId_of_suffix hsuffix _)⟩

namespace Project

variable {fs : FileSystem} {root : Path} {config : ScanConfig} {p : Project}

/-- The references of a call lead to symbols of the project: its caller and its candidates, which
are all different, and of which the callee is the first. -/
structure Resolves (p : Project) (call : Call) : Prop where
  caller : call.caller ∈ p.symbols.keys
  candidates : ∀ id ∈ call.candidates, id ∈ p.symbols.keys
  nodup : call.candidates.Nodup
  callee : ∀ id, call.callee? = some id ↔ ∃ others, call.candidates = id :: others
  unresolved : call.callee? = none ↔ call.candidates = []

/-- A call is recorded for a call in a source file of the project, and the module of the file and
every definition around the call are symbols of the project. -/
def Encloses (p : Project) (f : SourceFile) (inside : List String) (call : Call) : Prop :=
  (∃ callee arguments extent, (Node.call callee arguments extent).Within inside f.tree ∧
    call.Records f.path f.index inside callee extent) ∧
  ∀ names, names <+: inside → ".".intercalate (moduleName f.path :: names) ∈ p.symbols.keys

theorem keyed_symbols (root : Path) (files : List SourceFile) :
    Keyed (projectOf root files).symbols := keyed_empty.foldl_addSymbols files

/-- What a file of a project declares is a symbol of the project. -/
theorem mem_keys_of_declares {root : Path} {files : List SourceFile} {f : SourceFile} {id : String}
    (hf : f ∈ files) (h : f.Declares id) : id ∈ (projectOf root files).symbols.keys :=
  mem_keys_foldl_addSymbols.mpr (.inr ⟨f, hf, h⟩)

/-- The candidates of a recorded call are different keys of the table. -/
theorem candidates_of_mem_callsOf {symbols : Table String Symbol} (hkeyed : Keyed symbols)
    {file : Path} {index : LineIndex} {tree : Node} {call : Call}
    (h : call ∈ callsOf (symbolIndex symbols.values) file index tree) :
    (∀ id ∈ call.candidates, id ∈ symbols.keys) ∧ call.candidates.Nodup := by
  obtain ⟨raw, -, rfl⟩ := List.mem_map.mp h
  obtain ⟨-, hsubset⟩ :=
    drawnFrom_candidates (hkeyed.nodup_map_id.of_map _) (moduleName raw.file) raw.raw
  refine ⟨fun id hid => ?_, hkeyed.nodup_candidates (moduleName raw.file) raw.raw⟩
  obtain ⟨s, hs, rfl⟩ := List.mem_map.mp hid
  rw [← hkeyed.map_id_values]
  exact List.mem_map_of_mem (hsubset hs)

/-- **Referential integrity**: every identifier that a recorded call mentions, and that of every
definition around it, is a symbol of the project. The recorded calls are those of the source files,
stubs left out, and none of them is missing. -/
theorem indexProject_integrity (h : indexProject fs root config = .ok p) :
    (∀ call ∈ p.calls, p.Resolves call ∧ ∃ path ∈ fs.sourceFiles config p.root,
      ∃ f inside, readSource fs p.root path = .ok f ∧ f.path.suffix = sourceSuffix ∧
        p.Encloses f inside call) ∧
    ∀ path ∈ fs.sourceFiles config p.root, ∃ f, readSource fs p.root path = .ok f ∧
      (f.path.suffix = sourceSuffix → ∀ inside callee arguments extent,
        (Node.call callee arguments extent).Within inside f.tree →
          ∃ call ∈ p.calls, call.Records f.path f.index inside callee extent) := by
  obtain ⟨-, -, files, hfiles, hp⟩ := indexProject_eq_ok_iff.mp h
  constructor
  · intro call hcall
    rw [hp] at hcall
    obtain ⟨f, hf, hcall⟩ := List.mem_flatMap.mp hcall
    obtain ⟨hf, hsuffix⟩ := List.mem_filter.mp hf
    rw [beq_iff_eq] at hsuffix
    obtain ⟨inside, callee, arguments, extent, hwithin, hrecords⟩ :=
      exists_within_of_mem_callsOf hcall
    have henclosing (names : List String) (hnames : names <+: inside) :
        ".".intercalate (moduleName f.path :: names) ∈ p.symbols.keys := by
      rw [hp]
      exact mem_keys_of_declares hf (declares_of_within hsuffix hwithin hnames)
    obtain ⟨hcandidates, hnodup⟩ := candidates_of_mem_callsOf (keyed_symbols _ files) hcall
    obtain ⟨path, hpath, hread⟩ := exists_related_of_mem hfiles.flip hf
    refine ⟨⟨?_, ?_, hnodup, ?_, ?_⟩, path, hpath, f, inside, hread, hsuffix,
      ⟨callee, arguments, extent, hwithin, hrecords⟩, henclosing⟩
    · rw [hrecords.caller]
      exact henclosing inside List.prefix_rfl
    · rw [hp]
      exact hcandidates
    · intro id
      exact List.head?_eq_some_iff
    · exact List.head?_eq_none_iff
  · intro path hpath
    obtain ⟨f, hf, hread⟩ := exists_related_of_mem hfiles hpath
    refine ⟨f, hread, fun hsuffix inside callee arguments extent hwithin => ?_⟩
    obtain ⟨call, hcall, hrecords⟩ := exists_mem_callsOf_of_within hwithin
    refine ⟨call, ?_, hrecords⟩
    rw [hp]
    exact callsOf_subset_calls hf hsuffix hcall

/-- Two files of one module, `x.y`, which both define `g`, and a stub. The method `f` is defined
twice, and `g` calls what is nowhere defined. -/
def colliding : FileSystem where
  entries := [("w", .directory
    [("x.y.py", .file "def g(): pass\n".toUTF8),
      ("x", .directory
        [("y.py", .file
            "class A:\n    def f(self): g()\n    def f(self): g()\ndef g(): h()\n".toUTF8),
          ("z", .directory [("t.pyi", .file "def k(): ...\n".toUTF8)])])])]

/-- Both definitions of `f` are callers under one identifier. The later definition of `g` has
replaced the earlier one without a loss, and the call of `h` has no candidates. -/
theorem indexProject_integrity_colliding :
    ∃ p, indexProject colliding ⟨"/", ["w"]⟩ {} = .ok p ∧
      p.symbols.keys = ["x.y", "x.y.g", "x.y.A", "x.y.A.f", "stub:x.z.t", "stub:x.z.t.k"] ∧
      p.calls.map (fun c => (c.caller, c.candidates)) =
        [("x.y.A.f", ["x.y.g"]), ("x.y.A.f", ["x.y.g"]), ("x.y.g", [])] ∧
      ∀ call ∈ p.calls, p.Resolves call := by
  have hcontent : ((colliding.sourceFiles {} ⟨"/", ["w"]⟩).mapM
      (readSource colliding ⟨"/", ["w"]⟩)).map (fun files =>
        ((projectOf ⟨"/", ["w"]⟩ files).symbols.keys,
          (projectOf ⟨"/", ["w"]⟩ files).calls.map fun c => (c.caller, c.candidates))) =
      .ok (["x.y", "x.y.g", "x.y.A", "x.y.A.f", "stub:x.z.t", "stub:x.z.t.k"],
        [("x.y.A.f", ["x.y.g"]), ("x.y.A.f", ["x.y.g"]), ("x.y.g", [])]) := by
    decide +kernel
  cases hread :
    (colliding.sourceFiles {} ⟨"/", ["w"]⟩).mapM (readSource colliding ⟨"/", ["w"]⟩) with
  | error e =>
    rw [hread] at hcontent
    cases hcontent
  | ok files =>
    rw [hread] at hcontent
    obtain ⟨hkeys, hcalls⟩ := Prod.mk.inj (Except.ok.inj hcontent)
    have hp : indexProject colliding ⟨"/", ["w"]⟩ {} = .ok (projectOf ⟨"/", ["w"]⟩ files) :=
      indexProject_of_mapM (by cbv) (by decide +kernel) hread
    exact ⟨_, hp, hkeys, hcalls, fun call hcall => ((indexProject_integrity hp).1 call hcall).1⟩

end Project

end CallAtlas
