import CallAtlas.Proofs.FileSystem.Canonical
import CallAtlas.Proofs.Lookup.Items
import Mathlib

/-!
# Which file a caller is declared in

The caller of a recorded call is an identifier, and identifiers of different files may meet: the
function `b` of `a.py` is called `a.b`, and so is the module of `a/b.py`. All symbols are put into
one table, file by file. Under an identifier it holds the last definition, or else the first module
that has it (`get?_foldl_addSymbols`). Hence a call is attributed to a symbol of its own file
exactly if no later file defines the identifier and, where the call stands outside of definitions,
no earlier file declares it (`Project.caller_declared_iff`).

That this decides between *different* files needs that a scan meets no file twice
(`FileSystem.Proper.nodup_sourceFiles`).
-/

namespace CallAtlas

open Source Text

/-! ## What a table holds after several files -/

namespace SourceFile

variable {f : SourceFile} {id : String}

/-- The symbol of a file as a whole. -/
def whole (f : SourceFile) : Symbol := moduleSymbol f.path f.index

/-- The symbols of the definitions in a file, in their order. -/
def definitions (f : SourceFile) : List Symbol := declarations f.path f.index [] f.tree

/-- A definition in a file has an identifier. -/
def Defines (f : SourceFile) (id : String) : Prop := ∃ s ∈ f.definitions, s.id = id

theorem declares_iff : f.Declares id ↔ f.whole.id = id ∨ f.Defines id := by
  rw [Declares, eq_comm]
  rfl

/-- The last definition with an identifier, in several files. -/
def lastDefinition? (files : List SourceFile) (id : String) : Option Symbol :=
  ((files.flatMap definitions).filter fun s => s.id = id).getLast?

/-- The first module with an identifier, in several files. -/
def firstModule? (files : List SourceFile) (id : String) : Option Symbol :=
  (files.map whole).find? fun s => s.id = id

theorem lastDefinition?_cons (f : SourceFile) (files : List SourceFile) (id : String) :
    lastDefinition? (f :: files) id = (lastDefinition? files id).or (lastDefinition? [f] id) := by
  simp only [lastDefinition?, List.flatMap_cons, List.flatMap_nil, List.append_nil,
    List.filter_append, List.getLast?_append]

theorem firstModule?_cons (f : SourceFile) (files : List SourceFile) (id : String) :
    firstModule? (f :: files) id = (firstModule? [f] id).or (firstModule? files id) := by
  simp only [firstModule?, List.map_cons, List.map_nil]
  rw [← List.singleton_append, List.find?_append]

/-- A definition that is found belongs to one of the files. -/
theorem mem_definitions_of_lastDefinition? {files : List SourceFile} {s : Symbol}
    (h : lastDefinition? files id = some s) : ∃ f ∈ files, s ∈ f.definitions ∧ s.id = id := by
  have hmem := List.mem_of_getLast? h
  rw [List.mem_filter, List.mem_flatMap, decide_eq_true_iff] at hmem
  obtain ⟨⟨f, hf, hs⟩, hid⟩ := hmem
  exact ⟨f, hf, hs, hid⟩

theorem lastDefinition?_eq_none_iff {files : List SourceFile} :
    lastDefinition? files id = none ↔ ∀ f ∈ files, ¬f.Defines id := by
  rw [lastDefinition?, List.getLast?_eq_none_iff, List.filter_eq_nil_iff]
  constructor
  · rintro h f hf ⟨s, hs, hid⟩
    exact h s (List.mem_flatMap.mpr ⟨f, hf, hs⟩) (decide_eq_true hid)
  · intro h s hs
    obtain ⟨f, hf, hs⟩ := List.mem_flatMap.mp hs
    rw [decide_eq_true_iff]
    exact fun hid => h f hf ⟨s, hs, hid⟩

theorem mem_of_firstModule? {files : List SourceFile} {s : Symbol}
    (h : firstModule? files id = some s) :
    ∃ f ∈ files, s = f.whole := by
  obtain ⟨f, hf, hs⟩ := List.mem_map.mp (List.mem_of_find?_eq_some h)
  exact ⟨f, hf, hs.symm⟩

theorem firstModule?_eq_none_iff {files : List SourceFile} :
    firstModule? files id = none ↔ ∀ f ∈ files, f.whole.id ≠ id := by
  simp [firstModule?, List.find?_eq_none]

end SourceFile

open SourceFile

/-- Of symbols that are put into a table the last one counts. -/
theorem get?_foldl_put (added : List Symbol) (symbols : Table String Symbol) (id : String) :
    (added.foldl (fun t s => t.put s.id s) symbols).get? id =
      ((added.filter fun s => s.id = id).getLast?).or (symbols.get? id) := by
  induction added generalizing symbols with
  | nil => rfl
  | cons s added ih =>
    rw [List.foldl_cons, ih, Table.get?_put, List.filter_cons]
    by_cases hid : s.id = id
    · subst hid
      rw [if_pos rfl, if_pos (decide_eq_true rfl), ← List.singleton_append, List.getLast?_append,
        Option.or_assoc]
      rfl
    · rw [if_neg (Ne.symm hid), if_neg (by simpa using hid)]

/-- One file: its definitions replace what is there, its module only fills a gap. -/
theorem get?_addSymbols (symbols : Table String Symbol) (f : SourceFile) (id : String) :
    (addSymbols symbols f).get? id =
      (lastDefinition? [f] id).or ((symbols.get? id).or (firstModule? [f] id)) := by
  have hwhole :
      (if symbols.contains f.whole.id then symbols else symbols.put f.whole.id f.whole).get? id =
        (symbols.get? id).or (firstModule? [f] id) := by
    by_cases hid : f.whole.id = id
    · have hfirst : firstModule? [f] id = some f.whole := by simp [firstModule?, hid]
      subst hid
      rw [hfirst]
      split
      next hcontains =>
        obtain ⟨s, hs⟩ := Table.mem_keys_iff.mp (by simpa [Table.contains] using hcontains)
        rw [Table.get?_eq_some_iff.mpr hs]
        rfl
      next hcontains =>
        have hnone : symbols.get? f.whole.id = none := by
          rw [Option.eq_none_iff_forall_ne_some]
          intro s hs
          refine hcontains ?_
          simpa [Table.contains] using Table.mem_keys_iff.mpr ⟨s, Table.get?_eq_some_iff.mp hs⟩
        rw [Table.get?_put, if_pos rfl, hnone]
        rfl
    · have hfirst : firstModule? [f] id = none := firstModule?_eq_none_iff.mpr (by simpa using hid)
      rw [hfirst, Option.or_none]
      split
      · rfl
      · rw [Table.get?_put, if_neg (Ne.symm hid)]
  rw [addSymbols, get?_foldl_put]
  simp only [lastDefinition?, List.flatMap_cons, List.flatMap_nil, List.append_nil]
  rw [← hwhole]
  rfl

/-- **What stands under an identifier**: the last definition that has it, or else what was there
before, or else the first module that has it. Induction on the files. -/
theorem get?_foldl_addSymbols (files : List SourceFile) (symbols : Table String Symbol)
    (id : String) :
    (files.foldl addSymbols symbols).get? id =
      (lastDefinition? files id).or ((symbols.get? id).or (firstModule? files id)) := by
  induction files generalizing symbols with
  | nil => simp [lastDefinition?, firstModule?]
  | cons f files ih =>
    rw [List.foldl_cons, ih, get?_addSymbols, lastDefinition?_cons f files,
      firstModule?_cons f files]
    simp only [Option.or_assoc]

/-- What stands under an identifier, seen from one of the files. -/
theorem get?_symbols_projectOf (root : Path) (before after : List SourceFile) (f : SourceFile)
    (id : String) :
    (projectOf root (before ++ f :: after)).symbols.get? id =
      (lastDefinition? after id).or ((lastDefinition? [f] id).or ((lastDefinition? before id).or
        ((firstModule? before id).or ((firstModule? [f] id).or (firstModule? after id))))) := by
  have hempty : (Table.empty : Table String Symbol).get? id = none := rfl
  show ((before ++ f :: after).foldl addSymbols .empty).get? id = _
  rw [List.foldl_append, List.foldl_cons, get?_foldl_addSymbols, get?_addSymbols,
    get?_foldl_addSymbols, hempty]
  simp only [Option.none_or, Option.or_assoc]

/-! ## Every file is read once -/

namespace FileSystem

variable {fs : FileSystem}

theorem nodup_sortNames {names : List String} (h : names.Nodup) : (sortNames names).Nodup :=
  (List.mergeSort_perm _ _).nodup_iff.mpr h

/-- A directory lists every name once, so a scan looks at every name once. -/
theorem nodup_listing (fs : FileSystem) (config : ScanConfig) (directory : Path)
    {entries : List (String × Entry)} (h : (entries.map Prod.fst).Nodup) :
    (fs.listing config directory entries).1.Nodup ∧
      (fs.listing config directory entries).2.Nodup := by
  have hfiltered (p q : String × Entry → Bool) :
      (((entries.filter p).filter q).map Prod.fst).Nodup :=
    h.sublist ((List.filter_sublist.trans List.filter_sublist).map _)
  rw [listing_eq]
  exact ⟨nodup_sortNames (hfiltered _ _), nodup_sortNames (hfiltered _ _)⟩

theorem child_injective (directory : Path) : Function.Injective directory.child := by
  intro name name' h
  simpa [Path.child] using h

/-- **A scan meets no path twice.** Induction on its depth: below different names of a directory
there are different paths, and none of them is one of its own files. -/
theorem Proper.nodup_sourceFilesFrom (hproper : fs.Proper) (config : ScanConfig) (fuel : Nat)
    (directory : Path) :
    (fs.sourceFilesFrom config fuel directory).Nodup := by
  induction fuel generalizing directory with
  | zero => exact List.nodup_nil
  | succ fuel ih =>
    rw [sourceFilesFrom]
    split
    next entries hentry =>
      have hentries : (entries.map Prod.fst).Nodup := by
        unfold entry? at hentry
        split at hentry
        next names hnames =>
          exact ((Entry.isWellNamed_directory entries).mp
            (Entry.isWellNamed_of_descend? hentry hproper.named)).1
        next => cases hentry
      obtain ⟨hfiles, hdirectories⟩ := nodup_listing fs config directory hentries
      -- what lies below a name goes on after that name
      have hbelow {name : String} {path : Path}
          (h : path ∈ fs.sourceFilesFrom config fuel (directory.child name)) :
          ∃ names, names ≠ [] ∧ path.parts = directory.parts ++ name :: names := by
        obtain ⟨names, hne, rfl, -⟩ := hproper.names_of_mem_sourceFilesFrom h
        exact ⟨names, hne, by simp [Path.child]⟩
      rw [List.nodup_append]
      refine ⟨hfiles.map (child_injective directory),
        List.nodup_flatMap.mpr ⟨fun name _ => ih _, ?_⟩, ?_⟩
      · refine hdirectories.imp fun {name name'} hne path hpath hpath' => ?_
        obtain ⟨names, -, hparts⟩ := hbelow hpath
        obtain ⟨names', -, hparts'⟩ := hbelow hpath'
        rw [hparts, List.append_cancel_left_eq, List.cons.injEq] at hparts'
        exact hne hparts'.1
      · rintro _ hfile path hpath rfl
        obtain ⟨file, -, hfile⟩ := List.mem_map.mp hfile
        obtain ⟨name, -, hpath⟩ := List.mem_flatMap.mp hpath
        obtain ⟨names, hne, hparts⟩ := hbelow hpath
        rw [← hfile] at hparts
        simp only [Path.child, List.append_cancel_left_eq, List.cons.injEq] at hparts
        exact hne hparts.2.symm
    next => exact List.nodup_nil

theorem Proper.nodup_sourceFiles (hproper : fs.Proper) (config : ScanConfig) (directory : Path) :
    (fs.sourceFiles config directory).Nodup :=
  hproper.nodup_sourceFilesFrom config _ directory

end FileSystem

/-- The files of a project have different paths. -/
theorem nodup_paths {fs : FileSystem} (hproper : fs.Proper) {config : ScanConfig} {root : Path}
    {files : List SourceFile}
    (h : List.Forall₂ (fun path f => readSource fs root path = .ok f)
      (fs.sourceFiles config root) files) :
    (files.map SourceFile.path).Nodup := by
  -- Joined to the root again, the paths of the files are those that the scan met.
  have hpaths : (files.map SourceFile.path).map root.join = fs.sourceFiles config root := by
    have hsame : ∀ path f, path ∈ fs.sourceFiles config root → readSource fs root path = .ok f →
        root.join f.path = path := fun path f hpath hread =>
      Path.join_of_relativeTo? (readSource_path_of_mem hpath hread).1
    revert hsame
    generalize fs.sourceFiles config root = paths at h
    intro hsame
    induction h with
    | nil => rfl
    | cons hread _ ih =>
      rw [List.map_cons, List.map_cons, hsame _ _ List.mem_cons_self hread,
        ih fun path f hpath => hsame path f (List.mem_cons_of_mem _ hpath)]
  exact List.Nodup.of_map root.join (hpaths ▸ hproper.nodup_sourceFiles config root)

/-! ## Callers -/

/-- A file never defines what its module is called: the names of its definitions go on after
that. -/
theorem SourceFile.not_defines_module {f : SourceFile} (hsuffix : f.path.suffix = sourceSuffix) :
    ¬f.Defines (moduleName f.path) := by
  rintro ⟨s, hs, hid⟩
  obtain ⟨inside, head, extent, rfl⟩ := exists_definition_of_mem_declarations f.tree hs
  rw [definitionSymbol_id, symbolId_of_suffix hsuffix] at hid
  have hlonger (names : List String) (hne : names ≠ []) :
      ".".intercalate (moduleName f.path :: names) ≠ moduleName f.path := by
    obtain ⟨name, rest, rfl⟩ := List.exists_cons_of_ne_nil hne
    intro heq
    have hlength := congrArg String.length heq
    rw [String.intercalate_cons_cons, String.length_append, String.length_append] at hlength
    have hdot : ".".length = 1 := rfl
    omega
  exact hlonger (inside.map Prod.fst ++ [head.name]) (by simp) hid

/-- A call is recorded for a call in a file, inside of definitions with the given names, the
outermost first. -/
def SourceFile.Makes (f : SourceFile) (inside : List String) (call : RawCall) : Prop :=
  ∃ callee arguments extent, (Node.call callee arguments extent).Within inside f.tree ∧
    call.Records f.path f.index inside callee extent

/-- The caller of a call inside of definitions is defined in the file, that of any other call is its
module. -/
theorem SourceFile.Makes.defines_iff {f : SourceFile} {inside : List String} {call : RawCall}
    (h : f.Makes inside call) (hsuffix : f.path.suffix = sourceSuffix) :
    (f.Defines call.caller ↔ inside ≠ []) ∧ (inside = [] → f.whole.id = call.caller) := by
  obtain ⟨callee, arguments, extent, hwithin, hrecords⟩ := h
  rw [hrecords.caller]
  by_cases hinside : inside = []
  · subst hinside
    rw [String.intercalate_singleton]
    refine ⟨⟨fun hdefines => absurd hdefines (not_defines_module hsuffix), fun hne =>
      absurd rfl hne⟩, fun _ => ?_⟩
    rw [whole, moduleSymbol_id, symbolId_of_suffix hsuffix]
  · refine ⟨⟨fun _ => hinside, fun _ => ?_⟩, fun hnil => absurd hnil hinside⟩
    obtain ⟨s, hs, hid⟩ :
        ∃ s ∈ f.definitions, s.id =
          symbolId (".".intercalate (moduleName f.path :: inside)) f.path :=
      exists_declaration_of_within hwithin List.prefix_rfl hinside []
    exact ⟨s, hs, hid.trans (symbolId_of_suffix hsuffix _)⟩

namespace Project

variable {fs : FileSystem} {root : Path} {config : ScanConfig} {p : Project}

/-- The symbol under the caller of a call that one of the files makes. Definitions of later files
come first, then those of the file itself, then whatever an earlier file declares. -/
theorem exists_caller_iff {before after : List SourceFile} {f : SourceFile} {inside : List String}
    {call : RawCall} (hmakes : f.Makes inside call) (hsuffix : f.path.suffix = sourceSuffix)
    (hbefore : ∀ g ∈ before, g.path ≠ f.path) (hafter : ∀ g ∈ after, g.path ≠ f.path) :
    ∃ s, (projectOf root (before ++ f :: after)).symbols.get? call.caller = some s ∧
      (s.file = f.path ↔ (∀ later ∈ after, ¬later.Defines call.caller) ∧
        (inside = [] → ∀ earlier ∈ before, ¬earlier.Declares call.caller)) := by
  obtain ⟨hdefines, hwhole⟩ := hmakes.defines_iff hsuffix
  -- The cases are those of the look-up, in its order. It goes beyond the definitions of the file
  -- itself only for a call outside of definitions, and never beyond the module of the file.
  rw [get?_symbols_projectOf]
  cases hlater : lastDefinition? after call.caller with
  | some s =>
    obtain ⟨g, hg, hs, hid⟩ := mem_definitions_of_lastDefinition? hlater
    refine ⟨s, rfl, fun hfile => ?_, fun hnone => absurd ⟨s, hs, hid⟩ (hnone.1 g hg)⟩
    exact absurd ((HasSymbol.file_eq (.inr hs)).symm.trans hfile) (hafter g hg)
  | none =>
    have hno := lastDefinition?_eq_none_iff.mp hlater
    rw [Option.none_or]
    cases hown : lastDefinition? [f] call.caller with
    | some s =>
      obtain ⟨g, hg, hs, hid⟩ := mem_definitions_of_lastDefinition? hown
      obtain rfl := List.mem_singleton.mp hg
      have hinside : inside ≠ [] := hdefines.mp ⟨s, hs, hid⟩
      exact ⟨s, rfl, fun _ => ⟨hno, fun hnil => absurd hnil hinside⟩,
        fun _ => HasSymbol.file_eq (.inr hs)⟩
    | none =>
      have hinside : inside = [] := by
        by_contra hne
        exact lastDefinition?_eq_none_iff.mp hown f List.mem_cons_self (hdefines.mpr hne)
      have hmodule : firstModule? [f] call.caller = some f.whole := by
        simp [firstModule?, hwhole hinside]
      rw [Option.none_or, hmodule]
      cases hearlier : lastDefinition? before call.caller with
      | some s =>
        obtain ⟨g, hg, hs, hid⟩ := mem_definitions_of_lastDefinition? hearlier
        refine ⟨s, rfl, fun hfile => ?_, fun hnone => ?_⟩
        · exact absurd ((HasSymbol.file_eq (.inr hs)).symm.trans hfile) (hbefore g hg)
        · exact absurd (declares_iff.mpr (.inr ⟨s, hs, hid⟩)) (hnone.2 hinside g hg)
      | none =>
        rw [Option.none_or]
        cases hfirst : firstModule? before call.caller with
        | some s =>
          obtain ⟨g, hg, rfl⟩ := mem_of_firstModule? hfirst
          have hid : g.whole.id = call.caller := by simpa using List.find?_some hfirst
          refine ⟨g.whole, rfl, fun hfile => absurd hfile (hbefore g hg), fun hnone => ?_⟩
          exact absurd (declares_iff.mpr (.inl hid)) (hnone.2 hinside g hg)
        | none =>
          refine ⟨f.whole, rfl, fun _ => ⟨hno, fun _ g hg hdeclares => ?_⟩, fun _ => rfl⟩
          rcases declares_iff.mp hdeclares with hid | hid
          · exact firstModule?_eq_none_iff.mp hfirst g hg hid
          · exact lastDefinition?_eq_none_iff.mp hearlier g hg hid

/-- **When a call is attributed to its file.** Let a project be indexed from some files, in the
order of the scan, and let a call be recorded in one of them. Then there is a symbol under its
caller. That symbol is declared in the file of the call exactly if no later file defines the
identifier and, for a call outside of definitions, no earlier file declares it.
-/
theorem caller_declared_iff (hproper : fs.Proper) (h : indexProject fs root config = .ok p) :
    ∃ files, List.Forall₂ (fun path f => readSource fs p.root path = .ok f)
      (fs.sourceFiles config p.root) files ∧
      ∀ call ∈ p.calls, ∃ before f after inside, files = before ++ f :: after ∧
      f.Makes inside call.toRawCall ∧
        ∃ s, p.symbols.get? call.caller = some s ∧
          (s.file = call.file ↔ (∀ later ∈ after, ¬later.Defines call.caller) ∧
            (inside = [] → ∀ earlier ∈ before, ¬earlier.Declares call.caller)) := by
  obtain ⟨-, -, files, hfiles, hp⟩ := indexProject_eq_ok_iff.mp h
  refine ⟨files, hfiles, fun call hcall => ?_⟩
  rw [hp] at hcall
  obtain ⟨f, hf, hcall⟩ := List.mem_flatMap.mp hcall
  obtain ⟨hf, hsuffix⟩ := List.mem_filter.mp hf
  rw [beq_iff_eq] at hsuffix
  obtain ⟨inside, hmakes⟩ : ∃ inside, f.Makes inside call.toRawCall :=
    exists_within_of_mem_callsOf hcall
  have hfile : call.file = f.path := by
    obtain ⟨_, _, _, -, hrecords⟩ := hmakes
    exact hrecords.file
  have hpaths := nodup_paths hproper hfiles
  obtain ⟨before, after, rfl⟩ := List.append_of_mem hf
  rw [List.map_append, List.map_cons, List.nodup_append, List.nodup_cons] at hpaths
  obtain ⟨-, ⟨hafter, -⟩, hbefore⟩ := hpaths
  refine ⟨before, f, after, inside, rfl, hmakes, ?_⟩
  rw [hp, hfile]
  exact exists_caller_iff hmakes hsuffix
    (fun g hg => hbefore g.path (List.mem_map_of_mem hg) f.path List.mem_cons_self)
    fun g hg heq => hafter (heq ▸ List.mem_map_of_mem hg)

/-- A function and a module that are both called `a.b`. A call is made in the function, and another
one in the module. -/
def meeting : FileSystem where
  entries := [("w", .directory
    [("a.py", .file "def b(): f()\n".toUTF8), ("a", .directory [("b.py", .file "f()\n".toUTF8)])])]

/-- Its calls, with their callers and their files, and the file of the symbol under the caller of
both. -/
theorem exists_project_meeting :
    ∃ p, indexProject meeting ⟨"/", ["w"]⟩ {} = .ok p ∧
      p.calls.map (fun c => (c.caller, c.file)) =
        [("a.b", ⟨"", ["a.py"]⟩), ("a.b", ⟨"", ["a", "b.py"]⟩)] ∧
      (p.symbols.get? "a.b").map Symbol.file = some ⟨"", ["a.py"]⟩ := by
  have hcontent :
      ((meeting.sourceFiles {} ⟨"/", ["w"]⟩).mapM (readSource meeting ⟨"/", ["w"]⟩)).map
        (fun files =>
      ((projectOf ⟨"/", ["w"]⟩ files).calls.map fun c => (c.caller, c.file),
        ((projectOf ⟨"/", ["w"]⟩ files).symbols.get? "a.b").map Symbol.file)) =
      .ok ([("a.b", ⟨"", ["a.py"]⟩), ("a.b", ⟨"", ["a", "b.py"]⟩)], some ⟨"", ["a.py"]⟩) := by
    decide +kernel
  cases hread : (meeting.sourceFiles {} ⟨"/", ["w"]⟩).mapM (readSource meeting ⟨"/", ["w"]⟩) with
  | error e =>
    rw [hread] at hcontent
    cases hcontent
  | ok files =>
    rw [hread] at hcontent
    obtain ⟨hcalls, hsymbol⟩ := Prod.mk.inj (Except.ok.inj hcontent)
    exact ⟨_, indexProject_of_mapM (by cbv) (by decide +kernel) hread, hcalls, hsymbol⟩

/-- Of the two calls the first one is attributed to its file. So no later file defines `a.b`,
although one is called so. -/
theorem caller_declared_iff_meeting :
    meeting.Proper ∧ ∃ p, indexProject meeting ⟨"/", ["w"]⟩ {} = .ok p ∧ ∃ call ∈ p.calls,
      call.caller = "a.b" ∧ call.file = ⟨"", ["a.py"]⟩ ∧
      ∃ before f after inside, f.Makes inside call.toRawCall ∧
        List.Forall₂ (fun path f => readSource meeting p.root path = .ok f)
          (meeting.sourceFiles {} p.root) (before ++ f :: after) ∧
        ∀ later ∈ after, ¬later.Defines "a.b" := by
  have hproper : meeting.Proper := by decide +kernel
  obtain ⟨p, hp, hcalls, hsymbol⟩ := exists_project_meeting
  have hfirst : ("a.b", (⟨"", ["a.py"]⟩ : Path)) ∈ p.calls.map fun c => (c.caller, c.file) := by
    rw [hcalls]
    exact List.mem_cons_self
  obtain ⟨call, hcall, heq⟩ := List.mem_map.mp hfirst
  obtain ⟨hcaller, hfile⟩ := Prod.mk.inj heq
  obtain ⟨files, hfiles, hattributed⟩ := caller_declared_iff hproper hp
  obtain ⟨before, f, after, inside, rfl, hmakes, s, hs, hiff⟩ := hattributed call hcall
  have hown : s.file = call.file := by
    rw [hcaller] at hs
    rw [hs, Option.map_some] at hsymbol
    rw [hfile, Option.some.inj hsymbol]
  refine ⟨hproper, p, hp, call, hcall, hcaller, hfile, before, f, after, inside, hmakes, hfiles, ?_⟩
  rw [← hcaller]
  exact (hiff.mp hown).1

/-- The second call stands in a module, and is attributed to a function of another file. -/
theorem caller_declared_elsewhere :
    ∃ p, indexProject meeting ⟨"/", ["w"]⟩ {} = .ok p ∧ ∃ call ∈ p.calls, ∃ s,
      p.symbols.get? call.caller = some s ∧ s.file ≠ call.file := by
  obtain ⟨p, hp, hcalls, hsymbol⟩ := exists_project_meeting
  have hsecond : ("a.b", (⟨"", ["a", "b.py"]⟩ : Path)) ∈ p.calls.map fun c =>
      (c.caller, c.file) := by
    rw [hcalls]
    exact List.mem_cons_of_mem _ List.mem_cons_self
  obtain ⟨call, hcall, heq⟩ := List.mem_map.mp hsecond
  obtain ⟨hcaller, hfile⟩ := Prod.mk.inj heq
  obtain ⟨s, hs, hsfile⟩ := Option.map_eq_some_iff.mp hsymbol
  refine ⟨p, hp, call, hcall, s, hcaller ▸ hs, ?_⟩
  rw [hsfile, hfile]
  decide

end Project

end CallAtlas
