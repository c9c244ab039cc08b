import CallAtlas.Project.Lookup
import CallAtlas.Proofs.Indexing
import Mathlib

/-!
# Call sites and recorded calls

Two walks over a syntax tree look for calls: `callSites` lists the places where a hierarchy may
start, `scanCalls` records what a project calls. They share no code beyond the location of a name.
The first keeps only calls whose name is located and knows the enclosing definitions as a container;
the second keeps all calls, follows imports and knows the enclosing definitions as a caller.

They agree (`forall₂_scanCalls`): the call sites correspond, one to one and in order, to the
recorded calls that have an offset. So a question about a call site of an indexed file finds a call
there (`callSites_recorded`).
-/

namespace CallAtlas

open Source Text

/-- A recorded call is the one at a call site of a module: its name stands where that of the site
does, and its caller is the module or, inside of definitions, the container in the module. -/
structure CallSite.Matches (module : String) (site : CallSite) (call : RawCall) : Prop where
  offset : call.offset.map Int.ofNat = some site.position.start
  caller : call.caller = match site.container with
    | none => module
    | some container => module ++ "." ++ container

/-- The dotted name of nested definitions in a module, by way of their container. -/
theorem intercalate_cons_eq (module : String) (context : List String) :
    ".".intercalate (module :: context) = match dotted? context with
      | none => module
      | some container => module ++ "." ++ container := by
  cases context with
  | nil => rfl
  | cons name rest => exact String.intercalate_cons_cons

/-! ## The two walks -/

section

variable (label file : Path) (index : LineIndex)

mutual

/-- **The two walks agree.** Induction on the tree: the enclosing definitions are the same on both
sides, and the imports, which only the record of calls follows, have no part in where a call stands
or who makes it. -/
theorem forall₂_scanCalls (context : List String) (aliases : Aliases) :
    (tree : Node) → List.Forall₂ (CallSite.Matches (moduleName file))
      (callSites label index context tree)
      ((scanCalls file index context aliases tree).calls.filter (·.offset.isSome))
  | .name _ _ => .nil
  | .member receiver _ _ => forall₂_scanCalls context aliases receiver
  | .call callee arguments extent => by
    have hcallee := forall₂_scanCalls context aliases callee
    have harguments := forall₂_scanCallsOfAll context
      (scanCalls file index context aliases callee).aliases arguments
    rw [callSites, scanCalls, List.filter_append, List.filter_cons]
    cases hlocated : locate? index callee with
    | none => exact List.rel_append hcallee harguments
    | some located =>
      have hown : (CallSite.ofLocated label index context located).Matches (moduleName file)
          { caller := ".".intercalate (moduleName file :: context)
            file := file
            place := extent.start
            offset := some located.offset
            raw := (spelledCallee? aliases callee).getD unknownCallee } :=
        ⟨rfl, intercalate_cons_eq (moduleName file) context⟩
      exact List.rel_append (.cons hown hcallee) harguments
  | .definition head parts _ => forall₂_scanCallsOfAll (context ++ [head.name]) aliases parts
  | .imports _ _ => .nil
  | .other parts _ => forall₂_scanCallsOfAll context aliases parts

theorem forall₂_scanCallsOfAll (context : List String) (aliases : Aliases) :
    (trees : List Node) → List.Forall₂ (CallSite.Matches (moduleName file))
      (callSitesOfAll label index context trees)
      ((scanCallsOfAll file index context aliases trees).calls.filter (·.offset.isSome))
  | [] => .nil
  | tree :: rest => by
    rw [callSitesOfAll, scanCallsOfAll, List.filter_append]
    exact List.rel_append (forall₂_scanCalls context aliases tree)
      (forall₂_scanCallsOfAll context (scanCalls file index context aliases tree).aliases rest)

end

/-- The call sites of a file correspond to its located calls. -/
theorem forall₂_callsOf (symbols : SymbolIndex) (tree : Node) :
    List.Forall₂ (fun site call => site.Matches (moduleName file) call.toRawCall)
      (callSites label index [] tree)
      ((callsOf symbols file index tree).filter (·.offset.isSome)) := by
  have hfilter : (callsOf symbols file index tree).filter (·.offset.isSome) =
      ((rawCalls file index tree).filter (·.offset.isSome)).map (RawCall.resolve symbols) := by
    rw [callsOf, List.filter_map]
    rfl
  rw [hfilter, List.forall₂_map_right_iff]
  exact forall₂_scanCalls label file index [] .empty tree

/-- Every call site of a file has its call. -/
theorem exists_call_of_mem_callSites (symbols : SymbolIndex) {tree : Node} {site : CallSite}
    (hsite : site ∈ callSites label index [] tree) :
    ∃ call ∈ callsOf symbols file index tree, site.Matches (moduleName file) call.toRawCall := by
  obtain ⟨call, hcall, hmatch⟩ :=
    exists_related_of_mem (forall₂_callsOf label file index symbols tree) hsite
  exact ⟨call, List.mem_of_mem_filter hcall, hmatch⟩

end

/-! ## Where a recorded call comes from -/

/-- The name that a node adds to the enclosing definitions of its parts. -/
def Source.Node.opens : Node → List String
  | .definition head _ _ => [head.name]
  | .name _ _ | .member _ _ _ | .call _ _ _ | .imports _ _ | .other _ _ => []

/-- A node lies in a tree, inside of definitions with the given names, the outermost first. -/
inductive Source.Node.Within (inner : Node) : List String → Node → Prop
  | here : Within inner [] inner
  | part {context inside : List String} {outer part : Node} :
    part ∈ outer.parts → Within inner context part → inside = outer.opens ++ context →
      Within inner inside outer

/-- A recorded call stands for a call of the callee in a file, inside of definitions with the given
names. -/
structure RawCall.Records (file : Path) (index : LineIndex) (context : List String) (callee : Node)
    (extent : Extent) (call : RawCall) : Prop where
  caller : call.caller = ".".intercalate (moduleName file :: context)
  file : call.file = file
  place : call.place = extent.start
  offset : call.offset = (locate? index callee).map Located.offset

section

variable {file : Path} {index : LineIndex} {call : RawCall}

mutual

/-- Every recorded call stands for a call in the tree. -/
theorem exists_within_of_mem_scanCalls {context : List String} {aliases : Aliases} :
    (tree : Node) → call ∈ (scanCalls file index context aliases tree).calls →
      ∃ inside callee arguments extent, (Node.call callee arguments extent).Within inside tree ∧
        call.Records file index (context ++ inside) callee extent
  | .name _ _, h => absurd h List.not_mem_nil
  | .member receiver _ _, h => by
    obtain ⟨inside, callee, arguments, extent, hwithin, hrecords⟩ :=
      exists_within_of_mem_scanCalls receiver h
    exact ⟨inside, callee, arguments, extent, .part List.mem_cons_self hwithin rfl, hrecords⟩
  | .call callee arguments extent, h => by
    rw [scanCalls, List.mem_append, List.mem_cons] at h
    rcases h with (rfl | h) | h
    · exact ⟨[], callee, arguments, extent, .here, by rw [List.append_nil], rfl, rfl, rfl⟩
    · obtain ⟨inside, callee', arguments', extent', hwithin, hrecords⟩ :=
        exists_within_of_mem_scanCalls callee h
      exact ⟨inside, callee', arguments', extent', .part List.mem_cons_self hwithin rfl, hrecords⟩
    · obtain ⟨part, hpart, inside, callee', arguments', extent', hwithin, hrecords⟩ :=
        exists_within_of_mem_scanCallsOfAll arguments h
      exact ⟨inside, callee', arguments', extent', .part (List.mem_cons_of_mem _ hpart) hwithin rfl,
        hrecords⟩
  | .definition head parts _, h => by
    obtain ⟨part, hpart, inside, callee, arguments, extent, hwithin, hrecords⟩ :=
      exists_within_of_mem_scanCallsOfAll parts h
    rw [List.append_assoc] at hrecords
    exact ⟨head.name :: inside, callee, arguments, extent, .part hpart hwithin rfl, hrecords⟩
  | .imports _ _, h => absurd h List.not_mem_nil
  | .other parts _, h => by
    obtain ⟨part, hpart, inside, callee, arguments, extent, hwithin, hrecords⟩ :=
      exists_within_of_mem_scanCallsOfAll parts h
    exact ⟨inside, callee, arguments, extent, .part hpart hwithin rfl, hrecords⟩

theorem exists_within_of_mem_scanCallsOfAll {context : List String} {aliases : Aliases} :
    (trees : List Node) → call ∈ (scanCallsOfAll file index context aliases trees).calls →
      ∃ tree ∈ trees, ∃ inside callee arguments extent,
        (Node.call callee arguments extent).Within inside tree ∧
          call.Records file index (context ++ inside) callee extent
  | [], h => absurd h List.not_mem_nil
  | tree :: rest, h => by
    rw [scanCallsOfAll, List.mem_append] at h
    rcases h with h | h
    · exact ⟨tree, List.mem_cons_self, exists_within_of_mem_scanCalls tree h⟩
    · obtain ⟨tree', htree', hrest⟩ := exists_within_of_mem_scanCallsOfAll rest h
      exact ⟨tree', List.mem_cons_of_mem _ htree', hrest⟩

end

end

/-- What is recorded for a tree of a list is recorded for the list. -/
theorem scanCalls_subset_of_mem {file : Path} {index : LineIndex} {context : List String}
    {trees : List Node} {tree : Node} (h : tree ∈ trees) (aliases : Aliases) :
    ∃ known, (scanCalls file index context known tree).calls ⊆
      (scanCallsOfAll file index context aliases trees).calls := by
  induction trees generalizing aliases with
  | nil => cases h
  | cons first rest ih =>
    rw [scanCallsOfAll]
    rcases List.mem_cons.mp h with rfl | h
    · exact ⟨aliases, List.subset_append_left _ _⟩
    · obtain ⟨known, hsubset⟩ := ih h (scanCalls file index context aliases first).aliases
      exact ⟨known, List.subset_append_of_subset_right _ hsubset⟩

/-- What is recorded for a part of a tree is recorded for the tree. -/
theorem scanCalls_subset_of_mem_parts {file : Path} {index : LineIndex} {tree part : Node}
    (h : part ∈ tree.parts) (context : List String) (aliases : Aliases) :
    ∃ known, (scanCalls file index (context ++ tree.opens) known part).calls ⊆
      (scanCalls file index context aliases tree).calls := by
  cases tree with
  | name => cases h
  | imports => cases h
  | member receiver id extent =>
    obtain rfl := List.mem_singleton.mp h
    refine ⟨aliases, ?_⟩
    rw [Node.opens, List.append_nil, scanCalls]
    exact List.Subset.refl _
  | call callee arguments extent =>
    rw [Node.opens, List.append_nil, scanCalls]
    rcases List.mem_cons.mp h with rfl | h
    · exact ⟨aliases, List.subset_append_of_subset_left _ (List.subset_cons_self _ _)⟩
    · obtain ⟨known, hsubset⟩ :=
        scanCalls_subset_of_mem h (scanCalls file index context aliases callee).aliases
      exact ⟨known, List.subset_append_of_subset_right _ hsubset⟩
  | definition head parts extent =>
    rw [Node.opens, scanCalls]
    exact scanCalls_subset_of_mem h aliases
  | other parts extent =>
    rw [Node.opens, List.append_nil, scanCalls]
    exact scanCalls_subset_of_mem h aliases

/-- Every call in a tree is recorded. -/
theorem exists_mem_scanCalls_of_within {file : Path} {index : LineIndex} {tree callee : Node}
    {arguments : List Node} {extent : Extent} {inside : List String}
    (h : (Node.call callee arguments extent).Within inside tree) (context : List String)
    (aliases : Aliases) :
    ∃ call ∈ (scanCalls file index context aliases tree).calls,
      call.Records file index (context ++ inside) callee extent := by
  induction h generalizing context aliases with
  | here =>
    rw [scanCalls, List.append_nil]
    exact ⟨_, List.mem_append_left _ List.mem_cons_self, rfl, rfl, rfl, rfl⟩
  | part hpart _ hinside ih =>
    subst hinside
    obtain ⟨known, hsubset⟩ := scanCalls_subset_of_mem_parts hpart context aliases
    obtain ⟨call, hcall, hrecords⟩ := ih (context ++ _) known
    rw [List.append_assoc] at hrecords
    exact ⟨call, hsubset hcall, hrecords⟩

theorem exists_mem_callsOf_of_within {symbols : SymbolIndex} {file : Path} {index : LineIndex}
    {tree callee : Node} {arguments : List Node} {extent : Extent} {inside : List String}
    (h : (Node.call callee arguments extent).Within inside tree) :
    ∃ call ∈ callsOf symbols file index tree, call.Records file index inside callee extent := by
  obtain ⟨raw, hraw, hrecords⟩ := exists_mem_scanCalls_of_within h [] .empty
  exact ⟨raw.resolve symbols, List.mem_map_of_mem hraw, hrecords⟩

theorem exists_within_of_mem_callsOf {symbols : SymbolIndex} {file : Path} {index : LineIndex}
    {tree : Node} {call : Call} (h : call ∈ callsOf symbols file index tree) :
    ∃ inside callee arguments extent, (Node.call callee arguments extent).Within inside tree ∧
      call.Records file index inside callee extent := by
  obtain ⟨raw, hraw, rfl⟩ := List.mem_map.mp h
  exact exists_within_of_mem_scanCalls tree hraw

/-! ## Call sites of an indexed project -/

theorem callSitesIn_eq_ok {fs : FileSystem} {path : Path} {text : List Char} {tree : Node}
    (htext : fs.readText path = .ok text) (htree : parseModule text = .ok tree)
    (line : Option Int) :
    ∃ sites, fs.callSitesIn line path = .ok sites ∧
      sites ⊆ callSites path (.ofText text) [] tree := by
  refine ⟨_, bind_eq_ok_iff.mpr ⟨text, mapError_eq_ok_iff.mpr htext,
    mapError_eq_ok_iff.mpr (bind_eq_ok_iff.mpr ⟨tree, htree, rfl⟩)⟩, ?_⟩
  cases line with
  | none => exact fun site h => h
  | some l => exact List.filter_sublist.subset

namespace Project

variable {p : Project} {fs : FileSystem}

/-- The calls of a file that is not a stub are calls of the project. -/
theorem callsOf_subset_calls {root : Path} {files : List SourceFile} {f : SourceFile}
    (hf : f ∈ files) (hsuffix : f.path.suffix = sourceSuffix) :
    callsOf (symbolIndex (projectOf root files).symbols.values) f.path f.index f.tree ⊆
      (projectOf root files).calls := by
  intro call hcall
  refine List.mem_flatMap.mpr ⟨f, List.mem_filter.mpr ⟨hf, ?_⟩, hcall⟩
  simp [hsuffix]

/-- What names an indexed file in a question: its path from the root, or an absolute path that leads
to it. -/
def Names (fs : FileSystem) (path indexed name : Path) : Prop :=
  name = indexed ∨ name.isAbsolute = true ∧ fs.resolve name = .ok path

theorem relative_of_names {path indexed name : Path}
    (hpath : path.relativeTo? p.root = some indexed)
    (hindexed : indexed.isAbsolute = false) (hname : Names fs path indexed name) :
    p.relative fs name = .ok indexed := by
  rcases hname with rfl | ⟨habsolute, hresolve⟩
  · simp [relative, hindexed]
  · simp [relative, habsolute, hresolve, hpath]

theorem prepare_of_callAt? {file name : Path} {offset : Int} {call : Call}
    (hname : p.relative fs name = .ok file) (hcall : p.callAt? file offset = some call) :
    p.prepare fs name offset = .ok ((call.candidates.filterMap p.symbols.get?).map p.itemOf) := by
  rw [prepare, hname]
  simp only [bind, Except.bind, hcall]
  rfl

/-- A recorded call is found at its offset, or one before it that stands at the same place. -/
theorem exists_callAt? {call : Call} {offset : Int} (hmem : call ∈ p.calls)
    (hoffset : call.offset.map Int.ofNat = some offset) :
    ∃ found ∈ p.calls, found.file = call.file ∧ found.offset.map Int.ofNat = some offset ∧
      p.callAt? call.file offset = some found := by
  have hsome : (p.callAt? call.file offset).isSome = true := by
    rw [callAt?, List.find?_isSome]
    exact ⟨call, hmem, by simpa using hoffset⟩
  obtain ⟨found, hfound⟩ := Option.isSome_iff_exists.mp hsome
  have hprop := List.find?_some hfound
  rw [decide_eq_true_iff] at hprop
  exact ⟨found, List.mem_of_find?_eq_some hfound, hprop.1, hprop.2, hfound⟩

/-- A question at an offset of an indexed file, under any of its names, finds a recorded call there:
the answer is the declarations of its candidates. -/
def FindsCall (p : Project) (fs : FileSystem) (path indexed : Path) (offset : Int) : Prop :=
  ∃ call ∈ p.calls, call.file = indexed ∧ call.offset.map Int.ofNat = some offset ∧
    ∀ name, Names fs path indexed name →
      p.prepare fs name offset = .ok ((call.candidates.filterMap p.symbols.get?).map p.itemOf)

/-- **Call sites are recorded calls**: in every syntax tree the call sites correspond to the located
calls, one to one and in order. So every source file of an indexed project has call sites, on a line
or on all of them, and at each of them the project finds a call. -/
theorem callSites_recorded :
    (∀ (label file : Path) (index : LineIndex) (symbols : SymbolIndex) (tree : Node),
      List.Forall₂ (fun site call => site.Matches (moduleName file) call.toRawCall)
        (callSites label index [] tree)
        ((callsOf symbols file index tree).filter (·.offset.isSome))) ∧
    ∀ (fs : FileSystem) (root : Path) (config : ScanConfig) (p : Project),
      indexProject fs root config = .ok p → ∀ path ∈ fs.sourceFiles config p.root,
        ∃ f, readSource fs p.root path = .ok f ∧ (f.path.suffix = sourceSuffix → ∀ line,
          ∃ sites, fs.callSitesIn line path = .ok sites ∧
            ∀ site ∈ sites, p.FindsCall fs path f.path site.position.start) := by
  refine ⟨forall₂_callsOf, ?_⟩
  intro fs root config p hindexed path hpath
  obtain ⟨-, -, files, hfiles, hp⟩ := indexProject_eq_ok_iff.mp hindexed
  obtain ⟨f, hf, hread⟩ := exists_related_of_mem hfiles hpath
  obtain ⟨text, htext, htree, hindex, -⟩ := readSource_eq_ok_iff.mp hread
  obtain ⟨hrelative, habsolute⟩ := readSource_path_of_mem hpath hread
  refine ⟨f, hread, fun hsuffix line => ?_⟩
  obtain ⟨sites, hsites, hsubset⟩ := callSitesIn_eq_ok htext htree line
  refine ⟨sites, hsites, fun site hsite => ?_⟩
  -- the call of the site is recorded for the file, hence for the project
  have hsite' : site ∈ callSites path f.index [] f.tree := hindex ▸ hsubset hsite
  obtain ⟨call, hcall, hmatch⟩ := exists_call_of_mem_callSites path f.path f.index
    (symbolIndex p.symbols.values) hsite'
  have hfile : call.file = f.path := by
    obtain ⟨_, _, _, _, -, hrecords⟩ := exists_within_of_mem_callsOf hcall
    exact hrecords.file
  have hmem : call ∈ p.calls := by
    rw [hp] at hcall ⊢
    exact callsOf_subset_calls hf hsuffix hcall
  obtain ⟨found, hfound, hfile', hoffset, hat⟩ := exists_callAt? hmem hmatch.offset
  rw [hfile] at hfile' hat
  exact ⟨found, hfound, hfile', hoffset, fun name hname =>
    prepare_of_callAt? (relative_of_names hrelative habsolute hname) hat⟩

/-- A directory with one file: `g` is called in a method, where the result is called as well, and
outside of it. -/
def twoCalls : FileSystem where
  entries := [("w", .directory
    [("a.py", .file "class A:\n    def f(self):\n        return g()()\ng()\n".toUTF8)])]

/-- The call of a result has no name and is no call site; the other two calls are found. -/
theorem callSites_recorded_twoCalls :
    ∃ p f sites, indexProject twoCalls ⟨"/", ["w"]⟩ {} = .ok p ∧
      readSource twoCalls p.root ⟨"/", ["w", "a.py"]⟩ = .ok f ∧ f.path = ⟨"", ["a.py"]⟩ ∧
      twoCalls.callSitesIn none ⟨"/", ["w", "a.py"]⟩ = .ok sites ∧
      sites.map (fun s => (s.called, s.container)) = [("g", some "A.f"), ("g", none)] ∧
      ∀ site ∈ sites, p.FindsCall twoCalls ⟨"/", ["w", "a.py"]⟩ f.path site.position.start := by
  have hfiles : twoCalls.sourceFiles {} ⟨"/", ["w"]⟩ = [⟨"/", ["w", "a.py"]⟩] := by decide +kernel
  have hread : ((twoCalls.sourceFiles {} ⟨"/", ["w"]⟩).mapM
      (readSource twoCalls ⟨"/", ["w"]⟩)).isOk = true := by decide +kernel
  obtain ⟨files, hread⟩ := exists_eq_ok_of_isOk hread
  have hp : indexProject twoCalls ⟨"/", ["w"]⟩ {} = .ok (projectOf ⟨"/", ["w"]⟩ files) :=
    indexProject_of_mapM (by cbv) (by decide +kernel) hread
  have hpath : (⟨"/", ["w", "a.py"]⟩ : Path) ∈ twoCalls.sourceFiles {} ⟨"/", ["w"]⟩ := by
    rw [hfiles]
    exact List.mem_singleton_self _
  obtain ⟨f, hf, hsites⟩ := callSites_recorded.2 twoCalls ⟨"/", ["w"]⟩ {} _ hp _ hpath
  have hrelative : f.path = ⟨"", ["a.py"]⟩ :=
    (Option.some.inj (readSource_path_of_mem hpath hf).1).symm
  obtain ⟨sites, hin, hfound⟩ := hsites (by rw [hrelative]; decide +kernel) none
  refine ⟨_, f, sites, hp, hf, hrelative, hin, ?_, hfound⟩
  have hnames : (twoCalls.callSitesIn none ⟨"/", ["w", "a.py"]⟩).map
      (·.map fun s => (s.called, s.container)) = .ok [("g", some "A.f"), ("g", none)] := by
    decide +kernel
  rw [hin] at hnames
  exact Except.ok.inj hnames

end Project

end CallAtlas
