import CallAtlas.Proofs.Growth.Unfolding
import CallAtlas.Proofs.Integrity
import CallAtlas.Proofs.Text.Lines

/-!
# Items and the symbols they stand for

A project answers questions about items, and the items that it gives out are those of its symbols.
An item leads back to its symbol by its file and the offset of its name. What this module says about
that way back is shared by everything that follows a hierarchy through a project:

- every symbol comes from a source file of the project, and its name lies within the text of that
  file (`Project.exists_source_of_mem_values`);
- once the file of an item is found, every question about the item is answered
  (`Project.answers_of_relative`);
- what is related to a declaration is read off the recorded calls
  (`Project.exists_mem_relations_iff`), so that it is declared in the project again
  (`Project.declares_of_mem_expand`);
- so a project whose items are all found tells the facts that a hierarchy unfolds
  (`Project.tellsOf_resolver`).
-/

namespace CallAtlas

open Source Text

/-! ## Where symbols come from -/

section

variable {file : Path} {index : LineIndex} {s : Symbol}

mutual

/-- Every declaration is the symbol of a definition. -/
theorem exists_definition_of_mem_declarations {outer : List (String × SymbolKind)} :
    (tree : Node) → s ∈ declarations file index outer tree →
      ∃ inside head extent, s = definitionSymbol file index inside head extent
  | .name _ _, h => absurd h List.not_mem_nil
  | .imports _ _, h => absurd h List.not_mem_nil
  | .member receiver _ _, h => exists_definition_of_mem_declarations receiver h
  | .call callee arguments _, h => by
    rw [declarations, List.mem_append] at h
    rcases h with h | h
    · exact exists_definition_of_mem_declarations callee h
    · exact exists_definition_of_mem_declarationsOfAll arguments h
  | .definition head parts extent, h => by
    rw [declarations, List.mem_cons] at h
    rcases h with rfl | h
    · exact ⟨outer, head, extent, rfl⟩
    · exact exists_definition_of_mem_declarationsOfAll parts h
  | .other parts _, h => exists_definition_of_mem_declarationsOfAll parts h

theorem exists_definition_of_mem_declarationsOfAll {outer : List (String × SymbolKind)} :
    (trees : List Node) → s ∈ declarationsOfAll file index outer trees →
      ∃ inside head extent, s = definitionSymbol file index inside head extent
  | [], h => absurd h List.not_mem_nil
  | tree :: rest, h => by
    rw [declarationsOfAll, List.mem_append] at h
    rcases h with h | h
    · exact exists_definition_of_mem_declarations tree h
    · exact exists_definition_of_mem_declarationsOfAll rest h

end

end

namespace SourceFile

/-- The symbols of a file: that of the module and those of its definitions. -/
def HasSymbol (f : SourceFile) (s : Symbol) : Prop :=
  s = moduleSymbol f.path f.index ∨ s ∈ declarations f.path f.index [] f.tree

variable {f : SourceFile} {s : Symbol}

theorem HasSymbol.file_eq (h : f.HasSymbol s) : s.file = f.path := by
  rcases h with rfl | h
  · rfl
  · obtain ⟨inside, head, extent, rfl⟩ := exists_definition_of_mem_declarations f.tree h
    rfl

/-- The name of a symbol lies within the text of its file. -/
theorem HasSymbol.selectionStart_le (h : f.HasSymbol s) :
    s.selectionStart ≤ f.index.text.length := by
  rcases h with rfl | h
  · exact Nat.zero_le _
  · obtain ⟨inside, head, extent, rfl⟩ := exists_definition_of_mem_declarations f.tree h
    exact selectionOffset_le (f.index.offsetOf_le _ _) _ _

end SourceFile

theorem mem_entries_foldl_put {symbols : Table String Symbol} {added : List Symbol} {id : String}
    {s : Symbol} (h : (id, s) ∈ (added.foldl (fun t s => t.put s.id s) symbols).entries) :
    (id, s) ∈ symbols.entries ∨ s ∈ added := by
  induction added generalizing symbols with
  | nil => exact .inl h
  | cons first added ih =>
    rcases ih h with h | h
    · rcases Table.mem_entries_put.mp h with ⟨-, rfl⟩ | ⟨-, h⟩
      · exact .inr List.mem_cons_self
      · exact .inl h
    · exact .inr (List.mem_cons_of_mem _ h)

theorem mem_entries_addSymbols {symbols : Table String Symbol} {f : SourceFile} {id : String}
    {s : Symbol} (h : (id, s) ∈ (addSymbols symbols f).entries) :
    (id, s) ∈ symbols.entries ∨ f.HasSymbol s := by
  rcases mem_entries_foldl_put h with h | h
  · split at h
    next => exact .inl h
    next =>
      rcases Table.mem_entries_put.mp h with ⟨-, rfl⟩ | ⟨-, h⟩
      · exact .inr (.inl rfl)
      · exact .inl h
  · exact .inr (.inr h)

/-- A table that files were added to holds their symbols, and what it held before. -/
theorem mem_entries_foldl_addSymbols {symbols : Table String Symbol} {files : List SourceFile}
    {id : String} {s : Symbol} (h : (id, s) ∈ (files.foldl addSymbols symbols).entries) :
    (id, s) ∈ symbols.entries ∨ ∃ f ∈ files, f.HasSymbol s := by
  induction files generalizing symbols with
  | nil => exact .inl h
  | cons first files ih =>
    rcases ih h with h | ⟨f, hf, hs⟩
    · rcases mem_entries_addSymbols h with h | h
      · exact .inl h
      · exact .inr ⟨first, List.mem_cons_self, h⟩
    · exact .inr ⟨f, List.mem_cons_of_mem _ hf, hs⟩

theorem Path.join_of_relativeTo? {path base rel : Path} (h : path.relativeTo? base = some rel) :
    base.join rel = path := by
  unfold Path.relativeTo? at h
  split at h
  next hbelow =>
    cases h
    obtain ⟨hroot, hprefix⟩ := hbelow
    obtain ⟨rest, hrest⟩ := List.isPrefixOf_iff_prefix.mp hprefix
    obtain ⟨root, parts⟩ := path
    subst hrest
    cases hroot
    simp [Path.join, Path.isAbsolute]
  next => cases h

namespace Project

variable {fs : FileSystem} {root : Path} {config : ScanConfig} {p : Project} {s : Symbol}

theorem mem_values_iff : s ∈ p.symbols.values ↔ ∃ id, (id, s) ∈ p.symbols.entries := by
  simp [Table.values]

/-- Every symbol stands under its identifier. -/
theorem get?_id_of_mem_values (h : indexProject fs root config = .ok p)
    (hs : s ∈ p.symbols.values) : p.symbols.get? s.id = some s := by
  obtain ⟨-, -, files, -, hp⟩ := indexProject_eq_ok_iff.mp h
  obtain ⟨id, hid⟩ := mem_values_iff.mp hs
  have hkeyed : Keyed p.symbols := by
    rw [hp]
    exact keyed_symbols p.root files
  rw [hkeyed id s hid]
  exact Table.get?_eq_some_iff.mpr hid

theorem mem_values_of_get? {id : String} (h : p.symbols.get? id = some s) : s ∈ p.symbols.values :=
  mem_values_iff.mpr ⟨id, Table.get?_eq_some_iff.mp h⟩

/-- A symbol comes from a source file, under whose path its item is reported. -/
theorem exists_source_of_mem_values (h : indexProject fs root config = .ok p)
    (hs : s ∈ p.symbols.values) :
    ∃ path ∈ fs.sourceFiles config p.root, ∃ f, readSource fs p.root path = .ok f ∧
      f.HasSymbol s ∧ (p.itemOf s).file = path := by
  obtain ⟨-, -, files, hfiles, hp⟩ := indexProject_eq_ok_iff.mp h
  obtain ⟨id, hid⟩ := mem_values_iff.mp hs
  rw [hp] at hid
  rcases mem_entries_foldl_addSymbols hid with hid | ⟨f, hf, hsymbol⟩
  · cases hid
  · obtain ⟨path, hpath, hread⟩ := exists_related_of_mem hfiles.flip hf
    refine ⟨path, hpath, f, hread, hsymbol, ?_⟩
    rw [itemOf, hsymbol.file_eq]
    exact Path.join_of_relativeTo? (readSource_path_of_mem hpath hread).1

/-- Symbols whose items name the same file come from the same source file. -/
theorem exists_source_of_file_eq (h : indexProject fs root config = .ok p) {s' : Symbol}
    (hs : s ∈ p.symbols.values) (hs' : s' ∈ p.symbols.values)
    (hfile : (p.itemOf s).file = (p.itemOf s').file) :
    ∃ path ∈ fs.sourceFiles config p.root, ∃ f, readSource fs p.root path = .ok f ∧
      f.HasSymbol s ∧ f.HasSymbol s' := by
  obtain ⟨path, hpath, f, hread, hsymbol, hat⟩ := exists_source_of_mem_values h hs
  obtain ⟨path', -, f', hread', hsymbol', hat'⟩ := exists_source_of_mem_values h hs'
  obtain rfl : path' = path := by rw [← hat, ← hat', hfile]
  cases hread.symm.trans hread'
  exact ⟨path', hpath, f, hread, hsymbol, hsymbol'⟩

/-- The text of a source file is kept under its path. Should a path be listed twice, it is read
twice to the same. -/
theorem get?_sources (h : indexProject fs root config = .ok p) {path : Path} {f : SourceFile}
    (hpath : path ∈ fs.sourceFiles config p.root) (hread : readSource fs p.root path = .ok f) :
    p.sources.get? f.path = some f.index := by
  obtain ⟨-, -, files, hfiles, hp⟩ := indexProject_eq_ok_iff.mp h
  rw [hp]
  apply Table.get?_ofList
  · obtain ⟨f', hf', hread'⟩ := exists_related_of_mem hfiles hpath
    rw [hread] at hread'
    cases hread'
    exact List.mem_map_of_mem hf'
  · intro index hindex
    obtain ⟨f', hf', heq⟩ := List.mem_map.mp hindex
    obtain ⟨path', hpath', hread'⟩ := exists_related_of_mem hfiles.flip hf'
    have hfile : f'.path = f.path := congrArg Prod.fst heq
    have hsame : path' = path := by
      rw [← Path.join_of_relativeTo? (readSource_path_of_mem hpath' hread').1,
        ← Path.join_of_relativeTo? (readSource_path_of_mem hpath hread).1, hfile]
    rw [hsame, hread] at hread'
    cases hread'
    exact (congrArg Prod.snd heq).symm

/-! ## Questions about items -/

/-- The declarations related to one in a direction. -/
def expand (p : Project) (fs : FileSystem) : Direction → Item → Except LookupError (List Relation)
  | .outgoing => p.outgoing fs
  | .incoming => p.incoming fs

/-- Every question that a hierarchy asks about an item is answered. -/
structure Answers (p : Project) (fs : FileSystem) (item : Item) : Prop where
  expand : ∀ direction, ∃ relations, p.expand fs direction item = .ok relations
  start : ∃ place, p.lineColumn fs item.file item.spanStart = .ok place
  selection : ∃ place, p.lineColumn fs item.file item.selectionStart = .ok place

theorem symbolFor_of_relative {item : Item} {file : Path}
    (h : p.relative fs item.file = .ok file) :
    p.symbolFor fs item = match p.declaredAt? file item.selectionStart with
      | some s => .ok s
      | none => .error (.undeclared item.file item.selectionStart) := by
  rw [symbolFor, h]
  rfl

/-- Where the name of a symbol stands, a symbol is declared. -/
theorem exists_declaredAt? (hs : s ∈ p.symbols.values) :
    ∃ found, p.declaredAt? s.file s.selectionStart = some found := by
  apply Option.isSome_iff_exists.mp
  rw [declaredAt?, List.getLast?_isSome]
  exact List.ne_nil_of_mem (List.mem_filter.mpr ⟨hs, by simp⟩)

/-- The calls that relate a symbol in a direction. -/
def callsAt (p : Project) (s : Symbol) : Direction → List Call
  | .outgoing => p.calls.filter fun c => c.caller = s.id ∧ c.callee?.isSome
  | .incoming => p.calls.filter fun c => c.callee? = some s.id

/-- The symbol at the other end of a call. -/
def otherEnd : Direction → Call → Option String
  | .outgoing => Call.callee?
  | .incoming => fun c => some c.caller

theorem expand_of_symbolFor {item : Item} (h : p.symbolFor fs item = .ok s)
    (direction : Direction) :
    p.expand fs direction item =
      .ok (p.relations (otherEnd direction) (p.callsAt s direction)) := by
  cases direction with
  | outgoing =>
    rw [expand, outgoing, h]
    rfl
  | incoming =>
    rw [expand, incoming, h]
    rfl

/-- What is related to an item is related to the symbol that it stands for. -/
theorem exists_symbolFor_of_expand {direction : Direction} {item : Item} {relations : List Relation}
    (h : p.expand fs direction item = .ok relations) :
    ∃ s, p.symbolFor fs item = .ok s ∧
      relations = p.relations (otherEnd direction) (p.callsAt s direction) := by
  cases direction with
  | outgoing =>
    obtain ⟨s, hs, hrelations⟩ := bind_eq_ok_iff.mp h
    exact ⟨s, hs, (Except.ok.inj hrelations).symm⟩
  | incoming =>
    obtain ⟨s, hs, hrelations⟩ := bind_eq_ok_iff.mp h
    exact ⟨s, hs, (Except.ok.inj hrelations).symm⟩

theorem lineColumn_of_relative {name file : Path} {index : LineIndex}
    (hname : p.relative fs name = .ok file) (hindex : p.sources.get? file = some index)
    (offset : Int) :
    p.lineColumn fs name offset =
      .ok ⟨(index.lineAndCharacter offset).1, (index.lineAndCharacter offset).2⟩ := by
  rw [lineColumn, lineIndex, hname]
  simp only [bind, Except.bind, hindex]
  rfl

/-- **Questions about an item are answered** once its file is found. -/
theorem answers_of_relative (h : indexProject fs root config = .ok p) (hs : s ∈ p.symbols.values)
    (hfile : p.relative fs (p.itemOf s).file = .ok s.file) : p.Answers fs (p.itemOf s) := by
  obtain ⟨path, hpath, f, hread, hsymbol, -⟩ := exists_source_of_mem_values h hs
  obtain ⟨found, hfound⟩ := exists_declaredAt? hs
  have hsymbolFor : p.symbolFor fs (p.itemOf s) = .ok found := by
    rw [symbolFor_of_relative hfile]
    simp only [itemOf, hfound]
  have hindex : p.sources.get? s.file = some f.index := by
    rw [hsymbol.file_eq]
    exact get?_sources h hpath hread
  exact ⟨fun direction => ⟨_, expand_of_symbolFor hsymbolFor direction⟩,
    ⟨_, lineColumn_of_relative hfile hindex _⟩, ⟨_, lineColumn_of_relative hfile hindex _⟩⟩

/-! ## Relations -/

/-- The offsets of those calls that are located. -/
def located (calls : List Call) : List Int := calls.filterMap fun c => c.offset.map Int.ofNat

/-- What is related by a key: each key of a call that is known gives one relation, with all calls of
that key. -/
theorem relations_eq_filterMap (p : Project) (key : Call → Option String) (calls : List Call) :
    p.relations key calls = (Table.groupBy key calls).keys.filterMap fun k =>
      (k.bind p.symbols.get?).map fun s =>
        ⟨p.itemOf s, located (calls.filter fun c => key c = k)⟩ := by
  rw [relations, Table.keys, List.filterMap_map]
  refine List.filterMap_congr fun e he => ?_
  obtain ⟨k, group⟩ := e
  rw [Function.comp_apply, ← Table.eq_filter_of_mem_groupBy he]
  cases k with
  | none => rfl
  | some id =>
    show (p.symbols.get? id).bind _ = (p.symbols.get? id).map _
    cases p.symbols.get? id <;> rfl

/-- A related declaration is that of a call, by way of its key. -/
theorem exists_mem_relations_iff {key : Call → Option String} {calls : List Call} {item : Item} :
    (∃ relation ∈ p.relations key calls, relation.item = item) ↔
      ∃ call ∈ calls, ∃ id s, key call = some id ∧ p.symbols.get? id = some s ∧
      item = p.itemOf s := by
  rw [relations_eq_filterMap]
  constructor
  · rintro ⟨relation, hmem, rfl⟩
    obtain ⟨k, hk, hrelation⟩ := List.mem_filterMap.mp hmem
    obtain ⟨s, hs, rfl⟩ := Option.map_eq_some_iff.mp hrelation
    obtain ⟨id, rfl, hs⟩ := Option.bind_eq_some_iff.mp hs
    obtain ⟨call, hcall, hkey⟩ := Table.mem_keys_groupBy.mp hk
    exact ⟨call, hcall, id, s, hkey, hs, rfl⟩
  · rintro ⟨call, hcall, id, s, hkey, hs, rfl⟩
    refine ⟨⟨p.itemOf s, located (calls.filter fun c => key c = some id)⟩,
      List.mem_filterMap.mpr ⟨some id, Table.mem_keys_groupBy.mpr ⟨call, hcall, hkey⟩, ?_⟩, rfl⟩
    rw [Option.bind_some, hs, Option.map_some]

/-- The item of a declaration of the project. -/
def Declares (p : Project) (item : Item) : Prop := ∃ s ∈ p.symbols.values, item = p.itemOf s

theorem declares_of_mem_relations {key : Call → Option String} {calls : List Call}
    {relation : Relation} (h : relation ∈ p.relations key calls) : p.Declares relation.item := by
  obtain ⟨call, -, id, s, -, hs, hitem⟩ := exists_mem_relations_iff.mp ⟨relation, h, rfl⟩
  exact ⟨s, mem_values_of_get? hs, hitem⟩

theorem declares_of_mem_expand {direction : Direction} {item : Item} {relations : List Relation}
    {relation : Relation} (h : p.expand fs direction item = .ok relations)
    (hmem : relation ∈ relations) : p.Declares relation.item := by
  obtain ⟨s, -, rfl⟩ := exists_symbolFor_of_expand h
  exact declares_of_mem_relations hmem

theorem declares_of_mem_prepare {file : Path} {offset : Int} {items : List Item} {item : Item}
    (h : p.prepare fs file offset = .ok items) (hmem : item ∈ items) : p.Declares item := by
  obtain ⟨path, -, hitems⟩ := bind_eq_ok_iff.mp h
  split at hitems
  next call _ =>
    cases hitems
    obtain ⟨s, hs, rfl⟩ := List.mem_map.mp hmem
    obtain ⟨id, -, hid⟩ := List.mem_filterMap.mp hs
    exact ⟨s, mem_values_of_get? hid, rfl⟩
  next =>
    cases hitems
    obtain ⟨s, hs, rfl⟩ := Option.map_eq_some_iff.mp (Option.mem_toList.mp hmem)
    exact ⟨s, List.mem_of_mem_filter (List.mem_of_getLast? hs), rfl⟩

/-! ## The project as a resolver -/

/-- What a project tells in a file system; where it has no answer, nothing. -/
def facts (p : Project) (fs : FileSystem) : Facts where
  prepared file offset := (p.prepare fs file offset).toOption.getD []
  related direction item := (p.expand fs direction item).toOption.getD []
  place file offset := (p.lineColumn fs file offset).toOption.getD default

theorem related_facts {direction : Direction} {item : Item} {relations : List Relation}
    (h : p.expand fs direction item = .ok relations) :
    (p.facts fs).related direction item = relations := by
  simp only [facts, h]
  rfl

theorem place_facts {file : Path} {offset : Int} {place : LineColumn}
    (h : p.lineColumn fs file offset = .ok place) : (p.facts fs).place file offset = place := by
  simp only [facts, h]
  rfl

theorem prepare_resolver (p : Project) (fs : FileSystem) (file : Path) (offset : Int) :
    ((p.resolver fs).prepare file offset).run.run () =
      ((p.prepare fs file offset).mapError fun _ => .refused, ()) := rfl

theorem expand_resolver (p : Project) (fs : FileSystem) (direction : Direction) (item : Item)
    (state : Unit) :
    (((p.resolver fs).expand direction item).run.run state).1 =
      (p.expand fs direction item).mapError fun _ => .refused := by
  cases direction with
  | outgoing => rfl
  | incoming => rfl

theorem lineColumn_resolver (p : Project) (fs : FileSystem) (file : Path) (offset : Int)
    (state : Unit) :
    (((p.resolver fs).lineColumn file offset).run.run state).1 =
      (p.lineColumn fs file offset).mapError fun _ => .refused := rfl

/-- **A project tells its facts** about its declarations, if every question about them is
answered. -/
theorem tellsOf_resolver (h : ∀ s ∈ p.symbols.values, p.Answers fs (p.itemOf s)) :
    (p.resolver fs).TellsOf (p.facts fs) p.Declares where
  expand direction item state hitem := by
    obtain ⟨s, hs, rfl⟩ := hitem
    obtain ⟨relations, hrelations⟩ := (h s hs).expand direction
    rw [expand_resolver, related_facts hrelations, hrelations]
    rfl
  start item state hitem := by
    obtain ⟨s, hs, rfl⟩ := hitem
    obtain ⟨place, hplace⟩ := (h s hs).start
    rw [lineColumn_resolver, place_facts hplace, hplace]
    rfl
  selection item state hitem := by
    obtain ⟨s, hs, rfl⟩ := hitem
    obtain ⟨place, hplace⟩ := (h s hs).selection
    rw [lineColumn_resolver, place_facts hplace, hplace]
    rfl
  closed direction item hitem relation hrelation := by
    obtain ⟨s, hs, rfl⟩ := hitem
    obtain ⟨relations, hrelations⟩ := (h s hs).expand direction
    rw [related_facts hrelations] at hrelation
    exact declares_of_mem_expand hrelations hrelation

end Project

end CallAtlas
