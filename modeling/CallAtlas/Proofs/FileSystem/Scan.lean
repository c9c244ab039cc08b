import CallAtlas.Proofs.FileSystem.Ways
import Mathlib

/-!
# What a scan finds

A scan that does not follow links finds exactly the source files below a directory: regular files
whose names end as those of source files do, in directories of which none is a link and none has an
excluded name (`FileSystem.IsSource`). Each is found once, and the order is that of `ScannedBefore`:
the files of a directory by name, then what lies in its subdirectories, one after the other, by
name.

Membership and order together leave only one list, and both can be told from the faces of a file
system. So it does not matter in which order directories list their entries
(`FileSystem.sourceFiles_exact`).
-/

namespace CallAtlas

/-! ## Names -/

theorem endsWith_iff {text ending : String} :
    text.endsWith ending = true ↔ ending.toList <:+ text.toList := by
  rw [String.endsWith_eq_endsWith_toSlice, String.Slice.endsWith_string_iff, String.copy_toSlice]

/-- What a name of a source file ends in: stubs have an ending of their own. -/
theorem ScanConfig.isSourceName_iff {config : ScanConfig} {name : String} :
    config.isSourceName name = true ↔
    ".py".toList <:+ name.toList ∨ config.includeStubs = true ∧ ".pyi".toList <:+ name.toList := by
  rw [isSourceName, Bool.or_eq_true, Bool.and_eq_true, endsWith_iff, endsWith_iff]

/-- Distinct names are sorted strictly. -/
theorem pairwise_sortNames {names : List String} (h : names.Nodup) :
    (sortNames names).Pairwise (· < ·) := by
  have hsorted : (sortNames names).Pairwise fun a b => (!decide (b < a)) = true := by
    refine List.pairwise_mergeSort (fun a b c hab hbc => ?_) (fun a b => ?_) names
    · rw [Bool.not_eq_true', decide_eq_false_iff_not, String.not_lt] at hab hbc ⊢
      exact String.le_trans hab hbc
    · rw [Bool.or_eq_true, Bool.not_eq_true', Bool.not_eq_true', decide_eq_false_iff_not,
        decide_eq_false_iff_not, String.not_lt, String.not_lt]
      exact String.le_total a b
  have hnodup : (sortNames names).Nodup := (List.mergeSort_perm names _).nodup_iff.mpr h
  refine (hsorted.and hnodup).imp fun {a b} hab => ?_
  obtain ⟨hle, hne⟩ := hab
  rw [Bool.not_eq_true', decide_eq_false_iff_not, String.not_lt] at hle
  by_contra hnot
  exact hne (String.le_antisymm hle (String.not_lt.mp hnot))

/-! ## The order of a scan -/

/-- The names of one file come before those of another: in one directory files by name, then
subdirectories by name. -/
inductive ScannedBefore : List String → List String → Prop
  | files {a b : String} (h : a < b) : ScannedBefore [a] [b]
  | file {a d : String} {rest : List String} (h : rest ≠ []) : ScannedBefore [a] (d :: rest)
  | directories {d d' : String} {rest rest' : List String} (h : d < d') (hrest : rest ≠ [])
      (hrest' : rest' ≠ []) :
      ScannedBefore (d :: rest) (d' :: rest')
  | inside (d : String) {rest rest' : List String} (h : ScannedBefore rest rest') :
      ScannedBefore (d :: rest) (d :: rest')

namespace ScannedBefore

variable {names names' : List String}

theorem ne_nil (h : ScannedBefore names names') : names ≠ [] ∧ names' ≠ [] := by
  cases h with
  | files | file | directories | inside => exact ⟨List.cons_ne_nil _ _, List.cons_ne_nil _ _⟩

theorem append (above : List String) (h : ScannedBefore names names') :
    ScannedBefore (above ++ names) (above ++ names') := by
  induction above with
  | nil => exact h
  | cons d above ih => exact .inside d ih

theorem asymm (h : ScannedBefore names names') : ¬ScannedBefore names' names := by
  induction h with
  | files h =>
    intro h'
    cases h' with
    | files h' => exact String.lt_asymm h h'
    | file hrest => exact hrest rfl
    | directories _ hrest => exact hrest rfl
    | inside _ h' => exact h'.ne_nil.1 rfl
  | file hrest =>
    intro h'
    cases h' with
    | files => exact hrest rfl
    | file hrest' => exact hrest' rfl
    | directories _ _ hrest' => exact hrest' rfl
    | inside _ h' => exact h'.ne_nil.2 rfl
  | directories h hrest hrest' =>
    intro h'
    cases h' with
    | files => exact hrest rfl
    | file => exact hrest' rfl
    | directories h' => exact String.lt_asymm h h'
    | inside => exact String.lt_irrefl _ h
  | inside d h ih =>
    intro h'
    cases h' with
    | files h' => exact String.lt_irrefl _ h'
    | file => exact h.ne_nil.2 rfl
    | directories h' => exact String.lt_irrefl _ h'
    | inside _ h' => exact ih h'

end ScannedBefore

namespace Entry

theorem depth_le_of_mem {entries : List (String × Entry)} {name : String} {e : Entry}
    (h : (name, e) ∈ entries) :
    e.depth ≤ depthOfAll entries := by
  induction entries with
  | nil => cases h
  | cons first rest ih =>
    rw [depthOfAll]
    rcases List.mem_cons.mp h with rfl | h
    · exact Nat.le_max_left _ _
    · exact Nat.le_trans (ih h) (Nat.le_max_right _ _)

/-- What is found inside of an entry is no deeper than the entry. -/
theorem depth_le_of_descend? {e inner : Entry} {names : List String}
    (h : e.descend? names = some inner) :
    inner.depth ≤ e.depth := by
  refine le_of_descend? (fun entries name e hmem => ?_) h
  rw [depth]
  exact Nat.le_succ_of_le (depth_le_of_mem hmem)

end Entry

namespace FileSystem

variable {fs : FileSystem} {config : ScanConfig} {entries : List (String × Entry)}

/-- **A scan goes in order.** Induction on its depth: in a directory files come first, by name, then
the subdirectories. -/
theorem pairwise_sourceFilesFrom (hproper : fs.Proper) (config : ScanConfig) (fuel : Nat)
    (directory : Path) :
    (fs.sourceFilesFrom config fuel directory).Pairwise fun p q =>
      ScannedBefore p.parts q.parts := by
  induction fuel generalizing directory with
  | zero => exact .nil
  | succ fuel ih =>
    rw [sourceFilesFrom]
    split
    next entries hentry =>
      have hnodup : (entries.map Prod.fst).Nodup := by
        unfold entry? at hentry
        split at hentry
        next place _ =>
          exact ((Entry.isWellNamed_directory entries).mp
            (Entry.isWellNamed_of_descend? hentry hproper.named)).1
        next => cases hentry
      have hsorted (p q : String × Entry → Bool) :
          (sortNames (((entries.filter p).filter q).map Prod.fst)).Pairwise (· < ·) :=
        pairwise_sortNames (hnodup.sublist ((List.filter_sublist.trans List.filter_sublist).map _))
      have hfiles : (fs.listing config directory entries).1.Pairwise (· < ·) := by
        rw [listing_eq]
        exact hsorted _ _
      have hdirectories : (fs.listing config directory entries).2.Pairwise (· < ·) := by
        rw [listing_eq]
        exact hsorted _ _
      -- what lies below a name goes on after that name
      have hbelow {name : String} {path : Path}
          (h : path ∈ fs.sourceFilesFrom config fuel (directory.child name)) :
          ∃ names, names ≠ [] ∧ path.parts = directory.parts ++ name :: names := by
        obtain ⟨names, hne, rfl, -⟩ := hproper.names_of_mem_sourceFilesFrom h
        exact ⟨names, hne, by simp [Path.child]⟩
      refine List.pairwise_append.mpr ⟨?_, List.pairwise_flatMap.mpr ⟨fun name _ => ih _, ?_⟩, ?_⟩
      · exact List.pairwise_map.mpr (hfiles.imp fun h => .append _ (.files h))
      · refine hdirectories.imp fun {name name'} hlt path hpath path' hpath' => ?_
        obtain ⟨names, hne, hparts⟩ := hbelow hpath
        obtain ⟨names', hne', hparts'⟩ := hbelow hpath'
        rw [hparts, hparts']
        exact .append _ (.directories hlt hne hne')
      · intro file hfile path hpath
        obtain ⟨name, -, rfl⟩ := List.mem_map.mp hfile
        obtain ⟨name', -, hpath⟩ := List.mem_flatMap.mp hpath
        obtain ⟨names, hne, hparts⟩ := hbelow hpath
        rw [hparts]
        exact .append _ (.file hne)
    next => exact .nil

/-! ## What is found -/

/-- From a place, these directories and this name lead to a source file that is not passed over: a
regular file with the ending of one, in directories, none of them a link, that have no excluded
name. -/
structure IsSource (fs : FileSystem) (config : ScanConfig) (place directories : List String)
    (name : String) : Prop where
  ending : ".py".toList <:+ name.toList ∨ config.includeStubs = true ∧ ".pyi".toList <:+ name.toList
  included : ∀ directory ∈ directories, directory ∉ config.exclude
  file : ∃ content, fs.faces (place ++ directories ++ [name]) = some (.file content)

theorem IsSource.isDirectory {place directories : List String} {name : String}
    (h : fs.IsSource config place directories name) : fs.faces place = some .directory := by
  obtain ⟨content, hfile⟩ := h.file
  rw [List.append_assoc] at hfile
  have hne : directories ++ [name] ≠ [] :=
    List.append_ne_nil_of_right_ne_nil _ (List.cons_ne_nil _ _)
  exact faces_above hne (by rw [hfile]; exact Option.some_ne_none _)

theorem isSource_cons_iff {place directories : List String} {name d : String} :
    fs.IsSource config place (d :: directories) name ↔
      d ∉ config.exclude ∧ fs.IsSource config (place ++ [d]) directories name := by
  have hplace : place ++ d :: directories ++ [name] = place ++ [d] ++ directories ++ [name] := by
    simp
  constructor
  · rintro ⟨hending, hincluded, hfile⟩
    obtain ⟨hd, hdirectories⟩ := List.forall_mem_cons.mp hincluded
    exact ⟨hd, hending, hdirectories, hplace ▸ hfile⟩
  · rintro ⟨hd, hending, hdirectories, hfile⟩
    exact ⟨hending, List.forall_mem_cons.mpr ⟨hd, hdirectories⟩, hplace ▸ hfile⟩

/-- What a directory lists is what stands below it. -/
theorem Proper.mem_entries_iff (hproper : fs.Proper) {place : List String}
    (hentries : fs.entryAt? place = some (.directory entries)) {name : String} {e : Entry} :
    (name, e) ∈ entries ↔ fs.entryAt? (place ++ [name]) = some e := by
  have hnamed := Entry.isWellNamed_of_descend? hentries hproper.named
  rw [entryAt?_child hentries]
  exact ⟨Entry.lookup?_of_mem ((Entry.isWellNamed_directory entries).mp hnamed).1,
    Entry.mem_of_lookup?⟩

/-- The files of a listing, where links are not followed, are the source files in the directory
itself. -/
theorem mem_listing_files_iff (hproper : fs.Proper) (hconfig : config.followLinks = false)
    {place : List String}
    (hentries : fs.entryAt? place = some (.directory entries)) (directory : Path) {name : String} :
    name ∈ (fs.listing config directory entries).1 ↔ fs.IsSource config place [] name := by
  rw [listing_eq, sortNames, List.mem_mergeSort]
  simp only [List.mem_map, List.mem_filter, hconfig, Bool.false_or, Bool.and_eq_true,
    Bool.not_eq_true', ScanConfig.isSourceName_iff]
  constructor
  · rintro ⟨⟨name, e⟩, ⟨⟨hmem, hcounts⟩, hending, hlink⟩, rfl⟩
    refine ⟨hending, List.forall_mem_nil _, ?_⟩
    rw [List.append_nil]
    cases e with
    | file content =>
      exact ⟨content, faces_eq_file_iff.mpr ((hproper.mem_entries_iff hentries).mp hmem)⟩
    | link target => cases hlink
    | directory inner => cases hcounts
  · rintro ⟨hending, -, content, hfile⟩
    rw [List.append_nil] at hfile
    exact ⟨_, ⟨⟨(hproper.mem_entries_iff hentries).mpr (faces_eq_file_iff.mp hfile), rfl⟩,
      hending, rfl⟩, rfl⟩

/-- The directories of a listing, where links are not followed. -/
theorem mem_listing_directories_iff (hproper : fs.Proper) (hconfig : config.followLinks = false)
    {place : List String}
    (hentries : fs.entryAt? place = some (.directory entries)) (directory : Path) {name : String} :
    name ∈ (fs.listing config directory entries).2 ↔
      name ∉ config.exclude ∧ fs.faces (place ++ [name]) = some .directory := by
  rw [listing_eq]
  dsimp only
  rw [sortNames, List.mem_mergeSort]
  simp only [List.mem_map, List.mem_filter, hconfig, Bool.false_or, Bool.and_eq_true,
    Bool.not_eq_true', List.contains_eq_mem, decide_eq_false_iff_not]
  constructor
  · rintro ⟨⟨name, e⟩, ⟨⟨hmem, hcounts⟩, hname, hlink⟩, rfl⟩
    refine ⟨hname, ?_⟩
    cases e with
    | file content => cases hcounts
    | link target => cases hlink
    | directory inner =>
      exact faces_eq_directory_iff.mpr ⟨inner, (hproper.mem_entries_iff hentries).mp hmem⟩
  · rintro ⟨hname, hface⟩
    obtain ⟨inner, hinner⟩ := faces_eq_directory_iff.mp hface
    exact ⟨_, ⟨⟨(hproper.mem_entries_iff hentries).mpr hinner, rfl⟩, hname, rfl⟩, rfl⟩

/-- What lies in a directory and is no link is where the path of the directory leads with one more
name. -/
theorem find_child (hproper : fs.Proper) {directory : Path} {place : List String}
    {name : String} {face : Face}
    (hfind : fs.find directory = .ok place) (hface : fs.faces (place ++ [name]) = some face)
    (hlink : ∀ target, face ≠ .link target) :
    fs.find (directory.child name) = .ok (place ++ [name]) := by
  obtain ⟨e, he, -⟩ := Option.map_eq_some_iff.mp hface
  have hname : isFileName name = true :=
    Entry.isFileName_of_descend? he hproper.named name (by simp)
  have hdirectory : fs.faces place = some .directory :=
    faces_above (List.cons_ne_nil _ _) (by rw [hface]; exact Option.some_ne_none _)
  have hnames : (directory.child name).checkNames = .ok () := by
    refine checkNames_eq_ok_iff.mpr fun part hpart => ?_
    rcases List.mem_append.mp hpart with hpart | hpart
    · exact checkNames_eq_ok_iff.mp (checkNames_of_find hfind) part hpart
    · rw [List.mem_singleton.mp hpart]
      exact isFileName_no_null hname
  have hway : fs.findFrom (linkLimit + 1) (fs.startOf directory) directory.parts = .ok place := by
    rw [find, checkNames_of_find hfind] at hfind
    exact hfind
  obtain ⟨fuel, hmore⟩ := findFrom_append hway
  have hstep : fs.advance place [name] = .arrived (place ++ [name]) := by
    rw [advance_of_face hdirectory (isFileName_ne_parent hname) hface hlink]
    rfl
  rw [find, hnames]
  exact (hmore [name]).trans (findFrom_of_arrived fuel hstep)

/-- Where no directory is, there is nothing below. -/
theorem sourceFilesFrom_of_not_directory (fuel : Nat) {directory : Path}
    (h : ∀ entries, fs.entry? directory ≠ some (.directory entries)) :
    fs.sourceFilesFrom config fuel directory = [] := by
  cases fuel with
  | zero => rfl
  | succ fuel =>
    rw [sourceFilesFrom]
    split
    next entries hentry => exact absurd hentry (h entries)
    next => rfl

/-- **A scan finds the source files below a place**, if it may go as deep as the entry there.
Induction on that depth: a source file lies in the directory itself or below one of the directories
listed there. -/
theorem mem_sourceFilesFrom_iff (hproper : fs.Proper)
    (hconfig : config.followLinks = false) {fuel : Nat}
    {directory path : Path} {place : List String} (hfind : fs.find directory = .ok place)
    (hfuel : ∀ e, fs.entryAt? place = some e → e.depth ≤ fuel) :
    path ∈ fs.sourceFilesFrom config fuel directory ↔ ∃ directories name,
      fs.IsSource config place directories name ∧
      path = ⟨directory.root, directory.parts ++ directories ++ [name]⟩ := by
  induction fuel generalizing directory place path with
  | zero =>
    refine ⟨fun h => absurd h List.not_mem_nil, ?_⟩
    rintro ⟨directories, name, hsource, -⟩
    obtain ⟨entries, hentries⟩ := faces_eq_directory_iff.mp hsource.isDirectory
    have hdepth := hfuel _ hentries
    rw [Entry.depth] at hdepth
    omega
  | succ fuel ih =>
    have hentry : fs.entry? directory = fs.entryAt? place := by
      unfold entry?
      rw [hfind]
    by_cases hdirectory : fs.faces place = some .directory
    · obtain ⟨entries, hentries⟩ := faces_eq_directory_iff.mp hdirectory
      have hbelow {d : String} (hface : fs.faces (place ++ [d]) = some .directory) :
          path ∈ fs.sourceFilesFrom config fuel (directory.child d) ↔ ∃ directories name,
            fs.IsSource config (place ++ [d]) directories name ∧
              path = ⟨directory.root, directory.parts ++ d :: directories ++ [name]⟩ := by
        have hdepth : ∀ e, fs.entryAt? (place ++ [d]) = some e → e.depth ≤ fuel := by
          intro e he
          have hle := Entry.depth_le_of_mem ((hproper.mem_entries_iff hentries).mpr he)
          have hall := hfuel _ hentries
          rw [Entry.depth] at hall
          omega
        refine (ih (find_child hproper hfind hface fun _ h => by cases h) hdepth).trans ?_
        simp [Path.child]
      rw [sourceFilesFrom, hentry, hentries]
      dsimp only
      simp only [List.mem_append, List.mem_map, List.mem_flatMap,
        mem_listing_files_iff hproper hconfig hentries directory,
        mem_listing_directories_iff hproper hconfig hentries directory]
      constructor
      · rintro (⟨name, hsource, rfl⟩ | ⟨d, ⟨hincluded, hface⟩, hpath⟩)
        · exact ⟨[], name, hsource, by simp [Path.child]⟩
        · obtain ⟨directories, name, hsource, rfl⟩ := (hbelow hface).mp hpath
          exact ⟨d :: directories, name, isSource_cons_iff.mpr ⟨hincluded, hsource⟩, rfl⟩
      · rintro ⟨directories, name, hsource, rfl⟩
        cases directories with
        | nil => exact .inl ⟨name, hsource, by simp [Path.child]⟩
        | cons d directories =>
          obtain ⟨hincluded, hsource⟩ := isSource_cons_iff.mp hsource
          have hface := hsource.isDirectory
          exact .inr ⟨d, ⟨hincluded, hface⟩, (hbelow hface).mpr ⟨directories, name, hsource, rfl⟩⟩
    · rw [sourceFilesFrom_of_not_directory _ fun entries h =>
        hdirectory (faces_eq_directory_iff.mpr ⟨entries, hentry.symm.trans h⟩)]
      refine ⟨fun h => absurd h List.not_mem_nil, ?_⟩
      rintro ⟨directories, name, hsource, -⟩
      exact absurd hsource.isDirectory hdirectory

/-! ## The whole scan -/

theorem mem_sourceFiles_iff (hproper : fs.Proper) (hconfig : config.followLinks = false)
    {root path : Path} :
    path ∈ fs.sourceFiles config root ↔ ∃ place directories name, fs.find root = .ok place ∧
      fs.IsSource config place directories name ∧
      path = ⟨root.root, root.parts ++ directories ++ [name]⟩ := by
  rw [sourceFiles]
  cases hfind : fs.find root with
  | error e =>
    have hnone : ∀ entries, fs.entry? root ≠ some (.directory entries) := by
      intro entries h
      unfold entry? at h
      rw [hfind] at h
      cases h
    rw [sourceFilesFrom_of_not_directory _ hnone]
    simp
  | ok place =>
    have hfuel : ∀ e, fs.entryAt? place = some e →
        e.depth ≤ (fs.root.depth + 1) * (linkLimit + 2) := by
      intro e he
      have hle : e.depth ≤ fs.root.depth := Entry.depth_le_of_descend? he
      rw [linkLimit]
      omega
    rw [mem_sourceFilesFrom_iff hproper hconfig hfind hfuel]
    simp

/-- The faces of a file system decide where a path leads. -/
theorem find_eq_ok_of_faces {fs' : FileSystem} (hcurrent : fs'.current = fs.current)
    (hfaces : fs'.faces = fs.faces)
    {root : Path} {place : List String} (hfind : fs.find root = .ok place) :
    fs'.find root = .ok place := by
  have hgrows : fs.Grows fs' :=
    ⟨fun _ h => hfaces ▸ h, fun _ _ => hfaces ▸ Iff.rfl, fun _ h => hfaces ▸ h⟩
  have hnames := checkNames_of_find hfind
  have hstart : fs'.startOf root = fs.startOf root := by rw [startOf, startOf, hcurrent]
  rw [find, hnames] at hfind ⊢
  rw [hstart]
  exact hgrows.findFrom hfind

/-- **A scan is exact.** A scan that does not follow links finds just the source files below a
directory, each of them once. Files come by name before what lies in the subdirectories, and these
follow by name. So two file systems that hold the same are scanned alike, whatever the order in
which their directories list it. -/
theorem sourceFiles_exact (hproper : fs.Proper) (hconfig : config.followLinks = false)
    (root : Path) :
    (∀ path, path ∈ fs.sourceFiles config root ↔
      ∃ place directories name, fs.find root = .ok place ∧
      fs.IsSource config place directories name ∧
      path = ⟨root.root, root.parts ++ directories ++ [name]⟩) ∧
    (fs.sourceFiles config root).Nodup ∧
    (fs.sourceFiles config root).Pairwise (fun p q => ScannedBefore p.parts q.parts) ∧
    ∀ fs' : FileSystem, fs'.Proper → fs'.current = fs.current → fs'.faces = fs.faces →
      fs'.sourceFiles config root = fs.sourceFiles config root := by
  have hordered {fs : FileSystem} (h : fs.Proper) :
      (fs.sourceFiles config root).Pairwise fun p q => ScannedBefore p.parts q.parts :=
    pairwise_sourceFilesFrom h config _ root
  have hnodup {fs : FileSystem} (h : fs.Proper) : (fs.sourceFiles config root).Nodup :=
    (hordered h).imp fun hbefore heq => (heq ▸ hbefore).asymm (heq ▸ hbefore)
  refine ⟨fun path => mem_sourceFiles_iff hproper hconfig, hnodup hproper, hordered hproper, ?_⟩
  intro fs' hproper' hcurrent hfaces
  have hsame {path : Path} : path ∈ fs'.sourceFiles config root ↔
      path ∈ fs.sourceFiles config root := by
    have hfind {place : List String} : fs'.find root = .ok place ↔ fs.find root = .ok place :=
      ⟨find_eq_ok_of_faces hcurrent.symm hfaces.symm, find_eq_ok_of_faces hcurrent hfaces⟩
    have hsource {place directories : List String} {name : String} :
        fs'.IsSource config place directories name ↔ fs.IsSource config place directories name :=
      ⟨fun h => ⟨h.ending, h.included, hfaces ▸ h.file⟩,
        fun h => ⟨h.ending, h.included, hfaces.symm ▸ h.file⟩⟩
    simp only [mem_sourceFiles_iff hproper' hconfig, mem_sourceFiles_iff hproper hconfig,
      hfind, hsource]
  have hperm := (List.perm_ext_iff_of_nodup (hnodup hproper') (hnodup hproper)).mpr fun _ => hsame
  exact hperm.eq_of_pairwise (fun _ _ _ _ h h' => absurd h' h.asymm) (hordered hproper')
    (hordered hproper)

/-- A project with an excluded directory, and with a link to a file and one to a directory. -/
def grove : FileSystem where
  entries := [("w", .directory [
    ("b.py", .file .empty), ("a.pyi", .file .empty), ("notes.txt", .file .empty),
    ("twin.py", .link "b.py"), ("loop", .link "pkg"), ("venv", .directory [("c.py", .file .empty)]),
    ("pkg", .directory [("x.py", .directory [("z.py", .file .empty)]), ("m.py", .file .empty)])])]

/-- The same with the entries of the project in another order. -/
def groveSorted : FileSystem where
  entries := [("w", .directory [
    ("a.pyi", .file .empty), ("b.py", .file .empty), ("loop", .link "pkg"),
    ("notes.txt", .file .empty),
    ("pkg", .directory [("x.py", .directory [("z.py", .file .empty)]), ("m.py", .file .empty)]),
    ("twin.py", .link "b.py"), ("venv", .directory [("c.py", .file .empty)])])]

theorem faces_groveSorted : groveSorted.faces = grove.faces := by
  funext names
  cases names with
  | nil => rfl
  | cons name rest =>
    simp only [faces, entryAt?, root, grove, groveSorted, Entry.descend?_directory,
      Entry.lookup?_cons]
    split
    next =>
      cases rest with
      | nil => rfl
      | cons name rest =>
        simp only [Option.bind_some, Entry.descend?_directory, Entry.lookup?_cons]
        grind
    next => rfl

/-- A directory named like a source file is gone through, and links and excluded directories are
passed over. -/
theorem sourceFiles_exact_grove : grove.Proper ∧ (({} : ScanConfig).followLinks = false) ∧
    ⟨"/", ["w", "pkg", "x.py", "z.py"]⟩ ∈ grove.sourceFiles {} ⟨"/", ["w"]⟩ ∧
    ⟨"/", ["w", "twin.py"]⟩ ∉ grove.sourceFiles {} ⟨"/", ["w"]⟩ ∧
    groveSorted.sourceFiles {} ⟨"/", ["w"]⟩ = grove.sourceFiles {} ⟨"/", ["w"]⟩ := by
  have hproper : grove.Proper := by decide +kernel
  have hfind : grove.find ⟨"/", ["w"]⟩ = .ok ["w"] := by decide +kernel
  have hconfig : ({} : ScanConfig).followLinks = false := rfl
  obtain ⟨hmem, -, -, halike⟩ := sourceFiles_exact hproper hconfig ⟨"/", ["w"]⟩
  refine ⟨hproper, rfl, (hmem _).mpr ⟨["w"], ["pkg", "x.py"], "z.py", hfind, ?_, rfl⟩, ?_,
    halike groveSorted (by decide +kernel) rfl faces_groveSorted⟩
  · exact ⟨.inl (by decide +kernel), by decide +kernel, .empty, rfl⟩
  · intro h
    obtain ⟨place, directories, name, hplace, ⟨-, -, content, hfile⟩, hpath⟩ := (hmem _).mp h
    rw [hfind] at hplace
    cases hplace
    have hnames : ["w"] ++ directories ++ [name] = ["w", "twin.py"] :=
      (congrArg Path.parts hpath).symm
    rw [hnames] at hfile
    cases hfile

end FileSystem

end CallAtlas
