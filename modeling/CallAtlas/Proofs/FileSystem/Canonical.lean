import CallAtlas.FileSystem.Discovery
import CallAtlas.Proofs.Table
import Mathlib.Data.List.Infix

/-!
# Canonical places

A place in a file system is canonical if no link stands on the way to it and no parent step is in
its names. Canonical places are what the resolution of paths is about:

- a path that is resolved without running into a cycle of links ends at a canonical place
  (`FileSystem.canonical_of_resolveFrom`);
- a canonical path is resolved to itself (`FileSystem.resolve_of_canonical`) and leads nowhere else
  (`FileSystem.eq_of_find_of_canonical`);
- a scan that does not follow links and starts at a canonical directory only finds canonical paths
  (`FileSystem.isPlace_of_mem_sourceFilesFrom`).

The last of these needs names that a directory can really hold, and each of them once:
`FileSystem.Proper`.
-/

namespace CallAtlas

/-! ## Proper file systems -/

/-- Whether a directory can hold something under a name. -/
def isFileName (name : String) : Bool :=
  name ≠ "" && name ≠ "." && name ≠ ".." && !name.toList.contains '/' &&
    !name.toList.contains '\x00'

namespace Entry

mutual

/-- Whether all directories in an entry hold proper names, and each of them once, and no link leads
to a name with a null character. -/
def isWellNamed : Entry → Bool
  | .file _ => true
  | .link target => !target.toList.contains '\x00'
  | .directory entries => decide (entries.map Prod.fst).Nodup && areWellNamed entries

/-- Whether several entries have proper names, and those inside of them as well. -/
def areWellNamed : List (String × Entry) → Bool
  | [] => true
  | (name, e) :: rest => isFileName name && isWellNamed e && areWellNamed rest

end

theorem isWellNamed_directory (entries : List (String × Entry)) :
    (Entry.directory entries).isWellNamed = true ↔
      (entries.map Prod.fst).Nodup ∧ areWellNamed entries = true := by
  rw [isWellNamed, Bool.and_eq_true, decide_eq_true_eq]

theorem areWellNamed_iff {entries : List (String × Entry)} :
    areWellNamed entries = true ↔
      ∀ e ∈ entries, isFileName e.1 = true ∧ e.2.isWellNamed = true := by
  induction entries with
  | nil => simp [areWellNamed]
  | cons e rest ih =>
    rw [areWellNamed, Bool.and_eq_true, Bool.and_eq_true, ih, List.forall_mem_cons]

theorem mem_of_lookup? {entries : List (String × Entry)} {name : String} {e : Entry}
    (h : lookup? entries name = some e) : (name, e) ∈ entries := by
  obtain ⟨found, hfound, rfl⟩ := Option.map_eq_some_iff.mp h
  have hname : found.1 = name := by simpa using List.find?_some hfound
  rw [← hname]
  exact List.mem_of_find?_eq_some hfound

/-- Under distinct names, what is listed is what is found. -/
theorem lookup?_of_mem {entries : List (String × Entry)} {name : String} {e : Entry}
    (hnodup : (entries.map Prod.fst).Nodup) (h : (name, e) ∈ entries) :
    lookup? entries name = some e := by
  rw [lookup?, Table.find?_of_nodup_map hnodup (by simp) h]
  rfl

@[simp] theorem descend?_nil (e : Entry) : e.descend? [] = some e := by
  cases e <;> rw [descend?]

theorem descend?_directory (entries : List (String × Entry)) (name : String) (rest : List String) :
    (Entry.directory entries).descend? (name :: rest) =
      (lookup? entries name).bind fun e => e.descend? rest := by
  rw [descend?]
  cases lookup? entries name with
  | none => rfl
  | some e => rfl

theorem descend?_append (e : Entry) (xs ys : List String) :
    e.descend? (xs ++ ys) = (e.descend? xs).bind fun inner => inner.descend? ys := by
  induction xs generalizing e with
  | nil => simp
  | cons name xs ih =>
    cases e with
    | file content => rfl
    | link target => rfl
    | directory entries =>
      rw [List.cons_append, descend?_directory, descend?_directory, Option.bind_assoc]
      congr 1
      funext inner
      exact ih inner

/-- Only a directory has something below it. -/
theorem isDirectory_of_descend? {e inner : Entry} {name : String} {rest : List String}
    (h : e.descend? (name :: rest) = some inner) : e.isDirectory = true := by
  cases e with
  | file content => cases h
  | link target => cases h
  | directory entries => rfl

theorem isWellNamed_of_descend? {e inner : Entry} {names : List String}
    (h : e.descend? names = some inner) (he : e.isWellNamed = true) : inner.isWellNamed = true := by
  induction names generalizing e with
  | nil =>
    cases (descend?_nil e).symm.trans h
    exact he
  | cons name rest ih =>
    cases e with
    | file content => cases h
    | link target => cases h
    | directory entries =>
      rw [descend?_directory] at h
      obtain ⟨next, hnext, h⟩ := Option.bind_eq_some_iff.mp h
      have hall := areWellNamed_iff.mp ((isWellNamed_directory entries).mp he).2
      exact ih h (hall _ (mem_of_lookup? hnext)).2

/-- The names that lead anywhere are proper. -/
theorem isFileName_of_descend? {e inner : Entry} {names : List String}
    (h : e.descend? names = some inner) (he : e.isWellNamed = true) :
    ∀ name ∈ names, isFileName name = true := by
  induction names generalizing e with
  | nil =>
    intro name hname
    cases hname
  | cons first rest ih =>
    cases e with
    | file content => cases h
    | link target => cases h
    | directory entries =>
      rw [descend?_directory] at h
      obtain ⟨next, hnext, h⟩ := Option.bind_eq_some_iff.mp h
      have hall := areWellNamed_iff.mp ((isWellNamed_directory entries).mp he).2
      obtain ⟨hfirst, hnamed⟩ := hall _ (mem_of_lookup? hnext)
      intro name hname
      rcases List.mem_cons.mp hname with rfl | hname
      · exact hfirst
      · exact ih h hnamed name hname

theorem linkCount_le_of_mem {entries : List (String × Entry)} {name : String} {e : Entry}
    (h : (name, e) ∈ entries) : e.linkCount ≤ linkCountOfAll entries := by
  induction entries with
  | nil => cases h
  | cons first rest ih =>
    rw [linkCountOfAll]
    rcases List.mem_cons.mp h with rfl | h
    · exact Nat.le_add_right _ _
    · exact Nat.le_trans (ih h) (Nat.le_add_left _ _)

/-- What does not grow from a directory to what it lists does not grow on the way to anything
inside. -/
theorem le_of_descend? {f : Entry → Nat}
    (hlisted : ∀ entries name e, (name, e) ∈ entries → f e ≤ f (.directory entries))
    {e inner : Entry} {names : List String} (h : e.descend? names = some inner) :
    f inner ≤ f e := by
  induction names generalizing e with
  | nil =>
    cases (descend?_nil e).symm.trans h
    exact Nat.le_refl _
  | cons name rest ih =>
    cases e with
    | file content => cases h
    | link target => cases h
    | directory entries =>
      rw [descend?_directory] at h
      obtain ⟨next, hnext, h⟩ := Option.bind_eq_some_iff.mp h
      exact Nat.le_trans (ih h) (hlisted entries name next (mem_of_lookup? hnext))

/-- What is found inside of an entry holds no more links than the entry. -/
theorem linkCount_le_of_descend? {e inner : Entry} {names : List String}
    (h : e.descend? names = some inner) :
    inner.linkCount ≤ e.linkCount := by
  refine le_of_descend? (fun entries name e hmem => ?_) h
  rw [linkCount]
  exact linkCount_le_of_mem hmem

end Entry

namespace FileSystem

variable {fs : FileSystem}

/-- A file system as there can be one: directories hold proper names, each of them once, so do
links, and the working directory is there. -/
structure Proper (fs : FileSystem) : Prop where
  named : fs.root.isWellNamed = true
  current : (fs.entryAt? fs.current).any Entry.isDirectory = true

instance (fs : FileSystem) : Decidable fs.Proper :=
  decidable_of_iff
    (fs.root.isWellNamed = true ∧ (fs.entryAt? fs.current).any Entry.isDirectory = true)
    ⟨fun h => ⟨h.1, h.2⟩, fun h => ⟨h.named, h.current⟩⟩

theorem entryAt?_append (fs : FileSystem) (place rest : List String) :
    fs.entryAt? (place ++ rest) = (fs.entryAt? place).bind fun e => e.descend? rest :=
  Entry.descend?_append fs.root place rest

@[simp] theorem entryAt?_nil (fs : FileSystem) : fs.entryAt? [] = some fs.root := rfl

/-- What lies inside of a directory is there in the listing. -/
theorem entryAt?_child {place : List String} {entries : List (String × Entry)}
    (h : fs.entryAt? place = some (.directory entries)) (name : String) :
    fs.entryAt? (place ++ [name]) = Entry.lookup? entries name := by
  rw [entryAt?_append, h, Option.bind_some, Entry.descend?_directory]
  cases Entry.lookup? entries name with
  | none => rfl
  | some e => simp

/-- Above an entry there are only directories. -/
theorem isDirectory_of_entryAt? {place rest : List String} {e : Entry} (hrest : rest ≠ [])
    (h : fs.entryAt? (place ++ rest) = some e) :
    ∃ entries, fs.entryAt? place = some (.directory entries) := by
  rw [entryAt?_append] at h
  obtain ⟨above, habove, h⟩ := Option.bind_eq_some_iff.mp h
  cases rest with
  | nil => exact absurd rfl hrest
  | cons name rest =>
    have hdir := Entry.isDirectory_of_descend? h
    cases above with
    | file content => cases hdir
    | link target => cases hdir
    | directory entries => exact ⟨entries, habove⟩

/-- Without links no link is found. -/
theorem entryAt?_ne_link (h : fs.root.linkCount = 0) (place : List String) (target : String) :
    fs.entryAt? place ≠ some (.link target) := by
  intro hlink
  have hcount : (Entry.link target).linkCount ≤ fs.root.linkCount :=
    Entry.linkCount_le_of_descend? hlink
  rw [h, Entry.linkCount] at hcount
  omega

/-! ## Canonical places -/

/-- No link stands on the way to a place, or at it. -/
def LinkFree (fs : FileSystem) (names : List String) : Prop :=
  ∀ place, place <+: names → ∀ target, fs.entryAt? place ≠ some (.link target)

theorem linkFree_nil (fs : FileSystem) : fs.LinkFree [] := by
  intro place hplace target h
  rw [List.prefix_nil.mp hplace, entryAt?_nil] at h
  cases h

theorem LinkFree.of_prefix {names above : List String} (h : fs.LinkFree names)
    (habove : above <+: names) : fs.LinkFree above :=
  fun place hplace => h place (hplace.trans habove)

theorem linkFree_concat_iff {place : List String} {name : String} :
    fs.LinkFree (place ++ [name]) ↔
      fs.LinkFree place ∧ ∀ target, fs.entryAt? (place ++ [name]) ≠ some (.link target) := by
  constructor
  · intro h
    exact ⟨h.of_prefix (List.prefix_append _ _), h _ List.prefix_rfl⟩
  · rintro ⟨hplace, hname⟩ above habove
    rcases List.prefix_concat_iff.mp habove with rfl | habove
    · exact hname
    · exact hplace above habove

/-- What is found without following links, and is none itself, has none on its way. -/
theorem linkFree_of_entryAt? {names : List String} {e : Entry} (h : fs.entryAt? names = some e)
    (he : e.isLink = false) : fs.LinkFree names := by
  rintro place ⟨rest, rfl⟩ target htarget
  by_cases hrest : rest = []
  · subst hrest
    rw [List.append_nil, htarget] at h
    cases h
    cases he
  · obtain ⟨entries, hdir⟩ := isDirectory_of_entryAt? hrest h
    rw [htarget] at hdir
    cases hdir

/-- A place that is named without links and without parent steps. -/
structure Canonical (fs : FileSystem) (names : List String) : Prop where
  linkFree : fs.LinkFree names
  straight : ".." ∉ names

theorem canonical_nil (fs : FileSystem) : fs.Canonical [] := ⟨linkFree_nil fs, List.not_mem_nil⟩

theorem Canonical.of_prefix {names above : List String} (h : fs.Canonical names)
    (habove : above <+: names) : fs.Canonical above :=
  ⟨h.linkFree.of_prefix habove, fun hmem => h.straight (habove.subset hmem)⟩

theorem Canonical.concat {place : List String} {name : String} (h : fs.Canonical place)
    (hname : name ≠ "..") (hlink : ∀ target, fs.entryAt? (place ++ [name]) ≠ some (.link target)) :
    fs.Canonical (place ++ [name]) := by
  refine ⟨linkFree_concat_iff.mpr ⟨h.linkFree, hlink⟩, fun hmem => ?_⟩
  rcases List.mem_append.mp hmem with hmem | hmem
  · exact h.straight hmem
  · exact hname (List.mem_singleton.mp hmem).symm

theorem isFileName_ne_parent {name : String} (h : isFileName name = true) : name ≠ ".." := by
  rintro rfl
  exact absurd h (by decide)

theorem isFileName_no_null {name : String} (h : isFileName name = true) :
    name.toList.contains '\x00' = false := by
  unfold isFileName at h
  simp only [Bool.and_eq_true, Bool.not_eq_true'] at h
  exact h.2

theorem exists_directory_of_any {e : Option Entry} (h : e.any Entry.isDirectory = true) :
    ∃ entries, e = some (.directory entries) := by
  cases e with
  | none => cases h
  | some e =>
    cases e with
    | file content => cases h
    | link target => cases h
    | directory entries => exact ⟨entries, rfl⟩

/-- The working directory is a canonical place. -/
theorem Proper.canonical_current (h : fs.Proper) : fs.Canonical fs.current := by
  obtain ⟨entries, hentries⟩ := exists_directory_of_any h.current
  refine ⟨linkFree_of_entryAt? hentries rfl, fun hmem => ?_⟩
  exact isFileName_ne_parent (Entry.isFileName_of_descend? hentries h.named _ hmem) rfl

theorem Proper.canonical_startOf (h : fs.Proper) (p : Path) : fs.Canonical (fs.startOf p) := by
  unfold startOf
  split
  · exact canonical_nil fs
  · exact h.canonical_current

/-! ## Resolution -/

/-- A name that is no link is kept. -/
theorem resolveFrom_cons {place rest : List String} {name : String} (hname : name ≠ "..")
    (hlink : ∀ target, fs.entryAt? (place ++ [name]) ≠ some (.link target)) (fuel : Nat)
    (active : List (List String)) :
    fs.resolveFrom fuel active place (name :: rest) =
      fs.resolveFrom fuel active (place ++ [name]) rest := by
  rw [resolveFrom, if_neg hname]
  simp only

/-- **Links are replaced for good**: where resolution arrives, no link is left. Induction on the
resolution, in which a link is replaced before the names behind it are looked at. -/
theorem canonical_of_resolveFrom {fuel : Nat} {active : List (List String)}
    {place names result : List String} (hplace : fs.Canonical place)
    (h : fs.resolveFrom fuel active place names = .ok result) : fs.Canonical result := by
  fun_induction FileSystem.resolveFrom fs fuel active place names generalizing result with
  | case1 fuel active place =>
    cases h
    exact hplace
  | case2 fuel active place rest ih => exact ih (hplace.of_prefix (List.dropLast_prefix _)) h
  | case3 => cases h
  | case4 => cases h
  | case5 active place name rest hname next target hlink fuel hactive =>
    rename_i target place' hinner ihtarget ihrest
    have hstart : fs.Canonical (if target.isAbsolute = true then [] else place) := by
      split
      · exact canonical_nil fs
      · exact hplace
    exact ihrest (ihtarget hstart hinner) h
  | case6 => cases h
  | case7 fuel active place name rest hname next =>
    rename_i hlink ih
    exact ih (hplace.concat hname fun target htarget => hlink target htarget) h

/-- A canonical place is left as it is. -/
theorem resolveFrom_of_canonical (fuel : Nat) (active : List (List String))
    {place names : List String} (h : fs.Canonical (place ++ names)) :
    fs.resolveFrom fuel active place names = .ok (place ++ names) := by
  induction names generalizing place with
  | nil => rw [resolveFrom, List.append_nil]
  | cons name rest ih =>
    have hsplit : place ++ name :: rest = place ++ [name] ++ rest := by simp
    rw [hsplit] at h ⊢
    have hname : name ≠ ".." := by
      rintro rfl
      exact h.straight (by simp)
    have hlink : ∀ target, fs.entryAt? (place ++ [name]) ≠ some (.link target) :=
      h.linkFree _ (List.prefix_append _ _)
    rw [resolveFrom_cons hname hlink]
    exact ih h

theorem checkNames_eq_ok_iff {p : Path} :
    p.checkNames = .ok () ↔ ∀ name ∈ p.parts, name.toList.contains '\x00' = false := by
  unfold Path.checkNames
  split
  next h =>
    obtain ⟨name, hname, hnull⟩ := List.any_eq_true.mp h
    constructor
    · intro hok
      cases hok
    · intro hall
      rw [hall name hname] at hnull
      cases hnull
  next h =>
    refine ⟨fun _ name hname => ?_, fun _ => rfl⟩
    rw [Bool.eq_false_iff]
    exact fun hnull => h (List.any_eq_true.mpr ⟨name, hname, hnull⟩)

theorem resolve_of_resolveFrom {p : Path} (hnames : p.checkNames = .ok ()) {parts : List String}
    (h : fs.resolveFrom (fs.root.linkCount + 1) [] (fs.startOf p) p.parts = .ok parts) :
    fs.resolve p = .ok ⟨"/", parts⟩ := by
  rw [resolve, hnames, h]
  rfl

/-- A path that leads to a canonical place is resolved to it. -/
theorem resolve_of_canonical_start {p : Path} (hnames : p.checkNames = .ok ())
    (h : fs.Canonical (fs.startOf p ++ p.parts)) :
    fs.resolve p = .ok ⟨"/", fs.startOf p ++ p.parts⟩ :=
  resolve_of_resolveFrom hnames (resolveFrom_of_canonical _ _ h)

/-- **A canonical path is resolved to itself.** -/
theorem resolve_of_canonical {p : Path} (hroot : p.root = "/") (hnames : p.checkNames = .ok ())
    (h : fs.Canonical p.parts) : fs.resolve p = .ok p := by
  obtain ⟨root, parts⟩ := p
  cases hroot
  exact resolve_of_canonical_start hnames h

/-- Names after the parent steps are taken out hold none. -/
theorem not_mem_collapse (names : List String) : ".." ∉ collapse names := by
  have hstep (place : List String) (hplace : ".." ∉ place) :
      ".." ∉ names.foldl (fun place name => if name = ".." then place.dropLast
        else place ++ [name]) place := by
    induction names generalizing place with
    | nil => exact hplace
    | cons name rest ih =>
      rw [List.foldl_cons]
      apply ih
      split
      next => exact fun hmem => hplace (List.mem_of_mem_dropLast hmem)
      next hname =>
        rw [List.mem_append, List.mem_singleton]
        rintro (hmem | rfl)
        · exact hplace hmem
        · exact hname rfl
  exact hstep [] List.not_mem_nil

/-- Resolution runs into a link that leads back to itself. -/
def MeetsCycle (fs : FileSystem) (p : Path) : Prop :=
  ∃ names, fs.resolveFrom (fs.root.linkCount + 1) [] (fs.startOf p) p.parts = .error names

/-- At a cycle of links the names that remain are kept, if they lead somewhere. -/
theorem resolve_of_cycle {p : Path} (hnames : p.checkNames = .ok ()) {names place : List String}
    (h : fs.resolveFrom (fs.root.linkCount + 1) [] (fs.startOf p) p.parts = .error names)
    (hfind : fs.find ⟨"/", collapse names⟩ = .ok place) :
    fs.resolve p = .ok ⟨"/", collapse names⟩ := by
  rw [resolve, hnames, h]
  simp only [bind, Except.bind, hfind]

/-- A resolved path is absolute and has no parent steps. It has no links either, unless a cycle of
links was met. -/
theorem Proper.of_resolve (hproper : fs.Proper) {p q : Path} (h : fs.resolve p = .ok q) :
    q.root = "/" ∧ ".." ∉ q.parts ∧ (¬fs.MeetsCycle p → fs.LinkFree q.parts) := by
  unfold resolve at h
  cases hnames : p.checkNames with
  | error e =>
    rw [hnames] at h
    cases h
  | ok u =>
    rw [hnames] at h
    simp only [bind, Except.bind] at h
    split at h
    next parts hparts =>
      cases h
      have hcanonical := canonical_of_resolveFrom (hproper.canonical_startOf p) hparts
      exact ⟨rfl, hcanonical.straight, fun _ => hcanonical.linkFree⟩
    next names hcycle =>
      refine ⟨?_, ?_, fun hnone => absurd ⟨names, hcycle⟩ hnone⟩
      · split at h <;> cases h
        rfl
      · split at h <;> cases h
        exact not_mem_collapse names

/-! ## Where a canonical path leads -/

/-- On the way down a canonical place no link is met. -/
theorem advance_of_canonical {place names : List String} (h : fs.Canonical (place ++ names)) :
    fs.advance place names = .arrived (place ++ names) ∨
      ∃ e, fs.advance place names = .failed e := by
  induction names generalizing place with
  | nil =>
    rw [advance, List.append_nil]
    exact .inl rfl
  | cons name rest ih =>
    have hsplit : place ++ name :: rest = place ++ [name] ++ rest := by simp
    rw [hsplit] at h ⊢
    have hname : name ≠ ".." := by
      rintro rfl
      exact h.straight (by simp)
    have hlink : ∀ target, fs.entryAt? (place ++ [name]) ≠ some (.link target) :=
      h.linkFree _ (List.prefix_append _ _)
    rw [advance]
    split
    next =>
      rw [if_neg hname]
      split
      next target htarget => exact absurd htarget (hlink target)
      next => exact ih h
      next => exact .inr ⟨_, rfl⟩
    next => exact .inr ⟨_, rfl⟩

theorem eq_of_find_of_canonical {p : Path} {names : List String} (hroot : p.root = "/")
    (h : fs.Canonical p.parts) (hfind : fs.find p = .ok names) :
    p.checkNames = .ok () ∧ names = p.parts := by
  obtain ⟨root, parts⟩ := p
  cases hroot
  unfold find at hfind
  cases hnames : Path.checkNames ⟨"/", parts⟩ with
  | error e =>
    rw [hnames] at hfind
    cases hfind
  | ok u =>
    refine ⟨rfl, ?_⟩
    have hfind' : fs.findFrom (linkLimit + 1) [] parts = .ok names := by
      rw [hnames] at hfind
      exact hfind
    rw [findFrom] at hfind'
    have hdown : fs.advance [] parts = .arrived parts ∨ ∃ e, fs.advance [] parts = .failed e :=
      advance_of_canonical h
    rcases hdown with harrived | ⟨e, hfailed⟩
    · rw [harrived] at hfind'
      exact (Except.ok.inj hfind').symm
    · rw [hfailed] at hfind'
      cases hfind'

/-- A canonical path leads to the entry at its names. -/
theorem entryAt?_of_canonical {p : Path} {e : Entry} (hroot : p.root = "/")
    (h : fs.Canonical p.parts)
    (hentry : fs.entry? p = some e) : p.checkNames = .ok () ∧ fs.entryAt? p.parts = some e := by
  unfold entry? at hentry
  split at hentry
  next names hfind =>
    obtain ⟨hnames, rfl⟩ := eq_of_find_of_canonical hroot h hfind
    exact ⟨hnames, hentry⟩
  next => cases hentry

/-! ## Scans -/

/-- A path that is absolute, holds no null character and names a canonical place. -/
structure IsPlace (fs : FileSystem) (p : Path) : Prop where
  root : p.root = "/"
  names : p.checkNames = .ok ()
  canonical : fs.Canonical p.parts

theorem IsPlace.resolve {p : Path} (h : fs.IsPlace p) : fs.resolve p = .ok p :=
  resolve_of_canonical h.root h.names h.canonical

/-- A canonical path to a directory names a place. -/
theorem isPlace_of_isDirectory {p : Path} (hroot : p.root = "/") (h : fs.Canonical p.parts)
    (hdirectory : fs.isDirectory p = true) : fs.IsPlace p := by
  obtain ⟨entries, hentries⟩ := exists_directory_of_any hdirectory
  exact ⟨hroot, (entryAt?_of_canonical hroot h hentries).1, h⟩

/-- What a directory lists and is no link lies at a place again. -/
theorem IsPlace.child {directory : Path} {entries : List (String × Entry)}
    {name : String} {e : Entry} (hproper : fs.Proper) (h : fs.IsPlace directory)
    (hentries : fs.entryAt? directory.parts = some (.directory entries))
    (hmem : (name, e) ∈ entries)
    (hlink : e.isLink = false) : fs.IsPlace (directory.child name) := by
  have hnamed := (Entry.isWellNamed_directory entries).mp
    (Entry.isWellNamed_of_descend? hentries hproper.named)
  have hname : isFileName name = true := (Entry.areWellNamed_iff.mp hnamed.2 _ hmem).1
  have hchild : fs.entryAt? (directory.parts ++ [name]) = some e := by
    rw [entryAt?_child hentries, Entry.lookup?_of_mem hnamed.1 hmem]
  refine ⟨h.root, ?_, h.canonical.concat (isFileName_ne_parent hname) fun target htarget => ?_⟩
  · rw [checkNames_eq_ok_iff]
    intro part hpart
    rcases List.mem_append.mp hpart with hpart | hpart
    · exact checkNames_eq_ok_iff.mp h.names part hpart
    · rw [List.mem_singleton.mp hpart]
      exact isFileName_no_null hname
  · rw [hchild] at htarget
    cases htarget
    cases hlink

theorem listing_eq (fs : FileSystem) (config : ScanConfig) (directory : Path)
    (entries : List (String × Entry)) :
    fs.listing config directory entries =
      (sortNames (((entries.filter fun e => !fs.countsAsDirectory directory e).filter fun f =>
          config.isSourceName f.1 && (config.followLinks || !f.2.isLink)).map Prod.fst),
        sortNames (((entries.filter (fs.countsAsDirectory directory)).filter fun d =>
          !config.exclude.contains d.1 && (config.followLinks || !d.2.isLink)).map Prod.fst)) := by
  rw [listing, List.partition_eq_filter_filter]
  rfl

/-- What a scan looks at is listed in the directory, and is no link unless links are followed. -/
theorem exists_mem_of_mem_listing {config : ScanConfig} {directory : Path}
    {entries : List (String × Entry)} {name : String}
    (h : name ∈ (fs.listing config directory entries).1 ∨
      name ∈ (fs.listing config directory entries).2) :
    ∃ e, (name, e) ∈ entries ∧ (config.followLinks = false → e.isLink = false) := by
  simp only [listing_eq, sortNames, List.mem_mergeSort, List.mem_map, List.mem_filter,
    Bool.and_eq_true] at h
  rcases h with ⟨e, ⟨⟨hmem, -⟩, -, hlink⟩, rfl⟩ | ⟨e, ⟨⟨hmem, -⟩, -, hlink⟩, rfl⟩
  · exact ⟨e.2, hmem, fun hconfig => by simpa [hconfig] using hlink⟩
  · exact ⟨e.2, hmem, fun hconfig => by simpa [hconfig] using hlink⟩

/-- **How a scan finds a file**: it goes down from directory to directory and stops at a name that
is listed. What holds of the directory at the start and is kept on the way down holds of the
directory that the file is in. Induction on the depth of the scan. -/
theorem exists_directory_of_mem_sourceFilesFrom {config : ScanConfig} {P : Path → Prop}
    (hdown : ∀ directory entries name, P directory →
      fs.entry? directory = some (.directory entries) →
      name ∈ (fs.listing config directory entries).2 → P (directory.child name))
    {fuel : Nat} {directory path : Path} (hdirectory : P directory)
    (h : path ∈ fs.sourceFilesFrom config fuel directory) :
    ∃ inner entries name, P inner ∧ fs.entry? inner = some (.directory entries) ∧
      name ∈ (fs.listing config inner entries).1 ∧ path = inner.child name := by
  induction fuel generalizing directory with
  | zero => cases h
  | succ fuel ih =>
    rw [sourceFilesFrom] at h
    split at h
    next entries hentry =>
      rcases List.mem_append.mp h with h | h
      · obtain ⟨name, hname, rfl⟩ := List.mem_map.mp h
        exact ⟨directory, entries, name, hdirectory, hentry, hname, rfl⟩
      · obtain ⟨name, hname, hbelow⟩ := List.mem_flatMap.mp h
        exact ih (hdown directory entries name hdirectory hentry hname) hbelow
    next => cases h

/-- **A scan stays among places**: from a place, without following links, it only finds places. -/
theorem isPlace_of_mem_sourceFilesFrom (hproper : fs.Proper) {config : ScanConfig}
    (hconfig : config.followLinks = false) {fuel : Nat} {directory path : Path}
    (hdirectory : fs.IsPlace directory) (h : path ∈ fs.sourceFilesFrom config fuel directory) :
    fs.IsPlace path := by
  have hchild (inner : Path) (entries : List (String × Entry)) (name : String)
      (hinner : fs.IsPlace inner)
      (hentry : fs.entry? inner = some (.directory entries))
      (hname : name ∈ (fs.listing config inner entries).1 ∨
        name ∈ (fs.listing config inner entries).2) :
      fs.IsPlace (inner.child name) := by
    obtain ⟨e, hmem, hlink⟩ := exists_mem_of_mem_listing hname
    have hentries := (entryAt?_of_canonical hinner.root hinner.canonical hentry).2
    exact hinner.child hproper hentries hmem (hlink hconfig)
  obtain ⟨inner, entries, name, hinner, hentry, hname, rfl⟩ :=
    exists_directory_of_mem_sourceFilesFrom
      (fun inner entries name hinner hentry hname =>
        hchild inner entries name hinner hentry (.inr hname))
      hdirectory h
  exact hchild inner entries name hinner hentry (.inl hname)

/-- The names that a scan adds to the directory are proper, and there is at least one. -/
theorem Proper.names_of_mem_sourceFilesFrom (hproper : fs.Proper) {config : ScanConfig} {fuel : Nat}
    {directory path : Path} (h : path ∈ fs.sourceFilesFrom config fuel directory) :
    ∃ names, names ≠ [] ∧ path = ⟨directory.root, directory.parts ++ names⟩ ∧
      ∀ name ∈ names, isFileName name = true := by
  have hlisted (inner : Path) (entries : List (String × Entry)) (name : String)
      (hentry : fs.entry? inner = some (.directory entries))
      (hname : name ∈ (fs.listing config inner entries).1 ∨
        name ∈ (fs.listing config inner entries).2) :
      isFileName name = true := by
    obtain ⟨e, hmem, -⟩ := exists_mem_of_mem_listing hname
    unfold entry? at hentry
    split at hentry
    next place hfind =>
      have hnamed := Entry.isWellNamed_of_descend? hentry hproper.named
      exact (Entry.areWellNamed_iff.mp ((Entry.isWellNamed_directory entries).mp hnamed).2 _ hmem).1
    next => cases hentry
  -- Going down adds one proper name after the other.
  let Reached (path : Path) : Prop := ∃ names, path = ⟨directory.root, directory.parts ++ names⟩ ∧
    ∀ name ∈ names, isFileName name = true
  have hreached (inner : Path) (name : String) (hinner : Reached inner)
      (hname : isFileName name = true) :
      ∃ names, names ≠ [] ∧ inner.child name = ⟨directory.root, directory.parts ++ names⟩ ∧
        ∀ name ∈ names, isFileName name = true := by
    obtain ⟨names, rfl, hnames⟩ := hinner
    refine ⟨names ++ [name], by simp, by simp [Path.child], ?_⟩
    intro part hpart
    rcases List.mem_append.mp hpart with hpart | hpart
    · exact hnames part hpart
    · rw [List.mem_singleton.mp hpart]
      exact hname
  obtain ⟨inner, entries, name, hinner, hentry, hname, rfl⟩ :=
    exists_directory_of_mem_sourceFilesFrom
      (fun inner entries name hinner hentry hname =>
        (hreached inner name hinner (hlisted inner entries name hentry (.inr hname))).imp fun _ h =>
          h.2)
      (show Reached directory from ⟨[], by simp, by simp⟩) h
  exact hreached inner name hinner (hlisted inner entries name hentry (.inl hname))

end FileSystem

end CallAtlas
