import CallAtlas.Project
import Mathlib.Data.List.Forall2

/-!
# How a project comes about

A project is indexed if its root is a directory and every source file below it can be read; then it
is the project of those files (`indexProject_eq_ok_iff`). What is said about projects starts from
there, so that no other proof has to look at the order in which things are read or at the ways in
which reading fails.

The paths of a project are relative to its root, because a scan only ever appends names to the
directory it starts at (`readSource_path_of_mem`).
-/

namespace CallAtlas

open Source Text

section Results

variable {ε ε' α β : Type}

theorem bind_eq_ok_iff {x : Except ε α} {f : α → Except ε β} {b : β} :
    (x >>= f) = .ok b ↔ ∃ a, x = .ok a ∧ f a = .ok b := by
  cases x with
  | error e =>
    constructor
    · intro h
      cases h
    · rintro ⟨a, h, -⟩
      cases h
  | ok a =>
    constructor
    · intro h
      exact ⟨a, rfl, h⟩
    · rintro ⟨a', h, hf⟩
      cases h
      exact hf

theorem mapError_eq_ok_iff {g : ε → ε'} {x : Except ε α} {a : α} :
    x.mapError g = .ok a ↔ x = .ok a := by
  cases x with
  | error e => simp [Except.mapError]
  | ok a' => simp [Except.mapError]

theorem exists_eq_ok_of_isOk {x : Except ε α} (h : x.isOk = true) : ∃ a, x = .ok a := by
  cases x with
  | error e => cases h
  | ok a => exact ⟨a, rfl⟩

/-- A member of one of two related lists has its partner in the other. -/
theorem exists_related_of_mem {R : α → β → Prop} {xs : List α} {ys : List β} {x : α}
    (h : List.Forall₂ R xs ys) (hx : x ∈ xs) : ∃ y ∈ ys, R x y := by
  induction h with
  | nil => cases hx
  | cons hr _ ih =>
    rcases List.mem_cons.mp hx with rfl | hx
    · exact ⟨_, List.mem_cons_self, hr⟩
    · obtain ⟨y, hy, hxy⟩ := ih hx
      exact ⟨y, List.mem_cons_of_mem _ hy, hxy⟩

/-- A list of results is there exactly if each of them is. -/
theorem mapM_eq_ok_iff {f : α → Except ε β} {xs : List α} {ys : List β} :
    xs.mapM f = .ok ys ↔ List.Forall₂ (fun x y => f x = .ok y) xs ys := by
  induction xs generalizing ys with
  | nil =>
    rw [List.mapM_nil, List.forall₂_nil_left_iff]
    exact ⟨fun h => by cases h; rfl, fun h => h ▸ rfl⟩
  | cons x xs ih =>
    rw [List.mapM_cons, bind_eq_ok_iff, List.forall₂_cons_left_iff]
    constructor
    · rintro ⟨y, hy, h⟩
      obtain ⟨rest, hrest, h⟩ := bind_eq_ok_iff.mp h
      cases h
      exact ⟨y, rest, hy, ih.mp hrest, rfl⟩
    · rintro ⟨y, rest, hy, hrest, rfl⟩
      exact ⟨y, hy, bind_eq_ok_iff.mpr ⟨rest, ih.mpr hrest, rfl⟩⟩

end Results

/-! ## Reading -/

/-- A source file is read if its text is found and parsed. -/
theorem readSource_eq_ok_iff {fs : FileSystem} {root path : Path} {f : SourceFile} :
    readSource fs root path = .ok f ↔
      ∃ text, fs.readText path = .ok text ∧ parseModule text = .ok f.tree ∧
        f.index = .ofText text ∧ f.path = (path.relativeTo? root).getD path := by
  rw [readSource, bind_eq_ok_iff]
  simp only [mapError_eq_ok_iff, bind_eq_ok_iff]
  constructor
  · rintro ⟨text, htext, tree, htree, h⟩
    cases h
    exact ⟨text, htext, htree, rfl, rfl⟩
  · rintro ⟨text, htext, htree, hindex, hpath⟩
    refine ⟨text, htext, f.tree, htree, ?_⟩
    rw [← hindex, ← hpath]
    rfl

/-- A project is indexed exactly if its root is a directory and all its files can be read. -/
theorem indexProject_eq_ok_iff {fs : FileSystem} {root : Path} {config : ScanConfig} {p : Project} :
    indexProject fs root config = .ok p ↔
      fs.resolve root = .ok p.root ∧ fs.isDirectory p.root = true ∧
        ∃ files, List.Forall₂ (fun path f => readSource fs p.root path = .ok f)
          (fs.sourceFiles config p.root) files ∧ p = projectOf p.root files := by
  rw [indexProject, bind_eq_ok_iff]
  simp only [mapError_eq_ok_iff]
  constructor
  · rintro ⟨resolved, hroot, h⟩
    cases hdir : fs.isDirectory resolved with
    | false =>
      rw [hdir] at h
      cases h
    | true =>
      simp only [hdir, Bool.not_true, Bool.false_eq_true, if_false] at h
      obtain ⟨files, hfiles, h⟩ := bind_eq_ok_iff.mp h
      rw [mapError_eq_ok_iff, mapM_eq_ok_iff] at hfiles
      cases h
      exact ⟨hroot, hdir, files, hfiles, rfl⟩
  · rintro ⟨hroot, hdir, files, hfiles, hp⟩
    refine ⟨p.root, hroot, ?_⟩
    simp only [hdir, Bool.not_true, Bool.false_eq_true, if_false]
    refine bind_eq_ok_iff.mpr ⟨files, ?_, ?_⟩
    · rw [mapError_eq_ok_iff, mapM_eq_ok_iff]
      exact hfiles
    · rw [← hp]
      rfl

/-- The project of the files that were read, once the root is known to be a directory. -/
theorem indexProject_of_mapM {fs : FileSystem} {root resolved : Path} {config : ScanConfig}
    {files : List SourceFile} (hroot : fs.resolve root = .ok resolved)
    (hdir : fs.isDirectory resolved = true)
    (hread : (fs.sourceFiles config resolved).mapM (readSource fs resolved) = .ok files) :
    indexProject fs root config = .ok (projectOf resolved files) :=
  indexProject_eq_ok_iff.mpr ⟨hroot, hdir, files, mapM_eq_ok_iff.mp hread, rfl⟩

/-! ## The paths of a project -/

namespace Path

/-- A path lies below a directory: it starts with its names. -/
def Below (directory path : Path) : Prop :=
  path.root = directory.root ∧ directory.parts <+: path.parts

theorem below_child (directory : Path) (name : String) : Below directory (directory.child name) :=
  ⟨rfl, List.prefix_append _ _⟩

theorem Below.trans {a b c : Path} (hab : Below a b) (hbc : Below b c) : Below a c :=
  ⟨hbc.1.trans hab.1, hab.2.trans hbc.2⟩

/-- A path below a directory can be seen from there, and is then relative. -/
theorem Below.relativeTo? {directory path : Path} (h : Below directory path) :
    path.relativeTo? directory = some { parts := path.parts.drop directory.parts.length } := by
  rw [Path.relativeTo?, if_pos ⟨h.1, List.isPrefixOf_iff_prefix.mpr h.2⟩]

end Path

/-- A scan only finds what lies below the directory it starts at. Induction on the depth of the
scan. -/
theorem below_of_mem_sourceFilesFrom {fs : FileSystem} {config : ScanConfig} {fuel : Nat}
    {directory path : Path} (h : path ∈ fs.sourceFilesFrom config fuel directory) :
    directory.Below path := by
  induction fuel generalizing directory with
  | zero => cases h
  | succ fuel ih =>
    rw [FileSystem.sourceFilesFrom] at h
    split at h
    next entries _ =>
      rcases List.mem_append.mp h with h | h
      · obtain ⟨name, -, rfl⟩ := List.mem_map.mp h
        exact Path.below_child directory name
      · obtain ⟨name, -, hbelow⟩ := List.mem_flatMap.mp h
        exact (Path.below_child directory name).trans (ih hbelow)
    next => cases h

/-- The path under which a source file is indexed is relative, and it is the path seen from the
root. -/
theorem readSource_path_of_mem {fs : FileSystem} {config : ScanConfig} {root path : Path}
    {f : SourceFile} (hpath : path ∈ fs.sourceFiles config root)
    (hread : readSource fs root path = .ok f) :
    path.relativeTo? root = some f.path ∧ f.path.isAbsolute = false := by
  have hbelow : root.Below path := below_of_mem_sourceFilesFrom hpath
  obtain ⟨text, -, -, -, hf⟩ := readSource_eq_ok_iff.mp hread
  rw [hbelow.relativeTo?, Option.getD_some] at hf
  rw [hbelow.relativeTo?, hf]
  exact ⟨rfl, rfl⟩

end CallAtlas
