import CallAtlas.Proofs.FileSystem.Actions

/-!
# Ways through links

A path may go through links before it comes to a place. From there on, where no link is met, the way
does not matter: to make directories or to write a file below the path is to do so below the place
(`FileAction.exec_makeDirectories_way`, `FileAction.exec_writeBytes_way`). What actions add to a
file system does not lead a way that was found elsewhere (`FileSystem.Grows.find`). And where a way
ends before a name that cannot be made, nothing below it can be
(`FileAction.Stuck.exec_makeDirectoriesFrom`).
-/

namespace CallAtlas

namespace FileSystem

variable {fs fs' : FileSystem} {place names rest way final : List String} {name target : String}

/-! ## One name after the other -/

theorem advance_of_not_directory (h : fs.faces place ≠ some .directory) :
    fs.advance place (name :: rest) = .failed .notADirectory := by
  rw [advance]
  split
  next entries he => exact absurd (faces_eq_directory_iff.mpr ⟨entries, he⟩) h
  next => rfl

theorem advance_parent (h : fs.faces place = some .directory) :
    fs.advance place (".." :: rest) = fs.advance place.dropLast rest := by
  obtain ⟨entries, he⟩ := faces_eq_directory_iff.mp h
  rw [advance, he]
  rfl

theorem advance_of_missing (h : fs.faces place = some .directory) (hname : name ≠ "..")
    (hnone : fs.faces (place ++ [name]) = none) :
    fs.advance place (name :: rest) = .failed .missing := by
  obtain ⟨entries, he⟩ := faces_eq_directory_iff.mp h
  rw [advance, he]
  dsimp only
  rw [if_neg hname, faces_eq_none_iff.mp hnone]

theorem advance_of_link (h : fs.faces place = some .directory) (hname : name ≠ "..")
    (hlink : fs.faces (place ++ [name]) = some (.link target)) :
    fs.advance place (name :: rest) = .link place (Path.ofString target) rest := by
  obtain ⟨entries, he⟩ := faces_eq_directory_iff.mp h
  rw [advance, he]
  dsimp only
  rw [if_neg hname, faces_eq_link_iff.mp hlink]

theorem advance_of_face (h : fs.faces place = some .directory) (hname : name ≠ "..") {face : Face}
    (hface : fs.faces (place ++ [name]) = some face) (hlink : ∀ target, face ≠ .link target) :
    fs.advance place (name :: rest) = fs.advance (place ++ [name]) rest := by
  obtain ⟨entries, he⟩ := faces_eq_directory_iff.mp h
  rw [advance, he]
  dsimp only
  rw [if_neg hname]
  split
  next target htarget =>
    rw [faces_eq_link_iff.mpr htarget] at hface
    exact absurd (Option.some.inj hface).symm (hlink target)
  next => rfl
  next hnone =>
    rw [faces_eq_none_iff.mpr hnone] at hface
    cases hface

/-- What can become of a name. -/
inductive NameCases (fs : FileSystem) (place : List String) (name : String) : Prop
  | blocked (h : fs.faces place ≠ some .directory)
  | parent (h : fs.faces place = some .directory) (hname : name = "..")
  | missing (h : fs.faces place = some .directory) (hname : name ≠ "..")
    (hnone : fs.faces (place ++ [name]) = none)
  | link (h : fs.faces place = some .directory) (hname : name ≠ "..") (target : String)
    (hlink : fs.faces (place ++ [name]) = some (.link target))
  | step (h : fs.faces place = some .directory) (hname : name ≠ "..") (face : Face)
    (hface : fs.faces (place ++ [name]) = some face) (hlink : ∀ target, face ≠ .link target)

theorem nameCases (fs : FileSystem) (place : List String) (name : String) :
    NameCases fs place name := by
  by_cases h : fs.faces place = some .directory
  · by_cases hname : name = ".."
    · exact .parent h hname
    · cases hface : fs.faces (place ++ [name]) with
      | none => exact .missing h hname hface
      | some face =>
        cases face with
        | link target => exact .link h hname target hface
        | file content => exact .step h hname _ hface (by simp)
        | directory => exact .step h hname _ hface (by simp)
  · exact .blocked h

/-- Goes on with more names. -/
def Progress.goOn (fs : FileSystem) (more : List String) : Progress → Progress
  | .arrived final => fs.advance final more
  | .link place target rest => .link place target (rest ++ more)
  | .failed e => .failed e

theorem advance_append (fs : FileSystem) (place names more : List String) :
    fs.advance place (names ++ more) = (fs.advance place names).goOn fs more := by
  induction names generalizing place with
  | nil => rfl
  | cons name rest ih =>
    rw [List.cons_append]
    cases nameCases fs place name with
    | blocked h =>
      rw [advance_of_not_directory h, advance_of_not_directory h]
      rfl
    | parent h hname =>
      subst hname
      rw [advance_parent h, advance_parent h, ih]
    | missing h hname hnone =>
      rw [advance_of_missing h hname hnone, advance_of_missing h hname hnone]
      rfl
    | link h hname target hlink =>
      rw [advance_of_link h hname hlink, advance_of_link h hname hlink]
      rfl
    | step h hname face hface hlink =>
      rw [advance_of_face h hname hface hlink, advance_of_face h hname hface hlink, ih]

/-- Where names have led to, if they did not fail. -/
def Progress.place? : Progress → Option (List String)
  | .arrived final => some final
  | .link place _ _ => some place
  | .failed _ => none

/-- Where names lead, there is something, and no link and no parent step is left in the place. -/
theorem canonical_of_advance (hplace : fs.Canonical place) (hthere : fs.faces place ≠ none)
    (h : (fs.advance place names).place? = some final) :
    fs.Canonical final ∧ fs.faces final ≠ none := by
  induction names generalizing place with
  | nil =>
    cases h
    exact ⟨hplace, hthere⟩
  | cons name rest ih =>
    cases nameCases fs place name with
    | blocked hblocked =>
      rw [advance_of_not_directory hblocked] at h
      cases h
    | parent hdirectory hname =>
      subst hname
      rw [advance_parent hdirectory] at h
      refine ih (hplace.of_prefix (List.dropLast_prefix place)) ?_ h
      by_cases hnil : place = []
      · rw [hnil]
        simp
      · rw [← List.dropLast_append_getLast hnil] at hthere
        rw [faces_above (by simp) hthere]
        exact Option.some_ne_none _
    | missing hdirectory hname hnone =>
      rw [advance_of_missing hdirectory hname hnone] at h
      cases h
    | link hdirectory hname target hlink =>
      rw [advance_of_link hdirectory hname hlink] at h
      cases h
      exact ⟨hplace, hthere⟩
    | step hdirectory hname face hface hlink =>
      rw [advance_of_face hdirectory hname hface hlink] at h
      refine ih (hplace.concat hname fun target htarget => ?_)
        (by rw [hface]; exact Option.some_ne_none _) h
      rw [faces_eq_link_iff.mpr htarget] at hface
      exact hlink target (Option.some.inj hface).symm

/-! ## Through links -/

theorem findFrom_of_arrived (fuel : Nat) (h : fs.advance place names = .arrived final) :
    fs.findFrom (fuel + 1) place names = .ok final := by
  rw [findFrom, h]

theorem findFrom_of_failed (fuel : Nat) {e : FileError} (h : fs.advance place names = .failed e) :
    fs.findFrom (fuel + 1) place names = .error e := by
  rw [findFrom, h]

theorem findFrom_of_link (fuel : Nat) {target : Path}
    (h : fs.advance place names = .link final target rest) :
    fs.findFrom (fuel + 1) place names =
      fs.findFrom fuel (if target.isAbsolute then [] else final) (target.parts ++ rest) := by
  rw [findFrom, h]

/-- A way that was found is a way to go on from. -/
theorem findFrom_append {fuel : Nat} (h : fs.findFrom fuel place names = .ok final) :
    ∃ fuel', ∀ more, fs.findFrom fuel place (names ++ more) =
      fs.findFrom (fuel' + 1) final more := by
  induction fuel generalizing place names with
  | zero =>
    rw [findFrom] at h
    cases h
  | succ fuel ih =>
    cases hgo : fs.advance place names with
    | arrived final' =>
      rw [findFrom_of_arrived fuel hgo] at h
      cases h
      refine ⟨fuel, fun more => ?_⟩
      have hmore := fs.advance_append place names more
      rw [hgo, Progress.goOn] at hmore
      rw [findFrom, findFrom, hmore]
    | failed e =>
      rw [findFrom_of_failed fuel hgo] at h
      cases h
    | link place' target rest =>
      rw [findFrom_of_link fuel hgo] at h
      obtain ⟨fuel', hrest⟩ := ih h
      refine ⟨fuel', fun more => ?_⟩
      have hmore := fs.advance_append place names more
      rw [hgo, Progress.goOn] at hmore
      rw [findFrom_of_link fuel hmore, ← hrest, List.append_assoc]

/-- The beginning of a way that was found was found. -/
theorem exists_of_findFrom_append {fuel : Nat} {more : List String}
    (h : fs.findFrom fuel place (names ++ more) = .ok final) :
    ∃ middle, fs.findFrom fuel place names = .ok middle := by
  induction fuel generalizing place names with
  | zero =>
    rw [findFrom] at h
    cases h
  | succ fuel ih =>
    have hmore := fs.advance_append place names more
    cases hgo : fs.advance place names with
    | arrived middle => exact ⟨middle, findFrom_of_arrived fuel hgo⟩
    | failed e =>
      rw [hgo, Progress.goOn] at hmore
      rw [findFrom_of_failed fuel hmore] at h
      cases h
    | link place' target rest =>
      rw [hgo, Progress.goOn] at hmore
      rw [findFrom_of_link fuel hmore, ← List.append_assoc] at h
      rw [findFrom_of_link fuel hgo]
      exact ih h

theorem canonical_of_findFrom {fuel : Nat} (hplace : fs.Canonical place)
    (hthere : fs.faces place ≠ none) (h : fs.findFrom fuel place names = .ok final) :
    fs.Canonical final ∧ fs.faces final ≠ none := by
  induction fuel generalizing place names with
  | zero =>
    rw [findFrom] at h
    cases h
  | succ fuel ih =>
    cases hgo : fs.advance place names with
    | arrived final' =>
      rw [findFrom_of_arrived fuel hgo] at h
      cases h
      exact canonical_of_advance hplace hthere (by rw [hgo]; rfl)
    | failed e =>
      rw [findFrom_of_failed fuel hgo] at h
      cases h
    | link place' target rest =>
      rw [findFrom_of_link fuel hgo] at h
      have hreached : (fs.advance place names).place? = some place' := by
        rw [hgo]
        rfl
      obtain ⟨hcanonical, hthere'⟩ := canonical_of_advance hplace hthere hreached
      refine ih ?_ ?_ h
      · split
        · exact canonical_nil fs
        · exact hcanonical
      · split
        · simp
        · exact hthere'

/-! ## Adding to a file system -/

/-- Directories, links and files stay what they are, and no links are added; a file may be given
another content. -/
structure Grows (fs fs' : FileSystem) : Prop where
  directory : ∀ place, fs.faces place = some .directory → fs'.faces place = some .directory
  link : ∀ place target, fs'.faces place = some (.link target) ↔
    fs.faces place = some (.link target)
  file : ∀ place, (fs.faces place).any Face.isFile = true → (fs'.faces place).any Face.isFile = true

theorem Grows.trans {fs'' : FileSystem} (h : fs.Grows fs') (h' : fs'.Grows fs'') :
    fs.Grows fs'' where
  directory place hplace := h'.directory place (h.directory place hplace)
  link place target := (h'.link place target).trans (h.link place target)
  file place hplace := h'.file place (h.file place hplace)

/-- What is put in the place of nothing, directories in that of directories and files in that of
files add to a file system. -/
theorem grows_of_changes (h : ∀ place, fs'.faces place = fs.faces place ∨
      (∀ target, fs.faces place ≠ some (.link target)) ∧
        (fs'.faces place = some .directory ∧ (fs.faces place).any Face.isFile = false ∨
          (fs'.faces place).any Face.isFile = true ∧ fs.faces place ≠ some .directory)) :
          fs.Grows fs' := by
  refine ⟨fun place hplace => ?_, fun place target => ?_, fun place hplace => ?_⟩
  · rcases h place with hsame | ⟨-, ⟨hdirectory, -⟩ | ⟨-, hnot⟩⟩
    · rw [hsame, hplace]
    · exact hdirectory
    · exact absurd hplace hnot
  · rcases h place with hsame | ⟨hlink, ⟨hdirectory, -⟩ | ⟨hfile, -⟩⟩
    · rw [hsame]
    · exact iff_of_false (by simp [hdirectory]) (hlink target)
    · refine iff_of_false (fun hnew => ?_) (hlink target)
      rw [hnew] at hfile
      cases hfile
  · rcases h place with hsame | ⟨-, ⟨-, hnot⟩ | ⟨hfile, -⟩⟩
    · rw [hsame, hplace]
    · rw [hplace] at hnot
      cases hnot
    · exact hfile

/-- What is no link does not become one. -/
theorem Grows.exists_face (h : fs.Grows fs') {face : Face} (hface : fs.faces place = some face)
    (hlink : ∀ target, face ≠ .link target) :
    ∃ face', fs'.faces place = some face' ∧ ∀ target, face' ≠ .link target := by
  cases face with
  | link target => exact absurd rfl (hlink target)
  | directory => exact ⟨.directory, h.directory place hface, by simp⟩
  | file content =>
    have hfile := h.file place (by rw [hface]; rfl)
    cases hface' : fs'.faces place with
    | none =>
      rw [hface'] at hfile
      cases hfile
    | some face' =>
      rw [hface'] at hfile
      refine ⟨face', rfl, ?_⟩
      rintro target rfl
      cases hfile

/-- Names that lead somewhere still lead there. -/
theorem Grows.advance (h : fs.Grows fs') (hok : (fs.advance place names).place? ≠ none) :
    fs'.advance place names = fs.advance place names := by
  induction names generalizing place with
  | nil => rfl
  | cons name rest ih =>
    cases nameCases fs place name with
    | blocked hblocked =>
      rw [advance_of_not_directory hblocked] at hok
      exact absurd rfl hok
    | parent hdirectory hname =>
      subst hname
      rw [advance_parent hdirectory] at hok ⊢
      rw [advance_parent (h.directory _ hdirectory)]
      exact ih hok
    | missing hdirectory hname hnone =>
      rw [advance_of_missing hdirectory hname hnone] at hok
      exact absurd rfl hok
    | link hdirectory hname target hlink =>
      rw [advance_of_link hdirectory hname hlink,
        advance_of_link (h.directory _ hdirectory) hname ((h.link _ _).mpr hlink)]
    | step hdirectory hname face hface hlink =>
      obtain ⟨face', hface', hlink'⟩ := h.exists_face hface hlink
      rw [advance_of_face hdirectory hname hface hlink] at hok ⊢
      rw [advance_of_face (h.directory _ hdirectory) hname hface' hlink']
      exact ih hok

/-- **A way that was found still leads to the same place.** -/
theorem Grows.findFrom (h : fs.Grows fs') {fuel : Nat}
    (hfind : fs.findFrom fuel place names = .ok final) :
    fs'.findFrom fuel place names = .ok final := by
  induction fuel generalizing place names with
  | zero =>
    rw [FileSystem.findFrom] at hfind
    cases hfind
  | succ fuel ih =>
    cases hgo : fs.advance place names with
    | arrived final' =>
      rw [findFrom_of_arrived fuel hgo] at hfind
      rw [findFrom_of_arrived fuel
        ((h.advance (by rw [hgo]; exact Option.some_ne_none _)).trans hgo), hfind]
    | failed e =>
      rw [findFrom_of_failed fuel hgo] at hfind
      cases hfind
    | link place' target rest =>
      rw [findFrom_of_link fuel hgo] at hfind
      rw [findFrom_of_link fuel ((h.advance (by rw [hgo]; exact Option.some_ne_none _)).trans hgo)]
      exact ih hfind

/-! ## Below a way -/

theorem checkNames_of_find {p : Path} (h : fs.find p = .ok final) : p.checkNames = .ok () := by
  unfold find at h
  cases hnames : p.checkNames with
  | error e =>
    rw [hnames] at h
    cases h
  | ok u => rfl

theorem find_absolute (hnames : Path.checkNames ⟨"/", names⟩ = .ok ()) :
    fs.find ⟨"/", names⟩ = fs.findFrom (linkLimit + 1) [] names := by
  rw [find, hnames]
  rfl

theorem findFrom_of_find (h : fs.find ⟨"/", names⟩ = .ok final) :
    fs.findFrom (linkLimit + 1) [] names = .ok final :=
  (find_absolute (checkNames_of_find h)).symm.trans h

theorem Grows.find (h : fs.Grows fs') (hfind : fs.find ⟨"/", names⟩ = .ok final) :
    fs'.find ⟨"/", names⟩ = .ok final := by
  rw [find_absolute (checkNames_of_find hfind)]
  exact h.findFrom (findFrom_of_find hfind)

theorem canonical_of_find (h : fs.find ⟨"/", names⟩ = .ok final) :
    fs.Canonical final ∧ fs.faces final ≠ none :=
  canonical_of_findFrom (canonical_nil fs) (by simp) (findFrom_of_find h)

theorem checkNames_append (hway : Path.checkNames ⟨"/", way⟩ = .ok ())
    (hrest : ∀ name ∈ rest, isFileName name = true) :
    Path.checkNames ⟨"/", way ++ rest⟩ = .ok () := by
  refine checkNames_eq_ok_iff.mpr fun name hname => ?_
  rcases List.mem_append.mp hname with hname | hname
  · exact checkNames_eq_ok_iff.mp hway name hname
  · exact isFileName_no_null (hrest name hname)

/-- What is there is where a canonical place leads. -/
theorem advance_nil_of_canonical (h : fs.Canonical place) (hthere : fs.faces place ≠ none) :
    fs.advance [] place = .arrived place := by
  have hall : fs.Canonical ([] ++ place) := h
  rcases advance_cases [] hall (by simp) with ⟨hgo, -⟩ | ⟨-, hnone, -⟩ | ⟨-, hnone, -⟩
  · exact hgo
  · exact absurd hnone hthere
  · exact absurd hnone hthere

/-- **Below a way things are where they are below its place**, if there are no links. -/
theorem find_append (hway : fs.find ⟨"/", way⟩ = .ok place)
    (hplace : fs.IsPlace ⟨"/", place ++ rest⟩) (hrest : ∀ name ∈ rest, isFileName name = true) :
    fs.find ⟨"/", way ++ rest⟩ = fs.find ⟨"/", place ++ rest⟩ := by
  obtain ⟨hcanonical, hthere⟩ := canonical_of_find hway
  obtain ⟨fuel, hfuel⟩ := findFrom_append (findFrom_of_find hway)
  have hsame : fs.advance [] (place ++ rest) = fs.advance place rest := by
    rw [advance_append, advance_nil_of_canonical hcanonical hthere, Progress.goOn]
  rw [find_absolute (checkNames_append (checkNames_of_find hway) hrest), hfuel,
    find_absolute hplace.names]
  rcases advance_of_canonical hplace.canonical with hgo | ⟨e, hgo⟩
  · rw [findFrom_of_arrived fuel hgo, findFrom_of_arrived linkLimit (hsame.trans hgo)]
  · rw [findFrom_of_failed fuel hgo, findFrom_of_failed linkLimit (hsame.trans hgo)]

end FileSystem

namespace FileAction

open FileSystem

variable {fs : FileSystem} {way place rest : List String} {name : String}

/-! ## Making directories -/

/-- To make a directory is to look where the path above leads, and what is there under the name. -/
theorem exec_makeDirectory_eq {above : List String}
    (hnames : Path.checkNames ⟨"/", above ++ [name]⟩ = .ok ())
    (hname : name ≠ "..") :
    exec (makeDirectory ⟨"/", above ++ [name]⟩) fs =
      match fs.find ⟨"/", above⟩ with
      | .error e => (.error e, fs)
      | .ok directory =>
        if fs.faces directory = some .directory then
          if (fs.faces (directory ++ [name])).isSome then (.error .exists, fs)
          else (.ok (), fs.insert (directory ++ [name]) (.directory []))
        else (.error .notADirectory, fs) := by
  have hlast : (⟨"/", above ++ [name]⟩ : Path).name = name := by simp [Path.name]
  have hparent : (⟨"/", above ++ [name]⟩ : Path).parent = ⟨"/", above⟩ := by simp [Path.parent]
  have hproper : ((above ++ [name]).isEmpty || decide (name = "..")) = false := by simp [hname]
  have hthere (place : List String) : (fs.entryAt? place).isSome = (fs.faces place).isSome := by
    rw [FileSystem.faces, Option.isSome_map]
  unfold makeDirectory
  simp only [exec_bind, exec_ask, exec_ite, exec_get, exec_throw, exec_modify, hnames, hparent,
    hlast, hproper, Bool.false_eq_true, if_false]
  cases fs.find ⟨"/", above⟩ with
  | error e => rfl
  | ok directory =>
    simp only [hthere]
    by_cases hdirectory : fs.faces directory = some .directory
    · rw [FileSystem.any_isDirectory_iff.mpr hdirectory, if_pos hdirectory]
      rfl
    · have hother : (fs.entryAt? directory).any Entry.isDirectory = false := by
        rw [Bool.eq_false_iff]
        exact fun h => hdirectory (FileSystem.any_isDirectory_iff.mp h)
      rw [hother, if_neg hdirectory]
      rfl

theorem exec_makeDirectory_way (hway : fs.find ⟨"/", way⟩ = .ok place)
    (hplace : fs.IsPlace ⟨"/", place ++ rest ++ [name]⟩)
    (hrest : ∀ part ∈ rest ++ [name], isFileName part = true) :
    exec (makeDirectory ⟨"/", way ++ rest ++ [name]⟩) fs =
      exec (makeDirectory ⟨"/", place ++ rest ++ [name]⟩) fs := by
  have hfind : fs.find ⟨"/", way ++ rest⟩ = fs.find ⟨"/", place ++ rest⟩ :=
    find_append hway hplace.above fun part hpart => hrest part (List.mem_append_left _ hpart)
  have hnames : Path.checkNames ⟨"/", way ++ rest ++ [name]⟩ = .ok () := by
    rw [List.append_assoc]
    exact checkNames_append (checkNames_of_find hway) hrest
  rw [exec_makeDirectory_eq hnames hplace.name_ne_parent,
    exec_makeDirectory_eq hplace.names hplace.name_ne_parent,
    hfind]

theorem isDirectory_way (hway : fs.find ⟨"/", way⟩ = .ok place)
    (hplace : fs.IsPlace ⟨"/", place ++ rest⟩) (hrest : ∀ part ∈ rest, isFileName part = true) :
    fs.isDirectory ⟨"/", way ++ rest⟩ = fs.isDirectory ⟨"/", place ++ rest⟩ := by
  rw [isDirectory, isDirectory, entry?, entry?, find_append hway hplace hrest]

theorem exec_unlessDirectory_way (hway : fs.find ⟨"/", way⟩ = .ok place)
    (hplace : fs.IsPlace ⟨"/", place ++ rest⟩)
    (hrest : ∀ part ∈ rest, isFileName part = true) (e : FileError) :
    exec (unlessDirectory ⟨"/", way ++ rest⟩ e) fs =
      exec (unlessDirectory ⟨"/", place ++ rest⟩ e) fs := by
  simp only [unlessDirectory, exec_bind, exec_get, exec_ite, isDirectory_way hway hplace hrest]

/-- What was found is there already. -/
theorem exec_makeDirectory_of_found (hway : fs.find ⟨"/", way⟩ = .ok place)
    (hstraight : ".." ∉ way) :
    exec (makeDirectory ⟨"/", way⟩) fs = (.error .exists, fs) := by
  induction way using List.reverseRecOn with
  | nil => exact exec_makeDirectory_root
  | append_singleton above name _ =>
    have hname : name ≠ ".." := by
      rintro rfl
      exact hstraight (by simp)
    have hnames := checkNames_of_find hway
    have habove : Path.checkNames ⟨"/", above⟩ = .ok () :=
      checkNames_eq_ok_iff.mpr fun part hpart =>
        checkNames_eq_ok_iff.mp hnames part (List.mem_append_left _ hpart)
    have hfound := findFrom_of_find hway
    obtain ⟨middle, hmiddle⟩ := exists_of_findFrom_append hfound
    obtain ⟨fuel, hlast⟩ := findFrom_append hmiddle
    rw [hlast [name]] at hfound
    rw [exec_makeDirectory_eq hnames hname, find_absolute habove, hmiddle]
    cases nameCases fs middle name with
    | blocked h =>
      rw [findFrom_of_failed fuel (advance_of_not_directory h)] at hfound
      cases hfound
    | parent h hparent => exact absurd hparent hname
    | missing h _ hnone =>
      rw [findFrom_of_failed fuel (advance_of_missing h hname hnone)] at hfound
      cases hfound
    | link h _ target hlink =>
      dsimp only
      rw [if_pos h, hlink]
      rfl
    | step h _ face hface _ =>
      dsimp only
      rw [if_pos h, hface]
      rfl

/-- A directory that cannot be made leaves everything as it is. -/
theorem eq_of_exec_makeDirectory_error {above : List String} {fs' : FileSystem} {e : FileError}
    (hnames : Path.checkNames ⟨"/", above ++ [name]⟩ = .ok ()) (hname : name ≠ "..")
    (h : exec (makeDirectory ⟨"/", above ++ [name]⟩) fs = (.error e, fs')) : fs' = fs := by
  rw [exec_makeDirectory_eq hnames hname] at h
  split at h
  next =>
    cases h
    rfl
  next =>
    split at h
    · split at h
      · cases h
        rfl
      · cases h
    · cases h
      rfl

theorem grows_of_makeDirectories {names : List String} {fs' : FileSystem}
    (h : fs.IsPlace ⟨"/", names⟩) (hexec : exec (makeDirectories ⟨"/", names⟩) fs = (.ok (), fs')) :
    fs.Grows fs' ∧ fs'.faces = fs.faces.opened names := by
  obtain ⟨fs₁, hmake, hfaces⟩ := exec_makeDirectories h
  rw [hexec] at hmake
  obtain ⟨houtcome, rfl⟩ := Prod.mk.inj hmake
  unfold Faces.makeDirectories at houtcome hfaces
  split at houtcome
  next => cases houtcome
  next hblocks =>
    rw [if_neg hblocks] at hfaces
    replace hfaces : fs'.faces = fs.faces.opened names := hfaces
    refine ⟨grows_of_changes fun place => ?_, hfaces⟩
    rw [hfaces, Faces.opened]
    split
    next hprefix =>
      refine .inr ⟨fun target hlink => ?_, .inl ⟨rfl, ?_⟩⟩
      · exact h.canonical.linkFree place hprefix target (faces_eq_link_iff.mp hlink)
      · exact Faces.blocks_eq_false_iff.mp (Bool.eq_false_iff.mpr hblocks) place hprefix
    next => exact .inl rfl

/-- **Below a way directories are made where they are made below its place.** -/
theorem exec_makeDirectories_way {fuel : Nat} (hfuel : rest.length ≤ fuel)
    (hway : fs.find ⟨"/", way⟩ = .ok place)
    (hstraight : ".." ∉ way) (hplace : fs.IsPlace ⟨"/", place ++ rest⟩)
    (hrest : ∀ part ∈ rest, isFileName part = true) :
    exec (makeDirectoriesFrom fuel ⟨"/", way ++ rest⟩) fs =
      exec (makeDirectories ⟨"/", place ++ rest⟩) fs := by
  induction rest using List.reverseRecOn generalizing fuel with
  | nil =>
    have hunless := exec_unlessDirectory_way hway hplace hrest .exists
    obtain ⟨hcanonical, hthere⟩ := canonical_of_find hway
    rw [List.append_nil] at hplace hunless ⊢
    rw [List.append_nil] at hunless ⊢
    have hfound : fs.find ⟨"/", place⟩ = .ok place := by
      rw [find_absolute hplace.names]
      exact findFrom_of_arrived _ (advance_nil_of_canonical hcanonical hthere)
    rw [makeDirectories,
      exec_makeDirectoriesFrom_of_error fuel
        (exec_makeDirectory_of_found hway hstraight) (by decide),
      exec_makeDirectoriesFrom_of_error _ (exec_makeDirectory_of_found hfound hcanonical.straight)
        (by decide), hunless]
  | append_singleton above name ih =>
    obtain ⟨fuel, rfl⟩ : ∃ n, fuel = n + 1 := ⟨fuel - 1, by simp at hfuel; omega⟩
    have hlength : (place ++ (above ++ [name])).length = (place ++ above).length + 1 := by
      simp; omega
    rw [makeDirectories, hlength]
    rw [← List.append_assoc] at hplace ⊢
    rw [← List.append_assoc]
    have hrec : exec (makeDirectoriesFrom fuel ⟨"/", way ++ above⟩) fs =
        exec (makeDirectories ⟨"/", place ++ above⟩) fs :=
      ih (by simpa using hfuel) hplace.above fun part hpart =>
      hrest part (List.mem_append_left _ hpart)
    have hparent (before : List String) :
        (⟨"/", before ++ [name]⟩ : Path).parent = ⟨"/", before⟩ := by
      simp [Path.parent]
    rw [makeDirectoriesFrom, makeDirectoriesFrom, exec_tryCatch, exec_tryCatch,
      exec_makeDirectory_way hway hplace hrest, hparent, hparent]
    -- A failure leaves the file system as it is, and whether it is forgiven is decided alike.
    have hunless {fs₁ : FileSystem} (hgrows : fs₁.find ⟨"/", way⟩ = .ok place)
        (hplace₁ : fs₁.IsPlace ⟨"/", place ++ above ++ [name]⟩) (e : FileError) :
        exec (unlessDirectory ⟨"/", way ++ above ++ [name]⟩ e) fs₁ =
          exec (unlessDirectory ⟨"/", place ++ above ++ [name]⟩ e) fs₁ := by
      rw [List.append_assoc] at hplace₁ ⊢
      rw [List.append_assoc]
      exact exec_unlessDirectory_way hgrows hplace₁ hrest e
    rcases hmake : exec (makeDirectory ⟨"/", place ++ above ++ [name]⟩) fs with ⟨e | u, fs₁⟩
    · have hsame := eq_of_exec_makeDirectory_error hplace.names hplace.name_ne_parent hmake
      subst hsame
      cases e with
      | missing =>
        dsimp only
        rw [exec_bind, exec_bind, hrec, makeDirectories]
        rcases hmade :
          exec (makeDirectoriesFrom (place ++ above).length ⟨"/", place ++ above⟩)
            fs₁ with ⟨e | u, fs₂⟩
        · rfl
        · obtain ⟨hgrows, hfaces⟩ := grows_of_makeDirectories hplace.above hmade
          have hplace₂ : fs₂.IsPlace ⟨"/", place ++ above ++ [name]⟩ := by
            refine hplace.of_faces fun other _ => ?_
            rw [hfaces, Faces.opened]
            split
            · exact .inr rfl
            · exact .inl rfl
          dsimp only
          rw [exec_tryCatch, exec_tryCatch, exec_makeDirectory_way (hgrows.find hway) hplace₂ hrest]
          rcases hagain : exec (makeDirectory ⟨"/", place ++ above ++ [name]⟩) fs₂ with ⟨e | u, fs₃⟩
          · have hsame := eq_of_exec_makeDirectory_error hplace₂.names hplace₂.name_ne_parent hagain
            subst hsame
            cases e with
            | missing => rfl
            | _ => exact hunless (hgrows.find hway) hplace₂ _
          · rfl
      | _ => exact hunless hway hplace _
    · rfl

/-! ## Writing files -/

theorem destination_way (hway : fs.find ⟨"/", way⟩ = .ok place)
    (hplace : fs.IsPlace ⟨"/", place ++ rest ++ [name]⟩)
    (hrest : ∀ part ∈ rest ++ [name], isFileName part = true) :
    fs.destination ⟨"/", way ++ rest ++ [name]⟩ =
      fs.destination ⟨"/", place ++ rest ++ [name]⟩ := by
  have habove : ∀ part ∈ rest, isFileName part = true :=
    fun part hpart => hrest part (List.mem_append_left _ hpart)
  have hfind :
      fs.findFrom (linkLimit + 1) [] (way ++ rest) =
        fs.findFrom (linkLimit + 1) [] (place ++ rest) := by
    rw [← find_absolute (checkNames_append (checkNames_of_find hway) habove),
      ← find_absolute hplace.above.names]
    exact find_append hway hplace.above habove
  have hnames : Path.checkNames ⟨"/", way ++ rest ++ [name]⟩ = .ok () := by
    rw [List.append_assoc]
    exact checkNames_append (checkNames_of_find hway) hrest
  have hstart (names : List String) : fs.startOf ⟨"/", names⟩ = [] := rfl
  rw [destination, destination, hnames, hplace.names, hstart, hstart]
  simp only [bind, Except.bind]
  rw [destinationFrom, destinationFrom]
  simp only [List.getLast?_concat, List.dropLast_concat, hfind]

/-- **Below a way files are written where they are written below its place.** -/
theorem exec_writeBytes_way (hway : fs.find ⟨"/", way⟩ = .ok place)
    (hplace : fs.IsPlace ⟨"/", place ++ rest ++ [name]⟩)
    (hrest : ∀ part ∈ rest ++ [name], isFileName part = true)
    (content : ByteArray) :
    exec (writeBytes ⟨"/", way ++ rest ++ [name]⟩ content) fs =
      exec (writeBytes ⟨"/", place ++ rest ++ [name]⟩ content) fs := by
  simp only [writeBytes, exec_bind, exec_ask, destination_way hway hplace hrest]

theorem grows_of_writeBytes {above : List String} {fs' : FileSystem} {content : ByteArray}
    (h : fs.IsPlace ⟨"/", above ++ [name]⟩) (habove : fs.faces above = some .directory)
    (hexec : exec (writeBytes ⟨"/", above ++ [name]⟩ content) fs = (.ok (), fs')) :
    fs.Grows fs' := by
  obtain ⟨fs₁, hwrite, hfaces⟩ := exec_writeBytes h habove content
  rw [hexec] at hwrite
  obtain ⟨houtcome, rfl⟩ := Prod.mk.inj hwrite
  unfold Faces.write at houtcome hfaces
  split at houtcome
  next => cases houtcome
  next hnot =>
    rw [if_neg hnot] at hfaces
    replace hfaces :
        fs'.faces = Function.update fs.faces (above ++ [name]) (some (.file content)) := hfaces
    refine grows_of_changes fun place => ?_
    rw [hfaces, Function.update_apply]
    split
    next heq =>
      subst heq
      refine .inr ⟨fun target hlink => ?_, .inr ⟨rfl, hnot⟩⟩
      exact h.canonical.linkFree _ List.prefix_rfl target (faces_eq_link_iff.mp hlink)
    next => exact .inl rfl

/-! ## Ways that end -/

/-- A way that ends at a name that cannot be made: there is something in its place already, or no
directory above it. -/
structure Stuck (fs : FileSystem) (way : List String) (name : String) : Prop where
  proper : name ≠ ".."
  above : ∃ place, fs.find ⟨"/", way⟩ = .ok place ∧
    (fs.faces place = some .directory → fs.faces (place ++ [name]) ≠ none)
  lost : ∀ place, fs.find ⟨"/", way ++ [name]⟩ ≠ .ok place

/-- What is not found is not found by going on. -/
theorem Stuck.not_found (h : Stuck fs way name) (place : List String) :
    fs.find ⟨"/", way ++ [name] ++ rest⟩ ≠ .ok place := by
  intro hfound
  have hnames := checkNames_of_find hfound
  have hbegin : Path.checkNames ⟨"/", way ++ [name]⟩ = .ok () :=
    checkNames_eq_ok_iff.mpr fun part hpart =>
      checkNames_eq_ok_iff.mp hnames part (List.mem_append_left _ hpart)
  obtain ⟨middle, hmiddle⟩ := exists_of_findFrom_append (findFrom_of_find hfound)
  exact h.lost middle (by rw [find_absolute hbegin, hmiddle])

theorem Stuck.exec_unlessDirectory (h : Stuck fs way name) (rest : List String) (e : FileError) :
    exec (unlessDirectory ⟨"/", way ++ [name] ++ rest⟩ e) fs = (.error e, fs) := by
  have hnot : fs.isDirectory ⟨"/", way ++ [name] ++ rest⟩ = false := by
    unfold isDirectory entry?
    split
    next names hfound => exact absurd hfound (h.not_found names)
    next => rfl
  simp only [unlessDirectory, exec_bind, exec_get, hnot, exec_throw, Bool.not_false, if_true]

/-- **Nothing is made behind a name where a way ends.** -/
theorem Stuck.exec_makeDirectoriesFrom (h : Stuck fs way name) (fuel : Nat)
    (hrest : ∀ part ∈ rest, isFileName part = true)
    (hnames : Path.checkNames ⟨"/", way ++ [name]⟩ = .ok ()) :
    ∃ e, exec (makeDirectoriesFrom fuel ⟨"/", way ++ [name] ++ rest⟩) fs = (.error e, fs) := by
  induction rest using List.reverseRecOn generalizing fuel with
  | nil =>
    rw [List.append_nil]
    have hunless (e : FileError) : exec (unlessDirectory ⟨"/", way ++ [name]⟩ e) fs =
        (.error e, fs) := by
      have := h.exec_unlessDirectory [] e
      rwa [List.append_nil] at this
    obtain ⟨place, hfound, hthere⟩ := h.above
    by_cases hdirectory : fs.faces place = some .directory
    · have hmake : exec (makeDirectory ⟨"/", way ++ [name]⟩) fs = (.error .exists, fs) := by
        rw [exec_makeDirectory_eq hnames h.proper, hfound]
        dsimp only
        rw [if_pos hdirectory, if_pos (Option.isSome_iff_ne_none.mpr (hthere hdirectory))]
      exact ⟨.exists, by rw [exec_makeDirectoriesFrom_of_error fuel hmake (by decide), hunless]⟩
    · have hmake : exec (makeDirectory ⟨"/", way ++ [name]⟩) fs = (.error .notADirectory, fs) := by
        rw [exec_makeDirectory_eq hnames h.proper, hfound]
        dsimp only
        rw [if_neg hdirectory]
      exact ⟨.notADirectory, by
        rw [exec_makeDirectoriesFrom_of_error fuel hmake (by decide), hunless]⟩
  | append_singleton above last ih =>
    have habove : ∀ part ∈ above, isFileName part = true :=
      fun part hpart => hrest part (List.mem_append_left _ hpart)
    have hlast : last ≠ ".." := isFileName_ne_parent (hrest last (by simp))
    have hall : Path.checkNames ⟨"/", way ++ [name] ++ (above ++ [last])⟩ = .ok () :=
      checkNames_append hnames hrest
    have hunless := h.exec_unlessDirectory (above ++ [last])
    rw [← List.append_assoc] at hall hunless ⊢
    cases hfind : fs.find ⟨"/", way ++ [name] ++ above⟩ with
    | ok place => exact absurd hfind (h.not_found place)
    | error e =>
      have hmake : exec (makeDirectory ⟨"/", way ++ [name] ++ above ++ [last]⟩) fs =
          (.error e, fs) := by
        rw [exec_makeDirectory_eq hall hlast, hfind]
      by_cases he : e = .missing
      · subst he
        cases fuel with
        | zero =>
          refine ⟨.missing, ?_⟩
          rw [makeDirectoriesFrom, exec_tryCatch, hmake]
          exact hunless .missing
        | succ fuel =>
          obtain ⟨e, hrec⟩ := ih fuel habove
          have hparent : (⟨"/", way ++ [name] ++ above ++ [last]⟩ : Path).parent =
              ⟨"/", way ++ [name] ++ above⟩ := by
            rw [Path.parent, List.dropLast_concat]
          refine ⟨e, ?_⟩
          rw [makeDirectoriesFrom, exec_tryCatch, hmake]
          dsimp only
          rw [exec_bind, hparent, hrec]
      · exact ⟨e, by rw [exec_makeDirectoriesFrom_of_error fuel hmake he, hunless]⟩

/-- **Where a path leads**: all the way, up to a name that can be made, or up to one that cannot. -/
theorem way_cases (names : List String) (hnames : ∀ part ∈ names, isFileName part = true) :
    (∃ place, fs.find ⟨"/", names⟩ = .ok place) ∨
    (∃ way name rest place, names = way ++ name :: rest ∧ fs.find ⟨"/", way⟩ = .ok place ∧
      fs.faces place = some .directory ∧ fs.faces (place ++ [name]) = none) ∨
    ∃ way name rest, names = way ++ name :: rest ∧ Stuck fs way name := by
  induction names using List.reverseRecOn with
  | nil => exact .inl ⟨[], rfl⟩
  | append_singleton above name ih =>
    rcases ih fun part hpart => hnames part (List.mem_append_left _ hpart) with ⟨place, hplace⟩ |
      ⟨way, first, rest, place, rfl, hway⟩ | ⟨way, first, rest, rfl, hstuck⟩
    · by_cases hfree : fs.faces place = some .directory ∧ fs.faces (place ++ [name]) = none
      · exact .inr (.inl ⟨above, name, [], place, rfl, hplace, hfree⟩)
      · by_cases hfound : ∃ place, fs.find ⟨"/", above ++ [name]⟩ = .ok place
        · exact .inl hfound
        · refine .inr
            (.inr ⟨above, name, [], rfl, isFileName_ne_parent (hnames name (by simp)),
              ⟨place, hplace, ?_⟩, ?_⟩)
          · exact fun hdirectory hnone => hfree ⟨hdirectory, hnone⟩
          · exact fun place hplace => hfound ⟨place, hplace⟩
    · exact .inr (.inl ⟨way, first, rest ++ [name], place, by simp, hway⟩)
    · exact .inr (.inr ⟨way, first, rest ++ [name], by simp, hstuck⟩)

end FileAction

end CallAtlas
