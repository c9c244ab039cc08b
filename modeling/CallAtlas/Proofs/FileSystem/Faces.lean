import CallAtlas.FileSystem.Write
import CallAtlas.Proofs.FileSystem.Canonical
import Mathlib

/-!
# What stands where

Two file systems may list the entries of a directory in a different order and still hold the same.
What can be seen of a file system is its *faces*: at each place a file with its content, a link with
its target, a directory, or nothing.

- An entry that is put into a directory changes the face at its place and no other
  (`FileSystem.faces_insert`).
- Writing is described on faces: `Faces.makeDirectories` makes the directories of a place,
  `Faces.write` writes a file.
- Away from links the faces decide where a path leads (`FileSystem.IsPlace.find_cases`) and what is
  read there (`FileSystem.IsPlace.readBytes`).
-/

namespace CallAtlas

/-- What can be seen of an entry at its place. -/
inductive Face where
  | file (content : ByteArray)
  | link (target : String)
  | directory
  deriving DecidableEq

/-- Whether a face is that of a regular file. -/
def Face.isFile : Face → Bool
  | .file _ => true
  | _ => false

/-- What stands at each place of a file system. -/
abbrev Faces := List String → Option Face

namespace Entry

/-- The face of an entry. -/
def face : Entry → Face
  | .file content => .file content
  | .link target => .link target
  | .directory _ => .directory

theorem face_eq_directory_iff {e : Entry} :
    e.face = .directory ↔ ∃ entries, e = .directory entries := by
  cases e <;> simp [face]

theorem face_eq_link_iff {e : Entry} {target : String} :
    e.face = .link target ↔ e = .link target := by
  cases e <;> simp [face]

theorem face_eq_file_iff {e : Entry} {content : ByteArray} :
    e.face = .file content ↔ e = .file content := by
  cases e <;> simp [face]

theorem isDirectory_iff_face {e : Entry} : e.isDirectory = true ↔ e.face = .directory := by
  cases e <;> simp [face, isDirectory]

/-! ## Putting an entry in its place -/

/-- The first entry with a name is the one that is found. -/
theorem lookup?_cons (n name : String) (e : Entry) (others : List (String × Entry)) :
    lookup? ((n, e) :: others) name = if n = name then some e else lookup? others name := by
  unfold lookup?
  by_cases h : n = name
  · simp [h]
  · rw [if_neg h, List.find?_cons_of_neg (by simpa using h)]

/-- What is found in a directory after an entry was put under a name or below it. -/
theorem lookup?_insertInto (new : Entry) (name : String) (rest : List String)
    (entries : List (String × Entry)) (other : String) :
    lookup? (insertInto new name rest entries) other =
      if other = name then some (insertAt new rest ((lookup? entries name).getD (.directory [])))
      else lookup? entries other := by
  induction entries with
  | nil =>
    rw [insertInto, lookup?_cons]
    by_cases h : other = name
    · rw [if_pos h.symm, if_pos h]
      rfl
    · rw [if_neg (Ne.symm h), if_neg h]
  | cons first others ih =>
    obtain ⟨n, e⟩ := first
    rw [insertInto]
    by_cases hn : n = name
    · subst hn
      rw [if_pos rfl, lookup?_cons, lookup?_cons, if_pos rfl, Option.getD_some]
      by_cases h : other = n
      · rw [if_pos h.symm, if_pos h]
      · rw [if_neg (Ne.symm h), if_neg h, lookup?_cons, if_neg (Ne.symm h)]
    · rw [if_neg hn, lookup?_cons, ih, lookup?_cons, if_neg hn]
      by_cases h : other = name
      · subst h
        rw [if_neg hn, if_pos rfl, if_pos rfl]
      · rw [if_neg h, if_neg h, lookup?_cons]

/-- Nothing lies below a new entry. -/
def IsBare (e : Entry) : Prop := ∀ name rest, e.descend? (name :: rest) = none

theorem isBare_file (content : ByteArray) : IsBare (.file content) := fun _ _ => rfl

theorem isBare_directory : IsBare (.directory []) := fun _ _ => rfl

/-- An entry that is put into a directory, in place of nothing or of something with nothing below
it, is all that changes. Induction on the names that lead to the directory. -/
theorem face_descend?_insertAt {new : Entry} (hnew : new.IsBare) {e : Entry} {above : List String}
    {name : String} {entries : List (String × Entry)}
    (habove : e.descend? above = some (.directory entries))
    (hold : ∀ old, lookup? entries name = some old → old.IsBare) (place : List String) :
    ((insertAt new (above ++ [name]) e).descend? place).map face =
      if place = above ++ [name] then some new.face else (e.descend? place).map face := by
  induction above generalizing e place with
  | nil =>
    rw [descend?_nil] at habove
    cases habove
    rw [List.nil_append, insertAt]
    cases place with
    | nil => rfl
    | cons other rest =>
      rw [descend?_directory, descend?_directory, lookup?_insertInto, insertAt]
      by_cases hother : other = name
      · subst hother
        rw [if_pos rfl, Option.bind_some]
        cases rest with
        | nil => rw [if_pos rfl, descend?_nil, Option.map_some]
        | cons next rest =>
          rw [if_neg (by simp), hnew next rest]
          cases hlookup : lookup? entries other with
          | none => rfl
          | some old => rw [Option.bind_some, hold old hlookup next rest]
      · rw [if_neg hother, if_neg (by simp [hother])]
  | cons step above ih =>
    cases e with
    | file content => cases habove
    | link target => cases habove
    | directory listed =>
      rw [descend?_directory] at habove
      obtain ⟨next, hnext, hbelow⟩ := Option.bind_eq_some_iff.mp habove
      rw [List.cons_append, insertAt]
      cases place with
      | nil => rfl
      | cons other rest =>
        rw [descend?_directory, descend?_directory, lookup?_insertInto, hnext, Option.getD_some]
        by_cases hother : other = step
        · subst hother
          rw [if_pos rfl, Option.bind_some, hnext, Option.bind_some, ih hbelow]
          simp
        · rw [if_neg hother, if_neg (by simp [hother])]

end Entry

namespace FileSystem

variable {fs : FileSystem}

/-- What stands at the places of a file system. -/
def faces (fs : FileSystem) : Faces := fun names => (fs.entryAt? names).map Entry.face

/-- There is a face where there is an entry. -/
theorem faces_eq_none_iff {names : List String} :
    fs.faces names = none ↔ fs.entryAt? names = none :=
  Option.map_eq_none_iff

theorem faces_eq_directory_iff {names : List String} :
    fs.faces names = some .directory ↔
      ∃ entries, fs.entryAt? names = some (.directory entries) := by
  rw [faces, Option.map_eq_some_iff]
  constructor
  · rintro ⟨e, he, hface⟩
    obtain ⟨entries, rfl⟩ := Entry.face_eq_directory_iff.mp hface
    exact ⟨entries, he⟩
  · rintro ⟨entries, he⟩
    exact ⟨_, he, rfl⟩

theorem faces_eq_link_iff {names : List String} {target : String} :
    fs.faces names = some (.link target) ↔ fs.entryAt? names = some (.link target) := by
  rw [faces, Option.map_eq_some_iff]
  constructor
  · rintro ⟨e, he, hface⟩
    rw [he, Entry.face_eq_link_iff.mp hface]
  · intro he
    exact ⟨_, he, rfl⟩

theorem faces_eq_file_iff {names : List String} {content : ByteArray} :
    fs.faces names = some (.file content) ↔ fs.entryAt? names = some (.file content) := by
  rw [faces, Option.map_eq_some_iff]
  constructor
  · rintro ⟨e, he, hface⟩
    rw [he, Entry.face_eq_file_iff.mp hface]
  · intro he
    exact ⟨_, he, rfl⟩

@[simp] theorem faces_nil (fs : FileSystem) : fs.faces [] = some .directory := rfl

/-- Above anything there are directories. -/
theorem faces_above {place rest : List String} (hrest : rest ≠ [])
    (h : fs.faces (place ++ rest) ≠ none) : fs.faces place = some .directory := by
  obtain ⟨e, he⟩ := Option.ne_none_iff_exists'.mp fun hnone => h (faces_eq_none_iff.mpr hnone)
  exact faces_eq_directory_iff.mpr (isDirectory_of_entryAt? hrest he)

/-- A directory shows as one. -/
theorem any_isDirectory_iff {names : List String} :
    (fs.entryAt? names).any Entry.isDirectory = true ↔ fs.faces names = some .directory := by
  rw [faces]
  cases fs.entryAt? names with
  | none => simp
  | some e => simp [Entry.isDirectory_iff_face]

/-- **An entry that is put into a directory changes the face at its place**, and no other, if there
is no directory in its place. -/
theorem faces_insert {new : Entry} (hnew : new.IsBare) {above : List String} {name : String}
    (habove : fs.faces above = some .directory)
    (hplace : fs.faces (above ++ [name]) ≠ some .directory) :
    (fs.insert (above ++ [name]) new).faces =
      Function.update fs.faces (above ++ [name]) (some new.face) := by
  obtain ⟨entries, hentries⟩ := faces_eq_directory_iff.mp habove
  have hold : ∀ old, Entry.lookup? entries name = some old → old.IsBare := by
    intro old hlookup
    rw [← entryAt?_child hentries] at hlookup
    cases old with
    | file content => exact Entry.isBare_file content
    | link target => exact fun _ _ => rfl
    | directory listed => exact absurd (faces_eq_directory_iff.mpr ⟨listed, hlookup⟩) hplace
  have hinsert :
      (fs.insert (above ++ [name]) new).root = Entry.insertAt new (above ++ [name]) fs.root := by
    cases above with
    | nil => rw [List.nil_append, insert, root, root, Entry.insertAt]
    | cons step above => rw [List.cons_append, insert, root, root, Entry.insertAt]
  funext place
  rw [Function.update_apply, faces, entryAt?, hinsert,
    Entry.face_descend?_insertAt hnew hentries hold]
  rfl

end FileSystem

/-! ## Writing, as it is seen -/

namespace Faces

variable {F : Faces}

/-- Whether there is a file on the way to a place, or at it. -/
def blocks (F : Faces) (place : List String) : Bool :=
  place.inits.any fun above => (F above).any Face.isFile

/-- A file somewhere above, or at the place itself, is in the way. -/
theorem blocks_iff {place : List String} :
    F.blocks place = true ↔ ∃ above, above <+: place ∧ (F above).any Face.isFile = true := by
  simp [blocks]

theorem blocks_eq_false_iff {place : List String} :
    F.blocks place = false ↔ ∀ above, above <+: place → (F above).any Face.isFile = false := by
  simp [blocks]

/-- With directories on the way to a place, and at it. -/
def opened (F : Faces) (place : List String) : Faces :=
  fun other => if other <+: place then some .directory else F other

/-- What is in the way of a place is in the way above it, or stands there. -/
theorem blocks_concat (F : Faces) (above : List String) (name : String) :
    F.blocks (above ++ [name]) = (F.blocks above || (F (above ++ [name])).any Face.isFile) := by
  simp [blocks, List.inits_append]

/-- Opening one directory more changes one place. -/
theorem opened_concat (F : Faces) (above : List String) (name : String) :
    F.opened (above ++ [name]) =
      Function.update (F.opened above) (above ++ [name]) (some .directory) := by
  funext other
  rw [Function.update_apply, opened, opened]
  by_cases hother : other = above ++ [name]
  · rw [if_pos (hother ▸ List.prefix_rfl), if_pos hother]
  · rw [if_neg hother]
    simp only [List.prefix_concat_iff, hother, false_or]

/-- Directories that are open already stay so. -/
theorem opened_opened (F : Faces) {above place : List String} (h : above <+: place) :
    (F.opened above).opened place = F.opened place := by
  funext other
  unfold opened
  split
  next => rfl
  next hother => rw [if_neg fun habove => hother (habove.trans h)]

/-- What comes of making the directories of a place. -/
def makeDirectories (F : Faces) (place : List String) : Except FileError Unit × Faces :=
  if F.blocks place then (.error (if (F place).any Face.isFile then .exists else .notADirectory), F)
  else (.ok (), F.opened place)

/-- What comes of writing a file at a place, with a directory above it. -/
def write (F : Faces) (place : List String) (content : ByteArray) : Except FileError Unit × Faces :=
  if F place = some .directory then (.error .isADirectory, F)
  else (.ok (), Function.update F place (some (.file content)))

/-- If directories could be made, they are open. -/
theorem eq_opened_of_makeDirectories {F' : Faces} {place : List String}
    (h : F.makeDirectories place = (.ok (), F')) : F' = F.opened place := by
  unfold makeDirectories at h
  split at h
  next => cases h
  next =>
    cases h
    rfl

/-- If a file could be written, only its own place has changed. -/
theorem eq_update_of_write {F' : Faces} {place : List String} {content : ByteArray}
    (h : F.write place content = (.ok (), F')) :
    F' = Function.update F place (some (.file content)) := by
  unfold write at h
  split at h
  next => cases h
  next =>
    cases h
    rfl

end Faces

namespace FileSystem

variable {fs : FileSystem}

/-- Below a place where nothing is there is nothing. -/
theorem faces_below {place : List String} (h : fs.faces place = none) {other : List String}
    (hother : place <+: other) : fs.faces other = none := by
  obtain ⟨rest, rfl⟩ := hother
  by_cases hrest : rest = []
  · rw [hrest, List.append_nil, h]
  · by_contra hsome
    rw [faces_above hrest hsome] at h
    cases h

/-- Above something there is no file. -/
theorem not_isFile_above {place above : List String} (h : fs.faces place = some .directory)
    (habove : above <+: place) : (fs.faces above).any Face.isFile = false := by
  obtain ⟨rest, rfl⟩ := habove
  have hdirectory : fs.faces above = some .directory := by
    by_cases hrest : rest = []
    · rwa [hrest, List.append_nil] at h
    · exact faces_above hrest (by rw [h]; exact Option.some_ne_none _)
  rw [hdirectory]
  rfl

/-- Where there is a directory, nothing has to be made. -/
theorem opened_faces {place : List String} (h : fs.faces place = some .directory) :
    fs.faces.opened place = fs.faces := by
  funext other
  unfold Faces.opened
  split
  next hother =>
    obtain ⟨rest, rfl⟩ := hother
    by_cases hrest : rest = []
    · rw [hrest, List.append_nil] at h
      exact h.symm
    · exact (faces_above hrest (by rw [h]; exact Option.some_ne_none _)).symm
  next => rfl

/-- Nothing is in the way of a directory that is there. -/
theorem blocks_faces {place : List String} (h : fs.faces place = some .directory) :
    fs.faces.blocks place = false :=
  Faces.blocks_eq_false_iff.mpr fun _ habove => not_isFile_above h habove

/-- The way down a canonical place ends there, where something is missing, or at a file. -/
theorem advance_cases (place : List String) {names : List String}
    (h : fs.Canonical (place ++ names)) (hplace : fs.faces place ≠ none) :
    (fs.advance place names = .arrived (place ++ names) ∧ fs.faces (place ++ names) ≠ none) ∨
    (fs.advance place names = .failed .missing ∧ fs.faces (place ++ names) = none ∧
      fs.faces.blocks (place ++ names) = false) ∨
    (fs.advance place names = .failed .notADirectory ∧ fs.faces (place ++ names) = none ∧
      fs.faces.blocks (place ++ names) = true) := by
  induction names generalizing place with
  | nil =>
    rw [List.append_nil, advance]
    exact .inl ⟨rfl, hplace⟩
  | cons name rest ih =>
    have hsplit : place ++ name :: rest = place ++ [name] ++ rest := by simp
    have hname : name ≠ ".." := by
      rintro rfl
      exact h.straight (by simp)
    have hlink : ∀ target, fs.entryAt? (place ++ [name]) ≠ some (.link target) :=
      h.linkFree _ (by rw [hsplit]; exact List.prefix_append _ _)
    by_cases hdirectory : fs.faces place = some .directory
    · obtain ⟨entries, hentries⟩ := faces_eq_directory_iff.mp hdirectory
      rw [hsplit] at h ⊢
      rw [advance, hentries]
      simp only [if_neg hname]
      split
      next target htarget => exact absurd htarget (hlink target)
      next e _ he => exact ih _ h (fun hnone => by rw [faces_eq_none_iff, he] at hnone; cases hnone)
      next hnone =>
        have hmissing : fs.faces (place ++ [name]) = none := faces_eq_none_iff.mpr hnone
        refine .inr (.inl ⟨rfl, faces_below hmissing (List.prefix_append _ _), ?_⟩)
        rw [Faces.blocks_eq_false_iff]
        intro above habove
        -- either above the place, where there are directories, or below what is missing
        rcases List.prefix_or_prefix_of_prefix habove
          (List.prefix_append (place ++ [name]) rest) with hup | hdown
        · rcases List.prefix_concat_iff.mp hup with rfl | hup
          · rw [hmissing]
            rfl
          · exact not_isFile_above hdirectory hup
        · rw [faces_below hmissing hdown]
          rfl
    · have hbelow : fs.faces (place ++ name :: rest) = none := by
        by_contra hsome
        exact hdirectory (faces_above (by simp) hsome)
      have hnone : ∀ entries, fs.entryAt? place ≠ some (.directory entries) := fun entries he =>
        hdirectory (faces_eq_directory_iff.mpr ⟨entries, he⟩)
      refine .inr (.inr ⟨?_, hbelow, ?_⟩)
      · rw [advance]
        split
        next entries he => exact absurd he (hnone entries)
        next => rfl
      · rw [Faces.blocks_iff]
        refine ⟨place, List.prefix_append _ _, ?_⟩
        obtain ⟨e, he⟩ :=
          Option.ne_none_iff_exists'.mp fun hnone => hplace (faces_eq_none_iff.mpr hnone)
        rw [faces, he]
        cases e with
        | file content => rfl
        | link target => exact absurd he (h.linkFree place (List.prefix_append _ _) target)
        | directory entries => exact absurd he (hnone entries)

/-- What a place leads to: itself, or nothing. -/
theorem IsPlace.find_cases {p : Path} (h : fs.IsPlace p) :
    (fs.find p = .ok p.parts ∧ fs.faces p.parts ≠ none) ∨
    (fs.find p = .error .missing ∧ fs.faces p.parts = none ∧ fs.faces.blocks p.parts = false) ∨
    (fs.find p = .error .notADirectory ∧ fs.faces p.parts = none ∧
      fs.faces.blocks p.parts = true) := by
  have hfind : fs.find p = fs.findFrom (linkLimit + 1) [] p.parts := by
    have hstart : fs.startOf p = [] := by
      rw [startOf, Path.isAbsolute, h.root]
      rfl
    rw [find, h.names, hstart]
    rfl
  have hroot : fs.faces [] ≠ none := by simp
  rcases advance_cases [] h.canonical hroot with ⟨hgo, hface⟩ | ⟨hgo, hface⟩ | ⟨hgo, hface⟩
  · rw [hfind, findFrom, hgo]
    exact .inl ⟨rfl, hface⟩
  · rw [hfind, findFrom, hgo]
    exact .inr (.inl ⟨rfl, hface⟩)
  · rw [hfind, findFrom, hgo]
    exact .inr (.inr ⟨rfl, hface⟩)

/-- At a place no link is followed, so that a directory is one by its face. -/
theorem IsPlace.isDirectory_iff {p : Path} (h : fs.IsPlace p) :
    fs.isDirectory p = true ↔ fs.faces p.parts = some .directory := by
  unfold isDirectory entry?
  rcases h.find_cases with ⟨hfind, -⟩ | ⟨hfind, hnone, -⟩ | ⟨hfind, hnone, -⟩
  · rw [hfind]
    exact any_isDirectory_iff
  · rw [hfind, hnone]
    simp
  · rw [hfind, hnone]
    simp

/-- Whether a path names a place can be seen. -/
theorem IsPlace.of_faces {fs' : FileSystem} {p : Path} (h : fs.IsPlace p)
    (hfaces : ∀ place, place <+: p.parts → fs'.faces place = fs.faces place ∨
      fs'.faces place = some .directory) : fs'.IsPlace p := by
  refine ⟨h.root, h.names, fun place hplace target htarget => ?_, h.canonical.straight⟩
  have hlink := faces_eq_link_iff.mpr htarget
  rcases hfaces place hplace with hsame | hdirectory
  · rw [hsame] at hlink
    exact h.canonical.linkFree place hplace target (faces_eq_link_iff.mp hlink)
  · rw [hdirectory] at hlink
    cases hlink

/-- What lies above a place is a place. -/
theorem IsPlace.above {above : List String} {name : String}
    (h : fs.IsPlace ⟨"/", above ++ [name]⟩) :
    fs.IsPlace ⟨"/", above⟩ := by
  refine ⟨rfl, checkNames_eq_ok_iff.mpr fun part hpart => ?_,
    h.canonical.of_prefix (List.prefix_append _ _)⟩
  exact checkNames_eq_ok_iff.mp h.names part (List.mem_append_left _ hpart)

/-- The last name of a place is not the way up. -/
theorem IsPlace.name_ne_parent {above : List String} {name : String}
    (h : fs.IsPlace ⟨"/", above ++ [name]⟩) : name ≠ ".." := by
  rintro rfl
  exact h.canonical.straight (by simp)

/-- What stands at a place is what is read there. -/
theorem IsPlace.readBytes {p : Path} {content : ByteArray} (h : fs.IsPlace p)
    (hface : fs.faces p.parts = some (.file content)) : fs.readBytes p = .ok content := by
  have hentry : fs.entryAt? p.parts = some (.file content) := faces_eq_file_iff.mp hface
  rcases h.find_cases with ⟨hfind, -⟩ | ⟨-, hnone, -⟩ | ⟨-, hnone, -⟩
  · rw [FileSystem.readBytes, hfind]
    simp only [bind, Except.bind, hentry]
    rfl
  · rw [hface] at hnone
    cases hnone
  · rw [hface] at hnone
    cases hnone

end FileSystem

end CallAtlas
