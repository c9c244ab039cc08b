import CallAtlas.Proofs.FileSystem.Faces
import Mathlib.Data.List.Perm.Basic

/-!
# Outputs that do not get in each other's way

For a call site a directory is made and two files are written into it, a text and, if it could be
drawn, an image. What then stands where is known in advance: `Output.effect` says at which places
something is put, and it depends on a few faces only, those on the way to the directory and those at
the two files. Outputs are *compatible* if no file of one stands on the way to the other and no
place is given two contents. Then neither notices the other, and a number of them leaves the same
behind in every order:

- `Output.write_snd`: writing an output puts its effect on top of what is there;
- `Output.effect_write`, `Output.write_fst_write`: after another output the effect and the outcome
  are the same;
- `Output.writeAll_perm`: the order of outputs does not matter;
- `Output.writeAll_text`: an output that succeeds is found afterwards, whatever was written before
  and after it.
-/

namespace CallAtlas

/-- What is written for a call site: a text in a directory, and an image beside it if there is
one. -/
structure Output where
  directory : List String
  textName : String
  imageName : String
  text : ByteArray
  image : Option ByteArray
  names_ne : textName ≠ imageName

namespace Output

variable {w w' : Output} {F : Faces}

/-- Where the text is written. -/
def textPlace (w : Output) : List String := w.directory ++ [w.textName]

/-- Where the image is written. -/
def imagePlace (w : Output) : List String := w.directory ++ [w.imageName]

/-- The files of an output with their contents. -/
def files (w : Output) : List (List String × ByteArray) :=
  (w.textPlace, w.text) :: w.image.toList.map fun image => (w.imagePlace, image)

theorem mem_files_iff {file : List String × ByteArray} :
    file ∈ w.files ↔ file = (w.textPlace, w.text) ∨ ∃ image, w.image = some image ∧
      file = (w.imagePlace, image) := by
  simp only [files, List.mem_cons, List.mem_map, Option.mem_toList, eq_comm]

theorem mem_files_of_image {image : ByteArray} (h : w.image = some image) :
    (w.imagePlace, image) ∈ w.files :=
  mem_files_iff.mpr (.inr ⟨image, h, rfl⟩)

theorem textPlace_ne_imagePlace (w : Output) : w.textPlace ≠ w.imagePlace := by
  intro h
  exact w.names_ne (by simpa [textPlace, imagePlace] using h)

/-- What comes of writing an output. -/
def write (w : Output) (F : Faces) : Except FileError Unit × Faces :=
  match F.makeDirectories w.directory with
  | (.error e, F₁) => (.error e, F₁)
  | (.ok _, F₁) =>
    match F₁.write w.textPlace w.text with
    | (.error e, F₂) => (.error e, F₂)
    | (.ok _, F₂) =>
      match w.image with
      | none => (.ok (), F₂)
      | some image => F₂.write w.imagePlace image

/-! ## Effects -/

/-- The directory can be made. -/
def Opens (w : Output) (F : Faces) : Prop := F.blocks w.directory = false

/-- The text is written: the directory can be made, and there is none in place of the text. -/
def WritesText (w : Output) (F : Faces) : Prop := w.Opens F ∧ F w.textPlace ≠ some .directory

/-- All is written: the text, and after it the image if there is one. -/
def WritesAll (w : Output) (F : Faces) : Prop :=
  w.WritesText F ∧ (w.image.isSome = true → F w.imagePlace ≠ some .directory)

instance : Decidable (w.Opens F) := inferInstanceAs (Decidable (_ = _))
instance : Decidable (w.WritesText F) := inferInstanceAs (Decidable (_ ∧ _))
instance : Decidable (w.WritesAll F) := inferInstanceAs (Decidable (_ ∧ _))

/-- What writing an output puts where. -/
def effect (w : Output) (F : Faces) : Faces := fun place =>
  if w.WritesAll F ∧ place = w.imagePlace then w.image.map .file
  else if w.WritesText F ∧ place = w.textPlace then some (.file w.text)
  else if w.Opens F ∧ place <+: w.directory then some .directory
  else none

/-- A file of the directory is not on the way to the directory. -/
theorem not_prefix_directory (w : Output) (name : String) :
    ¬w.directory ++ [name] <+: w.directory := by
  intro h
  have := h.length_le
  rw [List.length_append, List.length_singleton] at this
  omega

theorem not_textPlace_prefix (w : Output) : ¬w.textPlace <+: w.directory := w.not_prefix_directory _

theorem not_imagePlace_prefix (w : Output) : ¬w.imagePlace <+: w.directory :=
  w.not_prefix_directory _

/-- The text of an output in its place. -/
def withText (w : Output) (F : Faces) : Faces :=
  Function.update (F.opened w.directory) w.textPlace (some (.file w.text))

/-- The image of an output in its place, if there is one. -/
def withImage (w : Output) (F : Faces) : Faces :=
  w.image.elim F fun image => Function.update F w.imagePlace (some (.file image))

/-- What can come of writing an output: it fails at the directory, at the text or at the image, and
keeps what was done before; or all is written. -/
theorem write_cases (w : Output) (F : Faces) :
    (¬w.Opens F ∧
      w.write F = (.error (if (F w.directory).any Face.isFile then .exists else .notADirectory),
        F)) ∨
    (w.Opens F ∧ F w.textPlace = some .directory ∧
      w.write F = (.error .isADirectory, F.opened w.directory)) ∨
    (w.WritesText F ∧ (w.image.isSome = true ∧ F w.imagePlace = some .directory) ∧
      w.write F = (.error .isADirectory, w.withText F)) ∨
    (w.WritesAll F ∧ w.write F = (.ok (), w.withImage (w.withText F))) := by
  have htextFace : F.opened w.directory w.textPlace = F w.textPlace := by
    rw [Faces.opened, if_neg w.not_textPlace_prefix]
  have himageFace : w.withText F w.imagePlace = F w.imagePlace := by
    rw [withText, Function.update_of_ne w.textPlace_ne_imagePlace.symm, Faces.opened,
      if_neg w.not_imagePlace_prefix]
  by_cases hopens : w.Opens F
  · have hmake : F.makeDirectories w.directory = (.ok (), F.opened w.directory) := by
      rw [Faces.makeDirectories, hopens]
      rfl
    rw [write, hmake]
    simp only
    by_cases htext : F w.textPlace = some .directory
    · refine .inr (.inl ⟨hopens, htext, ?_⟩)
      rw [Faces.write, htextFace, if_pos htext]
    · rw [Faces.write, htextFace, if_neg htext]
      simp only
      rw [← withText, withImage]
      cases himage : w.image with
      | none => exact .inr (.inr (.inr ⟨⟨⟨hopens, htext⟩, by simp [himage]⟩, rfl⟩))
      | some image =>
        simp only [Faces.write, himageFace]
        by_cases hplace : F w.imagePlace = some .directory
        · exact .inr (.inr (.inl ⟨⟨hopens, htext⟩, ⟨rfl, hplace⟩, if_pos hplace⟩))
        · exact .inr (.inr (.inr ⟨⟨⟨hopens, htext⟩, fun _ => hplace⟩, if_neg hplace⟩))
  · refine .inl ⟨hopens, ?_⟩
    have hblocks : F.blocks w.directory = true := Bool.not_eq_false _ ▸ hopens
    rw [write, Faces.makeDirectories, if_pos hblocks]

/-- The outcome of writing an output. -/
theorem write_fst (w : Output) (F : Faces) :
    (w.write F).1 =
      if w.WritesAll F then .ok ()
      else if w.Opens F then .error .isADirectory
      else .error (if (F w.directory).any Face.isFile then .exists else .notADirectory) := by
  rcases w.write_cases F with ⟨hnot, hwrite⟩ | ⟨hopens, htext, hwrite⟩ | ⟨hwrites, himage, hwrite⟩ |
    ⟨hwrites, hwrite⟩
  · have hno : ¬w.WritesAll F := fun h => hnot h.1.1
    rw [hwrite, if_neg hno, if_neg hnot]
  · rw [hwrite, if_neg fun h => h.1.2 htext, if_pos hopens]
  · rw [hwrite, if_neg fun h => h.2 himage.1 himage.2, if_pos hwrites.1]
  · rw [hwrite, if_pos hwrites]

/-- **Writing an output puts its effect on top of what is there.** -/
theorem write_snd (w : Output) (F : Faces) :
    (w.write F).2 = fun place => (w.effect F place).or (F place) := by
  have hopened (place : List String) : F.opened w.directory place =
      (if place <+: w.directory then some Face.directory else none).or (F place) := by
    unfold Faces.opened
    split
    · rfl
    · rfl
  funext place
  unfold effect
  rcases w.write_cases F with ⟨hnot, hwrite⟩ | ⟨hopens, htext, hwrite⟩ | ⟨hwrites, himage, hwrite⟩ |
    ⟨hwrites, hwrite⟩
  · have hno : ¬w.WritesText F := fun h => hnot h.1
    have hno' : ¬w.WritesAll F := fun h => hno h.1
    rw [hwrite]
    simp [hnot, hno, hno']
  · have hno : ¬w.WritesText F := fun h => h.2 htext
    have hno' : ¬w.WritesAll F := fun h => hno h.1
    rw [hwrite]
    simp [hopens, hno, hno', hopened]
  · have hno' : ¬w.WritesAll F := fun h => h.2 himage.1 himage.2
    rw [hwrite]
    simp only [withText, Function.update_apply, hopened, hwrites, hwrites.1, hno', true_and,
      false_and, if_false]
    split
    · rfl
    · rfl
  · rw [hwrite]
    simp only [withImage, withText, hwrites, hwrites.1, hwrites.1.1, true_and]
    cases w.image with
    | none =>
      simp only [Option.elim_none, Option.map_none, Function.update_apply, hopened]
      by_cases himage : place = w.imagePlace
      · subst himage
        rw [if_pos rfl, if_neg w.textPlace_ne_imagePlace.symm, if_neg w.not_imagePlace_prefix]
      · rw [if_neg himage]
        split
        · rfl
        · rfl
    | some image =>
      simp only [Option.elim_some, Option.map_some, Function.update_apply, hopened]
      split
      · rfl
      · split
        · rfl
        · rfl

/-- After an output that succeeds its text is there. -/
theorem write_text (h : (w.write F).1 = .ok ()) :
    (w.write F).2 w.textPlace = some (.file w.text) := by
  rcases w.write_cases F with ⟨-, hwrite⟩ | ⟨-, -, hwrite⟩ | ⟨-, -, hwrite⟩ | ⟨-, hwrite⟩
  · rw [hwrite] at h
    cases h
  · rw [hwrite] at h
    cases h
  · rw [hwrite] at h
    cases h
  · rw [hwrite]
    simp only [withImage]
    cases w.image with
    | none => rw [Option.elim_none, withText, Function.update_self]
    | some image =>
      rw [Option.elim_some, Function.update_of_ne w.textPlace_ne_imagePlace, withText,
        Function.update_self]

/-- An effect is a file of the output, where no directory was in its place, or a directory on the
way to the output, where no file was. -/
theorem effect_cases {place : List String} {face : Face} (h : w.effect F place = some face) :
    (∃ content, face = .file content ∧ (place, content) ∈ w.files ∧ F place ≠ some .directory) ∨
      (face = .directory ∧ place <+: w.directory ∧ (F place).any Face.isFile = false) := by
  unfold effect at h
  split at h
  next himage =>
    obtain ⟨hwrites, rfl⟩ := himage
    obtain ⟨image, himage, rfl⟩ := Option.map_eq_some_iff.mp h
    exact .inl ⟨image, rfl, mem_files_of_image himage, hwrites.2 (by rw [himage]; rfl)⟩
  next =>
    split at h
    next htext =>
      cases h
      obtain ⟨hwrites, rfl⟩ := htext
      exact .inl ⟨_, rfl, List.mem_cons_self, hwrites.2⟩
    next =>
      split at h
      next hopens =>
        cases h
        exact .inr ⟨rfl, hopens.2, Faces.blocks_eq_false_iff.mp hopens.1 place hopens.2⟩
      next => cases h

/-! ## Compatible outputs -/

/-- Two outputs do not get in each other's way: no file of one is on the way to the other, and no
place is given two contents. -/
structure Compatible (w w' : Output) : Prop where
  apart : ∀ file ∈ w.files, ¬file.1 <+: w'.directory
  apart' : ∀ file ∈ w'.files, ¬file.1 <+: w.directory
  agree : ∀ file ∈ w.files, ∀ file' ∈ w'.files, file.1 = file'.1 → file.2 = file'.2

/-- The other output makes no file on the way to a directory, and removes none. -/
theorem Compatible.isFile_write (h : w.Compatible w') (F : Faces) {above : List String}
    (habove : above <+: w.directory) :
    ((w'.write F).2 above).any Face.isFile = (F above).any Face.isFile := by
  rw [write_snd]
  simp only
  cases heffect : w'.effect F above with
  | none => rfl
  | some face =>
    rcases effect_cases heffect with ⟨content, -, hfile, -⟩ | ⟨rfl, -, hnone⟩
    · exact absurd habove (h.apart' _ hfile)
    · exact hnone.symm

/-- The other output makes no directory in place of a file, and removes none. -/
theorem Compatible.directory_write (h : w.Compatible w') (F : Faces)
    {file : List String × ByteArray} (hfile : file ∈ w.files) :
    (w'.write F).2 file.1 = some .directory ↔ F file.1 = some .directory := by
  rw [write_snd]
  simp only
  cases heffect : w'.effect F file.1 with
  | none => rfl
  | some face =>
    rcases effect_cases heffect with ⟨content, rfl, -, hnone⟩ | ⟨-, hprefix, -⟩
    · exact iff_of_false (by simp) hnone
    · exact absurd hprefix (h.apart file hfile)

theorem Compatible.opens_write (h : w.Compatible w') (F : Faces) :
    w.Opens (w'.write F).2 ↔ w.Opens F := by
  unfold Opens
  rw [Faces.blocks_eq_false_iff, Faces.blocks_eq_false_iff]
  exact forall₂_congr fun above habove => by rw [h.isFile_write F habove]

theorem Compatible.writesText_write (h : w.Compatible w') (F : Faces) :
    w.WritesText (w'.write F).2 ↔ w.WritesText F :=
  and_congr (h.opens_write F) (not_congr (h.directory_write F List.mem_cons_self))

theorem Compatible.writesAll_write (h : w.Compatible w') (F : Faces) :
    w.WritesAll (w'.write F).2 ↔ w.WritesAll F := by
  refine and_congr (h.writesText_write F) (imp_congr_right fun himage => not_congr ?_)
  obtain ⟨image, himage⟩ := Option.isSome_iff_exists.mp himage
  exact h.directory_write F (mem_files_of_image himage)

theorem Compatible.effect_write (h : w.Compatible w') (F : Faces) :
    w.effect (w'.write F).2 = w.effect F := by
  funext place
  simp only [effect, h.writesAll_write F, h.writesText_write F, h.opens_write F]

/-- **The outcome of an output does not depend on a compatible one** that is written before it. -/
theorem Compatible.write_fst_write (h : w.Compatible w') (F : Faces) :
    (w.write (w'.write F).2).1 = (w.write F).1 := by
  rw [write_fst, write_fst, h.isFile_write F List.prefix_rfl]
  simp only [h.writesAll_write F, h.opens_write F]

/-- **Compatible outputs can be written in either order.** Where both put something, they put the
same. -/
theorem Compatible.write_comm (h : w.Compatible w') (h' : w'.Compatible w) (F : Faces) :
    (w.write (w'.write F).2).2 = (w'.write (w.write F).2).2 := by
  rw [write_snd w (w'.write F).2, write_snd w' (w.write F).2, h.effect_write F, h'.effect_write F,
    write_snd w F, write_snd w' F]
  funext place
  simp only
  cases hw : w.effect F place with
  | none => rfl
  | some face =>
    cases hw' : w'.effect F place with
    | none => rfl
    | some face' =>
      have hsame : face = face' := by
        rcases effect_cases hw with ⟨content, rfl, hfile, -⟩ | ⟨rfl, hprefix, -⟩
        · rcases effect_cases hw' with ⟨content', rfl, hfile', -⟩ | ⟨-, hprefix', -⟩
          · exact congrArg Face.file (h.agree _ hfile _ hfile' rfl)
          · exact absurd hprefix' (h.apart _ hfile)
        · rcases effect_cases hw' with ⟨content', -, hfile', -⟩ | ⟨rfl, -, -⟩
          · exact absurd hprefix (h.apart' _ hfile')
          · rfl
      rw [hsame]

/-! ## Many outputs -/

/-- What stands where after several outputs were written, one after the other. -/
def writeAll (F : Faces) (outputs : List Output) : Faces :=
  outputs.foldl (fun F w => (w.write F).2) F

/-- The outcome of an output does not depend on what compatible ones were written before it. -/
theorem write_fst_writeAll {outputs : List Output}
    (h : ∀ w' ∈ outputs, w.Compatible w') (F : Faces) :
    (w.write (writeAll F outputs)).1 = (w.write F).1 := by
  induction outputs generalizing F with
  | nil => rfl
  | cons first rest ih =>
    obtain ⟨hfirst, hrest⟩ := List.forall_mem_cons.mp h
    exact (ih hrest _).trans (hfirst.write_fst_write F)

/-- **The order of compatible outputs does not matter.** -/
theorem writeAll_perm {outputs outputs' : List Output} (horder : outputs.Perm outputs')
    (h : ∀ w ∈ outputs, ∀ w' ∈ outputs, w.Compatible w') (F : Faces) :
    writeAll F outputs = writeAll F outputs' :=
  horder.foldl_eq' (fun w hw w' hw' F => (h w' hw' w hw).write_comm (h w hw w' hw') F) F

/-- **An output that succeeds is found afterwards.** It might as well have been written last. -/
theorem writeAll_text {outputs : List Output} (h : ∀ w ∈ outputs, ∀ w' ∈ outputs, w.Compatible w')
    (hw : w ∈ outputs) {F : Faces} (hok : (w.write F).1 = .ok ()) :
    writeAll F outputs w.textPlace = some (.file w.text) := by
  obtain ⟨others, horder⟩ : ∃ others, outputs.Perm (others ++ [w]) := by
    obtain ⟨before, after, rfl⟩ := List.append_of_mem hw
    refine ⟨before ++ after, ?_⟩
    rw [List.append_assoc]
    exact (List.perm_append_singleton w after).symm.append_left before
  have hothers : ∀ w' ∈ others, w.Compatible w' := fun w' hw' =>
    h w hw w' (horder.mem_iff.mpr (List.mem_append_left _ hw'))
  rw [writeAll_perm horder h, writeAll, List.foldl_concat]
  exact write_text ((write_fst_writeAll hothers F).trans hok)

end Output

end CallAtlas
