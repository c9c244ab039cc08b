import CallAtlas.Proofs.FileSystem.Faces

/-!
# What actions do

Actions change a file system as they are said to on its faces, at places that no link leads to:

- the directories above a file are all made or none is, and the faces on the way decide which
  (`FileAction.exec_makeDirectories`);
- a file is written unless there is a directory in its place (`FileAction.exec_writeBytes`).

The equations for `FileAction.exec` take a sequence of actions apart, so that no proof looks at the
monads.
-/

namespace CallAtlas

namespace FileAction

variable {α β : Type} {fs : FileSystem}

/-- The outcome of an action in a file system, and the file system after it. -/
def exec (action : FileAction α) (fs : FileSystem) : Except FileError α × FileSystem :=
  action.run.run fs

@[simp] theorem exec_pure (a : α) : exec (pure a) fs = (.ok a, fs) := rfl

@[simp] theorem exec_throw (e : FileError) : exec (throw e : FileAction α) fs = (.error e, fs) :=
  rfl

@[simp] theorem exec_get : exec (get : FileAction FileSystem) fs = (.ok fs, fs) := rfl

@[simp] theorem exec_modify (f : FileSystem → FileSystem) :
    exec (modify f : FileAction PUnit) fs = (.ok ⟨⟩, f fs) := rfl

theorem exec_bind (action : FileAction α) (f : α → FileAction β) :
    exec (action >>= f) fs =
      match exec action fs with
      | (.ok a, fs') => exec (f a) fs'
      | (.error e, fs') => (.error e, fs') := by
  simp only [exec, ExceptT.run_bind, StateT.run_bind]
  rcases StateT.run (ExceptT.run action) fs with ⟨_ | _, _⟩ <;> rfl

theorem exec_tryCatch (action : FileAction α) (handler : FileError → FileAction α) :
    exec (tryCatch action handler) fs =
      match exec action fs with
      | (.ok a, fs') => (.ok a, fs')
      | (.error e, fs') => exec (handler e) fs' := by
  simp only [exec, ExceptT.run_tryCatch, StateT.run_bind]
  rcases StateT.run (ExceptT.run action) fs with ⟨_ | _, _⟩ <;> rfl

@[simp] theorem exec_ask (question : FileSystem → Except FileError α) :
    exec (ask question) fs = (question fs, fs) := by
  unfold ask
  rw [exec_bind, exec_get]
  cases hanswer : question fs with
  | error e => simp only [hanswer, exec_throw]
  | ok a => simp only [hanswer, exec_pure]

theorem exec_ite {c : Prop} [Decidable c] (a b : FileAction α) :
    exec (if c then a else b) fs = if c then exec a fs else exec b fs := by
  split <;> rfl

/-- What comes of making one directory. -/
theorem exec_makeDirectory {above : List String} {name : String}
    (h : fs.IsPlace ⟨"/", above ++ [name]⟩) :
    exec (makeDirectory ⟨"/", above ++ [name]⟩) fs =
      match fs.faces above with
      | none => (.error (if fs.faces.blocks above then .notADirectory else .missing), fs)
      | some .directory =>
        if (fs.faces (above ++ [name])).isSome then (.error .exists, fs)
        else (.ok (), fs.insert (above ++ [name]) (.directory []))
      | some _ => (.error .notADirectory, fs) := by
  have hname : (⟨"/", above ++ [name]⟩ : Path).name = name := by simp [Path.name]
  have hparent : (⟨"/", above ++ [name]⟩ : Path).parent = ⟨"/", above⟩ := by simp [Path.parent]
  have hfree : ((above ++ [name]).isEmpty || decide (name = "..")) = false := by
    simp [h.name_ne_parent]
  have hthere : (fs.entryAt? (above ++ [name])).isSome = (fs.faces (above ++ [name])).isSome := by
    rw [FileSystem.faces, Option.isSome_map]
  unfold makeDirectory
  simp only [exec_bind, exec_ask, exec_ite, exec_get, exec_throw, exec_modify, h.names,
    hparent, hname, hfree, Bool.false_eq_true, if_false]
  rcases h.above.find_cases with ⟨hfind, hsome⟩ | ⟨hfind, hnone, hblocks⟩ | ⟨hfind, hnone, hblocks⟩
  · rw [hfind]
    simp only [hthere]
    by_cases hdirectory : fs.faces above = some .directory
    · rw [FileSystem.any_isDirectory_iff.mpr hdirectory, hdirectory]
      rfl
    · have hother : (fs.entryAt? above).any Entry.isDirectory = false := by
        rw [Bool.eq_false_iff]
        exact fun h => hdirectory (FileSystem.any_isDirectory_iff.mp h)
      simp only [hother, Bool.not_false, if_true]
      split
      next hnone => exact absurd hnone hsome
      next heq => exact absurd heq hdirectory
      next => rfl
  · rw [hfind, hnone, hblocks]
    rfl
  · rw [hfind, hnone, hblocks]
    rfl

/-- A failure to make a directory is forgiven if it is there. -/
theorem exec_unlessDirectory {p : Path} (h : fs.IsPlace p) (e : FileError) :
    exec (unlessDirectory p e) fs =
      if fs.faces p.parts = some .directory then (.ok (), fs) else (.error e, fs) := by
  unfold unlessDirectory
  simp only [exec_bind, exec_get, exec_ite, exec_throw, exec_pure]
  split
  next hnot =>
    rw [if_neg fun hdirectory => ?_]
    rw [h.isDirectory_iff.mpr hdirectory] at hnot
    cases hnot
  next hthere =>
    rw [if_pos]
    exact h.isDirectory_iff.mp (by simpa using hthere)

theorem exec_makeDirectory_root : exec (makeDirectory ⟨"/", []⟩) fs = (.error .exists, fs) := rfl

/-- Once the directory above is there and nothing is in its place, a directory is made. -/
theorem exec_makeDirectory_of_above {above : List String} {name : String}
    (h : fs.IsPlace ⟨"/", above ++ [name]⟩) (habove : fs.faces above = some .directory)
    (hplace : fs.faces (above ++ [name]) = none) :
    ∃ fs', exec (makeDirectory ⟨"/", above ++ [name]⟩) fs = (.ok (), fs') ∧
      fs'.faces = fs.faces.opened (above ++ [name]) := by
  refine ⟨fs.insert (above ++ [name]) (.directory []), ?_, ?_⟩
  · rw [exec_makeDirectory h, habove]
    simp only [hplace]
    rfl
  · rw [FileSystem.faces_insert Entry.isBare_directory habove (by rw [hplace]; simp),
      Faces.opened_concat, FileSystem.opened_faces habove]
    rfl

/-- What is made at once needs no directories above it. -/
theorem exec_makeDirectoriesFrom_of_ok {p : Path} {fs' : FileSystem} (fuel : Nat)
    (h : exec (makeDirectory p) fs = (.ok (), fs')) :
    exec (makeDirectoriesFrom fuel p) fs = (.ok (), fs') := by
  cases fuel with
  | zero => rw [makeDirectoriesFrom, exec_tryCatch, h]
  | succ fuel => rw [makeDirectoriesFrom, exec_tryCatch, h]

/-- A failure that nothing above could mend is only forgiven. -/
theorem exec_makeDirectoriesFrom_of_error {p : Path} {fs' : FileSystem} {e : FileError} (fuel : Nat)
    (h : exec (makeDirectory p) fs = (.error e, fs')) (he : e ≠ .missing) :
    exec (makeDirectoriesFrom fuel p) fs = exec (unlessDirectory p e) fs' := by
  cases fuel with
  | zero => rw [makeDirectoriesFrom, exec_tryCatch, h]
  | succ fuel =>
    rw [makeDirectoriesFrom, exec_tryCatch, h]
    cases e <;> first | rfl | exact absurd rfl he

/-- What is missing above is made first. -/
theorem exec_makeDirectoriesFrom_of_missing {p : Path} {fs₁ fs₂ : FileSystem} {fuel : Nat}
    (h : exec (makeDirectory p) fs = (.error .missing, fs))
    (h₁ : exec (makeDirectoriesFrom fuel p.parent) fs = (.ok (), fs₁))
    (h₂ : exec (makeDirectory p) fs₁ = (.ok (), fs₂)) :
    exec (makeDirectoriesFrom (fuel + 1) p) fs = (.ok (), fs₂) := by
  rw [makeDirectoriesFrom, exec_tryCatch, h]
  simp only
  rw [exec_bind, h₁]
  simp only
  rw [exec_tryCatch, h₂]

/-- Behind a file nothing is made, because the file is noticed before anything that is missing. -/
theorem exec_makeDirectoriesFrom_of_blocks {names : List String} (fuel : Nat)
    (h : fs.IsPlace ⟨"/", names⟩) (hblocks : fs.faces.blocks names = true) :
    exec (makeDirectoriesFrom fuel ⟨"/", names⟩) fs =
      (.error (if (fs.faces names).any Face.isFile then .exists else .notADirectory), fs) := by
  induction names using List.reverseRecOn with
  | nil =>
    rw [FileSystem.blocks_faces fs.faces_nil] at hblocks
    cases hblocks
  | append_singleton above name _ =>
    have hmake := exec_makeDirectory h
    rw [Faces.blocks_concat] at hblocks
    cases habove : fs.faces above with
    | none =>
      have hplace : fs.faces (above ++ [name]) = none :=
        FileSystem.faces_below habove (List.prefix_append _ _)
      rw [hplace, Option.any_none, Bool.or_false] at hblocks
      rw [habove, hblocks] at hmake
      rw [exec_makeDirectoriesFrom_of_error fuel hmake (by decide), exec_unlessDirectory h, hplace]
      rfl
    | some face =>
      rw [habove] at hmake
      cases face with
      | link target =>
        exact absurd (FileSystem.faces_eq_link_iff.mp habove)
          (h.canonical.linkFree above (List.prefix_append _ _) target)
      | file content =>
        have hplace : fs.faces (above ++ [name]) = none := by
          by_contra hsome
          rw [FileSystem.faces_above (by simp) hsome] at habove
          cases habove
        rw [exec_makeDirectoriesFrom_of_error fuel hmake (by decide),
          exec_unlessDirectory h, hplace]
        rfl
      | directory =>
        rw [FileSystem.blocks_faces habove, Bool.false_or] at hblocks
        cases hplace : fs.faces (above ++ [name]) with
        | none =>
          rw [hplace] at hblocks
          cases hblocks
        | some face =>
          rw [hplace] at hmake hblocks
          rw [exec_makeDirectoriesFrom_of_error fuel hmake (by decide), exec_unlessDirectory h,
            if_neg, if_pos hblocks]
          intro hdirectory
          rw [hplace] at hdirectory
          cases hdirectory
          cases hblocks

/-- With no file on the way, all directories of a place are made. Induction on the names of the
place. -/
theorem exec_makeDirectoriesFrom_of_free {names : List String} {fuel : Nat}
    (hfuel : names.length ≤ fuel) (h : fs.IsPlace ⟨"/", names⟩)
    (hfree : fs.faces.blocks names = false) :
    ∃ fs', exec (makeDirectoriesFrom fuel ⟨"/", names⟩) fs = (.ok (), fs') ∧
      fs'.faces = fs.faces.opened names := by
  induction names using List.reverseRecOn generalizing fuel fs with
  | nil =>
    refine ⟨fs, ?_, (FileSystem.opened_faces fs.faces_nil).symm⟩
    rw [exec_makeDirectoriesFrom_of_error fuel exec_makeDirectory_root (by decide),
      exec_unlessDirectory h, if_pos fs.faces_nil]
  | append_singleton above name ih =>
    have hlength : above.length + 1 ≤ fuel := by simpa using hfuel
    obtain ⟨fuel, rfl⟩ : ∃ n, fuel = n + 1 := ⟨fuel - 1, by omega⟩
    have hmake := exec_makeDirectory h
    rw [Faces.blocks_concat, Bool.or_eq_false_iff] at hfree
    cases habove : fs.faces above with
    | none =>
      rw [habove, hfree.1] at hmake
      obtain ⟨fs₁, h₁, hfaces₁⟩ := ih (Nat.le_of_succ_le_succ hlength) h.above hfree.1
      have hthere : fs₁.IsPlace ⟨"/", above ++ [name]⟩ := by
        refine h.of_faces fun place _ => ?_
        rw [hfaces₁, Faces.opened]
        split
        · exact .inr rfl
        · exact .inl rfl
      have habove₁ : fs₁.faces above = some .directory := by
        rw [hfaces₁, Faces.opened, if_pos List.prefix_rfl]
      have hplace₁ : fs₁.faces (above ++ [name]) = none := by
        rw [hfaces₁, Faces.opened, if_neg, FileSystem.faces_below habove (List.prefix_append _ _)]
        intro hprefix
        have := hprefix.length_le
        rw [List.length_append, List.length_singleton] at this
        omega
      obtain ⟨fs₂, h₂, hfaces₂⟩ := exec_makeDirectory_of_above hthere habove₁ hplace₁
      have hparent : (⟨"/", above ++ [name]⟩ : Path).parent = ⟨"/", above⟩ := by simp [Path.parent]
      refine ⟨fs₂, exec_makeDirectoriesFrom_of_missing hmake (hparent ▸ h₁) h₂, ?_⟩
      rw [hfaces₂, hfaces₁, Faces.opened_opened _ (List.prefix_append _ _)]
    | some face =>
      cases face with
      | link target =>
        exact absurd (FileSystem.faces_eq_link_iff.mp habove)
          (h.canonical.linkFree above (List.prefix_append _ _) target)
      | file content =>
        have hfile := Faces.blocks_eq_false_iff.mp hfree.1 above List.prefix_rfl
        rw [habove] at hfile
        cases hfile
      | directory =>
        cases hplace : fs.faces (above ++ [name]) with
        | none =>
          obtain ⟨fs', h', hfaces'⟩ := exec_makeDirectory_of_above h habove hplace
          exact ⟨fs', exec_makeDirectoriesFrom_of_ok _ h', hfaces'⟩
        | some face =>
          have hdirectory : fs.faces (above ++ [name]) = some .directory := by
            cases face with
            | link target =>
              exact absurd (FileSystem.faces_eq_link_iff.mp hplace)
                (h.canonical.linkFree _ List.prefix_rfl target)
            | file content =>
              rw [hplace] at hfree
              cases hfree.2
            | directory => exact hplace
          rw [habove, hplace] at hmake
          refine ⟨fs, ?_, (FileSystem.opened_faces hdirectory).symm⟩
          rw [exec_makeDirectoriesFrom_of_error _ hmake (by decide), exec_unlessDirectory h,
            if_pos hdirectory]

/-- **The directories of a place are made**, all of them or, behind a file, none. -/
theorem exec_makeDirectories {names : List String} (h : fs.IsPlace ⟨"/", names⟩) :
    ∃ fs', exec (makeDirectories ⟨"/", names⟩) fs = ((fs.faces.makeDirectories names).1, fs') ∧
      fs'.faces = (fs.faces.makeDirectories names).2 := by
  unfold makeDirectories Faces.makeDirectories
  split
  next hblocks => exact ⟨fs, exec_makeDirectoriesFrom_of_blocks _ h hblocks, rfl⟩
  next hfree =>
    exact exec_makeDirectoriesFrom_of_free (Nat.le_refl _) h (Bool.eq_false_iff.mpr hfree)

/-! ## Files -/

/-- A place below a directory is where its file is written. -/
theorem destination_of_isPlace {above : List String} {name : String}
    (h : fs.IsPlace ⟨"/", above ++ [name]⟩) (habove : fs.faces above = some .directory) :
    fs.destination ⟨"/", above ++ [name]⟩ = .ok (above ++ [name]) := by
  have hfound : fs.findFrom (FileSystem.linkLimit + 1) [] above = .ok above := by
    have hfind : fs.find ⟨"/", above⟩ = fs.findFrom (FileSystem.linkLimit + 1) [] above := by
      rw [FileSystem.find, h.above.names]
      rfl
    rcases h.above.find_cases with ⟨hok, -⟩ | ⟨-, hnone, -⟩ | ⟨-, hnone, -⟩
    · exact hfind.symm.trans hok
    · rw [habove] at hnone
      cases hnone
    · rw [habove] at hnone
      cases hnone
  have hlink : ∀ target, fs.entryAt? (above ++ [name]) ≠ some (.link target) :=
    h.canonical.linkFree _ List.prefix_rfl
  have hstart : fs.startOf ⟨"/", above ++ [name]⟩ = [] := rfl
  rw [FileSystem.destination, h.names, hstart]
  simp only [bind, Except.bind]
  rw [FileSystem.destinationFrom]
  simp only [List.getLast?_concat, List.dropLast_concat, hfound,
    FileSystem.any_isDirectory_iff.mpr habove, bind, Except.bind, h.name_ne_parent, Bool.not_true,
    Bool.false_eq_true, if_false]
  rfl

/-- **A file is written** unless there is a directory in its place. -/
theorem exec_writeBytes {above : List String} {name : String}
    (h : fs.IsPlace ⟨"/", above ++ [name]⟩)
    (habove : fs.faces above = some .directory) (content : ByteArray) :
    ∃ fs', exec (writeBytes ⟨"/", above ++ [name]⟩ content) fs =
        ((fs.faces.write (above ++ [name]) content).1, fs') ∧
      fs'.faces = (fs.faces.write (above ++ [name]) content).2 := by
  unfold writeBytes
  simp only [exec_bind, exec_ask, destination_of_isPlace h habove, exec_get, exec_ite, exec_throw,
    exec_modify]
  unfold Faces.write
  by_cases hdirectory : fs.faces (above ++ [name]) = some .directory
  · rw [if_pos (FileSystem.any_isDirectory_iff.mpr hdirectory), if_pos hdirectory]
    exact ⟨fs, rfl, rfl⟩
  · have hnot : ¬(fs.entryAt? (above ++ [name])).any Entry.isDirectory = true := fun h =>
      hdirectory (FileSystem.any_isDirectory_iff.mp h)
    rw [if_neg hnot, if_neg hdirectory]
    exact ⟨_, rfl, FileSystem.faces_insert (Entry.isBare_file content) habove hdirectory⟩

end FileAction

end CallAtlas
