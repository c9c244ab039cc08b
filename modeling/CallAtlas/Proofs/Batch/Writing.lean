import CallAtlas.Proofs.Batch.Outputs
import CallAtlas.Proofs.Batch.Places
import CallAtlas.Proofs.FileSystem.Actions

/-!
# Writing a graph

Where no link leads elsewhere (`FileSystem.Clear`), to write a graph is to write an output:
`FileAction.exec_graph` says so for the steps that a graph is written by, and
`Options.Placed.run_process` for all that is done about a call site. Both say what is left in terms
of `Output.write`, about which everything else is proved.
-/

namespace CallAtlas

namespace FileSystem

variable {fs fs' : FileSystem} {directory : List String}

/-- No link is on the way to a directory, in its place or below it. -/
def Clear (fs : FileSystem) (directory : List String) : Prop :=
  ∀ place, place <+: directory ∨ directory <+: place →
    ∀ target, fs.entryAt? place ≠ some (.link target)

/-- A directory stays clear if no new links show up. -/
theorem Clear.of_faces (h : fs.Clear directory)
    (hfaces : ∀ place target, fs'.faces place = some (.link target) →
      fs.faces place = some (.link target)) :
    fs'.Clear directory := by
  intro place hplace target htarget
  exact h place hplace target
    (faces_eq_link_iff.mp (hfaces place target (faces_eq_link_iff.mpr htarget)))

/-- Below such a directory proper names name places. -/
theorem Clear.isPlace (h : fs.Clear directory) {names : List String} (hbelow : directory <+: names)
    (hnames : ∀ name ∈ names, isFileName name = true) : fs.IsPlace ⟨"/", names⟩ where
  root := rfl
  names := checkNames_eq_ok_iff.mpr fun name hname => isFileName_no_null (hnames name hname)
  canonical := {
    linkFree := fun place hplace => h place (List.prefix_or_prefix_of_prefix hplace hbelow)
    straight := fun hmem => isFileName_ne_parent (hnames _ hmem) rfl }

/-- Paths with names below a clear directory are places. -/
theorem Clear.isPlace_of_namesBelow (h : fs.Clear directory) {p : Path}
    (hp : p.NamesBelow directory) :
    fs.IsPlace p := by
  obtain ⟨above, name, rfl, hbelow, hnames⟩ := hp
  exact h.isPlace (hbelow.trans (List.prefix_append _ _)) hnames

end FileSystem

namespace Output

/-- Writing an output makes no links. -/
theorem link_of_write {w : Output} {F : Faces} {place : List String} {target : String}
    (h : (w.write F).2 place = some (.link target)) : F place = some (.link target) := by
  rw [write_snd] at h
  simp only at h
  cases heffect : w.effect F place with
  | none =>
    rw [heffect] at h
    exact h
  | some face =>
    rw [heffect] at h
    cases h
    rcases effect_cases heffect with ⟨content, hface, -⟩ | ⟨hface, -⟩
    · cases hface
    · cases hface

/-- Writing makes no links. -/
theorem link_of_writeAll {outputs : List Output} {F : Faces} {place : List String} {target : String}
    (h : writeAll F outputs place = some (.link target)) : F place = some (.link target) := by
  induction outputs generalizing F with
  | nil => exact h
  | cons first rest ih => exact link_of_write (ih h)

/-- The outputs are written one after the other. -/
theorem writeAll_append (F : Faces) (outputs outputs' : List Output) :
    writeAll F (outputs ++ outputs') = writeAll (writeAll F outputs) outputs' :=
  List.foldl_append

end Output

/-! ## Writing a graph -/

/-- All formats can be appended to a name. -/
theorem isPlain_of_mem_outputFormats : ∀ format ∈ outputFormats, IsPlain format := by decide

theorem isPlain_dot : IsPlain "dot" := by decide

/-- The text and the image of a graph never have the same name, not even those of two graphs: they
end differently. -/
theorem dot_ne_format {format : String} (h : format ∈ outputFormats) (name name' : String) :
    name ++ ("." ++ "dot") ≠ name' ++ ("." ++ format) := by
  have hlast : ∀ format ∈ outputFormats, ("." ++ format).toList.getLast? ≠ some 't' := by decide
  have hend (name extension : String) : (name ++ ("." ++ extension)).toList.getLast? =
      ("." ++ extension).toList.getLast? := by
    rw [String.toList_append, List.getLast?_append_of_ne_nil _ (by simp)]
  intro heq
  have hends := hend name "dot"
  rw [heq, hend] at hends
  exact hlast format h hends

/-- The files of a graph, named after a path. -/
def Output.ofBase (base : Path) {format : String} (hformat : format ∈ outputFormats)
    (text : ByteArray)
    (image : Option ByteArray) : Output where
  directory := base.parent.parts
  textName := base.name ++ ("." ++ "dot")
  imageName := base.name ++ ("." ++ format)
  text
  image
  names_ne := dot_ne_format hformat base.name base.name

section

variable {base : Path} {format : String} {hformat : format ∈ outputFormats} {text : ByteArray}
  {image : Option ByteArray}

theorem Output.directory_ofBase : (ofBase base hformat text image).directory = base.parent.parts :=
  rfl

theorem Output.textPlace_ofBase : (ofBase base hformat text image).textPlace =
    base.parent.parts ++ [base.name ++ ("." ++ "dot")] := rfl

theorem Output.imagePlace_ofBase : (ofBase base hformat text image).imagePlace =
    base.parent.parts ++ [base.name ++ ("." ++ format)] := rfl

end

/-- The steps by which a graph is written in a format that is supported, with an image or without
one. -/
def FileAction.graph (dot : String) (image : Option ByteArray) (base : Path) (format : String) :
    FileAction Unit := do
  makeDirectories base.parent
  writeText (base.withExtension "dot") dot
  match image with
  | none => return
  | some image => writeBytes (base.withExtension format) image

/-- What comes of writing a graph, once the files are written as far as possible: a failure there
comes before one of the image, which is drawn in between but does not touch the files. -/
def graphOutcome (paint : Painter) (dot : String) (base : Path) (format : String)
    (files : Except FileError Unit) :
    Except WriteError Path :=
  match files with
  | .error e => .error (.file e)
  | .ok _ =>
    match paint dot format with
    | .error message => .error (.image message)
    | .ok _ => .ok (base.withExtension format)

/-- An image is reported if the files could be written and the painter has painted. -/
theorem graphOutcome_eq_ok_iff {paint : Painter} {dot format : String} {base image : Path}
    {files : Except FileError Unit} :
    graphOutcome paint dot base format files = .ok image ↔
      files = .ok () ∧ (paint dot format).isOk = true ∧ image = base.withExtension format := by
  unfold graphOutcome
  cases files with
  | error e => simp
  | ok u =>
    cases paint dot format with
    | error message => simp [Except.isOk, Except.toBool]
    | ok content => simp [Except.isOk, Except.toBool, eq_comm]

/-- An action on files, and what is done after it unless it fails. -/
theorem run_adapt_bind {α β : Type} (action : FileAction α)
    (f : α → ExceptT WriteError (StateM FileSystem) β)
    (fs : FileSystem) :
    (ExceptT.adapt WriteError.file action >>= f).run.run fs =
      match FileAction.exec action fs with
      | (.error e, fs₁) => (.error (.file e), fs₁)
      | (.ok a, fs₁) => (f a).run.run fs₁ := by
  unfold FileAction.exec
  rw [ExceptT.run_bind, StateT.run_bind]
  generalize hrun : action.run.run fs = outcome
  have hadapt : (ExceptT.adapt WriteError.file action).run.run fs =
      ((action.run.run fs).1.mapError WriteError.file, (action.run.run fs).2) := rfl
  rw [hadapt, hrun]
  obtain ⟨e | a, fs₁⟩ := outcome
  · rfl
  · rfl

/-- With a known format, what becomes of the files does not depend on the error of the painter. -/
theorem run_writeGraph {format : String} (hformat : format ∈ outputFormats)
    (paint : Painter) (dot : String) (base : Path) (fs : FileSystem) :
    (writeGraph paint dot base format).run.run fs =
      (graphOutcome paint dot base format
          (FileAction.exec (FileAction.graph dot (paint dot format).toOption base format) fs).1,
        (FileAction.exec (FileAction.graph dot (paint dot format).toOption base format) fs).2) := by
  have hknown : (!outputFormats.contains format) = false := by
    rw [List.contains_iff_mem.mpr hformat]
    rfl
  unfold writeGraph FileAction.graph graphOutcome
  rw [hknown, ← bind_assoc, FileAction.exec_bind]
  simp only [Bool.false_eq_true, if_false]
  rw [run_adapt_bind]
  -- Before the image is drawn both do the same.
  rcases FileAction.exec
    (do FileAction.makeDirectories base.parent; FileAction.writeText (base.withExtension "dot") dot)
    fs with ⟨e | u, fs₁⟩
  · rfl
  · cases paint dot format with
    | error message => rfl
    | ok image =>
      simp only [Except.toOption]
      rw [run_adapt_bind]
      rcases FileAction.exec (FileAction.writeBytes (base.withExtension format) image)
        fs₁ with ⟨e | u, fs₂⟩
      · rfl
      · rfl

/-- **Writing a graph is writing an output.** The file system stays clear on the way, so every step
finds its place. -/
theorem FileAction.exec_graph {fs : FileSystem} {directory : List String}
    (hclear : fs.Clear directory) {base : Path}
    (hbase : base.NamesBelow directory) {format : String} (hformat : format ∈ outputFormats)
    (dot : String) (image : Option ByteArray) {w : Output}
    (hw : w = .ofBase base hformat dot.toUTF8 image) :
    ∃ fs', exec (graph dot image base format) fs = ((w.write fs.faces).1, fs') ∧
      fs'.faces = (w.write fs.faces).2 := by
  have hplain := isPlain_of_mem_outputFormats format hformat
  have htext : base.withExtension "dot" = ⟨"/", w.textPlace⟩ := by
    rw [hbase.withExtension_eq isPlain_dot, hw, Output.textPlace_ofBase]
  have himage : base.withExtension format = ⟨"/", w.imagePlace⟩ := by
    rw [hbase.withExtension_eq hplain, hw, Output.imagePlace_ofBase]
  have hparent : base.parent = ⟨"/", w.directory⟩ := by
    obtain ⟨above, name, rfl, -, -⟩ := hbase
    rw [hw]
    rfl
  have hcontents : w.text = dot.toUTF8 ∧ w.image = image := by
    rw [hw]
    exact ⟨rfl, rfl⟩
  have hmake : fs.IsPlace ⟨"/", w.directory⟩ := by
    rw [← hparent]
    obtain ⟨above, name, rfl, hbelow, hnames⟩ := hbase
    rw [Path.parent, List.dropLast_concat]
    exact hclear.isPlace hbelow fun part hpart => hnames part (List.mem_append_left _ hpart)
  unfold graph writeText
  rw [hparent, htext, himage, ← hcontents.1, ← hcontents.2]
  -- The directory is made, or there is nothing more to do.
  obtain ⟨fs₁, hmakeRun, hfaces₁⟩ := exec_makeDirectories hmake
  unfold Output.write
  rw [exec_bind, hmakeRun]
  generalize hmade : fs.faces.makeDirectories w.directory = made at hfaces₁ ⊢
  obtain ⟨outcome₁, F₁⟩ := made
  subst hfaces₁
  cases outcome₁ with
  | error e => exact ⟨fs₁, rfl, rfl⟩
  | ok u =>
    have hopened := Faces.eq_opened_of_makeDirectories hmade
    have hclear₁ : fs₁.Clear directory := hclear.of_faces fun place target hlink => by
      rw [hopened, Faces.opened] at hlink
      split at hlink
      next => cases hlink
      next => exact hlink
    have hdirectory₁ : fs₁.faces w.directory = some .directory := by
      rw [hopened, Faces.opened, if_pos List.prefix_rfl]
    have hplace₁ : fs₁.IsPlace ⟨"/", w.textPlace⟩ :=
      htext ▸ hclear₁.isPlace_of_namesBelow (hbase.withExtension isPlain_dot)
    -- The text is written, or a directory is in its place.
    obtain ⟨fs₂, htextRun, hfaces₂⟩ := exec_writeBytes hplace₁ hdirectory₁ w.text
    simp only
    rw [Output.textPlace, exec_bind, htextRun]
    generalize hwritten : fs₁.faces.write (w.directory ++ [w.textName]) w.text =
      written at hfaces₂ ⊢
    obtain ⟨outcome₂, F₂⟩ := written
    subst hfaces₂
    cases outcome₂ with
    | error e => exact ⟨fs₂, rfl, rfl⟩
    | ok u =>
      have hupdated := Faces.eq_update_of_write hwritten
      have hclear₂ : fs₂.Clear directory := hclear₁.of_faces fun place target hlink => by
        rw [hupdated, Function.update_apply] at hlink
        split at hlink
        next => cases hlink
        next => exact hlink
      have hdirectory₂ : fs₂.faces w.directory = some .directory := by
        rw [hupdated, Function.update_of_ne (by simp), hdirectory₁]
      have hplace₂ : fs₂.IsPlace ⟨"/", w.imagePlace⟩ :=
        himage ▸ hclear₂.isPlace_of_namesBelow (hbase.withExtension hplain)
      -- The image comes last, if there is one.
      cases w.image with
      | none => exact ⟨fs₂, rfl, rfl⟩
      | some content => exact exec_writeBytes hplace₂ hdirectory₂ content

/-! ## Handling call sites -/

namespace Options

variable {o : Options} {m : Machine} {r : Resolver Unit} {site : CallSite} {sites : List CallSite}
  {fs : FileSystem}

/-- The call sites for which something is drawn. -/
def drawn (o : Options) (m : Machine) (r : Resolver Unit) (sites : List CallSite) : List CallSite :=
  sites.filter fun site => !(o.draw m r site).1.isEmpty

/-- The call sites that are drawn are those with a graph. -/
theorem mem_drawn :
    site ∈ o.drawn m r sites ↔ site ∈ sites ∧ (o.draw m r site).1.isEmpty = false := by
  rw [drawn, List.mem_filter, Bool.not_eq_true']

/-- For a call site with a graph, writing it is all that happens to the files. -/
theorem run_process_of_drawn (h : ¬(o.draw m r site).1.isEmpty = true) :
    (o.process m r site).run fs =
      ({ image := ((writeGraph m.paint (o.draw m r site).1 (o.outputBase site) o.format).run.run
        fs).1.map some
         logs := (o.draw m r site).2 },
        ((writeGraph m.paint (o.draw m r site).1 (o.outputBase site) o.format).run.run fs).2) := by
  unfold process
  simp only [h, Bool.false_eq_true, if_false]
  rfl

namespace Placed

variable (h : o.Placed)

/-- What is written for a call site. -/
def written (h : o.Placed) (m : Machine) (r : Resolver Unit) (site : CallSite) : Output :=
  .ofBase (o.outputBase site) h.format (o.draw m r site).1.toUTF8
    (m.paint (o.draw m r site).1 o.format).toOption

theorem directory_written : (h.written m r site).directory = (o.outputBase site).parent.parts := by
  rw [written, Output.directory_ofBase]

theorem withExtension_dot (hbase : (o.outputBase site).NamesBelow o.output.parts) :
    (o.outputBase site).withExtension "dot" = ⟨"/", (h.written m r site).textPlace⟩ := by
  rw [hbase.withExtension_eq isPlain_dot, written, Output.textPlace_ofBase]

theorem withExtension_format (hbase : (o.outputBase site).NamesBelow o.output.parts) :
    (o.outputBase site).withExtension o.format = ⟨"/", (h.written m r site).imagePlace⟩ := by
  rw [hbase.withExtension_eq (isPlain_of_mem_outputFormats _ h.format), written,
    Output.imagePlace_ofBase]

/-- What is written for several call sites: nothing for those without a drawing. -/
def outputs (h : o.Placed) (m : Machine) (r : Resolver Unit)
    (sites : List CallSite) : List Output :=
  (o.drawn m r sites).map (h.written m r)

/-- What is reported of a call site, by the faces of the file system. -/
def report (h : o.Placed) (m : Machine) (r : Resolver Unit) (F : Faces) (site : CallSite) :
    SiteReport where
  image := if (o.draw m r site).1.isEmpty then .ok none else
    (graphOutcome m.paint (o.draw m r site).1 (o.outputBase site) o.format
      ((h.written m r site).write F).1).map some
  logs := (o.draw m r site).2

/-- **Handling a call site is writing its output**, if there is something to draw. -/
theorem run_process (m : Machine) (hclear : fs.Clear o.output.parts)
    (hbelow : (o.draw m r site).1.isEmpty = false → (o.outputBase site).NamesBelow o.output.parts) :
    ∃ fs', (o.process m r site).run fs = (h.report m r fs.faces site, fs') ∧
      fs'.faces = Output.writeAll fs.faces (h.outputs m r [site]) := by
  by_cases hempty : (o.draw m r site).1.isEmpty = true
  · refine ⟨fs, ?_, ?_⟩
    · unfold process report
      simp only [hempty, if_true]
      rfl
    · simp [outputs, drawn, hempty, Output.writeAll]
  · have hdrawn : o.drawn m r [site] = [site] := by simp [drawn, hempty]
    obtain ⟨fs', hexec, hfaces⟩ :=
      FileAction.exec_graph hclear (hbelow (Bool.eq_false_iff.mpr hempty)) h.format
      (o.draw m r site).1 _ (show h.written m r site = _ from rfl)
    refine ⟨fs', ?_, ?_⟩
    · rw [run_process_of_drawn hempty, run_writeGraph h.format, hexec]
      simp only [report, hempty, Bool.false_eq_true, if_false]
    · rw [hfaces, outputs, hdrawn]
      rfl

end Placed

end Options

end CallAtlas
