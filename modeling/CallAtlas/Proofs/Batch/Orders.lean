import CallAtlas.Proofs.Batch.Writing
import CallAtlas.Proofs.Growth.Unfolding

/-!
# The order in which call sites are handled

Call sites are handled one by one, and each writes below the output directory. What a sequence of
them does to the file system is to write one output after the other
(`Options.Placed.faces_processAll`).

The name of a graph is made of the file, the called name and the line, so two calls on one line can
share it. The last of them is then left (`Options.Placed.readBytes_processAll_concat`), and unless
they draw the same graph, the order decides what that is (`Options.orders_disagree`). Where graphs
of one name are the same and no file of one is a directory of another (`Options.Separate`), the
order does not matter (`Options.orders_agree`).
-/

namespace CallAtlas

namespace Options

variable {o : Options} {m : Machine} {r : Resolver Unit} {site site' : CallSite}
  {sites : List CallSite}
  {fs : FileSystem}

/-- Handles call sites one after the other. -/
def processAll (o : Options) (m : Machine) (r : Resolver Unit) (sites : List CallSite)
    (fs : FileSystem) :
    List SiteReport × FileSystem :=
  (sites.mapM (o.process m r)).run fs

theorem processAll_cons (o : Options) (m : Machine) (r : Resolver Unit) (site : CallSite)
    (rest : List CallSite) (fs : FileSystem) :
    o.processAll m r (site :: rest) fs =
      (((o.process m r site).run fs).1 :: (o.processAll m r rest ((o.process m r site).run fs).2).1,
        (o.processAll m r rest ((o.process m r site).run fs).2).2) := by
  unfold processAll
  rw [List.mapM_cons]
  rfl

/-- What is reported of a call site that is handled alone. -/
def reportIn (o : Options) (m : Machine) (r : Resolver Unit) (fs : FileSystem)
    (site : CallSite) : SiteReport :=
  ((o.process m r site).run fs).1

namespace Placed

variable (h : o.Placed)

theorem reportIn_eq (m : Machine) (hclear : fs.Clear o.output.parts)
    (hbelow : (o.draw m r site).1.isEmpty = false → (o.outputBase site).NamesBelow o.output.parts) :
    o.reportIn m r fs site = h.report m r fs.faces site := by
  obtain ⟨fs', hrun, -⟩ := h.run_process m hclear hbelow
  rw [reportIn, hrun]

theorem outputs_append (m : Machine) (r : Resolver Unit) (sites sites' : List CallSite) :
    h.outputs m r (sites ++ sites') = h.outputs m r sites ++ h.outputs m r sites' := by
  simp only [outputs, drawn, List.filter_append, List.map_append]

/-- What the first call site leaves for the others: a file system that is clear and holds its
output. -/
theorem run_first {rest : List CallSite} (m : Machine) (hclear : fs.Clear o.output.parts)
    (hbelow : ∀ site' ∈ o.drawn m r (site :: rest),
      (o.outputBase site').NamesBelow o.output.parts) :
    ∃ fs', (o.process m r site).run fs = (h.report m r fs.faces site, fs') ∧
      fs'.faces = Output.writeAll fs.faces (h.outputs m r [site]) ∧ fs'.Clear o.output.parts ∧
      ∀ site' ∈ o.drawn m r rest, (o.outputBase site').NamesBelow o.output.parts := by
  obtain ⟨fs', hrun, hfaces⟩ := h.run_process m hclear
    fun hdrawn => hbelow site (mem_drawn.mpr ⟨List.mem_cons_self, hdrawn⟩)
  refine ⟨fs', hrun, hfaces, hclear.of_faces fun place target hlink =>
    Output.link_of_writeAll (hfaces ▸ hlink), ?_⟩
  intro site' hsite'
  obtain ⟨hmem, hdrawn⟩ := mem_drawn.mp hsite'
  exact hbelow site' (mem_drawn.mpr ⟨List.mem_cons_of_mem _ hmem, hdrawn⟩)

/-- **Handling call sites is writing their outputs one after the other.** -/
theorem faces_processAll (m : Machine) (hclear : fs.Clear o.output.parts)
    (hbelow : ∀ site ∈ o.drawn m r sites, (o.outputBase site).NamesBelow o.output.parts) :
    (o.processAll m r sites fs).2.faces = Output.writeAll fs.faces (h.outputs m r sites) := by
  induction sites generalizing fs with
  | nil => rfl
  | cons site rest ih =>
    obtain ⟨fs₁, hfirst, hfaces₁, hclear₁, hbelow₁⟩ := h.run_first m hclear hbelow
    rw [processAll_cons, hfirst]
    show (o.processAll m r rest fs₁).2.faces =
        Output.writeAll fs.faces (h.outputs m r ([site] ++ rest))
    rw [ih hclear₁ hbelow₁, outputs_append, Output.writeAll_append, hfaces₁]

/-- If the outputs are compatible, each call site is reported as if it were alone. -/
theorem reports_processAll (hclear : fs.Clear o.output.parts)
    (hbelow : ∀ site ∈ o.drawn m r sites, (o.outputBase site).NamesBelow o.output.parts)
    (hcompatible : ∀ w ∈ h.outputs m r sites, ∀ w' ∈ h.outputs m r sites, w.Compatible w') :
    (o.processAll m r sites fs).1 = sites.map (h.report m r fs.faces) := by
  induction sites generalizing fs with
  | nil => rfl
  | cons site rest ih =>
    obtain ⟨fs₁, hfirst, hfaces₁, hclear₁, hbelow₁⟩ := h.run_first m hclear hbelow
    rw [← List.singleton_append, outputs_append] at hcompatible
    have hrest := ih hclear₁ hbelow₁
      fun w hw w' hw' => hcompatible w (List.mem_append_right _ hw) w' (List.mem_append_right _ hw')
    -- The first call site has left its output, which is compatible with what comes after it.
    have hreports : rest.map (h.report m r fs₁.faces) = rest.map (h.report m r fs.faces) := by
      refine List.map_congr_left fun site' hsite' => ?_
      by_cases hempty : (o.draw m r site').1.isEmpty = true
      · simp only [report, hempty, if_true]
      · have hwritten : h.written m r site' ∈ h.outputs m r rest :=
          List.mem_map_of_mem (mem_drawn.mpr ⟨hsite', Bool.eq_false_iff.mpr hempty⟩)
        have hsame :=
          Output.write_fst_writeAll
            (fun w' hw' => hcompatible _ (List.mem_append_right _ hwritten) w'
          (List.mem_append_left _ hw')) fs.faces
        simp only [report, hfaces₁, hsame]
    rw [processAll_cons, hfirst, List.map_cons, ← hreports, ← hrest]

/-- Where a text was written, it is read. -/
theorem readBytes_of_faces (m : Machine) (hclear : fs.Clear o.output.parts)
    (hbase : (o.outputBase site).NamesBelow o.output.parts) {outputs : List Output}
    {fs' : FileSystem} (hfaces : fs'.faces = Output.writeAll fs.faces outputs)
    (htext : Output.writeAll fs.faces outputs (h.written m r site).textPlace =
      some (.file (o.draw m r site).1.toUTF8)) :
    fs'.readBytes ((o.outputBase site).withExtension "dot") = .ok (o.draw m r site).1.toUTF8 := by
  have hclear' : fs'.Clear o.output.parts := hclear.of_faces fun place target hlink =>
    Output.link_of_writeAll (hfaces ▸ hlink)
  refine (hclear'.isPlace_of_namesBelow (hbase.withExtension isPlain_dot)).readBytes ?_
  rw [h.withExtension_dot hbase, hfaces]
  exact htext

/-- **The last call site wins**: whatever was written before, its text is left. -/
theorem readBytes_processAll_concat (hclear : fs.Clear o.output.parts)
    (hbelow : ∀ site' ∈ o.drawn m r (sites ++ [site]),
      (o.outputBase site').NamesBelow o.output.parts)
    (hdrawn : (o.draw m r site).1.isEmpty = false)
    (hok : ((h.written m r site).write (Output.writeAll fs.faces (h.outputs m r sites))).1 =
      .ok ()) :
    (o.processAll m r (sites ++ [site]) fs).2.readBytes ((o.outputBase site).withExtension "dot") =
      .ok (o.draw m r site).1.toUTF8 := by
  have hsite : site ∈ o.drawn m r (sites ++ [site]) := mem_drawn.mpr ⟨by simp, hdrawn⟩
  have hlast : h.outputs m r [site] = [h.written m r site] := by
    simp [outputs, drawn, hdrawn]
  refine h.readBytes_of_faces m hclear (hbelow site hsite) (h.faces_processAll m hclear hbelow) ?_
  rw [outputs_append, Output.writeAll_append, hlast]
  exact Output.write_text hok

/-- An image is reported exactly if there is something to draw, the image is drawn and everything
was written. -/
theorem report_image {F : Faces} (hdrawn : (o.draw m r site).1.isEmpty = false)
    (hok : ((h.written m r site).write F).1 = .ok ())
    (hpaint : (m.paint (o.draw m r site).1 o.format).isOk = true) :
    (h.report m r F site).image = .ok (some ((o.outputBase site).withExtension o.format)) := by
  simp only [report, hdrawn, Bool.false_eq_true, if_false,
    graphOutcome_eq_ok_iff.mpr ⟨hok, hpaint, rfl⟩]
  rfl

theorem of_report_image {F : Faces} {image : Path}
    (himage : (h.report m r F site).image = .ok (some image)) :
    (o.draw m r site).1.isEmpty = false ∧ image = (o.outputBase site).withExtension o.format ∧
      ((h.written m r site).write F).1 = .ok () := by
  unfold report at himage
  simp only at himage
  split at himage
  next => cases himage
  next hempty =>
    cases houtcome : graphOutcome m.paint (o.draw m r site).1 (o.outputBase site) o.format
        ((h.written m r site).write F).1 with
    | error e =>
      rw [houtcome] at himage
      cases himage
    | ok path =>
      rw [houtcome] at himage
      cases himage
      obtain ⟨hok, -, himage⟩ := graphOutcome_eq_ok_iff.mp houtcome
      exact ⟨Bool.eq_false_iff.mpr hempty, himage, hok⟩

end Placed

/-! ## Orders -/

/-- The graphs of call sites do not get in each other's way: those with one name are the same, and
no file of one is a directory that another is written to. Called names are identifiers and can be
part of the name of a file. -/
structure Separate (o : Options) (m : Machine) (r : Resolver Unit)
    (sites : List CallSite) : Prop where
  called : ∀ site ∈ sites, isFileName site.called = true
  agree : ∀ site ∈ sites, ∀ site' ∈ sites, o.outputBase site = o.outputBase site' →
    (o.draw m r site).1 = (o.draw m r site').1
  apart : ∀ site ∈ sites, ∀ site' ∈ sites, ∀ extension ∈ ["dot", o.format],
    ((o.outputBase site).withExtension extension).isProperAncestor (o.outputBase site') = false

theorem Separate.of_subset (h : o.Separate m r sites) {sites' : List CallSite}
    (hsubset : sites' ⊆ sites) :
    o.Separate m r sites' where
  called := fun site hsite => h.called site (hsubset hsite)
  agree := fun site hsite site' hsite' => h.agree site (hsubset hsite) site' (hsubset hsite')
  apart := fun site hsite site' hsite' => h.apart site (hsubset hsite) site' (hsubset hsite')

/-- The files of a graph are at its path with an extension. -/
theorem Placed.exists_extension_of_mem_files (h : o.Placed)
    (hbase : (o.outputBase site).NamesBelow o.output.parts)
    {file : List String × ByteArray} (hfile : file ∈ (h.written m r site).files) :
    ∃ extension ∈ ["dot", o.format], (o.outputBase site).withExtension extension =
      ⟨"/", file.1⟩ := by
  rcases Output.mem_files_iff.mp hfile with rfl | ⟨image, -, rfl⟩
  · exact ⟨"dot", by simp, h.withExtension_dot hbase⟩
  · exact ⟨o.format, by simp, h.withExtension_format hbase⟩

/-- A file that is no proper ancestor of a path is not on the way to it. -/
theorem not_prefix_of_apart {file : List String} {base : Path} {directory : List String}
    (hbase : base.NamesBelow directory) (h : Path.isProperAncestor ⟨"/", file⟩ base = false) :
    ¬file <+: base.parent.parts := by
  obtain ⟨above, name, rfl, -, -⟩ := hbase
  intro hprefix
  have habove : file <+: above := by simpa [Path.parent] using hprefix
  have hlength : file ≠ above ++ [name] := by
    rintro rfl
    have := habove.length_le
    rw [List.length_append, List.length_singleton] at this
    omega
  have hancestor : Path.isProperAncestor ⟨"/", file⟩ ⟨"/", above ++ [name]⟩ = true := by
    simp only [Path.isProperAncestor, Bool.and_eq_true, bne_iff_ne, List.isPrefixOf_iff_prefix,
      beq_self_eq_true, true_and]
    exact ⟨habove.trans (List.prefix_append _ _), hlength⟩
  rw [h] at hancestor
  cases hancestor

/-- Graphs are named apart unless they have the same path. -/
theorem outputBase_eq_of_names {base base' : Path} {directory : List String}
    (h : base.NamesBelow directory) (h' : base'.NamesBelow directory) {extension : String}
    (heq : base.parent.parts ++ [base.name ++ ("." ++ extension)] =
      base'.parent.parts ++ [base'.name ++ ("." ++ extension)]) : base = base' := by
  obtain ⟨above, name, rfl, -, -⟩ := h
  obtain ⟨above', name', rfl, -, -⟩ := h'
  obtain ⟨habove, hname⟩ := List.append_inj' heq (by simp)
  simp only [Path.parent, List.dropLast_concat] at habove
  have hname' : name ++ ("." ++ extension) = name' ++ ("." ++ extension) := by
    simpa [Path.name] using hname
  rw [habove, (String.append_left_inj _).mp hname']

theorem Separate.compatible (h : o.Placed) (hseparate : o.Separate m r sites)
    (hbelow : ∀ site ∈ sites, (o.outputBase site).NamesBelow o.output.parts)
    (hsite : site ∈ sites) (hsite' : site' ∈ sites) :
    (h.written m r site).Compatible (h.written m r site') := by
  have hapart {site site' : CallSite} (hsite : site ∈ sites) (hsite' : site' ∈ sites)
      {file : List String × ByteArray} (hfile : file ∈ (h.written m r site).files) :
      ¬file.1 <+: (h.written m r site').directory := by
    obtain ⟨extension, hextension, hpath⟩ :=
      h.exists_extension_of_mem_files (hbelow site hsite) hfile
    have hfar := hseparate.apart site hsite site' hsite' extension hextension
    rw [hpath] at hfar
    rw [h.directory_written]
    exact not_prefix_of_apart (hbelow site' hsite') hfar
  refine ⟨fun file hfile => hapart hsite hsite' hfile, fun file hfile =>
    hapart hsite' hsite hfile, ?_⟩
  intro file hfile file' hfile' heq
  rcases Output.mem_files_iff.mp hfile with rfl | ⟨image, himage, rfl⟩
  · rcases Output.mem_files_iff.mp hfile' with rfl | ⟨image', -, rfl⟩
    · simp only [Placed.written, Output.textPlace_ofBase] at heq
      have hbase := outputBase_eq_of_names (hbelow site hsite) (hbelow site' hsite') heq
      simp only [Placed.written, Output.ofBase]
      rw [hseparate.agree site hsite site' hsite' hbase]
    · simp only [Placed.written, Output.textPlace_ofBase, Output.imagePlace_ofBase] at heq
      exact absurd (List.singleton_inj.mp (List.append_inj' heq (by simp)).2)
        (dot_ne_format h.format _ _)
  · rcases Output.mem_files_iff.mp hfile' with rfl | ⟨image', himage', rfl⟩
    · simp only [Placed.written, Output.textPlace_ofBase, Output.imagePlace_ofBase] at heq
      exact absurd (List.singleton_inj.mp (List.append_inj' heq (by simp)).2).symm
        (dot_ne_format h.format _ _)
    · simp only [Placed.written, Output.imagePlace_ofBase] at heq
      have hbase := outputBase_eq_of_names (hbelow site hsite) (hbelow site' hsite') heq
      simp only [Placed.written, Output.ofBase] at himage himage'
      rw [hseparate.agree site hsite site' hsite' hbase, himage'] at himage
      exact (Option.some.inj himage).symm

/-- **The order does not matter for separate graphs.** Options were accepted, and no link leads out
of the output directory or into it. However the call sites are ordered, the same is left everywhere,
each call site is reported as if it were alone, and if an image is reported, the text beside it is
what was drawn for this call site. -/
theorem orders_agree {settings : Settings} {platform : Platform} {c : Collection}
    (hproper : fs.Proper) (ho : settings.check platform fs = .ok o) (hc : o.collect fs = .ok c)
    (hclear : fs.Clear o.output.parts) (hseparate : o.Separate m r (o.drawn m r c.sites)) :
    (∀ order order', order.Perm c.sites → order'.Perm c.sites →
      (o.processAll m r order fs).2.faces = (o.processAll m r order' fs).2.faces) ∧
    ∀ order, order.Perm c.sites →
      (o.processAll m r order fs).1 = order.map (o.reportIn m r fs) ∧
      ∀ site ∈ c.sites, ∀ image, (o.reportIn m r fs site).image = .ok (some image) →
        image = (o.outputBase site).withExtension o.format ∧
        (o.processAll m r order fs).2.readBytes ((o.outputBase site).withExtension "dot") =
          .ok (o.draw m r site).1.toUTF8 := by
  have h : o.Placed := placed_of_check hproper ho
  have hbelow : ∀ site ∈ o.drawn m r c.sites, (o.outputBase site).NamesBelow o.output.parts :=
    fun site hsite =>
    h.outputBase_below hc (List.mem_of_mem_filter hsite) (hseparate.called site hsite)
  have hcompatible :
      ∀ w ∈ h.outputs m r c.sites, ∀ w' ∈ h.outputs m r c.sites, w.Compatible w' := by
    intro w hw w' hw'
    obtain ⟨site, hsite, rfl⟩ := List.mem_map.mp hw
    obtain ⟨site', hsite', rfl⟩ := List.mem_map.mp hw'
    exact hseparate.compatible h hbelow hsite hsite'
  -- In any order the outputs are the same, and so is what is left after them.
  have horders {order : List CallSite} (horder : order.Perm c.sites) :
      (o.processAll m r order fs).2.faces = Output.writeAll fs.faces (h.outputs m r c.sites) ∧
        (o.processAll m r order fs).1 = order.map (o.reportIn m r fs) := by
    have hdrawn : (o.drawn m r order).Perm (o.drawn m r c.sites) := horder.filter _
    have houtputs : (h.outputs m r order).Perm (h.outputs m r c.sites) := hdrawn.map _
    have hbelow' : ∀ site ∈ o.drawn m r order, (o.outputBase site).NamesBelow o.output.parts :=
      fun site hsite =>
      hbelow site (hdrawn.mem_iff.mp hsite)
    have hcompatible' : ∀ w ∈ h.outputs m r order, ∀ w' ∈ h.outputs m r order, w.Compatible w' :=
      fun w hw w' hw' => hcompatible w (houtputs.mem_iff.mp hw) w' (houtputs.mem_iff.mp hw')
    constructor
    · rw [h.faces_processAll m hclear hbelow', Output.writeAll_perm houtputs hcompatible']
    · rw [h.reports_processAll hclear hbelow' hcompatible']
      refine List.map_congr_left fun site hsite => (h.reportIn_eq m hclear fun hdrawn => ?_).symm
      exact hbelow' site (mem_drawn.mpr ⟨hsite, hdrawn⟩)
  constructor
  · intro order order' horder horder'
    rw [(horders horder).1, (horders horder').1]
  · intro order horder
    refine ⟨(horders horder).2, fun site hsite image himage => ?_⟩
    rw [h.reportIn_eq m hclear fun hdrawn => hbelow site (mem_drawn.mpr ⟨hsite, hdrawn⟩)] at himage
    obtain ⟨hdrawn, himage, hwrites⟩ := h.of_report_image himage
    have hmem : site ∈ o.drawn m r c.sites := mem_drawn.mpr ⟨hsite, hdrawn⟩
    exact ⟨himage, h.readBytes_of_faces m hclear (hbelow site hmem) (horders horder).1
      (Output.writeAll_text hcompatible (List.mem_map_of_mem hmem) hwrites)⟩

/-! ## Two functions of one name -/

/-- Two functions `f`, one of which is found at the third character and the other elsewhere. -/
def namesakes : Facts where
  prepared _ offset :=
    [{ file := ⟨"/", ["w", if offset = 2 then "a.py" else "b.py"]⟩, name := "f",
       kind := "function" }]
  related _ _ := []
  place _ offset := ⟨0, offset⟩

/-- A source file in the working directory. -/
def fileOf (text : String) : FileSystem where
  entries := [("w", .directory [("m.py", .file text.toUTF8)])]
  current := ["w"]

def fileSettings : Settings := [("entry", .string "m.py"), ("out_dir", .string "out")]

def fileOptions : Options where
  entry := [⟨"/", ["w", "m.py"]⟩]
  root := ⟨"/", ["w"]⟩
  output := ⟨"/", ["w", "out"]⟩

theorem clear_fileOf (text : String) (directory : List String) : (fileOf text).Clear directory :=
  fun place _ => FileSystem.entryAt?_ne_link rfl place

theorem proper_fileOf (text : String) : (fileOf text).Proper := ⟨rfl, rfl⟩

theorem check_fileOf (text : String) :
    fileSettings.check .usual (fileOf text) = .ok fileOptions := by
  have hcanonical {names : List String} (h : ".." ∉ names) : (fileOf text).Canonical names :=
    ⟨fun place _ => FileSystem.entryAt?_ne_link rfl place, h⟩
  have hentry : (fileOf text).resolve (Path.ofString "m.py") = .ok ⟨"/", ["w", "m.py"]⟩ :=
    FileSystem.resolve_of_canonical_start rfl (hcanonical (show ".." ∉ ["w", "m.py"] by decide))
  have houtput : (fileOf text).resolve (Path.ofString "out") = .ok ⟨"/", ["w", "out"]⟩ :=
    FileSystem.resolve_of_canonical_start rfl (hcanonical (show ".." ∉ ["w", "out"] by decide))
  have hentryPath : fileSettings.entryPath .usual (fileOf text) = .ok ⟨"/", ["w", "m.py"]⟩ := by
    refine bind_eq_ok_iff.mpr ⟨_, mapError_eq_ok_iff.mpr hentry, ?_⟩
    exact Settings.unless_eq_ok_iff.mpr ⟨Bool.false_ne_true,
      Settings.unless_eq_ok_iff.mpr ⟨Bool.false_ne_true,
      Settings.unless_eq_ok_iff.mpr ⟨Bool.false_ne_true, rfl⟩⟩⟩
  have houtputPath : fileSettings.outputPath (fileOf text) = .ok ⟨"/", ["w", "out"]⟩ :=
    mapError_eq_ok_iff.mpr houtput
  have hrootPath : fileSettings.rootPath .usual (fileOf text) ⟨"/", ["w", "m.py"]⟩ =
      .ok ⟨"/", ["w"]⟩ := rfl
  simp only [Settings.check, bind_eq_ok_iff, mapError_eq_ok_iff]
  exact ⟨_, rfl, _, hentryPath, _, hrootPath, _, rfl, _, rfl, _, rfl, _, rfl, _, rfl, _, rfl, _,
    rfl, _, rfl, _, rfl, _, rfl, _, houtputPath, rfl⟩

theorem placed_fileOptions : fileOptions.Placed :=
  placed_of_check (proper_fileOf "") (check_fileOf "")

/-- A call of `f` in the file. -/
def callOfF (line column offset : Nat) : CallSite :=
  ⟨⟨"/", ["w", "m.py"]⟩, "f", ⟨line, column - 1, offset - 1, offset + 1⟩,
    ⟨line, column, offset, offset + 1⟩, none⟩

/-- The calls in a file go to places below the output directory. -/
theorem below_fileOf {text : String} {c : Collection} {calls : List CallSite}
    (hc : fileOptions.collect (fileOf text) = .ok c) (hcalls : c.sites = calls)
    (hnames : ∀ site ∈ calls, isFileName site.called = true) :
    ∀ site ∈ calls, (fileOptions.outputBase site).NamesBelow fileOptions.output.parts :=
  fun site hsite => placed_fileOptions.outputBase_below hc (hcalls ▸ hsite) (hnames site hsite)

/-- Nothing is in the way of the output, whatever it is. -/
theorem written_fileOf (text : String) (r : Resolver Unit) :
    ∀ site ∈ [callOfF 1 2 2, callOfF 2 2 8],
      ((placed_fileOptions.written .usual r site).write (fileOf text).faces).1 = .ok () := by
  have hwritten (content image : ByteArray) : ∀ site ∈ [callOfF 1 2 2, callOfF 2 2 8],
      ((Output.ofBase (fileOptions.outputBase site) placed_fileOptions.format content image).write
        (fileOf text).faces).1 = .ok () := by
    rw [List.forall_mem_cons, List.forall_mem_singleton]
    exact ⟨rfl, rfl⟩
  exact fun site hsite => hwritten _ _ site hsite

/-- Of two calls that share their files the second is left. -/
theorem readBytes_fileOf (text : String) (r : Resolver Unit) (first last : CallSite)
    (hbelow : ∀ site ∈ [first, last], (fileOptions.outputBase site).NamesBelow
      fileOptions.output.parts)
    (hdrawn : ∀ site ∈ [first, last], (fileOptions.draw .usual r site).1.isEmpty = false)
    (hfirst : fileOptions.outputBase first = fileOptions.outputBase (callOfF 1 2 2))
    (hlast : fileOptions.outputBase last = fileOptions.outputBase (callOfF 1 2 2)) :
    (fileOptions.processAll .usual r [first, last] (fileOf text)).2.readBytes
        ((fileOptions.outputBase (callOfF 1 2 2)).withExtension "dot") =
      .ok (fileOptions.draw .usual r last).1.toUTF8 := by
  have houtputs : placed_fileOptions.outputs .usual r [first] =
      [placed_fileOptions.written .usual r first] := by
    simp [Placed.outputs, drawn, hdrawn first List.mem_cons_self]
  have hwritten (content image content' image' : ByteArray) :
      ((Output.ofBase (fileOptions.outputBase (callOfF 1 2 2)) placed_fileOptions.format
        content image).write
        (Output.writeAll (fileOf text).faces
          [.ofBase (fileOptions.outputBase (callOfF 1 2 2)) placed_fileOptions.format
            content' image'])).1 =
        .ok () := rfl
  have hok : ((placed_fileOptions.written .usual r last).write
      (Output.writeAll (fileOf text).faces (placed_fileOptions.outputs .usual r [first]))).1 =
        .ok () := by
    rw [houtputs, Placed.written, Placed.written, hfirst, hlast]
    exact hwritten _ _ _ _
  rw [← hlast]
  show (fileOptions.processAll .usual r ([first] ++ [last]) (fileOf text)).2.readBytes _ = _
  exact placed_fileOptions.readBytes_processAll_concat (clear_fileOf text _)
    (fun site hsite => hbelow site (mem_drawn.mp hsite).1) (hdrawn last (by simp)) hok

/-- On two lines the calls have graphs of their own, and both are left in either order. -/
theorem orders_agree_on_two_lines :
    ∃ c, fileOptions.collect (fileOf "a.f()\nb.f()\n") = .ok c ∧
      c.sites = [callOfF 1 2 2, callOfF 2 2 8] ∧
      fileOptions.Separate .usual namesakes.resolver
        (fileOptions.drawn .usual namesakes.resolver c.sites) ∧
      (fileOptions.processAll .usual namesakes.resolver c.sites (fileOf "a.f()\nb.f()\n")).2.faces =
        (fileOptions.processAll .usual namesakes.resolver c.sites.reverse
          (fileOf "a.f()\nb.f()\n")).2.faces ∧
      ∀ site ∈ c.sites,
        (fileOptions.processAll .usual namesakes.resolver c.sites
            (fileOf "a.f()\nb.f()\n")).2.readBytes
          ((fileOptions.outputBase site).withExtension "dot") =
            .ok (fileOptions.draw .usual namesakes.resolver site).1.toUTF8 := by
  have hsites : (fileOptions.collect (fileOf "a.f()\nb.f()\n")).map Collection.sites =
      .ok [callOfF 1 2 2, callOfF 2 2 8] := by decide +kernel
  have hdrawn : ∀ site ∈ [callOfF 1 2 2, callOfF 2 2 8],
      (fileOptions.draw .usual namesakes.resolver site).1.isEmpty = false := by decide +kernel
  have hbases : ∀ site ∈ [callOfF 1 2 2, callOfF 2 2 8], ∀ site' ∈ [callOfF 1 2 2, callOfF 2 2 8],
      fileOptions.outputBase site = fileOptions.outputBase site' → site = site' := by decide +kernel
  have hseparate :
      fileOptions.Separate .usual namesakes.resolver [callOfF 1 2 2, callOfF 2 2 8] := {
    called := by decide
    agree := fun site hsite site' hsite' hbase => by rw [hbases site hsite site' hsite' hbase]
    apart := by decide +kernel }
  cases hc : fileOptions.collect (fileOf "a.f()\nb.f()\n") with
  | error e =>
    rw [hc] at hsites
    cases hsites
  | ok c =>
    rw [hc] at hsites
    have hcalls : c.sites = [callOfF 1 2 2, callOfF 2 2 8] := Except.ok.inj hsites
    have hseparate' : fileOptions.Separate .usual namesakes.resolver
        (fileOptions.drawn .usual namesakes.resolver c.sites) :=
      hseparate.of_subset fun site hsite => hcalls ▸ (mem_drawn.mp hsite).1
    obtain ⟨hsame, htexts⟩ :=
      orders_agree (proper_fileOf _) (check_fileOf _) hc (clear_fileOf _ _) hseparate'
    refine ⟨c, rfl, hcalls, hseparate', hsame _ _ (List.Perm.refl _) (List.reverse_perm _),
      fun site hsite => ?_⟩
    have hmem : site ∈ [callOfF 1 2 2, callOfF 2 2 8] := hcalls ▸ hsite
    have himage := placed_fileOptions.report_image (hdrawn site hmem)
      (written_fileOf "a.f()\nb.f()\n" namesakes.resolver site hmem) rfl
    rw [← placed_fileOptions.reportIn_eq _ (clear_fileOf _ _) fun _ =>
      below_fileOf hc hcalls (by decide) site hmem] at himage
    exact ((htexts _ (List.Perm.refl _)).2 site hsite _ himage).2

/-- On one line both calls are written to the same files, and the last one is left. In one of the
two orders the text beside the image of the first call is not what was drawn for it. -/
theorem orders_disagree :
    fileSettings.check .usual (fileOf "a.f(); b.f()\n") = .ok fileOptions ∧
      (fileOf "a.f(); b.f()\n").Proper ∧ (fileOf "a.f(); b.f()\n").Clear fileOptions.output.parts ∧
      ∃ c, fileOptions.collect (fileOf "a.f(); b.f()\n") = .ok c ∧
      c.sites = [callOfF 1 2 2, callOfF 1 9 9] ∧
      (fileOptions.reportIn .usual namesakes.resolver (fileOf "a.f(); b.f()\n")
        (callOfF 1 2 2)).image =
          .ok (some ((fileOptions.outputBase (callOfF 1 2 2)).withExtension fileOptions.format)) ∧
      (fileOptions.processAll .usual namesakes.resolver c.sites.reverse
          (fileOf "a.f(); b.f()\n")).2.readBytes
        ((fileOptions.outputBase (callOfF 1 2 2)).withExtension "dot") =
          .ok (fileOptions.draw .usual namesakes.resolver (callOfF 1 2 2)).1.toUTF8 ∧
      (fileOptions.processAll .usual namesakes.resolver c.sites
          (fileOf "a.f(); b.f()\n")).2.readBytes
        ((fileOptions.outputBase (callOfF 1 2 2)).withExtension "dot") ≠
          .ok (fileOptions.draw .usual namesakes.resolver (callOfF 1 2 2)).1.toUTF8 := by
  refine ⟨check_fileOf _, proper_fileOf _, clear_fileOf _ _, ?_⟩
  have hsites : (fileOptions.collect (fileOf "a.f(); b.f()\n")).map Collection.sites =
      .ok [callOfF 1 2 2, callOfF 1 9 9] := by decide +kernel
  have hbase : fileOptions.outputBase (callOfF 1 9 9) = fileOptions.outputBase (callOfF 1 2 2) := by
    decide +kernel
  obtain ⟨hdrawn, hdiffer⟩ : (∀ site ∈ [callOfF 1 2 2, callOfF 1 9 9],
      (fileOptions.draw .usual namesakes.resolver site).1.isEmpty = false) ∧
        (fileOptions.draw .usual namesakes.resolver (callOfF 1 9 9)).1 ≠
          (fileOptions.draw .usual namesakes.resolver (callOfF 1 2 2)).1 := by decide +kernel
  cases hc : fileOptions.collect (fileOf "a.f(); b.f()\n") with
  | error e =>
    rw [hc] at hsites
    cases hsites
  | ok c =>
    rw [hc] at hsites
    have hcalls : c.sites = [callOfF 1 2 2, callOfF 1 9 9] := Except.ok.inj hsites
    have hbelow := below_fileOf hc hcalls (by decide)
    have hlast :=
      readBytes_fileOf "a.f(); b.f()\n" namesakes.resolver (callOfF 1 2 2)
        (callOfF 1 9 9) hbelow hdrawn
      rfl hbase
    have hlast' :=
      readBytes_fileOf "a.f(); b.f()\n" namesakes.resolver (callOfF 1 9 9) (callOfF 1 2 2)
      (fun site hsite => hbelow site (by simpa [or_comm] using hsite))
      (fun site hsite => hdrawn site (by simpa [or_comm] using hsite)) hbase rfl
    have himage := placed_fileOptions.report_image (hdrawn _ (by simp))
      (written_fileOf "a.f(); b.f()\n" namesakes.resolver (callOfF 1 2 2) (by simp)) rfl
    rw [← placed_fileOptions.reportIn_eq _ (clear_fileOf _ _) fun _ => hbelow _ (by simp)] at himage
    refine ⟨c, rfl, hcalls, himage, ?_, ?_⟩
    · rw [hcalls]
      exact hlast'
    · rw [hcalls, hlast]
      intro hsame
      exact hdiffer (String.toByteArray_inj.mp (Except.ok.inj hsame))

end Options

end CallAtlas
