import CallAtlas.Proofs.Batch.Orders

/-!
# Call sites that fail

A call site can fail in two places. Its tree may not grow, because the resolver refuses an answer or
the stack gives out; this is reported, and the call site leaves no trace
(`Options.processAll_drawn`). Or its graph cannot be written, or the image of it not drawn. Nothing
contains a failure of this kind: one of them is enough for a batch to return no images at all,
although other graphs could be written (`Options.runBatch_of_blocked`).

So a batch returns exactly if every graph that is drawn can be written, and then it returns all
their images, in the order of the call sites (`Options.runBatch_returns_iff`).
-/

namespace CallAtlas

/-- Why the graph of a call site was not written, if that failed. -/
def SiteReport.failure? (report : SiteReport) : Option WriteError :=
  match report.image with
  | .ok _ => none
  | .error e => some e

theorem SiteReport.failure?_of_ok {report : SiteReport} {image : Option Path}
    (h : report.image = .ok image) :
    report.failure? = none := by
  rw [failure?, h]

theorem SiteReport.failure?_of_error {report : SiteReport} {e : WriteError}
    (h : report.image = .error e) :
    report.failure? = some e := by
  rw [failure?, h]

/-! ## One call site -/

/-- If a graph was written, the path of its image is known. -/
theorem eq_of_writeGraph {paint : Painter} {dot : String} {base image : Path} {format : String}
    {fs : FileSystem} (h : ((writeGraph paint dot base format).run.run fs).1 = .ok image) :
    image = base.withExtension format := by
  by_cases hformat : format ∈ outputFormats
  · rw [run_writeGraph hformat] at h
    exact (graphOutcome_eq_ok_iff.mp h).2.2
  · have hunknown : (!outputFormats.contains format) = true := by simpa using hformat
    rw [writeGraph, hunknown] at h
    cases h

namespace Options

variable {o : Options} {m : Machine} {r : Resolver Unit} {site : CallSite} {sites : List CallSite}
  {fs : FileSystem} {c : Collection}

/-- The image of a call site. -/
def imageOf (o : Options) (site : CallSite) : Path := (o.outputBase site).withExtension o.format

/-- Without a tree nothing is drawn. -/
theorem draw_of_tree_none (h : (o.grow m r site).tree = none) : (o.draw m r site).1 = "" := by
  unfold draw
  simp only [h]

theorem run_process_of_not_drawn (h : (o.draw m r site).1.isEmpty = true) :
    (o.process m r site).run fs = ({ image := .ok none, logs := (o.draw m r site).2 }, fs) := by
  unfold process
  simp only [h, if_true]
  rfl

/-- What is drawn is written, or there is a failure to report. -/
theorem image_process_of_drawn (h : ¬(o.draw m r site).1.isEmpty = true) (fs : FileSystem) :
    (∃ e, ((o.process m r site).run fs).1.image = .error e) ∨
      ((o.process m r site).run fs).1.image = .ok (some (o.imageOf site)) := by
  rw [run_process_of_drawn h]
  cases houtcome :
    ((writeGraph m.paint (o.draw m r site).1 (o.outputBase site) o.format).run.run fs).1 with
  | error e => exact .inl ⟨e, rfl⟩
  | ok image =>
    rw [eq_of_writeGraph houtcome]
    exact .inr rfl

theorem logs_process : ((o.process m r site).run fs).1.logs = (o.draw m r site).2 := by
  by_cases h : (o.draw m r site).1.isEmpty = true
  · rw [run_process_of_not_drawn h]
  · rw [run_process_of_drawn h]

/-! ## All call sites -/

theorem drawn_cons (o : Options) (m : Machine) (r : Resolver Unit) (site : CallSite)
    (rest : List CallSite) :
    o.drawn m r (site :: rest) = if (o.draw m r site).1.isEmpty then o.drawn m r rest
      else site :: o.drawn m r rest := by
  unfold drawn
  cases h : (o.draw m r site).1.isEmpty with
  | false => simp [h]
  | true => simp [h]

/-- Call sites for which nothing is drawn leave no trace in the file system. -/
theorem processAll_drawn (o : Options) (m : Machine) (r : Resolver Unit) (sites : List CallSite)
    (fs : FileSystem) :
    (o.processAll m r (o.drawn m r sites) fs).2 = (o.processAll m r sites fs).2 := by
  induction sites generalizing fs with
  | nil => rfl
  | cons site rest ih =>
    rw [drawn_cons, processAll_cons]
    by_cases h : (o.draw m r site).1.isEmpty = true
    · rw [if_pos h, run_process_of_not_drawn h]
      exact ih fs
    · rw [if_neg h, processAll_cons]
      exact ih _

theorem logs_processAll (o : Options) (m : Machine) (r : Resolver Unit) (sites : List CallSite)
    (fs : FileSystem) :
    (o.processAll m r sites fs).1.flatMap SiteReport.logs = sites.flatMap fun site =>
      (o.draw m r site).2 := by
  induction sites generalizing fs with
  | nil => rfl
  | cons site rest ih =>
    rw [processAll_cons, List.flatMap_cons, List.flatMap_cons, logs_process, ih]

theorem imagesOf_cons_of_error {report : SiteReport} {reports : List SiteReport} {e : WriteError}
    (h : report.image = .error e) : imagesOf (report :: reports) = .error e := by
  rw [imagesOf, List.filterMapM_cons, h]
  rfl

theorem imagesOf_cons_of_ok {report : SiteReport} {reports : List SiteReport} {image : Option Path}
    (h : report.image = .ok image) :
    imagesOf (report :: reports) = (imagesOf reports).map (image.toList ++ ·) := by
  rw [imagesOf, List.filterMapM_cons, h, imagesOf]
  cases image with
  | none => cases reports.filterMapM SiteReport.image <;> rfl
  | some path => cases reports.filterMapM SiteReport.image <;> rfl

/-- **The images of all call sites**: the first failure takes the place of all of them, and without
a failure they are those of the graphs that are drawn. -/
theorem imagesOf_processAll (o : Options) (m : Machine) (r : Resolver Unit) (sites : List CallSite)
    (fs : FileSystem) :
    imagesOf (o.processAll m r sites fs).1 =
      ((o.processAll m r sites fs).1.findSome? SiteReport.failure?).elim
        (.ok ((o.drawn m r sites).map o.imageOf)) .error := by
  induction sites generalizing fs with
  | nil => rfl
  | cons site rest ih =>
    rw [processAll_cons, drawn_cons, List.findSome?_cons]
    have hrest := ih ((o.process m r site).run fs).2
    -- From here on the reports of the rest are any of which the statement holds.
    generalize (o.processAll m r rest ((o.process m r site).run fs).2).1 = reports at hrest ⊢
    by_cases h : (o.draw m r site).1.isEmpty = true
    · have himage : ((o.process m r site).run fs).1.image = .ok none := by
        rw [run_process_of_not_drawn h]
      rw [imagesOf_cons_of_ok himage, SiteReport.failure?_of_ok himage, if_pos h, hrest]
      cases reports.findSome? SiteReport.failure? with
      | none => rfl
      | some e => rfl
    · rcases image_process_of_drawn h fs with ⟨e, himage⟩ | himage
      · rw [imagesOf_cons_of_error himage, SiteReport.failure?_of_error himage]
        rfl
      · rw [imagesOf_cons_of_ok himage, SiteReport.failure?_of_ok himage, if_neg h, hrest]
        cases reports.findSome? SiteReport.failure? with
        | none => rfl
        | some e => rfl

/-- What a batch does once its call sites are collected. If there are none it says so. -/
theorem run_runBatch (hc : o.collect fs = .ok c) (m : Machine) (r : Resolver Unit) :
    ∃ more, (o.runBatch m r).run.run fs =
      (((imagesOf (o.processAll m r c.sites fs).1).mapError BatchError.write).map fun written =>
          { written, logs :=
            c.logs ++ ((c.sites.flatMap fun site => (o.draw m r site).2) ++ more) },
        (o.processAll m r c.sites fs).2) := by
  -- The reading of the file system and the lifted run are closed steps; behind them the batch is a
  -- `match`.
  have hget : (get : ExceptT BatchError (StateM FileSystem) FileSystem).run.run fs =
      pure (.ok fs, fs) := rfl
  unfold runBatch
  rw [ExceptT.run_bind, StateT.run_bind, hget, pure_bind]
  simp only [hc, pure_bind]
  by_cases hempty : c.sites.isEmpty = true
  · rw [if_pos hempty, List.isEmpty_iff.mp hempty]
    exact ⟨_, rfl⟩
  · refine ⟨[], ?_⟩
    rw [if_neg hempty, List.append_nil, ← logs_processAll o m r c.sites fs]
    have hlift : (liftM (c.sites.mapM (o.process m r)) :
        ExceptT BatchError (StateM FileSystem) (List SiteReport)).run.run fs =
          pure (.ok (o.processAll m r c.sites fs).1, (o.processAll m r c.sites fs).2) := rfl
    rw [ExceptT.run_bind, StateT.run_bind, hlift, pure_bind]
    dsimp only
    cases imagesOf (o.processAll m r c.sites fs).1 with
    | error e => rfl
    | ok written => rfl

/-- **A batch returns exactly if every graph that is drawn can be written.** Call sites are
collected, and their graphs are written one after the other.

- If one of them cannot be written, the failure is raised: it is the first one in the order of the
  call sites.
- If not, the images of all graphs that are drawn are returned in this order. Call sites without a
  tree leave nothing behind but what was reported of them: the files are those that the others write
  on their own. -/
theorem runBatch_returns_iff (hc : o.collect fs = .ok c) (m : Machine) (r : Resolver Unit) :
    ((∃ report, ((o.runBatch m r).run.run fs).1 = .ok report) ↔
      ∀ report ∈ (o.processAll m r c.sites fs).1, report.failure? = none) ∧
    (∀ report, ((o.runBatch m r).run.run fs).1 = .ok report →
      report.written = (o.drawn m r c.sites).map o.imageOf ∧
      (∀ site ∈ c.sites, (o.grow m r site).tree = none →
        site ∉ o.drawn m r c.sites ∧ ∀ entry ∈ (o.grow m r site).logs, entry ∈ report.logs) ∧
      ((o.runBatch m r).run.run fs).2 = (o.processAll m r (o.drawn m r c.sites) fs).2) ∧
    ∀ e, ((o.runBatch m r).run.run fs).1 = .error e →
      ∃ failure, e = .write failure ∧
        (o.processAll m r c.sites fs).1.findSome? SiteReport.failure? = some failure := by
  obtain ⟨more, hrun⟩ := run_runBatch hc m r
  rw [hrun, imagesOf_processAll]
  -- With this, the outcome is decided by whether there is a failure among the reports.
  cases hfailures : (o.processAll m r c.sites fs).1.findSome? SiteReport.failure? with
  | none =>
    refine ⟨⟨fun _ => List.findSome?_eq_none_iff.mp hfailures, fun _ => ⟨_, rfl⟩⟩,
      ?_, by rintro e ⟨⟩⟩
    rintro report ⟨⟩
    refine ⟨rfl, fun site hsite htree => ⟨fun hdrawn => ?_, fun entry hentry => ?_⟩,
      (processAll_drawn ..).symm⟩
    · have hempty := (mem_drawn.mp hdrawn).2
      rw [draw_of_tree_none htree] at hempty
      cases hempty
    · have hlogs : (o.draw m r site).2 = (o.grow m r site).logs := by
        unfold draw
        simp only [htree]
      simp only [List.mem_append, List.mem_flatMap]
      exact .inr (.inl ⟨site, hsite, hlogs ▸ hentry⟩)
  | some failure =>
    refine ⟨⟨?_, ?_⟩, ?_, ?_⟩
    · rintro ⟨report, ⟨⟩⟩
    · intro hnone
      rw [List.findSome?_eq_none_iff.mpr hnone] at hfailures
      cases hfailures
    · rintro report ⟨⟩
    · rintro e ⟨⟩
      exact ⟨failure, rfl, rfl⟩

/-! ## Two calls, one of which fails -/

/-- The resolver of `namesakes` that refuses to answer about the third character. -/
def refusing : Resolver Unit where
  __ := namesakes.resolver
  prepare file offset :=
  if offset = 2 then throw .refused else namesakes.resolver.prepare file offset

/-- A source file with calls on two lines, and a directory where the graph of the first one goes. -/
def blockedFile : FileSystem where
  entries := [("w", .directory [("m.py", .file "a.f()\nb.f()\n".toUTF8),
    ("out", .directory [("m.py#f:1.dot", .directory [])])])]
  current := ["w"]

theorem exists_of_collect {calls : List CallSite}
    (h : (o.collect fs).map Collection.sites = .ok calls) :
    ∃ c, o.collect fs = .ok c ∧ c.sites = calls := by
  cases hc : o.collect fs with
  | error e =>
    rw [hc] at h
    cases h
  | ok c =>
    rw [hc] at h
    exact ⟨c, rfl, Except.ok.inj h⟩

/-- If nothing can be asked about the first of two calls, the image of the second is returned. -/
theorem runBatch_returns_of_refusing :
    ∃ c, fileOptions.collect (fileOf "a.f()\nb.f()\n") = .ok c ∧
      c.sites = [callOfF 1 2 2, callOfF 2 2 8] ∧
      (fileOptions.grow .usual refusing (callOfF 1 2 2)).tree = none ∧
      ∃ report, ((fileOptions.runBatch .usual refusing).run.run (fileOf "a.f()\nb.f()\n")).1 =
        .ok report ∧
        report.written = [⟨"/", ["w", "out", "m.py#f:2.svg"]⟩] := by
  have hsites : (fileOptions.collect (fileOf "a.f()\nb.f()\n")).map Collection.sites =
      .ok [callOfF 1 2 2, callOfF 2 2 8] := by decide +kernel
  obtain ⟨c, hc, hcalls⟩ := exists_of_collect hsites
  obtain ⟨htree, hfirst, hsecond, himage⟩ :
      (fileOptions.grow .usual refusing (callOfF 1 2 2)).tree.isNone = true ∧
      (fileOptions.draw .usual refusing (callOfF 1 2 2)).1.isEmpty = true ∧
      (fileOptions.draw .usual refusing (callOfF 2 2 8)).1.isEmpty = false ∧
      fileOptions.imageOf (callOfF 2 2 8) = ⟨"/", ["w", "out", "m.py#f:2.svg"]⟩ := by decide +kernel
  have hwritten :
      (fileOptions.reportIn .usual refusing (fileOf "a.f()\nb.f()\n") (callOfF 2 2 8)).image =
        .ok (some (fileOptions.imageOf (callOfF 2 2 8))) := by
    rw [placed_fileOptions.reportIn_eq _ (clear_fileOf _ _) fun _ =>
      below_fileOf hc hcalls (by decide) _ (by simp)]
    exact placed_fileOptions.report_image hsecond (written_fileOf _ refusing _ (by simp)) rfl
  have hdrawn : fileOptions.drawn .usual refusing c.sites = [callOfF 2 2 8] := by
    simp [hcalls, drawn, hfirst, hsecond]
  obtain ⟨hreturns, hreport, -⟩ := runBatch_returns_iff hc .usual refusing
  have hreports :
      ∀ report ∈ (fileOptions.processAll .usual refusing c.sites (fileOf "a.f()\nb.f()\n")).1,
      report.failure? = none := by
    rw [hcalls, processAll_cons, processAll_cons, run_process_of_not_drawn hfirst]
    simp only [List.forall_mem_cons]
    exact ⟨SiteReport.failure?_of_ok rfl, SiteReport.failure?_of_ok hwritten, List.forall_mem_nil _⟩
  obtain ⟨report, hrun⟩ := hreturns.mpr hreports
  refine ⟨c, hc, hcalls, Option.isNone_iff_eq_none.mp htree, report, hrun, ?_⟩
  rw [(hreport report hrun).1, hdrawn, List.map_singleton, himage]

/-- If the graph of the first of two calls cannot be written, no image is returned, although the
second can be. -/
theorem runBatch_of_blocked :
    ∃ c, fileOptions.collect blockedFile = .ok c ∧ c.sites = [callOfF 1 2 2, callOfF 2 2 8] ∧
      (fileOptions.reportIn .usual namesakes.resolver blockedFile (callOfF 2 2 8)).image =
        .ok (some ⟨"/", ["w", "out", "m.py#f:2.svg"]⟩) ∧
      ((fileOptions.runBatch .usual namesakes.resolver).run.run blockedFile).1 =
        .error (.write (.file .isADirectory)) := by
  have hsites : (fileOptions.collect blockedFile).map Collection.sites =
      .ok [callOfF 1 2 2, callOfF 2 2 8] := by decide +kernel
  obtain ⟨c, hc, hcalls⟩ := exists_of_collect hsites
  obtain ⟨hfirst, hsecond, himage⟩ :
      (fileOptions.draw .usual namesakes.resolver (callOfF 1 2 2)).1.isEmpty = false ∧
      (fileOptions.draw .usual namesakes.resolver (callOfF 2 2 8)).1.isEmpty = false ∧
      fileOptions.imageOf (callOfF 2 2 8) = ⟨"/", ["w", "out", "m.py#f:2.svg"]⟩ := by decide +kernel
  have hnames : ∀ site ∈ [callOfF 1 2 2, callOfF 2 2 8], isFileName site.called = true := by decide
  have hreport (site : CallSite) (hsite : site ∈ [callOfF 1 2 2, callOfF 2 2 8]) :
      fileOptions.reportIn .usual namesakes.resolver blockedFile site =
        placed_fileOptions.report .usual namesakes.resolver blockedFile.faces site :=
    placed_fileOptions.reportIn_eq _ (fun place _ => FileSystem.entryAt?_ne_link rfl place) fun _ =>
      placed_fileOptions.outputBase_below hc (hcalls ▸ hsite) (hnames site hsite)
  -- The contents play no part in whether there is room for a graph.
  have hroom (content image : ByteArray) :
      ((Output.ofBase (fileOptions.outputBase (callOfF 1 2 2)) placed_fileOptions.format
        content image).write
        blockedFile.faces).1 = .error .isADirectory ∧
      ((Output.ofBase (fileOptions.outputBase (callOfF 2 2 8)) placed_fileOptions.format
        content image).write
        blockedFile.faces).1 = .ok () := ⟨rfl, rfl⟩
  have hblocked :
      (fileOptions.reportIn .usual namesakes.resolver blockedFile (callOfF 1 2 2)).image =
        .error (.file .isADirectory) := by
    have hfails :
        ((placed_fileOptions.written .usual namesakes.resolver (callOfF 1 2 2)).write
          blockedFile.faces).1 =
        .error .isADirectory := (hroom _ _).1
    rw [hreport _ (by simp), Placed.report]
    simp only [hfirst, Bool.false_eq_true, if_false, hfails]
    rfl
  refine ⟨c, hc, hcalls, ?_, ?_⟩
  · rw [hreport _ (by simp), ← himage]
    exact placed_fileOptions.report_image hsecond (hroom _ _).2 rfl
  · obtain ⟨more, hrun⟩ := run_runBatch hc .usual namesakes.resolver
    have himages :
        imagesOf (fileOptions.processAll .usual namesakes.resolver c.sites blockedFile).1 =
          .error (.file .isADirectory) := by
      rw [hcalls, processAll_cons]
      exact imagesOf_cons_of_error hblocked
    rw [hrun, himages]
    rfl

end Options

end CallAtlas
