import CallAtlas.Proofs.Batch.Failures
import CallAtlas.Proofs.FileSystem.Ways

/-!
# Batches stay in their output directory

The output directory is known by a path, and the path may lead through links before it comes to
where the directory stands (`FileSystem.StandsAt`). If none are found from there on, a batch might
as well have been given the place itself (`Options.Placed.processAll_movedTo`), and what it then
writes is known: the outputs of its call sites. A path that ends at something in the way is not
written to at all (`FileAction.Stuck.exec_graph`).

So the files of a batch have names below the output directory, and no other file is touched
(`Options.runBatch_confined`).
-/

namespace CallAtlas

/-! ## Names of files -/

/-- Identifiers hold letters, digits, marks and underscores. -/
theorem isFileName_of_isIdentifier {name : String}
    (h : Text.Identifier.isIdentifier name.toList = true) :
    isFileName name = true := by
  have hother : ∀ c ∈ ['.', '/', '\x00'], Text.Identifier.isStart c = false ∧
      Text.Identifier.isInner c = false := by
    intro c hc
    have hascii : c.toNat < 128 ∧ (c.isAlpha || c == '_') = false ∧
        (c.isAlphanum || c == '_') = false := by
      simp only [List.mem_cons, List.not_mem_nil, or_false] at hc
      rcases hc with rfl | rfl | rfl
      · decide
      · decide
      · decide
    obtain ⟨hlt, halpha, halphanum⟩ := hascii
    rw [Text.Identifier.isStart, Text.Identifier.isInner, if_pos hlt, if_pos hlt]
    exact ⟨halpha, halphanum⟩
  have hfree : ∀ c ∈ ['.', '/', '\x00'], c ∉ name.toList := by
    intro c hc hmem
    cases hchars : name.toList with
    | nil =>
      rw [hchars] at hmem
      cases hmem
    | cons first rest =>
      rw [hchars] at h hmem
      obtain ⟨hfirst, hrest⟩ := Bool.and_eq_true_iff.mp h
      rcases List.mem_cons.mp hmem with rfl | hmem
      · rw [(hother c hc).1] at hfirst
        cases hfirst
      · have hinner := List.all_eq_true.mp hrest c hmem
        rw [(hother c hc).2] at hinner
        cases hinner
  refine isFileName_iff.mpr ⟨?_, ?_, ?_, hfree '/' (by simp), hfree '\x00' (by simp)⟩
  · rintro rfl
    cases h
  · rintro rfl
    exact hfree '.' (by simp) (by simp)
  · rintro rfl
    exact hfree '.' (by simp) (by simp)

/-- The endings of source files are those of no output. -/
theorem source_ne_output {format : String} (h : format ∈ "dot" :: outputFormats) {source : String}
    (hsource : source ∈ ["py", "pyi"]) (name stem : String) :
    name ++ ("." ++ format) ≠ stem ++ ("." ++ source) := by
  have hends : ∀ format ∈ "dot" :: outputFormats, ∀ source ∈ ["py", "pyi"],
      ¬("." ++ format).toList <:+ ("." ++ source).toList ∧
      ¬("." ++ source).toList <:+ ("." ++ format).toList := by
    decide
  intro heq
  have hboth : ("." ++ format).toList <:+ (name ++ ("." ++ format)).toList ∧
      ("." ++ source).toList <:+ (name ++ ("." ++ format)).toList := by
    constructor
    · exact ⟨name.toList, String.toList_append.symm⟩
    · rw [heq]
      exact ⟨stem.toList, String.toList_append.symm⟩
  rcases List.suffix_or_suffix_of_suffix hboth.1 hboth.2 with hsuffix | hsuffix
  · exact (hends format h source hsource).1 hsuffix
  · exact (hends format h source hsource).2 hsuffix

/-! ## Where a directory stands -/

namespace FileSystem

variable {fs fs' : FileSystem} {named standing more above : List String} {name : String}

/-- A directory that is named by a path stands at a place: the beginning of the path leads to a
place, and the rest goes on from there. No link is on the way to where the directory stands, there,
or below it. -/
structure StandsAt (fs : FileSystem) (named standing : List String) : Prop where
  clear : fs.Clear standing
  named_proper : ∀ part ∈ named, isFileName part = true
  standing_proper : ∀ part ∈ standing, isFileName part = true
  way : ∃ way place rest, named = way ++ rest ∧ standing = place ++ rest ∧
    fs.find ⟨"/", way⟩ = .ok place

namespace StandsAt

theorem of_grows (h : fs.StandsAt named standing) (hgrows : fs.Grows fs') :
    fs'.StandsAt named standing := by
  obtain ⟨way, place, rest, hnamed, hstanding, hway⟩ := h.way
  exact {
    clear := h.clear.of_faces fun place target => (hgrows.link place target).mp
    named_proper := h.named_proper
    standing_proper := h.standing_proper
    way := ⟨way, place, rest, hnamed, hstanding, hgrows.find hway⟩ }

theorem isPlace (h : fs.StandsAt named standing) (hmore : ∀ part ∈ more, isFileName part = true) :
    fs.IsPlace ⟨"/", standing ++ more⟩ := by
  refine h.clear.isPlace (List.prefix_append _ _) fun part hpart => ?_
  exact (List.mem_append.mp hpart).elim (h.standing_proper part) (hmore part)

/-- The beginning of the path that leads to a place, with what comes after it. -/
theorem exists_way (h : fs.StandsAt named standing)
    (hmore : ∀ part ∈ more, isFileName part = true) :
    ∃ way place rest, named ++ more = way ++ (rest ++ more) ∧
      standing ++ more = place ++ (rest ++ more) ∧
      fs.find ⟨"/", way⟩ = .ok place ∧ ".." ∉ way ∧
      (∀ part ∈ rest ++ more, isFileName part = true) ∧
      fs.IsPlace ⟨"/", place ++ (rest ++ more)⟩ := by
  obtain ⟨way, place, rest, rfl, rfl, hway⟩ := h.way
  have hplace := h.isPlace hmore
  rw [List.append_assoc] at hplace
  refine ⟨way, place, rest, List.append_assoc .., List.append_assoc .., hway, fun hmem => ?_,
    fun part hpart => ?_, hplace⟩
  · exact isFileName_ne_parent (h.named_proper _ (List.mem_append_left _ hmem)) rfl
  · exact (List.mem_append.mp hpart).elim
      (fun hpart => h.named_proper part (List.mem_append_right _ hpart)) (hmore part)

theorem find (h : fs.StandsAt named standing) (hmore : ∀ part ∈ more, isFileName part = true) :
    fs.find ⟨"/", named ++ more⟩ = fs.find ⟨"/", standing ++ more⟩ := by
  obtain ⟨way, place, rest, hnamed, hstanding, hway, -, hrest, hplace⟩ := h.exists_way hmore
  rw [hnamed, hstanding, find_append hway hplace hrest]

theorem exec_makeDirectories (h : fs.StandsAt named standing)
    (hmore : ∀ part ∈ more, isFileName part = true) :
    FileAction.exec (FileAction.makeDirectories ⟨"/", named ++ more⟩) fs =
      FileAction.exec (FileAction.makeDirectories ⟨"/", standing ++ more⟩) fs := by
  obtain ⟨way, place, rest, hnamed, hstanding, hway, hstraight, hrest, hplace⟩ := h.exists_way hmore
  rw [hnamed, hstanding, FileAction.makeDirectories]
  exact FileAction.exec_makeDirectories_way (by simp) hway hstraight hplace hrest

theorem exec_writeBytes (h : fs.StandsAt named standing)
    (hnames : ∀ part ∈ above ++ [name], isFileName part = true) (content : ByteArray) :
    FileAction.exec (FileAction.writeBytes ⟨"/", named ++ (above ++ [name])⟩ content) fs =
      FileAction.exec (FileAction.writeBytes ⟨"/", standing ++ (above ++ [name])⟩ content) fs := by
  obtain ⟨way, place, rest, hnamed, hstanding, hway, -, hrest, hplace⟩ := h.exists_way hnames
  rw [hnamed, hstanding]
  simp only [← List.append_assoc] at hrest hplace ⊢
  have hassoc (start : List String) :
      start ++ rest ++ above ++ [name] = start ++ (rest ++ above) ++ [name] := by
    simp
  rw [hassoc] at hplace ⊢
  rw [hassoc]
  exact FileAction.exec_writeBytes_way hway hplace hrest content

end StandsAt

/-- **A directory that is named by a path stands somewhere, or something is in the way.** Where the
path ends before a name that is free, nothing is below this name, and no links. -/
theorem Proper.standsAt_cases (hproper : fs.Proper)
    (hnamed : ∀ part ∈ named, isFileName part = true)
    (hfree : ∀ place, fs.find ⟨"/", named⟩ = .ok place →
      ∀ rest target, fs.entryAt? (place ++ rest) ≠ some (.link target)) :
    (∃ standing, fs.StandsAt named standing) ∨
      ∃ way name rest, named = way ++ name :: rest ∧ FileAction.Stuck fs way name := by
  have hnames {place : List String} (hthere : fs.faces place ≠ none) :
      ∀ part ∈ place, isFileName part = true := by
    obtain ⟨e, he⟩ :=
      Option.ne_none_iff_exists'.mp fun hnone => hthere (faces_eq_none_iff.mpr hnone)
    exact Entry.isFileName_of_descend? he hproper.named
  rcases @FileAction.way_cases fs named hnamed with ⟨place, hplace⟩ |
    ⟨way, name, rest, place, rfl, hway, -, hnone⟩ |
    hstuck
  · obtain ⟨hcanonical, hthere⟩ := canonical_of_find hplace
    refine .inl ⟨place, ?_, hnamed, hnames hthere, named, place, [], by simp, by simp, hplace⟩
    rintro other (hother | ⟨rest, rfl⟩) target
    · exact hcanonical.linkFree other hother target
    · exact hfree place hplace rest target
  · obtain ⟨hcanonical, hthere⟩ := canonical_of_find hway
    refine .inl ⟨place ++ name :: rest, ?_, hnamed, fun part hpart => ?_, way, place, name :: rest,
      rfl, rfl, hway⟩
    · intro other hother target htarget
      -- What is beyond the free name is not there at all.
      by_cases hbeyond : place ++ [name] <+: other
      · have hmissing := faces_eq_none_iff.mp (faces_below hnone hbeyond)
        rw [hmissing] at htarget
        cases htarget
      · refine hcanonical.linkFree other ?_ target htarget
        have hstart : place ++ [name] <+: place ++ name :: rest := ⟨rest, by simp⟩
        rcases hother with hother | hother
        · rcases List.prefix_or_prefix_of_prefix hother hstart with hshort | hlong
          · exact (List.prefix_concat_iff.mp hshort).resolve_left fun heq =>
              hbeyond (heq ▸ List.prefix_rfl)
          · exact absurd hlong hbeyond
        · exact absurd (hstart.trans hother) hbeyond
    · rcases List.mem_append.mp hpart with hpart | hpart
      · exact hnames hthere part hpart
      · exact hnamed part (List.mem_append_right _ hpart)
  · exact .inr hstuck

end FileSystem

/-! ## Writing a graph -/

namespace FileAction

open FileSystem

variable {fs : FileSystem} {named standing above : List String} {name format : String}

/-- **A graph is written below where the directory stands.** -/
theorem exec_graph_standing (h : fs.StandsAt named standing)
    (hnames : ∀ part ∈ above ++ [name], isFileName part = true)
    (hformat : format ∈ outputFormats) (dot : String) (image : Option ByteArray) :
    (exec (graph dot image ⟨"/", named ++ (above ++ [name])⟩ format) fs).2 =
      (exec (graph dot image ⟨"/", standing ++ (above ++ [name])⟩ format) fs).2 := by
  have habove : ∀ part ∈ above, isFileName part = true :=
    fun part hpart => hnames part (List.mem_append_left _ hpart)
  have hextended {extension : String} (hplain : IsPlain extension) :
      ∀ part ∈ above ++ [name ++ ("." ++ extension)], isFileName part = true :=
    Path.isFileName_extended hnames hplain
  have hparent (before : List String) : (⟨"/", before ++ (above ++ [name])⟩ : Path).parent =
      ⟨"/", before ++ above⟩ := by
    rw [Path.parent, ← List.append_assoc, List.dropLast_concat]
  have hpath {before : List String} (hbefore : ∀ part ∈ before, isFileName part = true)
      {extension : String}
      (hplain : IsPlain extension) :
        (⟨"/", before ++ (above ++ [name])⟩ : Path).withExtension extension =
          ⟨"/", before ++ (above ++ [name ++ ("." ++ extension)])⟩ := by
    rw [← List.append_assoc, ← List.append_assoc]
    refine Path.withExtension_concat (fun part hpart => ?_) hplain
    rw [List.append_assoc] at hpart
    exact (List.mem_append.mp hpart).elim (hbefore part) (hnames part)
  have hplain := isPlain_of_mem_outputFormats format hformat
  unfold graph writeText
  rw [hparent, hparent, hpath h.named_proper isPlain_dot, hpath h.named_proper hplain,
    hpath h.standing_proper isPlain_dot, hpath h.standing_proper hplain, exec_bind, exec_bind,
    h.exec_makeDirectories habove]
  -- Each step is the same for both, and leaves the directory where it stands.
  rcases hmake : exec (makeDirectories ⟨"/", standing ++ above⟩) fs with ⟨e | u, fs₁⟩
  · rfl
  · obtain ⟨hgrows, hfaces⟩ := grows_of_makeDirectories (h.isPlace habove) hmake
    have h₁ := h.of_grows hgrows
    have hdirectory : fs₁.faces (standing ++ above) = some .directory := by
      rw [hfaces, Faces.opened, if_pos List.prefix_rfl]
    dsimp only
    rw [exec_bind, exec_bind, h₁.exec_writeBytes (hextended isPlain_dot)]
    rcases hwrite :
      exec (writeBytes ⟨"/", standing ++ (above ++ [name ++ ("." ++ "dot")])⟩ dot.toUTF8) fs₁ with
      ⟨e | u, fs₂⟩
    · rfl
    · have hplace := h₁.isPlace (hextended isPlain_dot)
      rw [← List.append_assoc] at hplace hwrite
      have h₂ := h₁.of_grows (grows_of_writeBytes hplace hdirectory hwrite)
      cases image with
      | none => rfl
      | some content => exact congrArg Prod.snd (h₂.exec_writeBytes (hextended hplain) content)

/-- **Behind a name where the path ends nothing is written.** -/
theorem Stuck.exec_graph {way rest : List String} {first : String} (h : Stuck fs way first)
    (hproper : ∀ part ∈ way ++ first :: rest, isFileName part = true)
    (hnames : ∀ part ∈ above ++ [name], isFileName part = true) (dot : String)
    (image : Option ByteArray) :
    (exec (graph dot image ⟨"/", way ++ first :: rest ++ (above ++ [name])⟩ format) fs).2 = fs := by
  have hparent : (⟨"/", way ++ first :: rest ++ (above ++ [name])⟩ : Path).parent =
      ⟨"/", way ++ [first] ++ (rest ++ above)⟩ := by
    rw [Path.parent, ← List.append_assoc, List.dropLast_concat]
    simp
  have hrest : ∀ part ∈ rest ++ above, isFileName part = true := by
    intro part hpart
    rcases List.mem_append.mp hpart with hpart | hpart
    · exact hproper part (by simp [hpart])
    · exact hnames part (List.mem_append_left _ hpart)
  have hbegin : Path.checkNames ⟨"/", way ++ [first]⟩ = .ok () := by
    refine checkNames_eq_ok_iff.mpr fun part hpart => isFileName_no_null (hproper part ?_)
    rw [← List.singleton_append, ← List.append_assoc]
    exact List.mem_append_left _ hpart
  obtain ⟨e, hmake⟩ :=
    h.exec_makeDirectoriesFrom (way ++ [first] ++ (rest ++ above)).length hrest hbegin
  unfold graph
  rw [hparent, exec_bind, makeDirectories, hmake]

end FileAction

namespace Output

variable {w : Output} {F : Faces} {place directory : List String} {content : ByteArray}

theorem directory_prefix_of_mem_files {file : List String × ByteArray} (h : file ∈ w.files) :
    w.directory <+: file.1 := by
  rcases mem_files_iff.mp h with rfl | ⟨image, -, rfl⟩
  · exact List.prefix_append _ _
  · exact List.prefix_append _ _

/-- An output adds to a file system, if no link is where it goes. -/
theorem grows_of_write {fs fs' : FileSystem} (hclear : fs.Clear directory)
    (hbelow : directory <+: w.directory)
    (hfaces : fs'.faces = (w.write fs.faces).2) : fs.Grows fs' := by
  refine FileSystem.grows_of_changes fun place => ?_
  rw [hfaces, write_snd]
  dsimp only
  cases heffect : w.effect fs.faces place with
  | none => exact .inl rfl
  | some face =>
    have hlink (hway : place <+: directory ∨ directory <+: place) (target : String) :
        fs.faces place ≠ some (.link target) :=
      fun hlink => hclear place hway target (FileSystem.faces_eq_link_iff.mp hlink)
    rcases effect_cases heffect with ⟨content, rfl, hfile, hnot⟩ | ⟨rfl, hprefix, hnot⟩
    · exact .inr ⟨hlink (.inr (hbelow.trans (directory_prefix_of_mem_files hfile))),
        .inr ⟨rfl, hnot⟩⟩
    · exact .inr ⟨hlink (List.prefix_or_prefix_of_prefix hprefix hbelow), .inl ⟨rfl, hnot⟩⟩

/-- A file that is none of the output's is not touched, and none comes to be. -/
theorem file_write (h : ∀ file ∈ w.files, file.1 ≠ place) :
    (w.write F).2 place = some (.file content) ↔ F place = some (.file content) := by
  rw [write_snd]
  dsimp only
  cases heffect : w.effect F place with
  | none => rfl
  | some face =>
    rcases effect_cases heffect with ⟨content', -, hfile, -⟩ | ⟨rfl, -, hnot⟩
    · exact absurd rfl (h _ hfile)
    · refine iff_of_false (by simp) fun hfile => ?_
      rw [hfile] at hnot
      cases hnot

theorem file_writeAll {outputs : List Output}
    (h : ∀ w ∈ outputs, ∀ file ∈ w.files, file.1 ≠ place) :
    writeAll F outputs place = some (.file content) ↔ F place = some (.file content) := by
  induction outputs generalizing F with
  | nil => rfl
  | cons first rest ih =>
    obtain ⟨hfirst, hrest⟩ := List.forall_mem_cons.mp h
    exact (ih hrest).trans (file_write hfirst)

end Output

/-! ## Handling call sites -/

namespace Options

variable {o : Options} {m : Machine} {r : Resolver Unit} {site : CallSite} {sites : List CallSite}
  {fs fs₀ : FileSystem} {c : Collection} {standing : List String}

/-- The options with another output directory. -/
def movedTo (o : Options) (standing : List String) : Options := { o with output := ⟨"/", standing⟩ }

theorem Placed.movedTo (h : o.Placed) (hnames : ∀ part ∈ standing, isFileName part = true) :
    (o.movedTo standing).Placed where
  output_root := rfl
  output_names := hnames
  format := h.format
  root_root := h.root_root
  entry := h.entry

theorem processAll_nil (o : Options) (m : Machine) (r : Resolver Unit) (fs : FileSystem) :
    o.processAll m r [] fs = ([], fs) := rfl

theorem draw_movedTo : (o.movedTo standing).draw m r site = o.draw m r site := rfl

/-- A call site is handled as if the place of the output directory had been given. -/
theorem Placed.process_movedTo (h : o.Placed) (hstands : fs.StandsAt o.output.parts standing)
    (hc : o.collect fs₀ = .ok c) (hsite : site ∈ c.sites)
    (hcalled : isFileName site.called = true) :
    ((o.process m r site).run fs).2 = (((o.movedTo standing).process m r site).run fs).2 := by
  by_cases hdrawn : (o.draw m r site).1.isEmpty = true
  · have hmoved : ((o.movedTo standing).draw m r site).1.isEmpty = true := hdrawn
    rw [run_process_of_not_drawn hdrawn, run_process_of_not_drawn hmoved]
  · obtain ⟨above, name, hnames, hbase⟩ := h.exists_names hc hsite hcalled
    have hnamed : o.outputBase site = ⟨"/", o.output.parts ++ (above ++ [name])⟩ := by
      rw [outputBase, hbase, h.output_root]
    have hmoved : (o.movedTo standing).outputBase site = ⟨"/", standing ++ (above ++ [name])⟩ :=
      hbase ⟨"/", standing⟩
    have hdrawn' : ¬((o.movedTo standing).draw m r site).1.isEmpty = true := hdrawn
    have hformat : (o.movedTo standing).format ∈ outputFormats := h.format
    rw [run_process_of_drawn hdrawn, run_process_of_drawn hdrawn', hnamed, hmoved, draw_movedTo]
    dsimp only
    rw [run_writeGraph h.format, run_writeGraph hformat]
    exact FileAction.exec_graph_standing hstands hnames h.format (o.draw m r site).1 _

/-- What is there stays when a call site is handled. -/
theorem Placed.grows_process (h : o.Placed) (hclear : fs.Clear o.output.parts)
    (hbelow : (o.outputBase site).NamesBelow o.output.parts) (m : Machine) :
    fs.Grows ((o.process m r site).run fs).2 := by
  by_cases hdrawn : (o.draw m r site).1.isEmpty = true
  · rw [run_process_of_not_drawn hdrawn]
    exact FileSystem.grows_of_changes fun _ => .inl rfl
  · obtain ⟨fs', hrun, hfaces⟩ := h.run_process m hclear fun _ => hbelow
    have houtputs : h.outputs m r [site] = [h.written m r site] := by simp [outputs, drawn, hdrawn]
    rw [houtputs] at hfaces
    rw [hrun]
    refine Output.grows_of_write hclear ?_ hfaces
    rw [h.directory_written]
    obtain ⟨above, name, hbase, hprefix, -⟩ := hbelow
    rw [hbase, Path.parent, List.dropLast_concat]
    exact hprefix

/-- **Call sites are handled as if the place of the output directory had been given**, and what was
there stays. -/
theorem Placed.processAll_movedTo (h : o.Placed) (hstands : fs.StandsAt o.output.parts standing)
    (hc : o.collect fs₀ = .ok c)
    (hsites : ∀ site ∈ sites, site ∈ c.sites ∧ isFileName site.called = true) :
    (o.processAll m r sites fs).2 = ((o.movedTo standing).processAll m r sites fs).2 ∧
      fs.Grows (o.processAll m r sites fs).2 := by
  induction sites generalizing fs with
  | nil =>
    rw [processAll_nil, processAll_nil]
    exact ⟨rfl, FileSystem.grows_of_changes fun _ => .inl rfl⟩
  | cons site rest ih =>
    obtain ⟨⟨hsite, hcalled⟩, hrest⟩ := List.forall_mem_cons.mp hsites
    have hmoved := h.movedTo hstands.standing_proper
    have hfirst : ((o.process m r site).run fs).2 = _ := h.process_movedTo hstands hc hsite hcalled
    have hgrows : fs.Grows (((o.movedTo standing).process m r site).run fs).2 :=
      hmoved.grows_process hstands.clear (hmoved.outputBase_below hc hsite hcalled) m
    obtain ⟨hsame, hgrows'⟩ := ih (hstands.of_grows hgrows) hrest
    rw [processAll_cons, processAll_cons, hfirst]
    exact ⟨hsame, hgrows.trans hgrows'⟩

/-- Behind a name where the path of the output directory ends nothing is done. -/
theorem Placed.processAll_of_stuck (h : o.Placed) {way rest : List String} {first : String}
    (houtput : o.output.parts = way ++ first :: rest) (hstuck : FileAction.Stuck fs way first)
    (hc : o.collect fs₀ = .ok c)
    (hsites : ∀ site ∈ sites, site ∈ c.sites ∧ isFileName site.called = true) :
    (o.processAll m r sites fs).2 = fs := by
  induction sites with
  | nil => rfl
  | cons site others ih =>
    obtain ⟨⟨hsite, hcalled⟩, hothers⟩ := List.forall_mem_cons.mp hsites
    have hfirst : ((o.process m r site).run fs).2 = fs := by
      by_cases hdrawn : (o.draw m r site).1.isEmpty = true
      · rw [run_process_of_not_drawn hdrawn]
      · obtain ⟨above, name, hnames, hbase⟩ := h.exists_names hc hsite hcalled
        rw [run_process_of_drawn hdrawn, outputBase, hbase, h.output_root, houtput]
        dsimp only
        rw [run_writeGraph h.format]
        exact hstuck.exec_graph (houtput ▸ h.output_names) hnames _ _
    rw [processAll_cons, hfirst]
    exact ih hothers

/-- The text and the image of a call site have one name with two endings, below whichever
directory. -/
theorem Placed.withExtension_outputBase (h : o.Placed) (hc : o.collect fs₀ = .ok c)
    (hsite : site ∈ c.sites) (hcalled : isFileName site.called = true) {extension : String}
    (hextension : extension ∈ ["dot", o.format]) :
    ∃ above name, (∀ part ∈ above ++ [name ++ ("." ++ extension)], isFileName part = true) ∧
      ∀ directory, (∀ part ∈ directory, isFileName part = true) →
        (site.outputBase (some o.root) ⟨"/", directory⟩).withExtension extension =
          ⟨"/", directory ++ (above ++ [name ++ ("." ++ extension)])⟩ := by
  have hplain : IsPlain extension := by
    rcases List.mem_cons.mp hextension with rfl | hformat
    · exact isPlain_dot
    · exact isPlain_of_mem_outputFormats extension (List.mem_singleton.mp hformat ▸ h.format)
  obtain ⟨above, name, hnames, hbase⟩ := h.exists_names hc hsite hcalled
  refine ⟨above, name, Path.isFileName_extended hnames hplain, fun directory hdirectory => ?_⟩
  rw [hbase, ← List.append_assoc, ← List.append_assoc]
  refine Path.withExtension_concat (fun part hpart => ?_) hplain
  rw [List.append_assoc] at hpart
  exact (List.mem_append.mp hpart).elim (hdirectory part) (hnames part)

/-- **Files other than the outputs of call sites are not touched.** -/
theorem Placed.file_processAll (h : o.Placed) (hstands : fs.StandsAt o.output.parts standing)
    (hc : o.collect fs₀ = .ok c)
    (hsites : ∀ site ∈ sites, site ∈ c.sites ∧ isFileName site.called = true)
    {place : List String} {content : ByteArray}
    (hplace : ∀ site ∈ sites, ∀ extension ∈ ["dot", o.format],
      ((o.movedTo standing).outputBase site).withExtension extension ≠ ⟨"/", place⟩) :
    (o.processAll m r sites fs).2.faces place = some (.file content) ↔
      fs.faces place = some (.file content) := by
  have hmoved := h.movedTo hstands.standing_proper
  have hbelow :
      ∀ site ∈ sites, ((o.movedTo standing).outputBase site).NamesBelow
        (o.movedTo standing).output.parts :=
    fun site hsite => hmoved.outputBase_below hc (hsites site hsite).1 (hsites site hsite).2
  rw [(h.processAll_movedTo hstands hc hsites).1,
    hmoved.faces_processAll m hstands.clear fun site hsite =>
    hbelow site (mem_drawn.mp hsite).1]
  refine Output.file_writeAll fun w hw file hfile heq => ?_
  obtain ⟨site, hsite, rfl⟩ := List.mem_map.mp hw
  have hmem := (mem_drawn.mp hsite).1
  obtain ⟨extension, hextension, hpath⟩ :=
    hmoved.exists_extension_of_mem_files (hbelow site hmem) hfile
  exact hplace site hmem extension hextension (heq ▸ hpath)

/-- A file to which no output path leads afterwards is not touched. If it were at the place of an
output, there would be nothing there now, and so nothing before. -/
theorem Placed.file_of_no_path (h : o.Placed) (hstands : fs.StandsAt o.output.parts standing)
    (hc : o.collect fs₀ = .ok c)
    (hsites : ∀ site ∈ sites, site ∈ c.sites ∧ isFileName site.called = true)
    {place : List String} {content : ByteArray}
    (hplace : ∀ site ∈ sites, ∀ extension ∈ ["dot", o.format],
      (o.processAll m r sites fs).2.find
      ((o.outputBase site).withExtension extension) ≠ .ok place) :
    (o.processAll m r sites fs).2.faces place = some (.file content) ↔
      fs.faces place = some (.file content) := by
  by_cases houtput : ∃ site ∈ sites, ∃ extension ∈ ["dot", o.format],
      ((o.movedTo standing).outputBase site).withExtension extension = ⟨"/", place⟩
  · obtain ⟨site, hsite, extension, hextension, hpath⟩ := houtput
    obtain ⟨above, name, hnames, hpaths⟩ :=
      h.withExtension_outputBase hc (hsites site hsite).1 (hsites site hsite).2 hextension
    have hnamed : (o.outputBase site).withExtension extension =
        ⟨"/", o.output.parts ++ (above ++ [name ++ ("." ++ extension)])⟩ := by
      have houtput : o.output = ⟨"/", o.output.parts⟩ := by rw [← h.output_root]
      rw [outputBase, houtput]
      exact hpaths o.output.parts h.output_names
    have hstanding : place = standing ++ (above ++ [name ++ ("." ++ extension)]) := by
      have hmoved := hpaths standing hstands.standing_proper
      exact (Path.mk.inj (hpath.symm.trans hmoved)).2
    have hgrows : fs.Grows (o.processAll m r sites fs).2 :=
      (h.processAll_movedTo hstands hc hsites).2
    have hafter := hstands.of_grows hgrows
    have hnone : (o.processAll m r sites fs).2.faces place = none := by
      have hnot := hplace site hsite extension hextension
      rw [hnamed, hafter.find hnames, ← hstanding] at hnot
      rcases (hstanding ▸ hafter.isPlace hnames).find_cases with ⟨hfind, -⟩ |
        ⟨-, hnone, -⟩ | ⟨-, hnone, -⟩
      · exact absurd hfind hnot
      · exact hnone
      · exact hnone
    refine iff_of_false (by simp [hnone]) fun hfile => ?_
    have hstill := hgrows.file place (by rw [hfile]; rfl)
    rw [hnone] at hstill
    cases hstill
  · push Not at houtput
    exact h.file_processAll hstands hc hsites houtput

/-- No source file is touched: outputs end otherwise. -/
theorem Placed.source_file (h : o.Placed) (hstands : fs.StandsAt o.output.parts standing)
    (hc : o.collect fs₀ = .ok c)
    (hsites : ∀ site ∈ sites, site ∈ c.sites ∧ isFileName site.called = true)
    {above : List String} {stem source : String} (hsource : source ∈ ["py", "pyi"])
    {content : ByteArray} :
    (o.processAll m r sites fs).2.faces (above ++ [stem ++ ("." ++ source)]) =
      some (.file content) ↔
        fs.faces (above ++ [stem ++ ("." ++ source)]) = some (.file content) := by
  refine h.file_processAll hstands hc hsites fun site hsite extension hextension hpath => ?_
  obtain ⟨above', name, -, hpaths⟩ :=
    h.withExtension_outputBase hc (hsites site hsite).1 (hsites site hsite).2 hextension
  have hplaces := (Path.mk.inj ((hpaths standing hstands.standing_proper).symm.trans hpath)).2
  rw [← List.append_assoc] at hplaces
  have hknown : extension ∈ "dot" :: outputFormats := by
    rcases List.mem_cons.mp hextension with rfl | hformat
    · exact List.mem_cons_self
    · exact List.mem_cons_of_mem _ (List.mem_singleton.mp hformat ▸ h.format)
  exact source_ne_output hknown hsource name stem
    (List.singleton_inj.mp (List.append_inj' hplaces rfl).2)

/-! ## Batches -/

/-- The call sites of the entry files, if these can be read. -/
def collected (o : Options) (fs : FileSystem) : List CallSite :=
  match o.collect fs with
  | .ok c => c.sites
  | .error _ => []

/-- Where the graphs of the call sites are written: a text and an image for each of them. -/
def outputPaths (o : Options) (fs : FileSystem) : List Path :=
  (o.collected fs).flatMap fun site => ["dot", o.format].map (o.outputBase site).withExtension

theorem mem_outputPaths {path : Path} : path ∈ o.outputPaths fs ↔
    ∃ site ∈ o.collected fs, ∃ extension ∈ ["dot", o.format],
      (o.outputBase site).withExtension extension = path := by
  simp only [outputPaths, List.mem_flatMap, List.mem_map]

theorem collected_of_collect (hc : o.collect fs = .ok c) : o.collected fs = c.sites := by
  rw [collected, hc]

/-- Without call sites a batch does nothing. -/
theorem run_runBatch_of_error {e : SourceError} (hc : o.collect fs = .error e) (m : Machine)
    (r : Resolver Unit) :
    (o.runBatch m r).run.run fs = (.error (.source e), fs) := by
  have hget : (get : ExceptT BatchError (StateM FileSystem) FileSystem).run.run fs =
      pure (.ok fs, fs) := rfl
  unfold runBatch
  rw [ExceptT.run_bind, StateT.run_bind, hget, pure_bind]
  simp only [hc]
  rfl

/-- The images that a batch returns are among its outputs. -/
theorem mem_outputPaths_of_written {report : BatchReport}
    (hrun : ((o.runBatch m r).run.run fs).1 = .ok report)
    {image : Path} (himage : image ∈ report.written) : image ∈ o.outputPaths fs := by
  cases hc : o.collect fs with
  | error e =>
    rw [run_runBatch_of_error hc] at hrun
    cases hrun
  | ok c =>
    obtain ⟨more, hbatch⟩ := run_runBatch hc m r
    rw [hbatch, imagesOf_processAll] at hrun
    cases hfailure : (o.processAll m r c.sites fs).1.findSome? SiteReport.failure? with
    | some e =>
      rw [hfailure] at hrun
      cases hrun
    | none =>
      rw [hfailure] at hrun
      cases hrun
      obtain ⟨site, hsite, rfl⟩ := List.mem_map.mp himage
      rw [mem_outputPaths, collected_of_collect hc]
      exact ⟨site, (mem_drawn.mp hsite).1, o.format, by simp, rfl⟩

/-- **A batch stays in its output directory.** Options were accepted, and called names are
identifiers.

- The outputs are named below the output directory, by names that do not lead up again, and the
  images that are returned are among them.
- If there is no link in the place of the output directory or below it, a regular file to which none
  of these paths leads is left as it is: it is not changed, and none is made or removed.
- In particular no source file is, wherever the output directory lies. -/
theorem runBatch_confined {settings : Settings} {platform : Platform} (hproper : fs.Proper)
    (ho : settings.check platform fs = .ok o)
    (hcalled : ∀ site ∈ o.collected fs, Text.Identifier.isIdentifier site.called.toList = true)
    (m : Machine) (r : Resolver Unit) :
    (∀ path ∈ o.outputPaths fs,
      ∃ names, names ≠ [] ∧ ".." ∉ names ∧ path = ⟨o.output.root, o.output.parts ++ names⟩) ∧
    (∀ report, ((o.runBatch m r).run.run fs).1 = .ok report →
      ∀ image ∈ report.written, image ∈ o.outputPaths fs) ∧
    ((∀ place, fs.find o.output = .ok place →
      ∀ rest target, fs.entryAt? (place ++ rest) ≠ some (.link target)) →
      ∀ after, ((o.runBatch m r).run.run fs).2 = after →
        (∀ place content, (∀ path ∈ o.outputPaths fs, after.find path ≠ .ok place) →
          (after.entryAt? place = some (.file content) ↔
            fs.entryAt? place = some (.file content))) ∧
        ∀ above stem, ∀ extension ∈ ["py", "pyi"], ∀ content,
          after.entryAt? (above ++ [stem ++ ("." ++ extension)]) = some (.file content) ↔
            fs.entryAt? (above ++ [stem ++ ("." ++ extension)]) = some (.file content)) := by
  have h : o.Placed := placed_of_check hproper ho
  have houtput : o.output = ⟨"/", o.output.parts⟩ := by rw [← h.output_root]
  cases hc : o.collect fs with
  | error e =>
    have hnone : o.collected fs = [] := by rw [collected, hc]
    refine ⟨fun path hpath => ?_, fun report => mem_outputPaths_of_written,
      fun _ after hafter => ?_⟩
    · rw [outputPaths, hnone] at hpath
      cases hpath
    · rw [run_runBatch_of_error hc] at hafter
      subst hafter
      exact ⟨fun _ _ _ => Iff.rfl, fun _ _ _ _ _ => Iff.rfl⟩
  | ok c =>
    have hcollected := collected_of_collect hc
    have hsites : ∀ site ∈ c.sites, site ∈ c.sites ∧ isFileName site.called = true :=
      fun site hsite =>
      ⟨hsite, isFileName_of_isIdentifier (hcalled site (hcollected ▸ hsite))⟩
    refine ⟨fun path hpath => ?_, fun report => mem_outputPaths_of_written,
      fun hfree after hafter => ?_⟩
    · obtain ⟨site, hsite, extension, hextension, rfl⟩ := mem_outputPaths.mp hpath
      rw [hcollected] at hsite
      obtain ⟨above, name, hnames, hpaths⟩ :=
        h.withExtension_outputBase hc hsite (hsites site hsite).2 hextension
      refine ⟨above ++ [name ++ ("." ++ extension)], by simp, fun hmem => ?_, ?_⟩
      · exact FileSystem.isFileName_ne_parent (hnames _ hmem) rfl
      · rw [outputBase, houtput]
        exact hpaths o.output.parts h.output_names
    · obtain ⟨more, hbatch⟩ := run_runBatch hc m r
      rw [hbatch] at hafter
      subst hafter
      simp only [← FileSystem.faces_eq_file_iff]
      rw [houtput] at hfree
      rcases hproper.standsAt_cases h.output_names hfree with ⟨standing, hstands⟩ |
        ⟨way, first, rest, hway, hstuck⟩
      · refine ⟨fun place content hplace => ?_, fun above stem extension hextension content => ?_⟩
        · refine h.file_of_no_path hstands hc hsites fun site hsite extension hextension => ?_
          exact hplace _
            (mem_outputPaths.mpr ⟨site, hcollected ▸ hsite, extension, hextension, rfl⟩)
        · exact h.source_file hstands hc hsites hextension
      · rw [h.processAll_of_stuck hway hstuck hc hsites]
        exact ⟨fun _ _ _ => Iff.rfl, fun _ _ _ _ _ => Iff.rfl⟩

/-- With an output directory inside the project, a graph is written there and the source file is
left as it is. -/
theorem runBatch_confined_fileOf :
    fileSettings.check .usual (fileOf "a.f()\n") = .ok fileOptions ∧
      fileOptions.outputPaths (fileOf "a.f()\n") =
        [⟨"/", ["w", "out", "m.py#f:1.dot"]⟩, ⟨"/", ["w", "out", "m.py#f:1.svg"]⟩] ∧
      ((fileOptions.runBatch .usual namesakes.resolver).run.run (fileOf "a.f()\n")).2.readBytes
          ⟨"/", ["w", "out", "m.py#f:1.dot"]⟩ =
            .ok (fileOptions.draw .usual namesakes.resolver (callOfF 1 2 2)).1.toUTF8 ∧
      ((fileOptions.runBatch .usual namesakes.resolver).run.run (fileOf "a.f()\n")).2.entryAt?
          ["w", "m.py"] =
        some (.file "a.f()\n".toUTF8) := by
  have hsites : (fileOptions.collect (fileOf "a.f()\n")).map Collection.sites =
      .ok [callOfF 1 2 2] := by
    decide +kernel
  obtain ⟨c, hc, hcalls⟩ := exists_of_collect hsites
  have hcollected : fileOptions.collected (fileOf "a.f()\n") = [callOfF 1 2 2] := by
    rw [collected_of_collect hc, hcalls]
  obtain ⟨hcalled, hdrawn, hpaths⟩ :
      (∀ site ∈ [callOfF 1 2 2], Text.Identifier.isIdentifier site.called.toList = true) ∧
      (fileOptions.draw .usual namesakes.resolver (callOfF 1 2 2)).1.isEmpty = false ∧
      ["dot", fileOptions.format].map (fileOptions.outputBase (callOfF 1 2 2)).withExtension =
        [⟨"/", ["w", "out", "m.py#f:1.dot"]⟩, ⟨"/", ["w", "out", "m.py#f:1.svg"]⟩] := by
        decide +kernel
  refine ⟨check_fileOf _, by rw [outputPaths, hcollected, List.flatMap_singleton, hpaths], ?_, ?_⟩
  · obtain ⟨more, hbatch⟩ := run_runBatch hc .usual namesakes.resolver
    have hbelow := below_fileOf hc hcalls (by decide)
    have hok := written_fileOf "a.f()\n" namesakes.resolver (callOfF 1 2 2) (by simp)
    have hread : (fileOptions.processAll .usual namesakes.resolver ([] ++ [callOfF 1 2 2])
        (fileOf "a.f()\n")).2.readBytes
          ((fileOptions.outputBase (callOfF 1 2 2)).withExtension "dot") = _ :=
      placed_fileOptions.readBytes_processAll_concat (clear_fileOf _ _)
        (fun site hsite => hbelow site (mem_drawn.mp hsite).1) hdrawn hok
    rw [hbatch, hcalls, ← (List.cons.inj hpaths).1]
    exact hread
  · obtain ⟨-, -, hframe⟩ :=
      runBatch_confined (proper_fileOf _) (check_fileOf _) (hcollected ▸ hcalled) .usual
      namesakes.resolver
    have hsource :=
      (hframe (fun place _ rest => FileSystem.entryAt?_ne_link rfl (place ++ rest)) _ rfl).2
    exact (hsource ["w"] "m" "py" (by decide) _).mpr rfl

end Options

end CallAtlas
