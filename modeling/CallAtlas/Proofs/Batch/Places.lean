import CallAtlas.Proofs.Indexing
import CallAtlas.Proofs.Path
import CallAtlas.Proofs.Text.Delimited

/-!
# Where graphs are written

Options that were accepted name an output directory and entry files below the root, all by proper
names (`Options.placed_of_check`). The graph of a call site then goes into a directory at or below
the output directory, under a name that is made of the file, the called name and the line
(`Options.Placed.outputBase_below`).
-/

namespace CallAtlas

namespace Path

/-- A path names something below a directory, by proper names. -/
def NamesBelow (directory : List String) (p : Path) : Prop :=
  ∃ above name, p = ⟨"/", above ++ [name]⟩ ∧ directory <+: above ∧
    ∀ part ∈ above ++ [name], isFileName part = true

variable {directory : List String} {p : Path} {extension : String}

theorem NamesBelow.withExtension_eq (h : p.NamesBelow directory) (hplain : IsPlain extension) :
    p.withExtension extension = ⟨"/", p.parent.parts ++ [p.name ++ ("." ++ extension)]⟩ := by
  obtain ⟨above, name, rfl, -, hnames⟩ := h
  rw [withExtension_concat hnames hplain]
  simp [parent, Path.name]

theorem NamesBelow.withExtension (h : p.NamesBelow directory) (hplain : IsPlain extension) :
    (p.withExtension extension).NamesBelow directory := by
  obtain ⟨above, name, rfl, hbelow, hnames⟩ := h
  exact ⟨above, _, withExtension_concat hnames hplain, hbelow, isFileName_extended hnames hplain⟩

end Path

/-! ## Accepted options -/

/-- What accepted options say about paths: the output directory is named properly, and the entry
files lie below the root. -/
structure Options.Placed (o : Options) : Prop where
  output_root : o.output.root = "/"
  output_names : ∀ name ∈ o.output.parts, isFileName name = true
  format : o.format ∈ outputFormats
  root_root : o.root.root = "/"
  entry : ∀ file ∈ o.entry, ∃ names, names ≠ [] ∧ file = ⟨"/", o.root.parts ++ names⟩ ∧
    ∀ name ∈ names, isFileName name = true

namespace Settings

open FileSystem

variable {settings : Settings} {platform : Platform} {fs : FileSystem} {p entry root : Path}

theorem resolved_eq_ok (hproper : fs.Proper) {value : Json.Value} (h : resolved fs value = .ok p) :
    p.root = "/" ∧ ∀ name ∈ p.parts, isFileName name = true := by
  obtain ⟨text, -, h⟩ := bind_eq_ok_iff.mp h
  have hresolve := mapError_eq_ok_iff.mp h
  exact ⟨(hproper.of_resolve hresolve).1, hproper.names_of_resolve hresolve⟩

/-- A check that is passed on the way to a result. -/
theorem unless_eq_ok_iff {ε α : Type} {c : Prop} [Decidable c] {e : ε}
    {next : PUnit → Except ε α} {a : α} :
    (if c then throw e >>= next else next ⟨⟩) = .ok a ↔ ¬c ∧ next ⟨⟩ = .ok a := by
  by_cases hc : c
  · rw [if_pos hc]
    exact iff_of_false (fun h => by cases h) fun h => h.1 hc
  · rw [if_neg hc]
    exact (and_iff_right hc).symm

theorem entryPath_eq_ok (hproper : fs.Proper) (h : settings.entryPath platform fs = .ok entry) :
    entry.root = "/" ∧ ∀ name ∈ entry.parts, isFileName name = true := by
  unfold entryPath at h
  split at h
  next raw hraw =>
    obtain ⟨path, hpath, h⟩ := bind_eq_ok_iff.mp h
    obtain ⟨-, h⟩ := unless_eq_ok_iff.mp h
    obtain ⟨-, h⟩ := unless_eq_ok_iff.mp h
    obtain ⟨-, h⟩ := unless_eq_ok_iff.mp h
    cases h
    exact resolved_eq_ok hproper hpath
  next => cases h

/-- The root is a directory, and the entry is the root or lies below it. -/
theorem rootPath_eq_ok (hproper : fs.Proper) (hentry : entry.root = "/")
    (h : settings.rootPath platform fs entry = .ok root) :
    root.root = "/" ∧ fs.isDirectory root = true ∧
      (entry = root ∨ root.isProperAncestor entry = true) := by
  obtain ⟨path, hpath, h⟩ := bind_eq_ok_iff.mp h
  obtain ⟨-, h⟩ := unless_eq_ok_iff.mp h
  obtain ⟨hdirectory, h⟩ := unless_eq_ok_iff.mp h
  obtain ⟨hinside, h⟩ := unless_eq_ok_iff.mp h
  cases h
  refine ⟨?_, by simpa using hdirectory, ?_⟩
  · unfold namedRoot at hpath
    split at hpath
    next =>
      cases hpath
      split
      · exact hentry
      · exact hentry
    next => exact (resolved_eq_ok hproper hpath).1
  · by_cases heq : entry = root
    · exact .inl heq
    · exact .inr (by simpa [heq] using hinside)

theorem outputPath_eq_ok (hproper : fs.Proper) (h : settings.outputPath fs = .ok p) :
    p.root = "/" ∧ ∀ name ∈ p.parts, isFileName name = true := by
  unfold outputPath at h
  split at h
  next raw hraw => exact resolved_eq_ok hproper h
  next =>
    cases h
    refine ⟨rfl, fun name hname => ?_⟩
    rcases List.mem_append.mp hname with hname | hname
    · exact hproper.isFileName_of_mem_current hname
    · exact (show ∀ name ∈ ["output", "call-graph"], isFileName name = true by decide) name hname

theorem format_eq_ok {format : String} (h : settings.format = .ok format) :
    format ∈ outputFormats := by
  unfold Settings.format at h
  split at h
  next =>
    cases h
    decide
  next text hraw =>
    split at h
    next hformat =>
      cases h
      exact List.contains_iff_mem.mp hformat
    next => cases h
  next => cases h

/-- What is below the entry is below the root. -/
theorem names_of_mem_entryFiles (hproper : fs.Proper)
    (hentry : ∀ name ∈ entry.parts, isFileName name = true)
    (hentryRoot : entry.root = "/") (hroot : root.root = "/")
    (hdirectory : fs.isDirectory root = true)
    (hinside : entry = root ∨ root.isProperAncestor entry = true) {file : Path}
    (h : file ∈ fs.entryFiles entry) :
    ∃ names, names ≠ [] ∧ file = ⟨"/", root.parts ++ names⟩ ∧
      ∀ name ∈ names, isFileName name = true := by
  obtain ⟨above, habove, hne⟩ : ∃ above, entry.parts = root.parts ++ above ∧
      (above = [] → entry = root) := by
    rcases hinside with rfl | hinside
    · exact ⟨[], by simp, fun _ => rfl⟩
    · simp only [Path.isProperAncestor, Bool.and_eq_true, bne_iff_ne,
        List.isPrefixOf_iff_prefix] at hinside
      obtain ⟨above, habove⟩ := hinside.1.2
      refine ⟨above, habove.symm, fun hnil => absurd ?_ hinside.2⟩
      rw [← habove, hnil, List.append_nil]
  have hnames : ∀ name ∈ above, isFileName name = true := fun name hname =>
    hentry name (habove ▸ List.mem_append_right _ hname)
  unfold entryFiles at h
  split at h
  next =>
    obtain ⟨names, hnonempty, rfl, hproperNames⟩ := hproper.names_of_mem_sourceFilesFrom h
    refine ⟨above ++ names, by simp [hnonempty], ?_, ?_⟩
    · rw [hentryRoot, habove, List.append_assoc]
    · exact fun name hname => (List.mem_append.mp hname).elim (hnames name) (hproperNames name)
  next hnot =>
    cases List.mem_singleton.mp h
    have hne' : above ≠ [] := fun hnil => hnot (by rw [hne hnil]; exact hdirectory)
    refine ⟨above, hne', ?_, hnames⟩
    rw [← habove, ← hentryRoot]

end Settings

theorem Options.placed_of_check {settings : Settings} {platform : Platform}
    {fs : FileSystem} {o : Options}
    (hproper : fs.Proper) (h : settings.check platform fs = .ok o) : o.Placed := by
  simp only [Settings.check, bind_eq_ok_iff, mapError_eq_ok_iff] at h
  obtain ⟨_, -, entry, hentry, root, hroot, format, hformat, _, -, _, -, _, -, _, -, _, -,
      _, -, _, -, _, -,
    _, -, output, houtput, h⟩ := h
  cases h
  obtain ⟨hentryRoot, hentryNames⟩ := Settings.entryPath_eq_ok hproper hentry
  obtain ⟨hrootRoot, hdirectory, hinside⟩ := Settings.rootPath_eq_ok hproper hentryRoot hroot
  obtain ⟨houtputRoot, houtputNames⟩ := Settings.outputPath_eq_ok hproper houtput
  exact {
    output_root := houtputRoot
    output_names := houtputNames
    format := Settings.format_eq_ok hformat
    root_root := hrootRoot
    entry := fun file hfile =>
    Settings.names_of_mem_entryFiles hproper hentryNames hentryRoot hrootRoot
      hdirectory hinside hfile }

/-! ## Call sites -/

mutual

theorem file_of_mem_callSites {file : Path} {index : Text.LineIndex} {context : List String}
    {node : Source.Node}
    {site : CallSite} (h : site ∈ callSites file index context node) : site.file = file := by
  cases node with
  | name id extent =>
    rw [callSites] at h
    cases h
  | member receiver id extent =>
    rw [callSites] at h
    exact file_of_mem_callSites h
  | call callee arguments extent =>
    rw [callSites, List.mem_append, List.mem_append] at h
    rcases h with (h | h) | h
    · obtain ⟨located, -, rfl⟩ := Option.map_eq_some_iff.mp (Option.mem_toList.mp h)
      rfl
    · exact file_of_mem_callSites h
    · exact file_of_mem_callSitesOfAll h
  | definition head parts extent =>
    rw [callSites] at h
    exact file_of_mem_callSitesOfAll h
  | imports names extent =>
    rw [callSites] at h
    cases h
  | other parts extent =>
    rw [callSites] at h
    exact file_of_mem_callSitesOfAll h

theorem file_of_mem_callSitesOfAll {file : Path} {index : Text.LineIndex} {context : List String}
    {nodes : List Source.Node} {site : CallSite}
    (h : site ∈ callSitesOfAll file index context nodes) :
    site.file = file := by
  cases nodes with
  | nil =>
    rw [callSitesOfAll] at h
    cases h
  | cons node rest =>
    rw [callSitesOfAll, List.mem_append] at h
    rcases h with h | h
    · exact file_of_mem_callSites h
    · exact file_of_mem_callSitesOfAll h

end

/-- The call sites of a file know their file. -/
theorem file_of_mem_callSitesIn {fs : FileSystem} {line : Option Int} {file : Path}
    {sites : List CallSite}
    (h : fs.callSitesIn line file = .ok sites) {site : CallSite} (hsite : site ∈ sites) :
    site.file = file := by
  simp only [FileSystem.callSitesIn, extractCallSites, bind_eq_ok_iff, mapError_eq_ok_iff] at h
  obtain ⟨text, -, tree, -, h⟩ := h
  cases h
  cases line with
  | none => exact file_of_mem_callSites hsite
  | some line => exact file_of_mem_callSites (List.mem_of_mem_filter hsite)

namespace CallSite

/-- What the name of a graph adds to that of the file. -/
def tag (site : CallSite) : String := "#" ++ site.called ++ ":" ++ toString site.position.line

theorem outputBase_eq (site : CallSite) (root : Option Path) (directory : Path) :
    site.outputBase root directory =
      directory.join (Path.ofString (site.file.labelFrom root ++ site.tag)) := by
  simp only [outputBase, tag, String.append_assoc]

/-- A called name that could be the name of a file keeps the tag within one name. -/
theorem isPlain_tag (site : CallSite) (hcalled : isFileName site.called = true) :
    IsPlain site.tag := by
  have hnumber : IsPlain (toString site.position.line) := by
    constructor
    · intro hmem
      rcases Text.mem_toString_int hmem with hsign | hdigit
      · cases hsign
      · cases hdigit
    · intro hmem
      rcases Text.mem_toString_int hmem with hsign | hdigit
      · cases hsign
      · cases hdigit
  have hhash : IsPlain "#" := by decide
  have hcolon : IsPlain ":" := by decide
  exact ((hhash.append (isPlain_of_isFileName hcalled)).append hcolon).append hnumber

end CallSite

namespace Options

variable {o : Options} {fs : FileSystem} {c : Collection} {site : CallSite}

/-- Call sites are collected from the entry files. -/
theorem file_mem_entry (hc : o.collect fs = .ok c) (hsite : site ∈ c.sites) :
    site.file ∈ o.entry := by
  simp only [collect, FileSystem.collectCallSites, bind_eq_ok_iff] at hc
  obtain ⟨found, hfound, h⟩ := hc
  cases h
  obtain ⟨⟨file, sites⟩, hmem, hsite⟩ := List.mem_flatMap.mp hsite
  obtain ⟨entry, hentry, hsites⟩ := exists_related_of_mem (mapM_eq_ok_iff.mp hfound).flip hmem
  obtain ⟨sites', hsites', h⟩ := bind_eq_ok_iff.mp hsites
  cases h
  rw [file_of_mem_callSitesIn hsites' hsite]
  exact List.mem_of_mem_filter hentry

/-- The names that the graph of a call site has below a directory, whichever that is. -/
theorem Placed.exists_names (h : o.Placed) (hc : o.collect fs = .ok c) (hsite : site ∈ c.sites)
    (hcalled : isFileName site.called = true) :
    ∃ above name, (∀ part ∈ above ++ [name], isFileName part = true) ∧
      ∀ directory : Path,
        site.outputBase (some o.root) directory =
          ⟨directory.root, directory.parts ++ (above ++ [name])⟩ := by
  obtain ⟨names, hne, hfile, hnames⟩ := h.entry _ (file_mem_entry hc hsite)
  obtain ⟨above, last, rfl⟩ : ∃ above last, names = above ++ [last] :=
    ⟨names.dropLast, names.getLast hne, (List.dropLast_append_getLast hne).symm⟩
  have hlabel : site.file.labelFrom (some o.root) = "/".intercalate (above ++ [last]) := by
    have hrelative : site.file.relativeTo? o.root = some { parts := above ++ [last] } := by
      rw [hfile, Path.relativeTo?, if_pos ⟨h.root_root.symm, by simp⟩]
      simp
    rw [Path.labelFrom, hrelative, Option.getD_some, Path.text, if_neg (by simp)]
    simp
  have hparts : ∀ part ∈ above ++ [last ++ site.tag], isFileName part = true := by
    intro part hpart
    rcases List.mem_append.mp hpart with hpart | hpart
    · exact hnames part (List.mem_append_left _ hpart)
    · rw [List.mem_singleton.mp hpart]
      exact isFileName_append (hnames last (by simp)) (site.isPlain_tag hcalled)
  refine ⟨above, last ++ site.tag, hparts, fun directory => ?_⟩
  have hnormal : Path.Normal { parts := above ++ [last ++ site.tag] } :=
    ⟨.inl rfl, fun part hpart => isPart_of_isFileName (hparts part hpart)⟩
  have hread : Path.ofString ("/".intercalate (above ++ [last ++ site.tag])) =
      { parts := above ++ [last ++ site.tag] } := by
    simpa using hnormal.ofString_append
  rw [site.outputBase_eq, hlabel, Path.intercalate_concat, hread, Path.join,
    if_neg (by simp [Path.isAbsolute])]

/-- **The graph of a call site is written below the output directory.** -/
theorem Placed.outputBase_below (h : o.Placed) (hc : o.collect fs = .ok c) (hsite : site ∈ c.sites)
    (hcalled : isFileName site.called = true) : (o.outputBase site).NamesBelow o.output.parts := by
  obtain ⟨above, name, hnames, hbase⟩ := h.exists_names hc hsite hcalled
  refine ⟨o.output.parts ++ above, name, ?_, List.prefix_append _ _, ?_⟩
  · rw [outputBase, hbase, h.output_root, List.append_assoc]
  · rw [List.append_assoc]
    exact fun part hpart => (List.mem_append.mp hpart).elim (h.output_names part) (hnames part)

end Options

end CallAtlas
