import CallAtlas.Batch
import CallAtlas.Proofs.FileSystem.Canonical
import CallAtlas.Proofs.Text.Delimited

/-!
# Paths and their texts

Between a path and its text nothing is lost: whatever is read is a normal path
(`Path.normal_ofString`), and a normal path that was written is read again as it was
(`Path.Normal.ofString_text`). What is added at the end of the text is added to the last name
(`Path.intercalate_concat`), and so an extension is (`Path.withExtension_concat`).

Paths that are resolved have such names, whether links lead to a cycle or not
(`FileSystem.Proper.names_of_resolve`).
-/

namespace CallAtlas

namespace Text

/-- Splitting a text is splitting the list of its characters. -/
theorem split_eq_splitOn (separator : Char) (text : List Char) :
    split separator text = text.splitOn separator := by
  induction text with
  | nil => rfl
  | cons c rest ih =>
    rw [split, ih, List.splitOn_cons_eq_if_modifyHead]
    cases hrest : rest.splitOn separator with
    | nil => exact absurd hrest (List.splitOn_ne_nil separator rest)
    | cons piece pieces =>
      by_cases hc : c = separator
      · simp [hc]
      · simp [hc]

/-- The pieces of a text hold characters of the text, but not the separator. -/
theorem of_mem_split {separator c : Char} {text piece : List Char}
    (h : piece ∈ split separator text) (hc : c ∈ piece) : c ≠ separator ∧ c ∈ text := by
  induction text generalizing piece with
  | nil =>
    rw [split, List.mem_singleton] at h
    rw [h] at hc
    cases hc
  | cons first rest ih =>
    rw [split] at h
    split at h
    next hrest => exact absurd hrest (split_ne_nil separator rest)
    next next others hrest =>
      rw [hrest] at ih
      have hinside {piece : List Char} (h : piece ∈ next :: others) (hc : c ∈ piece) :
          c ≠ separator ∧ c ∈ first :: rest :=
        ⟨(ih h hc).1, List.mem_cons_of_mem _ (ih h hc).2⟩
      split at h
      next =>
        rcases List.mem_cons.mp h with rfl | h
        · cases hc
        · exact hinside h hc
      next hfirst =>
        rcases List.mem_cons.mp h with rfl | h
        · rcases List.mem_cons.mp hc with rfl | hc
          · exact ⟨hfirst, List.mem_cons_self⟩
          · exact hinside List.mem_cons_self hc
        · exact hinside (List.mem_cons_of_mem _ h) hc

end Text

/-! ## Names -/

theorem isFileName_iff {name : String} : isFileName name = true ↔
    name ≠ "" ∧ name ≠ "." ∧ name ≠ ".." ∧ '/' ∉ name.toList ∧ '\x00' ∉ name.toList := by
  simp [isFileName, and_assoc]

/-- A text that can be part of a name. -/
def IsPlain (text : String) : Prop := '/' ∉ text.toList ∧ '\x00' ∉ text.toList

instance (text : String) : Decidable (IsPlain text) := inferInstanceAs (Decidable (_ ∧ _))

theorem IsPlain.append {text text' : String} (h : IsPlain text) (h' : IsPlain text') :
    IsPlain (text ++ text') := by
  unfold IsPlain at h h' ⊢
  simp only [String.toList_append, List.mem_append, not_or]
  exact ⟨⟨h.1, h'.1⟩, h.2, h'.2⟩

theorem isPlain_of_isFileName {name : String} (h : isFileName name = true) : IsPlain name :=
  (isFileName_iff.mp h).2.2.2

/-- A name as it stands in a path that was read: neither empty nor a dot, and without slashes. -/
def IsPart (name : String) : Prop := name ≠ "" ∧ name ≠ "." ∧ '/' ∉ name.toList

instance (name : String) : Decidable (IsPart name) := inferInstanceAs (Decidable (_ ∧ _))

theorem isPart_of_isFileName {name : String} (h : isFileName name = true) : IsPart name := by
  obtain ⟨hempty, hdot, -, hslash, -⟩ := isFileName_iff.mp h
  exact ⟨hempty, hdot, hslash⟩

/-- A name stays one when something is added to it. -/
theorem isFileName_append {name extra : String} (h : isFileName name = true)
    (hextra : IsPlain extra) :
    isFileName (name ++ extra) = true := by
  obtain ⟨hempty, hdot, hparent, -⟩ := isFileName_iff.mp h
  -- What is put before a name with a meaning of its own has such a meaning itself.
  have hspecial (special : String) (hmem : special ∈ ["", ".", ".."]) :
      name ++ extra ≠ special := by
    intro heq
    have hstart : name.toList ∈ special.toList.inits := by
      rw [List.mem_inits, ← heq, String.toList_append]
      exact List.prefix_append _ _
    have hname : name.toList = "".toList ∨ name.toList = ".".toList ∨
        name.toList = "..".toList := by
      simp only [List.mem_cons, List.not_mem_nil, or_false] at hmem
      rcases hmem with rfl | rfl | rfl
      · exact .inl (by simpa using hstart)
      · exact (show _ ∨ _ by simpa using hstart).imp_right .inl
      · simpa using hstart
    simp only [String.toList_inj] at hname
    exact hname.elim hempty fun hname => hname.elim hdot hparent
  exact isFileName_iff.mpr ⟨hspecial _ (by simp), hspecial _ (by simp), hspecial _ (by simp),
    (isPlain_of_isFileName h).append hextra⟩

namespace Path

/-- The names of a path that is read are neither empty nor a dot, and hold characters of the text
except for slashes. -/
theorem of_mem_ofString {text name : String} (h : name ∈ (ofString text).parts) :
    name ≠ "" ∧ name ≠ "." ∧ '/' ∉ name.toList ∧ ∀ c ∈ name.toList, c ∈ text.toList := by
  obtain ⟨hmem, hname⟩ := List.mem_filter.mp h
  obtain ⟨piece, hpiece, rfl⟩ := List.mem_map.mp hmem
  obtain ⟨hempty, hdot⟩ := of_decide_eq_true hname
  rw [String.toList_ofList]
  exact ⟨hempty, hdot, fun hslash => (Text.of_mem_split hpiece hslash).1 rfl,
    fun c hc => (Text.of_mem_split hpiece hc).2⟩

/-! ## Reading what was written -/

/-- A path as reading gives it: it starts nowhere, at one slash or at two, and each of its names is
one that reading keeps. -/
structure Normal (p : Path) : Prop where
  root : p.root = "" ∨ p.root = "/" ∨ p.root = "//"
  parts : ∀ name ∈ p.parts, IsPart name

theorem normal_ofString (text : String) : (ofString text).Normal where
  root := by
    show rootOf text.toList = "" ∨ rootOf text.toList = "/" ∨ rootOf text.toList = "//"
    unfold rootOf
    split
    · exact .inr (.inl rfl)
    · exact .inr (.inr rfl)
    · exact .inr (.inl rfl)
    · exact .inl rfl
  parts name hname := by
    obtain ⟨hempty, hdot, hslash, -⟩ := of_mem_ofString hname
    exact ⟨hempty, hdot, hslash⟩

/-- Names with slashes between them are told apart again. No name at all leaves an empty one, which
is left out. -/
theorem filter_splitText_intercalate {names : List String} (h : ∀ name ∈ names, IsPart name) :
    ((Text.splitText '/' ("/".intercalate names)).filter fun name => name ≠ "" ∧ name ≠ ".") =
      names := by
  by_cases hne : names = []
  · subst hne
    rfl
  · have hpieces : ∀ piece ∈ names.map String.toList, '/' ∉ piece := by
      intro piece hpiece
      obtain ⟨name, hname, rfl⟩ := List.mem_map.mp hpiece
      exact (h name hname).2.2
    have hslash : ("/" : String).toList = ['/'] := rfl
    have hsplit : Text.splitText '/' ("/".intercalate names) = names := by
      rw [Text.splitText, Text.split_eq_splitOn, String.toList_intercalate, hslash,
        List.splitOn_intercalate _ hpieces (by simpa using hne), List.map_map]
      simp
    rw [hsplit, List.filter_eq_self]
    intro name hname
    exact decide_eq_true ⟨(h name hname).1, (h name hname).2.1⟩

/-- A text of names does not start with a slash. -/
theorem head?_intercalate {names : List String} (h : ∀ name ∈ names, IsPart name) :
    ("/".intercalate names).toList.head? ≠ some '/' := by
  cases names with
  | nil => simp
  | cons first others =>
    obtain ⟨hempty, -, hslash⟩ := h first List.mem_cons_self
    have hfirst : first.toList ≠ [] := fun hnil => hempty (String.toList_eq_nil_iff.mp hnil)
    rw [Text.toList_intercalate_cons, List.head?_append_of_ne_nil _ hfirst]
    exact fun hhead => hslash (List.mem_of_head? hhead)

/-- The root shows up to where it reaches, if no slash follows. -/
theorem rootOf_append {root : String} (hroot : root = "" ∨ root = "/" ∨ root = "//")
    {rest : List Char} (hrest : rest.head? ≠ some '/') : rootOf (root.toList ++ rest) = root := by
  rcases hroot with rfl | rfl | rfl
  all_goals
    show rootOf (_ ++ rest) = _
    cases rest with
    | nil => rfl
    | cons c rest =>
      have hc : c ≠ '/' := fun heq => hrest (by rw [heq]; rfl)
      simp [rootOf, hc]

/-- The slashes of the root add empty names, which are left out. -/
theorem filter_splitText_append {root : String} (hroot : root = "" ∨ root = "/" ∨ root = "//")
    (text : String) :
    ((Text.splitText '/' (root ++ text)).filter fun name => name ≠ "" ∧ name ≠ ".") =
      (Text.splitText '/' text).filter fun name => name ≠ "" ∧ name ≠ "." := by
  have hslash (cs : List Char) : Text.split '/' ('/' :: cs) = [] :: Text.split '/' cs := by
    rw [Text.split_eq_splitOn, Text.split_eq_splitOn, List.splitOn_cons_eq_if_modifyHead,
      if_pos (beq_self_eq_true _)]
  rcases hroot with rfl | rfl | rfl
  · rw [String.empty_append]
  · rw [Text.splitText, String.toList_append]
    show ((Text.split '/' ('/' :: text.toList)).map String.ofList).filter _ = _
    rw [hslash]
    rfl
  · rw [Text.splitText, String.toList_append]
    show ((Text.split '/' ('/' :: '/' :: text.toList)).map String.ofList).filter _ = _
    rw [hslash, hslash]
    rfl

/-- **What was written is read.** -/
theorem Normal.ofString_append {p : Path} (hp : p.Normal) :
    ofString (p.root ++ "/".intercalate p.parts) = p := by
  rw [ofString, String.toList_append, rootOf_append hp.root (head?_intercalate hp.parts),
    filter_splitText_append hp.root, filter_splitText_intercalate hp.parts]

theorem Normal.ofString_text {p : Path} (hp : p.Normal) : ofString p.text = p := by
  unfold text
  split
  next hempty =>
    obtain ⟨root, parts⟩ := p
    obtain ⟨rfl, rfl⟩ := hempty
    rfl
  next => exact hp.ofString_append

/-- Paths are known from their texts. -/
theorem Normal.text_inj {p q : Path} (hp : p.Normal) (hq : q.Normal) : p.text = q.text ↔ p = q := by
  constructor
  · intro h
    rw [← hp.ofString_text, h, hq.ofString_text]
  · rintro rfl
    rfl

/-- What is added to the text is added to the last name. -/
theorem intercalate_concat (above : List String) (name extra : String) :
    "/".intercalate (above ++ [name]) ++ extra = "/".intercalate (above ++ [name ++ extra]) := by
  rw [← String.toList_inj]
  induction above with
  | nil => simp
  | cons first rest ih =>
    have hne (last : String) : (rest ++ [last]).map String.toList ≠ [] := by simp
    rw [String.toList_append, String.toList_intercalate, String.toList_intercalate] at ih ⊢
    rw [List.cons_append, List.cons_append, List.map_cons, List.map_cons,
      List.intercalate_cons_of_ne_nil (hne name),
      List.intercalate_cons_of_ne_nil (hne (name ++ extra)),
      List.append_assoc, ih]

/-- An extension makes a proper name of a proper name. -/
theorem isFileName_extended {above : List String} {name extension : String}
    (h : ∀ part ∈ above ++ [name], isFileName part = true) (hplain : IsPlain extension) :
    ∀ part ∈ above ++ [name ++ ("." ++ extension)], isFileName part = true := by
  intro part hpart
  rcases List.mem_append.mp hpart with hpart | hpart
  · exact h part (List.mem_append_left _ hpart)
  · rw [List.mem_singleton.mp hpart]
    have hdot : IsPlain "." := by decide
    exact isFileName_append (h name (by simp)) (hdot.append hplain)

/-- **An extension goes to the last name.** -/
theorem withExtension_concat {above : List String} {name extension : String}
    (h : ∀ part ∈ above ++ [name], isFileName part = true) (hplain : IsPlain extension) :
    withExtension ⟨"/", above ++ [name]⟩ extension =
      ⟨"/", above ++ [name ++ ("." ++ extension)]⟩ := by
  have htext : text ⟨"/", above ++ [name]⟩ = "/" ++ "/".intercalate (above ++ [name]) := by
    rw [text, if_neg (by simp)]
  have hnormal : Normal ⟨"/", above ++ [name ++ ("." ++ extension)]⟩ :=
    ⟨.inr (.inl rfl), fun part hpart =>
      isPart_of_isFileName (isFileName_extended h hplain part hpart)⟩
  rw [withExtension, htext, String.append_assoc, String.append_assoc, intercalate_concat]
  exact hnormal.ofString_append

end Path

/-! ## Resolved paths -/

namespace FileSystem

variable {fs : FileSystem}

/-- What can stand in a path: a proper name or a parent step. -/
def IsStep (name : String) : Prop := isFileName name = true ∨ name = ".."

theorem isStep_of_mem_ofString {text name : String} (h : name ∈ (Path.ofString text).parts)
    (hnull : '\x00' ∉ name.toList) : IsStep name := by
  obtain ⟨hempty, hdot, hslash, -⟩ := Path.of_mem_ofString h
  by_cases hparent : name = ".."
  · exact .inr hparent
  · exact .inl (isFileName_iff.mpr ⟨hempty, hdot, hparent, hslash, hnull⟩)

/-- A link leads through proper names and parent steps. -/
theorem Proper.isStep_of_link (hproper : fs.Proper) {place : List String} {target name : String}
    (hlink : fs.entryAt? place = some (.link target)) (h : name ∈ (Path.ofString target).parts) :
    IsStep name := by
  have hnamed : (Entry.link target).isWellNamed = true :=
    Entry.isWellNamed_of_descend? hlink hproper.named
  have hnull : '\x00' ∉ target.toList := by simpa [Entry.isWellNamed] using hnamed
  exact isStep_of_mem_ofString h fun hmem => hnull ((Path.of_mem_ofString h).2.2.2 _ hmem)

/-- The names that resolution ends with, at a cycle of links or without one. -/
def endOf : Except (List String) (List String) → List String
  | .ok names | .error names => names

/-- Resolution adds no other names: they are those of the place, those that are given and those of
links. -/
theorem Proper.isStep_of_mem_resolveFrom (hproper : fs.Proper) (fuel : Nat)
    (active : List (List String)) {place names : List String} (hplace : ∀ name ∈ place, IsStep name)
    (hnames : ∀ name ∈ names, IsStep name) :
    ∀ name ∈ endOf (fs.resolveFrom fuel active place names), IsStep name := by
  have hnext {place rest : List String} {name : String} (hplace : ∀ name ∈ place, IsStep name)
      (hnames : ∀ part ∈ name :: rest, IsStep part) : ∀ part ∈ place ++ [name], IsStep part := by
    intro part hpart
    rcases List.mem_append.mp hpart with hpart | hpart
    · exact hplace part hpart
    · rw [List.mem_singleton.mp hpart]
      exact hnames name List.mem_cons_self
  have hmore {xs ys : List String} (hxs : ∀ name ∈ xs, IsStep name)
      (hys : ∀ name ∈ ys, IsStep name) :
      ∀ name ∈ xs ++ ys, IsStep name := fun name hname =>
    (List.mem_append.mp hname).elim (hxs name) (hys name)
  fun_induction FileSystem.resolveFrom fs fuel active place names with
  | case1 fuel active place => exact hplace
  | case2 fuel active place rest ih =>
    exact ih (fun name hname => hplace name (List.mem_of_mem_dropLast hname))
      fun name hname => hnames name (List.mem_cons_of_mem _ hname)
  | case3 active place name rest =>
    exact hmore (hnext hplace hnames) (List.forall_mem_cons.mp hnames).2
  | case4 active place name rest =>
    exact hmore (hnext hplace hnames) (List.forall_mem_cons.mp hnames).2
  | case5 active place name rest hname next target hlink fuel hactive =>
    rename_i target place' hinner ihtarget ihrest
    have hstart : ∀ part ∈ (if target.isAbsolute = true then [] else place), IsStep part := by
      split
      · exact fun part hpart => absurd hpart List.not_mem_nil
      · exact hplace
    have hplace' := ihtarget hstart fun part hpart => hproper.isStep_of_link hlink hpart
    rw [hinner] at hplace'
    exact ihrest hplace' (List.forall_mem_cons.mp hnames).2
  | case6 active place name rest hname next target hlink fuel hactive =>
    rename_i target names hinner ihtarget
    have hstart : ∀ part ∈ (if target.isAbsolute = true then [] else place), IsStep part := by
      split
      · exact fun part hpart => absurd hpart List.not_mem_nil
      · exact hplace
    have hnames' := ihtarget hstart fun part hpart => hproper.isStep_of_link hlink hpart
    rw [hinner] at hnames'
    exact hmore hnames' (List.forall_mem_cons.mp hnames).2
  | case7 fuel active place name rest hname next =>
    rename_i hlink ih
    exact ih (hnext hplace hnames) (List.forall_mem_cons.mp hnames).2

theorem mem_of_mem_collapse {names : List String} {name : String} (h : name ∈ collapse names) :
    name ∈ names := by
  have hstep (names place : List String)
      (h : name ∈ names.foldl (fun place name => if name = ".." then place.dropLast
        else place ++ [name]) place) :
      name ∈ place ∨ name ∈ names := by
    induction names generalizing place with
    | nil => exact .inl h
    | cons first rest ih =>
      rw [List.foldl_cons] at h
      rcases ih _ h with h | h
      · split at h
        · exact .inl (List.mem_of_mem_dropLast h)
        · rcases List.mem_append.mp h with h | h
          · exact .inl h
          · exact .inr (List.mem_singleton.mp h ▸ List.mem_cons_self)
      · exact .inr (List.mem_cons_of_mem _ h)
  exact (hstep names [] h).resolve_left List.not_mem_nil

theorem Proper.isFileName_of_mem_current (hproper : fs.Proper) {name : String}
    (h : name ∈ fs.current) :
    isFileName name = true := by
  obtain ⟨entries, hentries⟩ := exists_directory_of_any hproper.current
  exact Entry.isFileName_of_descend? hentries hproper.named name h

/-- **A path that was read and resolved has proper names.** -/
theorem Proper.names_of_resolve (hproper : fs.Proper) {text : String} {p : Path}
    (h : fs.resolve (Path.ofString text) = .ok p) : ∀ name ∈ p.parts, isFileName name = true := by
  have hstraight := (hproper.of_resolve h).2.1
  unfold resolve at h
  cases hcheck : (Path.ofString text).checkNames with
  | error e =>
    rw [hcheck] at h
    cases h
  | ok u =>
    have hgiven : ∀ name ∈ (Path.ofString text).parts, IsStep name := fun name hname =>
      isStep_of_mem_ofString hname fun hnull => by
        have hnone := checkNames_eq_ok_iff.mp hcheck name hname
        rw [List.contains_eq_mem, decide_eq_false_iff_not] at hnone
        exact hnone hnull
    have hstart : ∀ name ∈ fs.startOf (Path.ofString text), IsStep name := by
      unfold startOf
      split
      · exact fun name hname => absurd hname List.not_mem_nil
      · exact fun name hname => .inl (hproper.isFileName_of_mem_current hname)
    have hend := hproper.isStep_of_mem_resolveFrom (fs.root.linkCount + 1) [] hstart hgiven
    have hmem : ∀ name ∈ p.parts, name ∈ endOf
        (fs.resolveFrom (fs.root.linkCount + 1) [] (fs.startOf (Path.ofString text))
          (Path.ofString text).parts) := by
      rw [hcheck] at h
      simp only [bind, Except.bind] at h
      split at h
      next parts hparts =>
        cases h
        rw [hparts]
        exact fun name hname => hname
      next names hcycle =>
        rw [hcycle]
        split at h <;> cases h
        exact fun name hname => mem_of_mem_collapse hname
    exact fun name hname => (hend name (hmem name hname)).resolve_right fun hparent =>
      hstraight (hparent ▸ hname)

end FileSystem

end CallAtlas
