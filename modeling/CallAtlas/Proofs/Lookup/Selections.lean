import CallAtlas.Proofs.Lookup.Closed
import CallAtlas.Proofs.Source.Statements

/-!
# Items identify symbols

An item leads back to a symbol by its file and the offset of its name. That offset is searched for:
from the start of a definition on, the first occurrence of the keyword, and after that the first
occurrence of the name. Where the names of a file's definitions are written in their plain form
(`PlainlyNamed`), the search ends at the name itself (`Source.Begins.selection`). The names of
different definitions are different words of the text, so no two symbols of the file share an
offset, and the item of a symbol leads back to that symbol (`Project.symbolFor_itemOf`).

A name that is not in plain form is not found at its own place. `Project.symbolFor_itemOf_ligature`
shows what the search meets instead: the name of another definition.
-/

namespace CallAtlas

open Source Text

/-! ## Searching -/

namespace Text

/-- A pattern is found behind characters among which its first does not occur. -/
theorem find?_of_not_mem {c : Char} {skipped : List Char} (h : c ∉ skipped)
    (tail rest : List Char) :
    find? (c :: tail) (skipped ++ (c :: tail ++ rest)) = some skipped.length := by
  induction skipped with
  | nil =>
    show find? (c :: tail) (c :: (tail ++ rest)) = some 0
    rw [find?, if_pos]
    exact List.isPrefixOf_iff_prefix.mpr (List.prefix_append (c :: tail) rest)
  | cons d skipped ih =>
    obtain ⟨hd, hskipped⟩ := List.ne_and_not_mem_of_not_mem_cons h
    show find? (c :: tail) (d :: (skipped ++ (c :: tail ++ rest))) = some (skipped.length + 1)
    rw [find?, if_neg, ih hskipped]
    · rfl
    · simp [List.isPrefixOf, hd]

/-- A text has no carriage returns once its line ends are unified. -/
theorem not_mem_unifyLineEnds (text : List Char) : '\r' ∉ unifyLineEnds text := by
  fun_induction unifyLineEnds text with
  | case1 => exact List.not_mem_nil
  | case2 rest ih => simpa using ih
  | case3 c rest hne ih =>
    rw [List.mem_cons, not_or]
    refine ⟨?_, ih⟩
    split
    · decide
    next hc => exact fun h => hc h.symm

end Text

/-- Where keyword and name begin with characters that do not occur before them, the name is
found. -/
theorem selectionOffset_eq {before lead gap rest : List Char} {k c : Char}
    (hk : k ∉ lead) (hc : c ∉ gap) (keyword name : List Char) :
    selectionOffset (before ++ lead ++ (k :: keyword) ++ (gap ++ (c :: name ++ rest)))
        before.length (k :: keyword) (c :: name) =
      (before ++ lead ++ (k :: keyword)).length + gap.length := by
  have hkeyword :
      (before ++ lead ++ (k :: keyword) ++ (gap ++ (c :: name ++ rest))).drop before.length =
        lead ++ (k :: keyword ++ (gap ++ (c :: name ++ rest))) := by
    rw [List.append_assoc, List.append_assoc, List.drop_left]
  have hname : (before ++ lead ++ (k :: keyword) ++ (gap ++ (c :: name ++ rest))).drop
      (before.length + lead.length + (k :: keyword).length) = gap ++ (c :: name ++ rest) := by
    rw [← List.length_append, ← List.length_append, List.drop_left]
  unfold selectionOffset
  rw [hkeyword, find?_of_not_mem hk]
  simp only
  rw [hname, find?_of_not_mem hc]
  simp only [List.length_append]

/-! ## Names in plain form -/

namespace Source

/-- The words that follow a keyword which defines a name. -/
def definedNames : List Token → List (List Char)
  | k :: t :: ts =>
    match t.lexeme with
    | .word w =>
      if k.lexeme = .word "def".toList ∨ k.lexeme = .word "class".toList then
        w :: definedNames (t :: ts)
      else definedNames (t :: ts)
    | _ => definedNames (t :: ts)
  | _ => []

/-- The names of the definitions in a source are written in their plain form. -/
def PlainlyNamed (source : List Char) : Prop :=
  ∀ w ∈ definedNames ((tokens? source).getD []), Identifier.plainForm w = w

instance (source : List Char) : Decidable (PlainlyNamed source) := List.decidableBAll _ _

theorem mem_definedNames {all ts : List Token} {k t : Token} {w : List Char}
    (h : k :: t :: ts <:+ all)
    (hk : k.lexeme = .word "def".toList ∨ k.lexeme = .word "class".toList)
    (ht : t.lexeme = .word w) :
    w ∈ definedNames all := by
  obtain ⟨before, rfl⟩ := h
  induction before with
  | nil =>
    show w ∈ definedNames (k :: t :: ts)
    rw [definedNames]
    simp only [ht, if_pos hk]
    exact List.mem_cons_self
  | cons first before ih =>
    obtain ⟨second, rest, hrest⟩ : ∃ second rest, before ++ k :: t :: ts = second :: rest :=
      List.exists_cons_of_ne_nil (by simp)
    show w ∈ definedNames (first :: (before ++ k :: t :: ts))
    rw [hrest] at ih ⊢
    rw [definedNames]
    split
    · split
      · exact List.mem_cons_of_mem _ ih
      · exact ih
    · exact ih

/-! ## The offset of a name -/

/-- The offset at which the name of a definition is found. -/
def Mark.selection (index : LineIndex) (d : Mark) : Nat :=
  selectionOffset index.text (index.offsetAt d.start) d.kind.keyword.toList d.name.toList

section Selection

variable {source : List Char} {all ts : List Token} {ds : List Mark} {d : Mark} {t : Token}

/-- The search ends at a plain name that follows its keyword after a gap. -/
theorem Mark.selection_of_gap {before lead gap w rest : List Char} {start : Place}
    (kind : DefinitionKind)
    (hsource : source = before ++ lead ++ kind.keyword.toList ++ (gap ++ (w ++ rest)))
    (hstart : (LineIndex.ofText source).offsetAt start = before.length)
    (hlead : ∀ c ∈ lead, kind.keyword.toList.head? ≠ some c) (hgap : ∀ c ∈ gap, isGap c = true)
    (hw : ∃ c tail, w = c :: tail ∧ isNameChar c = true) (hplain : Identifier.plainForm w = w) :
    Mark.selection (.ofText source) ⟨kind, String.ofList (Identifier.plainForm w), start⟩ =
      (before ++ lead ++ kind.keyword.toList).length + gap.length := by
  obtain ⟨k, keyword, hkeyword⟩ : ∃ k keyword, kind.keyword.toList = k :: keyword := by
    cases kind <;> exact ⟨_, _, rfl⟩
  obtain ⟨c, tail, rfl, hc⟩ := hw
  have hk : k ∉ lead := fun hmem => hlead k hmem (by rw [hkeyword, List.head?_cons])
  have hcgap : c ∉ gap := by
    intro hmem
    rw [not_isNameChar_of_isGap (hgap c hmem)] at hc
    cases hc
  rw [Mark.selection, hstart, String.toList_ofList, hplain]
  show selectionOffset source before.length kind.keyword.toList (c :: tail) = _
  rw [hsource, hkeyword]
  exact selectionOffset_eq hk hcgap keyword tail

/-- **A plain name is found where it stands**, behind its keyword. -/
theorem Begins.selection (hr : '\r' ∉ source) (h : tokens? source = some all)
    (hplain : PlainlyNamed source) (hd : Begins all d (t :: ts)) :
    d.selection (.ofText source) = (LineIndex.ofText source).offsetAt t.extent.start ∧
      0 < d.selection (.ofText source) ∧ ∃ w, t.lexeme = .word w := by
  have hwords : ∀ w ∈ definedNames all, Identifier.plainForm w = w := by
    rw [PlainlyNamed, h] at hplain
    exact hplain
  cases hd with
  | @line k t ts kind w hopens hkeyword hname =>
    obtain ⟨before, gap, rest, hsource, hgap, hw, hk, ht⟩ :=
      exists_two_words hr h hopens hkeyword hname
    have hdefines : k.lexeme = .word "def".toList ∨ k.lexeme = .word "class".toList := by
      cases kind
      · exact .inl hkeyword
      · exact .inl hkeyword
      · exact .inr hkeyword
    have hplainly : Identifier.plainForm w = w :=
      hwords w (mem_definedNames hopens.suffix hdefines hname)
    rw [← List.append_nil before] at hsource
    have hfound := Mark.selection_of_gap kind hsource hk (by simp) hgap hw hplainly
    have hpos : 0 < kind.keyword.toList.length := by cases kind <;> decide
    rw [List.append_nil] at hfound
    rw [hfound, ht]
    refine ⟨rfl, ?_, w, hname⟩
    rw [List.length_append]
    omega
  | @async a k t ts w hopens hasync hkeyword hname =>
    obtain ⟨before, gap, gap', rest, hsource, hgap, hgap', hw, ha, ht⟩ :=
      exists_three_words hr h hopens hasync hkeyword hname
    have hsuffix := (List.suffix_cons a _).trans hopens.suffix
    have hplainly : Identifier.plainForm w = w :=
      hwords w (mem_definedNames hsuffix (.inl hkeyword) hname)
    -- The keyword begins with a letter that is neither in the word before it nor in a gap.
    have hlead :
        ∀ c ∈ "async".toList ++ gap, DefinitionKind.asyncFunction.keyword.toList.head? ≠
          some c := by
      rw [List.forall_mem_append]
      refine ⟨by simp [DefinitionKind.keyword], fun c hc hhead => ?_⟩
      obtain rfl : 'd' = c := Option.some.inj hhead
      exact absurd (hgap _ hc) (by decide)
    rw [List.append_assoc before] at hsource ht
    have hfound := Mark.selection_of_gap .asyncFunction hsource ha hlead hgap' hw hplainly
    rw [hfound, ht]
    refine ⟨rfl, ?_, w, hname⟩
    rw [List.length_append, List.length_append, List.length_append]
    show 0 < before.length + (5 + gap.length) + 3 + gap'.length
    omega

/-- The name of a definition is a word of the source, with the given tokens somewhere behind it. -/
def NamedBefore (index : LineIndex) (all ts : List Token) (d : Mark) : Prop :=
  ∃ t u w, t :: u <:+ all ∧ ts <:+ u ∧ t.lexeme = .word w ∧
    d.selection index = index.offsetAt t.extent.start

theorem NamedBefore.of_suffix {index : LineIndex} {rest : List Token}
    (h : NamedBefore index all ts d) (hrest : rest <:+ ts) : NamedBefore index all rest d := by
  obtain ⟨t, u, w, hall, hts, hword, hselection⟩ := h
  exact ⟨t, u, w, hall, hrest.trans hts, hword, hselection⟩

/-- The definitions of a source are found at increasing offsets, each at a word before the tokens
that are left. -/
theorem Passed.selections (hr : '\r' ∉ source) (h : tokens? source = some all)
    (hplain : PlainlyNamed source) (hds : Passed all ds ts) :
    ds.Pairwise (fun d d' => d.selection (.ofText source) < d'.selection (.ofText source)) ∧
      ∀ d ∈ ds, 0 < d.selection (.ofText source) ∧ NamedBefore (.ofText source) all ts d := by
  induction hds with
  | start => exact ⟨.nil, List.forall_mem_nil _⟩
  | @mark ds d t rest ts hds hd hts ih =>
    obtain ⟨hpairwise, hnamed⟩ := ih
    obtain ⟨hselection, hpos, w, hword⟩ := hd.selection hr h hplain
    have hall : t :: rest <:+ all := hds.suffix
    constructor
    · rw [List.pairwise_append]
      refine ⟨hpairwise, List.pairwise_singleton _ _, fun d' hd' d'' hlast => ?_⟩
      obtain rfl := List.mem_singleton.mp hlast
      obtain ⟨-, t', u, w', hall', hrest, hword', hselection'⟩ := hnamed d' hd'
      -- The token of the new name is among those behind the name of any definition before it.
      rw [hselection, hselection']
      exact offsetAt_lt_of_suffix hr h hall' hrest hword' hword
    · rw [List.forall_mem_append, List.forall_mem_singleton]
      refine ⟨fun d' hd' => ⟨(hnamed d' hd').1, ?_⟩, hpos, t, rest, w, hall, hts, hword, hselection⟩
      exact (hnamed d' hd').2.of_suffix (hts.trans (List.suffix_cons t rest))

end Selection

end Source

/-! ## The symbols of a file -/

section

variable {file : Path} {index : LineIndex} {α : Type} {g : Symbol → α} {m : Mark → α}

mutual

/-- Symbols are declared in the order of the walk: what can be read off the definition of each is
the same as what is read off the definitions in the tree. -/
theorem map_declarations
    (hg : ∀ outer head extent,
      g (definitionSymbol file index outer head extent) = m ⟨head.kind, head.name, extent.start⟩)
    {outer : List (String × SymbolKind)} :
    (tree : Node) → (declarations file index outer tree).map g = tree.marks.map m
  | .name _ _ => rfl
  | .imports _ _ => rfl
  | .member receiver _ _ => map_declarations hg receiver
  | .call callee arguments _ => by
    rw [declarations, Node.marks, List.map_append, List.map_append, map_declarations hg callee,
      map_declarationsOfAll hg arguments]
  | .definition head parts extent => by
    rw [declarations, Node.marks, List.map_cons, List.map_cons, map_declarationsOfAll hg parts, hg]
  | .other parts _ => map_declarationsOfAll hg parts

theorem map_declarationsOfAll
    (hg : ∀ outer head extent,
      g (definitionSymbol file index outer head extent) = m ⟨head.kind, head.name, extent.start⟩)
    {outer : List (String × SymbolKind)} :
    (trees : List Node) →
      (declarationsOfAll file index outer trees).map g = (Node.marksOfAll trees).map m
  | [] => rfl
  | tree :: rest => by
    rw [declarationsOfAll, Node.marksOfAll, List.map_append, List.map_append,
      map_declarations hg tree, map_declarationsOfAll hg rest]

end

end

namespace SourceFile

variable {fs : FileSystem} {root path : Path} {f : SourceFile} {s s' : Symbol}

/-- The tree of a file holds the statements of its text, whose line ends are unified. -/
theorem exists_statements_of_readSource (h : readSource fs root path = .ok f) :
    ∃ text body extent, '\r' ∉ text ∧ f.index = .ofText text ∧ statements? text = some body ∧
      f.tree = .other body extent := by
  obtain ⟨text, htext, htree, hindex, -⟩ := readSource_eq_ok_iff.mp h
  have hr : '\r' ∉ text := by
    obtain ⟨bytes, -, htext⟩ := bind_eq_ok_iff.mp htext
    split at htext
    next => cases htext; exact not_mem_unifyLineEnds _
    next => cases htext
  -- The parser unifies the line ends once more, which changes nothing.
  unfold parseModule at htree
  rw [unifyLineEnds_of_not_mem hr] at htree
  split at htree
  next => cases htree
  next =>
    split at htree
    next body hbody =>
      exact ⟨text, body, _, hr, hindex, hbody, (Except.ok.inj htree).symm⟩
    next => cases htree

/-- **The definitions of a file have increasing offsets**, all behind the start of the file. -/
theorem pairwise_selectionStart (h : readSource fs root path = .ok f)
    (hplain : PlainlyNamed f.index.text) :
    ((declarations f.path f.index [] f.tree).map Symbol.selectionStart).Pairwise (· < ·) ∧
      ∀ s ∈ declarations f.path f.index [] f.tree, 0 < s.selectionStart := by
  obtain ⟨text, body, extent, hr, hindex, hbody, htree⟩ := exists_statements_of_readSource h
  obtain ⟨all, ts, hall, hpassed⟩ := exists_passed_of_statements? hbody
  rw [hindex] at hplain
  obtain ⟨hpairwise, hnamed⟩ := hpassed.selections hr hall hplain
  have hmap : (declarations f.path f.index [] f.tree).map Symbol.selectionStart =
      (body.flatMap Node.marks).map (Mark.selection (.ofText text)) := by
    rw [map_declarations (m := Mark.selection f.index) fun _ _ _ => rfl, hindex, htree,
      Node.marks_other]
  constructor
  · rw [hmap, List.pairwise_map]
    exact hpairwise
  · intro s hs
    have hmem := List.mem_map_of_mem (f := Symbol.selectionStart) hs
    rw [hmap] at hmem
    obtain ⟨d, hd, heq⟩ := List.mem_map.mp hmem
    rw [← heq]
    exact (hnamed d hd).1

/-- The symbols of a file are told apart by the offsets of their names. -/
theorem HasSymbol.eq_of_selectionStart_eq (h : readSource fs root path = .ok f)
    (hplain : PlainlyNamed f.index.text) (hs : f.HasSymbol s) (hs' : f.HasSymbol s')
    (heq : s'.selectionStart = s.selectionStart) : s' = s := by
  obtain ⟨hpairwise, hpos⟩ := pairwise_selectionStart h hplain
  rcases hs with rfl | hs <;> rcases hs' with rfl | hs'
  · rfl
  · exact absurd heq (Nat.ne_of_gt (hpos s' hs'))
  · exact absurd heq.symm (Nat.ne_of_gt (hpos s hs))
  · exact List.inj_on_of_nodup_map (hpairwise.imp Nat.ne_of_lt) hs' hs heq

end SourceFile

/-! ## The symbols of a project -/

namespace Project

variable {fs : FileSystem} {root : Path} {config : ScanConfig} {p : Project} {s s' : Symbol}

/-- The names of the definitions in a file are written in their plain form. -/
def PlainlyNamed (p : Project) (file : Path) : Prop :=
  ∀ index, p.sources.get? file = some index → Source.PlainlyNamed index.text

theorem eq_of_selectionStart_eq (h : indexProject fs root config = .ok p)
    (hs : s ∈ p.symbols.values)
    (hs' : s' ∈ p.symbols.values) (hplain : p.PlainlyNamed s.file) (hfile : s'.file = s.file)
    (heq : s'.selectionStart = s.selectionStart) : s' = s := by
  have hitems : (p.itemOf s).file = (p.itemOf s').file := by rw [itemOf, itemOf, hfile]
  obtain ⟨path, hpath, f, hread, hsymbol, hsymbol'⟩ := exists_source_of_file_eq h hs hs' hitems
  rw [hsymbol.file_eq] at hplain
  exact hsymbol.eq_of_selectionStart_eq hread
    (hplain f.index (get?_sources h hpath hread)) hsymbol' heq

/-- **Items identify symbols.** In a proper file system, and without following links, let a project
be indexed, with a root free of links, which is so unless resolving the root met a cycle of links.
If the definitions of a file write their names in plain form, no two symbols of that file share the
offset of their name, the item of each symbol leads back to that symbol, and expanding the item
gives the calls of that symbol. -/
theorem symbolFor_itemOf (hproper : fs.Proper) (hlinks : config.followLinks = false)
    (h : indexProject fs root config = .ok p) :
    (¬fs.MeetsCycle root → fs.LinkFree p.root.parts) ∧
    ∀ s ∈ p.symbols.values, p.PlainlyNamed s.file →
      (∀ s' ∈ p.symbols.values, s'.file = s.file → s'.selectionStart = s.selectionStart → s' = s) ∧
      (fs.LinkFree p.root.parts →
        p.symbolFor fs (p.itemOf s) = .ok s ∧
        ∀ direction, p.expand fs direction (p.itemOf s) =
          .ok (p.relations (otherEnd direction) (p.callsAt s direction))) := by
  refine ⟨(hproper.of_resolve (indexProject_eq_ok_iff.mp h).1).2.2, fun s hs hplain => ?_⟩
  have honly : ∀ s' ∈ p.symbols.values, s'.file = s.file →
      s'.selectionStart = s.selectionStart → s' = s :=
    fun s' hs' hfile heq => eq_of_selectionStart_eq h hs hs' hplain hfile heq
  refine ⟨honly, fun hroot => ?_⟩
  have hsymbol : p.symbolFor fs (p.itemOf s) = .ok s := by
    obtain ⟨found, hfound⟩ := exists_declaredAt? hs
    obtain ⟨hmem, hkey⟩ := List.mem_filter.mp (List.mem_of_getLast? hfound)
    obtain ⟨hfile, hoffset⟩ := of_decide_eq_true hkey
    obtain rfl := honly found hmem hfile (Int.ofNat.inj hoffset)
    have hat : p.declaredAt? found.file (p.itemOf found).selectionStart = some found := hfound
    rw [symbolFor_of_relative (relative_itemOf hproper hlinks h hroot hs), hat]
  exact ⟨hsymbol, fun direction => expand_of_symbolFor hsymbol direction⟩

/-- A class, its method and an asynchronous function whose words stand on two lines. -/
def workshop : FileSystem where
  entries := [("w", .directory [
    ("m.py",
      .file "class A:\n    def f(self):\n        g()\n\nasync \\\n  def g(): A().f()\n".toUTF8)])]

theorem symbolFor_itemOf_workshop :
    workshop.Proper ∧ ∃ p, indexProject workshop ⟨"/", ["w"]⟩ {} = .ok p ∧
      p.symbols.values.map (fun s => (s.name, s.selectionStart)) =
        [("m", 0), ("A", 6), ("f", 17), ("g", 53)] ∧
      ∀ s ∈ p.symbols.values, p.PlainlyNamed s.file ∧
      p.symbolFor workshop (p.itemOf s) = .ok s := by
  have hproper : workshop.Proper := by decide +kernel
  have hfree : workshop.LinkFree ["w"] := FileSystem.linkFree_of_entryAt? rfl rfl
  have hroot : workshop.resolve ⟨"/", ["w"]⟩ = .ok ⟨"/", ["w"]⟩ :=
    FileSystem.resolve_of_canonical rfl rfl ⟨hfree, by decide⟩
  have hcontent :
      ((workshop.sourceFiles {} ⟨"/", ["w"]⟩).mapM (readSource workshop ⟨"/", ["w"]⟩)).map
        (fun files =>
      ((projectOf ⟨"/", ["w"]⟩ files).symbols.values.map fun s => (s.name, s.selectionStart),
        decide (∀ e ∈ (projectOf ⟨"/", ["w"]⟩ files).sources.entries,
          Source.PlainlyNamed e.2.text))) =
      .ok ([("m", 0), ("A", 6), ("f", 17), ("g", 53)], true) := by
    decide +kernel
  cases hread : (workshop.sourceFiles {} ⟨"/", ["w"]⟩).mapM (readSource workshop ⟨"/", ["w"]⟩) with
  | error e =>
    rw [hread] at hcontent
    cases hcontent
  | ok files =>
    rw [hread] at hcontent
    obtain ⟨hnames, hplain⟩ := Prod.mk.inj (Except.ok.inj hcontent)
    have hp : indexProject workshop ⟨"/", ["w"]⟩ {} = .ok (projectOf ⟨"/", ["w"]⟩ files) :=
      indexProject_of_mapM hroot (by decide +kernel) hread
    refine ⟨hproper, _, hp, hnames, fun s hs => ?_⟩
    have hplainly : (projectOf ⟨"/", ["w"]⟩ files).PlainlyNamed s.file :=
      fun index hindex =>
        of_decide_eq_true hplain (s.file, index) (Table.get?_eq_some_iff.mp hindex)
    exact ⟨hplainly, (((symbolFor_itemOf hproper rfl hp).2 s hs hplainly).2 hfree).1⟩

/-- A function whose name is written with a ligature, before one whose name begins with the letters
that it stands for. -/
def ligature : FileSystem where
  entries := [("w", .directory
    [("m.py", .file "def ﬁ(): a()\ndef fig(): b()\ndef a(): pass\ndef b(): pass\nfi()\n".toUTF8)])]

/-- The search for the first name ends in the second, so the item of the first function leads to the
second, and expanding it gives the calls of the second. -/
theorem symbolFor_itemOf_ligature :
    ligature.Proper ∧ ∃ p s s', indexProject ligature ⟨"/", ["w"]⟩ {} = .ok p ∧
      s ∈ p.symbols.values ∧
      s' ∈ p.symbols.values ∧ s.name = "fi" ∧ s'.name = "fig" ∧ s'.file = s.file ∧
      s'.selectionStart = s.selectionStart ∧ p.symbolFor ligature (p.itemOf s) = .ok s' ∧
      p.expand ligature .outgoing (p.itemOf s) =
        .ok (p.relations (otherEnd .outgoing) (p.callsAt s' .outgoing)) := by
  have hproper : ligature.Proper := by decide +kernel
  have hfree : ligature.LinkFree ["w"] := FileSystem.linkFree_of_entryAt? rfl rfl
  have hroot : ligature.resolve ⟨"/", ["w"]⟩ = .ok ⟨"/", ["w"]⟩ :=
    FileSystem.resolve_of_canonical rfl rfl ⟨hfree, by decide⟩
  have hcontent :
      ((ligature.sourceFiles {} ⟨"/", ["w"]⟩).mapM (readSource ligature ⟨"/", ["w"]⟩)).map
        (fun files =>
      (((projectOf ⟨"/", ["w"]⟩ files).symbols.get? "m.fi").map fun s =>
        (s.name, s.file, s.selectionStart),
        ((projectOf ⟨"/", ["w"]⟩ files).declaredAt? ⟨"", ["m.py"]⟩ 17).map Symbol.name)) =
      .ok (some ("fi", ⟨"", ["m.py"]⟩, 17), some "fig") := by
    decide +kernel
  cases hread : (ligature.sourceFiles {} ⟨"/", ["w"]⟩).mapM (readSource ligature ⟨"/", ["w"]⟩) with
  | error e =>
    rw [hread] at hcontent
    cases hcontent
  | ok files =>
    rw [hread] at hcontent
    obtain ⟨hfirst, hsecond⟩ := Prod.mk.inj (Except.ok.inj hcontent)
    obtain ⟨s, hs, hfields⟩ := Option.map_eq_some_iff.mp hfirst
    obtain ⟨s', hs', hname'⟩ := Option.map_eq_some_iff.mp hsecond
    obtain ⟨hname, hrest⟩ := Prod.mk.inj hfields
    obtain ⟨hfile, hselection⟩ := Prod.mk.inj hrest
    have hp : indexProject ligature ⟨"/", ["w"]⟩ {} = .ok (projectOf ⟨"/", ["w"]⟩ files) :=
      indexProject_of_mapM hroot (by decide +kernel) hread
    obtain ⟨hmem', hkey⟩ := List.mem_filter.mp (List.mem_of_getLast? hs')
    obtain ⟨hfile', hoffset⟩ := of_decide_eq_true hkey
    have hmem := mem_values_of_get? hs
    have hfound : (projectOf ⟨"/", ["w"]⟩ files).declaredAt? s.file
        ((projectOf ⟨"/", ["w"]⟩ files).itemOf s).selectionStart = some s' := by
      rw [itemOf, hfile, hselection]
      exact hs'
    have hsymbol :
        (projectOf ⟨"/", ["w"]⟩ files).symbolFor ligature
          ((projectOf ⟨"/", ["w"]⟩ files).itemOf s) =
        .ok s' := by
      rw [symbolFor_of_relative (relative_itemOf hproper rfl hp hfree hmem), hfound]
    refine ⟨hproper, _, s, s', hp, hmem, hmem', hname, hname', hfile'.trans hfile.symm, ?_, hsymbol,
      expand_of_symbolFor hsymbol .outgoing⟩
    rw [hselection]
    exact Int.ofNat.inj hoffset

end Project

end CallAtlas
