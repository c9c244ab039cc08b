import CallAtlas.Proofs.Integrity
import Mathlib

/-!
# What a called name resolves to

The callee of a call denotes a name in a module (`Denotes`). Which symbols it may refer to is looked
up in two stages, in the module and then everywhere, over an index that has regrouped the symbols,
and the result is sorted. Seen from the symbols themselves it is simple (`mem_candidates_iff`): a
candidate has the name, and it is in the module, or else no such symbol is and all symbols with the
name share one qualified name. So the order of the symbols has no part in what is found, and symbols
with other names have none either.

What the order of the symbols does decide is the order among equals: sorting keeps the order of
symbols with the same rank (`filter_rankCandidates`), and grouping keeps the order within a module
(`filter_candidates_sublist`). All of it is in `candidates_exact`.
-/

namespace CallAtlas

/-! ## What a callee denotes -/

/-- A callee denotes a name in a module: with dots, the name behind the last of them in the module
before it, and without dots the name in the module of the call. -/
inductive Denotes (module : String) : String → String → String → Prop
  | dotted {owner name : String} (h : '.' ∉ name.toList) :
      Denotes module (owner ++ "." ++ name) owner name
  | bare {name : String} (h : '.' ∉ name.toList) : Denotes module name module name

/-- Every callee denotes something: it is cut at its last dot, which is the first from the end. -/
theorem exists_denotes (module raw : String) : ∃ owner name, Denotes module raw owner name := by
  by_cases hdot : '.' ∈ raw.toList
  · obtain ⟨name, owner, hraw, hname⟩ := List.eq_append_cons_of_mem (List.mem_reverse.mpr hdot)
    have hdotted : raw = String.ofList owner.reverse ++ "." ++ String.ofList name.reverse := by
      rw [← String.toList_inj, ← List.reverse_inj, hraw]
      simp
    refine ⟨String.ofList owner.reverse, String.ofList name.reverse, ?_⟩
    rw [hdotted]
    exact .dotted (by simpa using hname)
  · exact ⟨module, raw, .bare hdot⟩

theorem splitCallee_of_bare {raw : String} (h : '.' ∉ raw.toList) :
    splitCallee raw = (none, raw) := by
  have hall : raw.toList.reverse.takeWhile (fun c => decide (c ≠ '.')) = raw.toList.reverse := by
    rw [List.takeWhile_eq_self_iff]
    rintro c hc
    exact decide_eq_true fun heq => h (heq ▸ List.mem_reverse.mp hc)
  simp only [splitCallee, hall, List.reverse_reverse, if_pos]

theorem splitCallee_dotted (owner : String) {name : String} (h : '.' ∉ name.toList) :
    splitCallee (owner ++ "." ++ name) = (some owner, name) := by
  have hlist : (owner ++ "." ++ name).toList = owner.toList ++ '.' :: name.toList := by simp
  have hname : (owner.toList ++ '.' :: name.toList).reverse.takeWhile (fun c => decide (c ≠ '.')) =
      name.toList.reverse := by
    rw [List.reverse_append, List.reverse_cons, List.append_assoc, List.takeWhile_append_of_pos,
      List.singleton_append, List.takeWhile_cons_of_neg (by simp), List.append_nil]
    intro c hc
    exact decide_eq_true fun heq => h (heq ▸ List.mem_reverse.mp hc)
  have hshorter : name.toList.length ≠ owner.toList.length + (name.toList.length + 1) := by omega
  have hcut : owner.toList.length + (name.toList.length + 1) - name.toList.length - 1 =
      owner.toList.length := by omega
  simp only [splitCallee, hlist, hname, List.reverse_reverse, List.length_append, List.length_cons,
    if_neg hshorter, hcut, List.take_left, String.ofList_toList]

/-- A callee is looked up where it denotes something. -/
theorem Denotes.splitCallee {module raw owner name : String} (h : Denotes module raw owner name) :
    (splitCallee raw).1.getD module = owner ∧ (splitCallee raw).2 = name := by
  cases h with
  | dotted h =>
    rw [splitCallee_dotted _ h]
    exact ⟨rfl, rfl⟩
  | bare h =>
    rw [splitCallee_of_bare h]
    exact ⟨rfl, rfl⟩

/-! ## Ranking -/

/-- The first symbol may stand before the second among candidates: functions come before classes,
and among either implementations before stubs. -/
def Symbol.MayPrecede (a b : Symbol) : Prop :=
  (b.kind.isCallable = true → a.kind.isCallable = true) ∧
    (a.kind.isCallable = b.kind.isCallable → b.isStub = false → a.isStub = false)

theorem candidateRank_le_iff {a b : Symbol} :
    candidateRank a ≤ candidateRank b ↔ a.MayPrecede b := by
  unfold candidateRank Symbol.MayPrecede
  cases a.kind.isCallable <;> cases b.kind.isCallable <;> cases a.isStub <;>
    cases b.isStub <;> decide

theorem candidateRank_trans (a b c : Symbol)
    (hab : decide (candidateRank a ≤ candidateRank b) = true)
    (hbc : decide (candidateRank b ≤ candidateRank c) = true) :
    decide (candidateRank a ≤ candidateRank c) = true :=
  decide_eq_true (Nat.le_trans (of_decide_eq_true hab) (of_decide_eq_true hbc))

theorem candidateRank_total (a b : Symbol) :
    (decide (candidateRank a ≤ candidateRank b) || decide (candidateRank b ≤ candidateRank a)) =
      true := by
  simpa using Nat.le_total (candidateRank a) (candidateRank b)

theorem pairwise_rankCandidates (symbols : List Symbol) :
    (rankCandidates symbols).Pairwise Symbol.MayPrecede :=
  (List.pairwise_mergeSort candidateRank_trans candidateRank_total symbols).imp fun h =>
    candidateRank_le_iff.mp (of_decide_eq_true h)

/-- Equals keep their order: those of one rank are sorted already, and what is sorted stays as it
is. -/
theorem filter_rankCandidates {p : Symbol → Bool}
    (h : ∀ a b, p a = true → p b = true → candidateRank a = candidateRank b)
    (symbols : List Symbol) :
    (rankCandidates symbols).filter p = symbols.filter p := by
  have hequal : (symbols.filter p).Pairwise fun a b =>
      decide (candidateRank a ≤ candidateRank b) = true := by
    refine List.pairwise_of_forall_mem_list fun a ha b hb => decide_eq_true (Nat.le_of_eq ?_)
    exact h a b (List.mem_filter.mp ha).2 (List.mem_filter.mp hb).2
  have hsublist : (symbols.filter p).Sublist (rankCandidates symbols) :=
    List.sublist_mergeSort candidateRank_trans candidateRank_total hequal List.filter_sublist
  have hfilter := hsublist.filter p
  rw [List.filter_filter] at hfilter
  simp only [Bool.and_self] at hfilter
  exact (hfilter.eq_of_length ((perm_rankCandidates symbols).filter p).length_eq.symm).symm

/-! ## The two stages -/

/-- A function or class with a name. -/
def Symbol.IsCallee (s : Symbol) (name : String) : Prop :=
  (s.kind.isCallable = true ∨ s.kind = .classLike) ∧ s.name = name

instance (s : Symbol) (name : String) : Decidable (s.IsCallee name) :=
  inferInstanceAs (Decidable (_ ∧ _))

theorem isResolvable_iff {kind : SymbolKind} :
    kind.isResolvable = true ↔ kind.isCallable = true ∨ kind = .classLike := by
  cases kind <;> simp [SymbolKind.isResolvable, SymbolKind.isCallable]

section

variable {values : List Symbol} {module raw owner name : String} {s : Symbol}

theorem candidates_of_some {index : SymbolIndex} {found : List Symbol} (hraw : raw ≠ unknownCallee)
    (h : Denotes module raw owner name) (hget : index.get? (owner, name) = some found) :
    candidates index module raw = rankCandidates found := by
  obtain ⟨howner, hname⟩ := h.splitCallee
  rw [← howner, ← hname] at hget
  rw [candidates, if_neg hraw]
  simp only [hget]

theorem candidates_of_none {index : SymbolIndex} (hraw : raw ≠ unknownCallee)
    (h : Denotes module raw owner name) (hget : index.get? (owner, name) = none) :
    candidates index module raw = rankCandidates (globalCandidates index name) := by
  obtain ⟨howner, rfl⟩ := h.splitCallee
  rw [← howner] at hget
  rw [candidates, if_neg hraw]
  simp only [hget]

/-- The symbols under a module and a name. -/
theorem mem_group_iff {group : List Symbol}
    (hget : (symbolIndex values).get? (owner, name) = some group) :
    s ∈ group ↔ s ∈ values ∧ s.IsCallee name ∧ s.inModule = owner := by
  rw [Table.eq_filter_of_mem_groupBy (Table.get?_eq_some_iff.mp hget)]
  simp only [List.mem_filter, decide_eq_true_iff, Prod.mk.injEq, isResolvable_iff, Symbol.IsCallee]
  tauto

/-- Nothing stands under a module and a name exactly if no symbol matches them. -/
theorem get?_symbolIndex_eq_none_iff : (symbolIndex values).get? (owner, name) = none ↔
    ∀ t ∈ values, t.IsCallee name → t.inModule ≠ owner := by
  rw [Table.get?_eq_none_iff, symbolIndex, Table.mem_keys_groupBy]
  simp only [List.mem_filter, Prod.mk.injEq, isResolvable_iff, Symbol.IsCallee]
  constructor
  · rintro hnone t ht ⟨hkind, hname⟩ howner
    exact hnone ⟨t, ⟨ht, hkind⟩, howner, hname⟩
  · rintro hnone ⟨t, ⟨ht, hkind⟩, howner, hname⟩
    exact hnone t ht ⟨hkind, hname⟩ howner

/-- The symbols with a name in an index, one module after the other. -/
def namedIn (index : SymbolIndex) (name : String) : List Symbol :=
  (index.entries.filter (·.1.2 == name)).flatMap Prod.snd

/-- All symbols with a name are candidates, or none is. -/
theorem globalCandidates_eq (index : SymbolIndex) (name : String) :
    globalCandidates index name =
      if ∀ s ∈ namedIn index name, ∀ t ∈ namedIn index name, s.qualname = t.qualname then
        namedIn index name
      else [] := by
  unfold globalCandidates namedIn
  generalize (index.entries.filter (·.1.2 == name)).flatMap Prod.snd = found
  cases found with
  | nil => rw [ite_self]
  | cons first rest =>
    have hshared : (first :: rest).all (·.qualname == first.qualname) = true ↔
        ∀ s ∈ first :: rest, ∀ t ∈ first :: rest, s.qualname = t.qualname := by
      simp only [List.all_eq_true, beq_iff_eq]
      constructor
      · intro h s hs t ht
        rw [h s hs, h t ht]
      · intro h s hs
        exact h s hs first List.mem_cons_self
    simp only [hshared]

theorem mem_namedIn_iff : s ∈ namedIn (symbolIndex values) name ↔ s ∈ values ∧ s.IsCallee name := by
  rw [namedIn, List.mem_flatMap]
  constructor
  · rintro ⟨⟨⟨owner, _⟩, group⟩, hentry, hs⟩
    obtain ⟨hmem, hname⟩ := List.mem_filter.mp hentry
    obtain rfl := eq_of_beq hname
    obtain ⟨hvalue, hcallee, -⟩ := (mem_group_iff (Table.get?_eq_some_iff.mpr hmem)).mp hs
    exact ⟨hvalue, hcallee⟩
  · rintro ⟨hvalue, hcallee⟩
    cases hget : (symbolIndex values).get? (s.inModule, name) with
    | none => exact absurd rfl (get?_symbolIndex_eq_none_iff.mp hget s hvalue hcallee)
    | some group =>
      refine ⟨((s.inModule, name), group),
        List.mem_filter.mpr ⟨Table.get?_eq_some_iff.mp hget, beq_self_eq_true _⟩, ?_⟩
      exact (mem_group_iff hget).mpr ⟨hvalue, hcallee, rfl⟩

/-- **Which symbols a callee may refer to**: those with the name that are in the module, or else all
with the name, provided that they share one qualified name. -/
theorem mem_candidates_iff (hraw : raw ≠ unknownCallee) (h : Denotes module raw owner name) :
    s ∈ candidates (symbolIndex values) module raw ↔ s ∈ values ∧ s.IsCallee name ∧
      (s.inModule = owner ∨ (∀ t ∈ values, t.IsCallee name → t.inModule ≠ owner) ∧
        ∀ t ∈ values, t.IsCallee name → t.qualname = s.qualname) := by
  cases hget : (symbolIndex values).get? (owner, name) with
  | some group =>
    rw [candidates_of_some hraw h hget, (perm_rankCandidates group).mem_iff, mem_group_iff hget]
    have hsome : ¬ ∀ t ∈ values, t.IsCallee name → t.inModule ≠ owner := by
      rw [← get?_symbolIndex_eq_none_iff, hget]
      exact Option.some_ne_none group
    simp only [hsome, false_and, or_false]
  | none =>
    have hnone := get?_symbolIndex_eq_none_iff.mp hget
    rw [candidates_of_none hraw h hget, (perm_rankCandidates _).mem_iff, globalCandidates_eq]
    constructor
    · intro hs
      split at hs
      next hshared =>
        obtain ⟨hvalue, hcallee⟩ := mem_namedIn_iff.mp hs
        exact ⟨hvalue, hcallee,
          .inr ⟨hnone, fun t ht hname => hshared t (mem_namedIn_iff.mpr ⟨ht, hname⟩) s hs⟩⟩
      next => cases hs
    · rintro ⟨hvalue, hcallee, howner | ⟨-, hshared⟩⟩
      · exact absurd howner (hnone s hvalue hcallee)
      · have hsame {t : Symbol} (ht : t ∈ namedIn (symbolIndex values) name) :
            t.qualname = s.qualname :=
          hshared t (mem_namedIn_iff.mp ht).1 (mem_namedIn_iff.mp ht).2
        rw [if_pos fun a ha b hb => (hsame ha).trans (hsame hb).symm]
        exact mem_namedIn_iff.mpr ⟨hvalue, hcallee⟩

/-- **Only the functions and classes with the name matter**, in whatever order they come. -/
theorem mem_candidates_congr {others : List Symbol} (hraw : raw ≠ unknownCallee)
    (h : Denotes module raw owner name) (hsame : ∀ t, t.IsCallee name → (t ∈ others ↔ t ∈ values)) :
    s ∈ candidates (symbolIndex others) module raw ↔
      s ∈ candidates (symbolIndex values) module raw := by
  have hall (P : Symbol → Prop) : (∀ t ∈ others, t.IsCallee name → P t) ↔
      ∀ t ∈ values, t.IsCallee name → P t := by
    constructor
    · exact fun hothers t ht hcallee => hothers t ((hsame t hcallee).mpr ht) hcallee
    · exact fun hvalues t ht hcallee => hvalues t ((hsame t hcallee).mp ht) hcallee
  rw [mem_candidates_iff hraw h, mem_candidates_iff hraw h, hall, hall, ← and_assoc, ← and_assoc,
    and_congr_left' (and_congr_left fun hcallee => hsame s hcallee)]

/-! ## Order -/

theorem pairwise_candidates (values : List Symbol) (hraw : raw ≠ unknownCallee)
    (h : Denotes module raw owner name) :
    (candidates (symbolIndex values) module raw).Pairwise Symbol.MayPrecede := by
  cases hget : (symbolIndex values).get? (owner, name) with
  | some group =>
    rw [candidates_of_some hraw h hget]
    exact pairwise_rankCandidates group
  | none =>
    rw [candidates_of_none hraw h hget]
    exact pairwise_rankCandidates _

/-- In an index, the symbols with a name keep their order within a module. -/
theorem filter_namedIn_sublist (values : List Symbol) (name owner : String) :
    ((namedIn (symbolIndex values) name).filter fun s => s.inModule = owner).Sublist values := by
  have hkey : ((namedIn (symbolIndex values) name).filter fun s => s.inModule = owner) =
      (namedIn (symbolIndex values) name).filter fun s => (s.inModule, s.name) = (owner, name) := by
    refine List.filter_congr fun s hs => ?_
    rw [decide_eq_decide, Prod.mk.injEq, and_iff_left (mem_namedIn_iff.mp hs).2.2]
  have hall : (namedIn (symbolIndex values) name).Sublist
      ((symbolIndex values).entries.flatMap Prod.snd) :=
    List.filter_sublist.flatMap Prod.snd
  rw [hkey]
  refine (hall.filter _).trans ?_
  rw [symbolIndex, Table.filter_groupBy]
  exact List.filter_sublist.trans List.filter_sublist

/-- **Equals keep the order of the symbols** within a module. -/
theorem filter_candidates_sublist (values : List Symbol) (hraw : raw ≠ unknownCallee)
    (h : Denotes module raw owner name) (other : String) (callable stub : Bool) :
    ((candidates (symbolIndex values) module raw).filter fun s =>
      s.inModule = other ∧ s.kind.isCallable = callable ∧ s.isStub = stub).Sublist values := by
  have hrank (a b : Symbol)
      (ha : decide (a.inModule = other ∧ a.kind.isCallable = callable ∧ a.isStub = stub) = true)
      (hb : decide (b.inModule = other ∧ b.kind.isCallable = callable ∧ b.isStub = stub) = true) :
      candidateRank a = candidateRank b := by
    obtain ⟨-, hcallable, hstub⟩ := of_decide_eq_true ha
    obtain ⟨-, hcallable', hstub'⟩ := of_decide_eq_true hb
    rw [candidateRank, candidateRank, hcallable, hcallable', hstub, hstub']
  cases hget : (symbolIndex values).get? (owner, name) with
  | some group =>
    rw [candidates_of_some hraw h hget, filter_rankCandidates hrank,
      Table.eq_filter_of_mem_groupBy (Table.get?_eq_some_iff.mp hget)]
    exact (List.filter_sublist.trans List.filter_sublist).trans List.filter_sublist
  | none =>
    rw [candidates_of_none hraw h hget, filter_rankCandidates hrank, globalCandidates_eq]
    split
    · refine (List.monotone_filter_right _ fun s hs => ?_).trans
        (filter_namedIn_sublist values name other)
      exact decide_eq_true (of_decide_eq_true hs).1
    · exact List.nil_sublist values

end

/-! ## The candidates of a call -/

/-- The functions and classes with a name go by one qualified name. -/
def ShareQualname (values : List Symbol) (name : String) : Prop :=
  ∀ a ∈ values, ∀ b ∈ values, a.IsCallee name → b.IsCallee name → a.qualname = b.qualname

/-- **Callee resolution.** Let a table hold symbols under their identifiers, and let a callee, other
than the unknown one, denote a name in a module. Its candidates have different identifiers; they are
functions and classes of the table with this name; functions come before classes and implementations
before stubs, and equals of one module keep the order of the table. Another table with the same
symbols of this name, in whatever order and whatever else it holds, gives the same candidates. If
functions or classes of the module have the name, the candidates are exactly those; otherwise they
are all functions and classes with the name, if these share one qualified name, and there are none
if they do not. -/
theorem candidates_exact {symbols : Table String Symbol} (hkeyed : Keyed symbols) {raw : String}
    (hraw : raw ≠ unknownCallee) (module : String) :
    ∃ owner name, Denotes module raw owner name ∧
      let found := candidates (symbolIndex symbols.values) module raw
      (found.map Symbol.id).Nodup ∧
      (∀ s ∈ found, s ∈ symbols.values ∧ s.IsCallee name) ∧
      found.Pairwise Symbol.MayPrecede ∧
      (∀ other callable stub, (found.filter fun s =>
        s.inModule = other ∧ s.kind.isCallable = callable ∧
          s.isStub = stub).Sublist symbols.values) ∧
      (∀ others : Table String Symbol,
        (∀ s, s.IsCallee name → (s ∈ others.values ↔ s ∈ symbols.values)) →
        ∀ s, s ∈ candidates (symbolIndex others.values) module raw ↔ s ∈ found) ∧
      ((∃ s ∈ symbols.values, s.IsCallee name ∧ s.inModule = owner) →
        ∀ s, s ∈ found ↔ s ∈ symbols.values ∧ s.IsCallee name ∧ s.inModule = owner) ∧
      ((¬ ∃ s ∈ symbols.values, s.IsCallee name ∧ s.inModule = owner) →
        (ShareQualname symbols.values name → ∀ s, s ∈ found ↔
          s ∈ symbols.values ∧ s.IsCallee name) ∧
        (¬ ShareQualname symbols.values name → found = [])) := by
  obtain ⟨owner, name, h⟩ := exists_denotes module raw
  refine ⟨owner, name, h, ?_⟩
  intro found
  have hfound {s : Symbol} : s ∈ found ↔ _ := mem_candidates_iff hraw h
  refine ⟨hkeyed.nodup_candidates module raw, fun s hs => ?_, pairwise_candidates _ hraw h,
    filter_candidates_sublist _ hraw h, fun others hothers s => mem_candidates_congr hraw h hothers,
    fun hsome s => ?_, fun hnone => ?_⟩
  · obtain ⟨hvalue, hcallee, -⟩ := hfound.mp hs
    exact ⟨hvalue, hcallee⟩
  · have hnotNone : ¬ ∀ t ∈ symbols.values, t.IsCallee name → t.inModule ≠ owner := by
      obtain ⟨t, ht, hcallee, howner⟩ := hsome
      exact fun hnone => hnone t ht hcallee howner
    rw [hfound]
    simp only [hnotNone, false_and, or_false]
  · have hnowhere : ∀ t ∈ symbols.values, t.IsCallee name → t.inModule ≠ owner :=
      fun t ht hcallee howner => hnone ⟨t, ht, hcallee, howner⟩
    constructor
    · intro hshare s
      rw [hfound]
      constructor
      · rintro ⟨hvalue, hcallee, -⟩
        exact ⟨hvalue, hcallee⟩
      · rintro ⟨hvalue, hcallee⟩
        exact ⟨hvalue, hcallee,
          .inr ⟨hnowhere, fun t ht hname => hshare t ht s hvalue hname hcallee⟩⟩
    · intro hshare
      rw [List.eq_nil_iff_forall_not_mem]
      intro s hs
      obtain ⟨hvalue, hcallee, howner | ⟨-, hsame⟩⟩ := hfound.mp hs
      · exact hnowhere s hvalue hcallee howner
      · exact hshare fun a ha b hb hname hname' => (hsame a ha hname).trans (hsame b hb hname').symm

/-- The function `f` of a module `m`, as it stands in a file. -/
def functionInM (id file : String) : Symbol where
  id := id
  kind := .function
  name := "f"
  qualname := "m.f"
  inModule := "m"
  file := Path.ofString file

/-- The stub of a function before the function, a module of the same name, and a class. -/
def stubbed : Table String Symbol where
  entries := [("stub:m.f", functionInM "stub:m.f" "m.pyi"), ("m.f", functionInM "m.f" "m.py"),
    ("f", { id := "f", kind := .wholeModule, name := "f", qualname := "f", inModule := "f",
            file := Path.ofString "f.py" }),
    ("n.C", { id := "n.C", kind := .classLike, name := "C", qualname := "n.C", inModule := "n",
              file := Path.ofString "n.py" })]
  nodup := by decide

/-- No module `x` declares `f`, but `x.f` is taken for the only function of this name, with its stub
behind it. -/
theorem candidates_exact_stubbed :
    Keyed stubbed ∧ "x.f" ≠ unknownCallee ∧
      let found := candidates (symbolIndex stubbed.values) "n" "x.f"
      found.Pairwise Symbol.MayPrecede ∧
        ∀ s, s ∈ found ↔ s = functionInM "stub:m.f" "m.pyi" ∨ s = functionInM "m.f" "m.py" := by
  have hkeyed : Keyed stubbed := by
    have hids : ∀ e ∈ stubbed.entries, e.2.id = e.1 := by decide
    exact fun id s h => hids (id, s) h
  have hraw : "x.f" ≠ unknownCallee := by decide
  obtain ⟨owner, name, hdenotes, -, -, hordered, -, -, -, hglobal⟩ :=
    candidates_exact hkeyed hraw "n"
  obtain ⟨howner, hname⟩ := hdenotes.splitCallee
  obtain rfl : "x" = owner := howner
  obtain rfl : "f" = name := hname
  have hnowhere : ∀ s ∈ stubbed.values, s.inModule ≠ "x" := by decide
  have hcallees : ∀ s, s ∈ stubbed.values ∧ s.IsCallee "f" ↔
      s = functionInM "stub:m.f" "m.pyi" ∨ s = functionInM "m.f" "m.py" := by
    have hsound : ∀ s ∈ stubbed.values, s.IsCallee "f" →
        s = functionInM "stub:m.f" "m.pyi" ∨ s = functionInM "m.f" "m.py" := by
      decide
    intro s
    constructor
    · exact fun h => hsound s h.1 h.2
    · rintro (rfl | rfl)
      · decide
      · decide
  have hshare : ShareQualname stubbed.values "f" := by
    intro a ha b hb hcallee hcallee'
    have hqualname {s : Symbol} (hs : s ∈ stubbed.values) (h : s.IsCallee "f") :
        s.qualname = "m.f" := by
      rcases (hcallees s).mp ⟨hs, h⟩ with rfl | rfl
      · rfl
      · rfl
    rw [hqualname ha hcallee, hqualname hb hcallee']
  refine ⟨hkeyed, hraw, hordered, fun s => ?_⟩
  rw [← hcallees]
  refine (hglobal ?_).1 hshare s
  rintro ⟨t, ht, -, hx⟩
  exact hnowhere t ht hx

end CallAtlas
