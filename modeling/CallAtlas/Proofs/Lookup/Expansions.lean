import CallAtlas.Proofs.Lookup.Dual
import CallAtlas.Proofs.Lookup.Selections

/-!
# Both expansions list the same calls

A project has one record of calls, and two questions are answered from it: what a declaration calls
and what calls it. Each answer groups some calls of the record by the symbol at their other end.
Nothing is lost on the way, because every symbol that a call mentions is known
(`Project.mem_keys_of_mem_calls`), and no group is confused with another, because the items of
different symbols differ (`Project.eq_of_itemOf_eq`). So each answer lists the symbols that are
related, each of them once and with the offsets of its calls (`Project.Lists`), and the two answers
agree on every pair (`Project.outgoing_dual_incoming`).

That items differ does not rest on names, which may be found at a place that is not theirs, but on
where definitions begin: no two begin at the same offset of a source (`Source.Passed.starts`).
-/

namespace CallAtlas

open Source Text

/-! ## Where definitions begin -/

namespace Source

variable {source : List Char} {all ts ts' : List Token} {ds : List Mark} {d d' : Mark}

/-- The word with which a definition begins. If it is `async`, another one stands between it and the
name. -/
theorem Begins.exists_opening (h : Begins all d ts) :
    ∃ t u w, t :: u <:+ all ∧ t.lexeme = .word w ∧ d.start = t.extent.start ∧
      ts = if w = "async".toList then u.tail else u := by
  cases h with
  | @line k t ts kind w hopens hkeyword hname =>
    refine ⟨k, t :: ts, _, hopens.suffix, hkeyword, rfl, ?_⟩
    -- `async` is not a keyword of its own, so the two forms cannot be taken for each other.
    rw [if_neg]
    cases kind <;> decide
  | @async a k t ts w hopens hasync hkeyword hname =>
    exact ⟨a, k :: t :: ts, _, hopens.suffix, hasync, rfl, rfl⟩

/-- Definitions that begin at the same offset have the same name, at the same place. -/
theorem Begins.eq_of_start_eq (hr : '\r' ∉ source) (h : tokens? source = some all)
    (hd : Begins all d ts) (hd' : Begins all d' ts')
    (heq : (LineIndex.ofText source).offsetAt d.start =
      (LineIndex.ofText source).offsetAt d'.start) : ts = ts' := by
  obtain ⟨t, u, w, hsuffix, hword, hstart, rfl⟩ := hd.exists_opening
  obtain ⟨t', u', w', hsuffix', hword', hstart', rfl⟩ := hd'.exists_opening
  rw [hstart, hstart'] at heq
  obtain ⟨rfl, rfl⟩ := List.cons.inj (eq_of_offsetAt_eq hr h hsuffix hsuffix' hword hword' heq)
  cases hword.symm.trans hword'
  rfl

/-- **No two definitions of a source begin at the same offset.** The name of each lies before the
tokens that are left, so none of those to come has it. -/
theorem Passed.starts (hr : '\r' ∉ source) (h : tokens? source = some all)
    (hds : Passed all ds ts) :
    (ds.map fun d => (LineIndex.ofText source).offsetAt d.start).Nodup ∧
      ∀ d ∈ ds, ∃ t rest, Begins all d (t :: rest) ∧ ts <:+ rest := by
  induction hds with
  | start => exact ⟨.nil, List.forall_mem_nil _⟩
  | @mark ds d t rest ts hds hd hts ih =>
    obtain ⟨hnodup, hbegins⟩ := ih
    constructor
    · rw [List.map_append, List.map_singleton, List.nodup_append_comm, List.singleton_append,
        List.nodup_cons]
      refine ⟨fun hmem => ?_, hnodup⟩
      obtain ⟨d', hd', heq⟩ := List.mem_map.mp hmem
      obtain ⟨t', rest', hbegin, hbehind⟩ := hbegins d' hd'
      -- With the same start both have the same name, but the new one lies behind the old.
      have hsame : t :: rest = t' :: rest' := hd.eq_of_start_eq hr h hbegin heq.symm
      rw [hsame] at hbehind
      have hlength := hbehind.length_le
      rw [List.length_cons] at hlength
      omega
    · rw [List.forall_mem_append, List.forall_mem_singleton]
      refine ⟨fun d' hd' => ?_, t, rest, hd, hts⟩
      obtain ⟨t', rest', hbegin, hbehind⟩ := hbegins d' hd'
      exact ⟨t', rest', hbegin, (hts.trans (List.suffix_cons t rest)).trans hbehind⟩

end Source

/-! ## Items of different symbols -/

theorem SymbolKind.text_injective : Function.Injective SymbolKind.text := by
  intro kind kind' h
  cases kind <;> cases kind' <;> first | rfl | exact absurd h (by decide)

theorem Source.DefinitionKind.symbolKind_ne_wholeModule (kind : DefinitionKind)
    (outer : List (String × SymbolKind)) :
    kind.symbolKind outer ≠ .wholeModule := by
  unfold symbolKind
  split
  · exact SymbolKind.noConfusion
  · split <;> exact SymbolKind.noConfusion

namespace SourceFile

variable {fs : FileSystem} {root path : Path} {f : SourceFile} {s s' : Symbol}

theorem nodup_spanStart (h : readSource fs root path = .ok f) :
    ((declarations f.path f.index [] f.tree).map Symbol.spanStart).Nodup := by
  obtain ⟨text, body, extent, hr, hindex, hbody, htree⟩ := exists_statements_of_readSource h
  obtain ⟨all, ts, hall, hpassed⟩ := exists_passed_of_statements? hbody
  rw [map_declarations (m := fun d => f.index.offsetAt d.start) fun _ _ _ => rfl, hindex, htree,
    Node.marks_other]
  exact (hpassed.starts hr hall).1

/-- The symbols of a file are told apart by their kind and their start. -/
theorem HasSymbol.eq_of_spanStart_eq (h : readSource fs root path = .ok f) (hs : f.HasSymbol s)
    (hs' : f.HasSymbol s')
    (hkind : s.kind = s'.kind) (heq : s.spanStart = s'.spanStart) : s = s' := by
  -- A definition may begin where its module does, at the start of the text, but it is of another
  -- kind.
  have hdefined {s : Symbol} (hs : s ∈ declarations f.path f.index [] f.tree) :
      s.kind ≠ .wholeModule := by
    obtain ⟨inside, head, extent, rfl⟩ := exists_definition_of_mem_declarations f.tree hs
    exact head.kind.symbolKind_ne_wholeModule inside
  rcases hs with rfl | hs <;> rcases hs' with rfl | hs'
  · rfl
  · exact absurd hkind.symm (hdefined hs')
  · exact absurd hkind (hdefined hs)
  · exact List.inj_on_of_nodup_map (nodup_spanStart h) hs hs' heq

end SourceFile

namespace Project

variable {fs : FileSystem} {root : Path} {config : ScanConfig} {p : Project} {s s' : Symbol}

/-- **Different symbols have different items**, even where an item does not lead back to its
symbol. -/
theorem eq_of_itemOf_eq (h : indexProject fs root config = .ok p) (hs : s ∈ p.symbols.values)
    (hs' : s' ∈ p.symbols.values) (heq : p.itemOf s = p.itemOf s') : s = s' := by
  obtain ⟨path, -, f, hread, hsymbol, hsymbol'⟩ :=
    exists_source_of_file_eq h hs hs' (congrArg Item.file heq)
  have hkind : s.kind = s'.kind := SymbolKind.text_injective (congrArg Item.kind heq)
  have hstart : s.spanStart = s'.spanStart := Int.ofNat.inj (congrArg Item.spanStart heq)
  exact hsymbol.eq_of_spanStart_eq hread hsymbol' hkind hstart

/-! ## Nothing is left out -/

/-- Every symbol that a recorded call mentions is known. -/
theorem mem_keys_of_mem_calls (h : indexProject fs root config = .ok p) {call : Call}
    (hcall : call ∈ p.calls) :
    call.caller ∈ p.symbols.keys ∧ ∀ id, call.callee? = some id → id ∈ p.symbols.keys := by
  obtain ⟨-, -, files, -, hp⟩ := indexProject_eq_ok_iff.mp h
  rw [hp] at hcall ⊢
  obtain ⟨f, hf, hcall⟩ := List.mem_flatMap.mp hcall
  obtain ⟨hf, hsuffix⟩ := List.mem_filter.mp hf
  obtain ⟨inside, callee, arguments, extent, hwithin, hrecords⟩ :=
    exists_within_of_mem_callsOf hcall
  constructor
  · rw [hrecords.caller]
    exact mem_keys_of_declares hf
      (declares_of_within (beq_iff_eq.mp hsuffix) hwithin List.prefix_rfl)
  · intro id hid
    exact (candidates_of_mem_callsOf (keyed_symbols p.root files) hcall).1 id
      (List.mem_of_head? hid)

/-- The other end of every call of a symbol is known. -/
theorem exists_otherEnd (h : indexProject fs root config = .ok p)
    {direction : Direction} {call : Call} (hcall : call ∈ p.callsAt s direction) :
    ∃ id s', otherEnd direction call = some id ∧ p.symbols.get? id = some s' := by
  have hknown {id : String} (hid : id ∈ p.symbols.keys) : ∃ s', p.symbols.get? id = some s' := by
    obtain ⟨s', hs'⟩ := Table.mem_keys_iff.mp hid
    exact ⟨s', Table.get?_eq_some_iff.mpr hs'⟩
  cases direction with
  | outgoing =>
    obtain ⟨hmem, hends⟩ := List.mem_filter.mp hcall
    obtain ⟨id, hid⟩ := Option.isSome_iff_exists.mp (of_decide_eq_true hends).2
    obtain ⟨s', hs'⟩ := hknown ((mem_keys_of_mem_calls h hmem).2 id hid)
    exact ⟨id, s', hid, hs'⟩
  | incoming =>
    obtain ⟨s', hs'⟩ := hknown (mem_keys_of_mem_calls h (List.mem_of_mem_filter hcall)).1
    exact ⟨call.caller, s', rfl, hs'⟩

/-- If all keys are known, the relations hold the offsets of all calls that are located, each as
often as it was recorded. -/
theorem perm_offsets_relations {key : Call → Option String} {calls : List Call}
    (hknown : ∀ call ∈ calls, ∃ id s, key call = some id ∧ p.symbols.get? id = some s) :
    ((p.relations key calls).flatMap Relation.offsets).Perm (located calls) := by
  have hoffsets : (p.relations key calls).flatMap Relation.offsets =
      located ((Table.groupBy key calls).keys.flatMap fun k => calls.filter fun c =>
        key c = k) := by
    rw [relations_eq_filterMap, List.filterMap_eq_flatMap_toList, List.flatMap_assoc, located,
      List.filterMap_flatMap]
    refine List.flatMap_congr fun k hk => ?_
    -- The key of a group is that of a call, so its symbol is known and the group is not dropped.
    obtain ⟨call, hcall, rfl⟩ := Table.mem_keys_groupBy.mp hk
    obtain ⟨id, s, hkey, hs⟩ := hknown call hcall
    rw [hkey, Option.bind_some, hs, Option.map_some, Option.toList_some, List.flatMap_singleton]
    rfl
  rw [hoffsets]
  exact (Table.perm_flatMap_filter (Table.groupBy key calls).nodup fun call hcall =>
    Table.mem_keys_groupBy.mpr ⟨call, hcall, rfl⟩).filterMap _

/-! ## What an expansion lists -/

/-- The offsets of the calls from one symbol to another that are located, in the order of the
record. -/
def offsetsBetween (p : Project) (caller callee : Symbol) : List Int :=
  located (p.calls.filter fun c => c.caller = caller.id ∧ c.callee? = some callee.id)

/-- The same, seen from one end in a direction. -/
def offsetsTo (p : Project) : Direction → Symbol → Symbol → List Int
  | .outgoing => p.offsetsBetween
  | .incoming => fun callee caller => p.offsetsBetween caller callee

/-- Relations list some symbols: each of them in exactly one relation and with its own offsets, and
no other. -/
structure Lists (p : Project) (relations : List Relation) (listed : Symbol → Prop)
    (offsets : Symbol → List Int) :
    Prop where
  once : ∀ s, listed s → (relations.map Relation.item).count (p.itemOf s) = 1
  only : ∀ relation ∈ relations, ∃ s, listed s ∧ relation = ⟨p.itemOf s, offsets s⟩

theorem located_filter_callsAt (p : Project) (s s' : Symbol) (direction : Direction) :
    located ((p.callsAt s direction).filter fun c => otherEnd direction c = some s'.id) =
      p.offsetsTo direction s s' := by
  cases direction with
  | outgoing =>
    show located ((p.calls.filter _).filter fun c => c.callee? = some s'.id) =
        located (p.calls.filter _)
    rw [List.filter_filter]
    congr 1
    refine List.filter_congr fun c _ => ?_
    by_cases hcallee : c.callee? = some s'.id
    · simp [hcallee]
    · simp [hcallee]
  | incoming =>
    show located ((p.calls.filter _).filter fun c => some c.caller = some s'.id) =
        located (p.calls.filter _)
    rw [List.filter_filter]
    simp

/-- The relations of an expansion are about different items, since they have different keys. -/
theorem nodup_items_relations (h : indexProject fs root config = .ok p) (key : Call → Option String)
    (calls : List Call) : ((p.relations key calls).map Relation.item).Nodup := by
  rw [relations_eq_filterMap, List.map_filterMap]
  refine (Table.groupBy key calls).nodup.filterMap fun k k' item hk hk' => ?_
  -- An item tells its symbol and thereby the key.
  have hkey {k : Option String}
      (hitem : item ∈ ((k.bind p.symbols.get?).map fun s =>
        (⟨p.itemOf s, located (calls.filter fun c => key c = k)⟩ : Relation)).map Relation.item) :
      ∃ s ∈ p.symbols.values, k = some s.id ∧ item = p.itemOf s := by
    rw [Option.map_map] at hitem
    obtain ⟨s, hs, rfl⟩ := Option.map_eq_some_iff.mp hitem
    obtain ⟨id, rfl, hs⟩ := Option.bind_eq_some_iff.mp hs
    exact ⟨s, mem_values_of_get? hs, congrArg some (id_of_get? h hs).symm, rfl⟩
  obtain ⟨s, hs, rfl, rfl⟩ := hkey hk
  obtain ⟨s', hs', rfl, heq⟩ := hkey hk'
  rw [eq_of_itemOf_eq h hs hs' heq]

/-- **An expansion lists the related symbols.** -/
theorem lists_relations (h : indexProject fs root config = .ok p) (hs : s ∈ p.symbols.values)
    (direction : Direction) :
    p.Lists (p.relations (otherEnd direction) (p.callsAt s direction)) (p.Related direction s)
      (p.offsetsTo direction s) where
  once s' hrelated := by
    obtain ⟨hs', call, hcall, hend⟩ := (related_iff hs).mp hrelated
    obtain ⟨relation, hrelation, hitem⟩ := exists_mem_relations_iff.mpr
      ⟨call, hcall, s'.id, s', hend, get?_id_of_mem_values h hs', rfl⟩
    refine List.count_eq_one_of_mem (nodup_items_relations h _ _) ?_
    exact List.mem_map.mpr ⟨relation, hrelation, hitem⟩
  only relation hrelation := by
    rw [relations_eq_filterMap] at hrelation
    obtain ⟨k, hk, hrelation⟩ := List.mem_filterMap.mp hrelation
    obtain ⟨s', hs', rfl⟩ := Option.map_eq_some_iff.mp hrelation
    obtain ⟨id, rfl, hs'⟩ := Option.bind_eq_some_iff.mp hs'
    obtain ⟨call, hcall, hend⟩ := Table.mem_keys_groupBy.mp hk
    obtain rfl := id_of_get? h hs'
    refine ⟨s', (related_iff hs).mpr ⟨mem_values_of_get? hs', call, hcall, hend⟩, ?_⟩
    rw [located_filter_callsAt]

/-- A relation about a symbol is there exactly if the symbol is listed, with its offsets. -/
theorem Lists.mem_iff (h : indexProject fs root config = .ok p) {relations : List Relation}
    {listed : Symbol → Prop}
    {offsets : Symbol → List Int} (hlists : p.Lists relations listed offsets)
    (hlisted : ∀ s, listed s → s ∈ p.symbols.values) (hs : s ∈ p.symbols.values)
    {found : List Int} :
    ⟨p.itemOf s, found⟩ ∈ relations ↔ listed s ∧ found = offsets s := by
  have honly {relation : Relation} (hmem : relation ∈ relations)
      (hitem : relation.item = p.itemOf s) :
      listed s ∧ relation.offsets = offsets s := by
    obtain ⟨s', hs', rfl⟩ := hlists.only relation hmem
    obtain rfl := eq_of_itemOf_eq h (hlisted s' hs') hs hitem
    exact ⟨hs', rfl⟩
  constructor
  · intro hmem
    exact honly hmem rfl
  · rintro ⟨hlist, rfl⟩
    have hcount : 0 < (relations.map Relation.item).count (p.itemOf s) := by
      rw [hlists.once s hlist]
      exact Nat.one_pos
    obtain ⟨relation, hmem, hitem⟩ := List.mem_map.mp (List.count_pos_iff.mp hcount)
    obtain ⟨-, hoffsets⟩ := honly hmem hitem
    rw [← hitem, ← hoffsets]
    exact hmem

theorem mem_values_of_symbolFor {item : Item} (h : p.symbolFor fs item = .ok s) :
    s ∈ p.symbols.values := by
  rw [symbolFor_of_relative (relative_of_symbolFor h)] at h
  split at h
  next found hfound =>
    cases h
    exact List.mem_of_mem_filter (List.mem_of_getLast? hfound)
  next => cases h

/-- **Outgoing and incoming calls are the same calls.** Let `a` and `b` be symbols of a project that
are recovered from their own items. The declarations that `a` calls include `b` with some offsets
exactly if those that call `b` include `a` with the same offsets. Both answers list the symbols that
are related by a recorded call, each in one relation, and with the offsets of all calls between the
two in the order of the record. Taken together, the offsets of an answer are those of the calls that
it is about, with none missing and none added. -/
theorem outgoing_dual_incoming (h : indexProject fs root config = .ok p) {a b : Symbol}
    (ha : p.symbolFor fs (p.itemOf a) = .ok a) (hb : p.symbolFor fs (p.itemOf b) = .ok b) :
    ∃ out inc, p.outgoing fs (p.itemOf a) = .ok out ∧ p.incoming fs (p.itemOf b) = .ok inc ∧
      (∀ offsets, ⟨p.itemOf b, offsets⟩ ∈ out ↔ ⟨p.itemOf a, offsets⟩ ∈ inc) ∧
      p.Lists out (p.Calls a) (p.offsetsBetween a) ∧
      p.Lists inc (p.Calls · b) (p.offsetsBetween · b) ∧
      (out.flatMap Relation.offsets).Perm
        (located (p.calls.filter fun c => c.caller = a.id ∧ c.callee?.isSome)) ∧
      (inc.flatMap Relation.offsets).Perm
        (located (p.calls.filter fun c => c.callee? = some b.id)) := by
  have hmem := mem_values_of_symbolFor ha
  have hmem' := mem_values_of_symbolFor hb
  have hout := lists_relations h hmem .outgoing
  have hinc := lists_relations h hmem' .incoming
  refine ⟨_, _, expand_of_symbolFor ha .outgoing, expand_of_symbolFor hb .incoming, fun offsets =>
    ?_, hout, hinc, perm_offsets_relations fun call hcall => exists_otherEnd h hcall,
    perm_offsets_relations fun call hcall => exists_otherEnd h hcall⟩
  rw [hout.mem_iff h (fun s hs => hs.mem_values.2) hmem',
    hinc.mem_iff h (fun s hs => hs.mem_values.2) hmem]
  rfl

/-- Two functions that call each other, one of them also itself. What a call returns is called as
well, which is recorded without a callee. -/
def recursing : FileSystem where
  entries := [("w", .directory
    [("m.py", .file "def f():\n    g()\n    g()\n    f()\n\ndef g():\n    f()()\n".toUTF8)])]

/-- Seen from either end, `f` calls `g` at 13 and at 21. -/
theorem outgoing_dual_incoming_recursing :
    ∃ p f g out inc, indexProject recursing ⟨"/", ["w"]⟩ {} = .ok p ∧
      p.symbolFor recursing (p.itemOf f) = .ok f ∧
      p.symbolFor recursing (p.itemOf g) = .ok g ∧ p.outgoing recursing (p.itemOf f) = .ok out ∧
      p.incoming recursing (p.itemOf g) = .ok inc ∧ ⟨p.itemOf g, [13, 21]⟩ ∈ out ∧
      ⟨p.itemOf f, [13, 21]⟩ ∈ inc ∧
      (out.flatMap Relation.offsets).Perm [13, 21, 29] := by
  have hproper : recursing.Proper := by decide +kernel
  have hfree : recursing.LinkFree ["w"] := FileSystem.linkFree_of_entryAt? rfl rfl
  have hroot : recursing.resolve ⟨"/", ["w"]⟩ = .ok ⟨"/", ["w"]⟩ :=
    FileSystem.resolve_of_canonical rfl rfl ⟨hfree, by decide⟩
  have hcontent :
      ((recursing.sourceFiles {} ⟨"/", ["w"]⟩).mapM (readSource recursing ⟨"/", ["w"]⟩)).map
        (fun files =>
      let p := projectOf ⟨"/", ["w"]⟩ files
      decide (∃ f ∈ p.symbols.values, ∃ g ∈ p.symbols.values,
        p.declaredAt? f.file f.selectionStart = some f ∧
        p.declaredAt? g.file g.selectionStart = some g ∧
        ⟨p.itemOf g, [13, 21]⟩ ∈ p.relations (otherEnd .outgoing) (p.callsAt f .outgoing) ∧
        located (p.callsAt f .outgoing) = [13, 21, 29])) = .ok true := by
    decide +kernel
  cases hread :
    (recursing.sourceFiles {} ⟨"/", ["w"]⟩).mapM (readSource recursing ⟨"/", ["w"]⟩) with
  | error e =>
    rw [hread] at hcontent
    cases hcontent
  | ok files =>
    rw [hread] at hcontent
    obtain ⟨f, hf, g, hg, hfoundF, hfoundG, hrelation, hoffsets⟩ :=
      of_decide_eq_true (Except.ok.inj hcontent)
    have hp : indexProject recursing ⟨"/", ["w"]⟩ {} = .ok (projectOf ⟨"/", ["w"]⟩ files) :=
      indexProject_of_mapM hroot (by decide +kernel) hread
    have hrecovers {s : Symbol} (hs : s ∈ (projectOf ⟨"/", ["w"]⟩ files).symbols.values)
        (hfound : (projectOf ⟨"/", ["w"]⟩ files).declaredAt? s.file s.selectionStart = some s) :
        (projectOf ⟨"/", ["w"]⟩ files).symbolFor recursing
          ((projectOf ⟨"/", ["w"]⟩ files).itemOf s) = .ok s := by
      rw [symbolFor_of_relative (relative_itemOf hproper rfl hp hfree hs)]
      simp only [itemOf, hfound]
    obtain ⟨out, inc, hout, hinc, hdual, -, -, hperm, -⟩ :=
      outgoing_dual_incoming hp (hrecovers hf hfoundF) (hrecovers hg hfoundG)
    cases hout.symm.trans (expand_of_symbolFor (hrecovers hf hfoundF) .outgoing)
    refine ⟨_, f, g, _, inc, hp, hrecovers hf hfoundF, hrecovers hg hfoundG, hout, hinc, hrelation,
      (hdual [13, 21]).mp hrelation, ?_⟩
    rw [← hoffsets]
    exact hperm

end Project

end CallAtlas
