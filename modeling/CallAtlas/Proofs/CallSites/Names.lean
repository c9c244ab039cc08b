import CallAtlas.CallSite
import CallAtlas.Proofs.Indexing
import CallAtlas.Proofs.Layout.Statements
import CallAtlas.Proofs.Source.Addresses

/-!
# Call sites point at names

The call sites of a text are its callees, as far as their names are found (`callSites_forget`). A
name is searched for from the end of its callee, so what is found are the last characters there that
read like it (`CallSite.PointsAtName`). That something is found at all, and not merely nothing at
the end, is due to the parser: it gives no callee an empty name.
-/

namespace CallAtlas

open Source Text

/-! ## The last occurrence -/

namespace Text

variable {pattern cs : List Char} {i j : Nat}

theorem prefix_of_findLast? (h : findLast? pattern cs = some i) : pattern <+: cs.drop i := by
  induction cs generalizing i with
  | nil =>
    rw [findLast?] at h
    split at h
    next hempty => exact List.isEmpty_iff.mp hempty ▸ List.nil_prefix
    next => cases h
  | cons c cs ih =>
    rw [findLast?] at h
    split at h
    next found hfound =>
      cases h
      exact ih hfound
    next =>
      split at h
      next hstarts =>
        cases h
        exact List.isPrefixOf_iff_prefix.mp hstarts
      next => cases h

theorem not_prefix_of_findLast?_eq_none (h : findLast? pattern cs = none) :
    ¬ pattern <+: cs.drop j := by
  induction cs generalizing j with
  | nil =>
    rw [findLast?] at h
    split at h
    next => cases h
    next hempty =>
      rw [List.drop_nil, List.prefix_nil]
      exact fun hnil => hempty (List.isEmpty_iff.mpr hnil)
  | cons c cs ih =>
    rw [findLast?] at h
    split at h
    next => cases h
    next hnone =>
      split at h
      next => cases h
      next hstarts =>
        cases j with
        | zero => exact fun hreads => hstarts (List.isPrefixOf_iff_prefix.mpr hreads)
        | succ j => exact ih hnone

/-- Behind the last occurrence there is no other. -/
theorem not_prefix_of_findLast? (h : findLast? pattern cs = some i) (hlt : i < j)
    (hle : j ≤ cs.length) :
    ¬ pattern <+: cs.drop j := by
  induction cs generalizing i j with
  | nil => exact absurd hle (by simp; omega)
  | cons c cs ih =>
    obtain ⟨j, rfl⟩ := Nat.exists_eq_succ_of_ne_zero (Nat.ne_zero_of_lt hlt)
    rw [List.length_cons] at hle
    rw [findLast?] at h
    split at h
    next found hfound =>
      cases h
      exact ih hfound (by omega) (by omega)
    next hnone =>
      rw [List.drop_succ_cons]
      exact not_prefix_of_findLast?_eq_none hnone

/-- What a stretch of a text reads like from within. -/
theorem LineIndex.prefix_drop_slice_iff (index : LineIndex) (start stop : Nat) :
    pattern <+: (index.slice start stop).drop i ↔
      pattern <+: index.text.drop (start + i) ∧ pattern.length ≤ stop - start - i := by
  rw [slice, List.drop_take, List.drop_drop, List.prefix_take_iff]

theorem LineIndex.length_slice {index : LineIndex} {start stop : Nat}
    (h : stop ≤ index.text.length) :
    (index.slice start stop).length = stop - start := by
  rw [slice, List.length_take, List.length_drop]
  omega

end Text

/-! ## Callees that are located -/

/-- The last occurrence of the name in the stretch of its callee. -/
def Source.Callee.locate? (index : LineIndex) (c : Callee) : Option Located :=
  (findLast? c.name.toList
    (index.slice (index.offsetAt c.extent.start) (index.offsetAt c.extent.stop))).map fun found =>
    ⟨⟨c.name, index.offsetAt c.extent.start, index.offsetAt c.extent.stop⟩,
      index.offsetAt c.extent.start + found⟩

theorem locate?_eq_bind (index : LineIndex) (callee : Node) :
    locate? index callee = callee.callee?.bind (Callee.locate? index) := by
  cases callee <;> simp [locate?, calleeSpan?, Node.callee?, Callee.locate?, Option.map_eq_bind]

theorem length_pos_of_ne_empty {s : String} (h : s ≠ "") : 0 < s.length := by
  rw [← String.length_toList, List.length_pos_iff]
  exact fun hnil => h (String.toList_eq_nil_iff.mp hnil)

/-- A callee with a name is located within its stretch. -/
theorem Source.Callee.bounds_of_locate? {index : LineIndex} {c : Callee} {l : Located}
    (hname : c.name ≠ "") (h : c.locate? index = some l) :
    index.offsetAt c.extent.start ≤ l.offset ∧
      l.offset + c.name.length ≤ index.offsetAt c.extent.stop := by
  obtain ⟨found, hfound, rfl⟩ := Option.map_eq_some_iff.mp h
  have hfits := ((index.prefix_drop_slice_iff _ _).mp (prefix_of_findLast? hfound)).2
  have hpos := length_pos_of_ne_empty hname
  rw [String.length_toList] at hfits
  exact ⟨Nat.le_add_right _ _, by simp only; omega⟩

/-- The name of a callee can be read at an offset, within the callee. -/
structure Source.Callee.ReadsAt (text : List Char) (c : Callee) (offset : Nat) : Prop where
  start_le : (LineIndex.ofText text).offsetAt c.extent.start ≤ offset
  le_stop : offset + c.name.length ≤ (LineIndex.ofText text).offsetAt c.extent.stop
  reads : c.name.toList <+: text.drop offset

/-- A callee is located if its name can be read anywhere in it. -/
theorem Source.Callee.ReadsAt.exists_locate? {text : List Char} {c : Callee} {offset : Nat}
    (h : c.ReadsAt text offset) :
    ∃ l, c.locate? (.ofText text) = some l := by
  by_contra hnot
  have hnone := Option.eq_none_iff_forall_ne_some.mpr fun l hl => hnot ⟨l, hl⟩
  obtain ⟨j, rfl⟩ := Nat.exists_eq_add_of_le h.start_le
  refine not_prefix_of_findLast?_eq_none (Option.map_eq_none_iff.mp hnone)
    ((LineIndex.prefix_drop_slice_iff _ _ _).mpr ⟨h.reads, ?_⟩)
  have hstop := h.le_stop
  rw [String.length_toList]
  omega

theorem callSitesOfAll_eq_flatMap (file : Path) (index : LineIndex) (context : List String)
    (nodes : List Node) :
    callSitesOfAll file index context nodes = nodes.flatMap (callSites file index context) := by
  induction nodes with
  | nil => rw [callSitesOfAll, List.flatMap_nil]
  | cons node rest ih => rw [callSitesOfAll, List.flatMap_cons, ih]

/-- A call site without what it knows of the definitions around it. -/
def CallSite.forget (site : CallSite) : CallSite := { site with container := none }

/-- **The call sites are the callees that are located.** -/
theorem callSites_forget (file : Path) (index : LineIndex) (context : List String) (tree : Node) :
    (callSites file index context tree).map CallSite.forget =
      (tree.callees.filterMap (Callee.locate? index)).map (CallSite.ofLocated file index []) := by
  induction tree using Node.induction_on_parts generalizing context with
  | step tree ih =>
    have hall (context : List String) {nodes : List Node} (hnodes : ∀ n ∈ nodes, n ∈ tree.parts) :
        (callSitesOfAll file index context nodes).map CallSite.forget =
          ((nodes.flatMap Node.callees).filterMap (Callee.locate? index)).map
            (CallSite.ofLocated file index []) := by
      rw [callSitesOfAll_eq_flatMap, List.map_flatMap, List.filterMap_flatMap, List.map_flatMap]
      exact List.flatMap_congr fun n hn => ih n (hnodes n hn) context
    cases tree with
    | name id extent => simp [callSites]
    | imports bindings extent => simp [callSites]
    | member receiver id extent =>
      rw [callSites, Node.callees_member]
      exact ih receiver List.mem_cons_self context
    | call callee arguments extent =>
      rw [callSites, Node.callees_call, List.map_append, List.map_append,
        ih callee List.mem_cons_self context, hall context fun n hn => List.mem_cons_of_mem _ hn,
        List.filterMap_append, List.filterMap_append,
        List.map_append, List.map_append, locate?_eq_bind]
      cases callee.callee? with
      | none => rfl
      | some c => cases hlocated :
          c.locate? index <;> simp [hlocated, CallSite.forget, CallSite.ofLocated, dotted?]
    | definition head parts extent =>
      rw [callSites, Node.callees_definition]
      exact hall _ fun n hn => hn
    | other parts extent =>
      rw [callSites, Node.callees_other]
      exact hall _ fun n hn => hn

theorem exists_forget_eq_iff {file : Path} {index : LineIndex} {context : List String} {tree : Node}
    {target : CallSite} :
    (∃ site ∈ callSites file index context tree, site.forget = target) ↔
      ∃ c ∈ tree.callees, ∃ l, c.locate? index = some l ∧
      CallSite.ofLocated file index [] l = target := by
  rw [← List.mem_map, callSites_forget, List.mem_map]
  constructor
  · rintro ⟨l, hl, heq⟩
    obtain ⟨c, hc, hlocated⟩ := List.mem_filterMap.mp hl
    exact ⟨c, hc, l, hlocated, heq⟩
  · rintro ⟨c, hc, l, hlocated, heq⟩
    exact ⟨l, List.mem_filterMap.mpr ⟨c, hc, hlocated⟩, heq⟩

/-! ## What a call site points at -/

/-- A call site points at its name in a text: within the span of the callee and up to its end, at
the last characters that read like the name. The lines, counted from one, and characters of both
stretches are those of their offsets. -/
structure CallSite.PointsAtName (text : List Char) (site : CallSite) : Prop where
  nonneg : 0 ≤ site.span.start
  start_le : site.span.start ≤ site.position.start
  fits : site.position.start + site.called.length ≤ site.position.stop
  stop_eq : site.position.stop = site.span.stop
  stop_le : site.span.stop ≤ text.length
  reads : site.called.toList <+: text.drop site.position.start.toNat
  last : ∀ offset : Nat, site.position.start < offset →
    offset + site.called.length ≤ site.span.stop →
    ¬ site.called.toList <+: text.drop offset
  placed : ∀ p ∈ [site.span, site.position],
    p.line = ((LineIndex.ofText text).lineAndCharacter p.start).1 + 1 ∧
      p.character = ((LineIndex.ofText text).lineAndCharacter p.start).2

theorem pointsAtName_of_locate? {file : Path} {text : List Char} {context : List String}
    {c : Callee} {l : Located} (hname : c.name ≠ "") (h : c.locate? (.ofText text) = some l) :
    (CallSite.ofLocated file (.ofText text) context l).PointsAtName text := by
  obtain ⟨hstart, hstop⟩ := Callee.bounds_of_locate? hname h
  have hend : (LineIndex.ofText text).offsetAt c.extent.stop ≤ text.length :=
    LineIndex.offsetOf_le _ _ _
  obtain ⟨found, hfound, rfl⟩ := Option.map_eq_some_iff.mp h
  refine ⟨Int.natCast_nonneg _, Int.ofNat_le.mpr hstart, Int.ofNat_le.mpr hstop, rfl,
    Int.ofNat_le.mpr hend, ?_, ?_, ?_⟩
  · exact ((LineIndex.prefix_drop_slice_iff _ _ _).mp (prefix_of_findLast? hfound)).1
  · intro offset hlater hfits hreads
    have hlater : (LineIndex.ofText text).offsetAt c.extent.start + found < offset :=
      Int.ofNat_lt.mp hlater
    have hfits : offset + c.name.length ≤ (LineIndex.ofText text).offsetAt c.extent.stop :=
      Int.ofNat_le.mp hfits
    obtain ⟨j, rfl⟩ := Nat.exists_eq_add_of_le (Nat.le_of_add_right_le hlater.le)
    refine not_prefix_of_findLast? hfound (Nat.lt_of_add_lt_add_left hlater) ?_
      ((LineIndex.prefix_drop_slice_iff _ _ _).mpr ⟨hreads, ?_⟩)
    · rw [LineIndex.length_slice hend]
      omega
    · rw [String.length_toList]
      omega
  · rintro p hp
    rcases List.mem_pair.mp hp with rfl | rfl
    · exact ⟨rfl, rfl⟩
    · exact ⟨rfl, rfl⟩

/-- The call sites of a text that has a syntax tree, for every choice of a line. -/
theorem extractCallSites_eq_ok (file : Path) {text : List Char} {tree : Node}
    (h : parseModule text = .ok tree) :
    extractCallSites file text = .ok (callSites file (.ofText text) [] tree) ∧
      ∀ line : Int, extractCallSites file text (some line) =
        .ok ((callSites file (.ofText text) [] tree).filter fun s => s.position.line = line) :=
  ⟨bind_eq_ok_iff.mpr ⟨tree, h, rfl⟩, fun _ => bind_eq_ok_iff.mpr ⟨tree, h, rfl⟩⟩

/-- **Call sites point at their names.** Every text that has a syntax tree has call sites: each
points at its name, and there is one for every callee in which its name can be read. The call sites
on a line are those among them whose name stands on it. -/
theorem callSites_point_at_names (file : Path) {text : List Char} {tree : Node}
    (h : parseModule text = .ok tree) :
    ∃ sites, extractCallSites file text = .ok sites ∧
      (∀ line : Int, extractCallSites file text (some line) =
        .ok (sites.filter fun s => s.position.line = line)) ∧
      (∀ site ∈ sites, site.PointsAtName text) ∧
      ∀ c ∈ tree.callees, ∀ offset, c.ReadsAt text offset → ∃ site ∈ sites, site.called = c.name ∧
        site.span.start = (LineIndex.ofText text).offsetAt c.extent.start ∧
        site.span.stop = (LineIndex.ofText text).offsetAt c.extent.stop := by
  obtain ⟨hall, hline⟩ := extractCallSites_eq_ok file h
  refine ⟨_, hall, hline, fun site hsite => ?_, fun c hc offset hreads => ?_⟩
  · obtain ⟨c, hc, l, hlocated, heq⟩ := exists_forget_eq_iff.mp ⟨site, hsite, rfl⟩
    have hpoints : site.forget.PointsAtName text :=
      heq ▸ pointsAtName_of_locate? ((laid_of_parseModule h).2 c hc).name hlocated
    -- The container is none of its business.
    exact ⟨hpoints.nonneg, hpoints.start_le, hpoints.fits, hpoints.stop_eq, hpoints.stop_le,
      hpoints.reads, hpoints.last, hpoints.placed⟩
  · obtain ⟨l, hlocated⟩ := hreads.exists_locate?
    obtain ⟨site, hsite, heq⟩ := exists_forget_eq_iff.mpr ⟨c, hc, l, hlocated, rfl⟩
    obtain ⟨found, -, rfl⟩ := Option.map_eq_some_iff.mp hlocated
    exact ⟨site, hsite, congrArg CallSite.called heq, congrArg (·.span.start) heq,
      congrArg (·.span.stop) heq⟩

/-- The name is mentioned in a comment before it, behind a character of two bytes and a line break
of two characters, and once more in the argument. -/
theorem callSites_point_at_names_commented :
    ∃ tree sites, parseModule "'é'; (a # b\r\n  .b(b))\n".toList = .ok tree ∧
      extractCallSites ⟨"", ["m"]⟩ "'é'; (a # b\r\n  .b(b))\n".toList = .ok sites ∧
      sites.map (fun s => (s.called, s.span, s.position)) = [("b", ⟨1, 7, 7, 17⟩, ⟨2, 3, 16, 17⟩)] ∧
      ∀ site ∈ sites, site.PointsAtName "'é'; (a # b\r\n  .b(b))\n".toList := by
  have hok : (parseModule "'é'; (a # b\r\n  .b(b))\n".toList).isOk = true := by decide +kernel
  obtain ⟨tree, htree⟩ := exists_eq_ok_of_isOk hok
  obtain ⟨sites, hsites, -, hpoints, -⟩ := callSites_point_at_names ⟨"", ["m"]⟩ htree
  have hfound : (extractCallSites ⟨"", ["m"]⟩ "'é'; (a # b\r\n  .b(b))\n".toList).map
      (·.map fun s => (s.called, s.span, s.position)) =
        .ok [("b", ⟨1, 7, 7, 17⟩, ⟨2, 3, 16, 17⟩)] := by
    decide +kernel
  rw [hsites] at hfound
  exact ⟨tree, sites, htree, hsites, Except.ok.inj hfound, hpoints⟩

end CallAtlas
