import CallAtlas.Proofs.CallSites.Names
import Mathlib

/-!
# The order of call sites

The call sites of a text are listed as the walk over its tree meets them, which is not always the
order in which their names stand in the text: in `a().b()` the call of `b` is met first, because the
call of `a` is part of its callee.

If callees are reported where they stand, no two call sites have their names at one offset, and
`callSites_in_text_order_iff` says exactly when the list is in the order of the text: if nothing is
called within the callee of a call that is listed (`Node.Orderly`), and if of any two parts of a
node in which something is called the one that is visited first begins first (`Node.Forward`).

That parts stand apart carries over from places to names: an earlier place has an offset that is not
greater (`LineIndex.offsetAt_mono`), and a name lies within the offsets of its callee.
-/

namespace CallAtlas

open Source Text

/-! ## Offsets of places -/

namespace Text

namespace LineIndex

/-- The end of a text stands on its last line. -/
theorem size_ofText (text : List Char) :
    (ofText text).size = (placeAfter (unifyLineEnds text)).line := by
  rw [line_placeAfter, ← length_lineBreaks_eq_count 0, Nat.add_comm]
  rfl

variable (index : LineIndex)

/-- The offset of a place on a line of the text. -/
theorem offsetAt_eq {p : Place} (hpos : 1 ≤ p.line) (hline : p.line ≤ index.size)
    (hback : p.back = 0) :
    index.offsetAt p = index.starts.getD (p.line - 1) 0 + fitting p.column
      (index.lineText (p.line - 1)) := by
  have hindex : min (max (p.line : Int) 1).toNat index.size - 1 = p.line - 1 := by omega
  rw [offsetAt, offsetOf_eq]
  simp only [hindex]
  rw [if_neg (by omega), Int.toNat_natCast, Place.reported, hback, Nat.sub_zero]

/-- **An earlier place has no greater offset**, if both are reported where they are. -/
theorem offsetAt_mono {p q : Place} (h : p ≤ q) (hpos : 1 ≤ p.line) (hline : q.line ≤ index.size)
    (hp : p.back = 0) (hq : q.back = 0) : index.offsetAt p ≤ index.offsetAt q := by
  rcases Place.le_iff.mp h with hlt | ⟨heq, hcolumn⟩
  · rw [index.offsetAt_eq hpos (by omega) hp, index.offsetAt_eq (by omega) hline hq]
    have hfitting := fitting_le p.column (index.lineText (p.line - 1))
    have hend := index.start_add_length_lineText_le (show p.line - 1 + 1 < index.size by omega)
    have hstart := index.getD_starts_mono (show p.line - 1 + 1 ≤ q.line - 1 by omega) (by omega)
    omega
  · rw [index.offsetAt_eq hpos (by omega) hp, index.offsetAt_eq (by omega) hline hq, heq]
    exact Nat.add_le_add_left (fitting_mono hcolumn _) _

end LineIndex

end Text

/-! ## Names in the order of the text -/

namespace Source

/-- The offsets of the names of callees, as far as they are located. -/
def nameOffsets (index : LineIndex) (callees : List Callee) : List Nat :=
  callees.filterMap fun c => (c.locate? index).map Located.offset

section

variable {index : LineIndex}

theorem nameOffsets_append (as bs : List Callee) :
    nameOffsets index (as ++ bs) = nameOffsets index as ++ nameOffsets index bs :=
  List.filterMap_append

theorem nameOffsets_flatMap (nodes : List Node) :
    nameOffsets index (nodes.flatMap Node.callees) = nodes.flatMap fun n =>
      nameOffsets index n.callees :=
  List.filterMap_flatMap

theorem nameOffsets_ne_nil_iff {callees : List Callee} :
    nameOffsets index callees ≠ [] ↔ ∃ c ∈ callees, (c.locate? index).isSome = true := by
  simp [nameOffsets, List.filterMap_eq_nil_iff, Option.isSome_iff_ne_none]

theorem pairwise_nameOffsets_toList (c : Option Callee) :
    (nameOffsets index c.toList).Pairwise (· < ·) := by
  cases c with
  | none => exact .nil
  | some c => cases hlocated : c.locate? index <;> simp [nameOffsets, hlocated]

/-- A callee is reported where it stands. -/
def Callee.Exact (c : Callee) : Prop := c.extent.start.back = 0 ∧ c.extent.stop.back = 0

instance (c : Callee) : Decidable c.Exact := inferInstanceAs (Decidable (_ ∧ _))

/-- A callee stands in a text that ends at a place, and is reported there. -/
structure Callee.ExactIn (fin : Place) (c : Callee) : Prop extends c.In .origin fin where
  exact : c.Exact

variable {fin : Place} (hfin : fin.line ≤ index.size)

include hfin

/-- A callee that ends before another begins has its name before that of the other. -/
theorem Callee.ExactIn.offset_lt {c d : Callee} {l m : Located} (hc : c.ExactIn fin)
    (hd : d.ExactIn fin) (h : c.extent.stop ≤ d.extent.start) (hl : c.locate? index = some l)
    (hm : d.locate? index = some m) :
    l.offset < m.offset := by
  have hpos : 0 < c.name.length := length_pos_of_ne_empty hc.name
  have hstop : 1 ≤ c.extent.stop.line := Place.line_le (hc.le.trans hc.lt.le)
  have hline : d.extent.start.line ≤ index.size :=
    (Place.line_le (hd.lt.le.trans hd.stop)).trans hfin
  calc l.offset
    _ < l.offset + c.name.length := Nat.lt_add_of_pos_right hpos
    _ ≤ index.offsetAt c.extent.stop := (Callee.bounds_of_locate? hc.name hl).2
    _ ≤ index.offsetAt d.extent.start := index.offsetAt_mono h hstop hline hc.exact.2 hd.exact.1
    _ ≤ m.offset := (Callee.bounds_of_locate? hd.name hm).1

theorem Node.Precedes.lt {as bs : List Callee} (h : Precedes as bs) (has : ∀ c ∈ as, c.ExactIn fin)
    (hbs : ∀ c ∈ bs, c.ExactIn fin) :
    ∀ x ∈ nameOffsets index as, ∀ y ∈ nameOffsets index bs, x < y := by
  intro x hx y hy
  obtain ⟨c, hc, hx⟩ := List.mem_filterMap.mp hx
  obtain ⟨l, hl, rfl⟩ := Option.map_eq_some_iff.mp hx
  obtain ⟨d, hd, hy⟩ := List.mem_filterMap.mp hy
  obtain ⟨m, hm, rfl⟩ := Option.map_eq_some_iff.mp hy
  exact (has c hc).offset_lt hfin (hbs d hd) (h c hc d hd) hl hm

end

namespace Node

/-- A name is called in a tree where it can be located. -/
inductive Reports (index : LineIndex) : Node → Prop
  | here {callee : Node} {arguments : List Node} {extent : Extent} :
    (locate? index callee).isSome = true → Reports index (.call callee arguments extent)
  | part {node part : Node} : part ∈ node.parts → Reports index part → Reports index node

/-- Of two nodes in which something is called the first begins first. -/
def Forward (index : LineIndex) (p q : Node) : Prop :=
  p.Reports index → q.Reports index → p.extent.start < q.extent.start

/-- The walk keeps to the order of the text at a node. -/
def Orderly (index : LineIndex) : Node → Prop
  | .name _ _ | .member _ _ _ | .imports _ _ => True
  | .call callee arguments _ =>
    ((locate? index callee).isSome = true → ¬ callee.Reports index) ∧
      arguments.Pairwise (Forward index)
  | .definition _ parts _ | .other parts _ => parts.Pairwise (Forward index)

/-- The walk keeps to the order of the text all over a tree. -/
inductive InTextOrder (index : LineIndex) : Node → Prop
  | intro {node : Node} (orderly : node.Orderly index)
      (parts : ∀ part ∈ node.parts, part.InTextOrder index) :
    InTextOrder index node

variable {index : LineIndex}

theorem inTextOrder_iff {node : Node} :
    node.InTextOrder index ↔ node.Orderly index ∧ ∀ part ∈ node.parts, part.InTextOrder index :=
  ⟨fun ⟨orderly, parts⟩ => ⟨orderly, parts⟩, fun ⟨orderly, parts⟩ => ⟨orderly, parts⟩⟩

/-- A callee of a node is that of the node itself, if it is a call, or that of a part. -/
theorem mem_callees_iff {node : Node} {c : Callee} :
    c ∈ node.callees ↔
      (∃ callee arguments extent, node = .call callee arguments extent ∧ c ∈ callee.callee?) ∨
      ∃ part ∈ node.parts, c ∈ part.callees := by
  cases node <;> simp [parts]

theorem isSome_locate?_iff {callee : Node} :
    (locate? index callee).isSome = true ↔ nameOffsets index callee.callee?.toList ≠ [] := by
  rw [nameOffsets_ne_nil_iff, locate?_eq_bind]
  cases callee.callee? <;> simp

theorem reports_iff {node : Node} : node.Reports index ↔ nameOffsets index node.callees ≠ [] := by
  rw [nameOffsets_ne_nil_iff]
  constructor
  · intro h
    induction h with
    | here hlocated =>
      obtain ⟨c, hc, hlocated⟩ := nameOffsets_ne_nil_iff.mp (isSome_locate?_iff.mp hlocated)
      exact ⟨c, mem_callees_iff.mpr (.inl ⟨_, _, _, rfl, Option.mem_toList.mp hc⟩), hlocated⟩
    | part hpart _ ih =>
      obtain ⟨c, hc, hlocated⟩ := ih
      exact ⟨c, mem_callees_iff.mpr (.inr ⟨_, hpart, hc⟩), hlocated⟩
  · rintro ⟨c, hc, hlocated⟩
    induction node using induction_on_parts with
    | step node ih =>
      rcases mem_callees_iff.mp hc with ⟨callee, arguments, extent, rfl, hcallee⟩ |
        ⟨part, hpart, hc⟩
      · exact .here
          (isSome_locate?_iff.mpr
            (nameOffsets_ne_nil_iff.mpr ⟨c, Option.mem_toList.mpr hcallee, hlocated⟩))
      · exact .part hpart (ih part hpart hc)

/-- If some numbers are all behind others, they are before them only if there are none of the ones
or the others. -/
theorem forall_lt_iff_of_gt {as bs : List Nat} (h : ∀ y ∈ bs, ∀ x ∈ as, y < x) :
    (∀ x ∈ as, ∀ y ∈ bs, x < y) ↔ (as ≠ [] → bs = []) := by
  constructor
  · intro hlt hsome
    obtain ⟨x, hx⟩ := List.exists_mem_of_ne_nil as hsome
    exact List.eq_nil_iff_forall_not_mem.mpr fun y hy => absurd (hlt x hx y hy) (h y hy x hx).asymm
  · intro hnone x hx y hy
    rw [hnone (List.ne_nil_of_mem hx)] at hy
    cases hy

section

variable {fin : Place} (hfin : fin.line ≤ index.size)

include hfin

/-- The names in a node stand before those in another exactly if the nodes stand in this order. -/
theorem forall_lt_iff_forward {p q : Node} (h : p.Apart q) (hp : ∀ c ∈ p.callees, c.ExactIn fin)
    (hq : ∀ c ∈ q.callees, c.ExactIn fin) :
    (∀ x ∈ nameOffsets index p.callees, ∀ y ∈ nameOffsets index q.callees, x < y) ↔
      p.Forward index q := by
  have hsome {n : Node} (hn : n.Reports index) : n.callees ≠ [] := by
    rintro hnil
    rw [reports_iff, hnil] at hn
    exact hn rfl
  rcases h with h | h
  · exact iff_of_true (h.callees.lt hfin hp hq) fun hp hq => h.start (hsome hp) (hsome hq)
  · rw [forall_lt_iff_of_gt (h.callees.lt hfin hq hp), Forward, ← reports_iff,
      ← not_ne_iff, ← reports_iff]
    exact forall_congr' fun hp => forall_congr' fun hq =>
      iff_of_false id (h.start (hsome hq) (hsome hp)).asymm

/-- The names in parts that stand apart are in order exactly if those within each part are, and the
parts are. -/
theorem pairwise_flatMap_iff {parts : List Node} (h : parts.Pairwise Apart)
    (hin : ∀ c ∈ parts.flatMap callees, c.ExactIn fin) :
    (nameOffsets index (parts.flatMap callees)).Pairwise (· < ·) ↔
      (∀ p ∈ parts, (nameOffsets index p.callees).Pairwise (· < ·)) ∧
      parts.Pairwise (Forward index) := by
  have hiff {p q : Node} (hp : p ∈ parts) (hq : q ∈ parts) (hapart : p.Apart q) :=
    forall_lt_iff_forward hfin hapart (fun c hc => hin c (List.mem_flatMap_of_mem hp hc))
      (fun c hc => hin c (List.mem_flatMap_of_mem hq hc))
  rw [nameOffsets_flatMap, List.pairwise_flatMap]
  refine and_congr_right fun _ => ⟨fun hlt => ?_, fun hforward => ?_⟩
  · exact (h.and hlt).imp_of_mem fun hp hq hboth => (hiff hp hq hboth.1).mp hboth.2
  · exact (h.and hforward).imp_of_mem fun hp hq hboth => (hiff hp hq hboth.1).mpr hboth.2

/-- **No two names of a laid out tree have one offset.** -/
theorem Laid.nodup_nameOffsets {tree : Node} (h : tree.Laid)
    (hin : ∀ c ∈ tree.callees, c.ExactIn fin) :
    (nameOffsets index tree.callees).Nodup := by
  refine List.pairwise_filterMap.mpr
    (h.pairwise_clear.imp_of_mem fun {c d} hc hd hclear x hx y hy => ?_)
  obtain ⟨l, hl, rfl⟩ := Option.map_eq_some_iff.mp hx
  obtain ⟨m, hm, rfl⟩ := Option.map_eq_some_iff.mp hy
  rcases hclear with hle | hle
  · exact ((hin c hc).offset_lt hfin (hin d hd) hle hl hm).ne
  · exact ((hin d hd).offset_lt hfin (hin c hc) hle hm hl).ne'

/-- **The names of a laid out tree are in order exactly if the walk keeps to the order of the
text.** -/
theorem Laid.pairwise_nameOffsets_iff {tree : Node} (h : tree.Laid)
    (hin : ∀ c ∈ tree.callees, c.ExactIn fin) :
    (nameOffsets index tree.callees).Pairwise (· < ·) ↔ tree.InTextOrder index := by
  induction h with
  | @intro tree tidy _ ih =>
    have ih (part : Node) (hpart : part ∈ tree.parts) :
        (nameOffsets index part.callees).Pairwise (· < ·) ↔ part.InTextOrder index :=
      ih part hpart fun c hc => hin c (mem_callees_iff.mpr (.inr ⟨part, hpart, hc⟩))
    rw [inTextOrder_iff]
    cases tree with
    | name id extent => simp [nameOffsets, Orderly, parts]
    | imports bindings extent => simp [nameOffsets, Orderly, parts]
    | member receiver id extent =>
      rw [callees_member, ih receiver List.mem_cons_self]
      simp [Orderly, parts]
    | call callee arguments extent =>
      obtain ⟨hapart, hreceiver, hbehind, hbefore⟩ := tidy
      rw [callees_call] at hin ⊢
      obtain ⟨hown, harguments⟩ := List.forall_mem_append.mp hin
      obtain ⟨hown, hcallee⟩ := List.forall_mem_append.mp hown
      -- The name is met before those of its receiver and stands behind them, so there must not be
      -- any.
      have hgt := hbehind.lt hfin hcallee hown
      have hlt := List.forall_mem_append.mpr
        ⟨hbefore.lt hfin hown harguments, hreceiver.lt hfin hcallee harguments⟩
      rw [nameOffsets_append, nameOffsets_append, List.pairwise_append, List.pairwise_append,
        pairwise_flatMap_iff hfin hapart harguments, forall_lt_iff_of_gt hgt,
        ih callee List.mem_cons_self, forall₂_congr fun n hn => ih n (List.mem_cons_of_mem _ hn),
        Orderly, isSome_locate?_iff, reports_iff, not_ne_iff,
        parts, List.forall_mem_cons]
      have hown : (nameOffsets index callee.callee?.toList).Pairwise (· < ·) :=
        pairwise_nameOffsets_toList _
      tauto
    | definition head parts extent =>
      rw [callees_definition] at hin ⊢
      rw [pairwise_flatMap_iff hfin tidy hin, and_comm]
      exact and_congr_right fun _ => forall₂_congr ih
    | other parts extent =>
      rw [callees_other] at hin ⊢
      rw [pairwise_flatMap_iff hfin tidy hin, and_comm]
      exact and_congr_right fun _ => forall₂_congr ih

end

end Node

end Source

/-- The names of the call sites are those of the callees. -/
theorem map_start_callSites (file : Path) (index : LineIndex) (context : List String)
    (tree : Node) :
    (callSites file index context tree).map (·.position.start) =
      (nameOffsets index tree.callees).map Int.ofNat := by
  have hforget : (callSites file index context tree).map (·.position.start) =
      ((callSites file index context tree).map CallSite.forget).map (·.position.start) := by
    rw [List.map_map]
    rfl
  rw [hforget, callSites_forget, nameOffsets, List.map_map, ← List.map_filterMap, List.map_map]
  rfl

/-- **When call sites come in the order of the text.** Every text that has a syntax tree, with
callees that are reported where they stand, has call sites with their names at different offsets,
and they are listed in the order of the text exactly if the walk over the tree keeps to it. -/
theorem callSites_in_text_order_iff (file : Path) {text : List Char} {tree : Node}
    (h : parseModule text = .ok tree) (hexact : ∀ c ∈ tree.callees, c.Exact) :
    ∃ sites, extractCallSites file text = .ok sites ∧ (sites.map (·.position.start)).Nodup ∧
      ((sites.map (·.position.start)).Pairwise (· < ·) ↔ tree.InTextOrder (.ofText text)) := by
  obtain ⟨hlaid, hin⟩ := laid_of_parseModule h
  have hin : ∀ c ∈ tree.callees, c.ExactIn (placeAfter (unifyLineEnds text)) :=
    fun c hc => ⟨hin c hc, hexact c hc⟩
  have hfin := (LineIndex.size_ofText text).ge
  refine ⟨_, (extractCallSites_eq_ok file h).1, ?_, ?_⟩
  · rw [map_start_callSites]
    exact (hlaid.nodup_nameOffsets hfin hin).map Int.ofNat_injective
  · rw [map_start_callSites, List.pairwise_map, ← hlaid.pairwise_nameOffsets_iff hfin hin]
    exact List.Pairwise.iff fun _ _ => Int.ofNat_lt

/-- In a string over two lines within a string, the second call is reported where the first one
is. -/
example :
    (extractCallSites ⟨"", ["m"]⟩ "x = f'''\x7ba(f\"\"\"\x7b a(\n)\x7d\"\"\")\x7d'''\n".toList).map
      (·.map fun s => (s.called, s.position.start)) = .ok [("a", 9), ("a", 9)] := by
  decide +kernel

/-- The result of a call is called, which is no call of a name, so all names stand as they are
listed. -/
theorem callSites_in_text_order_iff_result :
    ∃ tree sites, parseModule "f(g(), k=h())(i())\n".toList = .ok tree ∧
      (∀ c ∈ tree.callees, c.Exact) ∧
      extractCallSites ⟨"", ["m"]⟩ "f(g(), k=h())(i())\n".toList = .ok sites ∧
      sites.map (fun s => (s.called, s.position.start)) =
        [("f", 0), ("g", 2), ("h", 9), ("i", 14)] ∧
      tree.InTextOrder (.ofText "f(g(), k=h())(i())\n".toList) := by
  have hok : (parseModule "f(g(), k=h())(i())\n".toList).isOk = true := by decide +kernel
  obtain ⟨tree, htree⟩ := exists_eq_ok_of_isOk hok
  have hexact : ∀ c ∈ tree.callees, c.Exact := by
    have hall : (parseModule "f(g(), k=h())(i())\n".toList).map
        (fun t => decide (∀ c ∈ t.callees, c.Exact)) = .ok true := by decide +kernel
    rw [htree] at hall
    exact of_decide_eq_true (Except.ok.inj hall)
  obtain ⟨sites, hsites, -, horder⟩ := callSites_in_text_order_iff ⟨"", ["m"]⟩ htree hexact
  have hfound : (extractCallSites ⟨"", ["m"]⟩ "f(g(), k=h())(i())\n".toList).map
      (·.map fun s => (s.called, s.position.start)) =
        .ok [("f", 0), ("g", 2), ("h", 9), ("i", 14)] := by
    decide +kernel
  rw [hsites] at hfound
  have hnames := Except.ok.inj hfound
  have hstarts : sites.map (·.position.start) = [0, 2, 9, 14] := by
    simpa [Function.comp_def] using congrArg (List.map Prod.snd) hnames
  exact ⟨tree, sites, htree, hexact, hsites, hnames, horder.mp (by rw [hstarts]; decide)⟩

/-- A call of the result of another call comes before it in the list, but behind it in the text. -/
theorem callSites_against_text_order :
    ∃ sites, extractCallSites ⟨"", ["mod.py"]⟩ "a().b()\n".toList = .ok sites ∧
      sites.map (fun s => (s.called, s.position.start)) = [("b", 4), ("a", 0)] ∧
      ¬ (sites.map (·.position.start)).Pairwise (· < ·) := by
  have hok : (extractCallSites ⟨"", ["mod.py"]⟩ "a().b()\n".toList).isOk = true := by decide +kernel
  obtain ⟨sites, hsites⟩ := exists_eq_ok_of_isOk hok
  have hfound : (extractCallSites ⟨"", ["mod.py"]⟩ "a().b()\n".toList).map
      (·.map fun s => (s.called, s.position.start)) = .ok [("b", 4), ("a", 0)] := by
    decide +kernel
  rw [hsites] at hfound
  have hnames := Except.ok.inj hfound
  have hstarts : sites.map (·.position.start) = [4, 0] := by
    simpa [Function.comp_def] using congrArg (List.map Prod.snd) hnames
  exact ⟨sites, hsites, hnames, by rw [hstarts]; decide⟩

end CallAtlas
