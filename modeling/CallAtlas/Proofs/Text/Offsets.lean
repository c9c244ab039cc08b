import CallAtlas.Proofs.Text.Lines
import Mathlib.Data.Prod.Lex
import Mathlib.Order.Bounds.Basic

/-!
# Offsets, lines and columns

What a `LineIndex` says about its text, whatever line terminators the text has and wherever an
offset or a column points to.

- `LineIndex.offsets_exact`: lines start at zero and behind the line terminators (`BreaksAfter`); an
  offset is found in the line that reaches over it, in order, and its line with its byte column
  leads back to it.
- `LineIndex.offsetOf_exact`: a byte column stands for the last offset of its line up to which the
  bytes do not exceed it.

Both count in the characters of one line. Up to an offset in it these are the characters of the text
from the start of the line to the offset (`LineIndex.take_lineText`).
-/

namespace CallAtlas.Text

/-! ## Line terminators -/

/-- A line terminator ends with the character at an index: a line feed, or a carriage return that no
line feed follows. -/
def BreaksAfter (text : List Char) (i : Nat) : Prop :=
  text[i]? = some '\n' ∨ text[i]? = some '\r' ∧ text[i + 1]? ≠ some '\n'

theorem breaksAfter_cons_succ {c : Char} {rest : List Char} {i : Nat} :
    BreaksAfter (c :: rest) (i + 1) ↔ BreaksAfter rest i := by
  simp only [BreaksAfter, List.getElem?_cons_succ]

theorem breaksAfter_cons_zero {c : Char} {rest : List Char} :
    BreaksAfter (c :: rest) 0 ↔ c = '\n' ∨ c = '\r' ∧ rest.head? ≠ some '\n' := by
  simp [BreaksAfter, List.head?_eq_getElem?]

/-- The first character apart, the line terminators are those of the rest. -/
theorem exists_breaksAfter_cons_iff {offset b : Nat} {c : Char} {rest : List Char} :
    (∃ i, b = offset + i + 1 ∧ BreaksAfter (c :: rest) i) ↔
      (b = offset + 1 ∧ BreaksAfter (c :: rest) 0) ∨ ∃ i, b = offset + 1 + i + 1 ∧
      BreaksAfter rest i := by
  constructor
  · rintro ⟨_ | i, rfl, h⟩
    · exact .inl ⟨rfl, h⟩
    · exact .inr ⟨i, by omega, breaksAfter_cons_succ.mp h⟩
  · rintro (⟨rfl, h⟩ | ⟨i, rfl, h⟩)
    · exact ⟨0, rfl, h⟩
    · exact ⟨i + 1, by omega, breaksAfter_cons_succ.mpr h⟩

/-- **The breaks of a text** are the offsets behind its line terminators. -/
theorem mem_lineBreaks_iff {offset b : Nat} {text : List Char} :
    b ∈ lineBreaks offset text ↔ ∃ i, b = offset + i + 1 ∧ BreaksAfter text i := by
  fun_induction lineBreaks offset text with
  | case1 offset => simp [BreaksAfter]
  | case2 offset rest ih =>
    rw [List.mem_cons, ih, exists_breaksAfter_cons_iff, exists_breaksAfter_cons_iff,
      breaksAfter_cons_zero, breaksAfter_cons_zero]
    simp
  | case3 offset c rest hpair hbreak ih =>
    have hends : BreaksAfter (c :: rest) 0 := by
      rw [breaksAfter_cons_zero]
      rcases hbreak with rfl | rfl
      · refine .inr ⟨rfl, fun hhead => ?_⟩
        obtain ⟨more, rfl⟩ := List.head?_eq_some_iff.mp hhead
        exact hpair more rfl rfl
      · exact .inl rfl
    rw [List.mem_cons, ih, exists_breaksAfter_cons_iff, and_iff_left hends]
  | case4 offset c rest hpair hbreak ih =>
    have hnone : ¬ BreaksAfter (c :: rest) 0 := by
      rw [breaksAfter_cons_zero]
      rintro (rfl | ⟨rfl, -⟩)
      · exact hbreak (.inr rfl)
      · exact hbreak (.inl rfl)
    rw [ih, exists_breaksAfter_cons_iff]
    simp only [hnone, and_false, false_or]

namespace LineIndex

variable (index : LineIndex)

/-! ## Lines -/

/-- The characters of a line up to an offset in it, or at its end. -/
theorem take_lineText {line o : Nat} (ho : o ≤ index.stop line) :
    (index.lineText line).take (o - index.starts.getD line 0) =
      index.text.extract (index.starts.getD line 0) o := by
  rw [lineText, List.take_take, ← stop, List.extract_eq_take_drop]
  congr 1
  omega

/-- The offset of a byte column of a line that exists. -/
theorem offsetOf_natCast {i : Nat} {line : Int} (h : min (max line 1).toNat index.size - 1 = i)
    (column : Nat) :
    index.offsetOf line column = index.starts.getD i 0 + fitting column (index.lineText i) := by
  rw [offsetOf_eq]
  simp only [h]
  rw [if_neg (by omega), Int.toNat_natCast]

/-- What it means for a line and a character, counted from zero, to be those of an offset. -/
structure Locates (o : Nat) (place : Nat × Nat) : Prop where
  exists_line : place.1 < index.size
  start_add : index.starts.getD place.1 0 + place.2 = o
  lt_next : ∀ next, index.starts[place.1 + 1]? = some next → o < next
  back : index.offsetOf (place.1 + 1)
    (index.text.extract (index.starts.getD place.1 0) o).utf8Encode.size = o

theorem clamp_eq (offset : Int) :
    index.clamp offset = (max 0 (min offset index.text.length)).toNat := by
  rw [clamp]
  omega

theorem locates_lineAndCharacter (offset : Int) :
    index.Locates (index.clamp offset) (index.lineAndCharacter offset) := by
  obtain ⟨hline, hadd, hnext⟩ := index.lineAndCharacter_spec offset
  have hclamp : index.clamp offset ≤ index.text.length := Nat.min_le_right _ _
  generalize index.lineAndCharacter offset = place at hline hadd hnext
  generalize index.clamp offset = o at hadd hnext hclamp
  have hlt : ∀ next, index.starts[place.1 + 1]? = some next → o < next := by
    intro next hget
    obtain ⟨hlength, rfl⟩ := List.getElem?_eq_some_iff.mp hget
    rw [← List.getD_eq_getElem _ 0 hlength]
    exact hnext hlength
  refine ⟨hline, hadd, hlt, ?_⟩
  have hstop : o ≤ index.stop place.1 := by
    rw [stop, List.getD_eq_getElem?_getD]
    cases hget : index.starts[place.1 + 1]? with
    | none => exact hclamp
    | some next => exact (hlt next hget).le
  -- the line is what stands before the offset and what stands behind it
  have hparts : index.text.extract (index.starts.getD place.1 0) o ++
      (index.lineText place.1).drop (o - index.starts.getD place.1 0) = index.lineText place.1 := by
    rw [← index.take_lineText hstop, List.take_append_drop]
  have hlength : (index.text.extract (index.starts.getD place.1 0) o).length = place.2 := by
    rw [List.extract_eq_take_drop, List.length_take, List.length_drop]
    omega
  rw [index.offsetOf_natCast (show _ = place.1 by omega), size_utf8Encode, ← hparts,
    fitting_byteSize, hlength, hadd]

/-- Offsets that follow each other are found at places that do. -/
theorem strictMonoOn_lineAndCharacter :
    StrictMonoOn (fun o : Nat => toLex (index.lineAndCharacter o)) (Set.Iic index.text.length) := by
  intro o ho o' ho' hlt
  have hclamp {o : Nat} (ho : o ∈ Set.Iic index.text.length) : index.clamp o = o := by
    rw [clamp, Int.toNat_natCast, Nat.min_eq_left ho]
  have hplace := index.locates_lineAndCharacter o
  have hplace' := index.locates_lineAndCharacter o'
  rw [hclamp ho] at hplace
  rw [hclamp ho'] at hplace'
  have hadd := hplace.start_add
  have hadd' := hplace'.start_add
  rw [Prod.Lex.toLex_lt_toLex]
  rcases Nat.lt_trichotomy (index.lineAndCharacter o).1 (index.lineAndCharacter o').1 with hline |
    hline | hline
  · exact .inl hline
  · rw [hline] at hadd
    exact .inr ⟨hline, by omega⟩
  · -- the line of the later offset would end before the earlier one
    have hsize : (index.lineAndCharacter o').1 + 1 < index.size :=
      Nat.lt_of_le_of_lt hline hplace.exists_line
    have hmono : index.starts.getD ((index.lineAndCharacter o').1 + 1) 0 ≤
        index.starts.getD (index.lineAndCharacter o).1 0 :=
      index.getD_starts_mono hline hplace.exists_line
    have hnext := hplace'.lt_next _ (List.getElem?_eq_getElem hsize)
    rw [← List.getD_eq_getElem _ 0 hsize] at hnext
    omega

/-- **Offsets and lines.** Lines start, in increasing order, at zero and behind each line
terminator. An offset, moved into the text, is found in a line that starts at or before it and is
the last such line; the bytes from there on lead back to it. Offsets of the text are found in their
order, line by line, so that no two are found at one place. -/
theorem offsets_exact (text : List Char) :
    (ofText text).starts.head? = some 0 ∧ (ofText text).starts.Pairwise (· < ·) ∧
      (∀ s, s ∈ (ofText text).starts ↔ s = 0 ∨ ∃ i, s = i + 1 ∧ BreaksAfter text i) ∧
      (∀ offset : Int, (ofText text).Locates (max 0 (min offset text.length)).toNat
        ((ofText text).lineAndCharacter offset)) ∧
      StrictMonoOn (fun o : Nat => toLex ((ofText text).lineAndCharacter o)) (Set.Iic text.length) ∧
      Set.InjOn (fun o : Nat => (ofText text).lineAndCharacter o) (Set.Iic text.length) := by
  have hmono := (ofText text).strictMonoOn_lineAndCharacter
  refine ⟨rfl, (ofText text).pairwise_starts, fun s => ?_, fun offset => ?_, hmono,
    fun o ho o' ho' h => ?_⟩
  · have hmem : s ∈ (ofText text).starts ↔ s = 0 ∨ s ∈ lineBreaks 0 text := List.mem_cons
    rw [hmem, mem_lineBreaks_iff]
    simp only [Nat.zero_add]
  · have hlocates := (ofText text).locates_lineAndCharacter offset
    rwa [clamp_eq] at hlocates
  · exact hmono.injOn ho ho' (congrArg toLex h)

/-! ## Byte columns -/

/-- The line counted from zero that a line counted from one stands for, moved into the text. -/
def nearest (line : Int) : Nat := (max 0 (min (line - 1) (index.size - 1))).toNat

theorem nearest_lt (line : Int) : index.nearest line < index.size := by
  have hsize := index.size_pos
  rw [nearest]
  omega

/-- The offset of a byte column is the last one in its line that the column reaches. -/
theorem isGreatest_offsetOf (line : Int) (column : Nat) :
    IsGreatest {o | index.starts.getD (index.nearest line) 0 ≤ o ∧
      o ≤ index.stop (index.nearest line) ∧
      (index.text.extract (index.starts.getD (index.nearest line) 0) o).utf8Encode.size ≤ column}
      (index.offsetOf line column) := by
  have hsize := index.size_pos
  have hline : min (max line 1).toNat index.size - 1 = index.nearest line := by
    rw [nearest]
    omega
  rw [index.offsetOf_natCast hline]
  generalize index.nearest line = i
  have hlength := index.length_lineText i
  have hstop := index.start_le_stop i
  constructor
  · have hfits := fitting_le column (index.lineText i)
    have hreach : index.starts.getD i 0 + fitting column (index.lineText i) ≤ index.stop i := by
      omega
    refine ⟨Nat.le_add_right _ _, hreach, ?_⟩
    rw [size_utf8Encode, ← index.take_lineText hreach, Nat.add_sub_cancel_left,
      byteSize_take_le_iff hfits]
  · rintro o ⟨hstart, ho, hbytes⟩
    rw [size_utf8Encode, ← index.take_lineText ho, byteSize_take_le_iff (by omega)] at hbytes
    omega

/-- **Byte columns are rounded down to characters.** Of the offsets of a line, its end included, the
offset of a column is the greatest with at most so many bytes between the start of the line and
itself. So a greater column has no smaller offset. -/
theorem offsetOf_exact (text : List Char) (line : Int) :
    (ofText text).nearest line < (ofText text).size ∧
      (∀ column : Nat, IsGreatest
        {o | (ofText text).starts.getD ((ofText text).nearest line) 0 ≤ o ∧
          o ≤ (ofText text).stop ((ofText text).nearest line) ∧
          (text.extract ((ofText text).starts.getD ((ofText text).nearest line) 0)
            o).utf8Encode.size ≤ column}
        ((ofText text).offsetOf line column)) ∧
      Monotone fun column : Nat => (ofText text).offsetOf line column := by
  refine ⟨(ofText text).nearest_lt line, (ofText text).isGreatest_offsetOf line,
    fun column column' h => ?_⟩
  refine IsGreatest.mono ((ofText text).isGreatest_offsetOf line column)
    ((ofText text).isGreatest_offsetOf line column') ?_
  rintro o ⟨hstart, hstop, hbytes⟩
  exact ⟨hstart, hstop, hbytes.trans h⟩

end LineIndex

end CallAtlas.Text
