import CallAtlas.Project.Declarations
import CallAtlas.Proofs.Text.Utf8
import Mathlib.Data.List.GetD

/-!
# Offsets and lines

The line of an offset is searched among the starts of the lines, which are increasing; the search
ends at the last line that starts at or before the offset (`Narrowed.bisect`,
`LineIndex.lineAndCharacter_spec`).

Within a text an offset and its line with its character are the same information: the start of the
line and the character add up to the offset (`LineIndex.start_add_character`), so no two offsets of
a text share a line and a character (`LineIndex.eq_of_lineAndCharacter_eq`). The offsets that are
computed for declarations lie within their text (`LineIndex.offsetOf_le`, `selectionOffset_le`).
-/

namespace CallAtlas

namespace Text

/-- A line that is not the first starts behind the offset of the text and not behind its end. -/
theorem bounds_of_mem_lineBreaks {offset : Nat} {text : List Char} {b : Nat}
    (h : b ∈ lineBreaks offset text) : offset < b ∧ b ≤ offset + text.length := by
  fun_induction lineBreaks offset text with
  | case1 => cases h
  | case2 offset rest ih =>
    simp only [List.length_cons]
    rcases List.mem_cons.mp h with rfl | h
    · omega
    · have := ih h
      omega
  | case3 offset c rest _ _ ih =>
    simp only [List.length_cons]
    rcases List.mem_cons.mp h with rfl | h
    · omega
    · have := ih h
      omega
  | case4 offset c rest _ _ ih =>
    simp only [List.length_cons]
    have := ih h
    omega

theorem pairwise_lineBreaks (offset : Nat) (text : List Char) :
    (lineBreaks offset text).Pairwise (· < ·) := by
  fun_induction lineBreaks offset text with
  | case1 => exact .nil
  | case2 offset rest ih => exact .cons (fun b hb => (bounds_of_mem_lineBreaks hb).1) ih
  | case3 offset c rest _ _ ih => exact .cons (fun b hb => (bounds_of_mem_lineBreaks hb).1) ih
  | case4 offset c rest _ _ ih => exact ih

/-! ## The search for a line -/

theorem getD_mono {numbers : List Nat} (h : numbers.Pairwise (· < ·)) {i j : Nat} (hij : i ≤ j)
    (hj : j < numbers.length) : numbers.getD i 0 ≤ numbers.getD j 0 := by
  have hi : i < numbers.length := Nat.lt_of_le_of_lt hij hj
  rw [List.getD_eq_getElem _ _ hi, List.getD_eq_getElem _ _ hj]
  rcases Nat.eq_or_lt_of_le hij with rfl | hlt
  · exact Nat.le_refl _
  · exact Nat.le_of_lt (List.pairwise_iff_getElem.mp h i j hi hj hlt)

/-- How far the search among increasing numbers has come: those before `low` are at most `n`, those
from `high` on are not. -/
structure Narrowed (numbers : List Nat) (n low high : Nat) : Prop where
  ordered : low ≤ high
  within : high ≤ numbers.length
  below : ∀ i < low, numbers.getD i 0 ≤ n
  above : ∀ i, high ≤ i → i < numbers.length → n < numbers.getD i 0

/-- **The search ends where the numbers exceed `n`.** Whichever half is given up, what is said about
it holds of its number in the middle and so, the numbers being increasing, of all. -/
theorem Narrowed.bisect {numbers : List Nat} {n low high : Nat} (hsorted : numbers.Pairwise (· < ·))
    (h : Narrowed numbers n low high) :
    Narrowed numbers n (bisect numbers n low high) (bisect numbers n low high) := by
  fun_induction Text.bisect numbers n low high with
  | case1 low high hlt middle hmiddle ih =>
    have hwithin := h.within
    refine ih ⟨by omega, by omega, h.below, fun i hi hlength => ?_⟩
    exact Nat.lt_of_lt_of_le hmiddle (getD_mono hsorted hi hlength)
  | case2 low high hlt middle hmiddle ih =>
    have hwithin := h.within
    refine ih ⟨by omega, hwithin, fun i hi => ?_, h.above⟩
    exact Nat.le_trans (getD_mono hsorted (Nat.le_of_lt_succ hi) (by omega))
      (Nat.le_of_not_lt hmiddle)
  | case3 low high hlt =>
    obtain rfl : low = high := Nat.le_antisymm h.ordered (Nat.le_of_not_lt hlt)
    exact h

namespace LineIndex

variable (index : LineIndex)

theorem pairwise_starts : index.starts.Pairwise (· < ·) := by
  rw [index.starts_eq]
  exact .cons (fun b hb => (bounds_of_mem_lineBreaks hb).1) (pairwise_lineBreaks 0 index.text)

theorem getD_starts_mono {i j : Nat} (h : i ≤ j) (hj : j < index.size) :
    index.starts.getD i 0 ≤ index.starts.getD j 0 :=
  getD_mono index.pairwise_starts h hj

theorem getD_starts_le (line : Nat) : index.starts.getD line 0 ≤ index.text.length := by
  cases hstart : index.starts[line]? with
  | none => simp [List.getD_eq_getElem?_getD, hstart]
  | some start =>
    rw [List.getD_eq_getElem?_getD, hstart, Option.getD_some]
    have hmem := List.mem_of_getElem? hstart
    rw [index.starts_eq] at hmem
    rcases List.mem_cons.mp hmem with rfl | hmem
    · exact Nat.zero_le _
    · have := (bounds_of_mem_lineBreaks hmem).2
      omega

/-- The offset behind a line: where the next one starts, or the end of the text. -/
def stop (line : Nat) : Nat := index.starts.getD (line + 1) index.text.length

theorem stop_eq (line : Nat) :
    index.stop line = if line + 1 < index.size then index.starts.getD (line + 1) 0
      else index.text.length := by
  split
  next hnext => rw [stop, List.getD_eq_getElem _ _ hnext, List.getD_eq_getElem _ _ hnext]
  next hnext => rw [stop, List.getD_eq_default _ _ (Nat.le_of_not_lt hnext)]

theorem start_le_stop (line : Nat) : index.starts.getD line 0 ≤ index.stop line := by
  rw [stop_eq]
  split
  next hnext => exact index.getD_starts_mono (Nat.le_succ line) hnext
  next => exact index.getD_starts_le line

theorem stop_le (line : Nat) : index.stop line ≤ index.text.length := by
  rw [stop_eq]
  split
  next => exact index.getD_starts_le (line + 1)
  next => exact Nat.le_refl _

theorem length_lineText (line : Nat) :
    (index.lineText line).length = index.stop line - index.starts.getD line 0 := by
  have hstop := index.stop_le line
  rw [lineText, List.length_take, List.length_drop, ← stop]
  omega

/-- A line ends at the latest where the next one starts. -/
theorem start_add_length_lineText_le {i : Nat} (h : i + 1 < index.size) :
    index.starts.getD i 0 + (index.lineText i).length ≤ index.starts.getD (i + 1) 0 := by
  have hstart : index.starts.getD i 0 ≤ index.starts.getD (i + 1) 0 :=
    index.getD_starts_mono (Nat.le_succ i) h
  rw [length_lineText, stop_eq, if_pos h]
  omega

theorem size_pos : 0 < index.size := by
  rw [size, index.starts_eq]
  exact Nat.succ_pos _

/-- **The line of an offset** is a line of the text, it starts before the offset by the number of
characters, and the next line starts behind it. -/
theorem lineAndCharacter_spec (offset : Int) :
    (index.lineAndCharacter offset).1 < index.size ∧
      index.starts.getD (index.lineAndCharacter offset).1 0 + (index.lineAndCharacter offset).2 =
        index.clamp offset ∧
      ((index.lineAndCharacter offset).1 + 1 < index.size →
        index.clamp offset < index.starts.getD ((index.lineAndCharacter offset).1 + 1) 0) := by
  rw [lineAndCharacter]
  generalize index.clamp offset = o
  have hsearch :
      Narrowed index.starts o (bisect index.starts o 0 index.size)
        (bisect index.starts o 0 index.size) :=
    Narrowed.bisect index.pairwise_starts
      ⟨Nat.zero_le _, Nat.le_refl _, fun i hi => absurd hi (Nat.not_lt_zero i),
        fun i hi hlength => absurd hlength (Nat.not_lt_of_le hi)⟩
  generalize bisect index.starts o 0 index.size = found at hsearch
  have hsize := index.size_pos
  have hwithin : found ≤ index.size := hsearch.within
  -- the first line starts at zero, so it is always found
  have hfirst : 0 < found := by
    by_contra hzero
    have habove := hsearch.above 0 (Nat.le_of_not_lt hzero) hsize
    rw [index.starts_eq, List.getD_cons_zero] at habove
    exact Nat.not_lt_zero _ habove
  have hstart := hsearch.below (found - 1) (by omega)
  refine ⟨by simp only; omega, by simp only; omega, fun hnext => ?_⟩
  exact hsearch.above (found - 1 + 1) (by omega) hnext

/-- The start of a line and the character in it add up to the offset. -/
theorem start_add_character {offset : Nat} (h : offset ≤ index.text.length) :
    index.starts.getD (index.lineAndCharacter offset).1 0 + (index.lineAndCharacter offset).2 =
      offset := by
  rw [(index.lineAndCharacter_spec offset).2.1, clamp, Int.toNat_natCast, Nat.min_eq_left h]

theorem eq_of_lineAndCharacter_eq {o o' : Nat} (ho : o ≤ index.text.length)
    (ho' : o' ≤ index.text.length) (h : index.lineAndCharacter o = index.lineAndCharacter o') :
    o = o' := by
  rw [← index.start_add_character ho, ← index.start_add_character ho', h]

/-- The offset of a byte column, counted in the characters that fit before it. -/
theorem offsetOf_eq (line column : Int) :
    index.offsetOf line column =
      let i := min (max line 1).toNat index.size - 1
      index.starts.getD i 0 +
        fitting (if column < 0 then (byteSize (index.lineText i) + column).toNat else column.toNat)
          (index.lineText i) := by
  simp only [offsetOf, String.toUTF8_eq_toByteArray, String.toByteArray_ofList, decodedFrom_extract,
    List.length_take, Nat.min_eq_left (fitting_le _ _), size_utf8Encode]

theorem offsetOf_le (line column : Int) : index.offsetOf line column ≤ index.text.length := by
  rw [offsetOf_eq]
  simp only
  generalize min (max line 1).toNat index.size - 1 = i
  generalize (if column < 0 then (byteSize (index.lineText i) + column).toNat else column.toNat) =
    budget
  have hstart := index.getD_starts_le i
  have hfitting := fitting_le budget (index.lineText i)
  have hlength := index.length_lineText i
  have hstop := index.stop_le i
  omega

end LineIndex

/-- An occurrence of a pattern lies within the text. -/
theorem add_length_le_of_find? {pattern cs : List Char} {i : Nat} (h : find? pattern cs = some i) :
    i + pattern.length ≤ cs.length := by
  induction cs generalizing i with
  | nil =>
    rw [find?] at h
    split at h
    next hempty =>
      cases h
      simp [List.isEmpty_iff.mp hempty]
    next => cases h
  | cons c cs ih =>
    rw [find?] at h
    split at h
    next hstarts =>
      cases h
      simpa using (List.isPrefixOf_iff_prefix.mp hstarts).length_le
    next =>
      obtain ⟨j, hj, rfl⟩ := Option.map_eq_some_iff.mp h
      have := ih hj
      simp only [List.length_cons]
      omega

end Text

open Text

theorem selectionOffset_le {text : List Char} {start : Nat} (h : start ≤ text.length)
    (keyword name : List Char) : selectionOffset text start keyword name ≤ text.length := by
  unfold selectionOffset
  split
  next => exact h
  next k hk =>
    have hkeyword := add_length_le_of_find? hk
    rw [List.length_drop] at hkeyword
    simp only
    split
    next => exact h
    next i hi =>
      have hname := add_length_le_of_find? hi
      rw [List.length_drop] at hname
      omega

end CallAtlas
