import CallAtlas.Proofs.Text.Lines
import Mathlib.Data.List.Induction

/-!
# Places and offsets

A place is counted in lines and bytes while a text is read, an offset in characters. In a text whose
lines end in line feeds the place where an offset has been reached leads back to this offset
(`Text.LineIndex.offsetAt_placeAfter`).
-/

namespace CallAtlas

open Source Text

namespace Text

/-! ## Without carriage returns -/

/-- Behind a text without carriage returns the lines go on as if they had started there. -/
theorem lineBreaks_append (offset : Nat) {text : List Char} (h : '\r' ∉ text) (more : List Char) :
    lineBreaks offset (text ++ more) =
      lineBreaks offset text ++ lineBreaks (offset + text.length) more := by
  induction text generalizing offset with
  | nil => simp [lineBreaks]
  | cons c rest ih =>
    obtain ⟨hc, hrest⟩ := List.ne_and_not_mem_of_not_mem_cons h
    have hstep (tail : List Char) : lineBreaks offset (c :: tail) =
        if c = '\n' then (offset + 1) :: lineBreaks (offset + 1) tail
        else lineBreaks (offset + 1) tail := by
      rw [lineBreaks]
      · simp [Ne.symm hc]
      · rintro more rfl
        exact absurd rfl hc
    have hlength : offset + (c :: rest).length = offset + 1 + rest.length := by simp; omega
    rw [List.cons_append, hstep, hstep, ih (offset + 1) hrest, hlength]
    split
    · rfl
    · rfl

theorem lineBreaks_of_no_break (offset : Nat) {line : List Char} (hr : '\r' ∉ line)
    (hn : '\n' ∉ line) :
    lineBreaks offset line = [] := by
  induction line generalizing offset with
  | nil => rfl
  | cons c rest ih =>
    obtain ⟨hc, hrest⟩ := List.ne_and_not_mem_of_not_mem_cons hr
    obtain ⟨hc', hrest'⟩ := List.ne_and_not_mem_of_not_mem_cons hn
    rw [lineBreaks]
    · rw [if_neg (by simp [Ne.symm hc, Ne.symm hc']), ih (offset + 1) hrest hrest']
    · rintro more rfl
      exact absurd rfl hc

theorem unifyLineEnds_of_not_mem {text : List Char} (h : '\r' ∉ text) :
    unifyLineEnds text = text := by
  fun_induction unifyLineEnds text with
  | case1 => rfl
  | case2 rest ih => exact absurd List.mem_cons_self h
  | case3 c rest hne ih =>
    obtain ⟨hc, hrest⟩ := List.ne_and_not_mem_of_not_mem_cons h
    rw [if_neg hc.symm, ih hrest]

/-- A text has as many line terminators as line feeds after they are unified. -/
theorem length_lineBreaks_eq_count (offset : Nat) (text : List Char) :
    (lineBreaks offset text).length = (unifyLineEnds text).count '\n' := by
  fun_induction lineBreaks offset text with
  | case1 => rfl
  | case2 offset rest ih => rw [unifyLineEnds, List.length_cons, List.count_cons_self, ih]
  | case3 offset c rest hpair hbreak ih =>
    rw [unifyLineEnds, List.length_cons, ih]
    · have hunified : (if c = '\r' then '\n' else c) = '\n' := by
        rcases hbreak with rfl | rfl <;> rfl
      rw [hunified, List.count_cons_self]
    · exact hpair
  | case4 offset c rest hpair hbreak ih =>
    obtain ⟨hr, hn⟩ := not_or.mp hbreak
    rw [unifyLineEnds, if_neg hr, List.count_cons_of_ne hn, ih]
    exact hpair

/-- There are as many breaks as line feeds. -/
theorem length_lineBreaks (offset : Nat) {text : List Char} (h : '\r' ∉ text) :
    (lineBreaks offset text).length = text.count '\n' := by
  rw [length_lineBreaks_eq_count, unifyLineEnds_of_not_mem h]

end Text

/-! ## Lines that have begun -/

/-- A text is a number of whole lines and the beginning of another. -/
theorem exists_lines (text : List Char) :
    ∃ lines line, text = lines ++ line ∧ '\n' ∉ line ∧
      (lines = [] ∨ ∃ before, lines = before ++ ['\n']) := by
  induction text using List.reverseRecOn with
  | nil => exact ⟨[], [], rfl, by simp, .inl rfl⟩
  | append_singleton before c ih =>
    by_cases hc : c = '\n'
    · exact ⟨before ++ ['\n'], [], by rw [hc, List.append_nil], by simp, .inr ⟨before, rfl⟩⟩
    · obtain ⟨lines, line, rfl, hline, hlines⟩ := ih
      refine ⟨lines, line ++ [c], List.append_assoc .., ?_, hlines⟩
      simp [hline, Ne.symm hc]

namespace Source

/-- The place after a text that starts a file. -/
def placeAfter (text : List Char) : Place := text.foldl Place.after .origin

theorem placeAfter_append (text more : List Char) :
    placeAfter (text ++ more) = more.foldl Place.after (placeAfter text) := by
  rw [placeAfter, placeAfter, List.foldl_append]

theorem foldl_after_of_no_break {line : List Char} (h : '\n' ∉ line) (p : Place) :
    line.foldl Place.after p = { p with column := p.column + byteSize line } := by
  induction line generalizing p with
  | nil => rfl
  | cons c rest ih =>
    obtain ⟨hc, hrest⟩ := List.ne_and_not_mem_of_not_mem_cons h
    rw [List.foldl_cons, ih hrest, Place.after, if_neg (Ne.symm hc), byteSize]
    simp only [Place.mk.injEq, true_and, and_true]
    omega

theorem line_placeAfter (text : List Char) : (placeAfter text).line = 1 + text.count '\n' := by
  induction text using List.reverseRecOn with
  | nil => rfl
  | append_singleton before c ih =>
    rw [placeAfter_append, List.foldl_cons, List.foldl_nil, Place.after, List.count_append,
      List.count_singleton]
    by_cases hc : c = '\n'
    · rw [if_pos hc, if_pos (by simp [hc]), ih, Nat.add_assoc]
    · rw [if_neg hc, if_neg (by simp [hc]), ih, Nat.add_zero]

/-- After whole lines and the beginning of another, the lines are counted and the bytes of what has
begun. -/
theorem placeAfter_lines {lines line : List Char} (hline : '\n' ∉ line)
    (hlines : lines = [] ∨ ∃ before, lines = before ++ ['\n']) :
    placeAfter (lines ++ line) = { line := 1 + lines.count '\n', column := byteSize line } := by
  have hstart : (placeAfter lines).column = 0 ∧ (placeAfter lines).back = 0 := by
    rcases hlines with rfl | ⟨before, rfl⟩
    · exact ⟨rfl, rfl⟩
    · rw [placeAfter_append]
      exact ⟨rfl, rfl⟩
  rw [placeAfter_append, foldl_after_of_no_break hline, line_placeAfter, hstart.1,
    hstart.2, Nat.zero_add]

end Source

/-! ## Back to the offset -/

namespace Text.LineIndex

/-- Behind whole lines another one starts. -/
theorem getD_starts {lines more : List Char} (hr : '\r' ∉ lines)
    (hlines : lines = [] ∨ ∃ before, lines = before ++ ['\n']) :
    (0 :: lineBreaks 0 (lines ++ more)).getD (lines.count '\n') 0 = lines.length := by
  rcases hlines with rfl | ⟨before, rfl⟩
  · rfl
  · have hbefore : '\r' ∉ before := fun h => hr (List.mem_append_left _ h)
    have hlast (offset : Nat) : lineBreaks offset ['\n'] = [offset + 1] := by simp [lineBreaks]
    rw [List.count_append, List.count_singleton_self, List.getD_cons_succ, lineBreaks_append 0 hr,
      lineBreaks_append 0 hbefore, hlast, List.append_assoc, ← length_lineBreaks 0 hbefore]
    simp

/-- **The place where an offset has been reached leads back to it.** -/
theorem offsetAt_placeAfter {before after : List Char} (h : '\r' ∉ before ++ after) :
    (ofText (before ++ after)).offsetAt (placeAfter before) = before.length := by
  obtain ⟨lines, line, rfl, hline, hlines⟩ := exists_lines before
  obtain ⟨hbefore, hafter⟩ := not_or.mp (mt List.mem_append.mpr h)
  obtain ⟨hr, hr'⟩ := not_or.mp (mt List.mem_append.mpr hbefore)
  have hstarts :
      (ofText (lines ++ line ++ after)).starts = 0 :: lineBreaks 0 (lines ++ (line ++ after)) := by
    rw [← List.append_assoc]
    rfl
  have hbreaks : lineBreaks 0 (lines ++ (line ++ after)) =
      lineBreaks 0 lines ++ lineBreaks (lines.length + line.length) after := by
    rw [lineBreaks_append 0 hr, lineBreaks_append _ hr',
      lineBreaks_of_no_break _ hr' hline, Nat.zero_add,
      List.nil_append]
  have hstart : (ofText (lines ++ line ++ after)).starts.getD (lines.count '\n') 0 =
      lines.length := by
    rw [hstarts, getD_starts hr hlines]
  -- The next line starts behind what has begun of this one.
  have hnext : lines.length + line.length ≤
      (ofText (lines ++ line ++ after)).starts.getD (lines.count '\n' + 1)
        (lines ++ line ++ after).length := by
    rw [hstarts, List.getD_cons_succ, hbreaks, ← length_lineBreaks 0 hr, List.getD_eq_getElem?_getD,
      List.getElem?_append_right (Nat.le_refl _), Nat.sub_self]
    cases hmore : lineBreaks (lines.length + line.length) after with
    | nil => simp
    | cons b rest =>
      have hb : b ∈ lineBreaks (lines.length + line.length) after := by
        rw [hmore]; exact List.mem_cons_self
      have := (bounds_of_mem_lineBreaks hb).1
      simp only [List.getElem?_cons_zero, Option.getD_some]
      omega
  generalize hnextStart : (ofText (lines ++ line ++ after)).starts.getD (lines.count '\n' + 1)
    (lines ++ line ++ after).length = next at hnext
  have htext : (ofText (lines ++ line ++ after)).lineText (lines.count '\n') =
      line ++ after.take (next - lines.length - line.length) := by
    have hall : (ofText (lines ++ line ++ after)).text = lines ++ line ++ after := rfl
    rw [lineText, hstart, hall, hnextStart, List.append_assoc, List.drop_left, List.take_append,
      List.take_of_length_le (by omega)]
  have hsize : lines.count '\n' + 1 ≤ (ofText (lines ++ line ++ after)).size := by
    rw [size, hstarts, List.length_cons, hbreaks, List.length_append, length_lineBreaks 0 hr]
    omega
  have hindex :
      min (max ((1 + lines.count '\n' : Nat) : Int) 1).toNat
        (ofText (lines ++ line ++ after)).size - 1 =
      lines.count '\n' := by omega
  rw [offsetAt, placeAfter_lines hline hlines, offsetOf_eq]
  simp only [hindex, hstart, htext]
  rw [if_neg (by omega), Int.toNat_natCast, Place.reported, Nat.sub_zero, fitting_byteSize,
    List.length_append]

end Text.LineIndex

end CallAtlas
