import CallAtlas.Text.Lines
import Mathlib.Data.List.Basic

/-!
# Cutting UTF-8

The bytes of a text can be cut anywhere, also within a character. What `decodedFrom` reads from the
bytes before the cut are the characters that fit before it (`decodedFrom_extract`): a whole
character is read and left behind (`decodedFrom_append`), and of one that was cut no byte is the
start of a character (`decodedFrom_extract_char`).
-/

namespace CallAtlas.Text

/-- The number of bytes that characters occupy in UTF-8. -/
def byteSize : List Char → Nat
  | [] => 0
  | c :: rest => c.utf8Size + byteSize rest

/-- How many leading characters fit into a number of UTF-8 bytes. -/
def fitting : Nat → List Char → Nat
  | _, [] => 0
  | budget, c :: rest =>
    if c.utf8Size ≤ budget then fitting (budget - c.utf8Size) rest + 1 else 0

theorem fitting_le (budget : Nat) (cs : List Char) : fitting budget cs ≤ cs.length := by
  fun_induction fitting budget cs with
  | case1 => exact Nat.le_refl 0
  | case2 budget c rest _ ih => exact Nat.succ_le_succ ih
  | case3 => exact Nat.zero_le _

theorem fitting_mono {a b : Nat} (h : a ≤ b) (cs : List Char) : fitting a cs ≤ fitting b cs := by
  induction cs generalizing a b with
  | nil => exact Nat.le_refl 0
  | cons c rest ih =>
    rw [fitting, fitting]
    by_cases ha : c.utf8Size ≤ a
    · rw [if_pos ha, if_pos (Nat.le_trans ha h)]
      exact Nat.succ_le_succ (ih (Nat.sub_le_sub_right h _))
    · rw [if_neg ha]
      exact Nat.zero_le _

/-- As many characters fit into their bytes as there are. -/
theorem fitting_byteSize (line more : List Char) :
    fitting (byteSize line) (line ++ more) = line.length := by
  induction line with
  | nil =>
    cases more with
    | nil => rfl
    | cons c rest =>
      have hpos := c.utf8Size_pos
      rw [byteSize, List.nil_append, fitting, if_neg (by omega), List.length_nil]
  | cons c rest ih =>
    rw [byteSize, List.cons_append, fitting, if_pos (by omega), Nat.add_sub_cancel_left, ih,
      List.length_cons]

/-- Some leading characters fit exactly if there are no more of them than fit. -/
theorem byteSize_take_le_iff {k : Nat} {cs : List Char} (hk : k ≤ cs.length) (budget : Nat) :
    byteSize (cs.take k) ≤ budget ↔ k ≤ fitting budget cs := by
  induction cs generalizing k budget with
  | nil =>
    rw [List.take_nil, byteSize, fitting]
    simpa using hk
  | cons c rest ih =>
    cases k with
    | zero => simp [byteSize]
    | succ k =>
      rw [List.take_succ_cons, byteSize, fitting]
      by_cases hfits : c.utf8Size ≤ budget
      · rw [if_pos hfits, Nat.add_le_add_iff_right, ← ih (Nat.le_of_succ_le_succ hk)]
        omega
      · rw [if_neg hfits]
        omega

theorem size_utf8Encode_singleton (c : Char) : [c].utf8Encode.size = c.utf8Size := by
  rw [List.utf8Encode_singleton, List.size_toByteArray, String.length_utf8EncodeChar]

theorem size_utf8Encode (cs : List Char) : cs.utf8Encode.size = byteSize cs := by
  induction cs with
  | nil => rw [List.utf8Encode_nil, ByteArray.size_empty, byteSize]
  | cons c rest ih =>
    rw [List.utf8Encode_cons, ByteArray.size_append, size_utf8Encode_singleton, ih, byteSize]

/-! ## Whole characters -/

theorem utf8DecodeChar?_append_size (a b : ByteArray) (i : Nat) :
    (a ++ b).utf8DecodeChar? (a.size + i) = b.utf8DecodeChar? i := by
  rw [ByteArray.utf8DecodeChar?_eq_utf8DecodeChar?_extract, ByteArray.size_append,
    ByteArray.extract_append_size_add, ← ByteArray.utf8DecodeChar?_eq_utf8DecodeChar?_extract]

/-- Bytes that have been passed play no part any more. -/
theorem decodedFrom_append (a b : ByteArray) (i : Nat) :
    decodedFrom (a ++ b) (a.size + i) = decodedFrom b i := by
  have hin (i : Nat) : a.size + i < (a ++ b).size ↔ i < b.size := by
    rw [ByteArray.size_append]
    omega
  fun_induction decodedFrom b i with
  | case1 i hi c hc ih =>
    rw [decodedFrom, if_pos ((hin i).mpr hi), utf8DecodeChar?_append_size, hc]
    simp only [Nat.add_assoc, ih]
  | case2 i hi hnone ih =>
    rw [decodedFrom, if_pos ((hin i).mpr hi), utf8DecodeChar?_append_size, hnone]
    simp only [Nat.add_assoc, ih]
  | case3 i hi => rw [decodedFrom, if_neg (mt (hin i).mp hi)]

theorem decodedFrom_char_append (c : Char) (bytes : ByteArray) :
    decodedFrom ([c].utf8Encode ++ bytes) 0 = c :: decodedFrom bytes 0 := by
  have hsize := size_utf8Encode_singleton c
  have hpos : 0 < ([c].utf8Encode ++ bytes).size := by
    have := c.utf8Size_pos
    rw [ByteArray.size_append]
    omega
  rw [decodedFrom, if_pos hpos, List.utf8DecodeChar?_utf8Encode_singleton_append]
  simp only [Nat.zero_add]
  rw [← hsize, ← Nat.add_zero [c].utf8Encode.size, decodedFrom_append]

/-! ## A character that is cut -/

/-- At no byte of the beginning of a character a character starts: its later bytes start none, and
one that started at the first byte would be the whole character. -/
theorem utf8DecodeChar?_extract_char {c : Char} {n : Nat} (h : n < c.utf8Size) (i : Nat) :
    ([c].utf8Encode.extract 0 n).utf8DecodeChar? i = none := by
  have hsize : ([c].utf8Encode.extract 0 n).size = n := by
    rw [ByteArray.size_extract, size_utf8Encode_singleton]
    omega
  cases hread : ([c].utf8Encode.extract 0 n).utf8DecodeChar? i with
  | none => rfl
  | some d =>
    have hsome : (([c].utf8Encode.extract 0 n).utf8DecodeChar? i).isSome = true := by
      rw [hread, Option.isSome_some]
    have hfirst := ByteArray.isUTF8FirstByte_of_isSome_utf8DecodeChar? hsome
    rw [ByteArray.getElem_extract, List.isUTF8FirstByte_getElem_utf8Encode_singleton] at hfirst
    obtain rfl : i = 0 := by omega
    -- the bytes that were cut off make the character whole again
    have hwhole :=
      ByteArray.utf8DecodeChar?_append_eq_some hread ([c].utf8Encode.extract n c.utf8Size)
    have hjoin : [c].utf8Encode.extract 0 n ++ [c].utf8Encode.extract n c.utf8Size =
        [c].utf8Encode := by
      rw [ByteArray.extract_append_extract, Nat.zero_min, Nat.max_eq_right (Nat.le_of_lt h),
        ← size_utf8Encode_singleton c, ByteArray.extract_zero_size]
    rw [hjoin, List.utf8DecodeChar?_utf8Encode_singleton] at hwhole
    cases hwhole
    have hle := ByteArray.le_size_of_utf8DecodeChar?_eq_some hread
    omega

/-- Nothing is read from the beginning of a character. -/
theorem decodedFrom_extract_char {c : Char} {n : Nat} (h : n < c.utf8Size) (i : Nat) :
    decodedFrom ([c].utf8Encode.extract 0 n) i = [] := by
  fun_induction decodedFrom ([c].utf8Encode.extract 0 n) i with
  | case1 i hi d hd ih =>
    rw [utf8DecodeChar?_extract_char h] at hd
    cases hd
  | case2 i hi hnone ih => exact ih
  | case3 i hi => rfl

/-- **What is read before a cut** are the characters that fit before it. Induction on the text: the
cut lies behind its first character or within it. -/
theorem decodedFrom_extract (cs : List Char) (n : Nat) :
    decodedFrom (cs.utf8Encode.extract 0 n) 0 = cs.take (fitting n cs) := by
  induction cs generalizing n with
  | nil =>
    rw [List.utf8Encode_nil, decodedFrom, if_neg (by simp), List.take_nil]
  | cons c rest ih =>
    have hsize := size_utf8Encode_singleton c
    rw [List.utf8Encode_cons, ByteArray.extract_append, hsize, fitting]
    by_cases hfits : c.utf8Size ≤ n
    · have hwhole : [c].utf8Encode.extract 0 n = [c].utf8Encode := by
        have hmax : max n [c].utf8Encode.size = n := Nat.max_eq_left (hsize ▸ hfits)
        rw [← hmax, ByteArray.extract_zero_max_size]
      rw [if_pos hfits, hwhole, Nat.zero_sub, decodedFrom_char_append, ih, List.take_succ_cons]
    · have hnone : rest.utf8Encode.extract (0 - c.utf8Size) (n - c.utf8Size) = ByteArray.empty := by
        rw [Nat.sub_eq_zero_of_le (Nat.le_of_not_le hfits), Nat.zero_sub, ByteArray.extract_same]
      rw [if_neg hfits, hnone, ByteArray.append_empty,
        decodedFrom_extract_char (Nat.lt_of_not_le hfits),
        List.take_zero]

end CallAtlas.Text
