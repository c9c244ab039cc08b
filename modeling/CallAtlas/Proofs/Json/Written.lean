import CallAtlas.Json.Literal
import CallAtlas.Proofs.Json.Spelling
import Mathlib.Data.List.Forall2

/-!
# Characters in literals

A JSON string can be written in many ways. `Written` says which pieces stand for a character if only
printable ASCII characters are used; beyond U+FFFF this is a pair of surrogates. Whatever pieces are
chosen for the characters of a text, the string that they make is read as the text
(`parse_written`), and the first quote that ends it is the one behind them
(`closingQuote?_written`).

`written_literalChar` says that `literalChar` chooses such pieces.
-/

namespace CallAtlas.Json

/-- Printable ASCII characters. -/
def IsAsciiPrintable (c : Char) : Prop := ' ' ≤ c ∧ c ≤ '~'

instance (c : Char) : Decidable (IsAsciiPrintable c) :=
  inferInstanceAs (Decidable (' ' ≤ c ∧ c ≤ '~'))

/-- A piece that stands for a character in a string of printable ASCII characters. -/
inductive Written (c : Char) : List Char → Prop
  | plain (h : IsAsciiPrintable c) (hquote : c ≠ '"') (hbackslash : c ≠ '\\') : Written c [c]
  | escape {letter : Char} (h : simpleEscape? letter = some c) : Written c ['\\', letter]
  | unit {digits : List Char} (hc : c.toNat < 0x10000) (h : unit? digits = some (c.toNat, [])) :
      Written c ('\\' :: 'u' :: digits)
  | pair {digits digits' : List Char} {high low : Nat}
      (hc : c.toNat = 0x10000 + (high - 0xd800) * 0x400 + (low - 0xdc00))
      (hhigh : 0xd800 ≤ high ∧ high < 0xdc00) (hlow : 0xdc00 ≤ low ∧ low < 0xe000)
      (h : unit? digits = some (high, [])) (h' : unit? digits' = some (low, [])) :
      Written c ('\\' :: 'u' :: digits ++ '\\' :: 'u' :: digits')

variable {c : Char} {piece digits : List Char} {n : Nat}

/-! ## Code units -/

theorem isAsciiPrintable_of_hexDigit? (h : (hexDigit? c).isSome = true) : IsAsciiPrintable c := by
  unfold hexDigit? at h
  split at h
  next hdigit =>
    have hbounds : '0' ≤ c ∧ c ≤ '9' := by simpa [Char.isDigit, Char.le_def] using hdigit
    exact ⟨Char.le_trans (by decide) hbounds.1, Char.le_trans hbounds.2 (by decide)⟩
  next =>
    split at h
    next hlower => exact ⟨Char.le_trans (by decide) hlower.1, Char.le_trans hlower.2 (by decide)⟩
    next =>
      split at h
      next hupper => exact ⟨Char.le_trans (by decide) hupper.1, Char.le_trans hupper.2 (by decide)⟩
      next => cases h

theorem ne_of_hexDigit? {d : Char} (h : (hexDigit? c).isSome = true)
    (hd : hexDigit? d = none) : c ≠ d := by
  rintro rfl
  rw [hd] at h
  cases h

/-- Digits that are a code unit are read as one wherever they stand. -/
theorem unit?_eq_some (h : unit? digits = some (n, [])) :
    (∀ rest, unit? (digits ++ rest) = some (n, rest)) ∧
      ∀ d ∈ digits, (hexDigit? d).isSome = true := by
  unfold unit? at h
  split at h
  next a b c d more =>
    simp only [Option.bind_eq_bind, Option.bind_eq_some_iff, Option.pure_def, Option.some.injEq,
      Prod.mk.injEq] at h
    obtain ⟨x, hx, y, hy, z, hz, w, hw, rfl, rfl⟩ := h
    refine ⟨fun rest => ?_, ?_⟩
    · simp [unit?, hx, hy, hz, hw]
    · simp [hx, hy, hz, hw]
  next => cases h

theorem hexDigit?_digitChar {n : Nat} (h : n < 16) : hexDigit? n.digitChar = some n := by
  have hall : ∀ n < 16, hexDigit? n.digitChar = some n := by decide
  exact hall n h

/-- Four digits are enough for a code unit. -/
theorem hexPadded_four {n : Nat} (h : n < 0x10000) :
    Text.hexPadded 4 n =
      [(n / 4096).digitChar, (n / 256 % 16).digitChar, (n / 16 % 16).digitChar,
        (n % 16).digitChar] := by
  have hzero {m k : Nat} (hm : m < k) : m / k = 0 := Nat.div_eq_of_lt hm
  rw [Text.hexPadded, Nat.toDigits_eq_if (by decide)]
  split
  next h16 =>
    rw [hzero (by omega), hzero (by omega), hzero h16, Nat.mod_eq_of_lt h16]
    rfl
  next =>
    rw [Nat.toDigits_eq_if (by decide)]
    split
    next h256 =>
      rw [hzero (show n < 4096 by omega), hzero (show n < 256 by omega), Nat.mod_eq_of_lt h256]
      rfl
    next =>
      rw [Nat.toDigits_eq_if (by decide), Nat.div_div_eq_div_mul]
      split
      next h4096 =>
        rw [hzero (show n < 4096 by omega), Nat.mod_eq_of_lt h4096]
        rfl
      next =>
        rw [Nat.div_div_eq_div_mul, Nat.toDigits_of_lt_base (by omega)]
        rfl

theorem unit?_hexPadded {n : Nat} (h : n < 0x10000) :
    unit? (Text.hexPadded 4 n) = some (n, []) := by
  have hsum : ((n / 4096 * 16 + n / 256 % 16) * 16 + n / 16 % 16) * 16 + n % 16 = n := by omega
  rw [hexPadded_four h, unit?, hexDigit?_digitChar (by omega), hexDigit?_digitChar (by omega),
    hexDigit?_digitChar (by omega), hexDigit?_digitChar (by omega)]
  simp [hsum]

/-! ## Pieces -/

/-- The number of a character is not that of a surrogate. -/
theorem toNat_bounds (c : Char) : c.toNat < 0xd800 ∨ 0xdfff < c.toNat ∧ c.toNat < 0x110000 :=
  c.valid

/-- `literalChar` writes every character in such a piece. -/
theorem written_literalChar (c : Char) : Written c (literalChar true c) := by
  unfold literalChar
  split
  any_goals exact .escape rfl
  next hquote hbackslash _ _ _ _ _ =>
    split
    next =>
      unfold unitEscapes
      dsimp only
      split
      next hunit => exact .unit hunit (unit?_hexPadded hunit)
      next hunit =>
        have hbounds := toNat_bounds c
        exact .pair (by omega) (by omega) (by omega) (unit?_hexPadded (by omega))
          (unit?_hexPadded (by omega))
    next hprintable =>
      simp only [Bool.true_and, Bool.or_eq_true, decide_eq_true_eq, not_or,
        Char.not_lt] at hprintable
      exact .plain hprintable hquote hbackslash

theorem Written.isAsciiPrintable (h : Written c piece) : ∀ d ∈ piece, IsAsciiPrintable d := by
  have hbackslash : IsAsciiPrintable '\\' := by decide
  have hu : IsAsciiPrintable 'u' := by decide
  cases h with
  | plain h _ _ =>
    intro d hd
    rw [List.mem_singleton.mp hd]
    exact h
  | @escape letter h =>
    have hletter : IsAsciiPrintable letter := by
      unfold simpleEscape? at h
      split at h
      any_goals decide
      next => cases h
    intro d hd
    rcases List.mem_pair.mp hd with rfl | rfl
    · exact hbackslash
    · exact hletter
  | unit hc h =>
    intro d hd
    rcases List.mem_cons.mp hd with rfl | hd
    · exact hbackslash
    rcases List.mem_cons.mp hd with rfl | hd
    · exact hu
    exact isAsciiPrintable_of_hexDigit? ((unit?_eq_some h).2 d hd)
  | pair hc hhigh hlow h h' =>
    intro d hd
    simp only [List.mem_append, List.mem_cons] at hd
    rcases hd with (rfl | rfl | hd) | rfl | rfl | hd
    · exact hbackslash
    · exact hu
    · exact isAsciiPrintable_of_hexDigit? ((unit?_eq_some h).2 d hd)
    · exact hbackslash
    · exact hu
    · exact isAsciiPrintable_of_hexDigit? ((unit?_eq_some h').2 d hd)

variable {cs : List Char} {pieces : List (List Char)}

theorem isAsciiPrintable_of_mem_flatten (h : List.Forall₂ Written cs pieces) {d : Char}
    (hd : d ∈ pieces.flatten) :
    IsAsciiPrintable d := by
  induction h with
  | nil => cases hd
  | cons hpiece _ ih =>
    rw [List.flatten_cons, List.mem_append] at hd
    exact hd.elim (hpiece.isAsciiPrintable d) ih

/-! ## Reading -/

/-- A character that is no surrogate stands alone. -/
theorem joined_toNat (c : Char) (rest : List Char) : joined c.toNat rest = (c.toNat, rest) := by
  have hbounds := toNat_bounds c
  unfold joined
  rw [if_neg (by omega)]

theorem joined_pair {digits' : List Char} {high low : Nat}
    (hc : c.toNat = 0x10000 + (high - 0xd800) * 0x400 + (low - 0xdc00))
    (hhigh : 0xd800 ≤ high ∧ high < 0xdc00) (hlow : 0xdc00 ≤ low ∧ low < 0xe000)
    (h' : unit? digits' = some (low, [])) (rest : List Char) :
    joined high ('\\' :: 'u' :: digits' ++ rest) = (c.toNat, rest) := by
  unfold joined
  rw [if_pos hhigh]
  simp only [List.cons_append, (unit?_eq_some h').1 rest]
  rw [if_pos hlow, ← hc]

/-- **A piece is read as its character.** -/
theorem stringFrom_written (h : Written c piece) (fuel : Nat) (read : List Nat) (rest : List Char) :
    stringFrom (fuel + 1) read (piece ++ rest) = stringFrom fuel (c.toNat :: read) rest := by
  cases h with
  | plain h hquote hbackslash =>
    have hcontrol : ¬ c.toNat < 0x20 := Nat.not_lt_of_le (Char.le_def.mp h.1)
    rw [List.singleton_append, stringFrom, if_neg hcontrol]
    · exact hquote
    · exact fun _ heq _ => hbackslash heq
    · exact fun _ _ heq _ => hbackslash heq
  | @escape letter h =>
    have hu : letter ≠ 'u' := by
      rintro rfl
      cases h
    rw [List.cons_append, List.singleton_append, stringFrom, h]
    exact hu
  | unit hc h =>
    rw [List.cons_append, List.cons_append, stringFrom, (unit?_eq_some h).1 rest]
    simp only [joined_toNat]
  | pair hc hhigh hlow h h' =>
    rw [List.cons_append, List.cons_append, List.cons_append, List.cons_append,
      List.append_assoc, stringFrom, (unit?_eq_some h).1]
    simp only [joined_pair hc hhigh hlow h' rest]

theorem stringFrom_pieces (h : List.Forall₂ Written cs pieces) (fuel : Nat) (read : List Nat)
    (rest : List Char) :
    stringFrom (fuel + 1 + pieces.length) read (pieces.flatten ++ '"' :: rest) =
      .ok (read.reverse ++ cs.map Char.toNat, rest) := by
  induction h generalizing read with
  | nil =>
    rw [List.map_nil, List.append_nil]
    rfl
  | @cons c piece cs pieces hpiece _ ih =>
    rw [List.flatten_cons, List.append_assoc, List.length_cons, ← Nat.add_assoc,
      stringFrom_written hpiece, ih, List.reverse_cons, List.append_assoc,
      List.singleton_append, List.map_cons]

/-- The code points of characters are a text. -/
theorem ofPoints_toNat (cs : List Char) :
    Value.ofPoints (cs.map Char.toNat) = .string (String.ofList cs) := by
  have hvalid : (cs.map Char.toNat).all (fun n => decide n.isValidChar) = true := by
    rw [List.all_map, List.all_eq_true]
    exact fun c _ => decide_eq_true c.valid
  have hchars : (cs.map Char.toNat).map Text.pointChar = cs := by
    rw [List.map_map]
    refine (List.map_congr_left fun c _ => ?_).trans (List.map_id cs)
    rw [Function.comp_apply, Text.pointChar, if_pos (show c.toNat.isValidChar from c.valid),
      Char.ofNat_toNat]
    rfl
  rw [Value.ofPoints, if_pos hvalid, pointText, hchars]

theorem Written.length_pos (h : Written c piece) : 0 < piece.length := by
  cases h with
  | plain => exact Nat.succ_pos _
  | escape => exact Nat.succ_pos _
  | unit => exact Nat.succ_pos _
  | pair => exact Nat.succ_pos _

theorem length_le_flatten (h : List.Forall₂ Written cs pieces) :
    pieces.length ≤ pieces.flatten.length := by
  induction h with
  | nil => exact Nat.le_refl 0
  | cons hpiece _ ih =>
    have hpos := hpiece.length_pos
    rw [List.length_cons, List.flatten_cons, List.length_append]
    omega

/-- **What is written is read**: pieces in quotes are a JSON text of the characters they stand
for. -/
theorem parse_written (h : List.Forall₂ Written cs pieces) (room : Nat) :
    parse room ('"' :: pieces.flatten ++ ['"']) = .ok (.string (String.ofList cs)) := by
  have hpoints : points (pieces.flatten ++ ['"']) = .ok (cs.map Char.toNat, []) := by
    have hlength := length_le_flatten h
    obtain ⟨fuel, hfuel⟩ :
        ∃ fuel, (pieces.flatten ++ ['"']).length + 1 = fuel + 1 + pieces.length :=
      ⟨pieces.flatten.length + 1 -
        pieces.length, by rw [List.length_append, List.length_singleton]; omega⟩
    rw [points, hfuel, stringFrom_pieces h, List.reverse_nil, List.nil_append]
  have hstring : string (pieces.flatten ++ ['"']) = .ok (.string (String.ofList cs), []) := by
    rw [← ofPoints_toNat]
    exact bind_eq_ok_iff.mpr ⟨_, hpoints, rfl⟩
  exact parse_eq_ok_iff.mpr ⟨_, ⟨[], .string hstring, rfl⟩, Nat.zero_le room, rfl⟩

/-! ## The end of a string -/

/-- The offset of the first quote that no backslash escapes. -/
def closingQuote? : List Char → Option Nat
  | [] => none
  | '"' :: _ => some 0
  | '\\' :: _ :: rest => (closingQuote? rest).map (· + 2)
  | _ :: rest => (closingQuote? rest).map (· + 1)

theorem closingQuote?_cons {c : Char} (hquote : c ≠ '"') (hbackslash : c ≠ '\\')
    (rest : List Char) :
    closingQuote? (c :: rest) = (closingQuote? rest).map (· + 1) := by
  rw [closingQuote?]
  · exact hquote
  · exact fun _ _ heq _ => hbackslash heq

theorem closingQuote?_append {cs : List Char} (h : ∀ d ∈ cs, d ≠ '"' ∧ d ≠ '\\')
    (rest : List Char) :
    closingQuote? (cs ++ rest) = (closingQuote? rest).map (· + cs.length) := by
  induction cs with
  | nil => simp
  | cons c cs ih =>
    obtain ⟨hquote, hbackslash⟩ := h c List.mem_cons_self
    rw [List.cons_append, closingQuote?_cons hquote hbackslash, ih fun d hd =>
      h d (List.mem_cons_of_mem c hd), Option.map_map]
    rfl

/-- A string does not end within a piece. -/
theorem closingQuote?_piece (h : Written c piece) (rest : List Char) :
    closingQuote? (piece ++ rest) = (closingQuote? rest).map (· + piece.length) := by
  have hunit {digits : List Char} {n : Nat} (h : unit? digits = some (n, [])) (rest : List Char) :
      closingQuote? ('\\' :: 'u' :: digits ++ rest) =
        (closingQuote? rest).map (· + (digits.length + 2)) := by
    have hdigits (d : Char) (hd : d ∈ digits) : d ≠ '"' ∧ d ≠ '\\' :=
      have hdigit := (unit?_eq_some h).2 d hd
      ⟨ne_of_hexDigit? hdigit rfl, ne_of_hexDigit? hdigit rfl⟩
    rw [List.cons_append, List.cons_append, closingQuote?, closingQuote?_append hdigits,
      Option.map_map]
    rfl
  cases h with
  | plain _ hquote hbackslash => exact closingQuote?_cons hquote hbackslash rest
  | escape _ => rfl
  | unit _ h => exact hunit h rest
  | pair _ _ _ h h' =>
    rw [List.append_assoc, hunit h, hunit h', Option.map_map]
    refine congrFun (congrArg Option.map (funext fun x => ?_)) _
    simp only [Function.comp_apply, List.length_append, List.length_cons]
    omega

/-- **The quote behind the pieces ends the string**, and none within them. -/
theorem closingQuote?_written (h : List.Forall₂ Written cs pieces) (rest : List Char) :
    closingQuote? (pieces.flatten ++ '"' :: rest) = some pieces.flatten.length := by
  induction h with
  | nil => rfl
  | cons hpiece _ ih =>
    rw [List.flatten_cons, List.append_assoc, closingQuote?_piece hpiece, ih, List.length_append,
      Option.map_some, Nat.add_comm]

end CallAtlas.Json
