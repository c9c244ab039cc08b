import Mathlib.Data.List.Basic

/-!
# Texts that can be read back

When is a text that was written piece by piece determined by its pieces? Each piece has to show
where it ends, whatever follows it. `Delimited x y p` says so for two pieces: the texts that start
with them are the same exactly if `p` holds, which is the sameness of what was written, and what
follows is the same. Pieces that are written one after the other keep this (`Delimited.append`), and
so does any number of them, if what stands after the last cannot be taken for one more
(`flatMap_append_eq_iff`). A separator that does not occur in what it ends delimits it
(`Delimited.separated`), and one that does not occur in what follows delimits it from the other side
(`append_last_eq_iff`).

Since both directions are carried along, the laws are used for rewriting: an equation between texts
becomes an equation between what they show.
-/

namespace CallAtlas.Text

/-- Two pieces of text show where they end, and are the same exactly if `p` holds. -/
def Delimited (x y : List Char) (p : Prop) : Prop := ∀ s t, x ++ s = y ++ t ↔ p ∧ s = t

namespace Delimited

variable {x x' y y' : List Char} {p q : Prop}

/-- What is written in any case shows nothing. -/
theorem literal (x : List Char) : Delimited x x True := by
  intro s t
  rw [List.append_cancel_left_eq, true_and]

theorem append (h : Delimited x y p) (h' : Delimited x' y' q) :
    Delimited (x ++ x') (y ++ y') (p ∧ q) := by
  intro s t
  rw [List.append_assoc, List.append_assoc, h, h', and_assoc]

/-- A piece after something that is written in any case. -/
theorem after (z : List Char) (h : Delimited x y p) : Delimited (z ++ x) (z ++ y) p := by
  intro s t
  rw [List.append_assoc, List.append_assoc, List.append_cancel_left_eq, h]

theorem congr (h : Delimited x y p) (hpq : p ↔ q) : Delimited x y q := by
  intro s t
  rw [h, hpq]

/-- The pieces themselves are the same exactly if what they show is. -/
theorem eq_iff (h : Delimited x y p) : x = y ↔ p := by
  have hends := h [] []
  rwa [List.append_nil, List.append_nil, and_iff_left rfl] at hends

/-- A piece that does not contain the character after it ends there. Induction on one of the pieces,
the other follows.
-/
theorem separated (c : Char) (hx : c ∉ x) (hy : c ∉ y) :
    Delimited (x ++ [c]) (y ++ [c]) (x = y) := by
  intro s t
  induction x generalizing y with
  | nil =>
    cases y with
    | nil => simp
    | cons b y =>
      have hne : c ≠ b := fun h => hy (h ▸ List.mem_cons_self)
      simp [hne]
  | cons a x ih =>
    cases y with
    | nil =>
      have hne : a ≠ c := fun h => hx (h ▸ List.mem_cons_self)
      simp [hne]
    | cons b y =>
      have htail :=
        ih (fun h => hx (List.mem_cons_of_mem a h)) (fun h => hy (List.mem_cons_of_mem b h))
      simp only [List.cons_append, List.cons.injEq, htail, and_assoc]

end Delimited

/-- Read from the end, what follows the last occurrence of a character ends there. -/
theorem append_last_eq_iff (c : Char) {x x' y y' : List Char} (hy : c ∉ y) (hy' : c ∉ y') :
    x ++ [c] ++ y = x' ++ [c] ++ y' ↔ x = x' ∧ y = y' := by
  rw [← List.reverse_inj]
  simp only [List.reverse_append, List.reverse_singleton]
  rw [← List.append_assoc, ← List.append_assoc,
    Delimited.separated c (by simpa using hy) (by simpa using hy')]
  simp only [List.reverse_inj, and_comm]

/-- **Any number of pieces.** If each of them shows its `key`, and if what stands after the last of
them does not start like one, they show the list of keys. Induction on one of the lists: as long as
both have a next piece, `key` is shared, and none ends before the other. -/
theorem flatMap_append_eq_iff {α β : Type} (code : α → List Char) (key : α → β) {as bs : List α}
    {s t : List Char} (hcode : ∀ a ∈ as, ∀ b ∈ bs, Delimited (code a) (code b) (key a = key b))
    (hs : ∀ b ∈ bs, ¬ code b <+: s) (ht : ∀ a ∈ as, ¬ code a <+: t) :
    as.flatMap code ++ s = bs.flatMap code ++ t ↔ as.map key = bs.map key ∧ s = t := by
  induction as generalizing bs with
  | nil =>
    cases bs with
    | nil => simp
    | cons b bs =>
      -- the rest would have to start with a piece
      have hmore : s ≠ code b ++ (bs.flatMap code ++ t) :=
        fun h => hs b List.mem_cons_self ⟨_, h.symm⟩
      simp [hmore]
  | cons a as ih =>
    cases bs with
    | nil =>
      have hmore : code a ++ (as.flatMap code ++ s) ≠ t := fun h => ht a List.mem_cons_self ⟨_, h⟩
      simp [hmore]
    | cons b bs =>
      have htail :=
        ih (fun a ha b hb => hcode a (List.mem_cons_of_mem _ ha) b (List.mem_cons_of_mem _ hb))
        (fun b hb => hs b (List.mem_cons_of_mem _ hb))
          (fun a ha => ht a (List.mem_cons_of_mem _ ha))
      rw [List.flatMap_cons, List.flatMap_cons, List.append_assoc, List.append_assoc,
        hcode a List.mem_cons_self b List.mem_cons_self, htail, List.map_cons, List.map_cons,
        List.cons.injEq, and_assoc]

/-! ## Written numbers and joined texts -/

/-- The decimal form of a number consists of digits, after a minus sign perhaps. -/
theorem mem_toString_int {z : Int} {c : Char} (h : c ∈ (toString z).toList) :
    c = '-' ∨ c.isDigit = true := by
  have hdigit {n : Nat} (h : c ∈ n.repr.toList) : c.isDigit = true :=
    Nat.isDigit_of_mem_toDigits (by decide) (by decide) (Nat.toList_repr ▸ h)
  match z, h with
  | .ofNat n, h => exact .inr (hdigit h)
  | .negSucc n, h =>
    have hmem : c ∈ ("-" ++ n.succ.repr).toList := h
    rw [String.toList_append, List.mem_append] at hmem
    rcases hmem with hsign | hmem
    · exact .inl (by simpa using hsign)
    · exact .inr (hdigit hmem)

/-- Joined texts: the first, and each of the others after a separator. -/
theorem toList_intercalate_cons (separator first : String) (others : List String) :
    (separator.intercalate (first :: others)).toList =
      first.toList ++ others.flatMap fun text => separator.toList ++ text.toList := by
  induction others generalizing first with
  | nil => simp
  | cons next others ih =>
    rw [String.intercalate_cons_cons, String.toList_append, String.toList_append, ih,
      List.flatMap_cons]
    simp only [List.append_assoc]

/-- More texts, joined to others. -/
theorem toList_intercalate_append (separator : String) {texts : List String} (others : List String)
    (h : texts ≠ []) : (separator.intercalate (texts ++ others)).toList =
      (separator.intercalate texts).toList ++ others.flatMap fun text =>
      separator.toList ++ text.toList := by
  obtain ⟨first, texts, rfl⟩ := List.exists_cons_of_ne_nil h
  rw [List.cons_append, toList_intercalate_cons, toList_intercalate_cons, List.flatMap_append,
    List.append_assoc]

end CallAtlas.Text
