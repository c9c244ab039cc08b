import CallAtlas.Json.Reader
import Mathlib.Data.List.TakeWhile

/-!
# What the JSON reader makes of a text

A reader consumes a text from the left. It leaves an end of the text or finds it malformed, it stops
at a whole number with too many digits, or it finds more levels than it has room for; `Reads` says
so for one step, and `reads_value` for the reader as a whole. So a number is refused for its digits
only if the text has that many in a row (`exists_run_of_parse`), and a text for its levels only if
it opens more of them than there is room for (`lt_openings_of_parse`).
-/

namespace CallAtlas.Json

variable {α β : Type} {room : Nat} {cs cs' : List Char}

/-- Digits in a row, more of them than a whole number may have. -/
structure LongRun (run cs : List Char) : Prop where
  digits : ∀ c ∈ run, c.isDigit = true
  long : digitLimit < run.length
  within : run <:+: cs

/-- How many arrays and objects a text opens at most. -/
def openings (cs : List Char) : Nat := cs.countP fun c => c == '[' || c == '{'

/-- What a reader with so much room may make of a text. -/
def Reads (room : Nat) (cs : List Char) : Except ReadError (α × List Char) → Prop
  | .ok (_, rest) => rest <:+ cs
  | .error .malformed => True
  | .error (.longNumber n) => ∃ run, run.length = n ∧ LongRun run cs
  | .error .tooDeep => room < openings cs

/-- What was read of an end was read of the whole. -/
theorem Reads.of_suffix {r : Except ReadError (α × List Char)} (h : Reads room cs r)
    (hcs : cs <:+ cs') :
    Reads room cs' r := by
  obtain (_ | n | _) | ⟨a, rest⟩ := r
  · trivial
  · obtain ⟨run, hlength, hrun⟩ := h
    exact ⟨run, hlength, hrun.digits, hrun.long, hrun.within.trans hcs.isInfix⟩
  · exact Nat.lt_of_lt_of_le h (hcs.sublist.countP_le)
  · exact List.IsSuffix.trans h hcs

/-- Two readers in a row: the second reads what the first leaves. -/
theorem Reads.bind {x : Except ReadError (α × List Char)}
    {f : α × List Char → Except ReadError (β × List Char)} (h : Reads room cs x)
    (hf : ∀ a rest, Reads room rest (f (a, rest))) : Reads room cs (x >>= f) := by
  obtain (_ | n | _) | ⟨a, rest⟩ := x
  · trivial
  · exact h
  · exact h
  · exact (hf a rest).of_suffix h

theorem skipBlanks_suffix (cs : List Char) : skipBlanks cs <:+ cs := List.dropWhile_suffix _

/-- Blanks and the character behind them are passed. -/
theorem suffix_of_skipBlanks {c : Char} {rest : List Char} (h : skipBlanks cs = c :: rest) :
    rest <:+ cs :=
  (List.suffix_cons c rest).trans (h ▸ skipBlanks_suffix cs)

/-! ## Strings -/

theorem suffix_of_unit? {n : Nat} {rest : List Char} (h : unit? cs = some (n, rest)) :
    rest <:+ cs := by
  unfold unit? at h
  split at h
  next a b c d more =>
    simp only [Option.bind_eq_bind, Option.bind_eq_some_iff, Option.pure_def, Option.some.injEq,
      Prod.mk.injEq] at h
    obtain ⟨-, -, -, -, -, -, -, -, -, rfl⟩ := h
    exact ⟨[a, b, c, d], rfl⟩
  next => cases h

/-- Whether or not a low surrogate follows, an end is left. -/
theorem joined_suffix (unit : Nat) (cs : List Char) : (joined unit cs).2 <:+ cs := by
  unfold joined
  split
  · split
    next more =>
      split
      next low after hunit =>
        split
        · exact (suffix_of_unit? hunit).trans ⟨['\\', 'u'], rfl⟩
        · exact List.suffix_rfl
      next => exact List.suffix_rfl
    next => exact List.suffix_rfl
  · exact List.suffix_rfl

/-- The induction is on the fuel; each turn passes a character or an escape. -/
theorem reads_stringFrom (fuel : Nat) (read : List Nat) (cs : List Char) :
    Reads room cs (stringFrom fuel read cs) := by
  induction fuel generalizing read cs with
  | zero => trivial
  | succ fuel ih =>
    unfold stringFrom
    split
    next => trivial
    next rest => exact List.suffix_cons _ _
    next rest =>
      split
      next unit after hunit =>
        refine (ih _ _).of_suffix ?_
        exact ((joined_suffix unit after).trans (suffix_of_unit? hunit)).trans ⟨['\\', 'u'], rfl⟩
      next => trivial
    next c rest _ =>
      split
      next e _ => exact (ih _ _).of_suffix ⟨['\\', c], rfl⟩
      next => trivial
    next c rest _ _ _ =>
      split
      · trivial
      · exact (ih _ _).of_suffix (List.suffix_cons _ _)

theorem reads_string (cs : List Char) : Reads room cs (string cs) :=
  .bind (reads_stringFrom _ _ _) fun _ _ => List.suffix_rfl

theorem reads_name (cs : List Char) : Reads room cs (name cs) :=
  .bind (reads_stringFrom _ _ _) fun _ _ => List.suffix_rfl

/-! ## Numbers -/

/-- A fraction is a point with digits behind it, or nothing is taken. -/
theorem fraction_suffix (cs : List Char) : (fraction cs).2 <:+ cs := by
  unfold fraction
  split
  next rest =>
    dsimp only
    split
    · exact List.suffix_rfl
    · exact (List.dropWhile_suffix _).trans (List.suffix_cons _ _)
  next => exact List.suffix_rfl

/-- An exponent is its letter with digits behind it, or nothing is taken. -/
theorem exponent_suffix (cs : List Char) : (exponent cs).2 <:+ cs := by
  unfold exponent
  split
  next e rest =>
    split
    · split
      next negative more hsign =>
        have hmore : more <:+ e :: rest := by
          split at hsign
          · cases hsign
            exact ⟨[e, '-'], rfl⟩
          · cases hsign
            exact ⟨[e, '+'], rfl⟩
          · cases hsign
            exact List.suffix_cons _ _
        dsimp only
        split
        · exact List.suffix_rfl
        · exact (List.dropWhile_suffix _).trans hmore
    · exact List.suffix_rfl
  next => exact List.suffix_rfl

/-- The only reader that can stop at a whole number with too many digits, and these then stand in a
row. -/
theorem reads_number (negative : Bool) (cs : List Char) : Reads room cs (number negative cs) := by
  unfold number
  extract_lets digits rest n
  have hdigits : digits <+: cs ∧ ∀ c ∈ digits, c.isDigit = true := by
    dsimp only [digits]
    split
    next tail =>
      refine ⟨⟨tail, rfl⟩, fun c hc => ?_⟩
      rw [List.mem_singleton.mp hc]
      rfl
    next => exact ⟨List.takeWhile_prefix _, fun c hc => List.mem_takeWhile_imp hc⟩
  have hrest : ∀ places more, fraction rest = (places, more) → (exponent more).2 <:+ cs := by
    intro places more hfraction
    have hmore := fraction_suffix rest
    rw [hfraction] at hmore
    exact ((exponent_suffix more).trans hmore).trans (List.drop_suffix _ _)
  clear_value digits
  split
  · trivial
  · split
    next places more hfraction =>
      split
      next power left hexponent =>
        have hleft := hrest places more hfraction
        rw [hexponent] at hleft
        split
        · split
          next hlong => exact ⟨digits, rfl, hdigits.2, hlong, hdigits.1.isInfix⟩
          next => exact hleft
        · exact hleft

/-! ## Values -/

/-- An opening bracket counts. -/
theorem openings_cons {c : Char} (hc : c = '[' ∨ c = '{') (rest : List Char) :
    openings (c :: rest) = openings rest + 1 := List.countP_cons_of_pos (by simpa using hc)

/-- A level that is opened takes the room of one. -/
theorem Reads.opened {r : Except ReadError (α × List Char)} {c : Char} {inner rest : List Char}
    (h : Reads room inner r) (hinner : inner <:+ rest) (hc : c = '[' ∨ c = '{') :
    Reads (room + 1) (c :: rest) r := by
  have hrest : Reads room (c :: rest) r := h.of_suffix (hinner.trans (List.suffix_cons c rest))
  obtain (_ | n | _) | ⟨a, after⟩ := r
  · trivial
  · exact hrest
  · have hroom : room < openings inner := h
    have hle : openings inner ≤ openings rest := hinner.sublist.countP_le
    show room + 1 < openings (c :: rest)
    rw [openings_cons hc]
    omega
  · exact hrest

/-- Values, members and items read each other, with less fuel each time. A bracket takes one level
of the room, and one opening is counted for it. -/
theorem reads_value (room fuel : Nat) :
    (∀ cs, Reads room cs (value room fuel cs)) ∧
      (∀ read cs, Reads room cs (members room fuel read cs)) ∧
      ∀ read cs, Reads room cs (items room fuel read cs) := by
  induction fuel generalizing room with
  | zero => exact ⟨fun _ => trivial, fun _ _ => trivial, fun _ _ => trivial⟩
  | succ fuel ih =>
    obtain ⟨hvalue, hmembers, hitems⟩ := ih room
    refine ⟨fun cs => ?_, fun read cs => ?_, fun read cs => ?_⟩
    · unfold value
      split
      next w v _ => exact List.drop_suffix _ _
      next =>
        split
        next rest => exact (reads_string _).of_suffix (List.suffix_cons _ _)
        next rest _ =>
          have hrest : skipBlanks rest <:+ '{' :: rest :=
            (skipBlanks_suffix _).trans (List.suffix_cons _ _)
          split
          next hroom =>
            show room < openings ('{' :: rest)
            rw [openings_cons (.inr rfl)]
            omega
          next hroom =>
            obtain ⟨inside, rfl⟩ := Nat.exists_eq_succ_of_ne_zero hroom
            split
            next more heq =>
              rw [heq] at hrest
              exact (List.suffix_cons _ _).trans hrest
            next => exact ((ih inside).2.1 _ _).opened (skipBlanks_suffix rest) (.inr rfl)
        next rest _ =>
          have hrest : skipBlanks rest <:+ '[' :: rest :=
            (skipBlanks_suffix _).trans (List.suffix_cons _ _)
          split
          next hroom =>
            show room < openings ('[' :: rest)
            rw [openings_cons (.inl rfl)]
            omega
          next hroom =>
            obtain ⟨inside, rfl⟩ := Nat.exists_eq_succ_of_ne_zero hroom
            split
            next more heq =>
              rw [heq] at hrest
              exact (List.suffix_cons _ _).trans hrest
            next => exact ((ih inside).2.2 _ _).opened (skipBlanks_suffix rest) (.inl rfl)
        next rest => exact (reads_number _ _).of_suffix (List.suffix_cons _ _)
        next => exact reads_number _ _
    · unfold members
      split
      next rest =>
        refine Reads.of_suffix (.bind (reads_name _) fun name rest => ?_) (List.suffix_cons _ _)
        dsimp only
        split
        next after hcolon =>
          have hafter := suffix_of_skipBlanks hcolon
          refine Reads.of_suffix (.bind (hvalue _) fun v rest' => ?_)
            ((skipBlanks_suffix _).trans hafter)
          dsimp only
          split
          next more hcomma =>
            exact (hmembers _ _).of_suffix
              ((skipBlanks_suffix _).trans (suffix_of_skipBlanks hcomma))
          next more hclose => exact suffix_of_skipBlanks hclose
          next => trivial
        next => trivial
      next => trivial
    · unfold items
      refine .bind (hvalue cs) fun v rest => ?_
      dsimp only
      split
      next more hcomma =>
        exact (hitems _ _).of_suffix ((skipBlanks_suffix _).trans (suffix_of_skipBlanks hcomma))
      next more hclose => exact suffix_of_skipBlanks hclose
      next => trivial

end CallAtlas.Json
