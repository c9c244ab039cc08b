import CallAtlas.Proofs.Source.Tokens
import Mathlib

/-!
# Tokens stand one after the other

Places are ordered by line and column, which is the order in which a text is read. The tokens of a
text are `Spaced` in this order: each begins where the one before it has ended or later, is as long
as its characters, and ends within the text. A line end that was added behind the text belongs to no
token.
-/

namespace CallAtlas.Source

/-! ## The order of places -/

namespace Place

/-- Places are ordered by their lines, and on one line by their columns, whatever is reported. -/
instance : Preorder Place := Preorder.lift fun p => toLex (p.line, p.column)

theorem le_iff {p q : Place} : p ≤ q ↔ p.line < q.line ∨ p.line = q.line ∧ p.column ≤ q.column :=
  Prod.Lex.le_iff

theorem lt_iff {p q : Place} : p < q ↔ p.line < q.line ∨ p.line = q.line ∧ p.column < q.column :=
  Prod.Lex.lt_iff

theorem line_le {p q : Place} (h : p ≤ q) : p.line ≤ q.line := by
  rcases le_iff.mp h with h | h <;> omega

theorem lt_after (p : Place) (c : Char) : p < p.after c := by
  rw [lt_iff, after]
  split
  · exact .inl (Nat.lt_succ_self _)
  · exact .inr ⟨rfl, Nat.lt_add_of_pos_right c.utf8Size_pos⟩

theorem le_foldl_after (p : Place) (cs : List Char) : p ≤ cs.foldl after p := by
  induction cs generalizing p with
  | nil => exact le_rfl
  | cons c cs ih => exact (lt_after p c).le.trans (ih (p.after c))

theorem lt_foldl_after (p : Place) {cs : List Char} (h : cs ≠ []) : p < cs.foldl after p := by
  obtain ⟨c, cs, rfl⟩ := List.exists_cons_of_ne_nil h
  exact (lt_after p c).trans_le (le_foldl_after (p.after c) cs)

end Place

/-! ## Spaced tokens -/

/-- A token is as long as its characters, and one with characters of its own ends within the text;
`fin` is the end of the text. -/
structure Token.Sound (fin : Place) (t : Token) : Prop where
  stop_eq : t.extent.stop = t.lexeme.chars.foldl Place.after t.extent.start
  stop_le : t.lexeme.isLayout = false → t.extent.stop ≤ fin
  word : ∀ w, t.lexeme = .word w → w ≠ []

theorem Token.Sound.start_le {fin : Place} {t : Token} (h : t.Sound fin) :
    t.extent.start ≤ t.extent.stop :=
  h.stop_eq ▸ Place.le_foldl_after _ _

theorem Token.Sound.start_lt {fin : Place} {t : Token} (h : t.Sound fin) {w : List Char}
    (hword : t.lexeme = .word w) :
    t.extent.start < t.extent.stop := by
  rw [h.stop_eq, hword]
  exact Place.lt_foldl_after _ (h.word w hword)

/-- Each token begins where the one before it has ended or later, the first at a place or later. -/
def Spaced (fin : Place) : Place → List Token → Prop
  | _, [] => True
  | p, t :: ts => p ≤ t.extent.start ∧ t.Sound fin ∧ Spaced fin t.extent.stop ts

variable {fin p q : Place} {ts : List Token}

theorem Spaced.of_le (h : Spaced fin p ts) (hle : q ≤ p) : Spaced fin q ts := by
  cases ts with
  | nil => trivial
  | cons t ts => exact ⟨hle.trans h.1, h.2⟩

/-- Layout takes no space. -/
theorem Spaced.layout_append {more : List Token} (hlayout : ∀ t ∈ more, t.lexeme.isLayout = true)
    (hextent : ∀ t ∈ more, t.extent = ⟨p, p⟩) (h : Spaced fin p ts) :
    Spaced fin p (more ++ ts) := by
  induction more with
  | nil => exact h
  | cons t more ih =>
    obtain ⟨ht, hmore⟩ := List.forall_mem_cons.mp hextent
    obtain ⟨htl, hmorel⟩ := List.forall_mem_cons.mp hlayout
    have hchars : t.lexeme.chars = [] := by
      cases hl : t.lexeme <;> simp_all [Lexeme.chars, Lexeme.isLayout]
    refine ⟨by rw [ht], ⟨by rw [ht, hchars, List.foldl_nil], fun hnot => ?_, fun w hw => ?_⟩, ?_⟩
    · rw [htl] at hnot
      cases hnot
    · rw [hw] at htl
      cases htl
    · rw [ht]
      exact ih hmorel hmore

/-! ## The lexer -/

namespace Cursor

variable {cursor : Cursor}

/-- What is left of a text ends at a place, but for a line end that was added behind it. -/
def EndsAt (fin : Place) (cursor : Cursor) : Prop :=
  cursor.rest = [] ∨ ∃ left added, cursor.rest = left ++ added ∧ (added = [] ∨ added = ['\n']) ∧
    left.foldl Place.after cursor.place = fin

theorem le_advance (cursor : Cursor) (n : Nat) : cursor.place ≤ (cursor.advance n).place :=
  Place.le_foldl_after _ _

theorem EndsAt.advance (h : cursor.EndsAt fin) (n : Nat) : (cursor.advance n).EndsAt fin := by
  rcases h with hrest | ⟨left, added, hrest, hadded, hfin⟩
  · exact .inl (by rw [Cursor.advance, hrest, List.drop_nil])
  · by_cases hn : n ≤ left.length
    · refine .inr ⟨left.drop n, added, ?_, hadded, ?_⟩
      · rw [Cursor.advance, hrest, List.drop_append_of_le_length hn]
      · rw [Cursor.advance, hrest, List.take_append_of_le_length hn, ← List.foldl_append,
          List.take_append_drop, hfin]
    · refine .inl (List.drop_eq_nil_of_le ?_)
      have hlength : added.length ≤ 1 := by rcases hadded with rfl | rfl <;> simp
      rw [hrest, List.length_append]
      omega

/-- What does not end with a line does not reach into what was added. -/
theorem EndsAt.advance_le (h : cursor.EndsAt fin) (hrest : cursor.rest ≠ []) {n : Nat}
    (hend : ∀ c ∈ (cursor.rest.take n).getLast?, c ≠ '\n') : (cursor.advance n).place ≤ fin := by
  obtain ⟨left, added, heq, hadded, rfl⟩ := h.resolve_left hrest
  by_cases hn : n ≤ left.length
  · have hsplit : left.foldl Place.after cursor.place =
        (left.drop n).foldl Place.after ((left.take n).foldl Place.after cursor.place) := by
      rw [← List.foldl_append, List.take_append_drop]
    rw [Cursor.advance, heq, List.take_append_of_le_length hn, hsplit]
    exact Place.le_foldl_after _ _
  · have htake : cursor.rest.take n = left ++ added := by
      rw [heq]
      apply List.take_of_length_le
      have hlength : added.length ≤ 1 := by rcases hadded with rfl | rfl <;> simp
      rw [List.length_append]
      omega
    rcases hadded with rfl | rfl
    · rw [Cursor.advance, htake, List.append_nil]
    · rw [htake] at hend
      exact absurd rfl (hend '\n' (by simp))

end Cursor

namespace State

variable {s : State}

theorem extent_of_finish? {last : List Token} (h : s.finish? = some last) :
    ∀ t ∈ last, t.extent = ⟨s.cursor.place, s.cursor.place⟩ := by
  unfold finish? at h
  split at h
  next =>
    cases h
    intro t ht
    rcases List.mem_append.mp ht with ht | ht
    · rw [List.eq_of_mem_replicate ht]
      rfl
    · rw [List.mem_singleton.mp ht]
      rfl
  next => cases h

/-- **Tokens are read one after the other.** -/
theorem Lexes.spaced (h : Lexes s ts) (hs : s.cursor.EndsAt fin) :
    Spaced fin s.cursor.place ts := by
  induction h with
  | @done s last hrest hfinish =>
    rw [← List.append_nil last]
    exact .layout_append (isLayout_of_finish? hfinish) (extent_of_finish? hfinish) trivial
  | @step s next more ts hstep hrest ih =>
    have hmoves := moves_of_step? hstep
    obtain ⟨n, hnext⟩ := hmoves.exists_advance
    have hrest := ih (hnext ▸ hs.advance n)
    have hle : s.cursor.place ≤ next.cursor.place := hnext ▸ s.cursor.le_advance n
    cases hmoves with
    | word n hline hsome hchars =>
      refine ⟨le_rfl, ⟨rfl, fun _ => ?_, ?_⟩, hrest⟩
      · refine hs.advance_le (fun hnil => hsome (by rw [hnil, List.take_nil])) fun c hc hbreak => ?_
        have hname := hchars c (List.mem_of_getLast? hc)
        rw [hbreak] at hname
        cases hname
      · rintro w ⟨⟩
        exact hsome
    | other _ t n hcursor hword hlayout hchars hextent hsome hend =>
      rw [List.singleton_append, Spaced, hextent]
      refine ⟨le_rfl, ⟨?_, fun _ => ?_, fun w hw => absurd hw (hword w)⟩, hrest⟩
      · rw [hextent, hchars, hcursor, Cursor.advance]
      · rw [hextent, hcursor]
        exact hs.advance_le hsome hend
    | layout _ t more n hcursor hbrackets hlayout place hplace hextent =>
      rcases hplace with rfl | rfl
      · exact .layout_append hlayout hextent (hrest.of_le hle)
      · exact (Spaced.layout_append hlayout hextent hrest).of_le hle
    | gap n => exact hrest.of_le hle
    | comment n => exact hrest.of_le hle
    | line _ n => exact hrest.of_le hle

end State

/-- **The tokens of a text are spaced**, from the place where it starts to the place where it
ends. -/
theorem spaced_of_tokensFrom? {text : List Char} (h : tokensFrom? p text = some ts) :
    Spaced (text.foldl Place.after p) p ts := by
  obtain ⟨ts, rfl, hlexes⟩ := State.exists_lexes_of_run? h
  refine hlexes.spaced (.inr ?_)
  unfold withFinalLineEnd
  split
  · exact ⟨text, [], (List.append_nil text).symm, .inl rfl, rfl⟩
  · exact ⟨text, ['\n'], rfl, .inr rfl, rfl⟩

end CallAtlas.Source
