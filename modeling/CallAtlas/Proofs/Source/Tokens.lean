import CallAtlas.Proofs.Source.Places
import CallAtlas.Source.Lexer

/-!
# Where tokens stand

Reading a text moves a cursor over it, and `State.Moves` says what one step can do: read a word or
another token, read changes of layout, pass over blanks, or enter a line. What a whole run says
about tokens is derived from that:

- words stand in the text in the order of the tokens (`Lexes.pairwise`);
- words that begin a line are separated by nothing but blanks and continuations of the line
  (`exists_two_words`, `exists_three_words`).
-/

namespace CallAtlas.Source

/-! ## Cursors -/

namespace Cursor

variable {cursor : Cursor} {text before : List Char}

/-- A cursor has come over the beginning of a text. -/
structure After (text before : List Char) (cursor : Cursor) : Prop where
  text_eq : text = before ++ cursor.rest
  place_eq : cursor.place = placeAfter before

theorem After.advance (h : cursor.After text before) (n : Nat) :
    (cursor.advance n).After text (before ++ cursor.rest.take n) where
  text_eq := by
    rw [Cursor.advance, List.append_assoc, List.take_append_drop, h.text_eq]
  place_eq := by
    rw [Cursor.advance, placeAfter_append, h.place_eq]

theorem advance_advance (cursor : Cursor) (m n : Nat) :
    (cursor.advance m).advance n = cursor.advance (m + n) := by
  simp only [advance, List.drop_drop, List.take_add, List.foldl_append]

end Cursor

/-! ## Steps -/

/-- A character that can stand between the words of a line. -/
def isGap (c : Char) : Bool := [' ', '\t', '\x0c', '\\', '\n'].contains c

theorem not_isNameChar_of_isGap {c : Char} (h : isGap c = true) : isNameChar c = false := by
  have hmem := List.contains_iff_mem.mp h
  simp only [List.mem_cons, List.not_mem_nil, or_false] at hmem
  rcases hmem with rfl | rfl | rfl | rfl | rfl <;> decide

/-- The characters of a token; layout has none. -/
def Lexeme.chars : Lexeme → List Char
  | .word text | .number text | .string text | .sign text => text
  | .lineEnd | .indent | .dedent | .finish => []

/-! ### Where literals end -/

theorem exists_of_closeShort? {quote : Char} {passed n : Nat} {cs : List Char}
    (h : closeShort? quote passed cs = some n) :
    ∃ body rest, cs = body ++ quote :: rest ∧ n = passed + body.length + 1 := by
  fun_induction closeShort? quote passed cs with
  | case1 => cases h
  | case2 passed c rest ih =>
    obtain ⟨body, rest, rfl, rfl⟩ := ih h
    exact ⟨'\\' :: c :: body, rest, rfl, by simp only [List.length_cons]; omega⟩
  | case3 passed rest =>
    cases h
    exact ⟨[], rest, rfl, rfl⟩
  | case4 => cases h
  | case5 passed c rest _ _ _ ih =>
    obtain ⟨body, rest, rfl, rfl⟩ := ih h
    exact ⟨c :: body, rest, rfl, by simp only [List.length_cons]; omega⟩

theorem exists_of_closeLong? {quote : Char} {passed n : Nat} {cs : List Char}
    (h : closeLong? quote passed cs = some n) :
    ∃ body rest, cs = body ++ quote :: rest ∧ n = passed + body.length + 1 := by
  fun_induction closeLong? quote passed cs with
  | case1 passed c rest ih =>
    obtain ⟨body, rest, rfl, rfl⟩ := ih h
    exact ⟨'\\' :: c :: body, rest, rfl, by simp only [List.length_cons]; omega⟩
  | case2 passed a b c rest _ hquotes =>
    obtain ⟨ha, hb, rfl⟩ := hquotes
    cases h
    exact ⟨[a, b], rest, rfl, rfl⟩
  | case3 passed a b c rest _ _ ih =>
    obtain ⟨body, rest, hrest, rfl⟩ := ih h
    exact ⟨a :: body, rest, by rw [hrest, List.cons_append], by simp only [List.length_cons]; omega⟩
  | case4 => cases h

/-- A string ends with the quote that it begins with. -/
theorem getLast?_take_stringSize? {cs : List Char} {n : Nat} (h : stringSize? cs = some n) :
    (cs.take n).getLast? = cs.head? := by
  -- Whatever was passed before, what is taken ends with the quote.
  have hclosed (opened : List Char) {tail : List Char} {quote : Char}
      (hclose : ∃ body rest, tail = body ++ quote :: rest ∧ n = opened.length + body.length + 1) :
      ((opened ++ tail).take n).getLast? = some quote := by
    obtain ⟨body, rest, rfl, rfl⟩ := hclose
    rw [Nat.add_assoc, List.take_length_add_append, List.take_length_add_append,
      List.take_succ_cons, List.take_zero, ← List.append_assoc, List.getLast?_concat]
  unfold stringSize? at h
  split at h
  next => cases h
  next quote a b rest =>
    split at h
    next => exact hclosed [quote, a, b] (exists_of_closeLong? h)
    next => exact hclosed [quote] (exists_of_closeShort? h)
  next quote rest _ => exact hclosed [quote] (exists_of_closeShort? h)

/-- A number ends on its line. -/
theorem ne_break_of_numberSize? {cs : List Char} {n : Nat} (h : numberSize? cs = some n) :
    ∀ c ∈ (cs.take n).getLast?, c ≠ '\n' := by
  obtain ⟨rest, -, hn⟩ := Option.map_eq_some_iff.mp h
  have htake : cs.take n = (cs.takeWhile (· ≠ '\n')).take n := by
    have hline : cs.takeWhile (· ≠ '\n') ++ cs.dropWhile (· ≠ '\n') = cs :=
      List.takeWhile_append_dropWhile
    conv_lhs => rw [← hline]
    exact List.take_append_of_le_length (by omega)
  intro c hc
  rw [htake] at hc
  have hmem := List.mem_of_mem_take (List.mem_of_getLast? hc)
  simpa using List.all_eq_true.mp List.all_takeWhile c hmem

namespace State

variable {s next : State} {more : List Token}

/-- What a step can do. -/
inductive Moves (s : State) : State → List Token → Prop
  /-- Inside a line a word is read. -/
  | word (n : Nat) (hline : s.atLineStart = false) (hsome : s.cursor.rest.take n ≠ [])
      (hchars : ∀ c ∈ s.cursor.rest.take n, isNameChar c = true) :
      Moves s (s.advance n)
        [⟨.word (s.cursor.rest.take n), s.cursor.place, (s.advance n).cursor.place⟩]
  /-- A token is read that is neither a word nor layout; it does not end with a line. -/
  | other (next : State) (t : Token) (n : Nat) (hcursor : next.cursor = s.cursor.advance n)
      (hword : ∀ w, t.lexeme ≠ .word w) (hlayout : t.lexeme.isLayout = false)
      (hchars : t.lexeme.chars = s.cursor.rest.take n)
        (hextent : t.extent = ⟨s.cursor.place, next.cursor.place⟩)
      (hrest : s.cursor.rest ≠ []) (hend : ∀ c ∈ (s.cursor.rest.take n).getLast?, c ≠ '\n') :
        Moves s next [t]
  /-- Outside of brackets a line ends, or blocks are opened or closed, before or after the
  characters of the step. -/
  | layout (next : State) (t : Token) (more : List Token) (n : Nat)
      (hcursor : next.cursor = s.cursor.advance n)
      (hbrackets : next.brackets = []) (hlayout : ∀ l ∈ t :: more, l.lexeme.isLayout = true)
        (place : Place)
      (hplace : place = s.cursor.place ∨ place = next.cursor.place)
        (hextent : ∀ l ∈ t :: more, l.extent = ⟨place, place⟩) :
      Moves s next (t :: more)
  /-- Inside a line blanks are passed over, or the line is continued. -/
  | gap (n : Nat) (hline : s.atLineStart = false)
      (hgap : ∀ c ∈ s.cursor.rest.take n, isGap c = true) :
      Moves s (s.advance n) []
  /-- Inside a line a comment is passed over, which ends with the line. -/
  | comment (n : Nat) (hline : s.atLineStart = false)
      (hend : (s.advance n).cursor.rest.head?.all (· = '\n') = true) :
      Moves s (s.advance n) []
  /-- A line is entered or passed over, or it ends inside of brackets. -/
  | line (next : State) (n : Nat) (hcursor : next.cursor = s.cursor.advance n)
      (hbrackets : next.brackets = s.brackets) (hline : s.atLineStart = true ∨ s.brackets ≠ []) :
        Moves s next []

theorem moves_emit {lexeme : List Char → Lexeme} {inner : State} {n : Nat}
    (hcursor : inner.cursor = s.cursor)
    (hword : ∀ cs w, lexeme cs ≠ .word w) (hlayout : ∀ cs, (lexeme cs).isLayout = false)
    (hchars : ∀ cs, (lexeme cs).chars = cs) (hrest : s.cursor.rest ≠ [])
    (hend : ∀ c ∈ (s.cursor.rest.take n).getLast?, c ≠ '\n')
    (h : inner.emit lexeme n = (next, more)) :
    Moves s next more := by
  cases h
  refine .other _ _ n ?_ (hword _) (hlayout _) ?_ ?_ hrest hend
  · rw [advance, hcursor]
  · rw [hchars, hcursor]
  · rw [hcursor]

theorem moves_word (hline : s.atLineStart = false)
    (hstart : s.cursor.rest.head?.any isNameChar = true)
    (h : s.word? = some (next, more)) : Moves s next more := by
  have hrest : s.cursor.rest ≠ [] := by
    intro hnil
    rw [hnil] at hstart
    cases hstart
  unfold word? at h
  simp only at h
  split at h
  next hmarked =>
    obtain ⟨n, hn, h⟩ := Option.map_eq_some_iff.mp h
    refine moves_emit rfl (by simp) (fun _ => rfl) (fun _ => rfl) hrest ?_ h
    intro c hc
    have htake : s.cursor.rest.take ((s.cursor.rest.takeWhile isNameChar).length + n) =
        s.cursor.rest.takeWhile isNameChar ++ (s.cursor.rest.dropWhile isNameChar).take n := by
      rw [← List.take_length_add_append, List.takeWhile_append_dropWhile]
    rw [htake, List.getLast?_append, getLast?_take_stringSize? hn] at hc
    rcases hmarked.1 with hquote | hquote
    · rw [hquote] at hc
      cases hc
      decide
    · rw [hquote] at hc
      cases hc
      decide
  next =>
    split at h
    next =>
      have htake : s.cursor.rest.take (s.cursor.rest.takeWhile isNameChar).length =
          s.cursor.rest.takeWhile isNameChar :=
        List.prefix_iff_eq_take.mp (List.takeWhile_prefix _) |>.symm
      cases h
      refine .word _ hline ?_ ?_
      · rw [htake]
        cases hrest : s.cursor.rest with
        | nil =>
          rw [hrest] at hstart
          cases hstart
        | cons c rest =>
          rw [hrest] at hstart
          have hc : isNameChar c = true := hstart
          simp [hc]
      · rw [htake]
        exact List.all_eq_true.mp List.all_takeWhile
    next => cases h

/-- A bracket that is opened or closed does not move the cursor. -/
theorem cursor_of_bracket? {c : Char} (h : s.bracket? c = some next) : next.cursor = s.cursor := by
  unfold bracket? at h
  dsimp only at h
  repeat' split at h
  all_goals cases h
  all_goals rfl

/-- No sign ends with a line. -/
theorem ne_break_of_sign :
    ∀ sign ∈ longSigns ++ pairSigns ++ singleSigns.map ([·]), ∀ c ∈ sign.getLast?, c ≠ '\n' := by
  have hall : (longSigns ++ pairSigns ++ singleSigns.map ([·])).all
      (fun sign => sign.getLast? != some '\n') = true := by
    decide +kernel
  rintro sign hsign c hc rfl
  have hlast := List.all_eq_true.mp hall sign hsign
  rw [Option.mem_def.mp hc, bne_self_eq_false] at hlast
  cases hlast

theorem moves_sign (hrest : s.cursor.rest ≠ []) (h : s.sign? = some (next, more)) :
    Moves s next more := by
  have hemit {inner : State} {n : Nat} (hcursor : inner.cursor = s.cursor)
      (hsign : s.cursor.rest.take n ∈ longSigns ++ pairSigns ++ singleSigns.map ([·]))
      (h : inner.emit .sign n = (next, more)) : Moves s next more :=
    moves_emit hcursor (by simp) (fun _ => rfl) (fun _ => rfl) hrest (ne_break_of_sign _ hsign) h
  unfold sign? at h
  simp only at h
  split at h
  next hlong => exact hemit rfl (by simp [List.contains_iff_mem.mp hlong]) (Option.some.inj h)
  next =>
    split at h
    next hpair => exact hemit rfl (by simp [List.contains_iff_mem.mp hpair]) (Option.some.inj h)
    next =>
      split at h
      next => cases h
      next c rest hc =>
        split at h
        next hsingle =>
          obtain ⟨inner, hinner, h⟩ := Option.map_eq_some_iff.mp h
          exact hemit (cursor_of_bracket? hinner) (by simp [hc, List.contains_iff_mem.mp hsingle]) h
        next => cases h

theorem moves_token (hline : s.atLineStart = false) (h : s.token? = some (next, more)) :
    Moves s next more := by
  unfold token? at h
  split at h
  next => cases h
  next rest hrest =>
    cases h
    refine .comment _ hline ?_
    -- What is left of the line is what does not belong to the comment.
    have hleft : (s.advance (commentSize rest)).cursor.rest = rest.dropWhile (· ≠ '\n') := by
      have hsplit : rest.takeWhile (· ≠ '\n') ++ rest.dropWhile (· ≠ '\n') = rest :=
        List.takeWhile_append_dropWhile
      have hdrop := congrArg (List.drop (rest.takeWhile (· ≠ '\n')).length) hsplit
      rw [List.drop_left] at hdrop
      show s.cursor.rest.drop (commentSize rest) = _
      rw [hrest, commentSize, List.drop_succ_cons, hdrop]
    rw [hleft]
    have hhead := List.head?_dropWhile_not (· ≠ '\n') rest
    cases hfirst : (rest.dropWhile (· ≠ '\n')).head? with
    | none => rfl
    | some c =>
      rw [hfirst] at hhead
      simpa using hhead
  next rest hrest =>
    cases h
    split
    next hbrackets =>
      refine .layout _ _ _ 1 rfl (List.isEmpty_iff.mp hbrackets) ?_ s.cursor.place (.inl rfl) ?_
      · simp [layout, Lexeme.isLayout]
      · simp [layout]
    next hbrackets => exact .line _ 1 rfl rfl (.inr (by simpa using hbrackets))
  next c rest hrest =>
    cases h
    refine .gap 2 hline ?_
    rw [hrest]
    simp [isGap]
  next c rest hcomment hbreak hslash hrest =>
    split at h
    next hblank =>
      cases h
      refine .gap 1 hline ?_
      rw [hrest]
      rcases hblank with rfl | rfl | rfl
      · simp [isGap]
      · simp [isGap]
      · simp [isGap]
    next =>
      have hsome : s.cursor.rest ≠ [] := by simp [hrest]
      split at h
      next =>
        obtain ⟨n, hn, h⟩ := Option.map_eq_some_iff.mp h
        exact moves_emit rfl (by simp) (fun _ => rfl) (fun _ => rfl) hsome
          (ne_break_of_numberSize? hn) h
      next =>
        split at h
        next hname => exact moves_word hline (by rw [hrest]; exact hname) h
        next =>
          split at h
          next hquote =>
            obtain ⟨n, hn, h⟩ := Option.map_eq_some_iff.mp h
            refine moves_emit rfl (by simp) (fun _ => rfl) (fun _ => rfl) hsome ?_ h
            rw [getLast?_take_stringSize? hn, hrest]
            rintro c ⟨⟩
            rcases hquote with rfl | rfl <;> decide
          next => exact moves_sign hsome h

/-- Blocks are opened and closed where the cursor stands. -/
theorem of_indentTo? {width : Nat × Nat} (h : s.indentTo? width = some (next, more)) :
    next.cursor = s.cursor ∧ next.brackets = s.brackets ∧
      (∀ t ∈ more, t.lexeme.isLayout = true) ∧
      ∀ t ∈ more, t.extent = ⟨s.cursor.place, s.cursor.place⟩ := by
  unfold indentTo? at h
  dsimp only at h
  split at h
  next =>
    split at h
    next =>
      cases h
      exact ⟨rfl, rfl, by simp, by simp⟩
    next => cases h
  next =>
    split at h
    next =>
      split at h
      next =>
        cases h
        exact ⟨rfl, rfl, by simp [layout, Lexeme.isLayout], by simp [layout]⟩
      next => cases h
    next =>
      split at h
      next =>
        cases h
        refine ⟨rfl, rfl, fun t ht => ?_, fun t ht => ?_⟩
        · rw [List.eq_of_mem_replicate ht]
          rfl
        · rw [List.eq_of_mem_replicate ht]
          rfl
      next => cases h

/-- Where a line starts. -/
theorem moves_lineStart (hline : s.atLineStart = true) (h : s.lineStart? = some (next, more)) :
    Moves s next more := by
  unfold lineStart? at h
  obtain ⟨⟨measured, rest⟩, -, h⟩ := Option.bind_eq_some_iff.mp h
  dsimp only at h
  split at h
  next more =>
    cases h
    exact .line _ _ (Cursor.advance_advance ..) rfl (.inl hline)
  next =>
    cases h
    exact .line _ _ (Cursor.advance_advance ..) rfl (.inl hline)
  next =>
    split at h
    next hbrackets =>
      obtain ⟨hcursor, hsame, hlayout, hextent⟩ := of_indentTo? h
      cases more with
      | nil => exact .line _ measured.passed hcursor hsame (.inl hline)
      | cons t more =>
        exact .layout _ _ _ measured.passed hcursor
          (hsame.trans (List.isEmpty_iff.mp hbrackets)) hlayout _
          (.inr (congrArg Cursor.place hcursor.symm)) hextent
    next =>
      cases h
      exact .line _ measured.passed rfl rfl (.inl hline)

/-- **What a step does.** -/
theorem moves_of_step? (h : s.step? = some (next, more)) : Moves s next more := by
  unfold step? at h
  split at h
  next hline => exact moves_lineStart hline h
  next hline => exact moves_token (Bool.eq_false_iff.mpr hline) h

theorem Moves.exists_advance (h : Moves s next more) : ∃ n, next.cursor = s.cursor.advance n := by
  cases h with
  | word n => exact ⟨n, rfl⟩
  | other _ _ n hcursor => exact ⟨n, hcursor⟩
  | layout _ _ _ n hcursor => exact ⟨n, hcursor⟩
  | gap n => exact ⟨n, rfl⟩
  | comment n => exact ⟨n, rfl⟩
  | line _ n hcursor => exact ⟨n, hcursor⟩

/-- A word is read alone, and where the cursor stands. -/
theorem Moves.eq_of_word (h : Moves s next more) {t : Token} (ht : t ∈ more) {w : List Char}
    (hword : t.lexeme = .word w) :
    more = [t] ∧ w ≠ [] ∧ t.extent.start = s.cursor.place ∧ ∃ n, w = s.cursor.rest.take n ∧
      next = s.advance n := by
  cases h with
  | word n hline hsome hchars =>
    obtain rfl := List.mem_singleton.mp ht
    cases hword
    exact ⟨rfl, hsome, rfl, n, rfl, rfl⟩
  | other _ t' n hcursor hnot =>
    obtain rfl := List.mem_singleton.mp ht
    exact absurd hword (hnot w)
  | layout _ _ _ n hcursor hbrackets hlayout =>
    have hthis := hlayout t ht
    rw [hword] at hthis
    cases hthis
  | gap n => cases ht
  | comment n => cases ht
  | line _ n => cases ht

/-- Layout changes only outside of brackets. -/
theorem Moves.brackets_of_layout (h : Moves s next more) {l : Token} (hl : l ∈ more)
    (hlayout : l.lexeme.isLayout = true) : next.brackets = [] := by
  cases h with
  | word n =>
    rw [List.mem_singleton.mp hl] at hlayout
    cases hlayout
  | other _ t n hcursor hword hnot =>
    rw [List.mem_singleton.mp hl, hnot] at hlayout
    cases hlayout
  | layout _ _ _ n hcursor hbrackets => exact hbrackets
  | gap n => cases hl
  | comment n => cases hl
  | line _ n => cases hl

theorem isLayout_of_finish? {last : List Token} (h : s.finish? = some last) :
    ∀ t ∈ last, t.lexeme.isLayout = true := by
  unfold finish? at h
  split at h
  next =>
    cases h
    intro t ht
    rcases List.mem_append.mp ht with ht | ht
    · rw [List.eq_of_mem_replicate ht]
      rfl
    · rw [List.mem_singleton.mp ht]
      rfl
  next => cases h

/-! ## Runs -/

/-- The tokens that are read from a state on. -/
inductive Lexes : State → List Token → Prop
  | done {s : State} {last : List Token} (hrest : s.cursor.rest = []) (h : s.finish? = some last) :
      Lexes s last
  | step {s next : State} {more ts : List Token} (h : s.step? = some (next, more))
      (hrest : Lexes next ts) :
      Lexes s (more ++ ts)

theorem exists_lexes_of_run? {fuel : Nat} {read out : List Token}
    (h : run? fuel read s = some out) :
    ∃ ts, out = read.reverse ++ ts ∧ Lexes s ts := by
  induction fuel generalizing read s with
  | zero => cases h
  | succ fuel ih =>
    rw [run?] at h
    split at h
    next hempty =>
      obtain ⟨last, hlast, h⟩ := Option.bind_eq_some_iff.mp h
      cases h
      exact ⟨last, rfl, .done (List.isEmpty_iff.mp hempty) hlast⟩
    next =>
      obtain ⟨⟨next, more⟩, hstep, h⟩ := Option.bind_eq_some_iff.mp h
      obtain ⟨ts, hout, hlexes⟩ := ih h
      refine ⟨more ++ ts, ?_, .step hstep hlexes⟩
      rw [hout]
      simp

variable {text before : List Char} {ts : List Token}

/-- A word stands in a text, some way behind its beginning. -/
def Stands (text before : List Char) (t : Token) (w : List Char) : Prop :=
  ∃ mid after, text = before ++ mid ++ (w ++ after) ∧
    t.extent.start = placeAfter (before ++ mid) ∧ w ≠ []

theorem Stands.of_longer {more : List Char} {t : Token} {w : List Char}
    (h : Stands text (before ++ more) t w) :
    Stands text before t w := by
  obtain ⟨mid, after, htext, hplace, hw⟩ := h
  refine ⟨more ++ mid, after, ?_, ?_, hw⟩
  · rw [htext, List.append_assoc before more mid]
  · rw [hplace, List.append_assoc before more mid]

/-- **Words stand in the text that is read.** -/
theorem Lexes.stands (h : Lexes s ts) (hs : s.cursor.After text before) {t : Token} (ht : t ∈ ts)
    {w : List Char} (hword : t.lexeme = .word w) : Stands text before t w := by
  induction h generalizing before with
  | done hrest hfinish =>
    have hlayout := isLayout_of_finish? hfinish t ht
    rw [hword] at hlayout
    cases hlayout
  | @step s next more ts hstep hrest ih =>
    have hmoves := moves_of_step? hstep
    rcases List.mem_append.mp ht with hmem | hmem
    · obtain ⟨-, hsome, hplace, n, rfl, -⟩ := hmoves.eq_of_word hmem hword
      refine ⟨[], s.cursor.rest.drop n, ?_, ?_, hsome⟩
      · rw [List.take_append_drop, List.append_nil, hs.text_eq]
      · rw [hplace, List.append_nil, hs.place_eq]
    · obtain ⟨n, hcursor⟩ := hmoves.exists_advance
      exact (ih (hcursor ▸ hs.advance n) hmem).of_longer

/-- One word stands before another. -/
def Precedes (text : List Char) (t t' : Token) : Prop :=
  ∀ w w', t.lexeme = .word w → t'.lexeme = .word w' →
    w ≠ [] ∧ ∃ before, t.extent.start = placeAfter before ∧ Stands text (before ++ w) t' w'

/-- **Words stand in the order in which they are read.** -/
theorem Lexes.pairwise (h : Lexes s ts) (hs : s.cursor.After text before) :
    ts.Pairwise (Precedes text) := by
  induction h generalizing before with
  | @done s last hrest hfinish =>
    refine List.pairwise_of_forall_mem_list fun t ht t' _ w w' hword => ?_
    have hlayout := isLayout_of_finish? hfinish t ht
    rw [hword] at hlayout
    cases hlayout
  | @step s next more ts hstep hrest ih =>
    have hmoves := moves_of_step? hstep
    obtain ⟨n, hcursor⟩ := hmoves.exists_advance
    have hnext := hcursor ▸ hs.advance n
    refine List.pairwise_append.mpr ⟨?_, ih hnext, fun t ht t' ht' w w' hword hword' => ?_⟩
    · by_cases hsome : ∃ t ∈ more, ∃ w, t.lexeme = .word w
      · obtain ⟨t, ht, w, hword⟩ := hsome
        rw [(hmoves.eq_of_word ht hword).1]
        exact List.pairwise_singleton _ _
      · exact List.pairwise_of_forall_mem_list fun t ht _ _ w _ hword =>
          absurd ⟨t, ht, w, hword⟩ hsome
    · obtain ⟨-, hsome, hplace, k, rfl, rfl⟩ := hmoves.eq_of_word ht hword
      exact ⟨hsome, before, hplace.trans hs.place_eq, hrest.stands (hs.advance k) ht' hword'⟩

/-! ## Words that follow each other -/

/-- Tokens with which a line begins: all of them, or those after a change of layout. -/
def Opens (all ts : List Token) : Prop :=
  ts = all ∨ ∃ l : Token, l.lexeme.isLayout = true ∧ l :: ts <:+ all

theorem Opens.suffix {all : List Token} (h : Opens all ts) : ts <:+ all := by
  rcases h with rfl | ⟨l, -, hsuffix⟩
  · exact List.suffix_rfl
  · exact (List.suffix_cons l ts).trans hsuffix

/-- After a change of layout no bracket is open. -/
theorem Lexes.exists_after_layout {all : List Token} (h : Lexes s all)
    (hs : s.cursor.After text before)
    {l t : Token} (hlayout : l.lexeme.isLayout = true) (hsuffix : l :: t :: ts <:+ all)
    {w : List Char} (hword : t.lexeme = .word w) :
    ∃ s' before', s'.cursor.After text before' ∧ s'.brackets = [] ∧ Lexes s' (t :: ts) := by
  induction h generalizing before with
  | done hrest hfinish =>
    have hthis := isLayout_of_finish? hfinish t (hsuffix.subset (by simp))
    rw [hword] at hthis
    cases hthis
  | @step s next more rest hstep hrest ih =>
    have hmoves := moves_of_step? hstep
    obtain ⟨n, hcursor⟩ := hmoves.exists_advance
    have hnext : next.cursor.After text (before ++ s.cursor.rest.take n) := hcursor ▸ hs.advance n
    rcases List.suffix_or_suffix_of_suffix hsuffix (List.suffix_append more rest) with hinside |
      ⟨read, hread⟩
    · exact ih hnext hinside
    · obtain ⟨earlier, hearlier⟩ := hsuffix
      have hmore : more = earlier ++ read := by
        rw [← hread, ← List.append_assoc] at hearlier
        exact (List.append_cancel_right hearlier).symm
      -- The change of layout is the last that the step has read, or else the word would not have
      -- been read alone.
      cases read with
      | nil => exact ih hnext (hread ▸ List.suffix_rfl)
      | cons first read =>
        obtain ⟨rfl, htail⟩ := List.cons.inj hread
        cases read with
        | nil =>
          have hbrackets := hmoves.brackets_of_layout (hmore ▸ by simp) hlayout
          exact ⟨next, _, hnext, hbrackets, htail ▸ hrest⟩
        | cons second read =>
          obtain ⟨rfl, -⟩ := List.cons.inj htail
          have halone := (hmoves.eq_of_word (hmore ▸ by simp) hword).1
          have hlength := congrArg List.length (hmore.symm.trans halone)
          simp at hlength
          omega

/-- Where a line ends outside of brackets no word follows. -/
theorem Lexes.not_word_of_end {t : Token} (h : Lexes s (t :: ts)) (hline : s.atLineStart = false)
    (hbrackets : s.brackets = []) (hend : s.cursor.rest.head?.all (· = '\n') = true)
    (w : List Char) :
    t.lexeme ≠ .word w := by
  intro hword
  generalize hall : t :: ts = all at h
  cases h with
  | done hrest hfinish =>
    have hthis := isLayout_of_finish? hfinish t (hall ▸ List.mem_cons_self)
    rw [hword] at hthis
    cases hthis
  | @step _ next more rest hstep hrest =>
    unfold step? token? at hstep
    rw [hline] at hstep
    cases hchars : s.cursor.rest with
    | nil =>
      rw [hchars] at hstep
      cases hstep
    | cons c chars =>
      rw [hchars] at hend hstep
      have hc : c = '\n' := by simpa using hend
      subst hc
      simp only [hbrackets, List.isEmpty_nil, if_true, Bool.false_eq_true, if_false] at hstep
      cases hstep
      cases hall
      cases hword

/-- A state inside a line has come over a text, with no bracket open. -/
structure InLine (text before : List Char) (s : State) : Prop where
  after : s.cursor.After text before
  brackets : s.brackets = []
  line : s.atLineStart = false

/-- **The next word of a line comes after a gap.** At the start of a line there may be more before
it: lines without tokens. -/
theorem Lexes.exists_word {t : Token} (h : Lexes s (t :: ts)) (hs : s.cursor.After text before)
    (hbrackets : s.brackets = []) {w : List Char} (hword : t.lexeme = .word w) :
    ∃ gap next, t.extent.start = placeAfter (before ++ gap) ∧
      next.InLine text (before ++ gap ++ w) ∧ Lexes next ts ∧
      w ≠ [] ∧ (∀ c ∈ w, isNameChar c = true) ∧
      (s.atLineStart = false → ∀ c ∈ gap, isGap c = true) := by
  generalize hall : t :: ts = all at h
  induction h generalizing before with
  | done hrest hfinish =>
    have hlayout := isLayout_of_finish? hfinish t (hall ▸ List.mem_cons_self)
    rw [hword] at hlayout
    cases hlayout
  | @step s next more rest hstep hrest ih =>
    cases moves_of_step? hstep with
    | word n hline hsome hchars =>
      cases hall
      cases hword
      refine ⟨[], s.advance n, ?_, ⟨?_, hbrackets, hline⟩, hrest, hsome, hchars, by simp⟩
      · rw [List.append_nil, ← hs.place_eq]
      · rw [List.append_nil]
        exact hs.advance n
    | other _ _ n hcursor hnot =>
      cases hall
      exact absurd hword (hnot w)
    | layout _ _ _ n hcursor _ hlayout =>
      cases hall
      have hthis := hlayout t List.mem_cons_self
      rw [hword] at hthis
      cases hthis
    | gap n hline hgap =>
      obtain ⟨gap, last, hplace, hlast, hlexes, hw, hchars, hblank⟩ :=
        ih (hs.advance n) hbrackets hall
      refine ⟨s.cursor.rest.take n ++ gap, last, ?_, ?_, hlexes, hw, hchars, fun _ c hc => ?_⟩
      · rw [hplace, List.append_assoc]
      · rw [← List.append_assoc]
        exact hlast
      · exact (List.mem_append.mp hc).elim (hgap c) (hblank hline c)
    | comment n hline hend =>
      have hnext : Lexes (s.advance n) (t :: ts) := hall ▸ hrest
      exact absurd hword (hnext.not_word_of_end hline hbrackets hend w)
    | line _ n hcursor hsame hline =>
      obtain ⟨gap, last, hplace, hlast, hlexes, hw, hchars, -⟩ :=
        ih (hcursor ▸ hs.advance n) (hsame.trans hbrackets) hall
      refine ⟨s.cursor.rest.take n ++ gap, last, ?_, ?_, hlexes, hw, hchars, fun hnot => ?_⟩
      · rw [hplace, List.append_assoc]
      · rw [← List.append_assoc]
        exact hlast
      · rcases hline with hline | hopen
        · rw [hline] at hnot
          cases hnot
        · exact absurd hbrackets hopen

/-- The first word of a line, and the state after it. -/
theorem Lexes.exists_opening {all : List Token} (h : Lexes s all) (hs : s.cursor.After text before)
    (hbrackets : s.brackets = []) {t : Token} (hopens : Opens all (t :: ts)) {w : List Char}
    (hword : t.lexeme = .word w) :
    ∃ before' next, t.extent.start = placeAfter before' ∧ next.InLine text (before' ++ w) ∧
      Lexes next ts := by
  obtain ⟨s', before', hs', hbrackets', hlexes⟩ :
      ∃ s' before', s'.cursor.After text before' ∧ s'.brackets = [] ∧ Lexes s' (t :: ts) := by
    rcases hopens with rfl | ⟨l, hlayout, hsuffix⟩
    · exact ⟨s, before, hs, hbrackets, h⟩
    · exact h.exists_after_layout hs hlayout hsuffix hword
  obtain ⟨gap, next, hplace, hnext, hrest, -⟩ := hlexes.exists_word hs' hbrackets' hword
  exact ⟨before' ++ gap, next, hplace, hnext, hrest⟩

/-- A further word of a line, and the state after it. -/
theorem Lexes.exists_next {t : Token} (h : Lexes s (t :: ts)) (hs : s.InLine text before)
    {w : List Char} (hword : t.lexeme = .word w) :
    ∃ gap next, (∀ c ∈ gap, isGap c = true) ∧ t.extent.start = placeAfter (before ++ gap) ∧
      next.InLine text (before ++ gap ++ w) ∧ Lexes next ts ∧ w ≠ [] ∧
        ∀ c ∈ w, isNameChar c = true := by
  obtain ⟨gap, next, hplace, hnext, hrest, hw, hchars, hgap⟩ :=
    h.exists_word hs.after hs.brackets hword
  exact ⟨gap, next, hgap hs.line, hplace, hnext, hrest, hw, hchars⟩

end State

/-! ## In the source -/

open Text

variable {source before after : List Char} {all ts : List Token}

/-- What is added at the end of a source is not part of a word. -/
theorem exists_rest_of_withFinalLineEnd {w : List Char}
    (h : withFinalLineEnd source = before ++ w ++ after)
    (hw : w ≠ []) (hchars : ∀ c ∈ w, isNameChar c = true) :
    ∃ rest, source = before ++ w ++ rest := by
  unfold withFinalLineEnd at h
  split at h
  next => exact ⟨after, h⟩
  next =>
    cases after using List.reverseRecOn with
    | nil =>
      rw [List.append_nil, ← List.dropLast_append_getLast hw, ← List.append_assoc] at h
      have hlast := List.singleton_inj.mp (List.append_inj' h rfl).2
      have hname := hchars (w.getLast hw) (List.getLast_mem hw)
      rw [← hlast] at hname
      cases hname
    | append_singleton rest c =>
      rw [← List.append_assoc] at h
      exact ⟨rest, (List.append_inj' h rfl).1⟩

/-- What is before something in the source with its end lies within the source. -/
theorem prefix_of_withFinalLineEnd {w : List Char} (h : withFinalLineEnd source = before ++ w)
    (hw : w ≠ []) :
    before <+: source := by
  have hprefix : source <+: withFinalLineEnd source ∧
      (withFinalLineEnd source).length ≤ source.length + 1 := by
    unfold withFinalLineEnd
    split
    · exact ⟨List.prefix_rfl, Nat.le_succ _⟩
    · exact ⟨List.prefix_append _ _, by simp⟩
  refine List.prefix_of_prefix_length_le ⟨w, h.symm⟩ hprefix.1 ?_
  have hlength := congrArg List.length h
  have hpos := List.length_pos_iff.mpr hw
  rw [List.length_append] at hlength
  omega

/-- The offset of what is reached after a beginning of the source. -/
theorem offsetAt_of_prefix (hr : '\r' ∉ source) (h : before <+: source) :
    (LineIndex.ofText source).offsetAt (placeAfter before) = before.length := by
  obtain ⟨rest, rfl⟩ := h
  exact LineIndex.offsetAt_placeAfter hr

/-- The tokens of a source are read from its beginning. -/
theorem exists_lexes_of_tokens? (h : tokens? source = some all) :
    ∃ s : State, s.cursor.After (withFinalLineEnd source) [] ∧ s.brackets = [] ∧ s.Lexes all := by
  obtain ⟨ts, rfl, hlexes⟩ := State.exists_lexes_of_run? h
  exact ⟨_, ⟨rfl, rfl⟩, rfl, hlexes⟩

/-- **The words of a source have increasing offsets.** -/
theorem pairwise_offsetAt (hr : '\r' ∉ source) (h : tokens? source = some all) :
    all.Pairwise fun t t' => ∀ w w', t.lexeme = .word w → t'.lexeme = .word w' →
      (LineIndex.ofText source).offsetAt t.extent.start <
      (LineIndex.ofText source).offsetAt t'.extent.start := by
  obtain ⟨s, hs, -, hlexes⟩ := exists_lexes_of_tokens? h
  refine (hlexes.pairwise hs).imp fun {t t'} hprecedes w w' hword hword' => ?_
  obtain ⟨hw, before, hplace, mid, after, htext, hplace', hw'⟩ := hprecedes w w' hword hword'
  have hbefore' : before ++ w ++ mid <+: source := prefix_of_withFinalLineEnd htext (by simp [hw'])
  have hbefore : before <+: source := by
    rw [List.append_assoc] at hbefore'
    exact (List.prefix_append _ _).trans hbefore'
  have hpos := List.length_pos_iff.mpr hw
  rw [hplace, hplace', offsetAt_of_prefix hr hbefore, offsetAt_of_prefix hr hbefore',
    List.length_append, List.length_append]
  omega

/-- A word that is behind another in the source has the greater offset. -/
theorem offsetAt_lt_of_suffix (hr : '\r' ∉ source) (h : tokens? source = some all) {t t' : Token}
    {ts' : List Token}
    {w w' : List Char} (ht : t :: ts <:+ all) (ht' : t' :: ts' <:+ ts) (hword : t.lexeme = .word w)
    (hword' : t'.lexeme = .word w') :
    (LineIndex.ofText source).offsetAt t.extent.start <
      (LineIndex.ofText source).offsetAt t'.extent.start := by
  have hbehind := (List.pairwise_cons.mp ((pairwise_offsetAt hr h).sublist ht.sublist)).1
  exact hbehind t' (ht'.subset List.mem_cons_self) w w' hword hword'

/-- A word of the source is told by its offset, and so are the tokens behind it. -/
theorem eq_of_offsetAt_eq (hr : '\r' ∉ source) (h : tokens? source = some all) {t t' : Token}
    {ts' : List Token}
    {w w' : List Char} (ht : t :: ts <:+ all) (ht' : t' :: ts' <:+ all) (hword : t.lexeme = .word w)
    (hword' : t'.lexeme = .word w')
    (heq : (LineIndex.ofText source).offsetAt t.extent.start =
      (LineIndex.ofText source).offsetAt t'.extent.start) :
    t :: ts = t' :: ts' := by
  -- Of two ends of the tokens one is an end of the other, and if it is not all of it, its word is
  -- behind the other.
  rcases List.suffix_or_suffix_of_suffix ht ht' with hsuffix | hsuffix
  · rcases List.suffix_cons_iff.mp hsuffix with hsame | hbehind
    · exact hsame
    · have hlt := offsetAt_lt_of_suffix hr h ht' hbehind hword' hword
      omega
  · rcases List.suffix_cons_iff.mp hsuffix with hsame | hbehind
    · exact hsame.symm
    · have hlt := offsetAt_lt_of_suffix hr h ht hbehind hword hword'
      omega

/-- The next word of a line stands in the source after a gap. -/
theorem exists_name_of_inLine (hr : '\r' ∉ source) {s : State} {t : Token} {w : List Char}
    (hs : s.InLine (withFinalLineEnd source) before) (hlexes : s.Lexes (t :: ts))
    (hword : t.lexeme = .word w) :
    ∃ gap rest, source = before ++ (gap ++ (w ++ rest)) ∧ (∀ c ∈ gap, isGap c = true) ∧
      (∃ c tail, w = c :: tail ∧ isNameChar c = true) ∧
      (LineIndex.ofText source).offsetAt t.extent.start = before.length + gap.length := by
  obtain ⟨gap, next, hgap, hplace, hnext, -, hw, hchars⟩ := hlexes.exists_next hs hword
  obtain ⟨rest, hsource⟩ := exists_rest_of_withFinalLineEnd hnext.after.text_eq hw hchars
  have hprefix : before ++ gap <+: source := ⟨w ++ rest, by simp [hsource]⟩
  refine ⟨gap, rest, by simpa using hsource, hgap, ?_, ?_⟩
  · obtain ⟨c, tail, rfl⟩ := List.exists_cons_of_ne_nil hw
    exact ⟨c, tail, rfl, hchars c List.mem_cons_self⟩
  · rw [hplace, offsetAt_of_prefix hr hprefix, List.length_append]

/-- **Two words with which a line begins** stand in the source with a gap between them. -/
theorem exists_two_words (hr : '\r' ∉ source) (h : tokens? source = some all) {k t : Token}
    {w w' : List Char} (hopens : State.Opens all (k :: t :: ts)) (hword : k.lexeme = .word w)
    (hword' : t.lexeme = .word w') :
    ∃ before gap rest, source = before ++ w ++ (gap ++ (w' ++ rest)) ∧ (∀ c ∈ gap, isGap c = true) ∧
      (∃ c tail, w' = c :: tail ∧ isNameChar c = true) ∧
      (LineIndex.ofText source).offsetAt k.extent.start = before.length ∧
      (LineIndex.ofText source).offsetAt t.extent.start = (before ++ w).length + gap.length := by
  obtain ⟨s, hs, hbrackets, hlexes⟩ := exists_lexes_of_tokens? h
  obtain ⟨before, s₁, hplace, hs₁, hlexes₁⟩ := hlexes.exists_opening hs hbrackets hopens hword
  obtain ⟨gap, rest, hsource, hgap, hname, hoffset⟩ := exists_name_of_inLine hr hs₁ hlexes₁ hword'
  have hprefix : before <+: source := by
    rw [hsource, List.append_assoc]
    exact List.prefix_append _ _
  refine ⟨before, gap, rest, hsource, hgap, hname, ?_, hoffset⟩
  rw [hplace, offsetAt_of_prefix hr hprefix]

/-- The same for three words. -/
theorem exists_three_words (hr : '\r' ∉ source) (h : tokens? source = some all) {a k t : Token}
    {w w' w'' : List Char}
    (hopens : State.Opens all (a :: k :: t :: ts)) (hword : a.lexeme = .word w)
    (hword' : k.lexeme = .word w') (hword'' : t.lexeme = .word w'') :
    ∃ before gap gap' rest, source = before ++ w ++ gap ++ w' ++ (gap' ++ (w'' ++ rest)) ∧
      (∀ c ∈ gap, isGap c = true) ∧ (∀ c ∈ gap', isGap c = true) ∧
      (∃ c tail, w'' = c :: tail ∧ isNameChar c = true) ∧
      (LineIndex.ofText source).offsetAt a.extent.start = before.length ∧
      (LineIndex.ofText source).offsetAt t.extent.start =
        (before ++ w ++ gap ++ w').length + gap'.length := by
  obtain ⟨s, hs, hbrackets, hlexes⟩ := exists_lexes_of_tokens? h
  obtain ⟨before, s₁, hplace, hs₁, hlexes₁⟩ := hlexes.exists_opening hs hbrackets hopens hword
  obtain ⟨gap, s₂, hgap, -, hs₂, hlexes₂, -, -⟩ := hlexes₁.exists_next hs₁ hword'
  obtain ⟨gap', rest, hsource, hgap', hname, hoffset⟩ :=
    exists_name_of_inLine hr hs₂ hlexes₂ hword''
  have hprefix : before <+: source := by
    rw [hsource]
    simp only [List.append_assoc]
    exact List.prefix_append _ _
  refine ⟨before, gap, gap', rest, hsource, hgap, hgap', hname, ?_, hoffset⟩
  rw [hplace, offsetAt_of_prefix hr hprefix]

end CallAtlas.Source
