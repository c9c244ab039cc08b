import CallAtlas.Settings.File
import Mathlib

/-!
# Taking comments out of a text

A text with comments is made of segments: plain text, string literals, block comments and line
comments. A `Segment` carries what makes it end where it does, and `Segment.Ends` says what a line
comment asks of the text behind it. Taking the comments out passes over one segment after the other
(`stripFrom_segment`), so it gives the segments that are kept (`stripComments_textOf`).

In a text whatsoever the scan also passes over single slashes. `Passes` is one step of it, and
`Reaches` says where it comes to outside of strings and comments. It always comes to an end
(`exists_reaches`). A slash that is kept keeps its neighbour, so that a second scan finds no comment
(`stripComments_of_stripped`), and the scan fails exactly if it comes to a block comment that is
never closed (`stripComments_eq_none_iff`).
-/

namespace CallAtlas.Json

/-! ## Segments -/

/-- What stands between the quotes of a string literal: no quote, unless a backslash takes it with
it. -/
inductive StringBody : List Char → Prop
  | nil : StringBody []
  | escape (c : Char) {body : List Char} (h : StringBody body) : StringBody ('\\' :: c :: body)
  | char {c : Char} {body : List Char} (hquote : c ≠ '"') (hescape : c ≠ '\\')
      (h : StringBody body) :
      StringBody (c :: body)

/-- A stretch of a text that is read as a whole. -/
inductive Segment where
  | plain (text : List Char) (bare : '"' ∉ text ∧ '/' ∉ text)
  | string (body : List Char) (closed : StringBody body)
  | block (body : List Char) (unclosed : ¬ ['*', '/'] <:+: body)
  | line (body : List Char) (unbroken : '\n' ∉ body)

namespace Segment

/-- The text of a segment. -/
def text : Segment → List Char
  | .plain text _ => text
  | .string body _ => '"' :: (body ++ ['"'])
  | .block body _ => '/' :: '*' :: (body ++ ['*', '/'])
  | .line body _ => '/' :: '/' :: body

/-- What is left of a segment without comments. -/
def kept : Segment → List Char
  | .plain text _ => text
  | .string body _ => '"' :: (body ++ ['"'])
  | .block _ _ | .line _ _ => []

/-- The line feeds inside a block comment. -/
def blockLines : Segment → Nat
  | .block body _ => body.count '\n'
  | .plain _ _ | .string _ _ | .line _ _ => 0

/-- A line comment goes up to a line feed or to the end of the text; any other segment shows itself
where it ends. -/
def Ends : Segment → List Char → Prop
  | .line _ _, rest => ∀ c ∈ rest.head?, c = '\n'
  | .plain _ _, _ | .string _ _, _ | .block _ _, _ => True

end Segment

/-- The text of several segments. -/
def textOf (segments : List Segment) : List Char := segments.flatMap Segment.text

/-- What is left of several segments without comments. -/
def keptOf (segments : List Segment) : List Char := segments.flatMap Segment.kept

/-- Every segment ends where the next one starts. -/
def Joined : List Segment → Prop
  | [] => True
  | segment :: rest => segment.Ends (textOf rest) ∧ Joined rest

/-! ## Passing over a segment -/

theorem stripFrom_plain {text : List Char} (hquote : '"' ∉ text) (hslash : '/' ∉ text)
    (rest : List Char) :
    stripFrom .plain (text ++ rest) = (stripFrom .plain rest).map (text ++ ·) := by
  induction text with
  | nil => simp
  | cons c text ih =>
    obtain ⟨hc, hquote⟩ := List.ne_and_not_mem_of_not_mem_cons hquote
    obtain ⟨hc', hslash⟩ := List.ne_and_not_mem_of_not_mem_cons hslash
    rw [List.cons_append, stripFrom, ih hquote hslash, Option.map_map]
    · rfl
    · exact fun h => hc h.symm
    · exact fun _ h => absurd h.symm hc'
    · exact fun _ h => absurd h.symm hc'

theorem stripFrom_string {body : List Char} (h : StringBody body) (rest : List Char) :
    stripFrom .string (body ++ '"' :: rest) = (stripFrom .plain rest).map (body ++ '"' :: ·) := by
  induction h with
  | nil => simp [stripFrom]
  | escape c _ ih =>
    rw [List.cons_append, List.cons_append, stripFrom, ih, Option.map_map]
    rfl
  | char hquote hescape _ ih =>
    rw [List.cons_append, stripFrom, ih, Option.map_map]
    · rfl
    · exact hquote
    · exact fun _ _ h => absurd h hescape

theorem stripFrom_block {body : List Char} (h : ¬ ['*', '/'] <:+: body) (rest : List Char) :
    stripFrom .blockComment (body ++ '*' :: '/' :: rest) = stripFrom .plain rest := by
  induction body with
  | nil => rfl
  | cons c body ih =>
    have hbody : ¬ ['*', '/'] <:+: body :=
      fun hwithin => h (hwithin.trans (List.suffix_cons c body).isInfix)
    rw [List.cons_append, stripFrom, ih hbody]
    -- A comment that closed here would close inside of its body.
    rintro more rfl hmore
    cases body with
    | nil => cases hmore
    | cons d body =>
      obtain ⟨rfl, -⟩ := List.cons.inj hmore
      exact h ⟨[], body, rfl⟩

theorem stripFrom_line {body rest : List Char} (h : '\n' ∉ body)
    (hrest : ∀ c ∈ rest.head?, c = '\n') :
    stripFrom .lineComment (body ++ rest) = stripFrom .plain rest := by
  induction body with
  | nil =>
    cases rest with
    | nil => rfl
    | cons c rest =>
      obtain rfl := hrest c rfl
      simp [stripFrom]
  | cons c body ih =>
    obtain ⟨hc, hbody⟩ := List.ne_and_not_mem_of_not_mem_cons h
    rw [List.cons_append, stripFrom, ih hbody]
    exact fun h => hc h.symm

/-- **One segment.** What is kept of it stands before what is kept of the rest. -/
theorem stripFrom_segment (segment : Segment) {rest : List Char} (h : segment.Ends rest) :
    stripFrom .plain (segment.text ++ rest) = (stripFrom .plain rest).map (segment.kept ++ ·) := by
  cases segment with
  | plain text bare => exact stripFrom_plain bare.1 bare.2 rest
  | string body closed =>
    have htext : (Segment.string body closed).text ++ rest = '"' :: (body ++ '"' :: rest) := by
      simp [Segment.text]
    rw [htext, stripFrom, stripFrom_string closed, Option.map_map]
    congr 1
    funext s
    simp [Segment.kept]
  | block body unclosed =>
    have htext :
        (Segment.block body unclosed).text ++ rest =
          '/' :: '*' :: (body ++ '*' :: '/' :: rest) := by
      simp [Segment.text]
    rw [htext, stripFrom, stripFrom_block unclosed]
    exact Option.map_id'.symm
  | line body unbroken =>
    have htext : (Segment.line body unbroken).text ++ rest = '/' :: '/' :: (body ++ rest) := rfl
    rw [htext, stripFrom, stripFrom_line unbroken h]
    exact Option.map_id'.symm

/-- **Segments one after the other.** -/
theorem stripComments_textOf {segments : List Segment} (h : Joined segments) :
    stripComments (textOf segments) = some (keptOf segments) := by
  induction segments with
  | nil => rfl
  | cons segment rest ih =>
    obtain ⟨hends, hrest⟩ := h
    have hstep := stripFrom_segment segment hends
    have hind : stripFrom .plain (textOf rest) = some (keptOf rest) := ih hrest
    rw [hind] at hstep
    exact hstep

/-! ## The scan of any text -/

/-- One step of the scan outside of strings and comments: over a segment, or over a slash that
starts no comment. -/
inductive Passes : List Char → List Char → Prop
  | segment (segment : Segment) {rest : List Char} (h : segment.Ends rest) :
      Passes (segment.text ++ rest) rest
  | slash {rest : List Char} (h : ∀ c ∈ rest.head?, c ≠ '/' ∧ c ≠ '*') : Passes ('/' :: rest) rest

/-- From a text the scan comes to its end `rest` outside of strings and comments. -/
def Reaches (text rest : List Char) : Prop := Relation.ReflTransGen Passes text rest

theorem Reaches.head {text next rest : List Char} (h : Passes text next)
    (hnext : Reaches next rest) :
    Reaches text rest := Relation.ReflTransGen.head h hnext

/-- A single slash is kept. -/
theorem stripFrom_slash {rest : List Char} (h : ∀ c ∈ rest.head?, c ≠ '/' ∧ c ≠ '*') :
    stripFrom .plain ('/' :: rest) = (stripFrom .plain rest).map ('/' :: ·) := by
  rw [stripFrom]
  · intro h
    cases h
  · rintro more - rfl
    exact (h '/' rfl).1 rfl
  · rintro more - rfl
    exact (h '*' rfl).2 rfl

/-- **One step of the scan.** What is kept is no longer than what was passed. -/
theorem Passes.exists_kept {text next : List Char} (h : Passes text next) :
    ∃ kept, kept.length + next.length ≤ text.length ∧
      stripFrom .plain text = (stripFrom .plain next).map (kept ++ ·) := by
  cases h with
  | segment segment h =>
    refine ⟨segment.kept, ?_, stripFrom_segment segment h⟩
    have hlength : segment.kept.length ≤ segment.text.length := by
      cases segment with
      | plain => exact Nat.le_refl _
      | string => exact Nat.le_refl _
      | block => exact Nat.zero_le _
      | line => exact Nat.zero_le _
    rw [List.length_append]
    omega
  | slash h => exact ⟨['/'], by simp; omega, stripFrom_slash h⟩

/-- **A run of the scan.** -/
theorem Reaches.exists_kept {text rest : List Char} (h : Reaches text rest) :
    ∃ kept, kept.length + rest.length ≤ text.length ∧
      stripFrom .plain text = (stripFrom .plain rest).map (kept ++ ·) := by
  induction h using Relation.ReflTransGen.head_induction_on with
  | refl => exact ⟨[], by simp, Option.map_id'.symm⟩
  | head hstep _ ih =>
    obtain ⟨kept, hlength, hkept⟩ := hstep.exists_kept
    obtain ⟨more, hlength', hmore⟩ := ih
    refine ⟨kept ++ more, by rw [List.length_append]; omega, ?_⟩
    rw [hkept, hmore, Option.map_map]
    congr 1
    funext s
    simp

/-! ### Where the scan ends -/

/-- A block comment that is never closed. -/
def OpenBlock (text : List Char) : Prop :=
  ∃ body, text = '/' :: '*' :: body ∧ ¬ ['*', '/'] <:+: body

theorem stripFrom_of_openBlock {text : List Char} (h : OpenBlock text) :
    stripFrom .plain text = none := by
  obtain ⟨body, rfl, hbody⟩ := h
  rw [stripFrom]
  induction body with
  | nil => rfl
  | cons c body ih =>
    rw [stripFrom]
    · exact ih fun hwithin => hbody (hwithin.trans (List.suffix_cons c body).isInfix)
    · rintro more rfl rfl
      exact hbody ⟨[], more, rfl⟩

/-- A string is closed, or all that follows belongs to it. -/
theorem exists_stringBody_or (text : List Char) :
    (∃ body rest, StringBody body ∧ text = body ++ '"' :: rest) ∨
      stripFrom .string text = some text := by
  -- The induction is on the length, because an escape takes two characters.
  induction hn : text.length using Nat.strong_induction_on generalizing text with
  | _ n ih =>
    subst hn
    cases text with
    | nil => exact .inr rfl
    | cons c text =>
      by_cases hescape : c = '\\'
      · subst hescape
        cases text with
        | nil => exact .inr rfl
        | cons d text =>
          rcases ih text.length (by simp) text rfl with ⟨body, rest, hbody, rfl⟩ | hopen
          · exact .inl ⟨'\\' :: d :: body, rest, .escape d hbody, rfl⟩
          · exact .inr (by rw [stripFrom, hopen, Option.map_some])
      · by_cases hquote : c = '"'
        · exact .inl ⟨[], text, .nil, by rw [hquote, List.nil_append]⟩
        · rcases ih text.length (by simp) text rfl with ⟨body, rest, hbody, rfl⟩ | hopen
          · exact .inl ⟨c :: body, rest, .char hquote hescape hbody, rfl⟩
          · refine .inr ?_
            rw [stripFrom, hopen, Option.map_some]
            · exact hquote
            · exact fun _ _ hc => absurd hc hescape

/-- A block comment is closed, or it is never closed. -/
theorem exists_blockBody_or (text : List Char) :
    (∃ body rest, ¬ ['*', '/'] <:+: body ∧ text = body ++ '*' :: '/' :: rest) ∨
      ¬ ['*', '/'] <:+: text := by
  induction text with
  | nil => exact .inr (by simp)
  | cons c text ih =>
    by_cases hclose : ['*', '/'] <+: c :: text
    · obtain ⟨rest, hrest⟩ := hclose
      exact .inl ⟨[], rest, by simp, hrest.symm⟩
    · rcases ih with ⟨body, rest, hbody, rfl⟩ | hopen
      · refine .inl ⟨c :: body, rest, fun hwithin => ?_, rfl⟩
        rcases List.infix_cons_iff.mp hwithin with hfirst | hinside
        · exact hclose (hfirst.trans ⟨'*' :: '/' :: rest, rfl⟩)
        · exact hbody hinside
      · refine .inr fun hwithin => ?_
        exact (List.infix_cons_iff.mp hwithin).elim hclose hopen

/-- The scan passes over a segment that ends where the rest of the text starts. -/
theorem exists_shorter_of_segment (segment : Segment) (rest : List Char) {text : List Char}
    (htext : text = segment.text ++ rest) (hsome : segment.text ≠ []) (h : segment.Ends rest) :
    ∃ next, Passes text next ∧ next.length < text.length := by
  refine ⟨rest, htext ▸ .segment segment h, ?_⟩
  rw [htext, List.length_append]
  have := List.length_pos_iff.mpr hsome
  omega

/-- The scan goes on, stands before a block comment that is never closed, or keeps all that is
left. -/
theorem exists_passes_or (text : List Char) :
    (∃ next, Passes text next ∧ next.length < text.length) ∨ OpenBlock text ∨
      stripFrom .plain text = some text := by
  cases text with
  | nil => exact .inr (.inr rfl)
  | cons c text =>
    by_cases hquote : c = '"'
    · subst hquote
      rcases exists_stringBody_or text with ⟨body, rest, hbody, rfl⟩ | hopen
      · exact .inl (exists_shorter_of_segment (.string body hbody) rest (by simp [Segment.text])
          (by simp [Segment.text]) trivial)
      · exact .inr (.inr (by rw [stripFrom, hopen, Option.map_some]))
    by_cases hslash : c = '/'
    · subst hslash
      by_cases hline : ∃ more, text = '/' :: more
      · obtain ⟨more, rfl⟩ := hline
        refine .inl (exists_shorter_of_segment (.line (more.takeWhile (· ≠ '\n')) ?_)
          (more.dropWhile (· ≠ '\n'))
          ?_ (by simp [Segment.text]) ?_)
        · intro hmem
          simpa using List.mem_takeWhile_imp hmem
        · simp [Segment.text]
        · intro c hc
          have hhead := List.head?_dropWhile_not (· ≠ '\n') more
          rw [Option.mem_def.mp hc] at hhead
          simpa using hhead
      by_cases hblock : ∃ more, text = '*' :: more
      · obtain ⟨more, rfl⟩ := hblock
        rcases exists_blockBody_or more with ⟨body, rest, hbody, rfl⟩ | hopen
        · exact .inl (exists_shorter_of_segment (.block body hbody) rest (by simp [Segment.text])
            (by simp [Segment.text]) trivial)
        · exact .inr (.inl ⟨more, rfl, hopen⟩)
      · refine .inl ⟨text, .slash fun c hc => ?_, by simp⟩
        obtain ⟨more, rfl⟩ := List.head?_eq_some_iff.mp hc
        exact ⟨fun h => hline ⟨more, by rw [h]⟩, fun h => hblock ⟨more, by rw [h]⟩⟩
    · exact .inl
        (exists_shorter_of_segment (.plain [c] (by simp [Ne.symm hquote, Ne.symm hslash])) text rfl
        (by simp [Segment.text]) trivial)

/-- **The run of the scan.** It ends before a block comment that is never closed, or where it keeps
all that is left. -/
theorem exists_reaches (text : List Char) :
    ∃ last, Reaches text last ∧ (OpenBlock last ∨ stripFrom .plain last = some last) := by
  induction hn : text.length using Nat.strong_induction_on generalizing text with
  | _ n ih =>
    rcases exists_passes_or text with ⟨next, hpasses, hlength⟩ | hlast
    · obtain ⟨last, hreaches, hlast⟩ := ih next.length (hn ▸ hlength) next rfl
      exact ⟨last, hreaches.head hpasses, hlast⟩
    · exact ⟨text, .refl, hlast⟩

/-! ### A second scan -/

/-- What is kept starts with what the text starts with, unless that is a slash. -/
theorem head?_of_stripFrom {text s : List Char} (h : stripFrom .plain text = some s)
    (hslash : ∀ c ∈ text.head?, c ≠ '/') : s.head? = text.head? := by
  cases text with
  | nil =>
    cases h
    rfl
  | cons c text =>
    have hc : c ≠ '/' := hslash c rfl
    obtain ⟨tail, rfl⟩ : ∃ tail, s = c :: tail := by
      by_cases hquote : c = '"'
      · rw [hquote, stripFrom] at h
        obtain ⟨tail, -, rfl⟩ := Option.map_eq_some_iff.mp h
        exact ⟨tail, by rw [hquote]⟩
      · rw [stripFrom] at h
        · obtain ⟨tail, -, rfl⟩ := Option.map_eq_some_iff.mp h
          exact ⟨tail, rfl⟩
        · exact hquote
        · exact fun _ h => absurd h hc
        · exact fun _ h => absurd h hc
    rfl

/-- One step: if a second scan of what is kept of the rest changes nothing, then neither does one of
what is kept of all. -/
theorem Passes.stripped {text next : List Char} (h : Passes text next)
    (hnext : ∀ s, stripFrom .plain next = some s → stripFrom .plain s = some s) {s : List Char}
    (hs : stripFrom .plain text = some s) : stripFrom .plain s = some s := by
  cases h with
  | segment segment h =>
    rw [stripFrom_segment segment h] at hs
    obtain ⟨t, ht, rfl⟩ := Option.map_eq_some_iff.mp hs
    have hagain := hnext t ht
    cases segment with
    | plain text bare => rw [Segment.kept, stripFrom_plain bare.1 bare.2, hagain, Option.map_some]
    | string body closed =>
      have hstring : stripFrom .plain ((Segment.string body closed).text ++ t) = _ :=
        stripFrom_segment (.string body closed) trivial
      rw [hagain] at hstring
      exact hstring
    | block => exact hagain
    | line => exact hagain
  | slash h =>
    rw [stripFrom_slash h] at hs
    obtain ⟨t, ht, rfl⟩ := Option.map_eq_some_iff.mp hs
    -- The neighbour of the slash is kept, and it did not make a comment of it before.
    have hhead : t.head? = next.head? := head?_of_stripFrom ht fun c hc => (h c hc).1
    rw [stripFrom_slash (hhead ▸ h), hnext t ht, Option.map_some]

/-- **A second scan changes nothing.** -/
theorem stripComments_of_stripped {text s : List Char} (h : stripComments text = some s) :
    stripComments s = some s := by
  obtain ⟨last, hreaches, hlast⟩ := exists_reaches text
  revert s
  induction hreaches using Relation.ReflTransGen.head_induction_on with
  | refl =>
    intro s hs
    rcases hlast with hopen | hkept
    · rw [stripComments, stripFrom_of_openBlock hopen] at hs
      cases hs
    · rw [stripComments, hkept] at hs
      cases hs
      exact hkept
  | head hstep _ ih => exact fun hs => hstep.stripped (fun _ => ih) hs

theorem length_le_of_stripFrom (state : CommentScan) {text s : List Char}
    (h : stripFrom state text = some s) :
    s.length ≤ text.length := by
  fun_induction stripFrom state text generalizing s <;> grind [Option.map_eq_some_iff]

/-- A text that a scan does not change has no comment outside of its strings. -/
theorem not_comment_of_stripped {s rest : List Char} (h : stripComments s = some s)
    (hreaches : Reaches s rest) :
    ¬ ['/', '/'] <+: rest ∧ ¬ ['/', '*'] <+: rest := by
  obtain ⟨kept, hlength, hkept⟩ := hreaches.exists_kept
  rw [stripComments, hkept] at h
  obtain ⟨t, ht, rfl⟩ := Option.map_eq_some_iff.mp h
  rw [List.length_append] at hlength
  -- The marks of a comment would be lost.
  constructor
  · rintro ⟨more, rfl⟩
    have hless : t.length ≤ more.length := length_le_of_stripFrom .lineComment ht
    simp at hlength
    omega
  · rintro ⟨more, rfl⟩
    have hless : t.length ≤ more.length := length_le_of_stripFrom .blockComment ht
    simp at hlength
    omega

/-- **The scan fails** exactly if it reaches a block comment that is never closed. -/
theorem stripComments_eq_none_iff {text : List Char} :
    stripComments text = none ↔ ∃ last, Reaches text last ∧ OpenBlock last := by
  constructor
  · intro h
    obtain ⟨last, hreaches, hopen | hkept⟩ := exists_reaches text
    · exact ⟨last, hreaches, hopen⟩
    · obtain ⟨kept, -, hstrip⟩ := hreaches.exists_kept
      rw [stripComments, hstrip, hkept] at h
      cases h
  · rintro ⟨last, hreaches, hopen⟩
    obtain ⟨kept, -, hstrip⟩ := hreaches.exists_kept
    rw [stripComments, hstrip, stripFrom_of_openBlock hopen, Option.map_none]

theorem gather_ne_unclosedComment (settings : Settings) (members : List (String × Value)) :
    Settings.gather settings members ≠ .error .unclosedComment := by
  induction members generalizing settings with
  | nil => exact fun h => by cases h
  | cons member rest ih =>
    rw [Settings.gather]
    split
    · exact fun h => by cases h
    · exact ih _

/-- No other error is reported as a block comment that is never closed. -/
theorem parse_eq_unclosedComment_iff {room : Nat} {file : Path} {text : List Char} :
    Settings.parse room file text = .error (.config .unclosedComment) ↔
      stripComments text = none := by
  constructor
  · intro h
    unfold Settings.parse at h
    split at h
    next hnone => exact hnone
    next stripped _ =>
      split at h
      next => cases h
      next => cases h
      next => cases h
      next members _ =>
        cases hflatten : Settings.flatten members with
        | ok settings =>
          rw [hflatten] at h
          cases h
        | error e =>
          rw [hflatten] at h
          cases h
          unfold Settings.flatten at hflatten
          split at hflatten
          next => exact absurd hflatten (gather_ne_unclosedComment _ _)
          next => exact absurd hflatten (gather_ne_unclosedComment _ _)
          next => cases hflatten
      next => cases h
  · intro h
    rw [Settings.parse, h]

/-- **Taking comments out of any text.** Where the scan succeeds a second one changes nothing and
finds no comment outside of strings. It fails, and reading settings with it, exactly if it comes to
a block comment that is never closed.
-/
theorem stripComments_idempotent (text : List Char) :
    (∀ s, stripComments text = some s →
        stripComments s = some s ∧
          ∀ rest, Reaches s rest → ¬ ['/', '/'] <+: rest ∧ ¬ ['/', '*'] <+: rest) ∧
      (stripComments text = none ↔ ∃ last, Reaches text last ∧ OpenBlock last) ∧
      ∀ room file, Settings.parse room file text = .error (.config .unclosedComment) ↔
        stripComments text = none := by
  refine ⟨fun s h => ?_, stripComments_eq_none_iff, fun room file => parse_eq_unclosedComment_iff⟩
  have hagain := stripComments_of_stripped h
  exact ⟨hagain, fun rest hreaches => not_comment_of_stripped hagain hreaches⟩

end CallAtlas.Json
