import CallAtlas.Proofs.Comments.Scan
import Mathlib

/-!
# Comments in JSON

In a text that the JSON reader accepts every slash belongs to a string: `Clear` says so for what
lies between two places of a text, and each part of the reader passes over nothing else
(`covers_value`). `Commented` adds comments to a text anywhere outside of its strings. If the text
has no slashes there it is cut into segments by that (`Commented.exists_segments`), so taking the
comments out gives the text back.
-/

namespace CallAtlas.Json

/-! ## String literals -/


namespace StringBody

variable {body body' : List Char}

theorem append (h : StringBody body) (h' : StringBody body') : StringBody (body ++ body') := by
  induction h with
  | nil => exact h'
  | escape c _ ih => exact .escape c ih
  | char hquote hescape _ ih => exact .char hquote hescape ih

/-- Text without quotes and backslashes can stand in a string as it is. -/
theorem of_forall (h : ∀ c ∈ body, c ≠ '"' ∧ c ≠ '\\') : StringBody body := by
  induction body with
  | nil => exact .nil
  | cons c body ih =>
    obtain ⟨hc, hbody⟩ := List.forall_mem_cons.mp h
    exact .char hc.1 hc.2 (ih hbody)

/-- A string literal shows where it ends. -/
theorem eq_of_append_quote (h : StringBody body) (h' : StringBody body') {rest rest' : List Char}
    (heq : body ++ '"' :: rest = body' ++ '"' :: rest') : body = body' ∧ rest = rest' := by
  induction h generalizing body' with
  | nil =>
    cases h' with
    | nil => exact ⟨rfl, List.tail_eq_of_cons_eq heq⟩
    | escape => cases heq
    | char hquote => exact absurd (List.head_eq_of_cons_eq heq).symm hquote
  | escape c _ ih =>
    cases h' with
    | nil => cases heq
    | escape c' h' =>
      obtain ⟨rfl, hrest⟩ := List.cons.inj (List.tail_eq_of_cons_eq heq)
      obtain ⟨rfl, rfl⟩ := ih h' hrest
      exact ⟨rfl, rfl⟩
    | char _ hescape => exact absurd (List.head_eq_of_cons_eq heq).symm hescape
  | char hquote hescape _ ih =>
    cases h' with
    | nil => exact absurd (List.head_eq_of_cons_eq heq) hquote
    | escape => exact absurd (List.head_eq_of_cons_eq heq) hescape
    | char _ _ h' =>
      obtain ⟨rfl, hrest⟩ := List.cons.inj heq
      obtain ⟨rfl, rfl⟩ := ih h' hrest
      exact ⟨rfl, rfl⟩

end StringBody

/-- A text of closed string literals and of characters that are neither quotes nor slashes. -/
inductive SlashFree : List Char → Prop
  | nil : SlashFree []
  | char {c : Char} {text : List Char} (hquote : c ≠ '"') (hslash : c ≠ '/') (h : SlashFree text) :
      SlashFree (c :: text)
  | string {body text : List Char} (hbody : StringBody body) (h : SlashFree text) :
      SlashFree ('"' :: (body ++ '"' :: text))

namespace SlashFree

variable {text more : List Char}

theorem append (h : SlashFree text) (hmore : SlashFree more) : SlashFree (text ++ more) := by
  induction h with
  | nil => exact hmore
  | char hquote hslash _ ih => exact .char hquote hslash ih
  | string hbody _ ih =>
    rw [List.cons_append, List.append_assoc, List.cons_append]
    exact .string hbody ih

/-- Text without quotes and slashes starts no comment. -/
theorem of_forall (h : ∀ c ∈ text, c ≠ '"' ∧ c ≠ '/') : SlashFree text := by
  induction text with
  | nil => exact .nil
  | cons c text ih =>
    obtain ⟨hc, htext⟩ := List.forall_mem_cons.mp h
    exact .char hc.1 hc.2 (ih htext)

end SlashFree

/-! ## What the reader passes over -/

/-- Between two places of a text there are no slashes outside of strings. -/
def Clear (cs rest : List Char) : Prop := ∃ read, SlashFree read ∧ cs = read ++ rest

namespace Clear

variable {cs mid rest : List Char}

theorem refl (cs : List Char) : Clear cs cs := ⟨[], .nil, rfl⟩

/-- Clear stretches follow each other. -/
theorem trans (h : Clear cs mid) (h' : Clear mid rest) : Clear cs rest := by
  obtain ⟨read, hread, rfl⟩ := h
  obtain ⟨read', hread', rfl⟩ := h'
  exact ⟨read ++ read', hread.append hread', by rw [List.append_assoc]⟩

theorem cons {c : Char} (hquote : c ≠ '"') (hslash : c ≠ '/') (cs : List Char) :
    Clear (c :: cs) cs :=
  ⟨[c], .char hquote hslash .nil, rfl⟩

/-- Characters of a class that has neither quote nor slash. -/
theorem dropWhile {p : Char → Bool} (hquote : p '"' = false) (hslash : p '/' = false)
    (cs : List Char) :
    Clear cs (cs.dropWhile p) := by
  refine ⟨cs.takeWhile p, .of_forall fun c hc => ?_, List.takeWhile_append_dropWhile.symm⟩
  have hp := List.mem_takeWhile_imp hc
  exact ⟨fun h => by simp [h, hquote] at hp, fun h => by simp [h, hslash] at hp⟩

end Clear

/-- Blanks start neither a string nor a comment. -/
theorem clear_skipBlanks (cs : List Char) : Clear cs (skipBlanks cs) := .dropWhile rfl rfl cs

theorem clear_of_skipBlanks {cs rest : List Char} {c : Char} (h : skipBlanks cs = c :: rest)
    (hquote : c ≠ '"') (hslash : c ≠ '/') : Clear cs rest :=
  (clear_skipBlanks cs).trans (h ▸ .cons hquote hslash rest)

/-- A hexadecimal digit does not end a string. -/
theorem hexDigit?_ne {c : Char} {n : Nat} (h : hexDigit? c = some n) : c ≠ '"' ∧ c ≠ '\\' := by
  constructor
  · rintro rfl
    cases h
  · rintro rfl
    cases h

/-- The digits of an escape stand inside of the string. -/
theorem exists_stringBody_of_unit? {cs rest : List Char} {n : Nat} (h : unit? cs = some (n, rest)) :
    ∃ body, StringBody body ∧ cs = body ++ rest := by
  unfold unit? at h
  split at h
  next a b c d more =>
    simp only [Option.bind_eq_bind, Option.bind_eq_some_iff, Option.pure_def, Option.some.injEq,
      Prod.mk.injEq] at h
    obtain ⟨_, ha, _, hb, _, hc, _, hd, -, rfl⟩ := h
    refine ⟨[a, b, c, d], .of_forall ?_, rfl⟩
    simp only [List.forall_mem_cons]
    exact ⟨hexDigit?_ne ha, hexDigit?_ne hb, hexDigit?_ne hc, hexDigit?_ne hd,
      List.forall_mem_nil _⟩
  next => cases h

/-- A pair of surrogates stands inside of the string as a whole. -/
theorem exists_stringBody_of_joined (unit : Nat) (cs : List Char) :
    ∃ body, StringBody body ∧ cs = body ++ (joined unit cs).2 := by
  unfold joined
  split
  · split
    next more =>
      split
      next low after hunit =>
        split
        · obtain ⟨body, hbody, rfl⟩ := exists_stringBody_of_unit? hunit
          exact ⟨'\\' :: 'u' :: body, .escape 'u' hbody, rfl⟩
        · exact ⟨[], .nil, rfl⟩
      next => exact ⟨[], .nil, rfl⟩
    next => exact ⟨[], .nil, rfl⟩
  · exact ⟨[], .nil, rfl⟩

/-- The reader finds the closing quote of a string. -/
theorem exists_stringBody_of_stringFrom {fuel : Nat} {read found : List Nat} {cs rest : List Char}
    (h : stringFrom fuel read cs = .ok (found, rest)) :
    ∃ body, StringBody body ∧ cs = body ++ '"' :: rest := by
  induction fuel generalizing read cs with
  | zero => cases h
  | succ fuel ih =>
    unfold stringFrom at h
    split at h
    next => cases h
    next more =>
      cases h
      exact ⟨[], .nil, rfl⟩
    next more =>
      split at h
      next unit after hunit =>
        obtain ⟨digits, hdigits, rfl⟩ := exists_stringBody_of_unit? hunit
        obtain ⟨low, hlow, hafter⟩ := exists_stringBody_of_joined unit after
        have hjoined : ∃ body, StringBody body ∧ (joined unit after).2 = body ++ '"' :: rest := ih h
        obtain ⟨body, hbody, hrest⟩ := hjoined
        rw [hrest] at hafter
        refine ⟨'\\' :: 'u' :: (digits ++ low ++ body),
          .escape 'u' ((hdigits.append hlow).append hbody), ?_⟩
        rw [hafter]
        simp
      next => cases h
    next c more _ =>
      split at h
      next e _ =>
        obtain ⟨body, hbody, rfl⟩ := ih h
        exact ⟨'\\' :: c :: body, .escape c hbody, rfl⟩
      next => cases h
    next c more hquote _ hescape =>
      split at h
      · cases h
      · obtain ⟨body, hbody, rfl⟩ := ih h
        refine ⟨c :: body, .char hquote (fun hc => ?_) hbody, rfl⟩
        obtain ⟨d, tail, htail⟩ : ∃ d tail, body ++ '"' :: rest = d :: tail :=
          List.exists_cons_of_ne_nil (by simp)
        exact hescape d tail hc htail

/-- A string is passed from its opening quote to behind its closing one. -/
theorem clear_of_points {cs rest : List Char} {found : List Nat}
    (h : points cs = .ok (found, rest)) :
    Clear ('"' :: cs) rest := by
  obtain ⟨body, hbody, rfl⟩ := exists_stringBody_of_stringFrom h
  exact ⟨'"' :: (body ++ ['"']), .string hbody .nil, by simp⟩

theorem clear_fraction (cs : List Char) : Clear cs (fraction cs).2 := by
  unfold fraction
  split
  next rest =>
    dsimp only
    split
    · exact .refl _
    · exact (Clear.cons (by decide) (by decide) rest).trans (.dropWhile rfl rfl rest)
  next => exact .refl _

theorem clear_exponent (cs : List Char) : Clear cs (exponent cs).2 := by
  unfold exponent
  split
  next e rest =>
    split
    next he =>
      have hmark : Clear (e :: rest) rest := by
        rcases he with rfl | rfl
        · exact .cons (by decide) (by decide) rest
        · exact .cons (by decide) (by decide) rest
      split
      next negative more hsign =>
        have hmore : Clear rest more := by
          split at hsign
          · cases hsign
            exact .cons (by decide) (by decide) _
          · cases hsign
            exact .cons (by decide) (by decide) _
          · cases hsign
            exact .refl _
        dsimp only
        split
        · exact .refl _
        · exact (hmark.trans hmore).trans (.dropWhile rfl rfl more)
    next => exact .refl _
  next => exact .refl _

/-- No character of a number starts a comment. -/
theorem clear_of_number {negative : Bool} {cs rest : List Char} {v : Value}
    (h : number negative cs = .ok (v, rest)) :
    Clear cs rest := by
  unfold number at h
  extract_lets digits after n at h
  have hafter : Clear cs after := by
    dsimp only [after, digits]
    split
    next tail => exact .cons (by decide) (by decide) tail
    next =>
      have hdrop := congrArg (List.drop (cs.takeWhile Char.isDigit).length)
        (List.takeWhile_append_dropWhile : cs.takeWhile Char.isDigit ++ cs.dropWhile Char.isDigit =
          cs)
      rw [List.drop_left] at hdrop
      exact hdrop ▸ .dropWhile rfl rfl cs
  clear_value after digits
  split at h
  · cases h
  · split at h
    next places more hfraction =>
      split at h
      next power left hexponent =>
        have hmore : Clear after more := by
          have hclear := clear_fraction after
          rwa [hfraction] at hclear
        have hleft : Clear more left := by
          have hclear := clear_exponent more
          rwa [hexponent] at hclear
        have hall : Clear cs left := (hafter.trans hmore).trans hleft
        split at h
        · split at h
          · cases h
          · cases h
            exact hall
        · cases h
          exact hall

/-- No character of a word starts a comment. -/
theorem clear_of_word {w : List Char} {v : Value} {cs : List Char}
    (h : (words.find? fun w => w.1.isPrefixOf cs) = some (w, v)) : Clear cs (cs.drop w.length) := by
  have hmem : (w, v) ∈ words := List.mem_of_find?_eq_some h
  have hprefix := List.find?_some h
  obtain ⟨rest, rfl⟩ : w <+: cs := List.isPrefixOf_iff_prefix.mp hprefix
  rw [List.drop_left]
  refine ⟨w, .of_forall ?_, rfl⟩
  simp only [words, List.mem_cons, Prod.mk.injEq, List.not_mem_nil, or_false] at hmem
  rcases hmem with ⟨rfl, -⟩ | ⟨rfl, -⟩ | ⟨rfl, -⟩ | ⟨rfl, -⟩ | ⟨rfl, -⟩ | ⟨rfl, -⟩ <;> simp

variable {α β : Type}

/-- If a reader succeeds, there are no slashes outside of strings in what it has read. -/
def Covers (cs : List Char) (r : Except ReadError (α × List Char)) : Prop :=
  ∀ a rest, r = .ok (a, rest) → Clear cs rest

namespace Covers

variable {cs mid : List Char} {r : Except ReadError (α × List Char)}

theorem error (e : ReadError) : Covers cs (.error e : Except ReadError (α × List Char)) := by
  intro a rest h
  cases h

theorem ok {a : α} (h : Clear cs mid) : Covers cs (.ok (a, mid)) := by
  intro _ rest heq
  cases heq
  exact h

/-- A clear stretch before what a reader covers is covered with it. -/
theorem after (h : Clear cs mid) (hr : Covers mid r) : Covers cs r :=
  fun a rest heq => h.trans (hr a rest heq)

/-- Two readers in a row cover what each of them covers. -/
theorem bind {f : α × List Char → Except ReadError (β × List Char)} (h : Covers cs r)
    (hf : ∀ a rest, Covers rest (f (a, rest))) : Covers cs (r >>= f) := by
  intro b rest heq
  cases r with
  | error e => cases heq
  | ok read => exact (h read.1 read.2 rfl).trans (hf read.1 read.2 b rest heq)

end Covers

theorem covers_points (cs : List Char) : Covers ('"' :: cs) (points cs) :=
  fun _ _ => clear_of_points

theorem covers_string (cs : List Char) : Covers ('"' :: cs) (string cs) :=
  .bind (covers_points cs) fun _ rest => .ok (.refl rest)

theorem covers_name (cs : List Char) : Covers ('"' :: cs) (name cs) :=
  .bind (covers_points cs) fun _ rest => .ok (.refl rest)

theorem covers_number (negative : Bool) (cs : List Char) : Covers cs (number negative cs) :=
  fun _ _ => clear_of_number

/-- **What the reader reads has no slash outside of strings.** -/
theorem covers_value (room fuel : Nat) :
    (∀ cs, Covers cs (value room fuel cs)) ∧ (∀ read cs, Covers cs (members room fuel read cs)) ∧
      ∀ read cs, Covers cs (items room fuel read cs) := by
  induction fuel generalizing room with
  | zero => exact ⟨fun _ => .error _, fun _ _ => .error _, fun _ _ => .error _⟩
  | succ fuel ih =>
    obtain ⟨hvalue, hmembers, hitems⟩ := ih room
    refine ⟨fun cs => ?_, fun read cs => ?_, fun read cs => ?_⟩
    · unfold value
      split
      next w v hword => exact .ok (clear_of_word hword)
      next =>
        split
        next inner _ => exact covers_string inner
        next inner _ =>
          have hopen : Clear ('{' :: inner) inner := .cons (by decide) (by decide) inner
          split
          next => exact .error _
          next =>
            split
            next more hclose =>
              exact .ok (hopen.trans (clear_of_skipBlanks hclose (by decide) (by decide)))
            next => exact .after (hopen.trans (clear_skipBlanks inner)) ((ih _).2.1 [] _)
        next inner _ =>
          have hopen : Clear ('[' :: inner) inner := .cons (by decide) (by decide) inner
          split
          next => exact .error _
          next =>
            split
            next more hclose =>
              exact .ok (hopen.trans (clear_of_skipBlanks hclose (by decide) (by decide)))
            next => exact .after (hopen.trans (clear_skipBlanks inner)) ((ih _).2.2 [] _)
        next inner _ =>
          exact .after (.cons (by decide) (by decide) inner) (covers_number true inner)
        next => exact covers_number false cs
    · unfold members
      split
      next inner =>
        refine .bind (covers_name inner) fun name rest => ?_
        dsimp only
        split
        next after hcolon =>
          have hafter := clear_of_skipBlanks hcolon (by decide) (by decide)
          refine .after (hafter.trans (clear_skipBlanks after)) (.bind (hvalue _) fun v rest => ?_)
          dsimp only
          split
          next more hcomma =>
            have hmore := clear_of_skipBlanks hcomma (by decide) (by decide)
            exact .after (hmore.trans (clear_skipBlanks more)) (hmembers _ _)
          next more hclose => exact .ok (clear_of_skipBlanks hclose (by decide) (by decide))
          next => exact .error _
        next => exact .error _
      next => exact .error _
    · unfold items
      refine .bind (hvalue cs) fun v rest => ?_
      dsimp only
      split
      next more hcomma =>
        have hmore := clear_of_skipBlanks hcomma (by decide) (by decide)
        exact .after (hmore.trans (clear_skipBlanks more)) (hitems _ _)
      next more hclose => exact .ok (clear_of_skipBlanks hclose (by decide) (by decide))
      next => exact .error _

/-- **In a text that the reader accepts every slash belongs to a string.** -/
theorem slashFree_of_parse {room : Nat} {text : List Char} {v : Value}
    (h : parse room text = .ok v) :
    SlashFree text := by
  unfold parse at h
  have hreads := (covers_value room (2 * text.length + 2)).1 (skipBlanks text)
  generalize value room (2 * text.length + 2) (skipBlanks text) = r at h hreads
  cases r with
  | error e => cases h
  | ok read =>
    obtain ⟨w, rest⟩ := read
    replace h : (if (skipBlanks rest).isEmpty then Except.ok w
        else Except.error ReadError.malformed) = Except.ok v := h
    split at h
    next hempty =>
      have hall := ((clear_skipBlanks text).trans (hreads w rest rfl)).trans (clear_skipBlanks rest)
      rw [List.isEmpty_iff.mp hempty] at hall
      obtain ⟨read, hread, htext⟩ := hall
      rwa [htext, List.append_nil]
    next => cases h

/-! ## Adding comments and taking them out -/

/-- A text, and this text with comments added outside of its string literals. -/
inductive Commented : List Char → List Char → Prop
  | done : Commented [] []
  | char {c : Char} {text more : List Char} (hquote : c ≠ '"') (h : Commented text more) :
      Commented (c :: text) (c :: more)
  | string {body text more : List Char} (hbody : StringBody body) (h : Commented text more) :
      Commented ('"' :: (body ++ '"' :: text)) ('"' :: (body ++ '"' :: more))
  | block {body text more : List Char} (hbody : ¬ ['*', '/'] <:+: body) (h : Commented text more) :
      Commented text ('/' :: '*' :: (body ++ '*' :: '/' :: more))
  | line {body text more : List Char} (hbody : '\n' ∉ body) (hmore : ∀ c ∈ more.head?, c = '\n')
      (h : Commented text more) : Commented text ('/' :: '/' :: (body ++ more))

/-- Adding no comment. -/
theorem SlashFree.commented {text : List Char} (h : SlashFree text) : Commented text text := by
  induction h with
  | nil => exact .done
  | char hquote _ _ ih => exact .char hquote ih
  | string hbody _ ih => exact .string hbody ih

/-- A text without slashes outside of its strings is cut into segments wherever comments are
added. -/
theorem Commented.exists_segments {text more : List Char} (h : Commented text more)
    (hfree : SlashFree text) :
    ∃ segments, Joined segments ∧ textOf segments = more ∧ keptOf segments = text := by
  induction h with
  | done => exact ⟨[], trivial, rfl, rfl⟩
  | @char c text more hquote _ ih =>
    cases hfree with
    | char _ hslash hfree =>
      obtain ⟨segments, hjoined, rfl, rfl⟩ := ih hfree
      exact ⟨.plain [c] (by simp [Ne.symm hquote, Ne.symm hslash]) :: segments,
        ⟨trivial, hjoined⟩, rfl, rfl⟩
    | string => exact absurd rfl hquote
  | @string body text more hbody _ ih =>
    generalize hall : '"' :: (body ++ '"' :: text) = all at hfree
    cases hfree with
    | nil => cases hall
    | char hquote => exact absurd (List.head_eq_of_cons_eq hall).symm hquote
    | string hbody' hfree =>
      obtain ⟨rfl, rfl⟩ := hbody.eq_of_append_quote hbody' (List.tail_eq_of_cons_eq hall)
      obtain ⟨segments, hjoined, rfl, rfl⟩ := ih hfree
      refine ⟨.string body hbody :: segments, ⟨trivial, hjoined⟩, ?_, ?_⟩
      · simp [textOf, Segment.text]
      · simp [keptOf, Segment.kept]
  | @block body text more hbody _ ih =>
    obtain ⟨segments, hjoined, rfl, rfl⟩ := ih hfree
    refine ⟨.block body hbody :: segments, ⟨trivial, hjoined⟩, ?_, rfl⟩
    simp [textOf, Segment.text]
  | @line body text more hbody hmore _ ih =>
    obtain ⟨segments, hjoined, rfl, rfl⟩ := ih hfree
    exact ⟨.line body hbody :: segments, ⟨hmore, hjoined⟩, rfl, rfl⟩

/-- The line feeds that are lost are those of the block comments. -/
theorem count_textOf (segments : List Segment) :
    (textOf segments).count '\n' =
      (keptOf segments).count '\n' + (segments.map Segment.blockLines).sum := by
  induction segments with
  | nil => rfl
  | cons segment rest ih =>
    have hsegment : segment.text.count '\n' = segment.kept.count '\n' + segment.blockLines := by
      cases segment with
      | plain => rfl
      | string => rfl
      | block body unclosed => simp [Segment.text, Segment.kept, Segment.blockLines]
      | line body unbroken =>
        simp [Segment.text, Segment.kept, Segment.blockLines, List.count_eq_zero.mpr unbroken]
    have htext : textOf (segment :: rest) = segment.text ++ textOf rest := rfl
    have hkept : keptOf (segment :: rest) = segment.kept ++ keptOf rest := rfl
    rw [htext, hkept, List.count_append, List.count_append, hsegment, ih,
      List.map_cons, List.sum_cons]
    omega

/-- **Taking comments out of a well-formed text** gives the segments that are no comments, and only
the line feeds inside of block comments are lost. A text that the JSON reader accepts comes back
wherever comments were added to it outside of its strings. -/
theorem stripComments_exact :
    (∀ segments, Joined segments →
        stripComments (textOf segments) = some (keptOf segments) ∧
          (textOf segments).count '\n' =
            (keptOf segments).count '\n' + (segments.map Segment.blockLines).sum) ∧
      ∀ room text value, parse room text = .ok value →
        Commented text text ∧
          ∀ commented, Commented text commented → stripComments commented = some text := by
  refine ⟨fun segments h => ⟨stripComments_textOf h, count_textOf segments⟩,
    fun room text value h => ?_⟩
  have hfree := slashFree_of_parse h
  refine ⟨hfree.commented, fun commented hcommented => ?_⟩
  obtain ⟨segments, hjoined, rfl, rfl⟩ := hcommented.exists_segments hfree
  exact stripComments_textOf hjoined

theorem stripComments_exact_marked :
    parse 1 "[\"//\"]".toList = .ok (.array [.string "//"]) ∧
      stripComments "[/*\n*/\"//\"]// \"".toList = some "[\"//\"]".toList := by
  have hread : parse 1 "[\"//\"]".toList = .ok (.array [.string "//"]) := by rfl
  refine ⟨hread, (stripComments_exact.2 _ _ _ hread).2 _ ?_⟩
  have hline : Commented [] ['/', '/', ' ', '"'] :=
    @Commented.line [' ', '"'] [] [] (by decide) (by simp) .done
  have hstring :
      Commented ['"', '/', '/', '"', ']'] ['"', '/', '/', '"', ']', '/', '/', ' ', '"'] :=
    @Commented.string ['/', '/'] [']'] _ (.of_forall (by simp)) (.char (by decide) hline)
  exact .char (by decide) (@Commented.block ['\n'] _ _ (by decide) hstring)

end CallAtlas.Json
