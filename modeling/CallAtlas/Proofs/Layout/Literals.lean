import CallAtlas.Proofs.Layout.Parsing
import CallAtlas.Source.Parser.Literal

/-!
# The fields of interpolated strings

The expressions inside a string are read with tokens of their own, from the text between the braces
put in parentheses. An opening parenthesis is as wide as an opening brace, and a closing one as wide
as whatever ends the expression, so the expression lies where its text lies in the string
(`placed_replacementField?`). The fields of a string follow each other, hence they are spread over
the string's token (`StringLiteral.spread_of_parts?`).
-/

namespace CallAtlas.Source

/-! ## Cursors that move on -/

namespace Cursor

variable {c d e : Cursor}

/-- The end of what a cursor has before it. -/
def stop (c : Cursor) : Place := c.rest.foldl Place.after c.place

/-- A cursor has moved on over characters. -/
def Onward (c d : Cursor) : Prop :=
  ∃ passed, c.rest = passed ++ d.rest ∧ d.place = passed.foldl Place.after c.place

theorem Onward.trans (h : c.Onward d) (h' : d.Onward e) : c.Onward e := by
  obtain ⟨passed, hrest, hplace⟩ := h
  obtain ⟨more, hrest', hplace'⟩ := h'
  exact ⟨passed ++
    more, by rw [hrest, hrest', List.append_assoc], by rw [hplace', hplace, List.foldl_append]⟩

theorem Onward.le (h : c.Onward d) : c.place ≤ d.place := by
  obtain ⟨passed, -, hplace⟩ := h
  exact hplace ▸ Place.le_foldl_after _ _

theorem Onward.stop_eq (h : c.Onward d) : c.stop = d.stop := by
  obtain ⟨passed, hrest, hplace⟩ := h
  rw [stop, stop, hrest, hplace, List.foldl_append]

theorem place_le_stop (c : Cursor) : c.place ≤ c.stop := Place.le_foldl_after _ _

theorem place_moveTo {passed rest : List Char} (h : c.rest = passed ++ rest) :
    (c.moveTo rest).place = passed.foldl Place.after c.place := by
  rw [moveTo, h, List.length_append, Nat.add_sub_cancel, List.take_left]

theorem onward_moveTo {rest : List Char} (h : rest <:+ c.rest) : c.Onward (c.moveTo rest) := by
  obtain ⟨passed, hrest⟩ := h
  exact ⟨passed, hrest.symm, place_moveTo hrest.symm⟩

end Cursor

/-! ## Fields -/

/-- One step of the search for the end of an expression: it ends here, at one of four signs, or the
search goes on. -/
theorem of_fieldEnd?_cons {scan : FieldScan} {c : Char} {rest stop : List Char}
    (h : fieldEnd? scan (c :: rest) = some stop) :
    (stop = c :: rest ∧ c ∈ ['!', ':', '}', '=']) ∨ ∃ scan', fieldEnd? scan' rest = some stop := by
  unfold fieldEnd? at h
  split at h
  next => exact .inr ⟨_, h⟩
  split at h
  next => cases h
  split at h
  next => exact .inr ⟨_, h⟩
  split at h
  next => exact .inr ⟨_, h⟩
  split at h
  next => cases h
  split at h
  next hends =>
    split at h
    next => exact .inr ⟨_, h⟩
    split at h
    next => exact .inr ⟨_, h⟩
    next hangle =>
      cases h
      have hmem := List.contains_iff_mem.mp hends.2
      refine .inl ⟨rfl, ?_⟩
      simp only [List.mem_cons, List.not_mem_nil, or_false] at hmem ⊢
      tauto
  split at h
  next =>
    obtain ⟨scan', -, h⟩ := Option.bind_eq_some_iff.mp h
    exact .inr ⟨scan', h⟩
  next => exact .inr ⟨_, h⟩

/-- What ends the expression of a field: one of four signs. -/
theorem exists_of_fieldEnd? {scan : FieldScan} {cs stop : List Char}
    (h : fieldEnd? scan cs = some stop) :
    ∃ text c rest, cs = text ++ stop ∧ stop = c :: rest ∧ c ∈ ['!', ':', '}', '='] := by
  induction cs generalizing scan with
  | nil => cases h
  | cons c rest ih =>
    rcases of_fieldEnd?_cons h with ⟨rfl, hc⟩ | ⟨scan', h⟩
    · exact ⟨[], c, rest, rfl, rfl, hc⟩
    · obtain ⟨text, d, tail, rfl, hstop, hd⟩ := ih h
      exact ⟨c :: text, d, tail, rfl, hstop, hd⟩

theorem suffix_of_afterConversion? {cs rest : List Char} (h : afterConversion? cs = some rest) :
    rest <:+ cs := by
  unfold afterConversion? at h
  split at h
  next c more =>
    split at h
    next =>
      cases h
      exact ⟨['!', c], rfl⟩
    next => cases h
  next => cases h
  next =>
    cases h
    exact List.suffix_rfl

/-- An expression in parentheses is as wide as in the field: the brace and the sign that ends it
take one byte each. -/
theorem foldl_after_field (p : Place) (text : List Char) {c : Char}
    (hc : c ∈ ['!', ':', '}', '=']) :
    ('(' :: text ++ [')']).foldl Place.after p = ('{' :: text ++ [c]).foldl Place.after p := by
  have hlast (q : Place) : q.after ')' = q.after c := by
    simp only [List.mem_cons, List.not_mem_nil, or_false] at hc
    rcases hc with rfl | rfl | rfl | rfl <;> rfl
  simp only [List.cons_append, List.foldl_cons, List.foldl_append, List.foldl_nil]
  exact hlast _

/-- The expressions in a stretch of interpolated text are spread over it. -/
def SpreadParts (start : List Char → Prop) (read : Cursor → Option (List Node × Cursor)) : Prop :=
  ∀ cursor parts after, start cursor.rest → read cursor = some (parts, after) →
    cursor.Onward after ∧ Spread cursor.place after.place parts

/-! ## Tokens of a field -/

/-- Behind a line end it makes no difference what was reported before it. -/
theorem Place.foldl_after_with_back (p : Place) (back : Nat) {cs : List Char}
    (h : (cs.foldl after p).line ≠ p.line) :
    cs.foldl after { p with back } = cs.foldl after p := by
  induction cs generalizing p with
  | nil => exact absurd rfl h
  | cons c cs ih =>
    rw [List.foldl_cons, List.foldl_cons]
    by_cases hc : c = '\n'
    · simp only [after, if_pos hc]
    · have hback : ({ p with back } : Place).after c = { p.after c with back } := by
        simp only [after, if_neg hc]
      have hline : (p.after c).line = p.line := by simp only [after, if_neg hc]
      rw [hback]
      exact ih (p.after c) (by rwa [hline])

/-- A token of a field stands where it stood, whatever is reported of it. -/
theorem Token.Sound.inField {fin : Place} {t : Token} (h : t.Sound fin) (brace : Place) :
    (t.inField brace).Sound fin ∧ t.extent.start ≤ (t.inField brace).extent.start ∧
      (t.inField brace).extent.stop = t.extent.stop := by
  unfold Token.inField
  split
  next =>
    split
    next hlines =>
      have hline : (t.lexeme.chars.foldl Place.after t.extent.start).line ≠
          t.extent.start.line := by
        rw [← h.stop_eq, hlines.1]
        exact hlines.2
      have hstart : t.extent.start ≤ { t.extent.start with back := brace.column } :=
        Place.le_iff.mpr (.inr ⟨rfl, le_rfl⟩)
      exact ⟨⟨h.stop_eq.trans (Place.foldl_after_with_back _ _ hline).symm, h.stop_le, h.word⟩,
        hstart, rfl⟩
    next => exact ⟨h, le_rfl, rfl⟩
  next => exact ⟨h, le_rfl, rfl⟩

theorem Spaced.map_inField {fin p : Place} {ts : List Token} (h : Spaced fin p ts) (brace : Place) :
    Spaced fin p (ts.map (·.inField brace)) := by
  induction ts generalizing p with
  | nil => trivial
  | cons t ts ih =>
    obtain ⟨hle, ht, hts⟩ := h
    obtain ⟨hsound, hstart, hstop⟩ := ht.inField brace
    exact ⟨hle.trans hstart, hsound, hstop ▸ ih hts⟩

/-- The expression of a replacement field lies where its text does, from the opening brace on. -/
def FieldPlaced (expression : Place → List Char → Option Node) : Prop :=
  ∀ place text node, expression place text = some node →
    node.Placed place (('(' :: text ++ [')']).foldl Place.after place)

section Fields

variable {expression : Place → List Char → Option Node}

theorem spreadParts_replacementField? (he : FieldPlaced expression)
    {spec : Cursor → Option (List Node × Cursor)} (hspec : SpreadParts (fun _ => True) spec) :
    SpreadParts (fun cs => cs.head? = some '{') (replacementField? expression spec) := by
  intro cursor parts after hbrace h
  obtain ⟨inside, hrest⟩ : ∃ inside, cursor.rest = '{' :: inside := by
    cases hcs : cursor.rest with
    | nil =>
      rw [hcs] at hbrace
      cases hbrace
    | cons c inside =>
      rw [hcs] at hbrace
      cases hbrace
      exact ⟨inside, rfl⟩
  unfold replacementField? at h
  rw [hrest, List.drop_one, List.tail_cons] at h
  obtain ⟨stop, hstop, h⟩ := Option.bind_eq_some_iff.mp h
  obtain ⟨text, c, tail, rfl, rfl, hc⟩ := exists_of_fieldEnd? hstop
  rw [List.length_append, Nat.add_sub_cancel, List.take_left] at h
  obtain ⟨-, -, h⟩ := Option.bind_eq_some_iff.mp h
  obtain ⟨value, hvalue, h⟩ := Option.bind_eq_some_iff.mp h
  obtain ⟨stop, hconversion, h⟩ := Option.bind_eq_some_iff.mp h
  have hplaced := he _ _ _ hvalue
  rw [foldl_after_field _ _ hc] at hplaced
  -- Whatever stands between the expression and the colon or brace, these come after the sign that
  -- ended it.
  have hafter {d : Char} {rest : List Char} (hd : stop = d :: rest) : rest <:+ tail := by
    have hsuffix := suffix_of_afterConversion? hconversion
    have htail (hcs : stop <:+ c :: tail) : rest <:+ tail := by
      rw [hd] at hcs
      rcases List.suffix_cons_iff.mp hcs with heq | hsuffix
      · exact (List.cons.inj heq).2 ▸ List.suffix_rfl
      · exact (List.suffix_cons d rest).trans hsuffix
    simp only [List.mem_cons, List.not_mem_nil, or_false] at hc
    rcases hc with rfl | rfl | rfl | rfl
    · exact htail hsuffix
    · exact htail hsuffix
    · exact htail hsuffix
    · exact htail (hsuffix.trans ((List.dropWhile_suffix _).trans (List.suffix_cons _ _)))
  have hmove {rest : List Char} (hsuffix : rest <:+ tail) :
      cursor.Onward (cursor.moveTo rest) ∧
      ('{' :: text ++ [c]).foldl Place.after cursor.place ≤ (cursor.moveTo rest).place := by
    obtain ⟨between, rfl⟩ := hsuffix
    have hsplit : cursor.rest = ('{' :: text ++ [c]) ++ between ++ rest := by simp [hrest]
    refine ⟨Cursor.onward_moveTo ⟨_, hsplit.symm⟩, ?_⟩
    rw [Cursor.place_moveTo hsplit]
    exact (Place.le_foldl_after _ between).trans_eq List.foldl_append.symm
  split at h
  next rest =>
    obtain ⟨honward, hle⟩ := hmove (hafter rfl)
    obtain ⟨⟨more, next⟩, hmore, h⟩ := Option.bind_eq_some_iff.mp h
    obtain ⟨hnext, hspread⟩ := hspec _ _ _ trivial hmore
    dsimp only at h
    split at h
    next last hlast =>
      cases h
      have hclose : next.Onward (next.moveTo last) := Cursor.onward_moveTo ⟨['}'], hlast.symm⟩
      refine ⟨honward.trans (hnext.trans hclose), ?_⟩
      refine (Spread.singleton hplaced).append (hspread.mono le_rfl hclose.le) hle honward.le ?_
      exact hle.trans (hnext.le.trans hclose.le)
    next => cases h
  next last =>
    cases h
    obtain ⟨honward, hle⟩ := hmove (hafter rfl)
    exact ⟨honward, .singleton (hplaced.mono le_rfl hle)⟩
  next => cases h

/-- Literal text ends further on, at an opening brace if a field follows. -/
theorem of_literalText? {raw outermost : Bool} {scan : TextScan} {cs rest : List Char}
    {stop : TextStop} (h : literalText? raw outermost scan cs = some (stop, rest)) :
    rest <:+ cs ∧ (stop = .field → rest.head? = some '{') := by
  -- Where the text goes on, what follows a character ends as well.
  have hcons {c : Char} {cs : List Char}
      (ih : rest <:+ cs ∧ (stop = .field → rest.head? = some '{')) :
      rest <:+ c :: cs ∧ (stop = .field → rest.head? = some '{') :=
    ⟨ih.1.trans (List.suffix_cons c cs), ih.2⟩
  fun_induction literalText? raw outermost scan cs with
  | case1 =>
    cases h
    exact ⟨List.suffix_rfl, by simp⟩
  | case6 scan c cs =>
    cases h
    exact ⟨(List.drop_suffix 1 cs).trans (List.suffix_cons c cs), by simp⟩
  | case7 =>
    cases h
    exact ⟨List.suffix_rfl, fun _ => rfl⟩
  | case8 => cases h
  | case9 =>
    cases h
    exact ⟨List.suffix_rfl, by simp⟩
  | case2 _ _ ih => exact hcons (ih h)
  | case3 _ _ ih => exact hcons (ih h)
  | case4 _ _ _ _ _ _ ih => exact hcons (ih h)
  | case5 _ _ _ _ _ _ _ ih => exact hcons (ih h)
  | case10 _ _ _ _ _ _ _ _ ih => exact hcons (ih h)

theorem spreadParts_interpolatedParts? {raw outermost : Bool}
    {field : Cursor → Option (List Node × Cursor)}
    (hfield : SpreadParts (fun cs => cs.head? = some '{') field) (fuel : Nat) :
    SpreadParts (fun _ => True) (interpolatedParts? raw outermost field fuel) := by
  induction fuel with
  | zero =>
    intro cursor parts after _ h
    cases h
  | succ fuel ih =>
    intro cursor parts after _ h
    unfold interpolatedParts? at h
    obtain ⟨⟨stop, rest⟩, htext, h⟩ := Option.bind_eq_some_iff.mp h
    obtain ⟨-, -, h⟩ := Option.bind_eq_some_iff.mp h
    obtain ⟨hsuffix, hbrace⟩ := of_literalText? htext
    have hmove := Cursor.onward_moveTo hsuffix
    cases stop with
    | finish =>
      cases h
      exact ⟨hmove, .nil⟩
    | doubled =>
      obtain ⟨hnext, hspread⟩ := ih _ _ _ trivial h
      exact ⟨hmove.trans hnext, hspread.mono hmove.le le_rfl⟩
    | field =>
      obtain ⟨⟨first, next⟩, hfirst, h⟩ := Option.bind_eq_some_iff.mp h
      obtain ⟨⟨more, last⟩, hmore, h⟩ := Option.bind_eq_some_iff.mp h
      cases h
      obtain ⟨hnext, hspread⟩ := hfield _ _ _ (hbrace rfl) hfirst
      obtain ⟨hlast, hspread'⟩ := ih _ _ _ trivial hmore
      refine ⟨hmove.trans (hnext.trans hlast), ?_⟩
      exact (hspread.mono hmove.le le_rfl).append hspread' le_rfl (hmove.le.trans hnext.le) hlast.le

theorem spreadParts_interpolated? (he : FieldPlaced expression) (raw : Bool) (depth : Nat)
    (outermost : Bool) :
    SpreadParts (fun _ => True) (interpolated? expression raw depth outermost) := by
  induction depth generalizing outermost with
  | zero =>
    have hnone : SpreadParts (fun cs => cs.head? = some '{') fun _ => none := by
      intro cursor parts after _ h
      cases h
    intro cursor
    exact spreadParts_interpolatedParts? hnone _ cursor
  | succ depth ih =>
    intro cursor
    exact spreadParts_interpolatedParts? (spreadParts_replacementField? he (ih false)) _ cursor

/-- **The expressions in a string are spread over its inside.** -/
theorem StringLiteral.spread_of_parts? (he : FieldPlaced expression) {s : StringLiteral}
    {parts : List Node}
    (h : s.parts? expression = some parts) : Spread s.inside.place s.inside.stop parts := by
  unfold StringLiteral.parts? at h
  split at h
  next =>
    obtain ⟨⟨parts', last⟩, hparts, h⟩ := Option.bind_eq_some_iff.mp h
    cases h
    obtain ⟨honward, hspread⟩ := spreadParts_interpolated? he _ _ _ _ _ _ trivial hparts
    exact hspread.mono le_rfl (honward.stop_eq ▸ last.place_le_stop)
  next =>
    split at h
    next => cases h
    next =>
      cases h
      exact .nil

end Fields

/-- The inside of a string lies within its token. -/
theorem StringLiteral.bounds_ofToken (text : List Char) (start : Place) :
    start ≤ (ofToken text start).inside.place ∧
      (ofToken text start).inside.stop ≤ text.foldl Place.after start := by
  have hinside (size : Nat) : Cursor.Onward ⟨text, start⟩ (Cursor.moveTo ⟨text, start⟩
      ((text.dropWhile Char.isAlpha).drop size)) :=
    Cursor.onward_moveTo ((List.drop_suffix _ _).trans (List.dropWhile_suffix _))
  have htake (c : Cursor) (n : Nat) : Cursor.stop { c with rest := c.rest.take n } ≤ c.stop := by
    have hsplit :
        c.stop = (c.rest.drop n).foldl Place.after
          (Cursor.stop { c with rest := c.rest.take n }) := by
      rw [Cursor.stop, Cursor.stop, ← List.foldl_append, List.take_append_drop]
    exact hsplit ▸ Place.le_foldl_after _ _
  exact ⟨(hinside _).le, (htake _ _).trans_eq (hinside _).stop_eq.symm⟩

/-! ## String tokens -/

namespace Parser

variable {fin lo : Place} {begun : Bool} {nodes : List Node} {g : Grammar}

theorem of_stringToken {i j : Input} {found : Option StringLiteral}
    (h : stringToken i = some (found, j)) :
    (found = none ∧ j = i ∧ ∀ text, ¬ i.Faces (.string text)) ∨
      ∃ text t, t.lexeme = .string text ∧ next i = some (t, j) ∧
      found = some (StringLiteral.ofToken text i.front) := by
  obtain ⟨l, i', hpeek, hrest⟩ := bind_eq_some_iff.mp h
  obtain ⟨hfaces, rfl⟩ : i.Faces l ∧ i' = i := by
    cases hpeek
    exact ⟨rfl, rfl⟩
  cases l with
  | string text =>
    obtain ⟨start, i'', hstart, hrest⟩ := bind_eq_some_iff.mp hrest
    cases hstart
    obtain ⟨t, i'', hnext, hrest⟩ := bind_eq_some_iff.mp hrest
    cases hrest
    exact .inr ⟨text, t, Input.lexeme_of_faces hfaces hnext, hnext, rfl⟩
  | _ =>
    cases hrest
    refine .inl ⟨rfl, rfl, fun text hstring => ?_⟩
    cases hfaces.symm.trans hstring

/-- A string token takes with it the expressions inside the string. -/
theorem span_of_string (hg : FieldPlaced g.field) {i j : Input} {t : Token} {text : List Char}
    (h : Span fin lo begun nodes i) (ht : t.lexeme = .string text) (hnext : next i = some (t, j))
    {parts : List Node}
    (hparts : (StringLiteral.ofToken text i.front).parts? g.field = some parts) :
    Span fin lo true (nodes ++ parts) j := by
  have hlayout : t.lexeme.isLayout = false := by rw [ht]; rfl
  have hlast := (Input.last_of_next hnext).1
  obtain ⟨hfront, hsound⟩ := h.ready.sound_of_next hnext
  obtain ⟨hstart, hstop⟩ := StringLiteral.bounds_ofToken text i.front
  rw [hlayout, if_neg Bool.false_ne_true, hsound.stop_eq, ht, ← hfront] at hlast
  have hspread := (StringLiteral.spread_of_parts? hg hparts).mono hstart (hstop.trans_eq hlast.symm)
  exact h.append { ((Span.fresh h.ready).of_next hnext hlayout).1 with spread := hspread }

/-- The expressions inside of the strings read so far are spread, if they can be read. -/
def Pieces (fin lo : Place) (field : Place → List Char → Option Node) (begun : Bool)
    (pieces : List StringLiteral)
    (i : Input) : Prop :=
  ∀ parts, pieces.mapM (·.parts? field) = some parts → Span fin lo begun parts.flatten i

theorem Pieces.concat (hg : FieldPlaced g.field) {pieces : List StringLiteral}
    {i j : Input} {t : Token}
    {text : List Char} (h : Pieces fin lo g.field begun pieces i) (ht : t.lexeme = .string text)
    (hnext : next i = some (t, j)) :
    Pieces fin lo g.field true (pieces ++ [StringLiteral.ofToken text i.front]) j := by
  intro parts hparts
  rw [List.mapM_append] at hparts
  obtain ⟨before, hbefore, hparts⟩ := Option.bind_eq_some_iff.mp hparts
  obtain ⟨last, hlast, hparts⟩ := Option.bind_eq_some_iff.mp hparts
  rw [List.mapM_cons, List.mapM_nil] at hlast
  obtain ⟨inside, hinside, hlast⟩ := Option.bind_eq_some_iff.mp hlast
  cases hparts
  cases hlast
  rw [List.flatten_append, List.flatten_singleton]
  exact span_of_string hg (h before hbefore) ht hnext hinside

/-- Strings one after the other, of which there is at least one. -/
theorem runs_pieces (hg : FieldPlaced g.field) {text : List Char} :
    Runs (fun i => Span fin lo false [] i ∧ i.Faces (.string text)) (repeated stringToken)
      (Pieces fin lo g.field true) := by
  have hstep (done : List StringLiteral) : Runs (Pieces fin lo g.field true done) stringToken
      fun found => Pieces fin lo g.field true (done ++ found.toList) := by
    intro i found j hdone hread
    rcases of_stringToken hread with ⟨rfl, rfl, -⟩ | ⟨text, t, ht, hnext, rfl⟩
    · rwa [Option.toList_none, List.append_nil]
    · exact hdone.concat hg ht hnext
  rintro i pieces j ⟨hspan, hfaces⟩ hread
  obtain ⟨n, hn⟩ := Nat.exists_eq_succ_of_ne_zero hspan.ready.bound_pos.ne'
  rw [repeated, hn, takeItems] at hread
  obtain ⟨found, i', hfirst, hread⟩ := bind_eq_some_iff.mp hread
  rcases of_stringToken hfirst with ⟨-, -, hnot⟩ | ⟨text, t, ht, hnext, rfl⟩
  · exact absurd hfaces (hnot text)
  obtain ⟨items, j', hitems, hread⟩ := bind_eq_some_iff.mp hread
  cases hread
  have hnone : Pieces fin lo g.field false [] i := by
    rintro parts ⟨⟩
    exact hspan
  exact Runs.takeItems hstep n [_] i' items j (hnone.concat hg ht hnext) hitems

theorem of_mapM_lift {α β : Type} {f : α → Option β} {items : List α} {i j : Input} {found : List β}
    (h : (items.mapM fun a => (liftM (f a) : Parser β)) i = some (found, j)) :
    j = i ∧ items.mapM f = some found := by
  induction items generalizing found with
  | nil =>
    cases h
    exact ⟨rfl, rfl⟩
  | cons a items ih =>
    rw [List.mapM_cons] at h ⊢
    obtain ⟨b, i', hfirst, h⟩ := bind_eq_some_iff.mp h
    obtain ⟨more, i'', hmore, h⟩ := bind_eq_some_iff.mp h
    cases h
    cases hb : f a with
    | none =>
      rw [hb] at hfirst
      cases hfirst
    | some b' =>
      rw [hb] at hfirst
      cases hfirst
      obtain ⟨rfl, hitems⟩ := ih hmore
      exact ⟨rfl, by rw [hitems]; rfl⟩

theorem runs_strings (hg : FieldPlaced g.field) {text : List Char} :
    Runs (fun i => Span fin lo false [] i ∧ i.Faces (.string text)) (strings g)
      fun a j => Span fin lo true [a.node] j ∧ a.node.Snug := by
  have hparts (start : Place) (pieces : List StringLiteral) :
      Runs (Pieces fin start g.field true pieces)
      (pieces.mapM fun piece => (liftM (piece.parts? g.field) : Parser (List Node)))
      fun parts => Span fin start true parts.flatten := by
    intro k parts k' hpieces hread
    obtain ⟨rfl, hparts⟩ := of_mapM_lift hread
    exact hpieces parts hparts
  exact .here fun start => .bind (runs_pieces hg) fun pieces => .guard fun _ =>
    .bind (hparts start pieces) fun parts =>
    .bind (runs_otherFrom (.refl _)) fun node => .pure fun k hk => hk

end Parser

end CallAtlas.Source
