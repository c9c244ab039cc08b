import CallAtlas.Proofs.Json.Written
import CallAtlas.View.Page
import Mathlib.Data.List.Infix

/-!
# Texts in the script of a page

A page carries its graphs as literals in a script, which would end at the first closing tag.
`guardTags` separates the two characters that start such a tag by a backslash, in a text that is
escaped already. That it never takes part of an escape for a tag is seen on the pieces of the
literal (`guardTags_pieces`): an escape has no `<`, so the `<` of a tag is a piece of its own and so
is the `/` behind it, for which `\/` is another piece.

- `Page.closings_guardTags`: no tag is left, and none is made.
- `Page.closings_graphWith`: the tags of a page are those of its lines, whatever sealed texts stand
  in them.
- `Page.graph_faithful`: the tags of a page are those of its template, and each literal is read as
  its text.
-/

namespace CallAtlas.Page

open Json (Written literalChar written_literalChar IsAsciiPrintable closingQuote?)

/-! ## Closing tags -/

/-- The number of places in a text where a closing tag starts. -/
def closings (text : List Char) : Nat := text.tails.countP (['<', '/'].isPrefixOf ·)

theorem closings_cons (c : Char) (rest : List Char) :
    closings (c :: rest) = closings rest + if c = '<' ∧ rest.head? = some '/' then 1 else 0 := by
  cases rest with
  | nil => simp [closings, List.isPrefixOf]
  | cons d rest =>
    have hstarts :
        ['<', '/'].isPrefixOf (c :: d :: rest) = decide (c = '<' ∧ some d = some '/') := by
      simp [List.isPrefixOf, Bool.decide_and, beq_eq_decide, eq_comm]
    rw [closings, List.tails, List.countP_cons, hstarts]
    simp [closings]

/-- No tag is made where a text ends in another character or the next one starts with another. -/
theorem closings_append {a b : List Char} (h : a.getLast? ≠ some '<' ∨ b.head? ≠ some '/') :
    closings (a ++ b) = closings a + closings b := by
  induction a with
  | nil => rw [List.nil_append]; exact (Nat.zero_add _).symm
  | cons c a ih =>
    rw [List.cons_append, closings_cons, closings_cons]
    cases a with
    | nil =>
      have hno : ¬ (c = '<' ∧ b.head? = some '/') := by
        rintro ⟨rfl, hb⟩
        rcases h with h | h
        · exact h rfl
        · exact h hb
      rw [List.nil_append, if_neg hno, if_neg (by simp)]
      exact (Nat.zero_add _).symm
    | cons d a =>
      rw [ih (by rwa [List.getLast?_cons_cons] at h), List.cons_append, List.head?_cons,
        List.head?_cons]
      omega

/-! ## Guarded tags -/

theorem guardTags_cons {c : Char} {rest : List Char} (h : c = '<' → rest.head? ≠ some '/') :
    guardTags (c :: rest) = c :: guardTags rest := by
  rw [guardTags]
  rintro more rfl rfl
  exact h rfl rfl

theorem head?_guardTags (cs : List Char) : (guardTags cs).head? = cs.head? := by
  fun_cases guardTags cs with
  | case1 rest => rfl
  | case2 c rest _ => rfl
  | case3 => rfl

/-- No tag is left and none is made. -/
theorem closings_guardTags (cs : List Char) : closings (guardTags cs) = 0 := by
  fun_induction guardTags cs with
  | case1 rest ih =>
    rw [closings_cons, closings_cons, closings_cons, ih]
    simp
  | case2 c rest hopen ih =>
    have hno : ¬ (c = '<' ∧ (guardTags rest).head? = some '/') := by
      rintro ⟨rfl, hslash⟩
      rw [head?_guardTags] at hslash
      obtain ⟨more, rfl⟩ := List.head?_eq_some_iff.mp hslash
      exact hopen more rfl rfl
    rw [closings_cons, ih, if_neg hno]
  | case3 => rfl

/-! ## The pieces of a literal -/

/-- The pieces of a literal in a script: those of any literal, but for the slash of a closing
tag. -/
def scriptPieces : List Char → List (List Char)
  | '<' :: '/' :: rest => ['<'] :: ['\\', '/'] :: scriptPieces rest
  | c :: rest => literalChar true c :: scriptPieces rest
  | [] => []

theorem written_scriptPieces (cs : List Char) : List.Forall₂ Written cs (scriptPieces cs) := by
  fun_induction scriptPieces cs with
  | case1 rest ih => exact .cons (written_literalChar '<') (.cons (.escape rfl) ih)
  | case2 c rest _ ih => exact .cons (written_literalChar c) ih
  | case3 => exact .nil

variable {c : Char} {piece : List Char}

/-- The first character of a tag stands in its own piece only. -/
theorem eq_of_mem_written (h : Written c piece) (hmem : '<' ∈ piece) : c = '<' := by
  have hdigits {digits : List Char} {n : Nat} (h : Json.unit? digits = some (n, [])) :
      '<' ∉ digits := fun hmem =>
    Json.ne_of_hexDigit? ((Json.unit?_eq_some h).2 _ hmem)
      (show Json.hexDigit? '<' = none from rfl) rfl
  cases h with
  | plain => exact (List.mem_singleton.mp hmem).symm
  | escape h =>
    rcases List.mem_pair.mp hmem with hmem | rfl
    · cases hmem
    · cases h
  | unit _ h => simp [hdigits h] at hmem
  | pair _ _ _ h h' => simp [hdigits h, hdigits h'] at hmem

/-- A slash starts its own piece only. -/
theorem eq_of_head?_written (h : Written c piece) {rest : List Char}
    (hhead : (piece ++ rest).head? = some '/') :
    c = '/' := by
  cases h with
  | plain => exact Option.some.inj hhead
  | escape => cases hhead
  | unit => cases hhead
  | pair => cases hhead

theorem guardTags_append {a : List Char} (h : '<' ∉ a) (b : List Char) :
    guardTags (a ++ b) = a ++ guardTags b := by
  induction a with
  | nil => rfl
  | cons c a ih =>
    obtain ⟨hc, ha⟩ := List.ne_and_not_mem_of_not_mem_cons h
    rw [List.cons_append, guardTags_cons fun heq => absurd heq.symm hc, ih ha, List.cons_append]

/-- **Guarding a literal replaces pieces by pieces.** -/
theorem guardTags_pieces (cs : List Char) :
    guardTags (cs.flatMap (literalChar true) ++ ['"']) = (scriptPieces cs).flatten ++ ['"'] := by
  fun_induction scriptPieces cs with
  | case1 rest ih =>
    have hless : literalChar true '<' = ['<'] := rfl
    have hslash : literalChar true '/' = ['/'] := rfl
    rw [List.flatMap_cons, List.flatMap_cons, hless, hslash, List.singleton_append,
      List.singleton_append, List.cons_append, List.cons_append, guardTags, ih]
    rfl
  | case2 c rest hopen ih =>
    rw [List.flatMap_cons, List.append_assoc, List.flatten_cons, List.append_assoc, ← ih]
    by_cases hc : c = '<'
    · subst hc
      -- what follows starts with a slash only if the next character is one
      have hnext : (rest.flatMap (literalChar true) ++ ['"']).head? ≠ some '/' := by
        cases rest with
        | nil => decide
        | cons d rest =>
          intro hhead
          rw [List.flatMap_cons, List.append_assoc] at hhead
          exact hopen rest rfl
            (congrArg (· :: rest) (eq_of_head?_written (written_literalChar d) hhead))
      exact guardTags_cons fun _ => hnext
    · exact guardTags_append (fun hmem => hc (eq_of_mem_written (written_literalChar c) hmem)) _
  | case3 => rfl

theorem toList_scriptLiteral (text : String) :
    (scriptLiteral text).toList = '"' :: (scriptPieces text.toList).flatten ++ ['"'] := by
  rw [scriptLiteral, String.toList_ofList, Json.literal, String.toList_ofList, List.cons_append,
    guardTags_cons fun h => absurd h (by decide), guardTags_pieces, List.cons_append]

/-! ## Pages -/

/-- A text that makes no tag, not even with what stands around it. -/
structure Sealed (text : List Char) : Prop where
  closings_eq : closings text = 0
  ne_nil : text ≠ []
  head : text.head? ≠ some '/'
  last : text.getLast? ≠ some '<'

theorem sealed_scriptLiteral (text : String) : Sealed (scriptLiteral text).toList where
  closings_eq := by
    rw [scriptLiteral, String.toList_ofList]
    exact closings_guardTags _
  ne_nil := by
    rw [toList_scriptLiteral]
    exact List.cons_ne_nil _ _
  head := by
    rw [toList_scriptLiteral]
    exact fun h => by cases h
  last := by
    rw [toList_scriptLiteral, List.getLast?_concat]
    exact fun h => by cases h

theorem closings_between {text : String} (h : Sealed text.toList) (before after : String) :
    closings (before ++ text ++ after).toList = closings before.toList + closings after.toList := by
  have hlast : (before.toList ++ text.toList).getLast? ≠ some '<' := by
    rw [List.getLast?_append_of_ne_nil _ h.ne_nil]
    exact h.last
  rw [String.toList_append, String.toList_append, closings_append (.inl hlast),
    closings_append (.inr h.head), h.closings_eq, Nat.add_zero]

theorem toList_ofLines (lines : List String) :
    (ofLines lines).toList = lines.flatMap fun line => line.toList ++ ['\n'] := by
  unfold ofLines
  induction lines with
  | nil => rfl
  | cons line lines ih =>
    rw [List.map_cons, String.join_cons, String.toList_append, ih, List.flatMap_cons,
      String.toList_append]
    rfl

/-- The tags of a page are those of its lines. -/
theorem closings_ofLines_cons (line : String) (lines : List String) :
    closings (ofLines (line :: lines)).toList =
      closings line.toList + closings (ofLines lines).toList := by
  have hlast : (line.toList ++ ['\n']).getLast? ≠ some '<' := by simp
  rw [toList_ofLines, toList_ofLines, List.flatMap_cons, closings_append (.inl hlast),
    closings_append (.inr (by simp))]
  rfl

/-- **Sealed texts do not change the tags of a page.** -/
theorem closings_graphWith {browser download name browser' download' name' : String}
    (hbrowser : Sealed browser.toList) (hdownload : Sealed download.toList)
    (hname : Sealed name.toList)
    (hbrowser' : Sealed browser'.toList) (hdownload' : Sealed download'.toList)
    (hname' : Sealed name'.toList) :
    closings (graphWith browser download name).toList =
      closings (graphWith browser' download' name').toList := by
  unfold graphWith
  simp only [closings_ofLines_cons, closings_between hbrowser, closings_between hdownload,
    closings_between hname, closings_between hbrowser', closings_between hdownload',
    closings_between hname']

/-- The page that draws a graph, with the names of the texts in their places. -/
def graphTemplate : String := graphWith "$dot_browser" "$dot_download" "$download_name"

/-- **Texts are carried faithfully and stay within the script.** A page has as many closing tags as
its template, whatever its key and its graphs are. The literal of a text is made of pieces in
quotes, one for each character, in printable ASCII characters, with a pair of surrogates for each
character beyond U+FFFF; the quote behind the pieces is the first that ends it; and it is read as
the text. -/
theorem graph_faithful (key browser download text : String) :
    closings (graph key browser download).toList = closings graphTemplate.toList ∧
      ∃ pieces, (scriptLiteral text).toList = '"' :: pieces.flatten ++ ['"'] ∧
        List.Forall₂ Written text.toList pieces ∧
        (∀ c ∈ (scriptLiteral text).toList, IsAsciiPrintable c) ∧
        (∀ rest, closingQuote? (pieces.flatten ++ '"' :: rest) = some pieces.flatten.length) ∧
        ∀ room, Json.parse room (scriptLiteral text).toList = .ok (.string text) := by
  have hwritten := written_scriptPieces text.toList
  constructor
  · exact closings_graphWith (sealed_scriptLiteral _) (sealed_scriptLiteral _)
      (sealed_scriptLiteral _)
      ⟨by decide, by decide, by decide, by decide⟩ ⟨by decide, by decide, by decide, by decide⟩
      ⟨by decide, by decide, by decide, by decide⟩
  refine ⟨scriptPieces text.toList, toList_scriptLiteral text, hwritten, fun c hc => ?_,
    Json.closingQuote?_written hwritten, fun room => ?_⟩
  · rw [toList_scriptLiteral, List.mem_append, List.mem_cons, List.mem_singleton] at hc
    have hquote : IsAsciiPrintable '"' := by decide
    rcases hc with (rfl | hc) | rfl
    · exact hquote
    · exact Json.isAsciiPrintable_of_mem_flatten hwritten hc
    · exact hquote
  · rw [toList_scriptLiteral, Json.parse_written hwritten, String.ofList_toList]

end CallAtlas.Page
