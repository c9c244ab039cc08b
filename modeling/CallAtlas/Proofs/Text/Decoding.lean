import CallAtlas.Json.Reader
import CallAtlas.Text.Html
import CallAtlas.Text.Percent
import Mathlib

/-!
# Reading encoded text

Readers for the texts that `htmlEscaped` and `percentEncoded` write. They read any text: references
to characters by name or by number in HTML, and in links percent signs with two hexadecimal digits,
whether or not a text had to be encoded so.

- `htmlUnescaped_htmlEscaped`: a text is read back from its HTML.
- `percentDecoded?_percentEncoded`: a text is read back from its encoded form, byte by byte and then
  as UTF-8.
- `isLinkChar_of_mem_percentEncoded`: what an encoded text is made of. Nothing that ends a part of a
  link or has a meaning in HTML is among it.
-/

namespace CallAtlas.Text

/-! ## HTML -/

/-- The number that some digits stand for in a base. -/
def numeral? (base : Nat) (digits : List Char) : Option Nat :=
  if digits = [] then none
  else digits.foldlM (fun n c => (Json.hexDigit? c).bind fun d =>
    if d < base then some (base * n + d) else none) 0

/-- The character with a number; where there is none, the replacement character. -/
def charNumbered (n : Nat) : Char := if n.isValidChar then Char.ofNat n else '\ufffd'

/-- The character that a reference names, without the ampersand and the semicolon. -/
def reference? : List Char → Option Char
  | '#' :: 'x' :: digits => (numeral? 16 digits).map charNumbered
  | '#' :: digits => (numeral? 10 digits).map charNumbered
  | name =>
    [("amp", '&'), ("lt", '<'), ("gt", '>'), ("quot", '"'), ("apos", '\x27')].lookup
      (String.ofList name)

/-- Reads HTML. After an ampersand, `name?` is what has been read of a reference; one that names
nothing stays as it is. -/
def readHtml (name? : Option (List Char)) : List Char → List Char
  | [] => (name?.map ('&' :: ·)).getD []
  | c :: rest =>
    match name? with
    | none => if c = '&' then readHtml (some []) rest else c :: readHtml none rest
    | some name =>
      if c = ';' then
        match reference? name with
        | some named => named :: readHtml none rest
        | none => '&' :: name ++ ';' :: readHtml none rest
      else if c = '&' then '&' :: name ++ readHtml (some []) rest
      else readHtml (some (name ++ [c])) rest

/-- The text that HTML shows. -/
def htmlUnescaped (html : String) : String := String.ofList (readHtml none html.toList)

theorem readHtml_htmlChar (c : Char) (rest : List Char) :
    readHtml none (htmlChar c ++ rest) = c :: readHtml none rest := by
  unfold htmlChar
  split
  any_goals rfl
  next hamp _ _ _ _ =>
    have hne : c ≠ '&' := hamp
    rw [List.singleton_append, readHtml, if_neg hne]

/-- **A text is read back from its HTML.** -/
theorem htmlUnescaped_htmlEscaped (text : String) : htmlUnescaped (htmlEscaped text) = text := by
  have hread (chars : List Char) : readHtml none (chars.flatMap htmlChar) = chars := by
    induction chars with
    | nil => rfl
    | cons c chars ih => rw [List.flatMap_cons, readHtml_htmlChar, ih]
  rw [htmlUnescaped, htmlEscaped, String.toList_ofList, hread, String.ofList_toList]

/-- No tag opens and no quotes close in the HTML of a text. -/
theorem not_mem_htmlEscaped {c : Char} (h : c = '<' ∨ c = '"') (text : String) :
    c ∉ (htmlEscaped text).toList := by
  have hchar (d : Char) : c ∉ htmlChar d := by
    unfold htmlChar
    split
    any_goals rcases h with rfl | rfl <;> decide
    next _ hlt _ hquote _ =>
      intro hc
      cases List.mem_singleton.mp hc
      exact h.elim hlt hquote
  rw [htmlEscaped, String.toList_ofList, List.mem_flatMap]
  rintro ⟨d, -, hc⟩
  exact hchar d hc

/-! ## Links -/

/-- The bytes of a text in a link; a percent sign without two digits stands for itself. -/
def percentBytes : List Char → List UInt8
  | '%' :: a :: b :: rest =>
    match Json.hexDigit? a, Json.hexDigit? b with
    | some x, some y => UInt8.ofNat (16 * x + y) :: percentBytes rest
    | _, _ => String.utf8EncodeChar '%' ++ percentBytes (a :: b :: rest)
  | c :: rest => String.utf8EncodeChar c ++ percentBytes rest
  | [] => []

/-- The text that stands in a link, if its bytes are UTF-8. -/
def percentDecoded? (text : List Char) : Option String :=
  String.fromUTF8? (percentBytes text).toByteArray

theorem percentBytes_cons {c : Char} (h : c ≠ '%') (rest : List Char) :
    percentBytes (c :: rest) = String.utf8EncodeChar c ++ percentBytes rest := by
  rw [percentBytes]
  exact fun _ _ _ heq => absurd heq h

theorem hexDigit?_upperHexDigit {n : Nat} (h : n < 16) :
    Json.hexDigit? (upperHexDigit n) = some n := by
  have hall : ∀ n < 16, Json.hexDigit? (upperHexDigit n) = some n := by decide
  exact hall n h

theorem isPlainInLink_upperHexDigit {n : Nat} (h : n < 16) :
    isPlainInLink (upperHexDigit n) = true := by
  have hall : ∀ n < 16, isPlainInLink (upperHexDigit n) = true := by decide
  exact hall n h

theorem percentBytes_percentByte (b : UInt8) (rest : List Char) :
    percentBytes (percentByte b ++ rest) = b :: percentBytes rest := by
  have hlt : b.toNat < 256 := b.toNat_lt
  have hhigh := hexDigit?_upperHexDigit (show b.toNat / 16 < 16 by omega)
  have hlow := hexDigit?_upperHexDigit (show b.toNat % 16 < 16 by omega)
  have hsum : 16 * (b.toNat / 16) + b.toNat % 16 = b.toNat := by omega
  rw [percentByte, List.cons_append, List.cons_append, List.cons_append, List.nil_append,
    percentBytes, hhigh, hlow]
  simp only [hsum, UInt8.ofNat_toNat]

theorem percentBytes_percentChar (c : Char) (rest : List Char) :
    percentBytes (percentChar c ++ rest) = String.utf8EncodeChar c ++ percentBytes rest := by
  unfold percentChar
  split
  next hplain =>
    have hne : c ≠ '%' := by
      rintro rfl
      cases hplain
    rw [List.singleton_append, percentBytes_cons hne]
  next =>
    induction String.utf8EncodeChar c with
    | nil => rfl
    | cons b bytes ih =>
      rw [List.flatMap_cons, List.append_assoc, percentBytes_percentByte, ih, List.cons_append]

/-- **A text is read back from its encoded form.** -/
theorem percentDecoded?_percentEncoded (text : String) :
    percentDecoded? (percentEncoded text).toList = some text := by
  have hread (chars : List Char) :
      percentBytes (chars.flatMap percentChar) = chars.flatMap String.utf8EncodeChar := by
    induction chars with
    | nil => rfl
    | cons c chars ih => rw [List.flatMap_cons, percentBytes_percentChar, ih, List.flatMap_cons]
  have hbytes : (text.toList.flatMap String.utf8EncodeChar).toByteArray = text.toByteArray := by
    rw [← String.toByteArray_ofList.trans (List.utf8Encode.eq_1 _), String.ofList_toList]
  rw [percentDecoded?, percentEncoded, String.toList_ofList, hread, hbytes, String.fromUTF8?,
    dif_pos text.isValidUTF8]
  rfl

/-- What an encoded text is made of. -/
def isLinkChar (c : Char) : Bool := isPlainInLink c || c == '%'

theorem isLinkChar_of_mem_percentEncoded {text : String} {c : Char}
    (h : c ∈ (percentEncoded text).toList) :
    isLinkChar c = true := by
  rw [percentEncoded, String.toList_ofList] at h
  obtain ⟨d, -, h⟩ := List.mem_flatMap.mp h
  unfold percentChar at h
  split at h
  next hplain =>
    rw [List.mem_singleton.mp h, isLinkChar, hplain, Bool.true_or]
  next =>
    obtain ⟨b, -, h⟩ := List.mem_flatMap.mp h
    have hlt : b.toNat < 256 := b.toNat_lt
    have hdigit {n : Nat} (hn : n < 16) : isLinkChar (upperHexDigit n) = true := by
      rw [isLinkChar, isPlainInLink_upperHexDigit hn, Bool.true_or]
    rw [percentByte, List.mem_cons, List.mem_cons, List.mem_singleton] at h
    rcases h with rfl | rfl | rfl
    · rfl
    · exact hdigit (by omega)
    · exact hdigit (by omega)

/-- A character that is not among those of an encoded text is in none. -/
theorem not_mem_percentEncoded {c : Char} (h : isLinkChar c = false) (text : String) :
    c ∉ (percentEncoded text).toList := fun hc => by
  rw [isLinkChar_of_mem_percentEncoded hc] at h
  cases h

end CallAtlas.Text
