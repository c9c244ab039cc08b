/-!
# Splitting and joining

`split` cuts a text at every occurrence of a character, and `joined` puts the pieces together again.
-/

namespace CallAtlas.Text

/-- The pieces of a text between the occurrences of a character; there is always at least one. -/
def split (separator : Char) : List Char → List (List Char)
  | [] => [[]]
  | c :: rest =>
    match split separator rest with
    | [] => [[c]]
    | piece :: pieces => if c = separator then [] :: piece :: pieces else (c :: piece) :: pieces

/-- The pieces of a text between the occurrences of a character, as texts. -/
def splitText (separator : Char) (text : String) : List String :=
  (split separator text.toList).map String.ofList

/-- Pieces with a character between them. -/
def joined (separator : Char) : List (List Char) → List Char
  | [] => []
  | [piece] => piece
  | piece :: next :: pieces => piece ++ separator :: joined separator (next :: pieces)

theorem split_ne_nil (separator : Char) (text : List Char) : split separator text ≠ [] := by
  induction text with
  | nil => simp [split]
  | cons c rest ih =>
    simp only [split]
    split
    · simp
    · split <;> simp

end CallAtlas.Text
