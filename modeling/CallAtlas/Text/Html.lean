/-!
# Text in HTML

Characters that have a meaning in HTML are written as references, so that the text can stand in an
attribute or between tags.
-/

namespace CallAtlas.Text

/-- A character as HTML. -/
def htmlChar : Char → List Char
  | '&' => "&amp;".toList
  | '<' => "&lt;".toList
  | '>' => "&gt;".toList
  | '"' => "&quot;".toList
  | '\x27' => "&#x27;".toList
  | c => [c]

/-- A text as HTML. -/
def htmlEscaped (text : String) : String :=
  String.ofList (text.toList.flatMap htmlChar)

end CallAtlas.Text
