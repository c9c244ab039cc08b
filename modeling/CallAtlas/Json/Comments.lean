/-!
# JSON with comments

Settings files may hold comments: `//` up to the end of the line, and `/*` up to the next `*/`.
`stripComments` takes them out. Inside a string nothing starts a comment, and the line feed after a
line comment stays, so that the lines keep their numbers. A block comment that is never closed is
refused.
-/

namespace CallAtlas.Json

/-- What the text at some place belongs to. -/
inductive CommentScan where
  | plain
  | string
  | lineComment
  | blockComment
  deriving Repr, DecidableEq

/-- The text without its comments, where the scan starts in the given state. -/
def stripFrom : CommentScan → List Char → Option (List Char)
  | .plain, [] => some []
  | .plain, '"' :: rest => (stripFrom .string rest).map ('"' :: ·)
  | .plain, '/' :: '/' :: rest => stripFrom .lineComment rest
  | .plain, '/' :: '*' :: rest => stripFrom .blockComment rest
  | .plain, c :: rest => (stripFrom .plain rest).map (c :: ·)
  | .string, [] => some []
  | .string, '"' :: rest => (stripFrom .plain rest).map ('"' :: ·)
  | .string, '\\' :: c :: rest => (stripFrom .string rest).map ('\\' :: c :: ·)
  | .string, c :: rest => (stripFrom .string rest).map (c :: ·)
  | .lineComment, [] => some []
  | .lineComment, '\n' :: rest => (stripFrom .plain rest).map ('\n' :: ·)
  | .lineComment, _ :: rest => stripFrom .lineComment rest
  | .blockComment, [] => none
  | .blockComment, '*' :: '/' :: rest => stripFrom .plain rest
  | .blockComment, _ :: rest => stripFrom .blockComment rest

/-- The text without its comments, or nothing if a block comment is never closed. -/
def stripComments (text : List Char) : Option (List Char) := stripFrom .plain text

end CallAtlas.Json
