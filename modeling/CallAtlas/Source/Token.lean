import CallAtlas.Text.Identifier

/-!
# Tokens of a source text

Python source is read as a list of tokens. Names and keywords are both `word`s, told apart by
`keywords`; literals keep their text as written; line ends and changes of indentation are tokens of
their own, because they carry the block structure.
-/

namespace CallAtlas.Source

/-- A place in a source text: the line counted from one and the column counted in bytes of UTF-8
from zero. Inside of strings within strings the column may be reported by some bytes too far
`back`. -/
structure Place where
  line : Nat
  column : Nat
  back : Nat := 0
  deriving Repr, DecidableEq, Inhabited

/-- The stretch of source between two places. -/
structure Extent where
  start : Place
  stop : Place
  deriving Repr, DecidableEq, Inhabited

namespace Place

/-- Where a text starts. -/
def origin : Place := { line := 1, column := 0 }

/-- The place just after a character. -/
def after (p : Place) (c : Char) : Place :=
  if c = '\n' then { line := p.line + 1, column := 0 }
  else { p with column := p.column + c.utf8Size }

/-- The column as it is reported. -/
def reported (p : Place) : Nat := p.column - p.back

end Place

/-- What a token is. -/
inductive Lexeme where
  | word (text : List Char)
  | number (text : List Char)
  | string (text : List Char)
  | sign (text : List Char)
  | lineEnd
  | indent
  | dedent
  | finish
  deriving Repr, DecidableEq, Inhabited

/-- A token with its extent. -/
structure Token where
  lexeme : Lexeme
  extent : Extent
  deriving Repr, DecidableEq, Inhabited

/-- The words that are never names. -/
def keywords : List (List Char) := [
  "False", "None", "True", "and", "as", "assert", "async", "await", "break", "class",
  "continue", "def", "del", "elif", "else", "except", "finally", "for", "from", "global", "if",
  "import", "in", "is", "lambda", "nonlocal", "not", "or", "pass", "raise", "return", "try",
  "while", "with", "yield"].map String.toList

/-- Signs of three characters. -/
def longSigns : List (List Char) :=
  ["...", "**=", "//=", ">>=", "<<="].map String.toList

/-- Signs of two characters. -/
def pairSigns : List (List Char) := [
  "!=", "%=", "&=", "**", "*=", "+=", "-=", "->", "//", "/=", ":=", "<<", "<=", "<>", "==", ">=",
  ">>", "@=", "^=", "|="].map String.toList

/-- Signs of one character. -/
def singleSigns : List Char :=
  "%&()*+,-./:;<=>@[]^\x7b|\x7d~".toList

namespace Lexeme

/-- Line ends, changes of indentation and the end of the text have no characters of their own. -/
def isLayout : Lexeme → Bool
  | .lineEnd | .indent | .dedent | .finish => true
  | .word _ | .number _ | .string _ | .sign _ => false

end Lexeme

end CallAtlas.Source
