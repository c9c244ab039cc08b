import CallAtlas.Source.Parser.Statement
import CallAtlas.Text.Lines

/-!
# Parsing a module

`parseModule` reads a whole source text into a syntax tree, or says why it cannot: the text holds a
null character, or it is not a module of the language.
-/

namespace CallAtlas.Source

/-- Why a source text has no syntax tree. -/
inductive ParseError where
  | nullCharacter
  | invalidSyntax
  deriving Repr, DecidableEq

/-- The grammar with one more level of nesting than `g`. -/
def Grammar.level (g : Grammar) : Grammar where
  expression := Parser.expression g
  inversion := Parser.inversion g
  factor := Parser.factor g
  primary := Parser.primary g
  block := Parser.block g
  pattern := Parser.pattern g
  field place text := do
    let tokens ← tokensFrom? place ('(' :: text ++ [')'])
    let (value, _) ← Parser.starExpressions g
        { tokens := tokens.map (·.inField place), last := place }
    return value.node

/-- The grammar of texts whose constructs are nested at most `depth` deep. -/
def grammar (depth : Nat) : Grammar :=
  depth.repeat Grammar.level Grammar.empty

/-- The statements of a module. Between an expression and the bracket of an expression inside it
there are two levels, so twice the length of the text bounds the nesting. -/
def statements? (text : List Char) : Option (List Node) := do
  let tokens ← tokens? text
  let (body, input) ← Parser.statements (grammar (2 * text.length + 4)) { tokens }
  guard (input.tokens.map Token.lexeme = [.finish])
  return body

/-- The syntax tree of a module. -/
def parseModule (text : List Char) : Except ParseError Node :=
  if text.contains '\x00' then .error .nullCharacter
  else
    match statements? (Text.unifyLineEnds text) with
    | some body => .ok (.other body ⟨.origin, .origin⟩)
    | none => .error .invalidSyntax

end CallAtlas.Source
