import CallAtlas.Source.Lexer
import CallAtlas.Source.Tree

/-!
# Parsers over tokens

A parser takes tokens off the input or fails; a choice between two parsers starts the second where
the first started. The input also knows where the last token with characters of its own ended,
because that is where a node ends.

An `Operand` is an expression together with its `Role`: what it may be used for on the left of an
assignment. Roles are computed while the expression is read, so that a target needs no second
reading.

`Grammar` holds the parsers through which the grammar refers back to itself. A parser for a
construct takes the grammar of the constructs inside it; `grammar` ties the knot as often as the
nesting of the text asks for.
-/

namespace CallAtlas.Source

/-- Tokens to read, the end of the last token with characters of its own, and a bound on how often
anything is repeated. -/
structure Input where
  tokens : List Token
  last : Place := .origin
  bound : Nat := tokens.length + 1

/-- Reads a value off the input, or fails. -/
abbrev Parser := StateT Input Option

namespace Parser

variable {α : Type}

/-- Takes the next token. -/
def next : Parser Token := fun input =>
  match input.tokens with
  | [] => none
  | t :: tokens =>
    some (t, { input with tokens, last := if t.lexeme.isLayout then input.last else t.extent.stop })

/-- The next token's kind, without taking it. -/
def peek : Parser Lexeme := fun input =>
  some ((input.tokens.head?.map Token.lexeme).getD .finish, input)

/-- The kind of the token after the next. -/
def peekSecond : Parser Lexeme := fun input =>
  some (((input.tokens.drop 1).head?.map Token.lexeme).getD .finish, input)

/-- Where the next token starts. -/
def here : Parser Place := fun input =>
  some ((input.tokens.head?.map (·.extent.start)).getD input.last, input)

/-- The extent from a place to the end of what was read last. -/
def extentFrom (start : Place) : Parser Extent := fun input =>
  some (⟨start, input.last⟩, input)

/-- A node without a kind of its own, from a place to the end of what was read last. -/
def otherFrom (start : Place) (parts : List Node) : Parser Node := do
  return .other parts (← extentFrom start)

/-- Whether the next token is the given sign. -/
def isSign (text : String) : Parser Bool := do
  return (← peek) == .sign text.toList

/-- Whether the next token is the given word. -/
def isWord (text : String) : Parser Bool := do
  return (← peek) == .word text.toList

/-- Takes the next token if it is the given sign. -/
def optSign (text : String) : Parser Bool := do
  if ← isSign text then
    let _ ← next
    return true
  else return false

/-- Takes the next token if it is the given word. -/
def optWord (text : String) : Parser Bool := do
  if ← isWord text then
    let _ ← next
    return true
  else return false

/-- Takes the given sign. -/
def sign (text : String) : Parser Unit := do
  guard (← optSign text)

/-- Takes the given word. -/
def word (text : String) : Parser Unit := do
  guard (← optWord text)

/-- Takes a token without characters. -/
def layout (lexeme : Lexeme) : Parser Unit := do
  guard ((← next).lexeme = lexeme)

/-- Takes one of several signs, if there is one. -/
def optSignOf (texts : List String) : Parser Bool := do
  match ← peek with
  | .sign cs =>
    if texts.any (·.toList == cs) then
      let _ ← next
      return true
    else return false
  | _ => return false

/-- Whether a token is a name. -/
def isName : Lexeme → Bool
  | .word cs => !keywords.contains cs
  | _ => false

/-- Takes a name, in its plain form. -/
def name : Parser String := do
  match (← next).lexeme with
  | .word cs =>
    guard (!keywords.contains cs)
    return String.ofList (Text.Identifier.plainForm cs)
  | _ => failure

/-- Whether an expression, possibly starred, can start with a token. -/
def startsExpression : Lexeme → Bool
  | .word cs =>
    !keywords.contains cs ||
      ["True", "False", "None", "not", "lambda", "await"].any (·.toList == cs)
  | .number _ | .string _ => true
  | .sign cs => ["(", "[", "\x7b", "-", "+", "~", "...", "*"].any (·.toList == cs)
  | _ => false

/-- Takes items as long as `item` finds one, at most `fuel` of them. -/
def takeItems (item : Parser (Option α)) : Nat → Parser (List α)
  | 0 => return []
  | fuel + 1 => do
    match ← item with
    | none => return []
    | some a => return a :: (← takeItems item fuel)

/-- Takes items as long as `item` finds one; an item takes at least one token. -/
def repeated (item : Parser (Option α)) : Parser (List α) := fun input =>
  takeItems item input.bound input

/-- The items after a first one, each with a comma before it, as long as a token follows that can
start one. The flag says whether there was a comma, which may also stand alone at the end. -/
def afterCommas (starts : Lexeme → Bool) (item : Parser α) : Parser (List α × Bool) := do
  let comma ← isSign ","
  let items ← repeated do
    if ← isSign "," then
      if starts (← peekSecond) then
        let _ ← next
        return some (← item)
      else return none
    else return none
  let trailing ← optSign ","
  return (items, comma || trailing)

/-- One or more items separated by commas; a comma may stand at the end. -/
def commaList (starts : Lexeme → Bool) (item : Parser α) : Parser (List α) := do
  let first ← item
  return first :: (← afterCommas starts item).1

/-- One or more items separated by commas, with none at the end. -/
def strictCommaList (item : Parser α) : Parser (List α) := do
  let first ← item
  let more ← repeated do
    if ← optSign "," then return some (← item) else return none
  return first :: more

end Parser

/-- What an expression may be used for: `single` targets can also be annotated or updated in place,
`target`s can be assigned to, `erasable` ones can be deleted. -/
structure Role where
  single : Bool := false
  target : Bool := false
  erasable : Bool := false

namespace Role

/-- The role of names, members and elements. -/
def place : Role := ⟨true, true, true⟩

/-- The role of a tuple or list, from the roles of its items. -/
def ofItems (items : List Role) : Role :=
  { target := items.all Role.target, erasable := items.all Role.erasable }

end Role

/-- An expression that was read, with its role. -/
structure Operand where
  node : Node
  role : Role := {}
  starred : Bool := false

/-- The parsers through which the grammar refers to itself. -/
structure Grammar where
  /-- A full expression, a conditional or a lambda included. -/
  expression : Parser Operand
  /-- An operand of `and`: a negation or a comparison. -/
  inversion : Parser Operand
  /-- An operand of a product: a signed power. -/
  factor : Parser Operand
  /-- An atom with members, calls and elements behind it. -/
  primary : Parser Operand
  /-- The body of a compound statement. -/
  block : Parser (List Node)
  /-- A pattern of a `case`. -/
  pattern : Parser Node
  /-- The expression inside a replacement field, given with the place of its opening brace. -/
  field : Place → List Char → Option Node

namespace Grammar

/-- The grammar of nothing. -/
def empty : Grammar where
  expression := failure
  inversion := failure
  factor := failure
  primary := failure
  block := failure
  pattern := failure
  field := fun _ _ => none

end Grammar

end CallAtlas.Source
