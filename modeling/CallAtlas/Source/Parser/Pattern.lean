import CallAtlas.Source.Parser.Expression

/-!
# Patterns of `case` clauses

A pattern is read into a node whose parts are the expressions inside it: literals, dotted names and
classes. Captured names are no expressions and leave no node.
-/

namespace CallAtlas.Source.Parser

/-- Whether a word is the wildcard. -/
def isWildcard (l : Lexeme) : Bool := l == .word "_".toList

/-- A name that a pattern binds, which is not the wildcard and has no suffix. -/
def capture : Parser Unit := do
  guard !(isWildcard (← peek))
  let _ ← name
  guard !((← isSign ".") || (← isSign "(") || (← isSign "="))

/-- A dotted name, as a node. -/
def dottedNode : Parser Node := do
  let start ← here
  let first ← nameOperand
  let more ← repeated do
    if ← optSign "." then
      let id ← name
      return some (id, ← extentFrom start)
    else return none
  return more.foldl (fun receiver (id, extent) => .member receiver id extent) first.node

/-- Whether a number literal is imaginary. -/
def isImaginary (text : List Char) : Bool :=
  text.getLast? == some 'j' || text.getLast? == some 'J'

/-- A number, possibly negated; the flag says whether it is imaginary. -/
def signedNumber : Parser (List Node × Bool) := do
  let start ← here
  let negative ← optSign "-"
  match ← peek with
  | .number text =>
    let value ← number
    let node ← if negative then otherFrom start [value.node] else pure value.node
    return ([node], isImaginary text)
  | _ => failure

/-- A number, or a real number with an imaginary one added. -/
def complexNumber : Parser Node := do
  let start ← here
  let (real, imaginary) ← signedNumber
  if ← optSignOf ["+", "-"] then
    guard !imaginary
    match ← peek with
    | .number text =>
      guard (isImaginary text)
      let value ← number
      otherFrom start (real ++ [value.node])
    | _ => failure
  else otherFrom start real

/-- Whether a literal starts with a token. -/
def startsLiteral (l : Lexeme) : Bool :=
  match l with
  | .number _ | .string _ => true
  | .sign cs => cs == "-".toList
  | .word cs => ["None", "True", "False"].any (·.toList == cs)
  | _ => false

/-- A literal. -/
def literal (g : Grammar) : Parser Node := do
  match ← peek with
  | .string _ => return (← strings g).node
  | .word _ =>
    let start ← here
    let _ ← next
    otherFrom start []
  | _ => complexNumber

section Patterns

variable (g : Grammar)

/-- A pattern in a sequence, possibly a star with the name for the rest. -/
def starPattern : Parser (Node × Bool) := do
  let start ← here
  if ← optSign "*" then
    if isWildcard (← peek) then
      let _ ← next
    else capture
    return (← otherFrom start [], true)
  else return (← g.pattern, false)

/-- Whether a pattern can start with a token. -/
def startsPattern (l : Lexeme) : Bool :=
  startsLiteral l || isName l ||
    (match l with
    | .sign cs => ["(", "[", "\x7b", "*"].any (·.toList == cs)
    | _ => false)

/-- Patterns up to a closing sign; without a comma a single one stands for itself and is not
starred. -/
def sequencePattern (closing : String) (grouping : Bool) : Parser Node := do
  let start ← here
  if ← optSign closing then otherFrom start []
  else
    let (first, starred) ← starPattern g
    let (more, comma) ← afterCommas startsPattern (starPattern g)
    sign closing
    guard (comma || !grouping || !starred)
    otherFrom start (first :: more.map Prod.fst)

/-- An entry of a mapping pattern: a key with the pattern of its value, or a double star with the
name for the rest, which has neither. -/
def mappingEntry : Parser (List Node × List Node × Bool) := do
  if ← optSign "**" then
    capture
    return ([], [], true)
  else
    let key ←
      if startsLiteral (← peek) then literal g
      else
        let node ← dottedNode
        guard node.isMember
        pure node
    sign ":"
    let value ← g.pattern
    return ([key], [value], false)

/-- Whether an entry of a mapping pattern can start with a token. -/
def startsMappingEntry (l : Lexeme) : Bool :=
  startsLiteral l || isName l || l == .sign "**".toList

/-- A mapping pattern after its opening brace: all keys are visited before all values, and the rest
comes last. -/
def mappingPattern (start : Place) : Parser Node := do
  if ← optSign "\x7d" then otherFrom start []
  else
    let entries ← commaList startsMappingEntry (mappingEntry g)
    sign "\x7d"
    guard (entries.dropLast.all (!·.2.2))
    otherFrom start (entries.flatMap Prod.fst ++ entries.flatMap (·.2.1))

/-- An argument of a class pattern; the flag says whether it has a keyword. -/
def classArgument : Parser (Node × Bool) := do
  if isName (← peek) && (← peekSecond) == .sign "=".toList then
    let _ ← name
    sign "="
    return (← g.pattern, true)
  else return (← g.pattern, false)

/-- A class pattern after its opening parenthesis; arguments with a keyword come after all
others. -/
def classPattern (start : Place) (cls : Node) : Parser Node := do
  if ← optSign ")" then otherFrom start [cls]
  else
    let inner ← commaList startsPattern (classArgument g)
    sign ")"
    guard ((inner.dropWhile (!·.2)).all Prod.snd)
    otherFrom start (cls :: inner.map Prod.fst)

/-- A pattern without alternatives. -/
def closedPattern : Parser Node := do
  let start ← here
  if startsLiteral (← peek) then literal g
  else if ← optSign "(" then sequencePattern g ")" true
  else if ← optSign "[" then sequencePattern g "]" false
  else if ← optSign "\x7b" then mappingPattern g start
  else
    let node ← dottedNode
    if ← optSign "(" then classPattern g start node
    else
      guard !(← isSign "=")
      if node.isMember then return node else otherFrom start []

/-- Alternatives, possibly with a name for what they match. -/
def pattern : Parser Node := do
  let start ← here
  let first ← closedPattern g
  let more ← repeated do
    if ← optSign "|" then return some (← closedPattern g) else return none
  if ← optWord "as" then
    capture
    otherFrom start (first :: more)
  else otherFrom start (first :: more)

/-- What stands after `case`: a pattern, or several without brackets. -/
def openPattern : Parser Node := do
  let start ← here
  let (first, starred) ← starPattern g
  let (more, comma) ← afterCommas startsPattern (starPattern g)
  guard (comma || !starred)
  otherFrom start (first :: more.map Prod.fst)

end Patterns

end CallAtlas.Source.Parser
