import CallAtlas.Source.Parser.Literal

/-!
# Expressions

One parser per level of the expression grammar, from atoms up to expression lists. Each takes the
grammar of what stands inside brackets, behind operators and in the branches of a conditional.

- `atom` and `primary`: literals, displays, comprehensions; members, calls and elements.
- `arguments`, `parameters`: what stands between the parentheses of a call and of a function or
  lambda.
- `comparison`, `disjunction`, `expression`: the operators by falling strength.
- `starExpressions`, `targets`: lists with commas, for values and for assignment.
-/

namespace CallAtlas.Source.Parser

/-! ## Lists of operands -/

/-- A tuple or list display of the given items. -/
def sequenceFrom (start : Place) (items : List Operand) : Parser Operand := do
  return {
    node := ← otherFrom start (items.map Operand.node)
    role := Role.ofItems (items.map Operand.role) }

/-- The operand behind a star. -/
def starredFrom (start : Place) (value : Operand) : Parser Operand := do
  return {
    node := ← otherFrom start [value.node]
    role := { target := value.role.target }
    starred := true }

/-- An operand that can no longer be assigned to. -/
def valueFrom (start : Place) (parts : List Node) : Parser Operand := do
  return { node := ← otherFrom start parts }

/-- Whether an assignment expression starts here: a name and the sign `:=`. -/
def startsAssignment : Parser Bool := do
  return isName (← peek) && (← peekSecond) == .sign ":=".toList

/-- A name, as an operand. -/
def nameOperand : Parser Operand := do
  let start ← here
  let id ← name
  return { node := .name id (← extentFrom start), role := .place }

/-- An expression, or an assignment expression. -/
def namedExpression (g : Grammar) : Parser Operand := do
  if ← startsAssignment then
    let start ← here
    let target ← nameOperand
    sign ":="
    let value ← g.expression
    valueFrom start [target.node, value.node]
  else g.expression

/-! ## Operators that bind tighter than comparisons, given atoms with their suffixes -/

/-- Operands joined by operators of one level, grouped from the left. -/
def leftChain (operand : Parser Operand) (operators : List String) : Parser Operand := do
  let start ← here
  let first ← operand
  let more ← repeated do
    if ← optSignOf operators then
      let right ← operand
      return some (right.node, ← extentFrom start)
    else return none
  match more with
  | [] => return first
  | _ =>
    return {
      node := more.foldl (fun left (right, extent) => .other [left, right] extent) first.node }

/-- Operands joined by a word, as one node. -/
def wordChain (operand : Parser Operand) (joint : String) : Parser Operand := do
  let start ← here
  let first ← operand
  let more ← repeated do
    if ← optWord joint then return some (← operand) else return none
  match more with
  | [] => return first
  | _ => valueFrom start (first.node :: more.map Operand.node)

section Operators

variable (g : Grammar)

/-- A primary, possibly awaited. -/
def awaited : Parser Operand := do
  let start ← here
  if ← optWord "await" then
    let value ← g.primary
    valueFrom start [value.node]
  else g.primary

/-- A power; the exponent is a factor. -/
def power : Parser Operand := do
  let start ← here
  let base ← awaited g
  if ← optSign "**" then
    let exponent ← g.factor
    valueFrom start [base.node, exponent.node]
  else return base

/-- A power with signs before it. -/
def factor : Parser Operand := do
  let start ← here
  if ← optSignOf ["+", "-", "~"] then
    let value ← g.factor
    valueFrom start [value.node]
  else power g

/-- The arithmetic and bitwise operators. -/
def bitwiseOr : Parser Operand :=
  let product := leftChain (factor g) ["*", "/", "//", "%", "@"]
  let sum := leftChain product ["+", "-"]
  let shift := leftChain sum ["<<", ">>"]
  let conjunction := leftChain shift ["&"]
  let difference := leftChain conjunction ["^"]
  leftChain difference ["|"]

/-- Takes a comparison operator, if there is one. -/
def optComparison : Parser Bool := do
  if ← optSignOf ["==", "!=", "<", "<=", ">", ">="] then return true
  else if ← optWord "in" then return true
  else if ← optWord "is" then
    let _ ← optWord "not"
    return true
  else if ← optWord "not" then
    word "in"
    return true
  else return false

/-- Comparisons, chained into one node. -/
def comparison : Parser Operand := do
  let start ← here
  let first ← bitwiseOr g
  let more ← repeated do
    if ← optComparison then return some (← bitwiseOr g) else return none
  match more with
  | [] => return first
  | _ => valueFrom start (first.node :: more.map Operand.node)

/-- A comparison, possibly negated. -/
def inversion : Parser Operand := do
  let start ← here
  if ← optWord "not" then
    let value ← g.inversion
    valueFrom start [value.node]
  else comparison g

/-- Comparisons joined by `and` and `or`. -/
def disjunction : Parser Operand :=
  wordChain (wordChain (inversion g) "and") "or"

/-- An expression, or a star with its operand. -/
def starExpression : Parser Operand := do
  let start ← here
  if ← optSign "*" then
    let value ← bitwiseOr g
    starredFrom start value
  else g.expression

/-- As `starExpression`, with assignment expressions. -/
def starNamedExpression : Parser Operand := do
  if ← isSign "*" then starExpression g else namedExpression g

/-- One expression, or a tuple of several without parentheses. -/
def starExpressions : Parser Operand := do
  let start ← here
  let first ← starExpression g
  let (more, comma) ← afterCommas startsExpression (starExpression g)
  if comma then sequenceFrom start (first :: more) else return first

/-- The value of a `yield`. -/
def yieldExpression : Parser Operand := do
  let start ← here
  word "yield"
  if ← optWord "from" then
    let value ← g.expression
    valueFrom start [value.node]
  else if startsExpression (← peek) then
    let value ← starExpressions g
    valueFrom start [value.node]
  else valueFrom start []

/-- One target of an assignment, possibly starred. -/
def target : Parser Operand := do
  let start ← here
  if ← optSign "*" then
    let value ← g.primary
    guard value.role.target
    starredFrom start value
  else
    let value ← g.primary
    guard value.role.target
    return value

/-- One target, or several without parentheses. -/
def targets : Parser Operand := do
  let start ← here
  let first ← target g
  let (more, comma) ← afterCommas startsExpression (target g)
  if comma then sequenceFrom start (first :: more) else return first

/-! ## Comprehensions, arguments, elements -/

/-- Whether the clauses of a comprehension start here. -/
def startsClauses : Parser Bool := do
  return (← isWord "for") || (← isWord "async")

/-- One `for` clause with its conditions. -/
def clause : Parser (Option Node) := do
  if ← startsClauses then
    let start ← here
    let _ ← optWord "async"
    word "for"
    let bound ← targets g
    word "in"
    let source ← disjunction g
    let conditions ← repeated do
      if ← optWord "if" then return some (← disjunction g).node else return none
    return some (← otherFrom start (bound.node :: source.node :: conditions))
  else return none

/-- The clauses of a comprehension, at least one. -/
def clauses : Parser (List Node) := do
  guard (← startsClauses)
  repeated (clause g)

/-- What has been seen of the arguments of a call: before any keyword, after one, after a double
star. -/
inductive ArgumentStage where
  | positional
  | keyword
  | doubled
  deriving DecidableEq

/-- An argument of a call. Those with a keyword or a double star are visited `late`, after all
others; a `plain` one is neither of these nor starred. -/
structure Argument where
  node : Node
  late : Bool
  plain : Bool
  stage : ArgumentStage

/-- One argument at a stage of the list. -/
def argument (stage : ArgumentStage) : Parser Argument := do
  let start ← here
  if ← optSign "**" then
    let value ← g.expression
    return ⟨← otherFrom start [value.node], true, false, .doubled⟩
  else if ← optSign "*" then
    guard (stage ≠ .doubled)
    let value ← g.expression
    return ⟨← otherFrom start [value.node], false, false, stage⟩
  else if isName (← peek) && (← peekSecond) == .sign "=".toList then
    let _ ← name
    sign "="
    let value ← g.expression
    return ⟨← otherFrom start [value.node], true, false,
      if stage = .doubled then .doubled else .keyword⟩
  else
    guard (stage = .positional)
    let value ← namedExpression g
    return ⟨value.node, false, true, stage⟩

/-- Arguments up to the closing parenthesis, at most `fuel` of them. -/
def argumentsFrom : Nat → ArgumentStage → Parser (List Argument)
  | 0, _ => failure
  | fuel + 1, stage => do
    if ← optSign ")" then return []
    else
      let first ← argument g stage
      if ← optSign "," then return first :: (← argumentsFrom fuel first.stage)
      else
        sign ")"
        return [first]

/-- What stands between the parentheses of a call or a class, after the opening one, in the order of
the walk. In a call (`alone` is then the place of the parenthesis) a comprehension needs no
parentheses of its own when it is the only argument. -/
def arguments (alone : Option Place) : Parser (List Node) := fun input =>
  let ordered (all : List Argument) : List Node :=
    let (late, early) := all.partition Argument.late
    (early ++ late).map Argument.node
  let fuel := input.bound
  let read : Parser (List Node) := do
    if ← optSign ")" then return []
    else
      let first ← argument g .positional
      match alone with
      | some start =>
        if first.plain && (← startsClauses) then
          let parts ← clauses g
          sign ")"
          return [← otherFrom start (first.node :: parts)]
        else if ← optSign "," then return ordered (first :: (← argumentsFrom g fuel first.stage))
        else
          sign ")"
          return [first.node]
      | none =>
        if ← optSign "," then return ordered (first :: (← argumentsFrom g fuel first.stage))
        else
          sign ")"
          return [first.node]
  read input

/-- One part of a subscript: a slice, a starred expression or an expression. -/
def subscriptItem : Parser Operand := do
  let start ← here
  let bound : Parser (List Node) := do
    if startsExpression (← peek) then return [(← g.expression).node] else return []
  let afterColon (lower : List Node) : Parser Operand := do
    let upper ← bound
    if ← optSign ":" then
      let step ← bound
      valueFrom start (lower ++ upper ++ step)
    else valueFrom start (lower ++ upper)
  if ← optSign "*" then
    let value ← g.expression
    starredFrom start value
  else if ← optSign ":" then afterColon []
  else if ← startsAssignment then namedExpression g
  else
    let value ← g.expression
    if ← optSign ":" then afterColon [value.node] else return value

/-- Whether a part of a subscript can start with a token. -/
def startsSubscript (l : Lexeme) : Bool :=
  startsExpression l || l == .sign ":".toList

/-- What stands between the brackets of a subscript. -/
def subscript : Parser Node := do
  let start ← here
  let first ← subscriptItem g
  let (more, comma) ← afterCommas startsSubscript (subscriptItem g)
  if comma || first.starred then otherFrom start ((first :: more).map Operand.node)
  else return first.node

/-! ## Parameters -/

/-- The parameters of a function or lambda as far as they are read. The lists hold the nodes in the
text's order, and the flags what may still follow. -/
structure Parameters where
  annotations : List Node := []
  restAnnotation : List Node := []
  keywordAnnotations : List Node := []
  keywordDefaults : List Node := []
  keywordRestAnnotation : List Node := []
  defaults : List Node := []
  count : Nat := 0
  slash : Bool := false
  star : Bool := false
  bareStar : Bool := false
  finished : Bool := false

namespace Parameters

/-- The nodes of the parameters in the order of the walk. -/
def nodes (p : Parameters) : List Node :=
  p.annotations ++ p.restAnnotation ++ p.keywordAnnotations ++ p.keywordDefaults ++
    p.keywordRestAnnotation ++
    p.defaults

end Parameters

/-- An annotation, where parameters can have one. A starred annotation is for the parameter that
takes the rest. -/
def annotation (annotated starAllowed : Bool) : Parser (List Node) := do
  if annotated then
    if ← optSign ":" then
      if starAllowed then return [(← starExpression g).node] else return [(← g.expression).node]
    else return []
  else return []

/-- One parameter, or one of the signs that divide them. -/
def parameter (annotated : Bool) (p : Parameters) : Parser Parameters := do
  guard !p.finished
  if ← optSign "/" then
    guard (!p.slash && !p.star && 0 < p.count)
    return { p with slash := true }
  else if ← optSign "**" then
    guard !p.bareStar
    let _ ← name
    return { p with keywordRestAnnotation := ← annotation g annotated false, finished := true }
  else if ← optSign "*" then
    guard !p.star
    if isName (← peek) then
      let _ ← name
      return { p with restAnnotation := ← annotation g annotated true, star := true }
    else return { p with star := true, bareStar := true }
  else
    let _ ← name
    let note ← annotation g annotated false
    let value ← if ← optSign "=" then pure [(← g.expression).node] else pure []
    if p.star then
      return { p with
        keywordAnnotations := p.keywordAnnotations ++ note
        keywordDefaults := p.keywordDefaults ++ value
        bareStar := false }
    else
      guard (p.defaults.isEmpty || !value.isEmpty)
      return { p with
        annotations := p.annotations ++ note
        defaults := p.defaults ++ value
        count := p.count + 1 }

/-- Parameters up to the closing sign, which is not taken, at most `fuel` of them. -/
def parametersFrom (annotated : Bool) (closing : String) : Nat → Parameters → Parser Parameters
  | 0, _ => failure
  | fuel + 1, p => do
    if ← isSign closing then
      guard !p.bareStar
      return p
    else
      let p ← parameter g annotated p
      if ← optSign "," then parametersFrom annotated closing fuel p
      else
        guard ((← isSign closing) && !p.bareStar)
        return p

/-- The nodes of the parameters up to the closing sign. -/
def parameters (annotated : Bool) (closing : String) : Parser (List Node) := fun input =>
  let read := do
    return (← parametersFrom g annotated closing input.bound {}).nodes
  read input

/-- A lambda. -/
def lambda : Parser Operand := do
  let start ← here
  word "lambda"
  let inner ← parameters g false ":"
  sign ":"
  let body ← g.expression
  valueFrom start (inner ++ [body.node])

/-- An expression: a lambda, a conditional or a disjunction. -/
def expression : Parser Operand := do
  if ← isWord "lambda" then lambda g
  else
    let start ← here
    let value ← disjunction g
    if ← optWord "if" then
      let condition ← disjunction g
      word "else"
      let otherwise ← g.expression
      valueFrom start [condition.node, value.node, otherwise.node]
    else return value

/-! ## Atoms -/

/-- What stands in parentheses: a tuple, a comprehension, or one expression with its own extent. -/
def parenthesised : Parser Operand := do
  let start ← here
  sign "("
  if ← optSign ")" then sequenceFrom start []
  else if ← isWord "yield" then
    let value ← yieldExpression g
    sign ")"
    return value
  else
    let first ← starNamedExpression g
    if ← startsClauses then
      guard !first.starred
      let parts ← clauses g
      sign ")"
      valueFrom start (first.node :: parts)
    else
      let (more, comma) ← afterCommas startsExpression (starNamedExpression g)
      sign ")"
      if comma then sequenceFrom start (first :: more)
      else
        guard !first.starred
        return first

/-- What stands in brackets: a list or a comprehension. -/
def bracketed : Parser Operand := do
  let start ← here
  sign "["
  if ← optSign "]" then sequenceFrom start []
  else
    let first ← starNamedExpression g
    if ← startsClauses then
      guard !first.starred
      let parts ← clauses g
      sign "]"
      valueFrom start (first.node :: parts)
    else
      let (more, _) ← afterCommas startsExpression (starNamedExpression g)
      sign "]"
      sequenceFrom start (first :: more)

/-- An entry of a dictionary: the nodes of its key, none for a double star, and its value. -/
def entry : Parser (List Node × Node) := do
  if ← optSign "**" then
    let value ← bitwiseOr g
    return ([], value.node)
  else
    let key ← g.expression
    sign ":"
    let value ← g.expression
    return ([key.node], value.node)

/-- Whether an entry of a dictionary can start with a token. -/
def startsEntry (l : Lexeme) : Bool :=
  (startsExpression l && l != .sign "*".toList) || l == .sign "**".toList

/-- The rest of a dictionary after its first entry: all keys are visited before all values. -/
def dictionaryRest (start : Place) (first : List Node × Node) : Parser Operand := do
  let (more, _) ← afterCommas startsEntry (entry g)
  sign "\x7d"
  let entries := first :: more
  valueFrom start (entries.flatMap Prod.fst ++ entries.map Prod.snd)

/-- The rest of a set after its first item. -/
def setRest (start : Place) (first : Operand) : Parser Operand := do
  if !first.starred && (← startsClauses) then
    let parts ← clauses g
    sign "\x7d"
    valueFrom start (first.node :: parts)
  else
    let (more, _) ← afterCommas startsExpression (starNamedExpression g)
    sign "\x7d"
    valueFrom start ((first :: more).map Operand.node)

/-- What stands in braces: a dictionary, a set or a comprehension. -/
def braced : Parser Operand := do
  let start ← here
  sign "\x7b"
  if ← optSign "\x7d" then valueFrom start []
  else if ← isSign "**" then dictionaryRest g start (← entry g)
  else if (← isSign "*") || (← startsAssignment) then setRest g start (← starNamedExpression g)
  else
    let first ← g.expression
    if ← optSign ":" then
      let value ← g.expression
      if ← startsClauses then
        let parts ← clauses g
        sign "\x7d"
        valueFrom start (first.node :: value.node :: parts)
      else dictionaryRest g start ([first.node], value.node)
    else setRest g start first

end Operators

/-- An atom. -/
def atom (g : Grammar) : Parser Operand := do
  match ← peek with
  | .word cs =>
    if !keywords.contains cs then nameOperand
    else
      guard (["True", "False", "None"].any (·.toList == cs))
      let start ← here
      let _ ← next
      valueFrom start []
  | .string _ => strings g
  | .number _ => number
  | .sign cs =>
    if cs = "(".toList then parenthesised g
    else if cs = "[".toList then bracketed g
    else if cs = "\x7b".toList then braced g
    else
      let start ← here
      sign "..."
      valueFrom start []
  | _ => failure

/-- One suffix of a primary that starts at `start`: a member, a call or an element. -/
def suffix (g : Grammar) (start : Place) (base : Operand) : Parser (Option Operand) := do
  let opened ← here
  if ← optSign "." then
    let id ← name
    return some { node := .member base.node id (← extentFrom start), role := .place }
  else if ← optSign "(" then
    let inner ← arguments g (some opened)
    return some { node := .call base.node inner (← extentFrom start) }
  else if ← optSign "[" then
    let index ← subscript g
    sign "]"
    return some { node := ← otherFrom start [base.node, index], role := .place }
  else return none

/-- The suffixes of a primary, at most `fuel` of them. -/
def suffixes (g : Grammar) (start : Place) : Nat → Operand → Parser Operand
  | 0, _ => failure
  | fuel + 1, base => do
    match ← suffix g start base with
    | none => return base
    | some longer => suffixes g start fuel longer

/-- An atom with members, calls and elements behind it. -/
def primary (g : Grammar) : Parser Operand := fun input =>
  let read := do
    let start ← here
    suffixes g start input.bound (← atom g)
  read input

end CallAtlas.Source.Parser
