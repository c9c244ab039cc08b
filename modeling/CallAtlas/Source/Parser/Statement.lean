import CallAtlas.Source.Parser.Pattern

/-!
# Statements

Simple statements stand on one line, compound statements carry blocks. The parts of a statement are
listed in the order of the walk; the branches of a conditional, the handlers of a `try` and the
cases of a `match` stand one after the other in the text and in the walk alike.
-/

namespace CallAtlas.Source.Parser

/-- A name with dots. -/
def dottedName : Parser (List String) := do
  let first ← name
  let more ← repeated do
    if ← optSign "." then return some (← name) else return none
  return first :: more

/-- The name behind `as`, if there is one. -/
def optAlias : Parser (Option String) := do
  if ← optWord "as" then return some (← name) else return none

/-- An `import` of modules: a module with a name of its own is bound to it, any other binds its
first part. -/
def importModules : Parser Node := do
  let start ← here
  word "import"
  let bindings ← strictCommaList do
    let parts ← dottedName
    match ← optAlias with
    | some bound => return (⟨bound, ".".intercalate parts⟩ : Binding)
    | none => return ⟨parts.headD "", parts.headD ""⟩
  return .imports bindings (← extentFrom start)

/-- An `import` of names from a module. -/
def importNames : Parser Node := do
  let start ← here
  word "from"
  let dots ← repeated do
    if ← optSignOf [".", "..."] then return some () else return none
  let source ← if ← isWord "import" then pure [] else dottedName
  guard !(dots.isEmpty && source.isEmpty)
  word "import"
  let binding (id : String) (bound : Option String) : Binding :=
    ⟨bound.getD id, ".".intercalate (source ++ [id])⟩
  let item : Parser Binding := do
    let id ← name
    return binding id (← optAlias)
  let bindings ←
    if ← optSign "*" then pure [binding "*" none]
    else if ← optSign "(" then do
      let inner ← commaList isName item
      sign ")"
      pure inner
    else strictCommaList item
  return .imports bindings (← extentFrom start)

section Statements

variable (g : Grammar)

/-- What may stand on the right of an assignment. -/
def assignedValue : Parser Operand := do
  if ← isWord "yield" then yieldExpression g else starExpressions g

/-- The signs that update a target in place. -/
def updateSigns : List String :=
  ["+=", "-=", "*=", "@=", "/=", "%=", "&=", "|=", "^=", "<<=", ">>=", "**=", "//="]

/-- The values after the first target of an assignment; all but the last are targets as well. -/
def assignedValues : Parser (List Operand) := do
  let values ← repeated do
    if ← optSign "=" then return some (← assignedValue g) else return none
  guard (values.dropLast.all (·.role.target))
  return values

/-- A statement that starts with an expression: an assignment in one of its forms, or the expression
alone. -/
def expressionStatement : Parser Node := do
  let start ← here
  let first ← assignedValue g
  if ← isSign "=" then
    guard first.role.target
    let values ← assignedValues g
    otherFrom start (first.node :: values.map Operand.node)
  else if ← optSign ":" then
    guard first.role.single
    let note ← g.expression
    let value ← if ← optSign "=" then pure [(← assignedValue g).node] else pure []
    otherFrom start (first.node :: note.node :: value)
  else if ← optSignOf updateSigns then
    guard first.role.single
    let value ← assignedValue g
    otherFrom start [first.node, value.node]
  else otherFrom start [first.node]

/-- A `del` statement. -/
def deletion : Parser Node := do
  let start ← here
  word "del"
  let items ← commaList startsExpression do
    let item ← g.primary
    guard item.role.erasable
    return item.node
  otherFrom start items

/-- A `raise` statement. -/
def raising : Parser Node := do
  let start ← here
  word "raise"
  if startsExpression (← peek) then
    let error ← g.expression
    if ← optWord "from" then
      let cause ← g.expression
      otherFrom start [error.node, cause.node]
    else otherFrom start [error.node]
  else otherFrom start []

/-- An `assert` statement. -/
def assertion : Parser Node := do
  let start ← here
  word "assert"
  let test ← g.expression
  if ← optSign "," then
    let message ← g.expression
    otherFrom start [test.node, message.node]
  else otherFrom start [test.node]

/-- A `return` statement. -/
def returning : Parser Node := do
  let start ← here
  word "return"
  if startsExpression (← peek) then otherFrom start [(← starExpressions g).node]
  else otherFrom start []

/-- A `global` or `nonlocal` statement. -/
def scopeStatement : Parser Node := do
  let start ← here
  let _ ← next
  let _ ← strictCommaList name
  otherFrom start []

/-- A statement of a single word. -/
def wordStatement : Parser Node := do
  let start ← here
  let _ ← next
  otherFrom start []

/-- A statement on one line. -/
def simpleStatement : Parser Node := do
  match ← peek with
  | .word cs =>
    if ["pass", "break", "continue"].any (·.toList == cs) then wordStatement
    else if ["global", "nonlocal"].any (·.toList == cs) then scopeStatement
    else if cs = "return".toList then returning g
    else if cs = "raise".toList then raising g
    else if cs = "assert".toList then assertion g
    else if cs = "del".toList then deletion g
    else if cs = "import".toList then importModules
    else if cs = "from".toList then importNames
    else expressionStatement g
  | _ => expressionStatement g

/-- Simple statements on one line, separated by semicolons. -/
def simpleStatements : Parser (List Node) := do
  let first ← simpleStatement g
  let more ← repeated do
    if (← isSign ";") && (← peekSecond) != .lineEnd then
      let _ ← next
      return some (← simpleStatement g)
    else return none
  let _ ← optSign ";"
  layout .lineEnd
  return first :: more

/-! ## Compound statements -/

/-- A block after a colon. -/
def colonBlock : Parser (List Node) := do
  sign ":"
  g.block

/-- The block behind a word, if that word follows. -/
def optBlock (head : String) : Parser (List Node) := do
  if ← optWord head then colonBlock g else return []

/-- An `if` statement with all its branches. -/
def conditional : Parser Node := do
  let start ← here
  word "if"
  let test ← namedExpression g
  let body ← colonBlock g
  let branches ← repeated do
    if ← optWord "elif" then
      let test ← namedExpression g
      return some (test.node :: (← colonBlock g))
    else return none
  let otherwise ← optBlock g "else"
  otherFrom start (test.node :: body ++ branches.flatten ++ otherwise)

/-- A `while` statement. -/
def whileLoop : Parser Node := do
  let start ← here
  word "while"
  let test ← namedExpression g
  let body ← colonBlock g
  let otherwise ← optBlock g "else"
  otherFrom start (test.node :: body ++ otherwise)

/-- A `for` statement. -/
def forLoop : Parser Node := do
  let start ← here
  word "for"
  let bound ← targets g
  word "in"
  let source ← starExpressions g
  let body ← colonBlock g
  let otherwise ← optBlock g "else"
  otherFrom start (bound.node :: source.node :: body ++ otherwise)

/-- One item of a `with` statement. -/
def withItem : Parser (List Node) := do
  let value ← g.expression
  if ← optWord "as" then
    let bound ← target g
    return [value.node, bound.node]
  else return [value.node]

/-- The items of a `with` statement up to its colon, in parentheses if they can be read so. -/
def withItems : Parser (List Node) := do
  let enclosed : Parser (List (List Node)) := do
    sign "("
    let items ← commaList startsExpression (withItem g)
    sign ")"
    guard (← isSign ":")
    return items
  let plain : Parser (List (List Node)) := do
    let items ← strictCommaList (withItem g)
    guard (← isSign ":")
    return items
  return (← enclosed <|> plain).flatten

/-- A `with` statement. -/
def withStatement : Parser Node := do
  let start ← here
  word "with"
  let items ← withItems g
  let body ← colonBlock g
  otherFrom start (items ++ body)

/-- One handler of a `try` statement; the flag says whether it is one for groups, with a star. -/
def handler : Parser (Option (List Node × Bool)) := do
  if ← optWord "except" then
    let group ← optSign "*"
    if !group && (← isSign ":") then return some (← colonBlock g, false)
    else
      let error ← g.expression
      let _ ← optAlias
      return some (error.node :: (← colonBlock g), group)
  else return none

/-- A `try` statement: its handlers are all for groups or all not, and without handlers it has a
`finally`. -/
def tryStatement : Parser Node := do
  let start ← here
  word "try"
  let body ← colonBlock g
  let handlers ← repeated (handler g)
  guard (handlers.all Prod.snd || handlers.all (!·.2))
  let otherwise ← if handlers.isEmpty then pure [] else optBlock g "else"
  let hasFinal ← isWord "finally"
  guard (hasFinal || !handlers.isEmpty)
  let final ← optBlock g "finally"
  otherFrom start (body ++ handlers.flatMap Prod.fst ++ otherwise ++ final)

/-- A function, from its `def` on; `start` is where it or its `async` stands. -/
def function (start : Place) (kind : DefinitionKind) (decorators : List Node) : Parser Node := do
  word "def"
  let id ← name
  sign "("
  let inner ← parameters g true ")"
  sign ")"
  let result ← if ← optSign "->" then pure [(← g.expression).node] else pure []
  let body ← colonBlock g
  let head : Definition :=
    { kind, name := id, decorators := decorators.filterMap Node.decoratorName? }
  return .definition head (inner ++ body ++ decorators ++ result) (← extentFrom start)

/-- A class. -/
def classDefinition (decorators : List Node) : Parser Node := do
  let start ← here
  word "class"
  let id ← name
  let bases ← if ← optSign "(" then arguments g none else pure []
  let body ← colonBlock g
  let head : Definition :=
    { kind := .classLike, name := id, decorators := decorators.filterMap Node.decoratorName? }
  return .definition head (bases ++ body ++ decorators) (← extentFrom start)

/-- A statement that starts with `async`. -/
def asyncStatement (decorators : List Node) : Parser Node := do
  let start ← here
  word "async"
  if ← isWord "def" then function g start .asyncFunction decorators
  else
    guard decorators.isEmpty
    if ← isWord "for" then forLoop g else withStatement g

/-- A definition with decorators. -/
def decorated : Parser Node := do
  let decorators ← repeated do
    if ← optSign "@" then
      let value ← namedExpression g
      layout .lineEnd
      return some value.node
    else return none
  if ← isWord "class" then classDefinition g decorators
  else if ← isWord "async" then
    guard ((← peekSecond) == .word "def".toList)
    asyncStatement g decorators
  else function g (← here) .function decorators

/-- The subject of a `match`, up to the line end that follows its colon. -/
def matchHead : Parser Node := do
  word "match"
  let start ← here
  let first ← starNamedExpression g
  let (more, comma) ← afterCommas startsExpression (starNamedExpression g)
  guard (comma || !first.starred)
  sign ":"
  layout .lineEnd
  otherFrom start ((first :: more).map Operand.node)

/-- One `case` with its guard and block. -/
def matchCase : Parser (Option (List Node)) := do
  if ← optWord "case" then
    let shape ← openPattern g
    let condition ← if ← optWord "if" then pure [(← namedExpression g).node] else pure []
    return some (shape :: condition ++ (← colonBlock g))
  else return none

/-- A `match` statement. -/
def matchStatement : Parser Node := do
  let start ← here
  let subject ← matchHead g
  layout .indent
  let cases ← repeated (matchCase g)
  guard !cases.isEmpty
  layout .dedent
  otherFrom start (subject :: cases.flatten)

/-- A statement; a line of simple statements gives several. The word `match` starts a statement of
its own only where the line reads as one. -/
def statement : Parser (List Node) := do
  match ← peek with
  | .sign cs => if cs = "@".toList then return [← decorated g] else simpleStatements g
  | .word cs =>
    if cs = "if".toList then return [← conditional g]
    else if cs = "while".toList then return [← whileLoop g]
    else if cs = "for".toList then return [← forLoop g]
    else if cs = "try".toList then return [← tryStatement g]
    else if cs = "with".toList then return [← withStatement g]
    else if cs = "def".toList then return [← function g (← here) .function []]
    else if cs = "class".toList then return [← classDefinition g []]
    else if cs = "async".toList then return [← asyncStatement g []]
    else if cs = "match".toList then
      (do return [← matchStatement g]) <|> simpleStatements g
    else simpleStatements g
  | _ => simpleStatements g

/-- Statements up to the end of a block or of the text. -/
def statements : Parser (List Node) := do
  let lines ← repeated do
    match ← peek with
    | .dedent | .finish => return none
    | _ => return some (← statement g)
  return lines.flatten

/-- The body of a compound statement: an indented block, or statements on the same line. -/
def block : Parser (List Node) := do
  match ← peek with
  | .lineEnd =>
    layout .lineEnd
    layout .indent
    let body ← statements g
    layout .dedent
    return body
  | _ => simpleStatements g

end Statements

end CallAtlas.Source.Parser
