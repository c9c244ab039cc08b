import CallAtlas.CallSite
import CallAtlas.Symbol

/-!
# The declarations of a file

`declarations` walks a syntax tree and lists a symbol for every function and class, each before
those nested in it. A function is a method directly inside a class, a local function directly inside
a function, and a plain function at the top. `moduleSymbol` is the symbol of the file as a whole, so
that calls outside of functions have a caller as well.
-/

namespace CallAtlas

open Source Text

/-- The dotted name of the module in a file, given relative to the root of the project. -/
def moduleName (file : Path) : String :=
  ".".intercalate file.withoutSuffix.components

/-- The last part of a dotted name, or the whole where that is empty. -/
def lastPart (dotted : String) : String :=
  let last := (dotted.toList.reverse.takeWhile (· ≠ '.')).reverse
  if last.isEmpty then dotted else String.ofList last

/-- The symbol of a whole file. -/
def moduleSymbol (file : Path) (index : LineIndex) : Symbol where
  id := symbolId (moduleName file) file
  kind := .wholeModule
  name := lastPart (moduleName file)
  qualname := moduleName file
  inModule := moduleName file
  file := file
  startLine := 1
  endLine := max index.size 1
  modifiers := if file.isStub then declareModifier else ""

/-- The modifier that a decorator gives. -/
def decoratorModifier? (decorator : String) : Option String :=
  if decorator = "overload" then some declareModifier
  else if decorator = "staticmethod" then some "static"
  else if decorator = "abstractmethod" then some "abstract"
  else none

/-- The modifiers of a definition, each once, in the order in which they arise. -/
def modifiersOf (file : Path) (head : Definition) : List String :=
  let declared := if file.isStub then [declareModifier] else []
  let asynchronous := if head.kind = .asyncFunction then ["async"] else []
  (head.decorators.filterMap decoratorModifier?).foldl
    (fun mods m => if mods.contains m then mods else mods ++ [m]) (declared ++ asynchronous)

/-- The offset of the name of a definition that starts at an offset: the first occurrence of the
name after the first occurrence of the keyword. -/
def selectionOffset (text : List Char) (start : Nat) (keyword name : List Char) : Nat :=
  match find? keyword (text.drop start) with
  | none => start
  | some k =>
    let after := start + k + keyword.length
    match find? name (text.drop after) with
    | none => start
    | some i => after + i

namespace Source.DefinitionKind

/-- The keyword that a definition starts with. -/
def keyword : DefinitionKind → String
  | .function | .asyncFunction => "def"
  | .classLike => "class"

/-- The kind of the symbol of a definition directly inside of the given ones. -/
def symbolKind (kind : DefinitionKind) (outer : List (String × SymbolKind)) : SymbolKind :=
  match kind with
  | .classLike => .classLike
  | _ =>
    match outer.getLast? with
    | none => .function
    | some (_, .classLike) => .method
    | some _ => .localFunction

end Source.DefinitionKind

/-- The symbol of a definition inside of the given ones, the outermost first. -/
def definitionSymbol (file : Path) (index : LineIndex) (outer : List (String × SymbolKind))
    (head : Definition)
    (extent : Extent) : Symbol :=
  let names := outer.map Prod.fst
  let qualname := ".".intercalate (moduleName file :: names ++ [head.name])
  let start := index.offsetAt extent.start
  { id := symbolId qualname file
    kind := head.kind.symbolKind outer
    name := head.name
    qualname := qualname
    inModule := moduleName file
    file := file
    startLine := extent.start.line
    endLine := extent.stop.line
    container := dotted? names
    modifiers := ",".intercalate (modifiersOf file head)
    spanStart := start
    selectionStart := selectionOffset index.text start head.kind.keyword.toList head.name.toList }

mutual

/-- The symbols of the definitions in a tree. -/
def declarations (file : Path) (index : LineIndex) (outer : List (String × SymbolKind)) :
    Node → List Symbol
  | .name _ _ | .imports _ _ => []
  | .member receiver _ _ => declarations file index outer receiver
  | .call callee arguments _ =>
    declarations file index outer callee ++ declarationsOfAll file index outer arguments
  | .definition head parts extent =>
    definitionSymbol file index outer head extent ::
      declarationsOfAll file index (outer ++ [(head.name, head.kind.symbolKind outer)]) parts
  | .other parts _ => declarationsOfAll file index outer parts

/-- The symbols of the definitions in several trees. -/
def declarationsOfAll (file : Path) (index : LineIndex) (outer : List (String × SymbolKind)) :
    List Node → List Symbol
  | [] => []
  | node :: rest => declarations file index outer node ++ declarationsOfAll file index outer rest

end

end CallAtlas
