import CallAtlas.Path

/-!
# Symbols

A symbol is a named thing that a project declares: a module, a class or one of three kinds of
functions. Its identifier is its qualified name, marked when it comes from a stub file, so that a
stub and its implementation stay apart.
-/

namespace CallAtlas

/-- What a symbol is. -/
inductive SymbolKind where
  | function
  | method
  | localFunction
  | classLike
  | wholeModule
  deriving Repr, DecidableEq, Inhabited

namespace SymbolKind

/-- The written form of a kind. -/
def text : SymbolKind → String
  | .function => "function"
  | .method => "method"
  | .localFunction => "local function"
  | .classLike => "class"
  | .wholeModule => "module"

/-- Functions, methods and local functions can be called. -/
def isCallable : SymbolKind → Bool
  | .function | .method | .localFunction => true
  | .classLike | .wholeModule => false

/-- A call resolves to something callable or to a class. -/
def isResolvable : SymbolKind → Bool
  | .wholeModule => false
  | _ => true

end SymbolKind

/-- The extension of source files. -/
def sourceSuffix : String := ".py"

/-- The extension of stub files, which only declare. -/
def stubSuffix : String := ".pyi"

/-- The modifier of what is only declared. -/
def declareModifier : String := "declare"

/-- A declaration of a project. The file is relative to the root of the project; `spanStart` is the
offset of the declaration and `selectionStart` that of its name. -/
structure Symbol where
  id : String
  kind : SymbolKind
  name : String
  qualname : String
  inModule : String
  file : Path
  startLine : Nat := 1
  endLine : Nat := 1
  container : Option String := none
  modifiers : String := ""
  spanStart : Nat := 0
  selectionStart : Nat := 0
  deriving Repr, DecidableEq, Inhabited

/-- Whether a file is a stub. -/
def Path.isStub (p : Path) : Bool := p.suffix == stubSuffix

/-- Whether a symbol comes from a stub file. -/
def Symbol.isStub (s : Symbol) : Bool := s.file.isStub

/-- The identifier of a qualified name declared in a file. -/
def symbolId (qualname : String) (file : Path) : String :=
  if file.isStub then "stub:" ++ qualname else qualname

end CallAtlas
