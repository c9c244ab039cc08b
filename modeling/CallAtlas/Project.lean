import CallAtlas.FileSystem.Discovery
import CallAtlas.Project.Calls
import CallAtlas.SourceFile

/-!
# Projects

A project is what a directory of source files declares and calls. `indexProject` reads all files
below a root, in a first pass collects their symbols, and in a second pass the calls of those that
are not stubs.

Of two declarations with the same identifier the later one counts and the earlier one gives the
place; the symbol of a whole module never replaces another.
-/

namespace CallAtlas

open Source Text

/-- Why a project cannot be indexed. -/
inductive ProjectError where
  | noRoot (root : Path)
  | linkCycle
  | source (error : SourceError)
  deriving Repr, DecidableEq

/-- The text of the message for a missing root. -/
def ProjectError.noRootMessage (root : Path) : String :=
  "Project root does not exist or is not a directory: " ++ root.text

/-- An indexed project. -/
structure Project where
  root : Path
  symbols : Table String Symbol := .empty
  calls : List Call := []
  sources : Table Path LineIndex := .empty

namespace Project

/-- The symbols that are function-like. -/
def functions (p : Project) : List Symbol := p.symbols.values.filter (·.kind.isCallable)

end Project

/-- Adds the symbols of a file to a table. -/
def addSymbols (symbols : Table String Symbol) (file : SourceFile) : Table String Symbol :=
  let whole := moduleSymbol file.path file.index
  let symbols := if symbols.contains whole.id then symbols else symbols.put whole.id whole
  (declarations file.path file.index [] file.tree).foldl (fun t s => t.put s.id s) symbols

/-- The project of some source files. -/
def projectOf (root : Path) (files : List SourceFile) : Project :=
  let symbols := files.foldl addSymbols .empty
  let index := symbolIndex symbols.values
  { root := root
    symbols := symbols
    calls := (files.filter (·.path.suffix == sourceSuffix)).flatMap fun f =>
    callsOf index f.path f.index f.tree
    sources := Table.ofList (files.map fun f => (f.path, f.index)) }

/-- Indexes the project below a directory. -/
def indexProject (fs : FileSystem) (root : Path) (config : ScanConfig := {}) :
    Except ProjectError Project := do
  let root ← (fs.resolve root).mapError fun _ => .linkCycle
  if !fs.isDirectory root then throw (.noRoot root)
  let files ← ((fs.sourceFiles config root).mapM (readSource fs root)).mapError ProjectError.source
  return projectOf root files

end CallAtlas
