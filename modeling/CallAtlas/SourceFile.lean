import CallAtlas.CallSite
import CallAtlas.FileSystem.Basic
import CallAtlas.Log
import CallAtlas.Symbol

/-!
# Source files

Reading source files from a file system: into syntax trees, for a project, and into call sites, for
the places where hierarchies start.
-/

namespace CallAtlas

open Source Text

/-- Why a source file cannot be used. -/
inductive SourceError where
  | file (error : FileError)
  | text (error : ParseError)
  deriving Repr, DecidableEq

/-- One source file: its path from the root of the project, its text and its tree. -/
structure SourceFile where
  path : Path
  index : LineIndex
  tree : Node

/-- Reads one source file of a project. -/
def readSource (fs : FileSystem) (root file : Path) : Except SourceError SourceFile := do
  let text ← (fs.readText file).mapError SourceError.file
  let tree ← (parseModule text).mapError SourceError.text
  return { path := (file.relativeTo? root).getD file, index := .ofText text, tree }

/-- The call sites of one file. -/
def FileSystem.callSitesIn (fs : FileSystem) (line : Option Int) (file : Path) :
    Except SourceError (List CallSite) := do
  let text ← (fs.readText file).mapError SourceError.file
  (extractCallSites file text line).mapError SourceError.text

/-- The call sites of some files. -/
structure Collection where
  sites : List CallSite := []
  logs : List LogEntry := []

/-- The call sites of several files, one file after the other, stubs left out. -/
def FileSystem.collectCallSites (fs : FileSystem) (line : Option Int) (files : List Path) :
    Except SourceError Collection := do
  let found ← (files.filter (!·.isStub)).mapM fun file => do
    return (file, ← fs.callSitesIn line file)
  return {
    sites := found.flatMap Prod.snd
    logs := found.map fun (file, sites) =>
      let message := file.text ++ ": " ++ toString sites.length ++ " call site(s)"
      ⟨.info, "callscope.positions", message⟩ }

end CallAtlas
