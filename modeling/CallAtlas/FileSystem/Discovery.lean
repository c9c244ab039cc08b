import CallAtlas.FileSystem.Basic

/-!
# Finding source files

`sourceFiles` lists the source files below a directory. Within a directory the files come first,
then the subdirectories one after the other, both in the order of their names, so the result does
not depend on the order in which the file system lists its entries. Directories with an excluded
name are passed over, and so are links unless they are followed.
-/

namespace CallAtlas

/-- Which files belong to a project. -/
structure ScanConfig where
  followLinks : Bool := false
  includeStubs : Bool := true
  exclude : List String :=
    [".git", ".hg", ".svn", "__pycache__", ".mypy_cache", ".pytest_cache", ".venv", "venv", "env"]

namespace ScanConfig

/-- Whether a name is that of a source file. -/
def isSourceName (config : ScanConfig) (name : String) : Bool :=
  name.endsWith ".py" || (config.includeStubs && name.endsWith ".pyi")

end ScanConfig

/-- Names in the order of their characters. -/
def sortNames (names : List String) : List String :=
  names.mergeSort fun a b => !(b < a)

namespace FileSystem

/-- Whether an entry of a directory counts as a directory: links count as what they lead to. -/
def countsAsDirectory (fs : FileSystem) (directory : Path) (named : String × Entry) : Bool :=
  match named.2 with
  | .directory _ => true
  | .file _ => false
  | .link _ => fs.isDirectory (directory.child named.1)

/-- The files and then the directories of a listing that a scan looks at, as sorted names. -/
def listing (fs : FileSystem) (config : ScanConfig) (directory : Path)
    (entries : List (String × Entry)) :
    List String × List String :=
  let (directories, files) := entries.partition (fs.countsAsDirectory directory)
  let wanted := files.filter fun f => config.isSourceName f.1 && (config.followLinks || !f.2.isLink)
  let kept := directories.filter fun d =>
    !config.exclude.contains d.1 && (config.followLinks || !d.2.isLink)
  (sortNames (wanted.map Prod.fst), sortNames (kept.map Prod.fst))

/-- The source files below a directory, at most `fuel` directories deep. -/
def sourceFilesFrom (fs : FileSystem) (config : ScanConfig) : Nat → Path → List Path
  | 0, _ => []
  | fuel + 1, directory =>
    match fs.entry? directory with
    | some (.directory entries) =>
      let (files, directories) := fs.listing config directory entries
      files.map directory.child ++ directories.flatMap fun d =>
      fs.sourceFilesFrom config fuel (directory.child d)
    | _ => []

/-- The source files below a directory. A path passes through each level of directories at most once
between two links and follows at most `linkLimit` links, which bounds its length. -/
def sourceFiles (fs : FileSystem) (config : ScanConfig) (directory : Path) : List Path :=
  fs.sourceFilesFrom config ((fs.root.depth + 1) * (linkLimit + 2)) directory

/-- The files that an entry path stands for: those below a directory, without stubs, or the path
itself. -/
def entryFiles (fs : FileSystem) (entry : Path) : List Path :=
  if fs.isDirectory entry then fs.sourceFiles { includeStubs := false } entry else [entry]

end FileSystem

end CallAtlas
