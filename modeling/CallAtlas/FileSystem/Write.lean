import CallAtlas.FileSystem.Basic

/-!
# Writing files

Actions that change a file system. An action that fails keeps what it did before it failed.
-/

namespace CallAtlas

mutual

/-- The entry with another one put below it, at the end of a sequence of names; directories that are
missing on the way are made. -/
def Entry.insertAt (new : Entry) : List String → Entry → Entry
  | [], _ => new
  | name :: rest, .directory entries => .directory (Entry.insertInto new name rest entries)
  | name :: rest, _ => .directory (Entry.insertInto new name rest [])

/-- The entries of a directory with another one put under a name or below it. -/
def Entry.insertInto (new : Entry) (name : String) (rest : List String) :
    List (String × Entry) → List (String × Entry)
  | [] => [(name, Entry.insertAt new rest (.directory []))]
  | (n, e) :: others =>
    if n = name then (n, Entry.insertAt new rest e) :: others
    else (n, e) :: Entry.insertInto new name rest others

end

mutual

/-- The regular files below an entry, each with the names that lead to it. -/
def Entry.files : Entry → List (List String × ByteArray)
  | .file content => [([], content)]
  | .link _ => []
  | .directory entries => Entry.filesOfAll entries

/-- The regular files below several entries. -/
def Entry.filesOfAll : List (String × Entry) → List (List String × ByteArray)
  | [] => []
  | (name, e) :: rest =>
    (Entry.files e).map (fun (names, content) => (name :: names, content)) ++ Entry.filesOfAll rest

end

namespace FileSystem

/-- The file system with an entry put at the end of a sequence of names. -/
def insert (fs : FileSystem) (names : List String) (new : Entry) : FileSystem :=
  match names with
  | [] => fs
  | name :: rest => { fs with entries := Entry.insertInto new name rest fs.entries }

/-- All regular files, each with its path. -/
def files (fs : FileSystem) : List (Path × ByteArray) :=
  fs.root.files.map fun (names, content) => ({ root := "/", parts := names }, content)

/-- Where a file that is opened for writing stands: what its path leads to, or the name that is
still free. -/
def destinationFrom (fs : FileSystem) :
    Nat → List String → List String → Except FileError (List String)
  | 0, _, _ => .error .tooManyLinks
  | fuel + 1, place, names =>
    match names.getLast? with
    | none => .ok place
    | some last => do
      let directory ← fs.findFrom (fuel + 1) place names.dropLast
      if !(fs.entryAt? directory).any Entry.isDirectory then throw .notADirectory
      if last = ".." then return directory.dropLast
      match fs.entryAt? (directory ++ [last]) with
      | some (.link target) =>
        let target := Path.ofString target
        fs.destinationFrom fuel (if target.isAbsolute then [] else directory) target.parts
      | _ => return directory ++ [last]

/-- Where the file of a path is written. -/
def destination (fs : FileSystem) (p : Path) : Except FileError (List String) := do
  p.checkNames
  fs.destinationFrom (linkLimit + 1) (fs.startOf p) p.parts

end FileSystem

/-- An action on a file system, which may fail. -/
abbrev FileAction (α : Type) := ExceptT FileError (StateM FileSystem) α

namespace FileAction

/-- Asks the file system. -/
def ask {α : Type} (question : FileSystem → Except FileError α) : FileAction α := do
  match question (← get) with
  | .ok a => return a
  | .error e => throw e

/-- Makes one directory below one that is there. -/
def makeDirectory (p : Path) : FileAction Unit := do
  ask fun _ => p.checkNames
  if p.parts.isEmpty || p.name = ".." then throw .exists
  let directory ← ask (·.find p.parent)
  if !((← get).entryAt? directory).any Entry.isDirectory then throw .notADirectory
  let names := directory ++ [p.name]
  if ((← get).entryAt? names).isSome then throw .exists
  modify fun fs => fs.insert names (.directory [])

/-- Does nothing more about a directory that could not be made because it is there. -/
def unlessDirectory (p : Path) (error : FileError) : FileAction Unit := do
  if !(← get).isDirectory p then throw error

/-- Makes the directories of a path, as many as `fuel` of them, that are not there yet. -/
def makeDirectoriesFrom : Nat → Path → FileAction Unit
  | 0, p => tryCatch (makeDirectory p) (unlessDirectory p)
  | fuel + 1, p =>
    tryCatch (makeDirectory p) fun
      | .missing => do
        makeDirectoriesFrom fuel p.parent
        tryCatch (makeDirectory p) fun
          | .missing => throw .missing
          | e => unlessDirectory p e
      | e => unlessDirectory p e

/-- Makes a directory and those above it that are not there yet. -/
def makeDirectories (p : Path) : FileAction Unit := makeDirectoriesFrom p.parts.length p

/-- Writes a file, in place of what it held before. -/
def writeBytes (p : Path) (content : ByteArray) : FileAction Unit := do
  let names ← ask (·.destination p)
  if ((← get).entryAt? names).any Entry.isDirectory then throw .isADirectory
  modify fun fs => fs.insert names (.file content)

/-- Writes a text file. -/
def writeText (p : Path) (text : String) : FileAction Unit := writeBytes p text.toUTF8

end FileAction

end CallAtlas
