import CallAtlas.Path
import CallAtlas.Text.Lines

/-!
# File systems

A file system is a tree of directories, regular files and symbolic links, with a working directory
from which relative paths start. It is a value: reading looks into it, writing gives a new one.

- `FileSystem.find` follows a path through links as opening a file does; at most `linkLimit` links
  are followed.
- `FileSystem.resolve` gives the path with all links replaced; names that do not exist are kept as
  they are.
- `FileSystem.readText` reads a text file as UTF-8 with uniform line ends.
-/

namespace CallAtlas

/-- What a directory holds under a name. -/
inductive Entry where
  | file (content : ByteArray)
  | link (target : String)
  | directory (entries : List (String × Entry))
  deriving Inhabited

namespace Entry

/-- Whether an entry is a symbolic link. -/
def isLink : Entry → Bool
  | .link _ => true
  | _ => false

/-- Whether an entry is a directory. -/
def isDirectory : Entry → Bool
  | .directory _ => true
  | _ => false

/-- The entry under a name, in a list of entries. -/
def lookup? (entries : List (String × Entry)) (name : String) : Option Entry :=
  (entries.find? (·.1 == name)).map Prod.snd

/-- The entry at the end of a sequence of names below an entry; links are not followed. -/
def descend? : Entry → List String → Option Entry
  | e, [] => some e
  | .directory entries, name :: rest =>
    match lookup? entries name with
    | some e => e.descend? rest
    | none => none
  | _, _ :: _ => none

mutual

/-- The number of links in an entry. -/
def linkCount : Entry → Nat
  | .file _ => 0
  | .link _ => 1
  | .directory entries => linkCountOfAll entries

/-- The number of links in several entries. -/
def linkCountOfAll : List (String × Entry) → Nat
  | [] => 0
  | (_, e) :: rest => linkCount e + linkCountOfAll rest

end

mutual

/-- How deep directories are nested in an entry. -/
def depth : Entry → Nat
  | .file _ | .link _ => 0
  | .directory entries => depthOfAll entries + 1

/-- The greatest depth of several entries. -/
def depthOfAll : List (String × Entry) → Nat
  | [] => 0
  | (_, e) :: rest => max (depth e) (depthOfAll rest)

end

end Entry

/-- Why a file cannot be read or written. -/
inductive FileError where
  | missing
  | notADirectory
  | isADirectory
  | exists
  | tooManyLinks
  | notText
  | nullCharacter
  deriving Repr, DecidableEq

/-- No name in a file system holds a null character. -/
def Path.checkNames (p : Path) : Except FileError Unit :=
  if p.parts.any (·.toList.contains '\x00') then .error .nullCharacter else .ok ()

/-- A file system: the entries of its root directory, and the names that lead to the working
directory. -/
structure FileSystem where
  entries : List (String × Entry) := []
  current : List String := []

namespace FileSystem

/-- The root directory. -/
def root (fs : FileSystem) : Entry := .directory fs.entries

/-- The entry at a sequence of names from the root; links are not followed. -/
def entryAt? (fs : FileSystem) (names : List String) : Option Entry := fs.root.descend? names

/-- Where a path starts: at the root or at the working directory. -/
def startOf (fs : FileSystem) (p : Path) : List String :=
  if p.isAbsolute then [] else fs.current

/-- This many links are followed on the way to a file. -/
def linkLimit : Nat := 40

/-- How far a path leads without following a link. -/
inductive Progress where
  | arrived (names : List String)
  | link (place : List String) (target : Path) (rest : List String)
  | failed (error : FileError)

/-- Follows names from a place up to the first link. -/
def advance (fs : FileSystem) (place : List String) : List String → Progress
  | [] => .arrived place
  | name :: rest =>
    match fs.entryAt? place with
    | some (.directory _) =>
      if name = ".." then fs.advance place.dropLast rest
      else
        match fs.entryAt? (place ++ [name]) with
        | some (.link target) => .link place (Path.ofString target) rest
        | some _ => fs.advance (place ++ [name]) rest
        | none => .failed .missing
    | _ => .failed .notADirectory

/-- Follows names from a place through at most `fuel` links. -/
def findFrom (fs : FileSystem) : Nat → List String → List String → Except FileError (List String)
  | 0, _, _ => .error .tooManyLinks
  | fuel + 1, place, names =>
    match fs.advance place names with
    | .arrived final => .ok final
    | .failed error => .error error
    | .link place target rest =>
      fs.findFrom fuel (if target.isAbsolute then [] else place) (target.parts ++ rest)

/-- The names from the root to what a path leads to, all links followed. -/
def find (fs : FileSystem) (p : Path) : Except FileError (List String) := do
  p.checkNames
  fs.findFrom (linkLimit + 1) (fs.startOf p) p.parts

/-- What a path leads to. -/
def entry? (fs : FileSystem) (p : Path) : Option Entry :=
  match fs.find p with
  | .ok names => fs.entryAt? names
  | .error _ => none

/-- Whether a path leads to anything. -/
def pathExists (fs : FileSystem) (p : Path) : Bool := (fs.entry? p).isSome

/-- Whether a path leads to a directory. -/
def isDirectory (fs : FileSystem) (p : Path) : Bool := (fs.entry? p).any Entry.isDirectory

/-- Whether a path leads to a regular file. -/
def isFile (fs : FileSystem) (p : Path) : Bool :=
  match fs.entry? p with
  | some (.file _) => true
  | _ => false

/-- Whether the last name of a path is itself a link. -/
def isLink (fs : FileSystem) (p : Path) : Bool :=
  match fs.find p.parent with
  | .ok names => (fs.entryAt? (names ++ [p.name])).any Entry.isLink
  | .error _ => false

/-- Names with every parent step and the name before it taken out. -/
def collapse (names : List String) : List String :=
  names.foldl (fun place name => if name = ".." then place.dropLast else place ++ [name]) []

/-- Replaces links in the names that follow a place, where the links in `active` are being replaced
already. A link that leads back to itself is an error; it carries the place of that link with the
names that remain. -/
def resolveFrom (fs : FileSystem) (fuel : Nat) (active : List (List String)) (place : List String) :
    List String → Except (List String) (List String)
  | [] => .ok place
  | name :: rest =>
    if name = ".." then fs.resolveFrom fuel active place.dropLast rest
    else
      let next := place ++ [name]
      match fs.entryAt? next with
      | some (.link target) =>
        match fuel with
        | 0 => .error (next ++ rest)
        | fuel + 1 =>
          if active.contains next then .error (next ++ rest)
          else
            let target := Path.ofString target
            match fs.resolveFrom fuel (next :: active) (if target.isAbsolute then [] else place)
              target.parts with
            | .ok place => fs.resolveFrom (fuel + 1) active place rest
            | .error names => .error (names ++ rest)
      | _ => fs.resolveFrom fuel active next rest
termination_by names => (fuel, names.length)

/-- The absolute path that a path leads to, with all links and parent steps replaced. What does not
exist is kept. Fails on a cycle of links. -/
def resolve (fs : FileSystem) (p : Path) : Except FileError Path := do
  p.checkNames
  match fs.resolveFrom (fs.root.linkCount + 1) [] (fs.startOf p) p.parts with
  | .ok parts => .ok { root := "/", parts }
  | .error names =>
    let path : Path := { root := "/", parts := collapse names }
    match fs.find path with
    | .error .tooManyLinks => .error .tooManyLinks
    | _ => .ok path

/-- The content of a file. -/
def readBytes (fs : FileSystem) (p : Path) : Except FileError ByteArray := do
  let names ← fs.find p
  match fs.entryAt? names with
  | some (.file content) => return content
  | some (.directory _) => throw .isADirectory
  | _ => throw .missing

/-- The text of a file, with every line end a line feed. -/
def readText (fs : FileSystem) (p : Path) : Except FileError (List Char) := do
  let bytes ← fs.readBytes p
  match String.fromUTF8? bytes with
  | some text => return Text.unifyLineEnds text.toList
  | none => throw .notText

end FileSystem

end CallAtlas
