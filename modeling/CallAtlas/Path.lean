import CallAtlas.Text.Split

/-!
# Paths

A path is a sequence of names below a root: relative paths have none, absolute ones start at `/`,
and a path that was written with exactly two slashes keeps them. Empty names and `.` vanish when a
path is read, `..` stays, since what it means depends on the file system. Everything here is
textual.
-/

namespace CallAtlas

/-- A path, taken apart at its slashes. -/
structure Path where
  root : String := ""
  parts : List String := []
  deriving Repr, DecidableEq, Inhabited

namespace Path

/-- The root that a written path starts at: one slash, or two if there are exactly two. -/
def rootOf : List Char → String
  | '/' :: '/' :: '/' :: _ => "/"
  | '/' :: '/' :: _ => "//"
  | '/' :: _ => "/"
  | _ => ""

/-- The path that a text spells. -/
def ofString (text : String) : Path :=
  { root := rootOf text.toList
    parts := (Text.splitText '/' text).filter fun p => p ≠ "" ∧ p ≠ "." }

/-- The text of a path; the empty path is a dot. -/
def text (p : Path) : String :=
  if p.root = "" ∧ p.parts = [] then "." else p.root ++ "/".intercalate p.parts

/-- Whether a path starts at a root. -/
def isAbsolute (p : Path) : Bool := p.root ≠ ""

/-- The second path seen from the first: an absolute path stays what it is. -/
def join (p q : Path) : Path :=
  if q.isAbsolute then q else { p with parts := p.parts ++ q.parts }

/-- A path with one more name. -/
def child (p : Path) (name : String) : Path :=
  { p with parts := p.parts ++ [name] }

/-- The last name of a path, empty if there is none. -/
def name (p : Path) : String := p.parts.getLastD ""

/-- The path without its last name. -/
def parent (p : Path) : Path := { p with parts := p.parts.dropLast }

/-- The root, if there is one, and the names, as one list. -/
def components (p : Path) : List String :=
  if p.root = "" then p.parts else p.root :: p.parts

/-- Where the extension of a name starts: at its last dot, unless that is the first or the last
character. -/
def splitName (name : String) : List Char × List Char :=
  let cs := name.toList
  let tail := (cs.reverse.takeWhile (· ≠ '.')).reverse
  let stem := cs.take (cs.length - tail.length - 1)
  if tail.isEmpty || stem.isEmpty || tail.length == cs.length then (cs, []) else (stem, '.' :: tail)

/-- The extension of a path, with its dot; empty if there is none. -/
def suffix (p : Path) : String := String.ofList (splitName p.name).2

/-- The path without its extension. -/
def withoutSuffix (p : Path) : Path :=
  { p with parts := p.parts.dropLast ++ (p.parts.getLast?.map fun n =>
    String.ofList (splitName n).1).toList }

/-- The path seen from another that it starts with. The empty path is where every relative path
starts. -/
def relativeTo? (p base : Path) : Option Path :=
  if p.root = base.root ∧ base.parts.isPrefixOf p.parts then
    some { parts := p.parts.drop base.parts.length }
  else none

/-- Whether the first path lies strictly above the second. -/
def isProperAncestor (a p : Path) : Bool :=
  a.root == p.root && a.parts.isPrefixOf p.parts && a.parts != p.parts

end Path

end CallAtlas
