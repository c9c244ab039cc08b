import CallAtlas.Hierarchy.Resolver
import CallAtlas.Project
import CallAtlas.Text.Quoted

/-!
# Questions about a project

The questions that a call hierarchy asks, answered from an indexed project: what a place refers to,
what a declaration calls and what calls it. Files may be given relative to the root of the project
or by any absolute path that leads into it.
-/

namespace CallAtlas

/-- Why a question about a project has no answer. -/
inductive LookupError where
  | outside (file root : Path)
  | notIndexed (file : Path)
  | undeclared (file : Path) (offset : Int)
  | linkCycle (file : Path)
  deriving Repr, DecidableEq

namespace LookupError

/-- The text of the message. -/
def message : LookupError → String
  | .outside file root => file.text ++ " is outside of " ++ root.text
  | .notIndexed file => file.text ++ " was not indexed"
  | .undeclared file offset => "no symbol declared at " ++ file.text ++ ":" ++ toString offset
  | .linkCycle file => "Symlink loop from " ++ Text.quoted file.text

end LookupError

namespace Project

variable (p : Project) (fs : FileSystem)

/-- The path of a file from the root of the project. -/
def relative (file : Path) : Except LookupError Path :=
  if !file.isAbsolute then .ok file
  else
    match fs.resolve file with
    | .error _ => .error (.linkCycle file)
    | .ok resolved =>
      match resolved.relativeTo? p.root with
      | some path => .ok path
      | none => .error (.outside file p.root)

/-- The item of a symbol. -/
def itemOf (s : Symbol) : Item where
  file := p.root.join s.file
  name := s.name
  kind := s.kind.text
  modifiers := s.modifiers
  container := s.container
  spanStart := s.spanStart
  selectionStart := s.selectionStart

/-- The symbol whose name stands at an offset of a file; of several, the last. -/
def declaredAt? (file : Path) (offset : Int) : Option Symbol :=
  (p.symbols.values.filter fun s => s.file = file ∧ (s.selectionStart : Int) = offset).getLast?

/-- The first call whose name stands at an offset of a file. -/
def callAt? (file : Path) (offset : Int) : Option Call :=
  p.calls.find? fun c => c.file = file ∧ c.offset.map (Int.ofNat ·) = some offset

/-- The symbol that an item stands for. -/
def symbolFor (item : Item) : Except LookupError Symbol := do
  let file ← p.relative fs item.file
  match p.declaredAt? file item.selectionStart with
  | some s => return s
  | none => throw (.undeclared item.file item.selectionStart)

/-- Calls grouped by a symbol, as relations: the symbols come in the order of their first calls, and
those that the project does not know are left out. -/
def relations (key : Call → Option String) (calls : List Call) : List Relation :=
  let groups := Table.groupBy key calls
  groups.entries.filterMap fun (id, group) => do
    let s ← p.symbols.get? (← id)
    return { item := p.itemOf s, offsets := group.filterMap fun c => c.offset.map Int.ofNat }

/-- The declarations that a place refers to: the candidates of a call, or the declaration whose name
stands there. -/
def prepare (file : Path) (offset : Int) : Except LookupError (List Item) := do
  let file ← p.relative fs file
  match p.callAt? file offset with
  | some call => return (call.candidates.filterMap p.symbols.get?).map p.itemOf
  | none => return ((p.declaredAt? file offset).map p.itemOf).toList

/-- The declarations that a declaration calls. -/
def outgoing (item : Item) : Except LookupError (List Relation) := do
  let s ← p.symbolFor fs item
  return p.relations Call.callee? (p.calls.filter fun c => c.caller = s.id ∧ c.callee?.isSome)

/-- The declarations that call a declaration. -/
def incoming (item : Item) : Except LookupError (List Relation) := do
  let s ← p.symbolFor fs item
  return p.relations (fun c => some c.caller) (p.calls.filter fun c => c.callee? = some s.id)

/-- The index of a file's text. -/
def lineIndex (file : Path) : Except LookupError Text.LineIndex := do
  let path ← p.relative fs file
  match p.sources.get? path with
  | some index => return index
  | none => throw (.notIndexed file)

/-- The text of a file. -/
def sourceText (file : Path) : Except LookupError String := do
  return String.ofList (← p.lineIndex fs file).text

/-- Line and character of an offset in a file. -/
def lineColumn (file : Path) (offset : Int) : Except LookupError LineColumn := do
  let (line, character) := (← p.lineIndex fs file).lineAndCharacter offset
  return ⟨line, character⟩

/-- The project as a resolver, in a file system that does not change. -/
def resolver : Resolver Unit :=
  let answer {α : Type} (e : Except LookupError α) : Answer Unit α :=
    ExceptT.mk (pure (e.mapError fun _ => .refused))
  { prepare := fun file offset => answer (p.prepare fs file offset)
    outgoing := fun item => answer (p.outgoing fs item)
    incoming := fun item => answer (p.incoming fs item)
    lineColumn := fun file offset => answer (p.lineColumn fs file offset) }

end Project

end CallAtlas
