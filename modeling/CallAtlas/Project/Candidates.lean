import CallAtlas.Symbol
import CallAtlas.Table

/-!
# What a called name may refer to

A call names its callee by a bare name or by a dotted one. `candidates` lists the symbols that it
may refer to, the best first: those with that name in the named module, or in the module of the call
for a bare name; failing that, all symbols with that name, provided that they share one qualified
name, as a module and its stub do.
-/

namespace CallAtlas

/-- The symbols that calls can refer to, by module and name. -/
abbrev SymbolIndex := Table (String × String) (List Symbol)

/-- The index of the symbols of a project. -/
def symbolIndex (symbols : List Symbol) : SymbolIndex :=
  Table.groupBy (fun s => (s.inModule, s.name)) (symbols.filter (·.kind.isResolvable))

/-- The callee of a call whose target is not a plain dotted name. -/
def unknownCallee : String := "<unknown>"

/-- The rank of a symbol among candidates: functions before classes, implementations before
stubs. -/
def candidateRank (s : Symbol) : Nat :=
  (if s.kind.isCallable then 0 else 2) + (if s.isStub then 1 else 0)

/-- Candidates from best to worst; equals keep their order. -/
def rankCandidates (symbols : List Symbol) : List Symbol :=
  symbols.mergeSort fun a b => candidateRank a ≤ candidateRank b

/-- A dotted name cut at its last dot; a bare name has no module. -/
def splitCallee (raw : String) : Option String × String :=
  let cs := raw.toList
  let name := (cs.reverse.takeWhile (· ≠ '.')).reverse
  if name.length = cs.length then (none, raw)
  else (some (String.ofList (cs.take (cs.length - name.length - 1))), String.ofList name)

/-- All symbols with a name, if they share one qualified name. -/
def globalCandidates (index : SymbolIndex) (name : String) : List Symbol :=
  let found := (index.entries.filter (·.1.2 == name)).flatMap Prod.snd
  match found with
  | [] => []
  | s :: _ => if found.all (·.qualname == s.qualname) then found else []

/-- The symbols that a call in a module may refer to, the best first. -/
def candidates (index : SymbolIndex) (module raw : String) : List Symbol :=
  if raw = unknownCallee then []
  else
    let (named, name) := splitCallee raw
    match index.get? (named.getD module, name) with
    | some found => rankCandidates found
    | none => rankCandidates (globalCandidates index name)

end CallAtlas
