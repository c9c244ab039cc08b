import CallAtlas.CallSite
import CallAtlas.Hierarchy.Tree
import CallAtlas.Log

/-!
# Growing a call hierarchy

A hierarchy starts at a call site. The resolver says which declaration is called there, and from
then on each declaration is expanded, depth first, into those related to it. Nothing detects cycles:
a recursive chain goes on until it reaches the bound on the depth or the stack has no room left. In
the latter case the nodes built so far are kept, and those that are cut are marked. Any other
failure abandons the whole tree.

The identifiers count the nodes from one in the order in which they are reached; zero is the call
site.
-/

namespace CallAtlas

/-- This many levels find room on the usual stack. -/
def stackRoom : Nat := 960

/-- What is grown: from which call site, how deep at most, and with room for how many levels on the
stack. The stack knows nothing of the bound: it may give out before the bound is reached. -/
structure HierarchyPlan where
  site : CallSite
  maxDepth : Option Nat := none
  room : Nat

/-- The bound on the depth is not positive. -/
structure DepthError where
  bound : Int
  deriving Repr, DecidableEq

/-- The text of the message. -/
def DepthError.message (e : DepthError) : String :=
  "max_depth must be >= 1, got " ++ toString e.bound

/-- The plan for a call site with a bound on the depth, which has to be positive. -/
def HierarchyPlan.make (site : CallSite) (maxDepth : Option Int) (room : Nat) :
    Except DepthError HierarchyPlan :=
  match maxDepth with
  | none => .ok { site, room }
  | some d => if d < 1 then .error ⟨d⟩ else .ok { site, maxDepth := some d.toNat, room }

namespace CallSite

/-- How messages name a call site. -/
def describe (site : CallSite) : String :=
  site.file.text ++ ":" ++ toString site.position.line ++ ":" ++ toString site.position.character ++
    " (" ++ site.called ++ ")"

end CallSite

/-- What the growth of a tree remembers: the next identifier, whether the stack gave out, the
declaration that is being expanded, and the state of the resolver. -/
structure Growth (σ : Type) where
  nextId : Nat := 1
  exhausted : Bool := false
  current : Option Item := none
  resolver : σ

/-- A step of the growth, which may fail; what it remembers survives the failure. -/
abbrev Grow (σ α : Type) := ExceptT Failure (StateM (Growth σ)) α

namespace Grow

variable {σ α : Type}

/-- Asks the resolver. -/
def ask (question : Answer σ α) : Grow σ α := ExceptT.mk fun g =>
  let (answer, state) := question.run.run g.resolver
  (answer, { g with resolver := state })

/-- The node of a declaration, with the next identifier and without children. -/
def dataOf (r : Resolver σ) (item : Item) : Grow σ NodeData := do
  let id := (← get).nextId
  modify fun g => { g with nextId := id + 1 }
  let start ← ask (r.lineColumn item.file item.spanStart)
  let selection ← ask (r.lineColumn item.file item.selectionStart)
  return {
    id := id
    file := item.file
    name := item.name
    kind := item.kind
    modifiers := item.modifiers
    container := item.container
    range := ⟨start.line + 1, start.character⟩
    selection := ⟨selection.line + 1, selection.character⟩ }

/-- The children of a node, and whether some are missing. Once the stack has given out no further
child is begun. -/
def childrenOf (visit : Item → Grow σ Tree) : List Relation → Grow σ (List Tree × Bool)
  | [] => return ([], false)
  | relation :: rest => do
    if (← get).exhausted then return ([], true)
    else
      let child ← tryCatch (some <$> visit relation.item) fun
        | .stackExhausted => do
          modify fun g => { g with exhausted := true }
          return none
        | .refused => throw .refused
      match child with
      | none => return ([], true)
      | some tree =>
        let (more, missing) ← childrenOf visit rest
        return (tree :: more, missing)

/-- The tree of a declaration at a depth, with room for a number of levels on the stack. -/
def visit (r : Resolver σ) (direction : Direction) (maxDepth : Option Nat) :
    Nat → Nat → Item → Grow σ Tree
  | 0, _, _ => throw .stackExhausted
  | room + 1, depth, item => do
    modify fun g => { g with current := some item }
    let data ← dataOf r item
    let relations ← ask (r.expand direction item)
    let further := !relations.isEmpty
    if maxDepth.any (· ≤ depth) then
      return .node { data with further, truncated := further } []
    else
      let (children, missing) ← childrenOf (visit r direction maxDepth room (depth + 1)) relations
      return .node { data with further, truncated := missing } children

end Grow

/-- The tree of the called declaration below a root for the call site. -/
def CallSite.wrap (site : CallSite) (subtree : Tree) : Tree :=
  let place : LineColumn := ⟨site.position.line, site.position.character⟩
  .node {
    id := 0
    file := site.file
    name := site.called
    kind := subtree.data.kind
    modifiers := subtree.data.modifiers
    container := site.container
    range := place
    selection := place
    further := true } [subtree]

/-- What comes of growing a tree: the tree, if there is one, and what was reported. -/
structure Growing where
  tree : Option Tree
  logs : List LogEntry := []

namespace HierarchyPlan

variable {σ : Type}

/-- The part of the program that reports on hierarchies. -/
def logSource : String := "callscope.hierarchy"

/-- An entry about hierarchies. -/
def entry (level : LogLevel) (message : String) : LogEntry := ⟨level, logSource, message⟩

/-- What is reported of the growth below a declaration, given how it ended and what it remembered at
the end. -/
def growing (plan : HierarchyPlan) (direction : Direction) (outcome : Except Failure Tree)
    (g : Growth σ) : Growing :=
  let site := plan.site.describe
  match outcome with
  | .error .stackExhausted =>
    ⟨none, [entry .warning ("Call stack exhausted before " ++ site ++ " could be expanded")]⟩
  | .error .refused =>
    let current := (g.current.map Item.describe).getD "<none>"
    ⟨none, [entry .error ("Abandoned " ++ direction.text ++ " call hierarchy of " ++ site ++
      " while expanding " ++ current)]⟩
  | .ok subtree =>
    let logs := if g.exhausted then
        [entry .warning
          (direction.capitalised ++ " call hierarchy of " ++ site ++ " truncated after " ++
          toString (g.nextId - 1) ++ " node(s): call stack exhausted")]
      else []
    ⟨some (plan.site.wrap subtree), logs⟩

/-- Grows the tree below a declaration. -/
def growFrom (plan : HierarchyPlan) (r : Resolver σ) (direction : Direction)
    (item : Item) (state : σ) :
    Growing × σ :=
  let (outcome, g) :=
    (Grow.visit r direction plan.maxDepth plan.room 1 item).run.run { resolver := state }
  (plan.growing direction outcome g, g.resolver)

/-- What is reported when the call site cannot be resolved. -/
def unresolved (plan : HierarchyPlan) : Growing :=
  ⟨none, [entry .error ("Could not resolve call site " ++ plan.site.describe)]⟩

/-- What is reported when nothing is declared for the call site. -/
def undeclared (plan : HierarchyPlan) : Growing :=
  ⟨none, [entry .info ("No callable declaration found for " ++ plan.site.describe)]⟩

/-- That a declaration was chosen among several is reported first. -/
def chosen (plan : HierarchyPlan) (item : Item) (others : List Item)
    (growing : Growing) : Growing :=
  let choice :=
    if others.isEmpty then []
    else
      [entry .info (toString (others.length + 1) ++ " candidate declarations for " ++
        plan.site.describe ++ ", using " ++ item.describe)]
  ⟨growing.tree, choice ++ growing.logs⟩

/-- Grows the tree of a call site: the first declaration that the resolver reports is the one
called. -/
def grow (plan : HierarchyPlan) (r : Resolver σ) (direction : Direction)
    (state : σ) : Growing × σ :=
  let (answer, state) := (r.prepare plan.site.file plan.site.position.start).run.run state
  match answer with
  | .error _ => (plan.unresolved, state)
  | .ok [] => (plan.undeclared, state)
  | .ok (item :: others) =>
    let (growing, state) := plan.growFrom r direction item state
    (plan.chosen item others growing, state)

/-- The same for a plan that is carried out again and again. What was remembered of one tree is
still there when the next is begun, and it is forgotten only after a declaration was found. Failures
are caught where the tree is begun. -/
def build (plan : HierarchyPlan) (r : Resolver σ) (direction : Direction) : Grow σ Growing := do
  let answer ← tryCatch (Except.ok <$> Grow.ask (r.prepare plan.site.file plan.site.position.start))
    fun e => return .error e
  match answer with
  | .error _ => return plan.unresolved
  | .ok [] => return plan.undeclared
  | .ok (item :: others) =>
    modify fun g => { g with nextId := 1, exhausted := false, current := none }
    let outcome ← tryCatch (Except.ok <$> Grow.visit r direction plan.maxDepth plan.room 1 item)
      fun e => return .error e
    return plan.chosen item others (plan.growing direction outcome (← get))

end HierarchyPlan

end CallAtlas
