import CallAtlas.Hierarchy.Resolver

/-!
# Call hierarchies as trees

A node of a hierarchy stands for a declaration, or for the call site itself at the root. Its
children are the declarations related to it; `further` says whether the resolver reported any, and
`truncated` whether some of those are missing.

- `Tree.preorder` lists a tree from the root down, `Tree.walk` does so with a stack of the trees
  still to visit;
- `Tree.find?` gives the first node with an identifier;
- `Tree.copyWithin` copies a tree, all of it or within a depth, with a list of nodes whose children
  are still missing.
-/

namespace CallAtlas

/-- What a node of a hierarchy holds. Lines count from one. -/
structure NodeData where
  id : Int
  file : Path
  name : String
  kind : String
  range : LineColumn
  selection : LineColumn
  modifiers : String := ""
  container : Option String := none
  further : Bool := false
  truncated : Bool := false
  deriving Repr, DecidableEq, Inhabited

/-- A call hierarchy. -/
inductive Tree where
  | node (data : NodeData) (children : List Tree)
  deriving Repr, Inhabited

namespace Tree

/-- The data of the root. -/
def data : Tree → NodeData
  | .node d _ => d

/-- The trees below the root. -/
def children : Tree → List Tree
  | .node _ cs => cs

/-- The identifier of the root. -/
def id (t : Tree) : Int := t.data.id

mutual

/-- The number of nodes. -/
def size : Tree → Nat
  | .node _ cs => sizeOfAll cs + 1

/-- The number of nodes of several trees. -/
def sizeOfAll : List Tree → Nat
  | [] => 0
  | t :: rest => size t + sizeOfAll rest

end

mutual

/-- The subtrees of a tree, each before those below it, from left to right. -/
def preorder : Tree → List Tree
  | .node d cs => .node d cs :: preorderOfAll cs

/-- The subtrees of several trees, one tree after the other. -/
def preorderOfAll : List Tree → List Tree
  | [] => []
  | t :: rest => preorder t ++ preorderOfAll rest

end

theorem sizeOfAll_append (ts us : List Tree) :
    sizeOfAll (ts ++ us) = sizeOfAll ts + sizeOfAll us := by
  induction ts with
  | nil => simp [sizeOfAll]
  | cons t ts ih => simp [sizeOfAll, ih, Nat.add_assoc]

theorem sizeOfAll_children_lt (t : Tree) : sizeOfAll t.children < t.size := by
  cases t with
  | node d cs => simp [children, size]

theorem sizeOfAll_reverse (ts : List Tree) : sizeOfAll ts.reverse = sizeOfAll ts := by
  induction ts with
  | nil => rfl
  | cons t ts ih =>
    rw [List.reverse_cons, sizeOfAll_append, ih]
    simp only [sizeOfAll]
    omega

/-- A walk under way: the subtrees it has met, and a stack of the trees it has still to visit, the
next one last. -/
structure Walking where
  met : Array Tree
  stack : Array Tree

namespace Walking

/-- One turn of a walk: it meets the tree on top of the stack, and the trees below this one take its
place, the first of them on top. There is no turn if the stack is empty. -/
def turn (s : Walking) : Option Walking :=
  s.stack.back?.map fun t => { met := s.met.push t, stack := s.stack.pop ++ t.children.reverse }

theorem turn_eq_some_iff {s next : Walking} :
    s.turn = some next ↔
      ∃ (rest : Array Tree) (t : Tree), s.stack = rest.push t ∧
      next = ⟨s.met.push t, rest ++ t.children.reverse⟩ := by
  rw [turn, Option.map_eq_some_iff]
  constructor
  · rintro ⟨t, htop, rfl⟩
    obtain ⟨rest, hstack⟩ := Array.back?_eq_some_iff.mp htop
    exact ⟨rest, t, hstack, by rw [hstack, Array.pop_push]⟩
  · rintro ⟨rest, t, hstack, rfl⟩
    exact ⟨t, Array.back?_eq_some_iff.mpr ⟨rest, hstack⟩, by rw [hstack, Array.pop_push]⟩

/-- The number of nodes below and at the trees on the stack. -/
def work (s : Walking) : Nat := sizeOfAll s.stack.toList

/-- A turn is done with one node. -/
theorem work_of_turn {s next : Walking} (h : s.turn = some next) : s.work = next.work + 1 := by
  obtain ⟨rest, t, hstack, rfl⟩ := turn_eq_some_iff.mp h
  cases t with
  | node d cs =>
    simp only [work, hstack, Array.toList_push, Array.toList_appendList, sizeOfAll_append,
      sizeOfAll_reverse, sizeOfAll, size, children]
    omega

/-- Takes turns until there is none, and gives the subtrees that were met. -/
def finish (s : Walking) : Array Tree :=
  match _h : s.turn with
  | none => s.met
  | some next => finish next
termination_by s.work
decreasing_by
  rw [work_of_turn _h]
  exact Nat.lt_succ_self _

end Walking

/-- The subtrees of a tree in the order of the walk. -/
def walk (t : Tree) : List Tree := (Walking.finish ⟨#[], #[t]⟩).toList

/-- The first subtree with an identifier. -/
def find? (t : Tree) (id : Int) : Option Tree := t.walk.find? (·.id = id)

/-- The number of nodes that a walk meets. -/
def count (t : Tree) : Nat := t.walk.length

/-- The subtree at the end of a path, which gives the number of a child at each step. -/
def descend : Tree → List Nat → Option Tree
  | t, [] => some t
  | t, step :: path => (t.children[step]?).bind fun child => child.descend path

/-- The tree with the subtree at the end of a path changed. -/
def modifyAt (f : Tree → Tree) : List Nat → Tree → Tree
  | [], t => f t
  | step :: path, .node d cs => .node d (cs.modify step (modifyAt f path))

/-- The root of a tree without its children. -/
def bare (t : Tree) : Tree := .node t.data []

/-- The tree with one more child, behind the others. -/
def withChild (t child : Tree) : Tree := .node t.data (t.children ++ [child])

/-- A node whose children have yet to be copied: the subtree, the path to the copy of its root, and
the level of both. -/
structure Pending where
  source : Tree
  path : List Nat
  level : Nat

/-- A copy in the making, with the nodes whose children it still lacks, the one that was added last
first. -/
structure Copying where
  copy : Tree
  pending : List Pending

namespace Copying

/-- Adds a child of a pending node to the copy of this node. The child comes without its children
and is pending itself.
-/
def clone (p : Pending) (s : Copying) (child : Tree) : Copying where
  copy := s.copy.modifyAt (·.withChild child.bare) p.path
  pending :=
    let before := (s.copy.descend p.path).elim 0 (·.children.length)
    ⟨child, p.path ++ [before], p.level + 1⟩ :: s.pending

/-- The number of nodes below and at the pending ones. -/
def work (s : Copying) : Nat := sizeOfAll (s.pending.map Pending.source)

theorem work_foldl_clone (p : Pending) (s : Copying) (children : List Tree) :
    (children.foldl (clone p) s).work = sizeOfAll children + s.work := by
  induction children generalizing s with
  | nil => simp [sizeOfAll]
  | cons child children ih =>
    rw [List.foldl_cons, ih]
    simp only [work, clone, List.map_cons, sizeOfAll]
    omega

/-- Copies the children of the pending nodes until none is left. From the given depth on a node gets
no children. -/
def finish (depth : Option Int) : Copying → Tree
  | ⟨copy, []⟩ => copy
  | ⟨copy, p :: rest⟩ =>
    if depth.any fun (d : Int) => d ≤ p.level then finish depth ⟨copy, rest⟩
    else finish depth (p.source.children.foldl (clone p) ⟨copy, rest⟩)
termination_by s => s.work
decreasing_by
  · have hsize := sizeOfAll_children_lt p.source
    simp only [work, List.map_cons, sizeOfAll]
    omega
  · have hsize := sizeOfAll_children_lt p.source
    rw [work_foldl_clone]
    simp only [work, List.map_cons, sizeOfAll]
    omega

end Copying

/-- A copy of a tree within a depth below its root; without a depth, of all of it. -/
def copyWithin (depth : Option Int) (t : Tree) : Tree :=
  Copying.finish depth ⟨t.bare, [⟨t, [], 0⟩]⟩

/-- A copy of a tree down to a level below its root. -/
def copy (level : Option Nat) (t : Tree) : Tree := t.copyWithin (level.map Int.ofNat)

end Tree

/-- No node of a tree has the identifier; `place` names the tree in messages. -/
structure NodeNotFound where
  id : Int
  place : String
  deriving Repr, DecidableEq

/-- The text of the message. -/
def NodeNotFound.message (e : NodeNotFound) : String :=
  "node id " ++ toString e.id ++ " was not found in " ++ e.place

/-- The first subtree with an identifier, or the reason why there is none. -/
def Tree.find (t : Tree) (id : Int) (place : String := "tree") : Except NodeNotFound Tree :=
  match t.find? id with
  | some found => .ok found
  | none => .error ⟨id, place⟩

end CallAtlas
