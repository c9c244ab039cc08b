import CallAtlas.Proofs.Tree
import Mathlib.Data.List.Induction

/-!
# Copies of call hierarchies

A copy is made with a list of nodes whose children it still lacks. Such a node stands in the copy
without children, and whatever happens to the other nodes of the list, it ends up with as much of
its source as the depth allows (`Tree.Copying.finish_pending`): it can be completed at once, before
the others (the induction is on the source, and its children are completed from the last to the
first, in the order of the list).

- `Tree.replaceAt`: putting a subtree in the place of another. All that the loop does to the copy is
  of this kind.
- `Tree.cut`: the tree without what lies below a level, by recursion.
- `Tree.copyWithin_exact`: a copy is the tree, or the tree cut at the depth.
-/

namespace CallAtlas.Tree

/-! ## Subtrees in the place of others -/

/-- The tree with another subtree at the end of a path. -/
def replaceAt (t : Tree) (path : List Nat) (new : Tree) : Tree := t.modifyAt (fun _ => new) path

@[simp] theorem replaceAt_nil (t new : Tree) : t.replaceAt [] new = new := rfl

theorem replaceAt_cons (d : NodeData) (cs : List Tree) (step : Nat) (path : List Nat) (new : Tree) :
    (Tree.node d cs).replaceAt (step :: path) new =
      .node d (cs.modify step (·.replaceAt path new)) := rfl

theorem descend_cons (d : NodeData) (cs : List Tree) (step : Nat) (path : List Nat) :
    (Tree.node d cs).descend (step :: path) = (cs[step]?).bind (·.descend path) := rfl

variable {t n : Tree} {path : List Nat}

/-- A path that ends in a tree goes through a child of it. -/
theorem exists_of_descend_cons {d : NodeData} {cs : List Tree} {step : Nat}
    (h : (Tree.node d cs).descend (step :: path) = some n) :
    ∃ before c after, cs = before ++ c :: after ∧ step = before.length ∧
      c.descend path = some n := by
  rw [descend_cons] at h
  obtain ⟨c, hc, h⟩ := Option.bind_eq_some_iff.mp h
  obtain ⟨hstep, rfl⟩ := List.getElem?_eq_some_iff.mp hc
  refine ⟨cs.take step, cs[step], cs.drop (step + 1), ?_, ?_, h⟩
  · rw [← List.drop_eq_getElem_cons hstep, List.take_append_drop]
  · rw [List.length_take, Nat.min_eq_left (Nat.le_of_lt hstep)]

theorem modify_append_cons (f : Tree → Tree) (before after : List Tree) (c : Tree) :
    (before ++ c :: after).modify before.length f = before ++ f c :: after := by
  induction before with
  | nil => rfl
  | cons first before ih =>
    rw [List.cons_append, List.length_cons, List.modify_succ_cons, ih, List.cons_append]

theorem descend_concat (t : Tree) (path : List Nat) (step : Nat) :
    t.descend (path ++ [step]) = (t.descend path).bind fun n => n.children[step]? := by
  induction path generalizing t with
  | nil =>
    rw [List.nil_append, descend, descend, Option.bind_some]
    simp [descend]
  | cons first path ih =>
    cases t with
    | node d cs =>
      rw [List.cons_append, descend_cons, descend_cons]
      cases cs[first]? with
      | none => rfl
      | some c => exact ih c

/-- A change to a subtree puts the changed one in its place. -/
theorem modifyAt_eq_replaceAt (h : t.descend path = some n) (f : Tree → Tree) :
    t.modifyAt f path = t.replaceAt path (f n) := by
  induction path generalizing t with
  | nil =>
    cases h
    rfl
  | cons step path ih =>
    cases t with
    | node d cs =>
      obtain ⟨before, c, after, rfl, rfl, hc⟩ := exists_of_descend_cons h
      rw [modifyAt, replaceAt_cons, modify_append_cons, modify_append_cons, ih hc]

theorem descend_replaceAt (h : t.descend path = some n) (new : Tree) :
    (t.replaceAt path new).descend path = some new := by
  induction path generalizing t with
  | nil => rfl
  | cons step path ih =>
    cases t with
    | node d cs =>
      obtain ⟨before, c, after, rfl, rfl, hc⟩ := exists_of_descend_cons h
      rw [replaceAt_cons, modify_append_cons, descend_cons,
        List.getElem?_append_right (Nat.le_refl _), Nat.sub_self,
        List.getElem?_cons_zero, Option.bind_some, ih hc]

theorem replaceAt_replaceAt (t : Tree) (path : List Nat) (first second : Tree) :
    (t.replaceAt path first).replaceAt path second = t.replaceAt path second := by
  induction path generalizing t with
  | nil => rfl
  | cons step path ih =>
    cases t with
    | node d cs =>
      rw [replaceAt_cons, replaceAt_cons, replaceAt_cons, List.modify_modify_eq]
      congr 2
      exact funext fun c => ih c

theorem replaceAt_self (h : t.descend path = some n) : t.replaceAt path n = t := by
  induction path generalizing t with
  | nil => exact (Option.some.inj h).symm
  | cons step path ih =>
    cases t with
    | node d cs =>
      obtain ⟨before, c, after, rfl, rfl, hc⟩ := exists_of_descend_cons h
      rw [replaceAt_cons, modify_append_cons, ih hc]

/-- To put a subtree in the place of a child is to put the node with that child in the place of the
node. -/
theorem replaceAt_concat {d : NodeData} {before after : List Tree} {c : Tree}
    (h : t.descend path = some (.node d (before ++ c :: after))) (new : Tree) :
    t.replaceAt (path ++ [before.length]) new =
      t.replaceAt path (.node d (before ++ new :: after)) := by
  induction path generalizing t with
  | nil =>
    cases h
    rw [List.nil_append, replaceAt_cons, modify_append_cons]
    rfl
  | cons step path ih =>
    cases t with
    | node d' cs =>
      obtain ⟨front, child, back, rfl, rfl, hchild⟩ := exists_of_descend_cons h
      rw [List.cons_append, replaceAt_cons, replaceAt_cons, modify_append_cons,
        modify_append_cons, ih hchild]

/-! ## Trees without what lies deep -/

/-- The tree without what lies more than some levels below its root. -/
def cut : Nat → Tree → Tree
  | 0, t => t.bare
  | levels + 1, .node d cs => .node d (cs.map (cut levels))

theorem cut_zero (t : Tree) : t.cut 0 = t.bare := by cases t; rfl

/-- The nodes that are left are those at most so many levels below the root, with what they hold. -/
theorem descend_cut (levels : Nat) (t : Tree) (path : List Nat) :
    ((t.cut levels).descend path).map data = if path.length ≤ levels then (t.descend path).map data
      else none := by
  induction path generalizing levels t with
  | nil =>
    cases levels with
    | zero => cases t; rfl
    | succ levels => cases t; rfl
  | cons step path ih =>
    cases t with
    | node d cs =>
      cases levels with
      | zero =>
        rw [if_neg (by simp)]
        rfl
      | succ levels =>
        rw [cut, descend_cons, descend_cons, List.getElem?_map, List.length_cons]
        cases cs[step]? with
        | none => simp
        | some c => simpa using ih levels c

theorem cut_cut (a b : Nat) (t : Tree) : (t.cut a).cut b = t.cut (min a b) := by
  induction b generalizing a t with
  | zero => cases a <;> cases t <;> rfl
  | succ b ih =>
    cases t with
    | node d cs =>
      cases a with
      | zero => rw [Nat.zero_min]; rfl
      | succ a =>
        rw [cut, cut, Nat.add_min_add_right, cut, List.map_map]
        congr 1
        exact List.map_congr_left fun c _ => ih a c

namespace Copying

/-- What a copy within a depth has of a subtree at a level. -/
def kept (depth : Option Int) (level : Nat) (t : Tree) : Tree :=
  depth.elim t fun d => t.cut (d - level).toNat

variable {depth : Option Int} {level : Nat}

theorem kept_of_reached (h : (depth.any fun (d : Int) => d ≤ level) = true) (t : Tree) :
    kept depth level t = t.bare := by
  cases depth with
  | none => cases h
  | some d =>
    have hle : d ≤ level := by simpa using h
    rw [kept, Option.elim_some, Int.toNat_of_nonpos (by omega), cut_zero]

theorem kept_of_not_reached (h : ¬ (depth.any fun (d : Int) => d ≤ level) = true) (d : NodeData)
    (cs : List Tree) :
    kept depth level (.node d cs) = .node d (cs.map (kept depth (level + 1))) := by
  cases depth with
  | none =>
    have hall : kept none (level + 1) = fun t => t := rfl
    rw [hall, List.map_id']
    rfl
  | some bound =>
    have hlt : level < bound := by simpa using h
    have hlevels : (bound - level).toNat = (bound - (level + 1 : Nat)).toNat + 1 := by omega
    rw [kept, Option.elim_some, hlevels, cut]
    rfl

/-! ## The loop -/

/-- The children of a pending node, as they become pending themselves: the last one first. -/
def children (path : List Nat) (level : Nat) (cs : List Tree) : List Pending :=
  (cs.mapIdx fun i c => ⟨c, path ++ [i], level + 1⟩).reverse

theorem children_concat (path : List Nat) (level : Nat) (cs : List Tree) (c : Tree) :
    children path level (cs ++ [c]) =
      ⟨c, path ++ [cs.length], level + 1⟩ :: children path level cs := by
  rw [children, List.mapIdx_concat, List.reverse_append]
  rfl

/-- **What the inner loop does**: the children of a pending node are added without their own, and
become pending. -/
theorem foldl_clone {p : Pending} {d : NodeData} {s : Copying}
    (h : s.copy.descend p.path = some (.node d []))
    (cs : List Tree) :
    cs.foldl (clone p) s =
      ⟨s.copy.replaceAt p.path (.node d (cs.map bare)),
        children p.path p.level cs ++ s.pending⟩ := by
  induction cs using List.reverseRecOn with
  | nil => rw [List.foldl_nil, List.map_nil, replaceAt_self h]; rfl
  | append_singleton cs c ih =>
    have hnode := descend_replaceAt h (.node d (cs.map bare))
    rw [List.foldl_append, ih, List.foldl_cons, List.foldl_nil, clone, modifyAt_eq_replaceAt hnode,
      replaceAt_replaceAt, hnode, Option.elim_some, children_node, List.length_map, children_concat,
      List.map_append]
    rfl

/-- A subtree that is pending is completed as if it were done at once. -/
def Completes (depth : Option Int) (t : Tree) : Prop :=
  ∀ copy path level rest, copy.descend path = some t.bare →
    finish depth ⟨copy, ⟨t, path, level⟩ :: rest⟩ =
      finish depth ⟨copy.replaceAt path (kept depth level t), rest⟩

/-- The children of a node are completed from the last to the first; `back` are those that are
complete. -/
theorem finish_children {front : List Tree} (hfront : ∀ c ∈ front, Completes depth c) {copy : Tree}
    {path : List Nat} {d : NodeData} {back : List Tree}
    (h : copy.descend path = some (.node d (front.map bare ++ back))) (rest : List Pending) :
    finish depth ⟨copy, children path level front ++ rest⟩ =
      finish depth ⟨copy.replaceAt path (.node d (front.map (kept depth (level + 1)) ++ back)),
        rest⟩ := by
  induction front using List.reverseRecOn generalizing copy back with
  | nil =>
    have hsame : copy.replaceAt path (.node d back) = copy := replaceAt_self h
    rw [List.map_nil, List.nil_append, hsame]
    rfl
  | append_singleton front c ih =>
    rw [List.map_append, List.map_singleton, List.append_assoc, List.singleton_append] at h
    have hplace : copy.descend (path ++ [front.length]) = some c.bare := by
      rw [descend_concat, h, Option.bind_some, children_node, ← List.length_map bare,
        List.getElem?_append_right (Nat.le_refl _), Nat.sub_self, List.getElem?_cons_zero]
    rw [children_concat, List.cons_append, hfront c (by simp) _ _ _ _ hplace,
      ← List.length_map bare, replaceAt_concat h,
      ih (fun c hc => hfront c (List.mem_append_left _ hc)) (descend_replaceAt h _),
      replaceAt_replaceAt, List.map_append, List.append_assoc]
    rfl

/-- **Whatever else is pending, a node gets what the depth allows.** -/
theorem finish_pending (depth : Option Int) (t : Tree) : Completes depth t := by
  induction t using induct with
  | node d cs ih =>
    intro copy path level rest h
    rw [finish]
    split
    next hreached => rw [kept_of_reached hreached, replaceAt_self h]
    next hreached =>
      have hnode : (copy.replaceAt path (.node d (cs.map bare))).descend path =
          some (.node d (cs.map bare ++ [])) := by
        rw [List.append_nil, descend_replaceAt h]
      rw [children_node, foldl_clone h]
      dsimp only
      rw [data_node, finish_children ih hnode, replaceAt_replaceAt, List.append_nil,
        kept_of_not_reached hreached]

end Copying

/-! ## Copies -/

theorem copyWithin_eq (depth : Option Int) (t : Tree) :
    t.copyWithin depth = Copying.kept depth 0 t := by
  rw [copyWithin, Copying.finish_pending depth t t.bare [] 0 [] rfl, replaceAt_nil, Copying.finish]

theorem copyWithin_some (d : Int) (t : Tree) : t.copyWithin (some d) = t.cut d.toNat := by
  rw [copyWithin_eq, Copying.kept, Option.elim_some, Int.natCast_zero, Int.sub_zero]

/-- A copy without a level is the tree itself. -/
@[simp] theorem copy_none (t : Tree) : t.copy none = t := by
  rw [copy, Option.map_none, copyWithin_eq]
  rfl

theorem copy_some (level : Nat) (t : Tree) : t.copy (some level) = t.cut level := by
  rw [copy, Option.map_some, copyWithin_some]
  rfl

@[simp] theorem copy_zero (d : NodeData) (cs : List Tree) :
    (Tree.node d cs).copy (some 0) = .node d [] := by
  rw [copy_some, cut_zero]
  rfl

@[simp] theorem copy_succ (level : Nat) (d : NodeData) (cs : List Tree) :
    (Tree.node d cs).copy (some (level + 1)) = .node d (cs.map (copy (some level))) := by
  rw [copy_some, cut]
  congr 1
  exact List.map_congr_left fun c _ => (copy_some level c).symm

/-- **Copies are exact.** A copy without a depth is the tree. A copy within a depth is the tree cut
there, the root alone if the depth is not positive: it has the nodes of the tree that lie at most so
deep, in their places and with all they hold, and no others. A copy of a copy is the copy within the
smaller depth. -/
theorem copyWithin_exact (t : Tree) :
    t.copyWithin none = t ∧
      (∀ d : Int, t.copyWithin (some d) = t.cut d.toNat) ∧
      (∀ n : Nat, t.copyWithin (some (-n)) = t.bare) ∧
      (∀ (d : Int) (path : List Nat), ((t.copyWithin (some d)).descend path).map data =
        if path.length ≤ d.toNat then (t.descend path).map data else none) ∧
      ∀ a b : Nat, (t.copyWithin (some a)).copyWithin (some b) =
        t.copyWithin (some (min a b : Nat)) := by
  refine ⟨copyWithin_eq none t, fun d => copyWithin_some d t, fun n => ?_, fun d path =>
    ?_, fun a b => ?_⟩
  · rw [copyWithin_some, Int.toNat_of_nonpos (by omega), cut_zero]
  · rw [copyWithin_some, descend_cut]
  · simp only [copyWithin_some, Int.toNat_natCast, cut_cut]

end CallAtlas.Tree
