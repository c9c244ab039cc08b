import CallAtlas.Source.Tree
import Mathlib

/-!
# Where definitions stand in a syntax tree

A place in a syntax tree has an address: the numbers of the parts to go to, one after the other,
from the root. So equal definitions at different places are told apart. Addresses are ordered as a
walk meets them, a node before its parts and earlier parts before later ones, which is the
lexicographic order.

- `Node.definitionPlaces` lists the addresses of all definitions, in this order
  (`Node.pairwise_definitionPlaces`) and with none missing (`Node.mem_definitionPlaces_iff`);
- `Node.Encloses` says which definition is the innermost around a place, and either there is one or
  there is no definition around it at all (`Node.exists_encloses_or`).
-/

namespace CallAtlas.Source.Node

/-- The parts of a node are smaller. -/
theorem sizeOf_lt_of_mem_parts {tree part : Node} (h : part ∈ tree.parts) :
    sizeOf part < sizeOf tree := by
  cases tree with
  | name => cases h
  | imports => cases h
  | member receiver id extent =>
    obtain rfl := List.mem_singleton.mp h
    simp
    omega
  | call callee arguments extent =>
    rcases List.mem_cons.mp h with rfl | h
    · simp
      omega
    · have hlt := List.sizeOf_lt_of_mem h
      simp
      omega
  | definition head parts extent =>
    have hlt := List.sizeOf_lt_of_mem (show part ∈ parts from h)
    simp
    omega
  | other parts extent =>
    have hlt := List.sizeOf_lt_of_mem (show part ∈ parts from h)
    simp
    omega

/-- Induction on a tree by way of its parts, whatever kind of node it is. -/
theorem induction_on_parts {motive : Node → Prop}
    (step : ∀ tree, (∀ part ∈ tree.parts, motive part) → motive tree)
    (tree : Node) : motive tree :=
  step tree fun part _ => induction_on_parts step part
termination_by sizeOf tree
decreasing_by exact sizeOf_lt_of_mem_parts ‹_›

/-! ## Addresses -/

/-- The node at an address. -/
def partAt? : Node → List Nat → Option Node
  | tree, [] => some tree
  | tree, i :: rest => tree.parts[i]?.bind fun part => partAt? part rest

theorem partAt?_cons {tree part : Node} {i : Nat} (h : tree.parts[i]? = some part)
    (rest : List Nat) :
    tree.partAt? (i :: rest) = part.partAt? rest := by
  rw [partAt?, h, Option.bind_some]

theorem partAt?_append (tree : Node) (a b : List Nat) :
    tree.partAt? (a ++ b) = (tree.partAt? a).bind fun node => node.partAt? b := by
  induction a generalizing tree with
  | nil => rfl
  | cons i a ih =>
    rw [List.cons_append, partAt?, partAt?, Option.bind_assoc]
    exact Option.bind_congr fun part _ => ih part

/-- A node is a definition. -/
def IsDefinition (node : Node) : Prop := ∃ head parts extent, node = .definition head parts extent

/-- A definition stands at an address. -/
def DefinitionAt (tree : Node) (a : List Nat) : Prop :=
  ∃ node, tree.partAt? a = some node ∧ node.IsDefinition

theorem definitionAt_nil {tree : Node} : tree.DefinitionAt [] ↔ tree.IsDefinition := by
  constructor
  · rintro ⟨node, hnode, hdefinition⟩
    cases hnode
    exact hdefinition
  · exact fun h => ⟨tree, rfl, h⟩

theorem definitionAt_cons_iff {tree : Node} {i : Nat} {rest : List Nat} :
    tree.DefinitionAt (i :: rest) ↔ ∃ part, tree.parts[i]? = some part ∧
      part.DefinitionAt rest := by
  constructor
  · rintro ⟨node, hnode, hdefinition⟩
    obtain ⟨part, hpart, hnode⟩ := Option.bind_eq_some_iff.mp hnode
    exact ⟨part, hpart, node, hnode, hdefinition⟩
  · rintro ⟨part, hpart, node, hnode, hdefinition⟩
    exact ⟨node, (partAt?_cons hpart rest).trans hnode, hdefinition⟩

/-! ## All definitions -/

mutual

/-- The addresses of the definitions in a tree, in the order of the walk. -/
def definitionPlaces : Node → List (List Nat)
  | .name _ _ | .imports _ _ => []
  | .member receiver _ _ => (definitionPlaces receiver).map (0 :: ·)
  | .call callee arguments _ =>
    (definitionPlaces callee).map (0 :: ·) ++ definitionPlacesFrom 1 arguments
  | .definition _ parts _ => [] :: definitionPlacesFrom 0 parts
  | .other parts _ => definitionPlacesFrom 0 parts

/-- The addresses of the definitions in several parts that are numbered from the given number on. -/
def definitionPlacesFrom (i : Nat) : List Node → List (List Nat)
  | [] => []
  | part :: rest => (definitionPlaces part).map (i :: ·) ++ definitionPlacesFrom (i + 1) rest

end

/-- A definition stands before all that it contains. -/
theorem definitionPlaces_of_isDefinition {tree : Node} (h : tree.IsDefinition) :
    tree.definitionPlaces = [] :: definitionPlacesFrom 0 tree.parts := by
  obtain ⟨head, parts, extent, rfl⟩ := h
  rw [definitionPlaces, Node.parts]

theorem definitionPlaces_of_not_isDefinition {tree : Node} (h : ¬ tree.IsDefinition) :
    tree.definitionPlaces = definitionPlacesFrom 0 tree.parts := by
  cases tree with
  | definition head parts extent => exact absurd ⟨head, parts, extent, rfl⟩ h
  | name => rfl
  | imports => rfl
  | member receiver id extent =>
    rw [definitionPlaces, Node.parts, definitionPlacesFrom, definitionPlacesFrom, List.append_nil]
  | call callee arguments extent => rw [definitionPlaces, Node.parts, definitionPlacesFrom]
  | other parts extent => rw [definitionPlaces, Node.parts]

theorem mem_definitionPlacesFrom_iff {parts : List Node} {i : Nat} {a : List Nat} :
    a ∈ definitionPlacesFrom i parts ↔
      ∃ j part rest, parts[j]? = some part ∧ a = (i + j) :: rest ∧
      rest ∈ part.definitionPlaces := by
  induction parts generalizing i with
  | nil => simp [definitionPlacesFrom]
  | cons first parts ih =>
    rw [definitionPlacesFrom, List.mem_append, List.mem_map, ih]
    constructor
    · rintro (⟨rest, hrest, rfl⟩ | ⟨j, part, rest, hpart, rfl, hrest⟩)
      · exact ⟨0, first, rest, rfl, rfl, hrest⟩
      · exact ⟨j + 1, part, rest, hpart, by rw [Nat.add_right_comm, Nat.add_assoc], hrest⟩
    · rintro ⟨j, part, rest, hpart, rfl, hrest⟩
      cases j with
      | zero =>
        cases hpart
        exact .inl ⟨rest, hrest, rfl⟩
      | succ j =>
        exact .inr ⟨j, part, rest, hpart, by rw [Nat.add_right_comm, Nat.add_assoc], hrest⟩

/-- **No definition is missing**, at whatever depth and in whatever part of a tree. -/
theorem mem_definitionPlaces_iff {tree : Node} {a : List Nat} :
    a ∈ tree.definitionPlaces ↔ tree.DefinitionAt a := by
  induction tree using induction_on_parts generalizing a with
  | step tree ih =>
  have hparts : a ∈ definitionPlacesFrom 0 tree.parts ↔ a ≠ [] ∧ tree.DefinitionAt a := by
    rw [mem_definitionPlacesFrom_iff]
    constructor
    · rintro ⟨j, part, rest, hpart, rfl, hrest⟩
      rw [Nat.zero_add, definitionAt_cons_iff]
      exact ⟨List.cons_ne_nil _ _, part, hpart, (ih part (List.mem_of_getElem? hpart)).mp hrest⟩
    · rintro ⟨hne, h⟩
      obtain ⟨i, rest, rfl⟩ := List.exists_cons_of_ne_nil hne
      obtain ⟨part, hpart, h⟩ := definitionAt_cons_iff.mp h
      exact ⟨i, part, rest,
        hpart, by rw [Nat.zero_add], (ih part (List.mem_of_getElem? hpart)).mpr h⟩
  by_cases hdefinition : tree.IsDefinition
  · rw [definitionPlaces_of_isDefinition hdefinition, List.mem_cons, hparts]
    by_cases hnil : a = []
    · simp [hnil, definitionAt_nil, hdefinition]
    · simp [hnil]
  · rw [definitionPlaces_of_not_isDefinition hdefinition, hparts, and_iff_right_iff_imp]
    rintro h rfl
    exact hdefinition (definitionAt_nil.mp h)

theorem pairwise_definitionPlacesFrom {parts : List Node}
    (h : ∀ part ∈ parts, part.definitionPlaces.Pairwise (· < ·)) (i : Nat) :
    (definitionPlacesFrom i parts).Pairwise (· < ·) := by
  induction parts generalizing i with
  | nil => exact .nil
  | cons first parts ih =>
    obtain ⟨hfirst, hparts⟩ := List.forall_mem_cons.mp h
    rw [definitionPlacesFrom, List.pairwise_append, List.pairwise_map]
    refine ⟨hfirst.imp fun hlt => List.cons_lt_cons_self.mpr hlt, ih hparts (i + 1), ?_⟩
    intro a ha b hb
    obtain ⟨rest, -, rfl⟩ := List.mem_map.mp ha
    obtain ⟨j, part, rest', -, rfl, -⟩ := mem_definitionPlacesFrom_iff.mp hb
    exact List.cons_lt_cons_iff.mpr (.inl (by omega))

/-- **Definitions come in the order of their addresses**, and none twice. -/
theorem pairwise_definitionPlaces (tree : Node) : tree.definitionPlaces.Pairwise (· < ·) := by
  induction tree using induction_on_parts with
  | step tree ih =>
  have hparts := pairwise_definitionPlacesFrom ih 0
  by_cases hdefinition : tree.IsDefinition
  · rw [definitionPlaces_of_isDefinition hdefinition, List.pairwise_cons]
    refine ⟨fun a ha => ?_, hparts⟩
    obtain ⟨j, part, rest, -, rfl, -⟩ := mem_definitionPlacesFrom_iff.mp ha
    exact List.nil_lt_cons _ _
  · rw [definitionPlaces_of_not_isDefinition hdefinition]
    exact hparts

/-! ## The innermost definition around a place -/

/-- The definition at the first address is the innermost around the second. -/
structure Encloses (tree : Node) (b a : List Nat) : Prop where
  definition : tree.DefinitionAt b
  above : b <+: a ∧ b ≠ a
  innermost : ∀ c, c <+: a → c ≠ a → tree.DefinitionAt c → c <+: b

/-- What is above comes before. -/
theorem Encloses.lt {tree : Node} {a b : List Nat} (h : tree.Encloses b a) : b < a := by
  obtain ⟨⟨rest, rfl⟩, hne⟩ := h.above
  cases rest with
  | nil => exact absurd (List.append_nil b).symm hne
  | cons i rest =>
    have hlt : b ++ [] < b ++ i :: rest := List.append_left_lt (List.nil_lt_cons i rest)
    rwa [List.append_nil] at hlt

/-- Around a place there is an innermost definition, or none at all. Induction on the address from
its end, so that the innermost definition is looked for first. -/
theorem exists_encloses_or (tree : Node) (a : List Nat) :
    (∃ b, tree.Encloses b a) ∨ ∀ c, c <+: a → c ≠ a → ¬ tree.DefinitionAt c := by
  induction a using List.reverseRecOn with
  | nil => exact .inr fun c hc hne => absurd (List.prefix_nil.mp hc) hne
  | append_singleton a i ih =>
    have hlonger : a ≠ a ++ [i] := by simp
    by_cases hdefinition : tree.DefinitionAt a
    · refine .inl ⟨a, hdefinition, ⟨List.prefix_append _ _, hlonger⟩, fun c hc hne _ => ?_⟩
      exact (List.prefix_concat_iff.mp hc).resolve_left hne
    · have hbelow {c : List Nat} (hc : c <+: a ++ [i]) (hne : c ≠ a ++ [i])
          (hat : tree.DefinitionAt c) :
          c <+: a ∧ c ≠ a :=
        ⟨(List.prefix_concat_iff.mp hc).resolve_left hne, fun heq => hdefinition (heq ▸ hat)⟩
      rcases ih with ⟨b, hb⟩ | hnone
      · refine .inl ⟨b, hb.definition, ⟨hb.above.1.trans (List.prefix_append _ _), ?_⟩,
          fun c hc hne hat => ?_⟩
        · rintro rfl
          exact absurd (hb.above.1.length_le) (by simp)
        · exact hb.innermost c (hbelow hc hne hat).1 (hbelow hc hne hat).2 hat
      · exact .inr fun c hc hne hat => hnone c (hbelow hc hne hat).1 (hbelow hc hne hat).2 hat

end CallAtlas.Source.Node
