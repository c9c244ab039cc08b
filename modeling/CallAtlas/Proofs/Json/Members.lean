import CallAtlas.Json.Value
import CallAtlas.Proofs.Table
import Mathlib.Data.List.Nodup

/-!
# The members of an object

The members of an object stand in a list. If their names are distinct, a member is found exactly if
it is in the list (`findMember?_eq_some_iff`), and putting one in takes the place of the one with
its name (`perm_insertMember`). A list in which names are repeated has its lasting members, those
that no later one replaces (`lasting`).
-/

namespace CallAtlas.Json

variable {members : List (String × Value)} {name : String} {value : Value}

theorem mem_of_findMember? (h : findMember? members name = some value) :
    (name, value) ∈ members := by
  obtain ⟨member, hmember, rfl⟩ := Option.map_eq_some_iff.mp h
  have hname : member.1 = name := by simpa using List.find?_some hmember
  rw [← hname]
  exact List.mem_of_find?_eq_some hmember

theorem findMember?_eq_none_iff :
    findMember? members name = none ↔ name ∉ members.map Prod.fst := by
  rw [findMember?, Option.map_eq_none_iff, List.find?_eq_none]
  simp only [beq_iff_eq, List.mem_map, not_exists, not_and]

/-- Under distinct names every member is found. -/
theorem findMember?_eq_some_iff (hnodup : (members.map Prod.fst).Nodup) :
    findMember? members name = some value ↔ (name, value) ∈ members := by
  refine ⟨mem_of_findMember?, fun h => ?_⟩
  rw [findMember?, Table.find?_of_nodup_map hnodup (by simp) h]
  rfl

/-- A new name keeps the names distinct. -/
theorem nodup_concat (hnodup : (members.map Prod.fst).Nodup) (hnew : name ∉ members.map Prod.fst)
    (value : Value) :
    ((members ++ [(name, value)]).map Prod.fst).Nodup := by
  rw [List.map_append, List.map_singleton, ← List.concat_eq_append]
  exact hnodup.concat hnew

/-! ## Putting a member in -/

theorem any_name_iff : members.any (·.1 == name) = true ↔ name ∈ members.map Prod.fst := by
  simp only [List.any_eq_true, beq_iff_eq, List.mem_map]

theorem map_fst_replaced (members : List (String × Value)) (name : String) (value : Value) :
    (members.map fun m => if m.1 == name then (name, value) else m).map Prod.fst =
      members.map Prod.fst := by
  rw [List.map_map]
  refine List.map_congr_left fun m _ => ?_
  by_cases hm : m.1 = name
  · simp [hm]
  · simp [hm]

theorem nodup_insertMember (h : (members.map Prod.fst).Nodup) (name : String) (value : Value) :
    ((insertMember members name value).map Prod.fst).Nodup := by
  unfold insertMember
  split
  next => rwa [map_fst_replaced]
  next hnew => exact nodup_concat h (fun hmem => hnew (any_name_iff.mpr hmem)) value

theorem filter_ne_of_not_mem (h : name ∉ members.map Prod.fst) :
    members.filter (fun m => decide (m.1 ≠ name)) = members :=
  List.filter_eq_self.mpr fun m hm => decide_eq_true fun heq => h (List.mem_map.mpr ⟨m, hm, heq⟩)

theorem map_replaced_of_not_mem (h : name ∉ members.map Prod.fst) (value : Value) :
    members.map (fun m => if m.1 == name then (name, value) else m) = members := by
  have hself : ∀ m ∈ members, (if m.1 == name then (name, value) else m) = id m := by
    intro m hm
    have hne : m.1 ≠ name := fun heq => h (List.mem_map.mpr ⟨m, hm, heq⟩)
    simp [hne]
  rw [List.map_congr_left hself, List.map_id]

/-- Putting a member in takes the place of the one with its name. -/
theorem perm_insertMember (h : (members.map Prod.fst).Nodup) (name : String) (value : Value) :
    (insertMember members name value).Perm
      (members.filter (fun m => decide (m.1 ≠ name)) ++ [(name, value)]) := by
  unfold insertMember
  split
  next hthere =>
    obtain ⟨member, hmember, rfl⟩ := List.mem_map.mp (any_name_iff.mp hthere)
    obtain ⟨before, after, rfl⟩ := List.append_of_mem hmember
    -- the name stands there once
    rw [List.map_append, List.map_cons, List.nodup_middle, List.nodup_cons,
      List.mem_append, not_or] at h
    obtain ⟨⟨hbefore, hafter⟩, -⟩ := h
    rw [List.map_append, List.map_cons, map_replaced_of_not_mem hbefore,
      map_replaced_of_not_mem hafter, List.filter_append, List.filter_cons_of_neg (by simp),
      filter_ne_of_not_mem hbefore, filter_ne_of_not_mem hafter,
      List.append_assoc, if_pos (by simp)]
    exact (List.perm_append_singleton _ _).symm.append_left before
  next hnew => rw [filter_ne_of_not_mem fun hmem => hnew (any_name_iff.mpr hmem)]

/-! ## Repeated names -/

/-- The members that no later one with the same name replaces. -/
def lasting : List (String × Value) → List (String × Value)
  | [] => []
  | member :: rest => if member.1 ∈ rest.map Prod.fst then lasting rest else member :: lasting rest

theorem lasting_of_nodup (h : (members.map Prod.fst).Nodup) :
    lasting members = members := by
  induction members with
  | nil => rfl
  | cons member rest ih =>
    obtain ⟨hmember, hrest⟩ := List.nodup_cons.mp h
    rw [lasting, if_neg hmember, ih hrest]

/-- The last member replaces those before it that have its name. -/
theorem lasting_concat (members : List (String × Value)) (member : String × Value) :
    lasting (members ++ [member]) =
      (lasting members).filter (fun m => decide (m.1 ≠ member.1)) ++ [member] := by
  induction members with
  | nil => rfl
  | cons first rest ih =>
    have hreplaced : first.1 ∈ (rest ++ [member]).map Prod.fst ↔ first.1 ∈ rest.map Prod.fst ∨
        first.1 = member.1 := by
      rw [List.map_append, List.mem_append, List.map_singleton, List.mem_singleton]
    rw [List.cons_append, lasting, lasting, ih]
    by_cases hlater : first.1 ∈ rest.map Prod.fst
    · rw [if_pos (hreplaced.mpr (.inl hlater)), if_pos hlater]
    · by_cases hlast : first.1 = member.1
      · rw [if_pos (hreplaced.mpr (.inr hlast)), if_neg hlater,
          List.filter_cons_of_neg (by simpa using hlast)]
      · rw [if_neg fun hmem => (hreplaced.mp hmem).elim hlater hlast, if_neg hlater,
          List.filter_cons_of_pos (by simpa using hlast), List.cons_append]

end CallAtlas.Json
