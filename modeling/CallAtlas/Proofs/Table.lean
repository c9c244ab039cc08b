import CallAtlas.Table
import Mathlib.Data.List.Forall2
import Mathlib.Data.List.Nodup
import Mathlib.Data.List.Induction

/-!
# Laws of tables

A table is known by its entries, and because its keys are distinct an entry is the same as a value
under a key (`Table.get?_eq_some_iff`). Putting a value under a key changes that key and no other
(`Table.mem_entries_put`, `Table.get?_put`), and never loses one (`Table.mem_keys_put`). Grouping by
a key puts under each key the values that have it, in their order (`Table.getD_get?_groupBy`), so
that the groups part the values (`Table.perm_groupBy`) and keep the order within each of them
(`Table.filter_groupBy`).

What is collected at the end of a list, unless it is there already, are the first occurrences of
what came up, in their order (`FirstsOf`). The keys of groups are collected in this way, one step
after the other (`FirstsOf.concat`). It does not matter by which key things are told apart, as long
as it tells the same ones apart (`FirstsOf.exists_forall₂`, `Table.forall₂_entries`).
-/

namespace CallAtlas

/-! ## First occurrences -/

section

variable {α : Type} [DecidableEq α]

/-- A list has the members of another, each once, in the order in which they first occur there. -/
structure FirstsOf (xs firsts : List α) : Prop where
  nodup : firsts.Nodup
  mem_iff : ∀ x, x ∈ firsts ↔ x ∈ xs
  ordered : firsts.Pairwise fun x y => xs.idxOf x < xs.idxOf y

theorem firstsOf_nil : FirstsOf ([] : List α) [] := ⟨.nil, fun _ => Iff.rfl, .nil⟩

/-- One more member at the end is a first occurrence exactly if it did not occur before. -/
theorem FirstsOf.concat {xs firsts : List α} (h : FirstsOf xs firsts) (x : α) :
    FirstsOf (xs ++ [x]) (if x ∈ firsts then firsts else firsts ++ [x]) := by
  have hold : firsts.Pairwise fun y z => (xs ++ [x]).idxOf y < (xs ++ [x]).idxOf z := by
    refine h.ordered.imp_of_mem fun {y z} hy hz hlt => ?_
    rwa [List.idxOf_append_of_mem ((h.mem_iff y).mp hy),
      List.idxOf_append_of_mem ((h.mem_iff z).mp hz)]
  split
  next hx =>
    refine ⟨h.nodup, fun y => ?_, hold⟩
    rw [List.mem_append, List.mem_singleton, h.mem_iff]
    constructor
    · exact .inl
    · rintro (hy | rfl)
      · exact hy
      · exact (h.mem_iff y).mp hx
  next hx =>
    refine ⟨?_, fun y => ?_, ?_⟩
    · rw [List.nodup_append]
      refine ⟨h.nodup, List.nodup_singleton x, fun y hy z hz => ?_⟩
      rw [List.mem_singleton.mp hz]
      rintro rfl
      exact hx hy
    · rw [List.mem_append, List.mem_append, h.mem_iff]
    · -- the new member occurs behind all others
      rw [List.pairwise_append]
      refine ⟨hold, List.pairwise_singleton _ _, fun y hy z hz => ?_⟩
      obtain rfl := List.mem_singleton.mp hz
      have hy' := (h.mem_iff y).mp hy
      have hz' : z ∉ xs := fun hmem => hx ((h.mem_iff z).mpr hmem)
      rw [List.idxOf_append_of_mem hy', List.idxOf_append_of_notMem hz']
      exact Nat.lt_of_lt_of_le (List.idxOf_lt_length_of_mem hy') (Nat.le_add_right _ _)

end

section Keys

variable {α β γ : Type} {f : α → β} {g : α → γ} {xs : List α}

/-- Values that all occur as keys are the keys of some members. -/
theorem exists_map_eq_of_subset {firsts : List β} (h : firsts ⊆ xs.map f) :
    ∃ members, members ⊆ xs ∧ members.map f = firsts := by
  induction firsts with
  | nil => exact ⟨[], List.nil_subset xs, rfl⟩
  | cons first firsts ih =>
    obtain ⟨hfirst, hrest⟩ := List.cons_subset.mp h
    obtain ⟨a, ha, rfl⟩ := List.mem_map.mp hfirst
    obtain ⟨members, hmembers, rfl⟩ := ih hrest
    exact ⟨a :: members, List.cons_subset.mpr ⟨ha, hmembers⟩, rfl⟩

variable [DecidableEq β] [DecidableEq γ]

/-- Two keys that tell the same members apart find a member at the same place. -/
theorem idxOf_map_eq {a : α} (h : ∀ b ∈ xs, f b = f a ↔ g b = g a) :
    (xs.map f).idxOf (f a) = (xs.map g).idxOf (g a) := by
  induction xs with
  | nil => rfl
  | cons b xs ih =>
    obtain ⟨hb, hxs⟩ := List.forall_mem_cons.mp h
    by_cases heq : f b = f a
    · rw [List.map_cons, List.map_cons, List.idxOf_cons_eq _ heq, List.idxOf_cons_eq _ (hb.mp heq)]
    · rw [List.map_cons, List.map_cons, List.idxOf_cons_ne _ heq,
        List.idxOf_cons_ne _ (mt hb.mpr heq), ih hxs]

/-- **Two keys that tell the same members apart** have first occurrences that correspond, one to one
and in order. -/
theorem FirstsOf.exists_forall₂ {firsts : List β} (hfirsts : FirstsOf (xs.map f) firsts)
    (h : ∀ a ∈ xs, ∀ b ∈ xs, f a = f b ↔ g a = g b) :
    ∃ others, FirstsOf (xs.map g) others ∧
      List.Forall₂ (fun x y => ∃ a ∈ xs, f a = x ∧ g a = y) firsts others := by
  obtain ⟨members, hmembers, rfl⟩ := exists_map_eq_of_subset fun x hx => (hfirsts.mem_iff x).mp hx
  refine ⟨members.map g, ⟨?_, fun y => ?_, ?_⟩, ?_⟩
  · have hnodup := List.pairwise_map.mp hfirsts.nodup
    refine List.pairwise_map.mpr (hnodup.imp_of_mem fun {a b} ha hb hne => ?_)
    exact mt (h a (hmembers ha) b (hmembers hb)).mpr hne
  · rw [List.mem_map, List.mem_map]
    constructor
    · rintro ⟨a, ha, rfl⟩
      exact ⟨a, hmembers ha, rfl⟩
    · rintro ⟨b, hb, rfl⟩
      obtain ⟨a, ha, hab⟩ := List.mem_map.mp ((hfirsts.mem_iff (f b)).mpr (List.mem_map_of_mem hb))
      exact ⟨a, ha, (h a (hmembers ha) b hb).mp hab⟩
  · have hordered := List.pairwise_map.mp hfirsts.ordered
    refine List.pairwise_map.mpr (hordered.imp_of_mem fun {a b} ha hb hlt => ?_)
    rwa [← idxOf_map_eq fun c hc => h c hc a (hmembers ha), ← idxOf_map_eq fun c hc =>
      h c hc b (hmembers hb)]
  · rw [List.forall₂_map_left_iff, List.forall₂_map_right_iff, List.forall₂_same]
    exact fun a ha => ⟨a, hmembers ha, rfl, rfl⟩

end Keys

/-! ## Tables -/

namespace Table

variable {κ α : Type}

/-- Under distinct keys a search for a key finds the one that has it. -/
theorem find?_of_nodup_map {key : α → κ} {values : List α} (hnodup : (values.map key).Nodup)
    {p : α → Bool} {a : α} (hp : ∀ b, p b = true ↔ key b = key a) (ha : a ∈ values) :
    values.find? p = some a := by
  have hsome : (values.find? p).isSome = true := by
    rw [List.find?_isSome]
    exact ⟨a, ha, (hp a).mpr rfl⟩
  obtain ⟨found, hfound⟩ := Option.isSome_iff_exists.mp hsome
  have hkey : key found = key a := (hp found).mp (List.find?_some hfound)
  rw [hfound, List.inj_on_of_nodup_map hnodup (List.mem_of_find?_eq_some hfound) ha hkey]

variable [DecidableEq κ]

theorem mem_keys_iff {t : Table κ α} {k : κ} : k ∈ t.keys ↔ ∃ a, (k, a) ∈ t.entries := by
  simp [keys]

/-- A value under a key is an entry. -/
theorem get?_eq_some_iff {t : Table κ α} {k : κ} {a : α} :
    t.get? k = some a ↔ (k, a) ∈ t.entries := by
  constructor
  · intro h
    obtain ⟨e, he, rfl⟩ := Option.map_eq_some_iff.mp h
    have hkey : e.1 = k := by simpa using List.find?_some he
    rw [← hkey]
    exact List.mem_of_find?_eq_some he
  · intro h
    rw [get?, find?_of_nodup_map t.nodup (by simp) h]
    rfl

theorem get?_eq_none_iff {t : Table κ α} {k : κ} : t.get? k = none ↔ k ∉ t.keys := by
  rw [mem_keys_iff, not_exists, Option.eq_none_iff_forall_ne_some]
  exact forall_congr' fun a => not_congr get?_eq_some_iff

/-- A table after a value was put under a key: that entry, and the entries under other keys. -/
theorem mem_entries_put {t : Table κ α} {k k' : κ} {a b : α} :
    (k', b) ∈ (t.put k a).entries ↔ (k' = k ∧ b = a) ∨ (k' ≠ k ∧ (k', b) ∈ t.entries) := by
  unfold put
  split
  next hk =>
    obtain ⟨old, hold⟩ := mem_keys_iff.mp hk
    show (k', b) ∈ t.entries.map _ ↔ _
    rw [List.mem_map]
    constructor
    · rintro ⟨e, he, heq⟩
      by_cases hkey : e.1 = k
      · rw [if_pos hkey] at heq
        cases heq
        exact .inl ⟨rfl, rfl⟩
      · rw [if_neg hkey] at heq
        cases heq
        exact .inr ⟨hkey, he⟩
    · rintro (⟨rfl, rfl⟩ | ⟨hne, hmem⟩)
      · exact ⟨(k', old), hold, if_pos rfl⟩
      · exact ⟨(k', b), hmem, if_neg hne⟩
  next hk =>
    rw [List.mem_append, List.mem_singleton, Prod.mk.injEq]
    constructor
    · rintro (hmem | heq)
      · refine .inr ⟨?_, hmem⟩
        rintro rfl
        exact hk (List.mem_map.mpr ⟨_, hmem, rfl⟩)
      · exact .inl heq
    · rintro (heq | ⟨-, hmem⟩)
      · exact .inr heq
      · exact .inl hmem

theorem get?_put (t : Table κ α) (k k' : κ) (a : α) :
    (t.put k a).get? k' = if k' = k then some a else t.get? k' := by
  apply Option.ext
  intro b
  rw [get?_eq_some_iff, mem_entries_put]
  by_cases h : k' = k
  · simp [h, eq_comm]
  · simp [h, get?_eq_some_iff]

/-- Putting a value under a key adds the key and loses none. -/
theorem mem_keys_put {t : Table κ α} {k k' : κ} {a : α} :
    k' ∈ (t.put k a).keys ↔ k' ∈ t.keys ∨ k' = k := by
  rw [keys_put]
  split
  next hk =>
    constructor
    · exact .inl
    · rintro (h | rfl)
      · exact h
      · exact hk
  next => rw [List.mem_append, List.mem_singleton]

/-- Under each key stand the values that have it, in their order. Induction from the last value on,
since values are added at the end. -/
theorem getD_get?_groupBy (key : α → κ) (values : List α) (k : κ) :
    ((groupBy key values).get? k).getD [] = values.filter fun a => key a = k := by
  induction values using List.reverseRecOn with
  | nil => rfl
  | append_singleton values a ih =>
    have hstep : groupBy key (values ++ [a]) = (groupBy key values).push (key a) a :=
      List.foldl_concat ..
    rw [hstep, push, get?_put, List.filter_append]
    by_cases h : k = key a
    · rw [if_pos h, Option.getD_some, ← h, ih]
      simp [h]
    · have hother : key a ≠ k := fun heq => h heq.symm
      rw [if_neg h, ih]
      simp [hother]

theorem eq_filter_of_mem_groupBy {key : α → κ} {values : List α} {k : κ} {group : List α}
    (h : (k, group) ∈ (groupBy key values).entries) : group = values.filter fun a => key a = k := by
  have hget := getD_get?_groupBy key values k
  rwa [get?_eq_some_iff.mpr h, Option.getD_some] at hget

/-- The groups come in the order of their first members. -/
theorem firstsOf_groupBy (key : α → κ) (values : List α) :
    FirstsOf (values.map key) (groupBy key values).keys := by
  induction values using List.reverseRecOn with
  | nil => exact firstsOf_nil
  | append_singleton values a ih =>
    have hstep : groupBy key (values ++ [a]) = (groupBy key values).push (key a) a :=
      List.foldl_concat ..
    rw [hstep, push, keys_put, List.map_append, List.map_singleton]
    exact ih.concat (key a)

/-- The keys of the groups are those of the values. -/
theorem mem_keys_groupBy {key : α → κ} {values : List α} {k : κ} :
    k ∈ (groupBy key values).keys ↔ ∃ a ∈ values, key a = k := by
  rw [(firstsOf_groupBy key values).mem_iff, List.mem_map]

/-- Distinct keys, among which are those of all values, part the values. Induction on the keys: what
does not have the first key is parted by the others. -/
theorem perm_flatMap_filter {key : α → κ} {ks : List κ} (hks : ks.Nodup) {values : List α}
    (hall : ∀ a ∈ values, key a ∈ ks) :
    (ks.flatMap fun k => values.filter fun a => key a = k).Perm values := by
  induction ks generalizing values with
  | nil =>
    have hnone : values = [] :=
      List.eq_nil_iff_forall_not_mem.mpr fun a ha => List.not_mem_nil (hall a ha)
    rw [hnone, List.flatMap_nil]
  | cons k ks ih =>
    obtain ⟨hk, hks⟩ := List.nodup_cons.mp hks
    have hothers : (ks.flatMap fun k' => values.filter fun a => key a = k') =
        ks.flatMap fun k' => (values.filter fun a => !decide (key a = k)).filter fun a =>
        key a = k' := by
      refine List.flatMap_congr fun k' hk' => ?_
      rw [List.filter_filter]
      refine List.filter_congr fun a _ => ?_
      have hne : k' ≠ k := fun heq => hk (heq ▸ hk')
      by_cases ha : key a = k'
      · simp [ha, hne]
      · simp [ha]
    have hrest : ∀ a ∈ values.filter fun a => !decide (key a = k), key a ∈ ks := by
      intro a ha
      obtain ⟨hmem, hne⟩ := List.mem_filter.mp ha
      exact (List.mem_cons.mp (hall a hmem)).resolve_left (by simpa using hne)
    rw [List.flatMap_cons, hothers]
    exact ((ih hks hrest).append_left _).trans
      (List.filter_append_perm (fun a => decide (key a = k)) values)

/-- All groups, one after the other. -/
theorem flatMap_groupBy (key : α → κ) (values : List α) :
    (groupBy key values).entries.flatMap Prod.snd =
      (groupBy key values).keys.flatMap fun k => values.filter fun a => key a = k := by
  rw [keys, List.flatMap_map]
  exact List.flatMap_congr fun e he => eq_filter_of_mem_groupBy he

/-- **Groups part the values**: none is lost, and none comes twice. -/
theorem perm_groupBy (key : α → κ) (values : List α) :
    ((groupBy key values).entries.flatMap Prod.snd).Perm values := by
  rw [flatMap_groupBy]
  exact perm_flatMap_filter (groupBy key values).nodup fun a ha => mem_keys_groupBy.mpr ⟨a, ha, rfl⟩

/-- Of several groups, the one with a key is found among them as it is. Induction on the keys. -/
theorem filter_flatMap_filter {key : α → κ} {ks : List κ} (hks : ks.Nodup)
    (values : List α) (k : κ) :
    ((ks.flatMap fun k' => values.filter fun a => key a = k').filter fun a => key a = k) =
      if k ∈ ks then values.filter fun a => key a = k else [] := by
  induction ks with
  | nil => rfl
  | cons first ks ih =>
    obtain ⟨hfirst, hks⟩ := List.nodup_cons.mp hks
    rw [List.flatMap_cons, List.filter_append, ih hks, List.filter_filter]
    by_cases heq : k = first
    · subst heq
      rw [if_neg hfirst, if_pos List.mem_cons_self, List.append_nil]
      exact List.filter_congr fun a _ => Bool.and_self _
    · have hnone : (values.filter fun a => decide (key a = k) && decide (key a = first)) = [] := by
        rw [List.filter_eq_nil_iff]
        intro a _ h
        rw [Bool.and_eq_true, decide_eq_true_iff, decide_eq_true_iff] at h
        exact heq (h.1.symm.trans h.2)
      rw [hnone, List.nil_append]
      simp [heq]

/-- Within its group, a value keeps its place among the values. -/
theorem filter_groupBy (key : α → κ) (values : List α) (k : κ) :
    (((groupBy key values).entries.flatMap Prod.snd).filter fun a => key a = k) =
      values.filter fun a => key a = k := by
  have hkeys : (groupBy key values).keys.Nodup := (groupBy key values).nodup
  rw [flatMap_groupBy, filter_flatMap_filter hkeys]
  split
  · rfl
  next hk =>
    refine (List.filter_eq_nil_iff.mpr fun a ha hkey => hk ?_).symm
    exact mem_keys_groupBy.mpr ⟨a, ha, of_decide_eq_true hkey⟩

/-- **A table under another key.** If a table has as keys the first occurrences along a list, and
another key tells the same members apart, the entries correspond, one to one and in order, to the
first occurrences of that key. -/
theorem forall₂_entries {β γ : Type} [DecidableEq γ] {t : Table κ α} {f : β → κ}
    {g : β → γ} {xs : List β}
    (hkeys : FirstsOf (xs.map f) t.keys) (h : ∀ a ∈ xs, ∀ b ∈ xs, f a = f b ↔ g a = g b) :
    ∃ others, FirstsOf (xs.map g) others ∧
      List.Forall₂ (fun y e => e ∈ t.entries ∧ ∃ a ∈ xs, f a = e.1 ∧ g a = y) others t.entries := by
  obtain ⟨others, hothers, hrelated⟩ := hkeys.exists_forall₂ h
  have hentries := (List.forall₂_and_left _ _).mpr
    ⟨fun e (he : e ∈ t.entries) => he, List.forall₂_map_left_iff.mp hrelated⟩
  exact ⟨others, hothers, hentries.flip⟩

/-- Where all entries under a key hold the same value, that is the value under it. -/
theorem get?_ofList {entries : List (κ × α)} {k : κ} {a : α} (hmem : (k, a) ∈ entries)
    (hsame : ∀ b, (k, b) ∈ entries → b = a) : (ofList entries).get? k = some a := by
  induction entries using List.reverseRecOn with
  | nil => cases hmem
  | append_singleton entries e ih =>
    have hstep : ofList (entries ++ [e]) = (ofList entries).put e.1 e.2 := List.foldl_concat ..
    rw [hstep, get?_put]
    by_cases hk : k = e.1
    · subst hk
      rw [if_pos rfl, hsame e.2 (List.mem_append_right _ List.mem_cons_self)]
    · rw [if_neg hk]
      refine ih ?_ fun b hb => hsame b (List.mem_append_left _ hb)
      rcases List.mem_append.mp hmem with hmem | hmem
      · exact hmem
      · exact absurd (congrArg Prod.fst (List.mem_singleton.mp hmem)) hk

end Table

end CallAtlas
