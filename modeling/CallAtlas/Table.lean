/-!
# Tables

A table maps keys to values and remembers the order in which the keys came. Putting a value under a
key that is there already replaces the value and keeps the place of the key.
-/

namespace CallAtlas

/-- Values under distinct keys, in the order in which the keys came. -/
structure Table (κ α : Type) [DecidableEq κ] where
  entries : List (κ × α) := []
  nodup : (entries.map Prod.fst).Nodup := by simp

namespace Table

variable {κ α β : Type} [DecidableEq κ]

instance : Inhabited (Table κ α) := ⟨{}⟩

/-- The table without entries. -/
def empty : Table κ α := {}

/-- The keys in order. -/
def keys (t : Table κ α) : List κ := t.entries.map Prod.fst

/-- The values in the order of their keys. -/
def values (t : Table κ α) : List α := t.entries.map Prod.snd

/-- The value under a key. -/
def get? (t : Table κ α) (k : κ) : Option α :=
  (t.entries.find? fun e => e.1 = k).map Prod.snd

/-- Whether a key is there. -/
def contains (t : Table κ α) (k : κ) : Bool := t.keys.contains k

/-- Entries with the value under one key replaced. -/
def replaced (k : κ) (a : α) (entries : List (κ × α)) : List (κ × α) :=
  entries.map fun e => if e.1 = k then (k, a) else e

theorem map_fst_replaced (k : κ) (a : α) (entries : List (κ × α)) :
    (replaced k a entries).map Prod.fst = entries.map Prod.fst := by
  unfold replaced
  rw [List.map_map]
  apply List.map_congr_left
  intro e _
  by_cases h : e.1 = k <;> simp [h]

/-- The table with a value under a key: a new key comes last, a key that is there keeps its
place. -/
def put (t : Table κ α) (k : κ) (a : α) : Table κ α :=
  if h : k ∈ t.entries.map Prod.fst then
    { entries := replaced k a t.entries
      nodup := by rw [map_fst_replaced]; exact t.nodup }
  else
    { entries := t.entries ++ [(k, a)]
      nodup := by
        rw [List.map_append, List.nodup_append]
        refine ⟨t.nodup, by simp, ?_⟩
        intro x hx y hy
        simp at hy
        subst hy
        intro hxy
        subst hxy
        exact h hx }

/-- The keys after a value was put under one of them are the old ones, with a new one at the end. -/
theorem keys_put (t : Table κ α) (k : κ) (a : α) :
    (t.put k a).keys = if k ∈ t.keys then t.keys else t.keys ++ [k] := by
  unfold put keys
  split
  · simp [map_fst_replaced]
  · simp

/-- The table of a list of entries; of entries with the same key the last counts and the first gives
the place. -/
def ofList (entries : List (κ × α)) : Table κ α :=
  entries.foldl (fun t e => t.put e.1 e.2) empty

/-- Adds a value to the list under a key. -/
def push (t : Table κ (List α)) (k : κ) (a : α) : Table κ (List α) :=
  t.put k ((t.get? k).getD [] ++ [a])

/-- Groups values by a key; the groups come in the order of their first members. -/
def groupBy (key : α → κ) (values : List α) : Table κ (List α) :=
  values.foldl (fun t a => t.push (key a) a) empty

end Table

end CallAtlas
