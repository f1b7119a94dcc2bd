import Mathlib.Data.List.AList
import Mathlib.Data.List.Sort

/-!
# Store — keyed tables

A table of rows with a key column: an association list in which every row sits under its own
key, so two rows never share one. `put` inserts or replaces. Reading back is the whole
interface: `get_put_self`, `get_put_ne`, and `mem_rows_iff`, which says that a scan of the
table sees exactly the rows that lookups see.
-/

namespace Store

/-- A table whose rows are found by `key`. -/
structure Table (κ ν : Type) [DecidableEq κ] (key : ν → κ) where
  entries : AList (fun _ : κ => ν)
  key_eq : ∀ k v, entries.lookup k = some v → key v = k

namespace Table

variable {κ ν : Type} [DecidableEq κ] {key : ν → κ}

def empty : Table κ ν key := ⟨∅, by simp⟩

def get (t : Table κ ν key) (k : κ) : Option ν := t.entries.lookup k

def rows (t : Table κ ν key) : List ν := t.entries.entries.map (·.2)

def put (t : Table κ ν key) (v : ν) : Table κ ν key where
  entries := t.entries.insert (key v) v
  key_eq k w h := by
    by_cases hk : k = key v
    · subst hk
      rw [AList.lookup_insert] at h
      rw [Option.some.inj h]
    · rw [AList.lookup_insert_ne hk] at h
      exact t.key_eq k w h

variable (t : Table κ ν key)

@[simp] theorem get_empty (k : κ) : (empty : Table κ ν key).get k = none := rfl

theorem key_of_get {k : κ} {v : ν} (h : t.get k = some v) : key v = k := t.key_eq k v h

@[simp] theorem get_put_self (v : ν) : (t.put v).get (key v) = some v :=
  AList.lookup_insert _

@[simp] theorem get_put_ne {k : κ} {v : ν} (h : k ≠ key v) : (t.put v).get k = t.get k :=
  AList.lookup_insert_ne h

theorem get_put (k : κ) (v : ν) :
    (t.put v).get k = if k = key v then some v else t.get k := by
  split
  · next h => rw [h, get_put_self]
  · next h => exact get_put_ne t h

theorem mem_rows_iff {v : ν} : v ∈ t.rows ↔ t.get (key v) = some v := by
  simp only [rows, List.mem_map, get]
  constructor
  · rintro ⟨⟨k, w⟩, hmem, rfl⟩
    have hlook : t.entries.lookup k = some w := AList.mem_lookup_iff.mpr hmem
    rw [t.key_eq k w hlook, hlook]
  · intro h
    exact ⟨⟨key v, v⟩, AList.mem_lookup_iff.mp h, rfl⟩

theorem rows_keys_nodup : (t.rows.map key).Nodup := by
  have hkeys : t.rows.map key = t.entries.keys := by
    simp only [rows, AList.keys, List.keys, List.map_map]
    refine List.map_congr_left fun e he => ?_
    exact t.key_eq e.1 e.2 (AList.mem_lookup_iff.mpr he)
  rw [hkeys]
  exact t.entries.keys_nodup

end Table

end Store
