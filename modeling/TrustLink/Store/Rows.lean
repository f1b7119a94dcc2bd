import Mathlib.Data.List.Nodup

/-!
# Store — tables with two unique columns

Rows with a primary key and a second unique column, as a list in which neither column repeats.
The operations are the ones a client of such a table has: look a row up by either column, insert a
row that is new in both, rewrite rows without touching the two columns, delete rows. Everything
about a table is said through membership of its rows.
-/

namespace Store

structure Rows (ν κ κ' : Type) (key : ν → κ) (alt : ν → κ') where
  rows : List ν
  key_nodup : (rows.map key).Nodup
  alt_nodup : (rows.map alt).Nodup

namespace Rows

variable {ν κ κ' : Type} {key : ν → κ} {alt : ν → κ'}

def empty : Rows ν κ κ' key alt := ⟨[], List.nodup_nil, List.nodup_nil⟩

variable (t : Rows ν κ κ' key alt)

def find [DecidableEq κ] (k : κ) : Option ν := t.rows.find? fun v => key v = k

def findAlt [DecidableEq κ'] (k : κ') : Option ν := t.rows.find? fun v => alt v = k

/-- Rewrite every row; `f` leaves the rows alone that are not meant. -/
def modify (f : ν → ν) (hkey : ∀ v, key (f v) = key v) (halt : ∀ v, alt (f v) = alt v) :
    Rows ν κ κ' key alt where
  rows := t.rows.map f
  key_nodup := by
    rw [List.map_map, show key ∘ f = key from funext hkey]
    exact t.key_nodup
  alt_nodup := by
    rw [List.map_map, show alt ∘ f = alt from funext halt]
    exact t.alt_nodup

def insert (v : ν) (hkey : ∀ w ∈ t.rows, key w ≠ key v) (halt : ∀ w ∈ t.rows, alt w ≠ alt v) :
    Rows ν κ κ' key alt where
  rows := v :: t.rows
  key_nodup := by
    rw [List.map_cons, List.nodup_cons]
    refine ⟨fun hmem => ?_, t.key_nodup⟩
    obtain ⟨w, hw, hsame⟩ := List.mem_map.mp hmem
    exact hkey w hw hsame
  alt_nodup := by
    rw [List.map_cons, List.nodup_cons]
    refine ⟨fun hmem => ?_, t.alt_nodup⟩
    obtain ⟨w, hw, hsame⟩ := List.mem_map.mp hmem
    exact halt w hw hsame

def filter (p : ν → Bool) : Rows ν κ κ' key alt where
  rows := t.rows.filter p
  key_nodup := t.key_nodup.sublist (List.filter_sublist.map key)
  alt_nodup := t.alt_nodup.sublist (List.filter_sublist.map alt)

variable {t} {v w : ν}

theorem eq_of_key (hv : v ∈ t.rows) (hw : w ∈ t.rows) (h : key v = key w) : v = w :=
  List.inj_on_of_nodup_map t.key_nodup hv hw h

theorem eq_of_alt (hv : v ∈ t.rows) (hw : w ∈ t.rows) (h : alt v = alt w) : v = w :=
  List.inj_on_of_nodup_map t.alt_nodup hv hw h

theorem mem_of_find [DecidableEq κ] {k : κ} (h : t.find k = some v) : v ∈ t.rows ∧ key v = k :=
  ⟨List.mem_of_find?_eq_some h,
    of_decide_eq_true (List.find?_some (p := fun v => decide (key v = k)) h)⟩

theorem mem_of_findAlt [DecidableEq κ'] {k : κ'} (h : t.findAlt k = some v) :
    v ∈ t.rows ∧ alt v = k :=
  ⟨List.mem_of_find?_eq_some h,
    of_decide_eq_true (List.find?_some (p := fun v => decide (alt v = k)) h)⟩

/-- A stored row is found by its key. -/
theorem find_of_mem [DecidableEq κ] (hv : v ∈ t.rows) : t.find (key v) = some v := by
  cases hfind : t.find (key v) with
  | none =>
    have hnone := List.find?_eq_none.mp hfind v hv
    exact absurd rfl (fun h => hnone (decide_eq_true h))
  | some w =>
    obtain ⟨hw, hkey⟩ := mem_of_find hfind
    rw [eq_of_key hw hv hkey]

theorem findAlt_of_mem [DecidableEq κ'] (hv : v ∈ t.rows) : t.findAlt (alt v) = some v := by
  cases hfind : t.findAlt (alt v) with
  | none =>
    have hnone := List.find?_eq_none.mp hfind v hv
    exact absurd rfl (fun h => hnone (decide_eq_true h))
  | some w =>
    obtain ⟨hw, halt⟩ := mem_of_findAlt hfind
    rw [eq_of_alt hw hv halt]

theorem mem_modify {f : ν → ν} (hkey : ∀ v, key (f v) = key v) (halt : ∀ v, alt (f v) = alt v) :
    v ∈ (t.modify f hkey halt).rows ↔ ∃ w ∈ t.rows, f w = v := List.mem_map

theorem mem_insert {u : ν} (hkey : ∀ w ∈ t.rows, key w ≠ key u)
    (halt : ∀ w ∈ t.rows, alt w ≠ alt u) :
    v ∈ (t.insert u hkey halt).rows ↔ v = u ∨ v ∈ t.rows := List.mem_cons

theorem mem_filter {p : ν → Bool} : v ∈ (t.filter p).rows ↔ v ∈ t.rows ∧ p v = true :=
  List.mem_filter

end Rows

end Store
