import Mathlib.Algebra.BigOperators.Group.List.Basic
import Mathlib.Algebra.Group.Action.Defs
import Mathlib.Algebra.GroupWithZero.Nat
import Mathlib.Data.List.Nodup

/-!
# Store — sums over groups

Rows are put into groups by a key, and every group is summed. If the groups' keys do not repeat and
every row's key is among them, the sum over the groups is the sum over the rows, in any commutative
monoid and for any order of the groups.
-/

namespace Store

variable {α κ M : Type} [DecidableEq κ] [AddCommMonoid M] (key : α → κ) (f : α → M)

/-- The rows of one group. -/
def group (rows : List α) (k : κ) : List α := rows.filter fun row => key row = k

theorem sum_map_single {ks : List κ} (hnodup : ks.Nodup) {k : κ} (hk : k ∈ ks) (x : M) :
    (ks.map fun k' => if k = k' then x else 0).sum = x := by
  induction ks with
  | nil => cases hk
  | cons k₀ ks ih =>
    rw [List.map_cons, List.sum_cons]
    obtain ⟨hnot, hnodup⟩ := List.nodup_cons.mp hnodup
    rcases List.mem_cons.mp hk with rfl | hmem
    · rw [if_pos rfl]
      have hzero : (ks.map fun k' => if k = k' then x else 0).sum = 0 := by
        apply List.sum_eq_zero
        intro y hy
        obtain ⟨k', hk', rfl⟩ := List.mem_map.mp hy
        rw [if_neg]
        rintro rfl
        exact hnot hk'
      rw [hzero, add_zero]
    · rw [if_neg, zero_add, ih hnodup hmem]
      rintro rfl
      exact hnot hmem

/-- The groups together are the rows. -/
theorem sum_groups {ks : List κ} (hnodup : ks.Nodup) {rows : List α}
    (hcover : ∀ row ∈ rows, key row ∈ ks) :
    (ks.map fun k => ((group key rows k).map f).sum).sum = (rows.map f).sum := by
  induction rows with
  | nil => simp [group]
  | cons row rows ih =>
    have hstep : ∀ k, ((group key (row :: rows) k).map f).sum
        = (if key row = k then f row else 0) + ((group key rows k).map f).sum := by
      intro k
      unfold group
      rw [List.filter_cons]
      by_cases h : key row = k
      · simp [h]
      · simp [h]
    simp only [hstep, List.sum_map_add]
    rw [ih fun r hr => hcover r (List.mem_cons_of_mem _ hr),
      sum_map_single hnodup (hcover row List.mem_cons_self), List.map_cons, List.sum_cons]

/-- The sizes of some groups, together. -/
theorem sum_length_groups {ks : List κ} (hnodup : ks.Nodup) (rows : List α) :
    (ks.map fun k => (group key rows k).length).sum
      = (rows.filter fun row => key row ∈ ks).length := by
  have hcover : ∀ row ∈ rows.filter fun row => key row ∈ ks, key row ∈ ks :=
    fun row hrow => of_decide_eq_true (List.mem_filter.mp hrow).2
  have hsum := sum_groups key (fun _ => 1) hnodup hcover
  simp only [List.map_const', List.sum_replicate, smul_eq_mul, mul_one] at hsum
  rw [← hsum]
  congr 1
  apply List.map_congr_left
  intro k hk
  unfold group
  rw [List.filter_filter]
  congr 1
  apply List.filter_congr
  intro row _
  by_cases h : key row = k
  · simp [h, hk]
  · simp [h]

end Store
