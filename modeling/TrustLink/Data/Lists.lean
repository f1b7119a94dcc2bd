import Mathlib.Algebra.BigOperators.Group.List.Basic
import Mathlib.Data.List.Forall2
import Mathlib.Data.List.Nodup

/-!
# Lists — splitting, replacing, summing

Facts about lists that several developments need and that name nothing of them: what a split or a
replaced entry says about the rest of a list, what stands in its front, and when a loop is a sum.
-/

namespace Lists

variable {α β : Type}

/-- A list with one element more at its end, split before an element. -/
theorem concat_eq_append_cons {l older newer : List α} {a x : α}
    (h : l ++ [x] = older ++ a :: newer) :
    (newer = [] ∧ l = older ∧ x = a) ∨ ∃ newer', newer = newer' ++ [x] ∧ l = older ++ a :: newer' := by
  rcases List.eq_nil_or_concat' newer with rfl | ⟨newer', y, rfl⟩
  · obtain ⟨hl, hx⟩ := List.append_inj' h rfl
    exact .inl ⟨rfl, hl, List.head_eq_of_cons_eq hx⟩
  · rw [← List.cons_append, ← List.append_assoc] at h
    obtain ⟨hl, hx⟩ := List.append_inj' h rfl
    cases hx
    exact .inr ⟨newer', rfl, hl⟩

/-- A list with one entry replaced, around that entry. -/
theorem set_around {l : List α} {k : Nat} {a : α} (h : l[k]? = some a) :
    ∃ l₁ l₂, l = l₁ ++ a :: l₂ ∧ ∀ b, l.set k b = l₁ ++ b :: l₂ := by
  obtain ⟨hk, rfl⟩ := List.getElem?_eq_some_iff.mp h
  refine ⟨l.take k, l.drop (k + 1), ?_, ?_⟩
  · simp
  · intro b
    exact List.set_eq_take_append_cons_drop.trans (if_pos hk)

/-- What stands before an element of a range. -/
theorem mem_of_range_eq {n a j : Nat} {before after : List Nat}
    (h : List.range n = before ++ a :: after) (hj : j < a) : j ∈ before := by
  rw [List.range_eq_range'] at h
  obtain ⟨k, _, rfl, hafter⟩ := List.range'_eq_append_iff.mp h
  obtain ⟨hk, _⟩ := List.range'_eq_cons_iff.mp hafter.symm
  rw [List.mem_range'_1]
  omega

section forall₂

variable {rel : α → β → Prop} {xs : List α} {ys : List β} {x : α} {y : β}

/-- Lists that are related entry by entry stay so when two related entries are replaced. -/
theorem forall₂_set (h : List.Forall₂ rel xs ys) (hxy : rel x y) (i : Nat) :
    List.Forall₂ rel (xs.set i x) (ys.set i y) := by
  induction h generalizing i with
  | nil => exact .nil
  | cons hhead htail ih =>
    cases i with
    | zero => exact .cons hxy htail
    | succ i => exact .cons hhead (ih i)

theorem forall₂_getElem? {i : Nat} (h : List.Forall₂ rel xs ys) (hx : xs[i]? = some x) :
    ∃ y, ys[i]? = some y ∧ rel x y := by
  induction h generalizing i with
  | nil => cases hx
  | @cons a b as bs hhead htail ih =>
    cases i with
    | zero =>
      cases hx
      exact ⟨b, rfl, hhead⟩
    | succ i => exact ih hx

end forall₂

/-- One entry more of a list of entries and their positions. -/
theorem zipIdx_take_succ {l : List α} {k : Nat} (hk : k < l.length) :
    l.zipIdx.take (k + 1) = l.zipIdx.take k ++ [(l[k], k)] := by
  have hk' : k < l.zipIdx.length := by rw [List.length_zipIdx]; exact hk
  rw [List.take_succ_eq_append_getElem hk', List.getElem_zipIdx]
  simp

/-- An entry that does not repeat is among the first `n` if fewer than `n` stand before it. -/
theorem mem_take_iff_length {s t : List α} {x : α} {n : Nat} (hnodup : (s ++ x :: t).Nodup) :
    x ∈ (s ++ x :: t).take n ↔ s.length < n := by
  constructor
  · intro hmem
    by_contra hle
    rw [List.take_append_of_le_length (by omega)] at hmem
    exact (List.nodup_middle.mp hnodup).notMem
      (List.mem_append_left _ (List.mem_of_mem_take hmem))
  · intro hlt
    rw [List.take_append, List.mem_append]
    obtain ⟨k, hk⟩ : ∃ k, n - s.length = k + 1 := ⟨n - s.length - 1, by omega⟩
    rw [hk, List.take_succ_cons]
    exact .inr List.mem_cons_self

/-- The front of a sorted list without `x`: it is full, and nothing in it comes after `x`. -/
theorem take_of_notMem {notAfter : α → α → Prop} {l : List α} {n : Nat} {x : α}
    (hsorted : l.Pairwise notAfter) (hx : x ∈ l) (hnot : x ∉ l.take n) :
    (l.take n).length = n ∧ ∀ y ∈ l.take n, notAfter y x := by
  have hdrop : x ∈ l.drop n := by
    rw [← List.take_append_drop n l, List.mem_append] at hx
    exact hx.resolve_left hnot
  constructor
  · rw [List.length_take]
    have hlength := List.length_pos_of_mem hdrop
    rw [List.length_drop] at hlength
    omega
  · intro y hy
    rw [← List.take_append_drop n l, List.pairwise_append] at hsorted
    exact hsorted.2.2 y hy x hdrop

/-- A loop that adds to an accumulator is a sum. -/
theorem foldl_add {M : Type} [AddCommMonoid M] {step : M → α → M} {f : α → M}
    (hstep : ∀ t a, step t a = t + f a) (l : List α) (t : M) :
    l.foldl step t = t + (l.map f).sum := by
  induction l generalizing t with
  | nil => exact (add_zero t).symm
  | cons a l ih => rw [List.foldl_cons, ih, hstep, List.map_cons, List.sum_cons, add_assoc]

end Lists
