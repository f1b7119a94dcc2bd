import Mathlib.Data.List.Nodup
import Mathlib.Data.List.TakeWhile

/-!
# Store — a feed read through cursors

A feed is an ordered list of items that becomes visible item by item: each item carries a stamp,
and the stamps do not decrease. A reader keeps a mark, which is either a stamp to start from or the
token of the last item it has dealt with, and asks for the next page.

Every mark is a position in the list (`pos`), and all that a reader needs to know about its marks
is arithmetic of positions: a page starts at the position of the mark it was asked from
(`page_get`), the token of an item is the position behind it (`pos_after_token`), and an empty
page means that everything visible is before the mark (`page_nil`).
-/

namespace Store

inductive Mark (τ : Type) where
  | atStamp (n : Nat)
  | afterToken (t : τ)

structure Feed (ε τ : Type) where
  items : List ε
  stamp : ε → Nat
  token : ε → τ
  sorted : items.Pairwise fun a b => stamp a ≤ stamp b
  tokens_nodup : (items.map token).Nodup

namespace Feed

variable {ε τ : Type} [DecidableEq τ] (F : Feed ε τ)

/-- How many items are before the mark. -/
def pos : Mark τ → Nat
  | .atStamp n => (F.items.takeWhile fun e => F.stamp e < n).length
  | .afterToken t => (F.items.map F.token).idxOf t + 1

/-- The next items from a mark on that are visible at the stamp `now`. -/
def page (now limit : Nat) (m : Mark τ) : List ε :=
  ((F.items.drop (F.pos m)).takeWhile fun e => F.stamp e ≤ now).take limit

variable {F}

theorem pos_atStamp_mono {n n' : Nat} (h : n ≤ n') : F.pos (.atStamp n) ≤ F.pos (.atStamp n') := by
  show (F.items.takeWhile fun e => decide (F.stamp e < n)).length
    ≤ (F.items.takeWhile fun e => decide (F.stamp e < n')).length
  generalize F.items = items
  induction items with
  | nil => exact Nat.le_refl _
  | cons e items ih =>
    by_cases hlow : F.stamp e < n
    · have hhigh : F.stamp e < n' := Nat.lt_of_lt_of_le hlow h
      simp only [List.takeWhile_cons, hlow, hhigh, decide_true, if_true, List.length_cons]
      omega
    · simp only [List.takeWhile_cons, hlow, decide_false]
      exact Nat.zero_le _

omit [DecidableEq τ] in
/-- In a sorted list, a condition that smaller stamps meet too and that holds at `j` holds up to
there. -/
theorem takeWhile_past {items : List ε} {p : ε → Bool} {j : Nat} {e : ε}
    (hsorted : items.Pairwise fun a b => F.stamp a ≤ F.stamp b) (he : items[j]? = some e)
    (hp : ∀ a, F.stamp a ≤ F.stamp e → p a = true) :
    items.takeWhile p = items.take (j + 1) ++ (items.drop (j + 1)).takeWhile p := by
  obtain ⟨hj, rfl⟩ := List.getElem?_eq_some_iff.mp he
  have hbefore : ∀ a ∈ items.take (j + 1), p a = true := by
    intro a ha
    obtain ⟨k, hk, rfl⟩ := List.getElem_of_mem ha
    rw [List.length_take] at hk
    rw [List.getElem_take]
    apply hp
    rcases Nat.lt_or_ge k j with hlt | hge
    · exact List.pairwise_iff_getElem.mp hsorted k j (by omega) hj hlt
    · obtain rfl : k = j := by omega
      exact Nat.le_refl _
  rw [← List.takeWhile_append_of_pos hbefore, List.take_append_drop]

/-- An item whose stamp is before `n` is before the mark at `n`. -/
theorem lt_pos_atStamp {i n : Nat} {e : ε} (h : F.items[i]? = some e) (hstamp : F.stamp e < n) :
    i < F.pos (.atStamp n) := by
  have hi := (List.getElem?_eq_some_iff.mp h).1
  have hwhile := takeWhile_past (p := fun a => decide (F.stamp a < n)) F.sorted h fun a ha =>
    decide_eq_true (Nat.lt_of_le_of_lt ha hstamp)
  show i < (F.items.takeWhile fun a => decide (F.stamp a < n)).length
  rw [hwhile, List.length_append, List.length_take]
  omega

/-- An empty page: what is visible is before the mark. -/
theorem page_nil {now limit : Nat} {m : Mark τ} (hlimit : 0 < limit)
    (h : F.page now limit m = []) : F.pos (.atStamp (now + 1)) ≤ F.pos m := by
  rcases Nat.lt_or_ge (F.pos m) (F.pos (.atStamp (now + 1))) with hlt | hge
  · exfalso
    -- the item at the mark is one of those with a small stamp
    have hpre := List.takeWhile_prefix (fun e => decide (F.stamp e < now + 1)) (l := F.items)
    have hlt : F.pos m < (F.items.takeWhile fun e => decide (F.stamp e < now + 1)).length := hlt
    have hmem := List.getElem_mem hlt
    have hstamp := List.mem_takeWhile_imp hmem
    have hbound : F.pos m < F.items.length := Nat.lt_of_lt_of_le hlt hpre.length_le
    rw [hpre.getElem hlt] at hstamp
    have hvisible : F.stamp F.items[F.pos m] ≤ now := by
      have := of_decide_eq_true hstamp
      omega
    rw [page, List.drop_eq_getElem_cons hbound, List.takeWhile_cons,
      if_pos (decide_eq_true hvisible)] at h
    cases limit with
    | zero => omega
    | succ limit => cases h
  · exact hge

/-- A page is cut off the items behind the mark. -/
theorem page_cut (F : Feed ε τ) (now limit : Nat) (m : Mark τ) :
    F.page now limit m <+: F.items.drop (F.pos m) := by
  have htake := List.take_prefix limit ((F.items.drop (F.pos m)).takeWhile fun e => F.stamp e ≤ now)
  exact htake.trans <| List.takeWhile_prefix _

theorem mem_of_mem_page {now limit : Nat} {m : Mark τ} {e : ε} (h : e ∈ F.page now limit m) :
    e ∈ F.items :=
  List.mem_of_mem_drop ((F.page_cut now limit m).subset h)

/-- The items of a page are those behind the mark, in order, and they are visible. -/
theorem page_get {now limit k : Nat} {m : Mark τ} {e : ε} (h : (F.page now limit m)[k]? = some e) :
    F.items[F.pos m + k]? = some e ∧ F.stamp e ≤ now := by
  obtain ⟨rest, hrest⟩ := F.page_cut now limit m
  obtain ⟨hk, _⟩ := List.getElem?_eq_some_iff.mp h
  constructor
  · rw [← List.getElem?_drop, ← hrest, List.getElem?_append_left hk]
    exact h
  · have hmem : e ∈ (F.items.drop (F.pos m)).takeWhile fun e => F.stamp e ≤ now :=
      List.mem_of_mem_take (List.mem_of_getElem? h)
    have hvisible := List.mem_takeWhile_imp hmem
    exact of_decide_eq_true hvisible

/-- A visible item within the limit is on the page. -/
theorem mem_page {now limit i : Nat} {m : Mark τ} {e : ε} (h : F.items[i]? = some e)
    (hfrom : F.pos m ≤ i) (hto : i < F.pos m + limit) (hvisible : F.stamp e ≤ now) :
    e ∈ F.page now limit m := by
  obtain ⟨j, rfl⟩ : ∃ j, i = F.pos m + j := ⟨i - F.pos m, by omega⟩
  rw [← List.getElem?_drop] at h
  have hwhile := takeWhile_past (p := fun a => decide (F.stamp a ≤ now)) F.sorted.drop h
    fun a ha => decide_eq_true (Nat.le_trans ha hvisible)
  rw [page, hwhile, List.take_append, List.take_of_length_le]
  · apply List.mem_append_left
    rw [List.take_add_one, h]
    exact List.mem_append_right _ (List.mem_singleton_self _)
  · rw [List.length_take]
    omega

/-- The token of an item is the position behind it. -/
theorem pos_after_token {i : Nat} {e : ε} (h : F.items[i]? = some e) :
    F.pos (.afterToken (F.token e)) = i + 1 := by
  obtain ⟨hi, rfl⟩ := List.getElem?_eq_some_iff.mp h
  have hlen : i < (F.items.map F.token).length := by rw [List.length_map]; exact hi
  have hidx : (F.items.map F.token).idxOf (F.token F.items[i]) = i := by
    rw [← List.getElem_map F.token (h := hlen)]
    exact F.tokens_nodup.idxOf_getElem i hlen
  rw [pos, hidx]

end Feed

end Store
