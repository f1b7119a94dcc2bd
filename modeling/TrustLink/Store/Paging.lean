import Mathlib.Data.List.Basic
import Mathlib.Data.List.Nodup
import Mathlib.Data.List.Sort
import TrustLink.Data.Lists

/-!
# Store — pages of an ordering with ties

Rows are sorted by a key and read in pages, each page by a query of its own. Rows with equal keys
may stand in a different order in each query; `tie` is the order a query puts them in.

* `flatMap_page`: the pages of one list are consecutive pieces of it;
* `mem_take_iff_before`: if a cut does not fall inside a run of equal keys, which rows are before it
  does not depend on the query;
* `all_pages_perm`: if no cut between two pages falls inside a run of equal keys, the pages together
  are the rows, in whatever order each query puts the ties;
* `pages_repeat_of_cut`: otherwise some row may be on two pages.
-/

namespace Store.Paging

section page

variable {α : Type}

/-- The `n`-th page, counted from zero. -/
def page (l : List α) (limit n : Nat) : List α := (l.drop (n * limit)).take limit

/-- Consecutive pages are one piece of the list. -/
theorem flatMap_page (l : List α) (limit first n : Nat) :
    (List.range' first n).flatMap (page l limit)
      = (l.drop (first * limit)).take (n * limit) := by
  induction n generalizing first with
  | zero => simp
  | succ n ih =>
    rw [List.range'_succ, List.flatMap_cons, ih, Nat.succ_mul n limit, Nat.add_comm (n * limit),
      List.take_add, List.drop_drop, Nat.succ_mul]
    rfl

theorem take_succ_page (l : List α) (limit n : Nat) :
    l.take ((n + 1) * limit) = l.take (n * limit) ++ page l limit n := by
  rw [Nat.succ_mul, List.take_add]
  rfl

end page

section arrange

variable {α ι κ : Type} [LinearOrder κ] (key : α → κ) (ident : α → ι)

/-- The order by key, ties broken by `tie`. -/
def Ordered (tie : ι → Nat) (a b : α) : Prop :=
  key a < key b ∨ (key a = key b ∧ tie (ident a) ≤ tie (ident b))

instance (tie : ι → Nat) : DecidableRel (Ordered key ident tie) :=
  fun _ _ => inferInstanceAs (Decidable (_ ∨ _))

/-- The rows as a query returns them that breaks ties by `tie`. -/
def arrange (tie : ι → Nat) (rows : List α) : List α := rows.insertionSort (Ordered key ident tie)

variable {key ident} {tie : ι → Nat} {rows : List α}

theorem arrange_perm : (arrange key ident tie rows).Perm rows := List.perm_insertionSort _ _

theorem arrange_pairwise : (arrange key ident tie rows).Pairwise (Ordered key ident tie) := by
  have htotal : Std.Total (Ordered key ident tie) := ⟨by
    intro a b
    rcases lt_trichotomy (key a) (key b) with h | h | h
    · exact .inl (.inl h)
    · rcases Nat.le_total (tie (ident a)) (tie (ident b)) with ht | ht
      · exact .inl (.inr ⟨h, ht⟩)
      · exact .inr (.inr ⟨h.symm, ht⟩)
    · exact .inr (.inl h)⟩
  have htrans : IsTrans α (Ordered key ident tie) := ⟨by
    rintro a b c (hab | ⟨hab, htab⟩) (hbc | ⟨hbc, htbc⟩)
    · exact .inl (lt_trans hab hbc)
    · exact .inl (hbc ▸ hab)
    · exact .inl (hab ▸ hbc)
    · exact .inr ⟨hab.trans hbc, htab.trans htbc⟩⟩
  exact List.pairwise_insertionSort _ _

theorem Ordered.key_le {a b : α} (h : Ordered key ident tie a b) : key a ≤ key b := by
  rcases h with h | ⟨h, -⟩
  · exact le_of_lt h
  · exact le_of_eq h

theorem arrange_sorted : (arrange key ident tie rows).Pairwise fun a b => key a ≤ key b :=
  arrange_pairwise.imp Ordered.key_le

end arrange

/-! ## Where a row stands -/

section place

variable {α κ : Type} [LinearOrder κ] {key : α → κ} {l rows s t : List α} {x : α} {n : Nat}

/-- How many rows have a smaller key. -/
def before (key : α → κ) (l : List α) (x : α) : Nat := l.countP fun a => key a < key x

/-- How many rows share the key. -/
def sharing (key : α → κ) (l : List α) (x : α) : Nat := l.countP fun a => key a = key x

/-- A cut after `n` rows falls inside the run of rows that share the key of `x`. -/
def Cuts (key : α → κ) (l : List α) (n : Nat) (x : α) : Prop :=
  before key l x < n ∧ n < before key l x + sharing key l x

instance : Decidable (Cuts key l n x) := inferInstanceAs (Decidable (_ ∧ _))

theorem before_perm (h : l.Perm rows) : before key l x = before key rows x := h.countP_eq _

theorem sharing_perm (h : l.Perm rows) : sharing key l x = sharing key rows x := h.countP_eq _

theorem cuts_perm (h : l.Perm rows) : Cuts key l n x ↔ Cuts key rows n x := by
  unfold Cuts
  rw [before_perm h, sharing_perm h]

/-- In a sorted list the rows with a smaller key stand before `x`. -/
theorem before_le_length (hsorted : (s ++ x :: t).Pairwise fun a b => key a ≤ key b) :
    before key (s ++ x :: t) x ≤ s.length := by
  obtain ⟨-, hx, -⟩ := List.pairwise_append.mp hsorted
  have hrest : (x :: t).countP (fun a => key a < key x) = 0 := by
    rw [List.countP_eq_zero]
    intro a ha
    rw [decide_eq_true_eq, not_lt]
    rcases List.mem_cons.mp ha with rfl | ha
    · exact le_refl _
    · exact List.rel_of_pairwise_cons hx ha
  unfold before
  rw [List.countP_append, hrest]
  exact List.countP_le_length

/-- In a sorted list only rows with a smaller or the same key stand before `x`. -/
theorem length_lt_before_add_sharing (hsorted : (s ++ x :: t).Pairwise fun a b => key a ≤ key b) :
    s.length < before key (s ++ x :: t) x + sharing key (s ++ x :: t) x := by
  obtain ⟨-, -, hs⟩ := List.pairwise_append.mp hsorted
  have hsplit : s.countP (fun a => key a < key x) + s.countP (fun a => key a = key x)
      = s.length := by
    rw [List.length_eq_countP_add_countP fun a => decide (key a < key x)]
    congr 1
    apply List.countP_congr
    intro a ha
    have hle := hs a ha x List.mem_cons_self
    simp only [decide_eq_true_eq, not_lt]
    exact ⟨fun h => h.ge, fun h => le_antisymm hle h⟩
  have hself : 1 ≤ (x :: t).countP (fun a => key a = key x) := by
    rw [Nat.one_le_iff_ne_zero, ← Nat.pos_iff_ne_zero, List.countP_pos_iff]
    exact ⟨x, List.mem_cons_self, by simp⟩
  unfold before sharing
  rw [List.countP_append, List.countP_append]
  omega

theorem length_le_before (hs : ∀ a ∈ s, key a < key x) :
    s.length ≤ before key (s ++ x :: t) x := by
  have hall : s.countP (fun a => key a < key x) = s.length := by
    rw [List.countP_eq_length]
    intro a ha
    exact decide_eq_true (hs a ha)
  unfold before
  rw [List.countP_append]
  omega

theorem before_add_sharing_le_length (key : α → κ) (l : List α) (x : α) :
    before key l x + sharing key l x ≤ l.length := by
  unfold before sharing
  rw [List.length_eq_countP_add_countP fun a => decide (key a < key x)]
  apply Nat.add_le_add_left
  apply List.countP_mono_left
  intro a _ heq
  simp only [decide_eq_true_eq] at heq ⊢
  exact not_lt_of_ge heq.ge

theorem before_add_sharing_le (ht : ∀ b ∈ t, key x < key b) :
    before key (s ++ x :: t) x + sharing key (s ++ x :: t) x ≤ s.length + 1 := by
  have hbefore : (x :: t).countP (fun a => key a < key x) = 0 := by
    rw [List.countP_eq_zero]
    intro a ha
    rw [decide_eq_true_eq, not_lt]
    rcases List.mem_cons.mp ha with rfl | ha
    · exact le_refl _
    · exact le_of_lt (ht a ha)
  have hsharing : t.countP (fun a => key a = key x) = 0 := by
    rw [List.countP_eq_zero]
    intro a ha
    rw [decide_eq_true_eq]
    exact ne_of_gt (ht a ha)
  have hsplit := before_add_sharing_le_length key s x
  unfold before sharing at hsplit ⊢
  rw [List.countP_append, List.countP_append, hbefore, List.countP_cons, hsharing]
  simp only [decide_true, if_true]
  omega

/-- Unless the cut falls inside the run of `x`, the number of smaller keys decides on which side of
it `x` stands. -/
theorem mem_take_iff_before (hsorted : l.Pairwise fun a b => key a ≤ key b) (hnodup : l.Nodup)
    (hx : x ∈ l) (hcut : ¬ Cuts key l n x) : x ∈ l.take n ↔ before key l x < n := by
  obtain ⟨s, t, rfl⟩ := List.append_of_mem hx
  rw [Lists.mem_take_iff_length hnodup]
  have hlow := before_le_length hsorted
  have hhigh := length_lt_before_add_sharing hsorted
  unfold Cuts at hcut
  omega

end place

/-! ## All pages together -/

section pages

variable {α ι κ : Type} [LinearOrder κ] {key : α → κ} {ident : α → ι} {rows : List α}
  {limit : Nat}

/-- What stands before a cut between two runs is the same in every query. -/
theorem take_perm_take (hnodup : rows.Nodup) {n : Nat} (hcut : ∀ x ∈ rows, ¬ Cuts key rows n x)
    (tie tie' : ι → Nat) :
    ((arrange key ident tie rows).take n).Perm ((arrange key ident tie' rows).take n) := by
  have hmem : ∀ (tie : ι → Nat) (x : α), x ∈ (arrange key ident tie rows).take n ↔
      x ∈ rows ∧ before key rows x < n := by
    intro tie x
    have hperm : (arrange key ident tie rows).Perm rows := arrange_perm
    have hiff : x ∈ rows → (x ∈ (arrange key ident tie rows).take n ↔ before key rows x < n) := by
      intro hx
      rw [mem_take_iff_before arrange_sorted (hperm.nodup_iff.mpr hnodup) (hperm.mem_iff.mpr hx)
        (fun h => hcut x hx ((cuts_perm hperm).mp h)), before_perm hperm]
    constructor
    · intro h
      have hx : x ∈ rows := hperm.mem_iff.mp (List.mem_of_mem_take h)
      exact ⟨hx, (hiff hx).mp h⟩
    · rintro ⟨hx, h⟩
      exact (hiff hx).mpr h
  have htake : ∀ tie : ι → Nat, ((arrange key ident tie rows).take n).Nodup := fun tie =>
    (arrange_perm.nodup_iff.mpr hnodup).sublist (List.take_sublist _ _)
  rw [List.perm_ext_iff_of_nodup (htake tie) (htake tie')]
  intro x
  rw [hmem, hmem]

/-- If no cut falls inside a run, pages of different queries fit together. -/
theorem pages_perm_of_uncut (ident : α → ι) (hnodup : rows.Nodup)
    (hcut : ∀ k, ∀ x ∈ rows, ¬ Cuts key rows (k * limit) x) (tie : Nat → ι → Nat)
    (tie' : ι → Nat) (n : Nat) :
    ((List.range n).flatMap fun k => page (arrange key ident (tie k) rows) limit k).Perm
      ((arrange key ident tie' rows).take (n * limit)) := by
  induction n with
  | zero => simp
  | succ n ih =>
    rw [List.range_succ, List.flatMap_append, List.flatMap_singleton]
    have hsame : ∀ k, ((arrange key ident (tie n) rows).take (k * limit)).Perm
        ((arrange key ident tie' rows).take (k * limit)) :=
      fun k => take_perm_take hnodup (hcut k) _ _
    have hpages := (ih.trans (hsame n).symm).append_right
      (page (arrange key ident (tie n) rows) limit n)
    rw [← take_succ_page] at hpages
    exact hpages.trans (hsame (n + 1))

theorem all_pages_perm (ident : α → ι) (hnodup : rows.Nodup)
    (hcut : ∀ k, ∀ x ∈ rows, ¬ Cuts key rows (k * limit) x) (tie : Nat → ι → Nat) {n : Nat}
    (hn : rows.length ≤ n * limit) :
    ((List.range n).flatMap fun k => page (arrange key ident (tie k) rows) limit k).Perm rows := by
  have hperm := pages_perm_of_uncut ident hnodup hcut tie (fun _ => 0) n
  have hlength : (arrange key ident (fun _ => 0) rows).length ≤ n * limit := by
    rw [arrange_perm.length_eq]
    exact hn
  rw [List.take_of_length_le hlength] at hperm
  exact hperm.trans arrange_perm

/-- A query may put `x` at the head of its run. -/
theorem mem_take_of_first [DecidableEq ι] (hident : (rows.map ident).Nodup) {n : Nat} {x : α}
    (hx : x ∈ rows) (hn : before key rows x < n) :
    x ∈ (arrange key ident (fun i => if i = ident x then 0 else 1) rows).take n := by
  have hperm : (arrange key ident (fun i => if i = ident x then 0 else 1) rows).Perm rows :=
    arrange_perm
  have hordered : (arrange key ident (fun i => if i = ident x then 0 else 1) rows).Pairwise _ :=
    arrange_pairwise
  have hidents := (hperm.map ident).nodup_iff.mpr hident
  rw [← before_perm hperm] at hn
  obtain ⟨s, t, hsplit⟩ := List.append_of_mem (hperm.mem_iff.mpr hx)
  rw [hsplit] at hordered hidents hn ⊢
  rw [Lists.mem_take_iff_length (hidents.of_map _)]
  refine Nat.lt_of_le_of_lt (length_le_before fun a ha => ?_) hn
  rcases (List.pairwise_append.mp hordered).2.2 a ha x List.mem_cons_self with hlt | ⟨-, htie⟩
  · exact hlt
  · -- nothing else has the tie-break value of `x`
    have hne : ident a ≠ ident x := by
      rw [List.map_append, List.nodup_append] at hidents
      exact hidents.2.2 _ (List.mem_map_of_mem ha) _ List.mem_cons_self
    dsimp only at htie
    rw [if_neg hne, if_pos rfl] at htie
    omega

/-- A query may put `x` at the end of its run. -/
theorem mem_drop_of_last [DecidableEq ι] (hident : (rows.map ident).Nodup) {n : Nat} {x : α}
    (hx : x ∈ rows) (hn : n < before key rows x + sharing key rows x) :
    x ∈ (arrange key ident (fun i => if i = ident x then 1 else 0) rows).drop n := by
  have hperm : (arrange key ident (fun i => if i = ident x then 1 else 0) rows).Perm rows :=
    arrange_perm
  have hordered : (arrange key ident (fun i => if i = ident x then 1 else 0) rows).Pairwise _ :=
    arrange_pairwise
  have hidents := (hperm.map ident).nodup_iff.mpr hident
  rw [← before_perm hperm, ← sharing_perm hperm] at hn
  obtain ⟨s, t, hsplit⟩ := List.append_of_mem (hperm.mem_iff.mpr hx)
  rw [hsplit] at hordered hidents hn ⊢
  have hlast : ∀ b ∈ t, key x < key b := by
    intro b hb
    have hxb := List.rel_of_pairwise_cons (List.pairwise_append.mp hordered).2.1 hb
    rcases hxb with hlt | ⟨-, htie⟩
    · exact hlt
    · have hne : ident b ≠ ident x := by
        rw [List.map_append, List.nodup_append, List.map_cons, List.nodup_cons] at hidents
        intro heq
        exact hidents.2.1.1 (heq ▸ List.mem_map_of_mem hb)
      dsimp only at htie
      rw [if_neg hne, if_pos rfl] at htie
      omega
  have hle : n ≤ s.length := by
    have := before_add_sharing_le (s := s) hlast
    omega
  rw [List.drop_append_of_le_length hle]
  exact List.mem_append_right _ List.mem_cons_self

/-- If a cut falls inside the run of `x`, a query may put `x` before it and another one after. -/
theorem pages_repeat_of_cut [DecidableEq ι] (hident : (rows.map ident).Nodup) {k n : Nat} {x : α}
    (hx : x ∈ rows) (hcut : Cuts key rows (k * limit) x) (hn : rows.length ≤ n * limit) :
    ∃ tie : Nat → ι → Nat,
      ¬ ((List.range n).flatMap fun j => page (arrange key ident (tie j) rows) limit j).Nodup := by
  -- order the tie with `x` first up to the cut and last from there on: it is on both sides
  let first : ι → Nat := fun i => if i = ident x then 0 else 1
  let last : ι → Nat := fun i => if i = ident x then 1 else 0
  refine ⟨fun j => if j < k then first else last, fun hnodup => ?_⟩
  have hkn : k ≤ n := by
    have hlt : k * limit < n * limit := by
      have hinside := hcut.2
      have hall := before_add_sharing_le_length key rows x
      omega
    exact Nat.le_of_lt (Nat.lt_of_mul_lt_mul_right hlt)
  have hrange : List.range n = List.range' 0 k ++ List.range' k (n - k) := by
    have happend := List.range'_append_1 (s := 0) (m := k) (n := n - k)
    rw [Nat.zero_add, Nat.add_sub_cancel' hkn] at happend
    rw [happend, List.range_eq_range']
  have hfirst : (List.range' 0 k).flatMap (fun j => page (arrange key ident
      (if j < k then first else last) rows) limit j)
      = (arrange key ident first rows).take (k * limit) := by
    have hpages := flatMap_page (arrange key ident first rows) limit 0 k
    rw [Nat.zero_mul, List.drop_zero] at hpages
    rw [← hpages]
    apply List.flatMap_congr
    intro j hj
    have hlt : j < k := by
      have := (List.mem_range'_1.mp hj).2
      omega
    rw [if_pos hlt]
  have hlast : (List.range' k (n - k)).flatMap (fun j => page (arrange key ident
      (if j < k then first else last) rows) limit j)
      = (arrange key ident last rows).drop (k * limit) := by
    have hpages := flatMap_page (arrange key ident last rows) limit k (n - k)
    rw [List.take_of_length_le] at hpages
    · rw [← hpages]
      apply List.flatMap_congr
      intro j hj
      rw [if_neg (Nat.not_lt.mpr (List.mem_range'_1.mp hj).1)]
    · rw [List.length_drop, arrange_perm.length_eq, Nat.sub_mul]
      omega
  rw [hrange, List.flatMap_append, hfirst, hlast] at hnodup
  exact List.disjoint_of_nodup_append hnodup (mem_take_of_first hident hx hcut.1)
    (mem_drop_of_last hident hx hcut.2)

end pages

end Store.Paging
