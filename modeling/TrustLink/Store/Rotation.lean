import Mathlib.Data.Finset.Card

/-!
# Store — waiting in a rotating queue

A queue that serves its front in batches and sends what it has served to the back. One member waits
and is not served. Its account (`Ledger`) holds who is ahead of it, who has been taken from the
front and is not served yet, how many were served, and how many have joined the queue.

Nobody gets ahead but by joining, and who is served is not ahead any more. So whoever is served was
ahead at the beginning or has joined since, each time once: `Ledger.Step.covered`.
-/

namespace Store

/-- The account of a member that waits. -/
structure Ledger (ι : Type) where
  ahead : Finset ι
  /-- Taken from the front, and not served yet. -/
  pending : Finset ι
  served : Nat
  joined : Nat

namespace Ledger

variable {ι : Type} [DecidableEq ι] {l l' : Ledger ι} {p : Nat}

inductive Step (l : Ledger ι) : Ledger ι → Prop where
  /-- Members leave, and others join, ahead or not. -/
  | drift {ahead joining : Finset ι} (hahead : ahead ⊆ l.ahead ∪ joining) :
      l.Step { l with ahead := ahead, joined := l.joined + joining.card }
  | take {batch : Finset ι} (hpending : l.pending = ∅) (hbatch : batch ⊆ l.ahead) :
      l.Step { l with pending := batch }
  /-- One of the batch is served, while members leave and join. -/
  | serve {ahead joining : Finset ι} {i : ι} (hi : i ∈ l.pending)
      (hahead : ahead ⊆ l.ahead ∪ joining) (hleft : i ∉ ahead) :
      l.Step ⟨ahead, l.pending.erase i, l.served + 1, l.joined + joining.card⟩

/-- Those ahead and those served were among the first `p`, or have joined. -/
def Covered (p : Nat) (l : Ledger ι) : Prop :=
  (l.ahead ∪ l.pending).card + l.served ≤ p + l.joined

theorem Step.covered (hstep : l.Step l') (h : l.Covered p) : l'.Covered p := by
  unfold Covered at h ⊢
  cases hstep with
  | @drift ahead joining hahead =>
    have hsub : ahead ∪ l.pending ⊆ (l.ahead ∪ l.pending) ∪ joining := by
      intro i hi
      rcases Finset.mem_union.mp hi with hi | hi
      · have := hahead hi
        simp only [Finset.mem_union] at this ⊢
        tauto
      · exact Finset.mem_union_left _ (Finset.mem_union_right _ hi)
    have hcard := (Finset.card_le_card hsub).trans (Finset.card_union_le _ _)
    show (ahead ∪ l.pending).card + l.served ≤ p + (l.joined + joining.card)
    omega
  | @take batch hpending hbatch =>
    have hunion : l.ahead ∪ batch = l.ahead ∪ l.pending := by
      rw [hpending, Finset.union_empty, Finset.union_eq_left.mpr hbatch]
    show (l.ahead ∪ batch).card + l.served ≤ p + l.joined
    rw [hunion]
    exact h
  | @serve ahead joining i hi hahead hleft =>
    -- the one that is served is counted before, and not after
    have hsub : ahead ∪ l.pending.erase i ⊆ ((l.ahead ∪ l.pending) ∪ joining).erase i := by
      intro j hj
      rw [Finset.mem_erase]
      rcases Finset.mem_union.mp hj with hj | hj
      · refine ⟨fun hji => hleft (hji ▸ hj), ?_⟩
        have := hahead hj
        simp only [Finset.mem_union] at this ⊢
        tauto
      · rw [Finset.mem_erase] at hj
        exact ⟨hj.1, Finset.mem_union_left _ (Finset.mem_union_right _ hj.2)⟩
    have hmem : i ∈ (l.ahead ∪ l.pending) ∪ joining :=
      Finset.mem_union_left _ (Finset.mem_union_right _ hi)
    have hcard := Finset.card_le_card hsub
    rw [Finset.card_erase_of_mem hmem] at hcard
    have hpos := Finset.card_pos.mpr ⟨i, hmem⟩
    have hunion := Finset.card_union_le (l.ahead ∪ l.pending) joining
    show (ahead ∪ l.pending.erase i).card + (l.served + 1) ≤ p + (l.joined + joining.card)
    omega

end Ledger

end Store
