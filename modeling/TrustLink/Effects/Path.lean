import Mathlib.Data.List.Count

/-!
# Effects — paths of a labelled transition relation

A relation `T s l s'` says that `s` may become `s'` and is seen to do `l`. A path strings such
steps together and keeps everything that was seen, newest first. Two rules are all that is needed
to reason about whole histories: a property of states that every step keeps holds along a path,
and an amount that every step pays for bounds how often something can be seen (`countP_le`).
-/

namespace Effects

variable {σ ε : Type}

inductive Path (T : σ → List ε → σ → Prop) : σ → List ε → σ → Prop
  | refl {s : σ} : Path T s [] s
  | step {s s' s'' : σ} {seen new : List ε} (h : Path T s seen s') (hT : T s' new s'') :
      Path T s (new ++ seen) s''

namespace Path

variable {T T' : σ → List ε → σ → Prop} {s s' s'' : σ} {seen new : List ε}

theorem single (h : T s new s') : Path T s new s' := by
  have hpath := Path.step Path.refl h
  rwa [List.append_nil] at hpath

theorem trans (h : Path T s seen s') (h' : Path T s' new s'') : Path T s (new ++ seen) s'' := by
  induction h' with
  | refl => exact h
  | step _ hT ih =>
    rw [List.append_assoc]
    exact Path.step ih hT

theorem mono (hT : ∀ s new s', T s new s' → T' s new s') (h : Path T s seen s') :
    Path T' s seen s' := by
  induction h with
  | refl => exact Path.refl
  | step _ hstep ih => exact Path.step ih (hT _ _ _ hstep)

/-- The invariant rule. -/
theorem preserves {p : σ → Prop} (hstep : ∀ s new s', T s new s' → p s → p s')
    (h : Path T s seen s') (hs : p s) : p s' := by
  induction h with
  | refl => exact hs
  | step _ hT ih => exact hstep _ _ _ hT ih

/-- What every step shows, the path shows. -/
theorem forall_mem {p : ε → Prop} (hstep : ∀ s new s', T s new s' → ∀ e ∈ new, p e)
    (h : Path T s seen s') : ∀ e ∈ seen, p e := by
  induction h with
  | refl => exact nofun
  | step _ hT ih =>
    intro e he
    rcases List.mem_append.mp he with hnew | hold
    · exact hstep _ _ _ hT e hnew
    · exact ih e hold

/-- The counting rule: if every step that shows `p` so many times adds as much to `f`, then `f`
bounds how often `p` is seen. -/
theorem countP_le {p : ε → Bool} {f : σ → Nat}
    (hstep : ∀ s new s', T s new s' → f s + new.countP p ≤ f s') (h : Path T s seen s') :
    f s + seen.countP p ≤ f s' := by
  induction h with
  | refl => exact Nat.le_refl _
  | step _ hT ih =>
    have hnew := hstep _ _ _ hT
    rw [List.countP_append]
    omega

end Path

end Effects
