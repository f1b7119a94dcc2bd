import TrustLink.Effects.Pool

/-!
# Effects — locks in the store

A store-side lock: executions come to own resources through their calls, and the store says
which resources are locked. Two facts about single calls make it a lock. Whoever owns a
resource after a call owned it before or found it unlocked (`gain`), and a locked resource is
unlocked only by an execution that owned it and owns it no longer (`keep`).

From them: what is owned is locked, and no two executions own one resource (`Exclusive`). A
resource that is locked and owned by nobody is `Sealed`: no call of anybody unlocks it again.

A lease is a lock that may be taken over while it is locked, because whoever has it may be gone.
It excludes like a lock in every run in which it is not taken over from an owner that is still
there (`NotTakenOver`).
-/

namespace Effects

namespace Monitor

variable {S : Sig} {M : Machine S} {L σ φ : Type} (m : Monitor S L σ)
  (owns : σ → φ → Prop) (locked : φ → M.State → Prop)

/-- What is owned is locked, and has one owner. -/
structure Exclusive (P : Pool M L) : Prop where
  locked : ∀ t ∈ P.threads, ∀ f, owns (m.view t) f → locked f P.state
  unique : ∀ (i j : Nat) t t' f, P.threads[i]? = some t → P.threads[j]? = some t' →
    owns (m.view t) f → owns (m.view t') f → i = j

/-- The two facts about a call of an execution in the monitor state `v`. -/
structure LockStep (v : σ) (c : S.Call) (s : M.State) (ch : M.Choice) (f : φ) : Prop where
  gain : owns (m.next v c (M.handle ch c s).1) f →
    locked f (M.handle ch c s).2 ∧ (owns v f ∨ ¬ locked f s)
  keep : locked f s → locked f (M.handle ch c s).2 ∨
    (owns v f ∧ ¬ owns (m.next v c (M.handle ch c s).1) f)

/-- The resource is locked, and nobody is there to unlock it. -/
def Sealed (f : φ) (P : Pool M L) : Prop :=
  locked f P.state ∧ ∀ t ∈ P.threads, ¬ owns (m.view t) f

variable {m owns locked}

/-- The same two facts, about a call whose answer is known. -/
theorem lockStep_of_handle {v : σ} {c : S.Call} {s s' : M.State} {ch : M.Choice} {f : φ}
    {r : Except S.Err (S.Resp c)} (heq : M.handle ch c s = (r, s'))
    (hgain : owns (m.next v c r) f → locked f s' ∧ (owns v f ∨ ¬ locked f s))
    (hkeep : locked f s → locked f s' ∨ (owns v f ∧ ¬ owns (m.next v c r) f)) :
    m.LockStep owns locked v c s ch f where
  gain := by rw [heq]; exact hgain
  keep := by rw [heq]; exact hkeep

theorem exclusive_nil (s : M.State) : m.Exclusive owns locked (⟨s, []⟩ : Pool M L) where
  locked := nofun
  unique := nofun

theorem exclusive_spawn {prog : L → Prog S Unit} {P : Pool M L} {l : L}
    (hinit : ∀ f, ¬ owns (m.init l) f) (h : m.Exclusive owns locked P) :
    m.Exclusive owns locked { P with threads := P.threads ++ [⟨l, [], prog l⟩] } where
  locked := by
    intro t ht f hown
    rcases Pool.mem_spawn ht with hold | rfl
    · exact h.locked t hold f hown
    · exact absurd hown (hinit f)
  unique := by
    intro i j t t' f hi hj hown hown'
    rcases Pool.spawn_threads_cases hi with hi | ⟨_, rfl⟩
    · rcases Pool.spawn_threads_cases hj with hj | ⟨_, rfl⟩
      · exact h.unique i j t t' f hi hj hown hown'
      · exact absurd hown' (hinit f)
    · exact absurd hown (hinit f)

section advance

variable {P : Pool M L} {i : Nat} {t : Thread S L} {c : S.Call}
  {k : Except S.Err (S.Resp c) → Prog S Unit} {ch : M.Choice}

/-- What a call must not do to the others: come to own what one of them owns, or unlock it. -/
theorem exclusive_advance_of
    (hgain : ∀ f, owns (m.next (m.view t) c (M.handle ch c P.state).1) f →
      locked f (M.handle ch c P.state).2 ∧
        ∀ j t', j ≠ i → P.threads[j]? = some t' → ¬ owns (m.view t') f)
    (hkeep : ∀ f j t', j ≠ i → P.threads[j]? = some t' → owns (m.view t') f →
      locked f (M.handle ch c P.state).2)
    (h : m.Exclusive owns locked P) : m.Exclusive owns locked (P.advance i t c k ch) where
  locked := by
    intro t' ht' f hown
    obtain ⟨j, hj⟩ := List.mem_iff_getElem?.mp ht'
    rcases Pool.advance_threads_cases hj with ⟨_, rfl⟩ | ⟨hne, hold⟩
    · exact (hgain f hown).1
    · exact hkeep f j t' hne hold hown
  unique := by
    intro j j' t₁ t₂ f hj hj' hown hown'
    rcases Pool.advance_threads_cases hj with ⟨rfl, rfl⟩ | ⟨hne, hold⟩
    · rcases Pool.advance_threads_cases hj' with ⟨rfl, _⟩ | ⟨hne', hold'⟩
      · rfl
      · exact absurd hown' ((hgain f hown).2 j' t₂ hne' hold')
    · rcases Pool.advance_threads_cases hj' with ⟨rfl, rfl⟩ | ⟨_, hold'⟩
      · exact absurd hown ((hgain f hown').2 j t₁ hne hold)
      · exact h.unique j j' t₁ t₂ f hold hold' hown hown'

theorem exclusive_advance (hstep : ∀ f, m.LockStep owns locked (m.view t) c P.state ch f)
    (ht : P.threads[i]? = some t) (h : m.Exclusive owns locked P) :
    m.Exclusive owns locked (P.advance i t c k ch) := by
  apply exclusive_advance_of _ _ h
  · intro f hgained
    refine ⟨((hstep f).gain hgained).1, fun j t' hne ht' hown' => ?_⟩
    -- another owner is impossible: the resource was locked
    rcases ((hstep f).gain hgained).2 with hown | hfree
    · exact hne (h.unique j i t' t f ht' ht hown' hown)
    · exact hfree (h.locked t' (List.mem_of_getElem? ht') f hown')
  · intro f j t' hne ht' hown'
    -- the others keep what they own: only an owner could have unlocked it
    rcases (hstep f).keep (h.locked t' (List.mem_of_getElem? ht') f hown') with hkept | ⟨hmover, _⟩
    · exact hkept
    · exact absurd (h.unique j i t' t f ht' ht hown' hmover) hne

theorem sealed_advance {f : φ} (hstep : m.LockStep owns locked (m.view t) c P.state ch f)
    (ht : P.threads[i]? = some t) (h : m.Sealed owns locked f P) :
    m.Sealed owns locked f (P.advance i t c k ch) := by
  obtain ⟨hlocked, hnobody⟩ := h
  have hmover : ¬ owns (m.view t) f := hnobody t (List.mem_of_getElem? ht)
  refine ⟨?_, fun t' ht' hown => ?_⟩
  · rcases hstep.keep hlocked with hkept | ⟨hown, _⟩
    · exact hkept
    · exact absurd hown hmover
  · rcases Pool.mem_advance ht' with rfl | hold
    · rcases (hstep.gain hown).2 with hbefore | hfree
      · exact hmover hbefore
      · exact hfree hlocked
    · exact hnobody t' hold hown

/-- An owner that gives a resource up without unlocking it seals it. -/
theorem sealed_of_dropped {f : φ} (ht : P.threads[i]? = some t)
    (h : m.Exclusive owns locked P) (hown : owns (m.view t) f)
    (hdropped : ¬ owns (m.next (m.view t) c (M.handle ch c P.state).1) f)
    (hlocked : locked f (M.handle ch c P.state).2) :
    m.Sealed owns locked f (P.advance i t c k ch) := by
  refine ⟨hlocked, fun t' ht' hown' => ?_⟩
  obtain ⟨j, hj⟩ := List.mem_iff_getElem?.mp ht'
  rcases Pool.advance_threads_cases hj with ⟨_, rfl⟩ | ⟨hne, hold⟩
  · exact hdropped hown'
  · exact hne (h.unique j i t' t f hold ht hown' hown)

/-! ### Leases -/

variable (m owns locked) in
/-- The two facts about a call for a lease: `takes f c s` says that the call `c` takes over, in the
state `s`, a resource that is locked. -/
structure LeaseStep (takes : φ → S.Call → M.State → Prop) (v : σ) (c : S.Call) (s : M.State)
    (ch : M.Choice) (f : φ) : Prop where
  gain : owns (m.next v c (M.handle ch c s).1) f →
    locked f (M.handle ch c s).2 ∧ (owns v f ∨ ¬ locked f s ∨ takes f c s)
  keep : locked f s → locked f (M.handle ch c s).2 ∨ owns v f ∨ takes f c s

variable (m owns) in
/-- The call of the move takes nothing over that another execution owns. -/
def NotTakenOver (takes : φ → S.Call → M.State → Prop) (P : Pool M L) : Move M L → Prop
  | .spawn _ => True
  | .step i _ => ∀ t c k, P.threads[i]? = some t → t.rest = .call c k → ∀ f, takes f c P.state →
      ∀ j t', j ≠ i → P.threads[j]? = some t' → ¬ owns (m.view t') f

theorem exclusive_advance_lease {takes : φ → S.Call → M.State → Prop}
    (hstep : ∀ f, m.LeaseStep owns locked takes (m.view t) c P.state ch f)
    (hfree : m.NotTakenOver owns takes P (.step i ch)) (ht : P.threads[i]? = some t)
    (hr : t.rest = .call c k) (h : m.Exclusive owns locked P) :
    m.Exclusive owns locked (P.advance i t c k ch) := by
  apply exclusive_advance_of _ _ h
  · intro f hgained
    refine ⟨((hstep f).gain hgained).1, fun j t' hne ht' hown' => ?_⟩
    rcases ((hstep f).gain hgained).2 with hown | hunlocked | htakes
    · exact hne (h.unique j i t' t f ht' ht hown' hown)
    · exact hunlocked (h.locked t' (List.mem_of_getElem? ht') f hown')
    · exact hfree t c k ht hr f htakes j t' hne ht' hown'
  · intro f j t' hne ht' hown'
    rcases (hstep f).keep (h.locked t' (List.mem_of_getElem? ht') f hown') with
      hkept | hmover | htakes
    · exact hkept
    · exact absurd (h.unique j i t' t f ht' ht hown' hmover) hne
    · exact absurd hown' (hfree t c k ht hr f htakes j t' hne ht')

end advance

end Monitor

end Effects
