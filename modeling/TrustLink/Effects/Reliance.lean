import TrustLink.Effects.Pool

/-!
# Effects — check-then-act

An execution reads a fact about the store and acts on it some calls later. What makes the
action right is that the fact is *still* true, and that is a condition on the schedule: no
other execution falsifies a fact that somebody has read and may still act on.

A fact `f` has a truth value in the store (`holds f`), the calls it justifies (`uses f`), and
the monitor states in which it has been read (`knows s f`). `Relies` says that an execution
has read `f` and may still make a call that `f` justifies; `Undisturbed` is the condition on a
move; `sound_run` is the result: in every undisturbed run, what is relied on is true.
-/

namespace Effects

namespace Prog

variable {S : Sig} {α : Type}

/-- Some continuation of the program makes a call that satisfies `p`. -/
def MayCall (p : S.Call → Prop) : Prog S α → Prop
  | .done _ => False
  | .call c k => p c ∨ ∃ r, (k r).MayCall p

theorem mayCall_head {p : S.Call → Prop} {c : S.Call} {k : Except S.Err (S.Resp c) → Prog S α}
    (h : p c) : (Prog.call c k).MayCall p := Or.inl h

theorem mayCall_of_cont {p : S.Call → Prop} {c : S.Call}
    {k : Except S.Err (S.Resp c) → Prog S α} {r : Except S.Err (S.Resp c)}
    (h : (k r).MayCall p) : (Prog.call c k).MayCall p := Or.inr ⟨r, h⟩

end Prog

namespace Monitor

variable {S : Sig} {M : Machine S} {L σ φ : Type} (m : Monitor S L σ)
  (knows : σ → φ → Prop) (uses : φ → S.Call → Prop) (holds : φ → M.State → Prop)

/-- The execution has read `f`, and may still make a call that `f` justifies. -/
def Relies (t : Thread S L) (f : φ) : Prop :=
  knows (m.view t) f ∧ t.rest.MayCall (uses f)

/-- The call that is completed meets `C`, and falsifies nothing that another execution relies
on. -/
def Undisturbed (C : M.State → M.Choice → S.Call → Prop) (P : Pool M L) : Move M L → Prop
  | .spawn _ => True
  | .step i ch => ∀ t c k, P.threads[i]? = some t → t.rest = .call c k →
      C P.state ch c ∧
      ∀ f, holds f P.state → ¬ holds f (M.handle ch c P.state).2 →
        ∀ j t', j ≠ i → P.threads[j]? = some t' → ¬ m.Relies knows uses t' f

/-- Whatever an execution relies on is true. -/
def Sound (P : Pool M L) : Prop :=
  ∀ t ∈ P.threads, ∀ f, m.Relies knows uses t f → holds f P.state

variable {m knows uses holds} {prog : L → Prog S Unit}
  {C : M.State → M.Choice → S.Call → Prop}

theorem sound_nil (s : M.State) : m.Sound knows uses holds (⟨s, []⟩ : Pool M L) :=
  nofun

/-- A call completed while all other executions have settled disturbs nobody. -/
theorem undisturbed_of_settled {P : Pool M L} {i : Nat} {ch : M.Choice}
    (hC : ∀ c, C P.state ch c)
    (hsettled : ∀ j t, j ≠ i → P.threads[j]? = some t → ∃ r, t.rest = .done r) :
    m.Undisturbed knows uses holds C P (.step i ch) := by
  intro t c k _ _
  refine ⟨hC c, fun f _ _ j t' hne ht' hrel => ?_⟩
  obtain ⟨r, hdone⟩ := hsettled j t' hne ht'
  rw [Relies, hdone] at hrel
  exact hrel.2

/-- So a run that takes the programs one after the other is undisturbed. -/
theorem undisturbed_in_turn (hC : ∀ s ch c, C s ch c) {P : Pool M L} {mv : Move M L}
    (h : P.InTurn mv) : m.Undisturbed knows uses holds C P mv := by
  cases mv with
  | spawn l => trivial
  | step i ch =>
    refine undisturbed_of_settled (hC _ _) fun j t hne ht => ?_
    have hdone := h (t, j) (List.mem_zipIdx_iff_getElem?.mpr ht) hne
    unfold Thread.outcome at hdone
    cases hrest : t.rest with
    | done r => exact ⟨r, rfl⟩
    | call c k =>
      rw [hrest] at hdone
      cases hdone

/-- The step lemma: one undisturbed call keeps every relied-on fact true. What the mover knows
afterwards it has either just read, or knew before and has not falsified itself; what the
others rely on, `Undisturbed` protects. -/
theorem sound_advance {P : Pool M L} {i : Nat} {ch : M.Choice} {t : Thread S L} {c : S.Call}
    {k : Except S.Err (S.Resp c) → Prog S Unit}
    (hread : ∀ f, knows (m.next (m.view t) c (M.handle ch c P.state).1) f →
      holds f (M.handle ch c P.state).2 ∨
        (knows (m.view t) f ∧ (holds f P.state → holds f (M.handle ch c P.state).2)))
    (hK : m.Undisturbed knows uses holds C P (.step i ch))
    (hI : m.Sound knows uses holds P)
    (ht : P.threads[i]? = some t) (hr : t.rest = .call c k) :
    m.Sound knows uses holds (P.advance i t c k ch) := by
  intro t' ht' f hrel
  obtain ⟨j, hj⟩ := List.mem_iff_getElem?.mp ht'
  rcases Pool.advance_threads_cases hj with ⟨_, rfl⟩ | ⟨hne, hold⟩
  · obtain ⟨hknow, hmay⟩ := hrel
    rcases hread f hknow with hnow | ⟨hbefore, hkeep⟩
    · exact hnow
    · refine hkeep (hI t (List.mem_of_getElem? ht) f ⟨hbefore, ?_⟩)
      rw [hr]
      exact Prog.mayCall_of_cont hmay
  · have hbefore : holds f P.state := hI t' (List.mem_of_getElem? hold) f hrel
    refine Classical.byContradiction fun hafter => ?_
    exact (hK t c k ht hr).2 f hbefore hafter j t' hne hold hrel

/-- A fact that justifies the call an execution is about to complete, and that it has read, is
true. -/
theorem holds_of_head {P : Pool M L} {t : Thread S L} {c : S.Call}
    {k : Except S.Err (S.Resp c) → Prog S Unit} (hI : m.Sound knows uses holds P)
    (ht : t ∈ P.threads) (hr : t.rest = .call c k) {f : φ} (hknow : knows (m.view t) f)
    (huse : uses f c) : holds f P.state := by
  refine hI t ht f ⟨hknow, ?_⟩
  rw [hr]
  exact Prog.mayCall_head huse

/-- The run lemma: in every undisturbed run, whatever an execution relies on is true. A property
`J` of the store that every call keeps *when the facts behind it are true* holds along. -/
theorem sound_run {J : M.State → Prop} (haccepts : ∀ l, m.Accepts prog l)
    (hinit : ∀ l f, ¬ knows (m.init l) f) (hans : ∀ v c s ch, m.ans v c (M.handle ch c s).1)
    (hread : ∀ v c s ch, C s ch c → m.ok v c → ∀ f,
      knows (m.next v c (M.handle ch c s).1) f →
        holds f (M.handle ch c s).2 ∨ (knows v f ∧ (holds f s → holds f (M.handle ch c s).2)))
    (hJ : ∀ v c s ch, m.ok v c → (∀ f, knows v f → uses f c → holds f s) → J s →
      J (M.handle ch c s).2)
    (ms : List (Move M L)) (P : Pool M L)
    (hadm : Pool.Admissible prog (m.Undisturbed knows uses holds C) P ms)
    (hobeyed : m.Obeyed P) (hI : m.Sound knows uses holds P ∧ J P.state) :
    m.Obeyed (Pool.run prog P ms) ∧
      m.Sound knows uses holds (Pool.run prog P ms) ∧ J (Pool.run prog P ms).state := by
  refine m.run_invariant (I := fun P => m.Sound knows uses holds P ∧ J P.state) ?_ ?_ ms P hadm
    hobeyed hI
  · intro P l _ hI
    refine ⟨haccepts l, fun t ht f hrel => ?_, hI.2⟩
    rcases Pool.mem_spawn ht with hold | rfl
    · exact hI.1 t hold f hrel
    · exact absurd hrel.1 (hinit l f)
  · intro P i ch t c k hK hI _ ht hr hok
    have hC := (hK t c k ht hr).1
    have htrue : ∀ f, knows (m.view t) f → uses f c → holds f P.state :=
      fun f => holds_of_head hI.1 (List.mem_of_getElem? ht) hr
    exact ⟨hans _ _ _ _, sound_advance (hread _ _ _ _ hC hok) hK hI.1 ht hr,
      hJ _ _ _ _ hok htrue hI.2⟩

end Monitor

end Effects
