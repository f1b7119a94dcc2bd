import TrustLink.Effects.Lock
import TrustLink.Effects.Reliance

/-!
# Effects — claims by check-then-act

A resource is claimed in two calls: one reads that it is free, a later one takes it without
looking again. Whether the taker has it to itself depends on the schedule. The rule below puts
the two halves together: the fact that was read is protected as in `Effects/Reliance.lean`, and
where it is still true when the taking call is made, that call locks the resource as in
`Effects/Lock.lean`. In every undisturbed run what is owned is locked and has one owner.

`Claiming` collects what has to be known about single calls. A further invariant `J` between what
an observer of the run has seen and the pool may use both halves in its step.
-/

namespace Effects

namespace Monitor

variable {S : Sig} {M : Machine S} {L σ φ γ : Type}

/-- What single calls do to what is known, owned, free and locked. -/
structure Claiming (m : Monitor S L σ) (knows owns : σ → φ → Prop) (uses : φ → S.Call → Prop)
    (free locked : φ → M.State → Prop) : Prop where
  init_knows : ∀ l f, ¬ knows (m.init l) f
  init_owns : ∀ l f, ¬ owns (m.init l) f
  answers : ∀ v c s ch, m.ans v c (M.handle ch c s).1
  /-- What is known has just been read, or was known before and is as free as it was. -/
  reads : ∀ v c s ch, m.ok v c → ∀ f, knows (m.next v c (M.handle ch c s).1) f →
    free f (M.handle ch c s).2 ∨ (knows v f ∧ (free f s → free f (M.handle ch c s).2))
  /-- A call whose facts are true works the lock. -/
  locks : ∀ v c s ch, m.ok v c → (∀ f, knows v f → uses f c → free f s) →
    (∀ f, owns v f → locked f s) → ∀ f, m.LockStep owns locked v c s ch f

section run

variable {m : Monitor S L σ} {knows owns : σ → φ → Prop} {uses : φ → S.Call → Prop}
  {free locked : φ → M.State → Prop} {prog : L → Prog S Unit}
  {Q : L → Except S.Err Unit → σ → Prop}

/-- Nobody takes a resource that somebody else has read to be free and may still take. -/
abbrev NoRace (m : Monitor S L σ) (knows : σ → φ → Prop) (uses : φ → S.Call → Prop)
    (free : φ → M.State → Prop) : Pool M L → Move M L → Prop :=
  m.Undisturbed knows uses free fun _ _ _ => True

/-- The rule with an observer and a further invariant. -/
theorem Claiming.run_observed (h : m.Claiming (M := M) knows owns uses free locked)
    (hprog : ∀ l, (prog l).wp m.protocol (Q l) (m.init l)) (obs : Pool M L → Move M L → List γ)
    {J : List γ → Pool M L → Prop}
    (hidle : ∀ P mv seen, Pool.next prog P mv = P → J seen P → J (seen ++ obs P mv) P)
    (hspawn : ∀ P l seen, J seen P → J (seen ++ obs P (.spawn l))
      { P with threads := P.threads ++ [⟨l, [], prog l⟩] })
    (hstep : ∀ P i ch t c k seen, m.Sound knows uses free P → m.Exclusive owns locked P →
      J seen P → P.threads[i]? = some t → t.rest = .call c k → m.ok (m.view t) c →
      J (seen ++ obs P (.step i ch)) (P.advance i t c k ch))
    (ms : List (Move M L)) (s : M.State)
    (hrun : Pool.Admissible prog (m.NoRace knows uses free) ⟨s, []⟩ ms) (hJ : J [] ⟨s, []⟩) :
    m.Settles Q (Pool.run prog ⟨s, []⟩ ms) ∧
      m.Exclusive owns locked (Pool.run prog ⟨s, []⟩ ms) ∧
      J (Pool.observe prog obs ⟨s, []⟩ ms) (Pool.run prog ⟨s, []⟩ ms) := by
  have hresult := m.run_settles (Q := Q) (K := m.NoRace knows uses free) obs
    (I := fun seen P => m.Sound knows uses free P ∧ m.Exclusive owns locked P ∧ J seen P)
    ?_ ?_ ?_ ms ⟨s, []⟩ [] hrun (m.settles_nil s) ⟨sound_nil s, exclusive_nil s, hJ⟩
  · obtain ⟨hsettles, -, hexclusive, hJ'⟩ := hresult
    exact ⟨hsettles, hexclusive, hJ'⟩
  · intro P mv seen hsame hI
    exact ⟨hI.1, hI.2.1, hidle P mv seen hsame hI.2.2⟩
  · intro P l seen _ hI
    refine ⟨hprog l, fun t ht f hrelies => ?_, exclusive_spawn (h.init_owns l) hI.2.1,
      hspawn P l seen hI.2.2⟩
    rcases Pool.mem_spawn ht with hold | rfl
    · exact hI.1 t hold f hrelies
    · exact absurd hrelies.1 (h.init_knows l f)
  · intro P i ch t c k seen hK hI _ ht hr hok
    obtain ⟨hsound, hexclusive, hJ⟩ := hI
    have hmem := List.mem_of_getElem? ht
    -- what the thread relies on holds when it makes the call, so it takes no lock it may not
    have hlock : ∀ f, m.LockStep owns locked (m.view t) c P.state ch f :=
      h.locks (m.view t) c P.state ch hok (fun f => holds_of_head hsound hmem hr)
        (hexclusive.locked t hmem)
    exact ⟨h.answers (m.view t) c P.state ch,
      sound_advance (h.reads (m.view t) c P.state ch hok) hK hsound ht hr,
      exclusive_advance hlock ht hexclusive, hstep P i ch t c k seen hsound hexclusive hJ ht hr hok⟩

/-- The rule: in every run without a race, what is owned is locked and has one owner. -/
theorem Claiming.run (h : m.Claiming (M := M) knows owns uses free locked)
    (hprog : ∀ l, (prog l).wp m.protocol (Q l) (m.init l)) (ms : List (Move M L)) (s : M.State)
    (hrun : Pool.Admissible prog (m.NoRace knows uses free) ⟨s, []⟩ ms) :
    m.Settles Q (Pool.run prog ⟨s, []⟩ ms) ∧
      m.Exclusive owns locked (Pool.run prog ⟨s, []⟩ ms) := by
  have hresult := h.run_observed (γ := Unit) hprog (fun _ _ => []) (J := fun _ _ => True)
    (fun _ _ _ _ _ => trivial) (fun _ _ _ _ => trivial)
    (fun _ _ _ _ _ _ _ _ _ _ _ _ _ => trivial) ms s hrun trivial
  exact ⟨hresult.1, hresult.2.1⟩

end run

end Monitor

end Effects
