import TrustLink.Effects.Pool

/-!
# Effects — what an execution has returned

A pool runs programs for their effects; their values are forgotten. But a thread remembers its calls
and their answers, and a program does nothing else: what it has returned is a function of its
history (`Thread.returned`). `run_returns` is the invariant rule of a pool for statements about
these values: each program is checked once, with what it promises about its value.
-/

namespace Effects

namespace Prog

variable {S : Sig} {α β : Type} [DecidableEq S.Call]

/-- What is left of a program after the calls it has made, oldest first. -/
def after : Prog S α → List (Event S) → Option (Prog S α)
  | p, [] => some p
  | .done _, _ :: _ => none
  | .call c k, e :: events => if h : e.call = c then (k (h ▸ e.resp)).after events else none

/-- What a program has settled with. -/
def result : Prog S α → Option (Except S.Err α)
  | .done r => some r
  | .call _ _ => none

@[simp] theorem after_nil (p : Prog S α) : p.after [] = some p := by
  cases p <;> rfl

theorem after_snoc {p : Prog S α} {events : List (Event S)} {c : S.Call}
    {k : Except S.Err (S.Resp c) → Prog S α} (h : p.after events = some (.call c k))
    (r : Except S.Err (S.Resp c)) : p.after (events ++ [⟨c, r⟩]) = some (k r) := by
  induction events generalizing p with
  | nil =>
    rw [after_nil] at h
    obtain rfl : p = .call c k := Option.some.inj h
    simp [after]
  | cons e events ih =>
    cases p with
    | done r => cases h
    | call c' k' =>
      simp only [List.cons_append, after] at h ⊢
      split at h
      · next hcall =>
        rw [dif_pos hcall]
        exact ih h
      · cases h

end Prog

variable {S : Sig} {M : Machine S} {L σ : Type} {β : L → Type} [DecidableEq S.Call]

/-- What a thread that runs `body` has returned, if it has. -/
def Thread.returned {α : Type} (t : Thread S L) (body : Prog S α) : Option (Except S.Err α) :=
  (body.after t.past.reverse).bind Prog.result

namespace Monitor

variable (m : Monitor S L σ) (body : (l : L) → Prog S (β l))
  (Q : (l : L) → Except S.Err (β l) → σ → Prop)

/-- Every thread runs its body, will keep to the monitor from where it stands, and return what `Q`
says. -/
def Returns (P : Pool M L) : Prop :=
  ∀ t ∈ P.threads, ∃ q, (body t.label).after t.past.reverse = some q ∧ t.rest = q.void ∧
    q.wp m.protocol (Q t.label) (m.view t)

variable {m body Q}

theorem returns_nil (s : M.State) : m.Returns body Q (⟨s, []⟩ : Pool M L) :=
  nofun

/-- What a thread has returned is so. -/
theorem Returns.returned {P : Pool M L} (h : m.Returns body Q P) {t : Thread S L}
    (ht : t ∈ P.threads) {r : Except S.Err (β t.label)}
    (hr : t.returned (body t.label) = some r) : Q t.label r (m.view t) := by
  obtain ⟨q, hq, _, hwp⟩ := h t ht
  unfold Thread.returned at hr
  rw [hq] at hr
  cases q with
  | done r' =>
    cases hr
    exact hwp
  | call c k => cases hr

/-- A thread that has settled has returned something. -/
theorem Returns.settled {P : Pool M L} (h : m.Returns body Q P) {t : Thread S L}
    (ht : t ∈ P.threads) {r : Except S.Err Unit} (hr : t.outcome = some r) :
    ∃ r', t.returned (body t.label) = some r' ∧ r = r'.map fun _ => () := by
  obtain ⟨q, hq, hrest, _⟩ := h t ht
  unfold Thread.outcome at hr
  rw [hrest] at hr
  cases q with
  | done r' =>
    refine ⟨r', ?_, ?_⟩
    · unfold Thread.returned
      rw [hq]
      rfl
    · exact (Option.some.inj hr).symm
  | call c k => cases hr

/-- A thread with no call in flight has returned. -/
theorem Returns.idle {P : Pool M L} (h : m.Returns body Q P) {t : Thread S L} (ht : t ∈ P.threads)
    (hidle : t.inFlight = none) :
    ∃ r, t.returned (body t.label) = some r ∧ Q t.label r (m.view t) := by
  obtain ⟨q, hq, hrest, hwp⟩ := h t ht
  cases q with
  | done r =>
    refine ⟨r, ?_, hwp⟩
    unfold Thread.returned
    rw [hq]
    rfl
  | call c k =>
    rw [Thread.inFlight_of_rest hrest] at hidle
    cases hidle

theorem Returns.obeyed {P : Pool M L} (h : m.Returns body Q P) : m.Obeyed P := by
  intro t ht
  obtain ⟨q, _, hrest, hwp⟩ := h t ht
  rw [hrest, wp_void]
  exact wp_mono hwp fun _ _ _ => trivial

theorem returns_spawn {P : Pool M L} {l : L} (h : m.Returns body Q P)
    (hbody : (body l).wp m.protocol (Q l) (m.init l)) :
    m.Returns body Q { P with threads := P.threads ++ [⟨l, [], (body l).void⟩] } := by
  intro t ht
  rcases Pool.mem_spawn ht with hold | rfl
  · exact h t hold
  · exact ⟨body l, Prog.after_nil _, rfl, hbody⟩

theorem returns_advance {P : Pool M L} {i : Nat} {t : Thread S L} {c : S.Call}
    {k : Except S.Err (S.Resp c) → Prog S Unit} {ch : M.Choice} (h : m.Returns body Q P)
    (ht : P.threads[i]? = some t) (hr : t.rest = .call c k)
    (hans : m.ans (m.view t) c (M.handle ch c P.state).1) :
    m.Returns body Q (P.advance i t c k ch) := by
  intro t' ht'
  rcases Pool.mem_advance ht' with rfl | hold
  · obtain ⟨q, hq, hrest, hwp⟩ := h t (List.mem_of_getElem? ht)
    -- what is left of the body makes the same call
    rw [hr] at hrest
    cases q with
    | done r => cases hrest
    | call c' k' =>
      cases hrest
      refine ⟨k' (M.handle ch c P.state).1, ?_, rfl, ?_⟩
      · simp only [List.reverse_cons]
        exact Prog.after_snoc hq _
      · exact hwp.2 _ _ ⟨hans, rfl⟩
  · exact h t' hold

/-- The invariant rule for interleaved runs, where the programs promise something of their
values. -/
theorem run_returns {γ : Type} {K : Pool M L → Move M L → Prop} (m : Monitor S L σ)
    (body : (l : L) → Prog S (β l)) (Q : (l : L) → Except S.Err (β l) → σ → Prop)
    (obs : Pool M L → Move M L → List γ) {I : List γ → Pool M L → Prop}
    (hbody : ∀ l, (body l).wp m.protocol (Q l) (m.init l))
    (hidle : ∀ P mv seen, Pool.next (fun l => (body l).void) P mv = P → I seen P →
      I (seen ++ obs P mv) P)
    (hspawn : ∀ P l seen, K P (.spawn l) → I seen P →
      I (seen ++ obs P (.spawn l)) { P with threads := P.threads ++ [⟨l, [], (body l).void⟩] })
    (hstep : ∀ P i ch t c k seen, K P (.step i ch) → I seen P → m.Returns body Q P →
      P.threads[i]? = some t → t.rest = .call c k → m.ok (m.view t) c →
      m.ans (m.view t) c (M.handle ch c P.state).1 ∧
        I (seen ++ obs P (.step i ch)) (P.advance i t c k ch))
    (ms : List (Move M L)) (P : Pool M L) (seen : List γ)
    (hadm : Pool.Admissible (fun l => (body l).void) K P ms) (hreturns : m.Returns body Q P)
    (hI : I seen P) :
    m.Returns body Q (Pool.run (fun l => (body l).void) P ms) ∧
      I (seen ++ Pool.observe (fun l => (body l).void) obs P ms)
        (Pool.run (fun l => (body l).void) P ms) := by
  have hrun := m.run_observed obs (I := fun seen P => m.Returns body Q P ∧ I seen P) ?_ ?_ ?_ ms P
    seen hadm hreturns.obeyed ⟨hreturns, hI⟩
  · exact hrun.2
  · intro P mv seen hsame hboth
    exact ⟨hboth.1, hidle P mv seen hsame hboth.2⟩
  · intro P l seen hK hboth
    refine ⟨?_, returns_spawn hboth.1 (hbody l), hspawn P l seen hK hboth.2⟩
    show (body l).void.wp m.protocol _ _
    rw [wp_void]
    exact wp_mono (hbody l) fun _ _ _ => trivial
  · intro P i ch t c k seen hK hboth _ ht hr hok
    obtain ⟨hans, hkept⟩ := hstep P i ch t c k seen hK hboth.2 hboth.1 ht hr hok
    exact ⟨hans, returns_advance hboth.1 ht hr hans, hkept⟩

end Monitor

end Effects
