import TrustLink.Effects.Pool
import TrustLink.Data.Lists

/-!
# Effects — calls implemented by programs of a lower level

A service that one program calls as a single step is itself a program, over calls of its own. A
`Layer` names, for some calls of `S`, the program over `R` that implements them; `Layer.expand` puts
these programs in the place of the calls. The expanded program is interleaved at the calls of *both*
levels, so while one thread is in the middle of an implementation any other may move.

`Layer.run_refines` says that this adds nothing: if the abstract machine may answer an implemented
call with any outcome of its implementation, and is not changed by it, then every interleaved run of
the expanded programs has an interleaved run of the original ones that ends in the same state, and
thread by thread the history of the one is the history of the other with every implemented call
written out.
-/

namespace Effects

variable {S R : Sig} {α β L : Type}

/-- The calls of `S` and those of `R` side by side. A call of the lower level hands its outcome over
as a value, an error of `R` included. -/
abbrev Sig.over (S R : Sig) : Sig where
  Call := S.Call ⊕ R.Call
  Resp
    | .inl c => S.Resp c
    | .inr c => Except R.Err (R.Resp c)
  Err := S.Err

/-- The two machines next to each other; neither sees the other's state. -/
abbrev Machine.beside (M : Machine S) (N : Machine R) : Machine (S.over R) where
  State := M.State × N.State
  Choice := M.Choice × N.Choice
  handle ch c s :=
    match c with
    | .inl c => ((M.handle ch.1 c s.1).1, (M.handle ch.1 c s.1).2, s.2)
    | .inr c => (.ok (N.handle ch.2 c s.2).1, s.1, (N.handle ch.2 c s.2).2)

/-- Answered as in `log`, newest first, `p` gets to `q`. -/
inductive Prog.Reaches (p : Prog S α) : List (Answered S) → Prog S α → Prop where
  | start : Reaches p [] p
  | answered {log : List (Answered S)} {c : S.Call} {k : Except S.Err (S.Resp c) → Prog S α}
      (h : Reaches p log (.call c k)) (r : Except S.Err (S.Resp c)) :
      Reaches p (⟨c, r⟩ :: log) (k r)

/-- Go on with the value; an error ends the program. -/
def Prog.onValue (f : α → Prog S β) : Except S.Err α → Prog S β
  | .ok a => f a
  | .error e => .done (.error e)

/-- The programs over `R` that implement calls of `S`, and how an error of theirs is reported. -/
structure Layer (S R : Sig) where
  body : (c : S.Call) → Option (Prog R (S.Resp c))
  report : R.Err → S.Err

namespace Layer

variable (Λ : Layer S R)

/-- Run an implementation, then `f` on its outcome. -/
def embed (f : Except S.Err α → Prog (S.over R) β) : Prog R α → Prog (S.over R) β
  | .done r => f (r.mapError Λ.report)
  | .call c k => .call (.inr c) (.onValue fun r => embed f (k r))

/-- The program with its implementations in the place of the calls. -/
def expand : Prog S α → Prog (S.over R) α
  | .done r => .done r
  | .call c k =>
    match Λ.body c with
    | none => .call (.inl c) fun r => expand (k r)
    | some b => Λ.embed (fun r => expand (k r)) b

theorem expand_call_none {c : S.Call} {k : Except S.Err (S.Resp c) → Prog S α}
    (h : Λ.body c = none) : Λ.expand (.call c k) = .call (.inl c) fun r => Λ.expand (k r) := by
  rw [expand, h]

theorem expand_call_some {c : S.Call} {k : Except S.Err (S.Resp c) → Prog S α}
    {b : Prog R (S.Resp c)} (h : Λ.body c = some b) :
    Λ.expand (.call c k) = Λ.embed (fun r => Λ.expand (k r)) b := by
  rw [expand, h]

/-- A call of the lower level, as an event of the expanded program. -/
def innerEvent (a : Answered R) : Event (S.over R) := ⟨.inr a.1, .ok a.2⟩

/-- The first history is the second with every implemented call written out. Newest first. -/
inductive Unfolds : List (Event (S.over R)) → List (Event S) → Prop where
  | nil : Unfolds [] []
  | outer {past : List (Event (S.over R))} {past' : List (Event S)} {c : S.Call}
      (r : Except S.Err (S.Resp c)) (hbody : Λ.body c = none) (h : Unfolds past past') :
      Unfolds (⟨.inl c, r⟩ :: past) (⟨c, r⟩ :: past')
  | implemented {past : List (Event (S.over R))} {past' : List (Event S)} {c : S.Call}
      {b : Prog R (S.Resp c)} {log : List (Answered R)} {r : Except R.Err (S.Resp c)}
      (hbody : Λ.body c = some b) (hran : b.Reaches log (.done r)) (h : Unfolds past past') :
      Unfolds (log.map innerEvent ++ past) (⟨c, r.mapError Λ.report⟩ :: past')

/-- A thread of the expanded program, and the thread of the program itself that it unfolds: both
have settled, both wait for the same call, or the first is inside the implementation of the call
that the second waits for. -/
inductive Unfolding : Thread (S.over R) L → Thread S L → Prop where
  | settled {l : L} {past : List (Event (S.over R))} {past' : List (Event S)}
      (r : Except S.Err Unit) (h : Λ.Unfolds past past') :
      Unfolding ⟨l, past, .done r⟩ ⟨l, past', .done r⟩
  | outer {l : L} {past : List (Event (S.over R))} {past' : List (Event S)} {c : S.Call}
      (k : Except S.Err (S.Resp c) → Prog S Unit) (hbody : Λ.body c = none)
      (h : Λ.Unfolds past past') :
      Unfolding ⟨l, past, .call (.inl c) fun r => Λ.expand (k r)⟩ ⟨l, past', .call c k⟩
  | inside {l : L} {past : List (Event (S.over R))} {past' : List (Event S)} {c : S.Call}
      {b : Prog R (S.Resp c)} {log : List (Answered R)} {c' : R.Call}
      {k' : Except R.Err (R.Resp c') → Prog R (S.Resp c)}
      (k : Except S.Err (S.Resp c) → Prog S Unit) (hbody : Λ.body c = some b)
      (hat : b.Reaches log (.call c' k')) (h : Λ.Unfolds past past') :
      Unfolding ⟨l, log.map innerEvent ++ past, Λ.embed (fun r => Λ.expand (k r)) (.call c' k')⟩
        ⟨l, past', .call c k⟩

/-! ## Refinement -/

section refinement

variable {N : Machine R} (M : Machine S)

/-- The abstract machine may answer an implemented call with any outcome its implementation has,
and the call changes nothing. -/
def Admits : Prop :=
  ∀ c b log r s, Λ.body c = some b → b.Reaches log (.done r) →
    ∃ ch, M.handle ch c s = (r.mapError Λ.report, s)

variable {M} (prog : L → Prog S Unit)

/-- Moves of thread `i` alone bring it to where it is unfolded by `t`. -/
def CatchesUp (P : Pool M L) (i : Nat) (t : Thread (S.over R) L) : Prop :=
  ∃ ms t', Pool.run prog P ms = ⟨P.state, P.threads.set i t'⟩ ∧ Λ.Unfolding t t'

variable {Λ prog}

theorem CatchesUp.of_unfolding {P : Pool M L} {i : Nat} {t : Thread (S.over R) L} {t' : Thread S L}
    (ht : P.threads[i]? = some t') (h : Λ.Unfolding t t') : Λ.CatchesUp prog P i t := by
  obtain ⟨hlt, hget⟩ := List.getElem?_eq_some_iff.mp ht
  refine ⟨[], t', ?_, h⟩
  subst hget
  rw [List.set_getElem_self]
  rfl

/-- After one move of its own the thread catches up: so it does from the start. -/
theorem CatchesUp.of_step {P : Pool M L} {i : Nat} {l : L} {past : List (Event S)} {c : S.Call}
    {k : Except S.Err (S.Resp c) → Prog S Unit} {ch : M.Choice} {r : Except S.Err (S.Resp c)}
    {s : M.State} {t : Thread (S.over R) L} (ht : P.threads[i]? = some ⟨l, past, .call c k⟩)
    (hhandle : M.handle ch c P.state = (r, s))
    (h : Λ.CatchesUp prog ⟨s, P.threads.set i ⟨l, ⟨c, r⟩ :: past, k r⟩⟩ i t) :
    ∃ ms t', Pool.run prog P ms = ⟨s, P.threads.set i t'⟩ ∧ Λ.Unfolding t t' := by
  obtain ⟨ms, t', hrun, hunf⟩ := h
  refine ⟨.step i ch :: ms, t', ?_, hunf⟩
  show Pool.run prog (Pool.next prog P (.step i ch)) ms = _
  rw [Pool.next_step prog ch ht rfl, Pool.advance, hhandle]
  dsimp only
  rw [hrun, List.set_set]

/-- Inside an implementation. When it has ended, the abstract thread gets the outcome. -/
theorem catchesUp_embed (hadmits : Λ.Admits M) {c : S.Call}
    {k : Except S.Err (S.Resp c) → Prog S Unit} {b q : Prog R (S.Resp c)}
    {log : List (Answered R)} (hbody : Λ.body c = some b) (hat : b.Reaches log q)
    {l : L} {past : List (Event (S.over R))} {past' : List (Event S)} (h : Λ.Unfolds past past')
    (hk : ∀ (r : Except S.Err (S.Resp c)) past past' (P : Pool M L) i, Λ.Unfolds past past' →
      P.threads[i]? = some ⟨l, past', k r⟩ →
      Λ.CatchesUp prog P i ⟨l, past, Λ.expand (k r)⟩)
    {P : Pool M L} {i : Nat} (ht : P.threads[i]? = some ⟨l, past', .call c k⟩) :
    Λ.CatchesUp prog P i
      ⟨l, log.map innerEvent ++ past, Λ.embed (fun r => Λ.expand (k r)) q⟩ := by
  cases q with
  | call c' k' => exact .of_unfolding ht (.inside k hbody hat h)
  | done r =>
    obtain ⟨ch, hhandle⟩ := hadmits c b log r P.state hbody hat
    refine CatchesUp.of_step ht hhandle (hk _ _ _ _ i (.implemented hbody hat h) ?_)
    exact List.getElem?_set_self (List.getElem?_eq_some_iff.mp ht).1

/-- A thread whose program is expanded to the other's catches up with it: there are no more calls
to make than implementations that make none. -/
theorem catchesUp_expand (hadmits : Λ.Admits M) (l : L) (p : Prog S Unit) :
    ∀ past past' (P : Pool M L) i, Λ.Unfolds past past' →
      P.threads[i]? = some ⟨l, past', p⟩ → Λ.CatchesUp prog P i ⟨l, past, Λ.expand p⟩ := by
  induction p with
  | done r => exact fun past past' P i h ht => .of_unfolding ht (.settled r h)
  | call c k ih =>
    intro past past' P i h ht
    cases hbody : Λ.body c with
    | none =>
      rw [Λ.expand_call_none hbody]
      exact .of_unfolding ht (.outer k hbody h)
    | some b =>
      rw [Λ.expand_call_some hbody]
      exact catchesUp_embed hadmits hbody .start h ih ht

/-- The pools agree on the abstract state, and thread by thread. -/
def Related (P : Pool (M.beside N) L) (P' : Pool M L) : Prop :=
  P'.state = P.state.1 ∧ List.Forall₂ Λ.Unfolding P.threads P'.threads

/-- The mover has caught up, in a state that agrees: so do the pools. -/
theorem Related.of_catchesUp {P : Pool (M.beside N) L} {P' : Pool M L} (hrel : Λ.Related P P')
    {i : Nat} {t : Thread (S.over R) L} {s : M.State} {n : N.State}
    (h : ∃ ms t', Pool.run prog P' ms = ⟨s, P'.threads.set i t'⟩ ∧ Λ.Unfolding t t') :
    ∃ ms : List (Move M L),
      Λ.Related (⟨(s, n), P.threads.set i t⟩ : Pool (M.beside N) L) (Pool.run prog P' ms) := by
  obtain ⟨ms, t', hrun, hunf⟩ := h
  refine ⟨ms, ?_⟩
  rw [hrun]
  exact ⟨rfl, Lists.forall₂_set hrel.2 hunf i⟩

variable (Λ prog)

/-- One move of the expanded programs is some moves of the original ones. -/
theorem next_refines (hadmits : Λ.Admits M) {P : Pool (M.beside N) L} {P' : Pool M L}
    (hrel : Λ.Related P P') (m : Move (M.beside N) L) :
    ∃ ms : List (Move M L),
      Λ.Related (Pool.next (fun l => Λ.expand (prog l)) P m) (Pool.run prog P' ms) := by
  rcases Pool.next_cases (fun l => Λ.expand (prog l)) P m with
    h | ⟨l, rfl, h⟩ | ⟨i, ch, t, c, k, rfl, ht, hr, h⟩
  · rw [h]
    exact ⟨[], hrel⟩
  · -- the program is started, and caught up with if it begins with implementations without calls
    have hlast : (P'.threads ++ [⟨l, [], prog l⟩])[P'.threads.length]? = some ⟨l, [], prog l⟩ :=
      List.getElem?_concat_length ..
    have hcatch : Λ.CatchesUp prog ⟨P'.state, P'.threads ++ [⟨l, [], prog l⟩]⟩ P'.threads.length
        ⟨l, [], Λ.expand (prog l)⟩ :=
      catchesUp_expand hadmits l (prog l) [] [] _ _ .nil hlast
    obtain ⟨ms, t', hrun, hunf⟩ := hcatch
    refine ⟨.spawn l :: ms, ?_⟩
    rw [h]
    show Λ.Related _ (Pool.run prog (Pool.next prog P' (.spawn l)) ms)
    rw [Pool.next, hrun]
    refine ⟨hrel.1, ?_⟩
    dsimp only
    rw [List.set_append_right _ _ (Nat.le_refl _), Nat.sub_self]
    exact List.rel_append hrel.2 (.cons hunf .nil)
  · rw [h]
    obtain ⟨t', ht', hunf⟩ := Lists.forall₂_getElem? hrel.2 ht
    cases hunf with
    | settled r hpast => cases hr
    | @outer l past past' c₀ k₀ hbody hpast =>
      cases hr
      have hlt := (List.getElem?_eq_some_iff.mp ht').1
      have hhandle : M.handle ch.1 c₀ P'.state = M.handle ch.1 c₀ P.state.1 := by rw [hrel.1]
      refine Related.of_catchesUp hrel (CatchesUp.of_step ht' hhandle ?_)
      exact catchesUp_expand hadmits l _ _ _ _ i (.outer _ hbody hpast) (List.getElem?_set_self hlt)
    | @inside l past past' c₀ b log c' k' k₀ hbody hat hpast =>
      cases hr
      -- the abstract thread still waits for the implemented call, whatever this call is answered
      have hat' := hat.answered (N.handle ch.2 c' P.state.2).1
      have hcatch : Λ.CatchesUp prog P' i _ :=
        catchesUp_embed hadmits hbody hat' hpast (fun r => catchesUp_expand hadmits l (k₀ r)) ht'
      rw [CatchesUp, hrel.1] at hcatch
      exact Related.of_catchesUp hrel hcatch

/-- Every interleaved run of the expanded programs is, but for the calls of the lower level, an
interleaved run of the original ones. -/
theorem run_refines (hadmits : Λ.Admits M) (s : M.State) (n : N.State)
    (ms : List (Move (M.beside N) L)) :
    ∃ ms' : List (Move M L),
      Λ.Related (Pool.run (fun l => Λ.expand (prog l)) (⟨(s, n), []⟩ : Pool (M.beside N) L) ms)
        (Pool.run prog ⟨s, []⟩ ms') := by
  have hrun : ∀ (ms : List (Move (M.beside N) L)) (P : Pool (M.beside N) L) (P' : Pool M L),
      Λ.Related P P' → ∃ ms' : List (Move M L),
        Λ.Related (Pool.run (fun l => Λ.expand (prog l)) P ms) (Pool.run prog P' ms') := by
    intro ms
    induction ms with
    | nil => exact fun P P' hrel => ⟨[], hrel⟩
    | cons m ms ih =>
      intro P P' hrel
      obtain ⟨ms₁, hrel₁⟩ := Λ.next_refines prog hadmits hrel m
      obtain ⟨ms₂, hrel₂⟩ := ih _ _ hrel₁
      refine ⟨ms₁ ++ ms₂, ?_⟩
      rw [Pool.run_append]
      exact hrel₂
  exact hrun ms _ _ ⟨rfl, .nil⟩

end refinement

end Layer

end Effects
