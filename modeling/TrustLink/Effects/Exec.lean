import TrustLink.Effects.Prog

/-!
# Effects — sequential execution

A `Machine` answers calls: it holds a state, and what it does not decide itself (the clock,
a fault, the reply of a remote service) is the `Choice` the environment makes at that call.
`Prog.exec` runs one program alone against a machine; `exec_of_wp` is the bridge to the
proof side: what `wp` promises against the machine's own protocol holds of every execution
whose choices are admissible.
-/

namespace Effects

/-- An executable answerer of calls. -/
structure Machine (S : Sig) where
  State : Type
  Choice : Type
  handle : Choice → (c : S.Call) → State → Except S.Err (S.Resp c) × State

/-- A call with its answer. -/
abbrev Answered (S : Sig) := (c : S.Call) × Except S.Err (S.Resp c)

/-- The call was rejected. -/
def Answered.rejected {S : Sig} : Answered S → Bool
  | ⟨_, .ok _⟩ => false
  | ⟨_, .error _⟩ => true

/-- A service of which nothing is known: the environment answers every call as it likes. The
machine only keeps what was answered, newest first. -/
abbrev Machine.oracle (S : Sig) : Machine S where
  State := List (Answered S)
  Choice := (c : S.Call) → Except S.Err (S.Resp c)
  handle ch c log := (ch c, ⟨c, ch c⟩ :: log)

/-- The machine with an observer, who takes notes of the calls and their answers, newest first. The
observer sees the state a call is made in. -/
abbrev Machine.watching {S : Sig} {γ : Type} (M : Machine S)
    (watch : M.State → (c : S.Call) → Except S.Err (S.Resp c) → List γ) : Machine S where
  State := M.State × List γ
  Choice := M.Choice
  handle ch c s :=
    ((M.handle ch c s.1).1, (M.handle ch c s.1).2, watch s.1 c (M.handle ch c s.1).1 ++ s.2)

/-- An observer who sees the calls and their answers only. -/
abbrev Machine.noting {S : Sig} {γ : Type} (M : Machine S)
    (note : (c : S.Call) → Except S.Err (S.Resp c) → List γ) : Machine S :=
  M.watching fun _ => note

/-- The machine as a protocol: any call may be made, and it is answered as `handle` answers
it under some choice in `A`. -/
def Machine.protocol {S : Sig} (M : Machine S) (A : M.Choice → Prop) : Protocol S M.State where
  ok _ _ := True
  step s c r s' := ∃ ch, A ch ∧ M.handle ch c s = (r, s')

namespace Prog

variable {S : Sig} {α : Type}

/-- Run `p` alone. The environment `env` makes the `n`-th choice at the `n`-th call. -/
def exec (M : Machine S) : Prog S α → (Nat → M.Choice) → M.State → Except S.Err α × M.State
  | .done r, _, s => (r, s)
  | .call c k, env, s =>
    let a := M.handle (env 0) c s
    (k a.1).exec M (fun n => env (n + 1)) a.2

end Prog

open Prog

variable {S : Sig} {α β : Type} {M : Machine S}

theorem exec_of_wp {A : M.Choice → Prop} {p : Prog S α} {Q : Except S.Err α → M.State → Prop}
    {s : M.State} (h : p.wp (M.protocol A) Q s) {env : Nat → M.Choice}
    (henv : ∀ n, A (env n)) : Q (p.exec M env s).1 (p.exec M env s).2 := by
  induction p generalizing s env with
  | done r => exact h
  | call c k ih =>
    have hcall := h.2 (M.handle (env 0) c s).1 (M.handle (env 0) c s).2 ⟨env 0, henv 0, rfl⟩
    exact ih _ hcall fun n => henv (n + 1)

/-- What holds whatever the environment chooses holds in this one. -/
theorem exec_of_wp_any {p : Prog S α} {Q : Except S.Err α → M.State → Prop} {s : M.State}
    (h : p.wp (M.protocol fun _ => True) Q s) (env : Nat → M.Choice) :
    Q (p.exec M env s).1 (p.exec M env s).2 :=
  exec_of_wp h fun _ => trivial

/-- A call against the machine's own protocol: one obligation for each admissible choice. -/
theorem wp_machine_perform {A : M.Choice → Prop} {c : S.Call}
    {Q : Except S.Err (S.Resp c) → M.State → Prop} {s : M.State} :
    (perform c).wp (M.protocol A) Q s ↔
      ∀ ch, A ch → Q (M.handle ch c s).1 (M.handle ch c s).2 := by
  constructor
  · intro h ch hch
    exact h.2 _ _ ⟨ch, hch, rfl⟩
  · intro h
    refine ⟨trivial, ?_⟩
    rintro r s' ⟨ch, hch, heq⟩
    have hQ := h ch hch
    rw [heq] at hQ
    exact hQ

/-- A call, and then the rest of the program on its answer. -/
theorem wp_machine_bind {A : M.Choice → Prop} {c : S.Call} {f : S.Resp c → Prog S β}
    {Q : Except S.Err β → M.State → Prop} {s : M.State} :
    (perform c >>= f).wp (M.protocol A) Q s ↔
      ∀ ch, A ch → match (M.handle ch c s).1 with
        | .ok a => (f a).wp (M.protocol A) Q (M.handle ch c s).2
        | .error e => Q (.error e) (M.handle ch c s).2 := by
  rw [wp_bind, wp_machine_perform (M := M)]
  refine forall₂_congr fun ch _ => ?_
  cases (M.handle ch c s).1 with
  | ok a => exact Iff.rfl
  | error e => exact Iff.rfl

/-- What is so whatever happens. -/
theorem wp_machine_any {A : M.Choice → Prop} {p : Prog S α}
    {Q : Except S.Err α → M.State → Prop} {s : M.State} (h : ∀ r s', Q r s') :
    p.wp (M.protocol A) Q s := by
  induction p generalizing s with
  | done r => exact h r s
  | call c k ih => exact ⟨trivial, fun r s' _ => ih r⟩

/-- The log of the oracle only grows. -/
theorem wp_oracle_extends (p : Prog S α) (log : List (Answered S)) :
    p.wp ((Machine.oracle S).protocol fun _ => True) (fun _ log' => ∃ new, log' = new ++ log)
      log := by
  induction p generalizing log with
  | done r => exact ⟨[], rfl⟩
  | call c k ih =>
    refine ⟨trivial, ?_⟩
    rintro r _ ⟨ch, -, heq⟩
    cases heq
    refine wp_mono (ih _ _) ?_
    rintro _ _ ⟨new, rfl⟩
    exact ⟨new ++ [⟨c, ch c⟩], List.append_cons new _ log⟩

/-- What a strict program adds to the log are answers to calls of the kind. At most one of them is a
rejection, and none is if the program returns. -/
theorem Prog.Strict.wp_oracle {K : S.Call → Prop} {p : Prog S α} (hp : p.Strict K)
    (log : List (Answered S)) :
    p.wp ((Machine.oracle S).protocol fun _ => True)
      (fun r log' => ∃ new, log' = new ++ log ∧ (∀ a ∈ new, K a.1) ∧
        new.countP Answered.rejected ≤ 1 ∧ (∀ a, r = .ok a → new.countP Answered.rejected = 0))
      log := by
  induction p generalizing log with
  | done r => exact ⟨[], rfl, nofun, Nat.zero_le 1, fun _ _ => rfl⟩
  | call c k ih =>
    refine ⟨trivial, ?_⟩
    rintro r _ ⟨ch, -, heq⟩
    cases heq
    have hone : ∀ a ∈ [(⟨c, ch c⟩ : Answered S)], K a.1 := by
      intro a ha
      rw [List.mem_singleton.mp ha]
      exact hp.1
    cases hanswer : ch c with
    | error e =>
      obtain ⟨e', he'⟩ := hp.2.1 e
      rw [he']
      refine ⟨[⟨c, .error e⟩], rfl, ?_, Nat.le_refl 1, nofun⟩
      rw [← hanswer]
      exact hone
    | ok v =>
      refine wp_mono (ih _ (hp.2.2 v) _) ?_
      rintro r log' ⟨new, rfl, hnew, hcount, hreturned⟩
      have hquiet : (new ++ [(⟨c, .ok v⟩ : Answered S)]).countP Answered.rejected
          = new.countP Answered.rejected := by
        rw [List.countP_append]
        rfl
      refine ⟨new ++ [⟨c, .ok v⟩], List.append_cons new _ log, ?_, ?_, ?_⟩
      · rw [← hanswer]
        exact List.forall_mem_append.mpr ⟨hnew, hone⟩
      · rw [hquiet]
        exact hcount
      · rw [hquiet]
        exact hreturned

/-- A machine that does what `N` does and keeps more: what `N` ensures, it ensures. -/
theorem wp_project {M N : Machine S} {f : M.State → N.State} {g : M.Choice → N.Choice}
    (hhandle : ∀ ch c s,
      N.handle (g ch) c (f s) = ((M.handle ch c s).1, f (M.handle ch c s).2))
    {A : M.Choice → Prop} {B : N.Choice → Prop} (hAB : ∀ ch, A ch → B (g ch)) {p : Prog S α}
    {Q : Except S.Err α → N.State → Prop} {s : M.State} (h : p.wp (N.protocol B) Q (f s)) :
    p.wp (M.protocol A) (fun r s' => Q r (f s')) s := by
  induction p generalizing s with
  | done r => exact h
  | call c k ih =>
    refine ⟨trivial, ?_⟩
    rintro r s' ⟨ch, hch, heq⟩
    apply ih r
    apply h.2 r (f s')
    refine ⟨g ch, hAB ch hch, ?_⟩
    rw [hhandle, heq]

/-- The observer changes nothing. -/
theorem exec_watching {γ : Type} {watch : M.State → (c : S.Call) → Except S.Err (S.Resp c) → List γ}
    (p : Prog S α) (env : Nat → M.Choice) (s : M.State) (notes : List γ) :
    (p.exec (M.watching watch) env (s, notes)).2.1 = (p.exec M env s).2 := by
  induction p generalizing env s notes with
  | done r => rfl
  | call c k ih => exact ih _ _ _ _

/-- How many calls a run of `p` makes. -/
def Prog.calls (M : Machine S) : Prog S α → (Nat → M.Choice) → M.State → Nat
  | .done _, _, _ => 0
  | .call c k, env, s =>
    let a := M.handle (env 0) c s
    (k a.1).calls M (fun n => env (n + 1)) a.2 + 1

/-- What comes next starts where `p` has stopped, with the choices that are left. -/
theorem exec_andThen (p : Prog S α) (f : Except S.Err α → Prog S β) (env : Nat → M.Choice)
    (s : M.State) :
    (p.andThen f).exec M env s
      = (f (p.exec M env s).1).exec M (fun n => env (n + p.calls M env s)) (p.exec M env s).2 := by
  induction p generalizing env s with
  | done r => rfl
  | call c k ih =>
    show ((k _).andThen f).exec M _ _ = _
    rw [ih]
    rfl

theorem exec_bind_ok {p : Prog S α} {f : α → Prog S β} {env : Nat → M.Choice} {s s' : M.State}
    {a : α} (h : p.exec M env s = (.ok a, s')) :
    (p >>= f).exec M env s = (f a).exec M (fun n => env (n + p.calls M env s)) s' := by
  show (p.andThen _).exec M env s = _
  rw [exec_andThen, h]

theorem exec_bind_error {p : Prog S α} {f : α → Prog S β} {env : Nat → M.Choice} {s s' : M.State}
    {e : S.Err} (h : p.exec M env s = (.error e, s')) :
    (p >>= f).exec M env s = (.error e, s') := by
  show (p.andThen _).exec M env s = _
  rw [exec_andThen, h]
  rfl

/-- An error that is only logged: the state is the same. -/
theorem exec_logged (p : Prog S Unit) (env : Nat → M.Choice) (s : M.State) :
    ((Prog.tryCatch p fun _ => pure ()).exec M env s).2 = (p.exec M env s).2 := by
  rw [Prog.tryCatch, exec_andThen]
  cases (p.exec M env s).1 with
  | ok _ => rfl
  | error _ => rfl

end Effects
