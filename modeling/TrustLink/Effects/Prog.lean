import Mathlib.Logic.Basic

/-!
# Effects — programs as trees of atomic calls

A backend operation is a sequence of awaited calls (a database query, a cache access, a
network request) with pure code in between. Everything that makes such code hard to get
right happens *between* the calls: another request runs, a call is rejected, the process
stops. So a program is represented by the tree of the calls it makes, with one branch for
every answer a call may get, and three different semantics are put on the same tree:

* `Prog.exec` (`Effects/Exec.lean`) — run alone, one call after the other;
* `Pool.run` (`Effects/Pool.lean`) — run interleaved, call by call, with other programs;
* `Prog.wp` (this module) — the weakest precondition against a *protocol*, which is what
  every proof about either of them goes through.

Exceptions are part of the tree: a call is answered by a value or by an error, and
`tryCatch` / `tryFinally` see both.
-/

namespace Effects

/-- A call signature: the calls a program may make, the type of the answer to each of
them, and the errors a call can be rejected with. -/
structure Sig where
  Call : Type
  Resp : Call → Type
  Err : Type

/-- A program: it has settled (with a value or an error), or it makes the call `c` and goes
on with `k` applied to the outcome. -/
inductive Prog (S : Sig) (α : Type) : Type where
  | done (r : Except S.Err α) : Prog S α
  | call (c : S.Call) (k : Except S.Err (S.Resp c) → Prog S α) : Prog S α

namespace Prog

variable {S : Sig} {α β σ : Type}

/-- Run `p`, then `f` on its outcome, whether that is a value or an error. The one
recursion that sequencing, `try`/`catch` and `finally` share. -/
def andThen : Prog S α → (Except S.Err α → Prog S β) → Prog S β
  | .done r, f => f r
  | .call c k, f => .call c fun r => (k r).andThen f

/-- Sequencing: an error ends the program. -/
def bind (p : Prog S α) (f : α → Prog S β) : Prog S β :=
  p.andThen fun
    | .ok a => f a
    | .error e => .done (.error e)

/-- Handle an error of `p`; a value passes through. -/
def tryCatch (p : Prog S α) (h : S.Err → Prog S α) : Prog S α :=
  p.andThen fun
    | .ok a => .done (.ok a)
    | .error e => h e

/-- Run `fin` after `p` whatever its outcome was. An error of `fin` replaces the outcome. -/
def tryFinally (p : Prog S α) (fin : Prog S Unit) : Prog S α :=
  p.andThen fun r => fin.andThen fun
    | .ok _ => .done r
    | .error e => .done (.error e)

/-- The program that makes the single call `c`. -/
def perform (c : S.Call) : Prog S (S.Resp c) :=
  .call c .done

/-- Forget the value a program settles with. -/
def void (p : Prog S α) : Prog S Unit :=
  p.andThen fun r => .done (r.map fun _ => ())

instance : Monad (Prog S) where
  pure a := .done (.ok a)
  bind := Prog.bind

instance : MonadExceptOf S.Err (Prog S) where
  throw e := .done (.error e)
  tryCatch := Prog.tryCatch

end Prog

/-! ## Protocols and weakest preconditions

A protocol is a view of the other side of the calls, with its own state `σ`: which calls may
be made in a state, and which outcomes and next states a call may have. The real store is
one protocol (its state is the store); a monitor that only remembers what a program has read
so far is another. `wp` is defined once for all of them. -/

/-- A call protocol over the states `σ`. -/
structure Protocol (S : Sig) (σ : Type) where
  /-- The call may be made in this state. -/
  ok : σ → S.Call → Prop
  /-- The call may be answered so, leaving this state. -/
  step : σ → (c : S.Call) → Except S.Err (S.Resp c) → σ → Prop

namespace Prog

variable {S : Sig} {α σ : Type}

/-- The weakest precondition: every call of `p` is allowed when it is made, whatever the
earlier ones were answered, and if `p` settles, `Q` holds of the outcome and the state. -/
def wp (P : Protocol S σ) : Prog S α → (Except S.Err α → σ → Prop) → σ → Prop
  | .done r, Q, s => Q r s
  | .call c k, Q, s => P.ok s c ∧ ∀ r s', P.step s c r s' → (k r).wp P Q s'

end Prog

open Prog

variable {S : Sig} {α β σ : Type} {P : Protocol S σ}

@[simp] theorem wp_pure (a : α) (Q : Except S.Err α → σ → Prop) (s : σ) :
    (pure a : Prog S α).wp P Q s ↔ Q (.ok a) s := Iff.rfl

@[simp] theorem wp_throw (e : S.Err) (Q : Except S.Err α → σ → Prop) (s : σ) :
    (throw e : Prog S α).wp P Q s ↔ Q (.error e) s := Iff.rfl

/-- The call has to be allowed, and every answer to be good. -/
@[simp] theorem wp_perform (c : S.Call) (Q : Except S.Err (S.Resp c) → σ → Prop) (s : σ) :
    (perform c).wp P Q s ↔ P.ok s c ∧ ∀ r s', P.step s c r s' → Q r s' := Iff.rfl

/-- The composition rule. Induction on the first program; all the others are instances. -/
theorem wp_andThen (p : Prog S α) (f : Except S.Err α → Prog S β)
    (Q : Except S.Err β → σ → Prop) (s : σ) :
    (p.andThen f).wp P Q s ↔ p.wp P (fun r s' => (f r).wp P Q s') s := by
  induction p generalizing s with
  | done r => exact Iff.rfl
  | call c k ih =>
    simp only [andThen, wp]
    exact and_congr_right fun _ => forall₃_congr fun r s' _ => ih r s'

/-- What follows is judged where it starts; an error is passed on. -/
@[simp] theorem wp_bind (p : Prog S α) (f : α → Prog S β)
    (Q : Except S.Err β → σ → Prop) (s : σ) :
    (p >>= f).wp P Q s ↔ p.wp P (fun r s' => match r with
      | .ok a => (f a).wp P Q s'
      | .error e => Q (.error e) s') s := by
  refine (wp_andThen p _ Q s).trans (iff_of_eq (congrArg (fun R => p.wp P R s) ?_))
  funext r s'
  cases r <;> rfl

/-- An error is handled where it was thrown. -/
@[simp] theorem wp_tryCatch (p : Prog S α) (h : S.Err → Prog S α)
    (Q : Except S.Err α → σ → Prop) (s : σ) :
    (p.tryCatch h).wp P Q s ↔ p.wp P (fun r s' => match r with
      | .ok a => Q (.ok a) s'
      | .error e => (h e).wp P Q s') s := by
  refine (wp_andThen p _ Q s).trans (iff_of_eq (congrArg (fun R => p.wp P R s) ?_))
  funext r s'
  cases r <;> rfl

/-- The last part runs after both outcomes, and its own error wins. -/
@[simp] theorem wp_tryFinally (p : Prog S α) (fin : Prog S Unit)
    (Q : Except S.Err α → σ → Prop) (s : σ) :
    (p.tryFinally fin).wp P Q s ↔ p.wp P (fun r s' => fin.wp P (fun rf s'' => match rf with
      | .ok _ => Q r s''
      | .error e => Q (.error e) s'') s') s := by
  refine (wp_andThen p _ Q s).trans (iff_of_eq (congrArg (fun R => p.wp P R s) ?_))
  funext r s'
  refine (propext (wp_andThen fin _ Q s')).trans (congrArg (fun R => fin.wp P R s') ?_)
  funext rf s''
  cases rf <;> rfl

/-- Only the value is forgotten. -/
@[simp] theorem wp_void (p : Prog S α) (Q : Except S.Err Unit → σ → Prop) (s : σ) :
    p.void.wp P Q s ↔ p.wp P (fun r s' => Q (r.map fun _ => ()) s') s :=
  wp_andThen p _ Q s

/-- Each branch is judged under its condition. -/
@[simp] theorem wp_ite (b : Prop) [Decidable b] (p q : Prog S α)
    (Q : Except S.Err α → σ → Prop) (s : σ) :
    (if b then p else q).wp P Q s ↔ (b → p.wp P Q s) ∧ (¬ b → q.wp P Q s) := by
  by_cases h : b <;> simp [h]

/-- One obligation for each branch. -/
theorem wp_if {b : Prop} [Decidable b] {p q : Prog S α} {Q : Except S.Err α → σ → Prop} {s : σ}
    (hp : b → p.wp P Q s) (hq : ¬ b → q.wp P Q s) : (if b then p else q).wp P Q s :=
  (wp_ite b p q Q s).mpr ⟨hp, hq⟩

/-- The consequence rule. -/
theorem wp_mono {p : Prog S α} {Q Q' : Except S.Err α → σ → Prop} {s : σ}
    (h : p.wp P Q s) (hQ : ∀ r s', Q r s' → Q' r s') : p.wp P Q' s := by
  induction p generalizing s with
  | done r => exact hQ r s h
  | call c k ih => exact ⟨h.1, fun r s' hs => ih r (h.2 r s' hs)⟩

/-- The sequencing rule: `R` holds between the two parts, and an error of the first ends both. -/
theorem wp_seq {p : Prog S α} {f : α → Prog S β} {R : Except S.Err α → σ → Prop}
    {Q : Except S.Err β → σ → Prop} {s : σ} (hp : p.wp P R s)
    (herror : ∀ e s', R (.error e) s' → Q (.error e) s')
    (hok : ∀ a s', R (.ok a) s' → (f a).wp P Q s') : (p >>= f).wp P Q s := by
  rw [wp_bind]
  refine wp_mono hp fun r s' hr => ?_
  cases r with
  | ok a => exact hok a s' hr
  | error e => exact herror e s' hr

/-- The conjunction rule. -/
theorem wp_and {p : Prog S α} {Q Q' : Except S.Err α → σ → Prop} {s : σ} (h : p.wp P Q s)
    (h' : p.wp P Q' s) : p.wp P (fun r s' => Q r s' ∧ Q' r s') s := by
  induction p generalizing s with
  | done r => exact ⟨h, h'⟩
  | call c k ih => exact ⟨h.1, fun r s' hs => ih r (h.2 r s' hs) (h'.2 r s' hs)⟩

/-- The loop rule: an invariant over the iterations still to come. An iteration that throws
ends the loop. -/
theorem wp_forM {I : List β → σ → Prop} {Q : Except S.Err PUnit → σ → Prop}
    {f : β → Prog S PUnit}
    (hstep : ∀ x xs s, I (x :: xs) s → (f x).wp P (fun r s' => match r with
      | .ok _ => I xs s'
      | .error e => Q (.error e) s') s)
    (hdone : ∀ s, I [] s → Q (.ok ⟨⟩) s) :
    ∀ (xs : List β) (s : σ), I xs s → (forM xs f).wp P Q s := by
  intro xs
  induction xs with
  | nil => exact hdone
  | cons x xs ih =>
    intro s hs
    rw [List.forM_cons]
    exact wp_seq (hstep x xs s hs) (fun _ _ h => h) fun _ s' h => ih s' h

/-! ## Programs that make certain calls only

Whatever the calls are answered. This is enough for an invariant that every one of these calls
keeps. -/

/-- Every call the program can make meets `K`. -/
def Prog.Only (K : S.Call → Prop) : Prog S α → Prop
  | .done _ => True
  | .call c k => K c ∧ ∀ r, (k r).Only K

section only

variable {K : S.Call → Prop} {p : Prog S α}

/-- Every program makes some calls. -/
theorem only_any (p : Prog S α) : p.Only fun _ => True := by
  induction p with
  | done r => trivial
  | call c k ih => exact ⟨trivial, ih⟩

theorem only_pure (a : α) : (pure a : Prog S α).Only K := trivial

theorem only_throw (e : S.Err) : (throw e : Prog S α).Only K := trivial

theorem only_perform {c : S.Call} (h : K c) : (perform c).Only K := ⟨h, fun _ => trivial⟩

/-- In sequence, whatever the first part has returned. -/
theorem only_andThen {f : Except S.Err α → Prog S β} (hp : p.Only K) (hf : ∀ r, (f r).Only K) :
    (p.andThen f).Only K := by
  induction p with
  | done r => exact hf r
  | call c k ih => exact ⟨hp.1, fun r => ih r (hp.2 r)⟩

/-- The same, where an error is passed on. -/
theorem only_bind {f : α → Prog S β} (hp : p.Only K) (hf : ∀ a, (f a).Only K) :
    (p >>= f).Only K :=
  only_andThen hp fun
    | .ok a => hf a
    | .error _ => trivial

theorem only_tryCatch {h : S.Err → Prog S α} (hp : p.Only K) (hh : ∀ e, (h e).Only K) :
    (p.tryCatch h).Only K :=
  only_andThen hp fun
    | .ok _ => trivial
    | .error e => hh e

theorem only_ite {b : Prop} [Decidable b] {q : Prog S α} (hp : p.Only K) (hq : q.Only K) :
    (if b then p else q).Only K := by
  split
  · exact hp
  · exact hq

/-- Fewer calls are among more. -/
theorem Prog.Only.mono {K' : S.Call → Prop} (h : p.Only K) (hK : ∀ c, K c → K' c) : p.Only K' := by
  induction p with
  | done r => trivial
  | call c k ih => exact ⟨hK c h.1, fun r => ih r (h.2 r)⟩

/-- An invariant of the calls the program makes holds when it settles. -/
theorem Prog.Only.wp_invariant {I : σ → Prop} {s : σ} (h : p.Only K)
    (hK : ∀ c s, K c → I s → P.ok s c ∧ ∀ r s', P.step s c r s' → I s') (hs : I s) :
    p.wp P (fun _ s' => I s') s := by
  induction p generalizing s with
  | done r => exact hs
  | call c k ih =>
    obtain ⟨hok, hstep⟩ := hK c s h.1 hs
    exact ⟨hok, fun r s' hs' => ih r (h.2 r) (hstep r s' hs')⟩

/-- Calls that the protocol allows and that leave its state alone. -/
theorem Prog.Only.wp {Q : Except S.Err α → σ → Prop} {s : σ} (h : p.Only K)
    (hK : ∀ c, K c → P.ok s c ∧ ∀ r s', P.step s c r s' → s' = s) (hQ : ∀ r, Q r s) :
    p.wp P Q s := by
  have hkept : p.wp P (fun _ s' => s' = s) s := by
    refine h.wp_invariant (fun c s' hc hs' => ?_) rfl
    rw [hs']
    exact hK c hc
  refine wp_mono hkept fun r s' hs' => ?_
  rw [hs']
  exact hQ r

end only

/-! ## Programs that a rejected call ends

Nothing in such a program guards against a rejection: when one of its calls is rejected, that was its
last call. -/

/-- Every call the program can make meets `K`, and one that is rejected ends it with an error. -/
def Prog.Strict (K : S.Call → Prop) : Prog S α → Prop
  | .done _ => True
  | .call c k => K c ∧ (∀ e, ∃ e', k (.error e) = .done (.error e')) ∧ ∀ a, (k (.ok a)).Strict K

section strict

variable {K : S.Call → Prop} {p : Prog S α}

theorem strict_pure (a : α) : (pure a : Prog S α).Strict K := trivial

theorem strict_throw (e : S.Err) : (throw e : Prog S α).Strict K := trivial

/-- A single call throws what it is rejected with. -/
theorem strict_perform {c : S.Call} (h : K c) : (perform c).Strict K :=
  ⟨h, fun e => ⟨e, rfl⟩, fun _ => trivial⟩

/-- The error that ends the first part ends both. -/
theorem strict_bind {f : α → Prog S β} (hp : p.Strict K) (hf : ∀ a, (f a).Strict K) :
    (p >>= f).Strict K := by
  induction p with
  | done r =>
    cases r with
    | ok a => exact hf a
    | error e => exact strict_throw e
  | call c k ih =>
    refine ⟨hp.1, fun e => ?_, fun a => ih (.ok a) (hp.2.2 a)⟩
    obtain ⟨e', he'⟩ := hp.2.1 e
    refine ⟨e', ?_⟩
    show (k (.error e)).andThen _ = _
    rw [he']
    rfl

/-- A handler that only replaces the error guards against nothing. -/
theorem strict_tryCatch {h : S.Err → Prog S α} (hp : p.Strict K)
    (hh : ∀ e, ∃ e', h e = .done (.error e')) : (p.tryCatch h).Strict K := by
  induction p with
  | done r =>
    cases r with
    | ok a => exact strict_pure a
    | error e =>
      obtain ⟨e', he'⟩ := hh e
      show (h e).Strict K
      rw [he']
      trivial
  | call c k ih =>
    refine ⟨hp.1, fun e => ?_, fun a => ih (.ok a) (hp.2.2 a)⟩
    obtain ⟨e', he'⟩ := hp.2.1 e
    obtain ⟨e'', he''⟩ := hh e'
    refine ⟨e'', ?_⟩
    show (k (.error e)).andThen _ = _
    rw [he']
    exact he''

theorem strict_ite {b : Prop} [Decidable b] {q : Prog S α} (hp : p.Strict K) (hq : q.Strict K) :
    (if b then p else q).Strict K := by
  split
  · exact hp
  · exact hq

/-- Such a program makes only these calls. -/
theorem Prog.Strict.only (h : p.Strict K) : p.Only K := by
  induction p with
  | done r => trivial
  | call c k ih =>
    refine ⟨h.1, fun r => ?_⟩
    cases r with
    | ok a => exact ih _ (h.2.2 a)
    | error e =>
      obtain ⟨e', he'⟩ := h.2.1 e
      rw [he']
      trivial

end strict

end Effects
