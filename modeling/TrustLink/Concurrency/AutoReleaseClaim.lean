import TrustLink.Effects.Lock
import TrustLink.Model.Frame
import TrustLink.Concurrency.Discipline

/-!
# TrustLink — the auto-release claim

`markAutoReleaseSubmitting` is the one write of the backend whose predicate is evaluated in the
write itself: it sets `autoReleaseSubmittedAt` where it is null. So the column is a lock. An
execution *holds* an escrow from a won claim to the write that ends it (the recorded hash, or the
null that gives the claim up), and

* a held column is not null, and no two executions hold one escrow (`ClaimInv`);
* a recorded submission leaves the column set with nobody holding it, and stays that way, so
  `submission_exclusive`: at most one submission is in flight, and none after a record;
* an *accepted* submission is not protected in the same way: the `catch` that serves a failed
  submission also serves a failed record write, and gives the claim up
  (`accepted_then_resubmitted`). `no_resubmission` says that this is the only way.

All of it holds for every interleaving of any number of operations with any failures.
-/

namespace TrustLink

open Effects

/-- The claim is on this escrow. -/
def Claim.Of (claim : Claim) (id : String) : Prop :=
  claim = .held id ∨ claim = .accepted id

/-- The execution holds a claim on the escrow. -/
def Session.Owns (v : Session) (id : String) : Prop := v.claim.Of id

theorem Claim.not_of_free (id : String) : ¬ Claim.Of .free id := by
  rintro (h | h) <;> cases h

theorem not_owns_start (op : Op) (id : String) : ¬ (Session.start op).Owns id := by
  rw [Session.Owns, Session.start_claim]
  exact Claim.not_of_free id

/-- The claim column of the escrow is set. -/
def Submitted (id : String) (w : World) : Prop :=
  ∃ row, w.db.escrows.get id = some row ∧ row.autoReleaseSubmittedAt ≠ none

/-- The call gives up a claim on the escrow: `clearAutoReleaseSubmitting`. -/
def Clears (id : String) (c : Call) : Prop :=
  ∃ data, c = .db (.escrowUpdate id data) ∧ data.autoReleaseSubmittedAt = some none

/-- The database rejects the call. -/
def Rejected (ch : Choice) : Call → Prop
  | .db c => ch.fault c ≠ none
  | _ => False

/-! ## One call

The column of the claim is set by who wins it and cleared by its holder only. -/

/-- A set column stays set, unless a holder's clear is accepted; then it holds nothing. -/
theorem submitted_handle (ch : Choice) {v : Session} {c : Call} {w : World} {id : String}
    (hok : v.ok c) (h : Submitted id w) :
    Submitted id (handle ch c w).2 ∨
      (Clears id c ∧ ¬ Rejected ch c ∧ v.claim.Of id ∧
        (v.next c (handle ch c w).1).claim = .free) := by
  obtain ⟨row, hrow, hset⟩ := h
  by_cases hclear : Clears id c
  · obtain ⟨data, rfl, hdata⟩ := hclear
    rcases handle_escrowUpdate ch w id data with ⟨e, heq⟩ | ⟨hfault, row', _, heq⟩
    · rw [heq]
      exact .inl ⟨row, hrow, hset⟩
    · have hholds := hok.2
      rw [hdata] at hholds
      refine .inr ⟨⟨data, rfl, hdata⟩, fun hrejected => hrejected hfault, hholds, ?_⟩
      rw [heq]
      simp only [Session.next, Session.written, hdata]
      rfl
  · refine .inl ?_
    -- no other call empties the column
    have hchange := handle_escrow ch w c id
    unfold Submitted
    generalize (handle ch c w).2.db.escrows.get id = after at hchange ⊢
    cases hchange with
    | same => exact ⟨row, hrow, hset⟩
    | updated data row' hc hrow' =>
      obtain rfl : row = row' := Option.some.inj (hrow.symm.trans hrow')
      refine ⟨_, rfl, ?_⟩
      rw [EscrowRow.update_autoReleaseSubmittedAt]
      cases hdata : data.autoReleaseSubmittedAt with
      | none => exact hset
      | some submittedAt =>
        cases submittedAt with
        | none => exact absurd ⟨data, hc, hdata⟩ hclear
        | some t => exact Option.some_ne_none t
    | claimed t row' hc hrow' hfree => exact ⟨_, rfl, Option.some_ne_none t⟩
    | created dto vendorAddress hc hnone =>
      rw [hrow] at hnone
      cases hnone

/-- The call asks for the claim on the escrow: the `updateMany` of `markAutoReleaseSubmitting`. -/
def Claims (id : String) (c : Call) : Prop :=
  ∃ t, c = .db (.escrowUpdateManyUnsubmitted id t)

/-- A claim an execution has after a call, it has just asked for, or had before; the one change
without asking is the acceptance of a submission. -/
theorem claim_next {v : Session} {c : Call} {r : Except Err c.Resp} {id : String}
    (h : (v.next c r).claim.Of id) :
    Claims id c ∨
      ((v.claim = (v.next c r).claim ∨ v.claim = .held id) ∧ ∀ id', ¬ Claims id' c) := by
  by_cases habout : Session.aboutClaim c
  · cases c with
    | db c =>
      cases c with
      | escrowUpdate id' data =>
        refine .inr ⟨.inl ?_, by rintro _ ⟨_, hc⟩; cases hc⟩
        cases r with
        | error e => rfl
        | ok row =>
          simp only [Session.next, Session.written] at h ⊢
          split at h
          · rcases h with h | h <;> cases h
          · next hnone => rw [if_neg hnone]
      | escrowUpdateManyUnsubmitted id' t =>
        -- only a positive count leaves a claim, and it is on the escrow that was asked for
        cases r with
        | error e => rcases h with h | h <;> cases h
        | ok count =>
          cases count with
          | zero => rcases h with h | h <;> cases h
          | succ n =>
            rcases h with h | h
            · obtain rfl : id' = id := Claim.held.inj h
              exact .inl ⟨t, rfl⟩
            · cases h
      | _ => cases habout
    | ext c =>
      cases c with
      | submitAutoRelease contractEscrowId source =>
        refine .inr ⟨?_, by rintro _ ⟨_, hc⟩; cases hc⟩
        cases r with
        | error e => exact .inl rfl
        | ok txHash =>
          have h : v.claim.accept.Of id := h
          show (v.claim = v.claim.accept ∨ v.claim = .held id)
          cases hclaim : v.claim with
          | held id' =>
            rw [hclaim] at h
            rcases h with h | h
            · cases h
            · exact .inr (congrArg _ (Claim.accepted.inj h))
          | free => exact .inl rfl
          | accepted id' => exact .inl rfl
      | _ => cases habout
    | _ => cases habout
  · rw [Session.next_claim v (Bool.eq_false_iff.mpr habout)]
    refine .inr ⟨.inl rfl, fun id' hclaims => ?_⟩
    obtain ⟨t, rfl⟩ := hclaims
    exact habout rfl

theorem claim_before {v : Session} {c : Call} {r : Except Err c.Resp} {id : String}
    (h : (v.next c r).claim.Of id) : Claims id c ∨ v.claim.Of id := by
  rcases claim_next h with hclaims | ⟨hsame | hheld, _⟩
  · exact .inl hclaims
  · exact .inr (by rw [Claim.Of, hsame]; exact h)
  · exact .inr (.inl hheld)

/-- A claim is won on a column that was null, and sets it. -/
theorem submitted_of_claims {v : Session} {c : Call} {w : World} {ch : Choice} {id : String}
    (hclaims : Claims id c) (h : (v.next c (handle ch c w).1).claim.Of id) :
    ¬ Submitted id w ∧ Submitted id (handle ch c w).2 := by
  obtain ⟨t, rfl⟩ := hclaims
  rcases handle_unsubmitted ch w id t with ⟨e, heq⟩ | heq | ⟨row, hrow, hfree, heq⟩
  · rw [heq] at h
    rcases h with h | h <;> cases h
  · rw [heq] at h
    rcases h with h | h <;> cases h
  · constructor
    · rintro ⟨row', hrow', hset⟩
      rw [hrow] at hrow'
      exact hset (Option.some.inj hrow' ▸ hfree)
    · rw [heq]
      refine ⟨row.update (claimData t) ch.now, ?_, Option.some_ne_none t⟩
      rw [putEscrow_get, EscrowRow.update_id, if_pos (get_id hrow).symm]

/-- The claim column is a lock. -/
theorem claim_lockStep {v : Session} {c : Call} {w : World} {ch : Choice} {id : String}
    (hok : v.ok c) (hheld : v.claim.Of id → Submitted id w) :
    session.LockStep (M := world) Session.Owns Submitted v c w ch id where
  gain := by
    intro h
    rcases claim_before h with hclaims | hbefore
    · obtain ⟨hfree, hset⟩ := submitted_of_claims hclaims h
      exact ⟨hset, .inr hfree⟩
    · refine ⟨?_, .inl hbefore⟩
      rcases submitted_handle ch hok (hheld hbefore) with hset | ⟨_, _, _, hnone⟩
      · exact hset
      · have h : (v.next c (handle ch c w).1).claim.Of id := h
        rw [hnone] at h
        exact absurd h (Claim.not_of_free id)
  keep := by
    intro h
    rcases submitted_handle ch hok h with hset | ⟨_, _, hholds, hnone⟩
    · exact .inl hset
    · refine .inr ⟨hholds, fun h => ?_⟩
      have h : (v.next c (handle ch c w).1).claim.Of id := h
      rw [hnone] at h
      exact Claim.not_of_free id h

/-! ## Histories

Which escrow a call in flight is about, and what has happened to an escrow, is read off the
histories of the executions. -/

/-- The escrow a claim is asked for. -/
def claimOf : Call → Option String
  | .db (.escrowUpdateManyUnsubmitted id _) => some id
  | _ => none

theorem claimOf_eq_none {c : Call} (h : ∀ id, ¬ Claims id c) : claimOf c = none := by
  unfold claimOf
  split
  · next id t => exact absurd ⟨t, rfl⟩ (h id)
  · rfl

/-- The escrow of the last claim that was asked for. -/
def lastClaim (past : List (Event backend)) : Option String :=
  past.findSome? fun e => claimOf e.call

/-- A claim that is held is the last one that was asked for. Induction on the history. -/
theorem lastClaim_of_claim {t : Thread backend Op} {id : String}
    (h : (session.view t).claim.Of id) : lastClaim t.past = some id := by
  obtain ⟨label, past, rest⟩ := t
  induction past with
  | nil =>
    exact absurd h (not_owns_start label id)
  | cons e past ih =>
    rw [session.view_cons label e past rest rest] at h
    have h : (Session.next _ e.call e.resp).claim.Of id := h
    rcases claim_next h with hclaims | ⟨hbefore, hother⟩
    · obtain ⟨call, resp⟩ := e
      obtain ⟨t, rfl⟩ := hclaims
      rfl
    · show List.findSome? _ (e :: past) = some id
      rw [List.findSome?_cons_of_isNone (by rw [claimOf_eq_none hother]; rfl)]
      refine ih ?_
      rcases hbefore with hsame | hheld
      · rw [Claim.Of, hsame]; exact h
      · exact .inl hheld

/-- Execution `i` has a `submitAutoRelease` call for the escrow in flight. -/
def InFlight (P : Backend) (i : Nat) (id : String) : Prop :=
  ∃ t contractEscrowId source k, P.threads[i]? = some t ∧
    t.rest = .call (.ext (.submitAutoRelease contractEscrowId source)) k ∧
    lastClaim t.past = some id

/-- `recordAutoReleaseSubmission` has succeeded for the escrow. -/
def Recorded (P : Backend) (id : String) : Prop :=
  ∃ t ∈ P.threads, ∃ data row submittedAt,
    (⟨.db (.escrowUpdate id data), .ok row⟩ : Event backend) ∈ t.past ∧
    data.autoReleaseSubmittedAt = some (some submittedAt)

/-- A `submitAutoRelease` call for the escrow has resolved with a transaction hash. -/
def Accepted (P : Backend) (id : String) : Prop :=
  ∃ t ∈ P.threads, ∃ newer older contractEscrowId source txHash,
    t.past = newer ++
      (⟨.ext (.submitAutoRelease contractEscrowId source), .ok txHash⟩ : Event backend) :: older ∧
    lastClaim older = some id

/-- A submission in flight is made under a claim on its escrow. -/
theorem held_of_inFlight {P : Backend} (hobeyed : session.Obeyed P) {i : Nat} {id : String}
    (h : InFlight P i id) :
    ∃ t, P.threads[i]? = some t ∧ (session.view t).claim = .held id := by
  obtain ⟨t, contractEscrowId, source, k, ht, hrest, hlast⟩ := h
  have hwp := hobeyed t (List.mem_of_getElem? ht)
  rw [hrest] at hwp
  obtain ⟨id', hheld⟩ : ∃ id', (session.view t).claim = .held id' := hwp.1
  have hid := lastClaim_of_claim (.inl hheld)
  rw [hlast] at hid
  exact ⟨t, ht, by rw [hheld, Option.some.inj hid]⟩

/-! ## Mutual exclusion -/

/-- The claim column is an exclusive lock, and is sealed once a submission is recorded. -/
structure ClaimInv (P : Backend) : Prop where
  exclusive : session.Exclusive (M := world) Session.Owns Submitted P
  recorded : ∀ id, Recorded P id → session.Sealed (M := world) Session.Owns Submitted id P

section advance

variable {P : Backend} {i : Nat} {ch : Choice} {t : Thread backend Op} {c : Call}
  {k : Except Err c.Resp → App Unit}

theorem lockStep_of_exclusive (hok : (session.view t).ok c) (ht : P.threads[i]? = some t)
    (h : session.Exclusive (M := world) Session.Owns Submitted P) (id : String) :
    session.LockStep (M := world) Session.Owns Submitted (session.view t) c P.state ch id :=
  claim_lockStep hok (h.locked t (List.mem_of_getElem? ht) id)

/-- An accepted record write ends the claim it was made under and leaves the column set. -/
theorem sealed_of_records {id : String} {data : EscrowData} {row : EscrowRow} {submittedAt : Time}
    (h : session.Exclusive (M := world) Session.Owns Submitted P)
    (hok : (session.view t).ok c) (ht : P.threads[i]? = some t)
    (hevent : (⟨.db (.escrowUpdate id data), .ok row⟩ : Event backend)
      = ⟨c, (handle ch c P.state).1⟩)
    (hdata : data.autoReleaseSubmittedAt = some (some submittedAt)) :
    session.Sealed (M := world) Session.Owns Submitted id (P.advance i t c k ch) := by
  obtain ⟨hc, hresp⟩ := Event.mk.inj hevent
  subst hc
  have hresp : (handle ch (.db (.escrowUpdate id data)) P.state).1 = .ok row := (eq_of_heq hresp).symm
  have haccepted := hok.2
  rw [hdata] at haccepted
  have hdropped : ¬ ((session.view t).next (.db (.escrowUpdate id data)) (.ok row)).Owns id := by
    simp only [Session.Owns, Session.next, Session.written, hdata]
    exact Claim.not_of_free id
  refine Monitor.sealed_of_dropped ht h (.inr haccepted) ?_ ?_
  · show ¬ ((session.view t).next _ (handle ch (.db (.escrowUpdate id data)) P.state).1).Owns id
    rw [hresp]
    exact hdropped
  · have hset := h.locked t (List.mem_of_getElem? ht) id (.inr haccepted)
    rcases submitted_handle ch hok hset with hkept | ⟨⟨data', hc, hnull⟩, _⟩
    · exact hkept
    · -- a record is not a clear
      cases hc
      rw [hdata] at hnull
      cases hnull

theorem claimInv_advance (hok : (session.view t).ok c) (ht : P.threads[i]? = some t)
    (h : ClaimInv P) : ClaimInv (P.advance i t c k ch) where
  exclusive :=
    Monitor.exclusive_advance (lockStep_of_exclusive hok ht h.exclusive) ht h.exclusive
  recorded := by
    rintro id ⟨t', ht', data, row, submittedAt, hevent, hdata⟩
    rcases Pool.mem_past_advance ht ht' hevent with ⟨t₀, ht₀, hold⟩ | hnew
    · exact Monitor.sealed_advance (lockStep_of_exclusive hok ht h.exclusive id) ht
        (h.recorded id ⟨t₀, ht₀, data, row, submittedAt, hold, hdata⟩)
    · exact sealed_of_records h.exclusive hok ht hnew hdata

end advance

theorem claimInv_run (D : Deployment) (w : World) (ms : List (Move world Op)) :
    session.Obeyed (interleave D w ms) ∧ ClaimInv (interleave D w ms) := by
  refine session.run_invariant (K := fun _ _ => True) ?_ ?_ ms _
    (Pool.admissible_of_forall (fun _ _ => trivial) ms) (session.obeyed_nil (M := world) w)
    ⟨Monitor.exclusive_nil (M := world) w, ?_⟩
  · intro P op _ h
    refine ⟨Session.accepts D op, Monitor.exclusive_spawn (not_owns_start op) h.exclusive, ?_⟩
    rintro id ⟨t, ht, data, row, submittedAt, hevent, hdata⟩
    -- a program that has just been started has no history
    have hold : t ∈ P.threads := by
      rcases Pool.mem_spawn ht with hold | rfl
      · exact hold
      · cases hevent
    obtain ⟨hset, hnobody⟩ := h.recorded id ⟨t, hold, data, row, submittedAt, hevent, hdata⟩
    refine ⟨hset, fun t' ht' => ?_⟩
    rcases List.mem_append.mp ht' with hold' | hnew'
    · exact hnobody t' hold'
    · rw [List.mem_singleton.mp hnew']
      exact not_owns_start op id
  · intro P i ch t c k _ h _ ht _ hok
    exact ⟨session_answered c P.state ch, claimInv_advance hok ht h⟩
  · rintro id ⟨t, ht, _⟩
    cases ht

/-- For any number of executions, any interleaving and any failures: at most one submission for
an escrow is in flight, and none once a submission for it has been recorded. -/
theorem submission_exclusive (D : Deployment) (w : World) (ms : List (Move world Op))
    (id : String) :
    (∀ i j, InFlight (interleave D w ms) i id → InFlight (interleave D w ms) j id → i = j) ∧
    (Recorded (interleave D w ms) id → ∀ i, ¬ InFlight (interleave D w ms) i id) := by
  obtain ⟨hobeyed, hinv⟩ := claimInv_run D w ms
  constructor
  · intro i j hi hj
    obtain ⟨t, ht, hheld⟩ := held_of_inFlight hobeyed hi
    obtain ⟨t', ht', hheld'⟩ := held_of_inFlight hobeyed hj
    exact hinv.exclusive.unique i j t t' id ht ht' (.inl hheld) (.inl hheld')
  · intro hrecorded i hi
    obtain ⟨t, ht, hheld⟩ := held_of_inFlight hobeyed hi
    exact (hinv.recorded id hrecorded).2 t (List.mem_of_getElem? ht) (.inl hheld)

/-! ## After acceptance

What a record seals, an acceptance does not: the execution still owns the escrow and may give
it up. As long as it does not, the column stays set and nobody else comes to hold the escrow. -/

/-- No execution gives up, with the database's consent, a claim under which its submission was
accepted. -/
def KeepsAccepted (P : Backend) : Move world Op → Prop
  | .spawn _ => True
  | .step i ch => ∀ t c k id, P.threads[i]? = some t → t.rest = .call c k →
      (session.view t).claim = .accepted id → Clears id c → Rejected ch c

/-- The column is set, and nobody holds the escrow with a submission still to make. -/
def Spent (id : String) (P : Backend) : Prop :=
  Submitted id P.state ∧ ∀ t ∈ P.threads, (session.view t).claim ≠ .held id

structure AcceptedInv (P : Backend) : Prop where
  exclusive : session.Exclusive (M := world) Session.Owns Submitted P
  accepted : ∀ id, Accepted P id → Spent id P

section advance

variable {P : Backend} {i : Nat} {ch : Choice} {t : Thread backend Op} {c : Call}
  {k : Except Err c.Resp → App Unit}

theorem spent_advance {id : String} (hK : KeepsAccepted P (.step i ch))
    (hok : (session.view t).ok c) (ht : P.threads[i]? = some t) (hr : t.rest = .call c k)
    (h : Spent id P) : Spent id (P.advance i t c k ch) := by
  obtain ⟨hset, hnobody⟩ := h
  have hmover : (session.view t).claim ≠ .held id := hnobody t (List.mem_of_getElem? ht)
  refine ⟨?_, fun t' ht' hheld => ?_⟩
  · rcases submitted_handle ch hok hset with hkept | ⟨hclears, haccepted, hholds, _⟩
    · exact hkept
    · -- only an accepted clear unsets the column, and its execution is not one that `hK` allows
      rcases hholds with hheld | hheld
      · exact absurd hheld hmover
      · exact absurd (hK t c k id ht hr hheld hclears) haccepted
  · rcases Pool.mem_advance ht' with rfl | hold
    · have hheld : ((session.view t).next c (handle ch c P.state).1).claim = .held id := hheld
      rcases claim_next (.inl hheld) with hclaims | ⟨hsame | hbefore, _⟩
      · exact (submitted_of_claims hclaims (.inl hheld)).1 hset
      · exact hmover (hsame.trans hheld)
      · exact hmover hbefore
    · exact hnobody t' hold hheld

/-- At the moment of acceptance the escrow is spent: its one holder has just submitted. -/
theorem spent_of_accepted {id : String} {contractEscrowId : Nat} {source txHash : String}
    (h : session.Exclusive (M := world) Session.Owns Submitted P)
    (hok : (session.view t).ok c) (ht : P.threads[i]? = some t)
    (hlast : lastClaim t.past = some id)
    (hevent : (⟨c, (handle ch c P.state).1⟩ : Event backend)
      = ⟨.ext (.submitAutoRelease contractEscrowId source), .ok txHash⟩) :
    Spent id (P.advance i t c k ch) := by
  obtain ⟨hc, hresp⟩ := Event.mk.inj hevent
  subst hc
  have hresp := eq_of_heq hresp
  obtain ⟨id', hheld⟩ : ∃ id', (session.view t).claim = .held id' := hok
  have hid : some id = some id' := hlast.symm.trans (lastClaim_of_claim (.inl hheld))
  cases hid
  refine ⟨h.locked t (List.mem_of_getElem? ht) id (.inl hheld), fun t' ht' hheld' => ?_⟩
  obtain ⟨j, hj⟩ := List.mem_iff_getElem?.mp ht'
  rcases Pool.advance_threads_cases hj with ⟨_, rfl⟩ | ⟨hne, hold⟩
  · have hheld' : ((session.view t).next _
        (handle ch (.ext (.submitAutoRelease contractEscrowId source)) P.state).1).claim
          = .held id := hheld'
    rw [hresp] at hheld'
    simp only [Session.next, hheld, Claim.accept] at hheld'
    cases hheld'
  · exact hne (h.unique j i t' t id hold ht (.inl hheld') (.inl hheld))

theorem acceptedInv_advance (hK : KeepsAccepted P (.step i ch))
    (hok : (session.view t).ok c) (ht : P.threads[i]? = some t) (hr : t.rest = .call c k)
    (h : AcceptedInv P) : AcceptedInv (P.advance i t c k ch) where
  exclusive :=
    Monitor.exclusive_advance (lockStep_of_exclusive hok ht h.exclusive) ht h.exclusive
  accepted := by
    rintro id ⟨t', ht', newer, older, contractEscrowId, source, txHash, hpast, hlast⟩
    have hold : ∀ t₀ ∈ P.threads, ∀ newer', t₀.past = newer' ++
        (⟨.ext (.submitAutoRelease contractEscrowId source), .ok txHash⟩ : Event backend) :: older →
        Spent id (P.advance i t c k ch) := fun t₀ ht₀ newer' hpast' =>
      spent_advance hK hok ht hr
        (h.accepted id ⟨t₀, ht₀, newer', older, contractEscrowId, source, txHash, hpast', hlast⟩)
    rcases Pool.mem_advance ht' with rfl | hother
    · -- the acceptance is the call just completed, or lies further back
      cases newer with
      | nil =>
        obtain ⟨hevent, rfl⟩ := List.cons.inj hpast
        exact spent_of_accepted h.exclusive hok ht hlast hevent
      | cons e newer' =>
        exact hold t (List.mem_of_getElem? ht) newer' (List.cons.inj hpast).2
    · exact hold t' hother newer hpast

end advance

theorem acceptedInv_run (D : Deployment) (w : World) (ms : List (Move world Op))
    (hrun : AlwaysMeets D KeepsAccepted w ms) :
    session.Obeyed (interleave D w ms) ∧ AcceptedInv (interleave D w ms) := by
  refine session.run_invariant ?_ ?_ ms _ hrun (session.obeyed_nil (M := world) w)
    ⟨Monitor.exclusive_nil (M := world) w, ?_⟩
  · intro P op _ h
    refine ⟨Session.accepts D op, Monitor.exclusive_spawn (not_owns_start op) h.exclusive, ?_⟩
    rintro id ⟨t, ht, newer, older, contractEscrowId, source, txHash, hpast, hlast⟩
    have hold : t ∈ P.threads := by
      rcases Pool.mem_spawn ht with hold | rfl
      · exact hold
      · exact absurd hpast (by simp)
    obtain ⟨hset, hnobody⟩ :=
      h.accepted id ⟨t, hold, newer, older, contractEscrowId, source, txHash, hpast, hlast⟩
    refine ⟨hset, fun t' ht' hheld => ?_⟩
    rcases List.mem_append.mp ht' with hold' | hnew'
    · exact hnobody t' hold' hheld
    · rw [List.mem_singleton.mp hnew'] at hheld
      exact not_owns_start op id (.inl hheld)
  · intro P i ch t c k hK h _ ht hr hok
    exact ⟨session_answered c P.state ch, acceptedInv_advance hK hok ht hr h⟩
  · rintro id ⟨t, ht, _⟩
    cases ht

/-- In every run in which no accepted claim is given up: once a submission for an escrow has been
accepted, no submission for it is in flight again. -/
theorem no_resubmission (D : Deployment) (w : World) (ms : List (Move world Op))
    (hrun : AlwaysMeets D KeepsAccepted w ms) (id : String)
    (haccepted : Accepted (interleave D w ms) id) (i : Nat) :
    ¬ InFlight (interleave D w ms) i id := by
  intro hflight
  obtain ⟨hobeyed, hinv⟩ := acceptedInv_run D w ms hrun
  obtain ⟨t, ht, hheld⟩ := held_of_inFlight hobeyed hflight
  exact (hinv.accepted id haccepted).2 t (List.mem_of_getElem? ht) hheld

/-! ## A run of each kind -/

/-- The network accepts every submission. -/
def Choice.accepting : Choice :=
  { Choice.calm with
    reply := fun
      | .submitAutoRelease _ _ => .ok "tx"
      | _ => .error (.error "no answer") }

/-- It does, but the database rejects the writes that record one. -/
def Choice.unrecorded : Choice :=
  { Choice.accepting with
    fault := fun
      | .escrowUpdate _ data => if data.autoReleaseTxHash.isSome then some .unavailable else none
      | _ => none }

/-- The call that the move completes gives up no claim. -/
def ClearsNothing (P : Backend) : Move world Op → Prop
  | .spawn _ => True
  | .step i _ => ∀ data ∈ P.threads[i]?.bind fun t =>
      match t.inFlight with
      | some (.db (.escrowUpdate _ data)) => some data
      | _ => none, data.autoReleaseSubmittedAt ≠ some none

instance (P : Backend) (mv : Move world Op) : Decidable (ClearsNothing P mv) :=
  match mv with
  | .spawn _ => isTrue trivial
  | .step _ _ => inferInstanceAs (Decidable (∀ data ∈ Option.bind _ _, _))

theorem ClearsNothing.keepsAccepted {P : Backend} {mv : Move world Op} (h : ClearsNothing P mv) :
    KeepsAccepted P mv := by
  cases mv with
  | spawn op => trivial
  | step i ch =>
    rintro t c k id ht hr - ⟨data, rfl, hnull⟩
    refine absurd hnull (h data ?_)
    rw [ht, Option.bind_some, Thread.inFlight_of_rest hr]
    rfl

open AutoReleaseWorker in
/-- Two cycles, one after the other. The first submits and records. -/
def recordedInTurn : List (Move world Op) :=
  .spawn (.autoReleaseCycle dueTime) :: List.replicate 8 (.step 0 .accepting) ++
    .spawn (.autoReleaseCycle dueTime) :: List.replicate 8 (.step 1 .accepting)

open AutoReleaseWorker in
theorem no_resubmission_when_recorded :
    ¬ InFlight (interleave .bare (World.ofEscrows [dueLamp]) recordedInTurn) 0 "e1" ∧
      ¬ InFlight (interleave .bare (World.ofEscrows [dueLamp]) recordedInTurn) 1 "e1" := by
  have hkept : AlwaysMeets .bare ClearsNothing (World.ofEscrows [dueLamp]) recordedInTurn := by
    decide +kernel
  have haccepted : Accepted (interleave .bare (World.ofEscrows [dueLamp]) recordedInTurn) "e1" := by
    refine ⟨_, List.mem_of_getElem? (i := 0) rfl, [_, _], _, 7, "source", "tx", rfl, ?_⟩
    decide
  have hnone := no_resubmission .bare (World.ofEscrows [dueLamp]) recordedInTurn
    (hkept.mono fun _ _ => ClearsNothing.keepsAccepted) "e1" haccepted
  exact ⟨hnone 0, hnone 1⟩

open AutoReleaseWorker in
/-- A cycle submits, the record write is rejected and the claim is given up; the next cycle
submits again. -/
theorem accepted_then_resubmitted :
    ∃ (w : World) (ms : List (Move world Op)),
      Accepted (interleave .bare w ms) "e1" ∧ InFlight (interleave .bare w ms) 1 "e1" := by
  refine ⟨World.ofEscrows [dueLamp],
    [.spawn (.autoReleaseCycle dueTime)] ++ List.replicate 9 (.step 0 .unrecorded) ++
      [.spawn (.autoReleaseCycle dueTime)] ++ List.replicate 5 (.step 1 .accepting), ?_, ?_⟩
  · refine ⟨_, List.mem_of_getElem? (i := 0) rfl, [_, _, _], _, 7, "source", "tx", rfl, ?_⟩
    decide
  · exact ⟨_, 7, "source", _, rfl, rfl, by decide⟩

end TrustLink
