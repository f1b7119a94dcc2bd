import TrustLink.Contract.Confirmation

/-!
# TrustLink — one release, one transaction

`submitAutoRelease` retries when an attempt fails with a sequence error, and it finds out by looking
for `sequence` or `bad_seq` in the text of the error. An attempt can fail before the transaction is
sent, when it is refused, and while it waits for the confirmation of a transaction that the network
has *accepted*. An error of the last kind that happens to mention a sequence is taken for a refusal:
the release is built and sent again.

`single_release` is about every server and every sequence of answers. There are never more than
`maxRetries + 1` submissions, and none follows an accepted one as long as a confirmation answer of
that kind (`RpcAnswer.misleads`) comes in the last attempt only, when no retry is left
(`MisledAtLast`). The log of an attempt that was accepted falls into three parts (`Attempted`); only
the confirmation can mislead, and nothing in it is a submission. An attempt that was over before that
has left one refusal in the log, so the refusals before an answer count the retries that were used by
then.
-/

namespace TrustLink

open Effects RpcAnswer ContractService

/-! ## What a log says -/

/-- An attempt ends here before anything is accepted: a call is rejected, or the submission refused. -/
def RpcAnswer.isRefusal : RpcAnswer → Bool
  | ⟨.sendTransaction _, .ok sendResult⟩ => sendResult.status = some "ERROR"
  | ⟨c, .error _⟩ => !c.confirms
  | _ => false

/-- The confirmation ends in an error that reads like a sequence error: it is thrown by the call, or
by rendering the payload of a failed transaction. -/
def RpcAnswer.misleads (C : ContractConfig) : RpcAnswer → Bool
  | ⟨.getTransaction _, .ok response⟩ | ⟨.pollTransaction _, .ok response⟩ =>
    statusText response.status = "FAILED" &&
      (payloadError C response.resultXdr).any (isSequenceError C)
  | ⟨c, .error (.error message)⟩ => c.confirms && isSequenceError C message
  | _ => false

/-- A call to `submitAutoRelease` submits at most `maxRetries + 1` times, at most one submission is
accepted, and none follows it. The newest answer stands first. -/
structure SingleRelease (maxRetries : Nat) (log : List RpcAnswer) : Prop where
  bounded : log.countP isSend ≤ maxRetries + 1
  once : log.countP isAccepted ≤ 1
  last : log.Pairwise fun newer older => older.isAccepted = true → newer.isSend = false

/-- An answer that misleads does so in the last attempt: so many attempts were refused before it that
no retry is left. -/
def MisledAtLast (C : ContractConfig) (maxRetries : Nat) (log : List RpcAnswer) : Prop :=
  ∀ i : Fin log.length, (log.get i).misleads C = true →
    maxRetries ≤ (log.drop (i + 1)).countP isRefusal

instance (C : ContractConfig) (maxRetries : Nat) (log : List RpcAnswer) :
    Decidable (MisledAtLast C maxRetries log) :=
  inferInstanceAs (Decidable (∀ _ : Fin log.length, _ → _))

section log

variable {C : ContractConfig} {a : RpcAnswer}

/-- An error that a confirmation call throws misleads by its text. -/
theorem RpcAnswer.misleads_of_error {c : RpcCall} {message : String}
    (hc : c.confirms = true) (hseq : isSequenceError C message = true) :
    misleads C ⟨c, .error (.error message)⟩ = true := by
  cases c with
  | getTransaction hash => exact hseq
  | pollTransaction hash => exact hseq
  | dateNow => exact hseq
  | setTimeout ms => exact hseq
  | _ => cases hc

/-- So does the payload of a failed transaction, by the text rendering it throws. -/
theorem RpcAnswer.misleads_of_failed {c : Confirmation} (hc : a.confirmation = some c)
    (hfailed : statusText c.response.status = "FAILED")
    (hseq : (payloadError C c.response.resultXdr).any (isSequenceError C) = true) :
    a.misleads C = true := by
  have hboth : (decide (statusText c.response.status = "FAILED") &&
      (payloadError C c.response.resultXdr).any (isSequenceError C)) = true := by
    rw [decide_eq_true hfailed, hseq]
    rfl
  obtain ⟨call, r⟩ := a
  cases call with
  | getTransaction hash =>
    cases r with
    | ok response => cases hc; exact hboth
    | error e => cases hc
  | pollTransaction hash =>
    cases r with
    | ok response => cases hc; exact hboth
    | error e => cases hc
  | _ => cases hc

/-- A sequence error of the confirmation is one that misleads. -/
theorem Confirmed.misleads {r : Except ContractError String} {after : List RpcAnswer}
    (h : Confirmed C r after) (hafter : ∀ a ∈ after, a.1.confirms = true) {message : String}
    (hr : r = .error (.error message)) (hseq : isSequenceError C message = true) :
    ∃ a ∈ after, a.misleads C = true := by
  cases h with
  | thrown _ hthrown =>
    obtain ⟨c, hc⟩ := hthrown message (Except.error.inj hr)
    exact ⟨_, hc, misleads_of_error (hafter _ hc) hseq⟩
  | failed hlast hfailed hpayload =>
    obtain ⟨a, ha, hc⟩ := List.exists_of_findSome?_eq_some hlast
    refine ⟨a, ha, misleads_of_failed hc hfailed ?_⟩
    rw [hpayload message (Except.error.inj hr)]
    exact hseq
  | settled => cases hr

/-- Before an answer that misleads, the retries have been refused. -/
theorem MisledAtLast.split {maxRetries : Nat} {newer older : List RpcAnswer}
    (h : MisledAtLast C maxRetries (newer ++ a :: older)) (ha : a.misleads C = true) :
    maxRetries ≤ older.countP isRefusal := by
  have hlt : newer.length < (newer ++ a :: older).length := by
    rw [List.length_append, List.length_cons]
    omega
  have hget : (newer ++ a :: older).get ⟨newer.length, hlt⟩ = a := by
    rw [List.get_eq_getElem, List.getElem_append_right (Nat.le_refl _)]
    simp
  have hdrop : (newer ++ a :: older).drop (newer.length + 1) = older := by
    rw [List.append_cons]
    exact List.drop_left' (by simp)
  have hused := h ⟨newer.length, hlt⟩ (by rw [hget]; exact ha)
  rwa [hdrop] at hused

end log

section answers

variable {a : RpcAnswer}

theorem RpcAnswer.not_send_of_preliminary (h : a.1.Preliminary) : a.isSend = false := by
  obtain ⟨c, r⟩ := a
  cases c with
  | sendTransaction tx => exact h.elim
  | _ => rfl

theorem RpcAnswer.not_send_of_confirms (h : a.1.confirms = true) : a.isSend = false := by
  obtain ⟨c, r⟩ := a
  cases c with
  | sendTransaction tx => cases h
  | _ => rfl

theorem RpcAnswer.not_accepted_of_not_send (h : a.isSend = false) : a.isAccepted = false := by
  obtain ⟨c, r⟩ := a
  cases c with
  | sendTransaction tx => cases h
  | _ => rfl

theorem RpcAnswer.isRefusal_of_preliminary (h : a.1.Preliminary) :
    a.isRefusal = a.rejected := by
  obtain ⟨c, r⟩ := a
  cases c with
  | sendTransaction tx => exact h.elim
  | getTransaction hash => exact h.elim
  | pollTransaction hash => exact h.elim
  | dateNow => exact h.elim
  | setTimeout ms => exact h.elim
  | _ => cases r <;> rfl

theorem RpcAnswer.not_refusal_of_confirms (h : a.1.confirms = true) : a.isRefusal = false := by
  obtain ⟨c, r⟩ := a
  cases c with
  | getTransaction hash => cases r <;> rfl
  | pollTransaction hash => cases r <;> rfl
  | dateNow => cases r <;> rfl
  | setTimeout ms => cases r <;> rfl
  | _ => cases h

theorem RpcAnswer.not_refusal_of_accepted (h : a.isAccepted = true) : a.isRefusal = false := by
  obtain ⟨c, r⟩ := a
  cases c with
  | sendTransaction tx =>
    cases r with
    | ok sendResult => exact decide_eq_false (of_decide_eq_true h)
    | error e => cases h
  | _ => cases h

end answers

/-! ## From one attempt to the whole call

Two things are counted: an attempt submits at most once, and it is refused at most once. The first
bounds the submissions; by the second, the refusals so far are at most the number of the attempt. -/

section attempts

variable {C : ContractConfig} {r : Except ContractError String} {log new : List RpcAnswer}

theorem countP_eq_zero_of {kind : RpcAnswer → Bool} (h : ∀ a ∈ log, kind a = false) :
    log.countP kind = 0 :=
  List.countP_eq_zero.mpr fun a ha hkind => Bool.false_ne_true ((h a ha).symm.trans hkind)

/-- An attempt submits at most once. -/
theorem Attempted.countP_isSend_le (h : Attempted C r new) : new.countP isSend ≤ 1 := by
  have hzero : ∀ {before : List RpcAnswer}, (∀ a ∈ before, a.1.Preliminary) →
      before.countP isSend = 0 :=
    fun hbefore => countP_eq_zero_of fun a ha => not_send_of_preliminary (hbefore a ha)
  cases h with
  | unsent _ hbefore => rw [hzero hbefore]; omega
  | refused send before hsend _ hbefore => rw [List.countP_cons, hzero hbefore]; split <;> omega
  | accepted after before _ _ hbefore _ hafter =>
    have hnone : after.countP isSend = 0 :=
      countP_eq_zero_of fun a ha => not_send_of_confirms (hafter a ha)
    rw [List.countP_append, List.countP_cons, hnone, hzero hbefore]
    split <;> omega

theorem countP_isRefusal {before : List RpcAnswer} (hbefore : ∀ a ∈ before, a.1.Preliminary) :
    before.countP isRefusal = before.countP rejected :=
  List.countP_congr fun a ha => by rw [isRefusal_of_preliminary (hbefore a ha)]

/-- What the confirmation and the accepted submission add to the log is no refusal. -/
theorem countP_isRefusal_accepted {after before : List RpcAnswer} {send : RpcAnswer}
    (hafter : ∀ a ∈ after, a.1.confirms = true) (haccepted : send.isAccepted = true)
    (hbefore : ∀ a ∈ before, a.1.Preliminary) (hrejected : before.countP rejected = 0)
    (log : List RpcAnswer) :
    (after ++ send :: (before ++ log)).countP isRefusal
      = log.countP isRefusal := by
  rw [List.countP_append, List.countP_cons_of_neg
    (Bool.eq_false_iff.mp (not_refusal_of_accepted haccepted)), List.countP_append,
    countP_isRefusal hbefore, hrejected,
    countP_eq_zero_of fun a ha => not_refusal_of_confirms (hafter a ha)]
  omega

/-- An attempt is refused at most once. -/
theorem Attempted.countP_isRefusal_le (h : Attempted C r new) :
    new.countP isRefusal ≤ 1 := by
  cases h with
  | unsent _ hbefore hrejected => rwa [countP_isRefusal hbefore]
  | refused send before _ _ hbefore hrejected =>
    rw [List.countP_cons, countP_isRefusal hbefore, hrejected]
    split <;> omega
  | accepted after before haccepted _ hbefore hrejected hafter =>
    have hcount := countP_isRefusal_accepted hafter haccepted hbefore hrejected []
    rw [List.append_nil, List.countP_nil] at hcount
    omega

/-- No submission was accepted yet. -/
def Unaccepted (log : List RpcAnswer) : Prop :=
  ∀ a ∈ log, a.isAccepted = false

/-- At most one submission was accepted, and none has followed it. -/
def AcceptedLast (log : List RpcAnswer) : Prop :=
  log.countP isAccepted ≤ 1 ∧
    log.Pairwise fun newer older => older.isAccepted = true → newer.isSend = false

/-- Where nothing was accepted, nothing was sent after it. -/
theorem Unaccepted.acceptedLast (h : Unaccepted log) : AcceptedLast log := by
  refine ⟨?_, ?_⟩
  · rw [countP_eq_zero_of h]
    omega
  · refine List.pairwise_of_forall_mem_list fun _ _ b hb haccepted => ?_
    rw [h b hb] at haccepted
    cases haccepted

theorem Unaccepted.append_preliminary (h : Unaccepted log) {before : List RpcAnswer}
    (hbefore : ∀ a ∈ before, a.1.Preliminary) : Unaccepted (before ++ log) :=
  List.forall_mem_append.mpr ⟨fun a ha =>
    not_accepted_of_not_send (not_send_of_preliminary (hbefore a ha)), h⟩

/-- The log of an attempt that was accepted, the first one that was. -/
theorem Unaccepted.accepted (h : Unaccepted log) {after : List RpcAnswer} {send : RpcAnswer}
    (hafter : ∀ a ∈ after, a.1.confirms = true) : AcceptedLast (after ++ send :: log) := by
  have hquiet : ∀ a ∈ after, a.isSend = false :=
    fun a ha => not_send_of_confirms (hafter a ha)
  constructor
  · rw [List.countP_append, List.countP_cons, countP_eq_zero_of h,
      countP_eq_zero_of fun a ha => not_accepted_of_not_send (hquiet a ha)]
    split <;> omega
  · rw [List.pairwise_append, List.pairwise_cons]
    refine ⟨List.pairwise_of_forall_mem_list fun a ha _ _ _ => hquiet a ha,
      ⟨fun b hb haccepted => ?_, h.acceptedLast.2⟩, fun a ha _ _ _ => hquiet a ha⟩
    rw [h b hb] at haccepted
    cases haccepted

/-- After an attempt nothing was accepted yet, or this one was. In the second case only an answer that
misleads can have led to a sequence error, and there was no refusal in this attempt before it. -/
theorem Attempted.unaccepted_or_accepted (h : Attempted C r new) (hlog : Unaccepted log) :
    Unaccepted (new ++ log) ∨
    AcceptedLast (new ++ log) ∧ ∀ message, r = .error (.error message) →
      isSequenceError C message = true →
        ∃ newer a older, new ++ log = newer ++ a :: older ∧ a.misleads C = true ∧
          older.countP isRefusal = log.countP isRefusal := by
  cases h with
  | unsent _ hbefore => exact .inl (hlog.append_preliminary hbefore)
  | refused send before hsend hrefused hbefore =>
    exact .inl (List.forall_mem_cons.mpr ⟨hrefused, hlog.append_preliminary hbefore⟩)
  | @accepted _ tx sent after before haccepted _ hbefore hrejected hafter hconfirmed =>
    rw [List.append_assoc, List.cons_append]
    refine .inr ⟨(hlog.append_preliminary hbefore).accepted hafter, ?_⟩
    intro message hr hseq
    obtain ⟨a, ha, hmisled⟩ := hconfirmed.misleads hafter hr hseq
    obtain ⟨newer, older, rfl⟩ := List.append_of_mem ha
    refine ⟨newer, a, older ++ ⟨.sendTransaction tx, .ok sent⟩ :: (before ++ log), by simp, hmisled,
      ?_⟩
    exact countP_isRefusal_accepted
      (fun b hb => hafter b (List.mem_append_right _ (List.mem_cons_of_mem _ hb))) haccepted hbefore
      hrejected log

end attempts

namespace ContractService

variable {C : ContractConfig} {S : StellarServer} {log : List RpcAnswer}

/-- Every attempt submits at most once. -/
theorem wp_releaseAttempts_bounded (hserver : C.server = some S)
    (hsimulate : S.simulateTransaction = true) (fuel maxRetries contractEscrowId : Nat)
    (sourceAddress : String) (remaining attempt : Nat) :
    (releaseAttempts C fuel maxRetries contractEscrowId sourceAddress remaining attempt).wp anyServer
      (fun _ log' => log'.countP isSend ≤ log.countP isSend + remaining) log := by
  induction remaining generalizing log attempt with
  | zero =>
    unfold releaseAttempts
    rw [wp_throw]
    omega
  | succ remaining ih =>
    unfold releaseAttempts
    rw [wp_tryCatch]
    refine wp_mono (wp_attempt hserver hsimulate log fuel "auto_release" _ _) ?_
    rintro r log' ⟨new, rfl, hnew⟩
    have hone := hnew.countP_isSend_le
    have hcount : (new ++ log).countP isSend ≤
        log.countP isSend + (remaining + 1) := by
      rw [List.countP_append]
      omega
    match r with
    | .ok hash => exact hcount
    | .error (.ContractCallFailedException message) => exact hcount
    | .error .unsettled => exact hcount
    | .error (.error message) =>
      dsimp only
      rw [wp_ite, wp_ite]
      refine ⟨fun _ => ?_, fun _ => ⟨fun _ => hcount, fun _ => hcount⟩⟩
      refine wp_mono (ih (attempt + 1)) ?_
      intro _ log' hlog'
      rw [List.countP_append] at hlog'
      omega

/-- The attempts one after the other: as long as none was accepted, each has used up one retry at
most; once one was accepted, there is a next one only if an answer has misled while a retry was
left. -/
theorem wp_releaseAttempts_acceptedLast (hserver : C.server = some S)
    (hsimulate : S.simulateTransaction = true) (fuel maxRetries contractEscrowId : Nat)
    (sourceAddress : String) (remaining attempt : Nat) (hlog : Unaccepted log)
    (hused : log.countP isRefusal ≤ attempt) :
    (releaseAttempts C fuel maxRetries contractEscrowId sourceAddress remaining attempt).wp anyServer
      (fun _ log' => MisledAtLast C maxRetries log' → AcceptedLast log') log := by
  induction remaining generalizing log attempt with
  | zero =>
    unfold releaseAttempts
    rw [wp_throw]
    exact fun _ => hlog.acceptedLast
  | succ remaining ih =>
    unfold releaseAttempts
    rw [wp_tryCatch]
    refine wp_mono (wp_attempt hserver hsimulate log fuel "auto_release" _ _) ?_
    rintro r log' ⟨new, rfl, hnew⟩
    have hcases := hnew.unaccepted_or_accepted hlog
    have hnow : AcceptedLast (new ++ log) := by
      rcases hcases with hunaccepted | ⟨haccepted, -⟩
      · exact hunaccepted.acceptedLast
      · exact haccepted
    match r, hcases with
    | .ok hash, _ => exact fun _ => hnow
    | .error (.ContractCallFailedException message), _ => exact fun _ => hnow
    | .error .unsettled, _ => exact fun _ => hnow
    | .error (.error message), hcases =>
      dsimp only
      rw [wp_ite, wp_ite]
      refine ⟨fun hretry => ?_, fun _ => ⟨fun _ _ => hnow, fun _ _ => hnow⟩⟩
      rcases hcases with hunaccepted | ⟨-, hmisled⟩
      · apply ih (attempt + 1) hunaccepted
        have hone := hnew.countP_isRefusal_le
        rw [List.countP_append]
        omega
      · -- the answer that misled came in an attempt before the last
        refine wp_mono (wp_oracle_extends _ _) ?_
        rintro _ log' ⟨more, rfl⟩ hlast
        obtain ⟨newer, a, older, hsplit, hmisleads, hcount⟩ := hmisled message rfl hretry.1
        rw [hsplit, ← List.append_assoc] at hlast
        have hleft := hlast.split hmisleads
        omega

end ContractService

/-- Run `submitAutoRelease` against a server that behaves so: the outcome, and the log. -/
def runRelease (C : ContractConfig) (fuel contractEscrowId : Nat) (sourceAddress : String)
    (maxRetries : Nat) (behaviour : RpcBehaviour) :
    Except ContractError String × List RpcAnswer :=
  (submitAutoRelease C fuel contractEscrowId sourceAddress maxRetries).exec
    (Machine.oracle soroban) behaviour []

/-- Against every server with `simulateTransaction` and every sequence of answers and errors, one call
submits at most `maxRetries + 1` times. At most one submission is accepted and nothing is submitted
after it, if no confirmation answer reads like a sequence error in an attempt before the last. -/
theorem single_release {C : ContractConfig} {S : StellarServer} (hserver : C.server = some S)
    (hsimulate : S.simulateTransaction = true) (fuel contractEscrowId : Nat) (sourceAddress : String)
    (maxRetries : Nat) (behaviour : RpcBehaviour) :
    let log := (runRelease C fuel contractEscrowId sourceAddress maxRetries behaviour).2
    log.countP isSend ≤ maxRetries + 1 ∧
      (MisledAtLast C maxRetries log → SingleRelease maxRetries log) := by
  have hwp : (submitAutoRelease C fuel contractEscrowId sourceAddress maxRetries).wp anyServer
      (fun _ log' => log'.countP isSend ≤ maxRetries + 1 ∧
        (MisledAtLast C maxRetries log' → AcceptedLast log')) [] := by
    unfold submitAutoRelease
    rw [hserver]
    dsimp only
    refine wp_mono (wp_and
      (wp_releaseAttempts_bounded hserver hsimulate fuel maxRetries contractEscrowId sourceAddress
        (maxRetries + 1) 0)
      (wp_releaseAttempts_acceptedLast hserver hsimulate fuel maxRetries contractEscrowId
        sourceAddress (maxRetries + 1) 0 (List.forall_mem_nil _) (Nat.zero_le 0))) ?_
    rintro _ log' ⟨hcount, hlast⟩
    rw [List.countP_nil] at hcount
    exact ⟨by omega, hlast⟩
  intro log
  obtain ⟨hcount, hlast⟩ := exec_of_wp_any (M := Machine.oracle soroban) hwp behaviour
  exact ⟨hcount, fun hmisled => ⟨hcount, (hlast hmisled).1, (hlast hmisled).2⟩⟩

/-- The server takes every transaction, and rejects every question about one with this text. -/
def RpcBehaviour.rejecting (message : String) : RpcBehaviour := fun n c =>
  match c with
  | .getTransaction _ => .error (.error message)
  | c => RpcBehaviour.reporting "PENDING" n c

/-- The first submission is refused, its sequence number is stale. -/
def RpcBehaviour.stale (behaviour : RpcBehaviour) : RpcBehaviour := fun n c =>
  match n, c with
  | 1, .sendTransaction _ => .ok ⟨some "ERROR", none, .string "tx_bad_seq", .undefined⟩
  | n, c => behaviour n c

/-- The retry is used up by a stale sequence number, so the answer that misleads does no harm. -/
theorem single_release_stale :
    let log := (runRelease (.configured false) 3 7 "source" 1
      (.stale (.rejecting "ledger sequence out of range"))).2
    log.countP isSend = 2 ∧ SingleRelease 1 log := by
  refine ⟨by decide +kernel, (single_release rfl rfl 3 7 "source" 1
    (.stale (.rejecting "ledger sequence out of range"))).2 (by decide +kernel)⟩

/-- The converse fails: an attempt that follows such an answer may be over before it submits. Here the
simulation is rejected, for a reason that is not retried. -/
example :
    let log := (runRelease (.configured false) 3 7 "source" 1 fun n c =>
      match n, c with
      | 4, .simulateTransaction _ => .error (.error "timeout")
      | n, c => RpcBehaviour.rejecting "ledger sequence out of range" n c).2
    log.countP isSend = 1 ∧ ¬MisledAtLast (.configured false) 1 log := by
  decide +kernel

/-- The node cannot answer for the ledger range it was asked about, and says so with the word
`sequence`: the release that was accepted is sent again, and accepted again. -/
theorem release_sent_twice :
    (runRelease (.configured false) 3 7 "source" 1
        (.rejecting "ledger sequence out of range")).2.countP isAccepted = 2 ∧
      ¬ SingleRelease 1 (runRelease (.configured false) 3 7 "source" 1
        (.rejecting "ledger sequence out of range")).2 := by
  have htwice : (runRelease (.configured false) 3 7 "source" 1
      (.rejecting "ledger sequence out of range")).2.countP isAccepted = 2 := by
    decide +kernel
  refine ⟨htwice, fun hsingle => ?_⟩
  have honce := hsingle.once
  omega

end TrustLink
