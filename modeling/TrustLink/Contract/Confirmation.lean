import TrustLink.Contract.Model

/-!
# TrustLink — when an invocation counts as confirmed

`invokeContract` ends with a confirmation: `pollTransaction` if the server has it, otherwise a
loop over `getTransaction`. The loop leaves only when the status is no longer `NOT_FOUND` or
`PENDING`; `pollTransaction` is believed whatever it returns. The caller then rejects `FAILED`
and nothing else.

So the hash that is returned is a confirmed one exactly when the last confirmation response was
conclusive. `invokeContract_confirmed_iff` says this for every server and every sequence of
answers: nothing is assumed about them, the machine is `Machine.oracle`, which only keeps a log.
It is read off `Attempted`, which says what one invocation can add to the log and what it returns
then; the programs are walked through once, for this.
The second result is about the loop itself: against a clock that moves on while the code sleeps
it ends, after at most `TX_CONFIRM_TIMEOUT_MS / TX_CONFIRM_POLL_INTERVAL_MS + 1` rounds.
-/

namespace TrustLink

open Effects

/-- One call of the server with its answer. -/
abbrev RpcAnswer := (c : RpcCall) × Except ContractError c.Resp

/-- What a server does: it answers the `n`-th call as it likes. -/
abbrev RpcBehaviour := Nat → (c : RpcCall) → Except ContractError c.Resp

/-- The server of which nothing is known. -/
abbrev anyServer : Protocol soroban (List RpcAnswer) :=
  (Machine.oracle soroban).protocol fun _ => True

/-- A response that says how a transaction stands, and how it was asked for. -/
structure Confirmation where
  hash : String
  polled : Bool
  response : GetTransactionResponse

def RpcAnswer.confirmation : RpcAnswer → Option Confirmation
  | ⟨.pollTransaction hash, .ok response⟩ => some ⟨hash, true, response⟩
  | ⟨.getTransaction hash, .ok response⟩ => some ⟨hash, false, response⟩
  | _ => none

/-- The last confirmation response of a log. -/
def lastConfirmation (log : List RpcAnswer) : Option Confirmation :=
  log.findSome? RpcAnswer.confirmation

/-- `sendTransaction` returned this hash. -/
def Sent (hash : String) (log : List RpcAnswer) : Prop :=
  ∃ tx sendResult, (⟨.sendTransaction tx, .ok sendResult⟩ : RpcAnswer) ∈ log ∧
    sendResult.hash = some hash

/-- An invocation that resolves with a hash has sent it, and has seen it succeed. -/
def ConfirmationSound (r : Except ContractError String) (log : List RpcAnswer) : Prop :=
  ∀ hash, r = .ok hash → Sent hash log ∧ ∃ c, lastConfirmation log = some c ∧
    c.hash = hash ∧ statusText c.response.status = "SUCCESS"

/-- The last confirmation response settles the transaction one way or the other, or is one that
the `getTransaction` loop does not accept. -/
def Conclusive (log : List RpcAnswer) : Prop :=
  ∀ c, lastConfirmation log = some c →
    statusText c.response.status = "SUCCESS" ∨ statusText c.response.status = "FAILED" ∨
      c.polled = false ∧ ContractService.isPendingStatus c.response.status = true

section log

variable {log newer older : List RpcAnswer}

theorem lastConfirmation_cons_none {a : RpcAnswer} (h : a.confirmation = none) :
    lastConfirmation (a :: log) = lastConfirmation log := by
  show List.findSome? _ (a :: log) = _
  rw [List.findSome?_cons, h]
  rfl

/-- Only the newer part of the log counts when there is no confirmation in the older one. -/
theorem lastConfirmation_append (h : ∀ a ∈ older, a.confirmation = none) :
    lastConfirmation (newer ++ older) = lastConfirmation newer := by
  have hnone : older.findSome? RpcAnswer.confirmation = none := List.findSome?_eq_none_iff.mpr h
  rw [lastConfirmation, List.findSome?_append, hnone, Option.or_none]
  rfl

theorem conclusive_of_none (h : lastConfirmation log = none) : Conclusive log := by
  intro c hc
  rw [h] at hc
  cases hc

/-- An invocation that is rejected claims nothing. -/
theorem sound_iff_of_error {e : ContractError} (h : Conclusive log) :
    ConfirmationSound (.error e) log ↔ Conclusive log :=
  iff_of_true (fun _ hr => by cases hr) h

end log

/-! ## The kinds of calls

A transaction is built and signed, submitted, and then waited for. -/

namespace RpcAnswer

/-- `sendTransaction` was called, with whatever outcome. -/
def isSend : RpcAnswer → Bool
  | ⟨.sendTransaction _, _⟩ => true
  | _ => false

/-- `sendTransaction` returned a status other than `ERROR`. -/
def isAccepted : RpcAnswer → Bool
  | ⟨.sendTransaction _, .ok sendResult⟩ => sendResult.status ≠ some "ERROR"
  | _ => false

/-- The call was rejected. -/
abbrev rejected : RpcAnswer → Bool := Answered.rejected (S := soroban)

end RpcAnswer

/-- The calls of the confirmation of a transaction. -/
def RpcCall.confirms : RpcCall → Bool
  | .getTransaction _ | .pollTransaction _ | .dateNow | .setTimeout _ => true
  | _ => false

/-- The calls that build a transaction: they neither submit it nor wait for it. -/
def RpcCall.Preliminary : RpcCall → Prop
  | .sendTransaction _ | .getTransaction _ | .pollTransaction _ | .dateNow | .setTimeout _ => False
  | _ => True

theorem RpcAnswer.confirmation_of_preliminary {a : RpcAnswer} (h : a.1.Preliminary) :
    a.confirmation = none := by
  obtain ⟨c, r⟩ := a
  cases c with
  | getTransaction hash => exact h.elim
  | pollTransaction hash => exact h.elim
  | _ => rfl

/-- A call that throws confirms nothing. -/
theorem RpcAnswer.confirmation_of_error {c : RpcCall} {e : ContractError} :
    RpcAnswer.confirmation ⟨c, .error e⟩ = none := by
  cases c <;> rfl

/-! ## One call, and the calls before submission

Each part of an attempt ends it when a call is rejected, so a part that was left behind has no
rejection in its log (`Prog.Strict`). -/


variable {α : Type} {log : List RpcAnswer}

/-- A call may be answered with anything, and the log grows by the answer. -/
theorem wp_rpc {c : RpcCall} {Q : Except ContractError c.Resp → List RpcAnswer → Prop}
    (h : ∀ r, Q r (⟨c, r⟩ :: log)) : (rpc c).wp anyServer Q log := by
  refine (wp_machine_perform (M := Machine.oracle soroban)).mpr ?_
  intro ch _
  exact h (ch c)

theorem strict_sdk {K : RpcCall → Prop} (r : Except String α) : (sdk r).Strict K := by
  cases r with
  | ok a => exact strict_pure a
  | error message => exact strict_throw _

namespace ContractService

variable (C : ContractConfig) (S : StellarServer)

theorem strict_fetchAccount (publicKey : String) :
    (fetchAccount C S publicKey).Strict RpcCall.Preliminary := by
  unfold fetchAccount
  apply strict_ite
  · apply strict_bind (strict_perform trivial)
    intro raw
    cases raw with
    | account a => exact strict_pure a
    | sequenceNumber seq => exact strict_sdk _
    | sequence seq => exact strict_sdk _
    | other => exact strict_sdk _
  · apply strict_ite
    · exact strict_bind (strict_perform trivial) fun _ => strict_sdk _
    · exact strict_sdk _

theorem strict_simulateTransaction (tx : Transaction) :
    (simulateTransaction S tx).Strict RpcCall.Preliminary :=
  strict_ite (strict_perform trivial) (strict_throw _)

theorem strict_prepareTransaction (tx : Transaction) (simResult : SimulateTransactionResponse) :
    (prepareTransaction C S tx simResult).Strict RpcCall.Preliminary := by
  unfold prepareTransaction
  apply strict_ite (strict_perform trivial)
  cases C.sdk.assembleTransaction with
  | none => exact strict_pure tx
  | some assemble => exact strict_sdk _

theorem strict_signTransaction (tx : Transaction) :
    (signTransaction C tx).Strict RpcCall.Preliminary := by
  unfold signTransaction
  cases signerKeypair C with
  | none => exact strict_pure tx
  | some signer => exact strict_sdk _

/-- Steps 1 to 5: no call of them is a submission, and a rejection ends them. -/
theorem strict_signedTransaction (contractId sourcePublic functionName : String)
    (args : List ScVal) :
    (signedTransaction C S contractId sourcePublic functionName args).Strict
      RpcCall.Preliminary := by
  unfold signedTransaction
  apply strict_bind (strict_fetchAccount C S sourcePublic)
  intro account
  cases C.sdk.newContract contractId with
  | error message => exact strict_throw _
  | ok _ =>
    apply strict_bind (strict_sdk _)
    intro tx
    apply strict_bind (strict_simulateTransaction S tx)
    intro simResult
    apply strict_ite (strict_throw _)
    refine strict_bind (strict_tryCatch (strict_prepareTransaction C S tx simResult) ?_)
      fun preparedTx => strict_signTransaction C preparedTx
    intro e
    cases e <;> exact ⟨_, rfl⟩

theorem only_payloadText {K : RpcCall → Prop} (missing : String) (value : Native) :
    (payloadText C missing value).Only K := by
  cases value with
  | undefined => exact only_pure _
  | null => exact only_pure _
  | string s => exact only_pure _
  | _ => exact (strict_sdk _).only

/-- The payload of an error is rendered without a call. -/
theorem wp_payloadText {missing : String} {value : Native}
    {Q : Except ContractError String → List RpcAnswer → Prop} (h : ∀ r, Q r log) :
    (payloadText C missing value).wp anyServer Q log :=
  (only_payloadText (K := fun _ => False) C missing value).wp (fun _ hc => hc.elim) h

end ContractService

/-! ## What an invocation leaves

Three parts of the log: what was asked before the submission, the submission, and the confirmation.
The error of the confirmation comes from one of its calls, or from rendering the payload of a failed
transaction. -/

namespace ContractService

/-- The text `JSON.stringify` throws when the payload of a failed transaction is rendered. -/
def payloadError (C : ContractConfig) : Native → Option String
  | .undefined | .null | .string _ => none
  | value =>
    match C.stringify value with
    | .ok _ => none
    | .error message => some message

end ContractService

open ContractService

/-- No response of the confirmation has settled anything. -/
def Unsettled (log : List RpcAnswer) : Prop :=
  ∀ c, lastConfirmation log = some c →
    c.polled = false ∧ isPendingStatus c.response.status = true

/-- What the confirmation of a transaction returns, and the answers it has had. -/
inductive Confirmed (C : ContractConfig) : Except ContractError String → List RpcAnswer → Prop
  /-- One of its calls throws, or it gives up. -/
  | thrown {e : ContractError} {after : List RpcAnswer} (hopen : Unsettled after)
      (hthrown : ∀ message, e = .error message →
        ∃ c : RpcCall, ⟨c, .error (.error message)⟩ ∈ after) : Confirmed C (.error e) after
  | failed {e : ContractError} {after : List RpcAnswer} {c : Confirmation}
      (hlast : lastConfirmation after = some c) (hfailed : statusText c.response.status = "FAILED")
      (hpayload : ∀ message, e = .error message →
        payloadError C c.response.resultXdr = some message) : Confirmed C (.error e) after
  | settled {hash : String} {after : List RpcAnswer} {c : Confirmation}
      (hlast : lastConfirmation after = some c) (hhash : c.hash = hash)
      (hfailed : statusText c.response.status ≠ "FAILED")
      (hfinal : c.polled = false → isPendingStatus c.response.status = false) :
      Confirmed C (.ok hash) after

/-- The answers that one invocation adds to the log. -/
inductive Attempted (C : ContractConfig) : Except ContractError String → List RpcAnswer → Prop
  /-- It fails before the submission. -/
  | unsent {e : ContractError} (before : List RpcAnswer) (hbefore : ∀ a ∈ before, a.1.Preliminary)
      (hrejected : before.countP RpcAnswer.rejected ≤ 1) : Attempted C (.error e) before
  /-- The submission is refused, or nobody knows. -/
  | refused {e : ContractError} (send : RpcAnswer) (before : List RpcAnswer)
      (hsend : send.isSend = true) (hrefused : send.isAccepted = false)
      (hbefore : ∀ a ∈ before, a.1.Preliminary)
      (hrejected : before.countP RpcAnswer.rejected = 0) : Attempted C (.error e) (send :: before)
  | accepted {r : Except ContractError String} {tx : Transaction}
      {sendResult : SendTransactionResponse} (after before : List RpcAnswer)
      (haccepted : RpcAnswer.isAccepted ⟨.sendTransaction tx, .ok sendResult⟩ = true)
      (hhash : ∀ hash, r = .ok hash → sendResult.hash = some hash)
      (hbefore : ∀ a ∈ before, a.1.Preliminary)
      (hrejected : before.countP RpcAnswer.rejected = 0)
      (hafter : ∀ a ∈ after, a.1.confirms = true) (hconfirmed : Confirmed C r after) :
      Attempted C r (after ++ ⟨.sendTransaction tx, .ok sendResult⟩ :: before)

theorem Unsettled.cons {a : RpcAnswer} (h : Unsettled log) (ha : a.confirmation = none) :
    Unsettled (a :: log) := by
  intro c hc
  rw [lastConfirmation_cons_none ha] at hc
  exact h c hc

/-- A submission is no confirmation, and neither is anything before it. -/
theorem lastConfirmation_submitted (tx : Transaction)
    (r : Except ContractError SendTransactionResponse) (after : List RpcAnswer)
    {before : List RpcAnswer} (hbefore : ∀ a ∈ before, a.1.Preliminary) :
    lastConfirmation (after ++ ⟨.sendTransaction tx, r⟩ :: before) = lastConfirmation after := by
  apply lastConfirmation_append
  intro a ha
  rcases List.mem_cons.mp ha with rfl | ha
  · rfl
  · exact RpcAnswer.confirmation_of_preliminary (hbefore a ha)

/-- Only `FAILED` is rejected, so a hash is returned for every other status: whether rightly depends
on the last response. -/
theorem Attempted.sound_iff {C : ContractConfig} {r : Except ContractError String}
    (h : Attempted C r log) : ConfirmationSound r log ↔ Conclusive log := by
  have hpreliminary : ∀ {before : List RpcAnswer}, (∀ a ∈ before, a.1.Preliminary) →
      lastConfirmation before = none := fun hbefore =>
    List.findSome?_eq_none_iff.mpr fun a ha => RpcAnswer.confirmation_of_preliminary (hbefore a ha)
  cases h with
  | unsent _ hbefore => exact sound_iff_of_error (conclusive_of_none (hpreliminary hbefore))
  | refused send before hsend _ hbefore =>
    refine sound_iff_of_error (conclusive_of_none ?_)
    obtain ⟨c, r⟩ := send
    cases c with
    | sendTransaction tx =>
      show lastConfirmation before = none
      exact hpreliminary hbefore
    | _ => cases hsend
  | @accepted _ tx sendResult after before _ hhash hbefore _ _ hconfirmed =>
    have hlast' := lastConfirmation_submitted tx (.ok sendResult) after hbefore
    cases hconfirmed with
    | thrown hopen =>
      refine sound_iff_of_error fun c hc => .inr (.inr (hopen c ?_))
      rwa [hlast'] at hc
    | failed hlast hfailed =>
      refine sound_iff_of_error fun c hc => .inr (.inl ?_)
      rw [hlast', hlast] at hc
      cases hc
      exact hfailed
    | @settled hash _ c hlast hchash hfailed hfinal =>
      constructor
      · intro hsound c' hc'
        obtain ⟨-, c'', hc'', -, hsuccess⟩ := hsound hash rfl
        rw [hc'] at hc''
        cases hc''
        exact .inl hsuccess
      · intro hconclusive hash' hr
        cases hr
        refine ⟨⟨tx, sendResult, by simp, hhash hash rfl⟩, c, hlast'.trans hlast, hchash, ?_⟩
        rcases hconclusive c (hlast'.trans hlast) with hsuccess | hfailed' | ⟨hget, hpending⟩
        · exact hsuccess
        · exact absurd hfailed' hfailed
        · rw [hfinal hget] at hpending
          cases hpending

/-! ## The steps of an invocation

Each step is followed once, for every answer of the server: the confirmation with its loop, the last
look at the response, the submission, and the attempt made of them. -/

namespace ContractService

variable {C : ContractConfig} {S : StellarServer} {base after : List RpcAnswer} {hash : String}
  {c : RpcCall}

/-- The confirmation has ended; `base` is the log it started with. -/
def Waited (hash : String) (base : List RpcAnswer) (r : Except ContractError GetTransactionResponse)
    (log : List RpcAnswer) : Prop :=
  ∃ after, log = after ++ base ∧ (∀ a ∈ after, a.1.confirms = true) ∧
    match r with
    | .ok response => ∃ polled, lastConfirmation after = some ⟨hash, polled, response⟩ ∧
        (polled = false → isPendingStatus response.status = false)
    | .error e => Unsettled after ∧ ∀ message, e = .error message →
        ∃ c : RpcCall, ⟨c, .error (.error message)⟩ ∈ after

theorem confirms_cons (hafter : ∀ a ∈ after, a.1.confirms = true) (hc : c.confirms = true)
    (r : Except ContractError c.Resp) : ∀ a ∈ (⟨c, r⟩ : RpcAnswer) :: after, a.1.confirms = true :=
  List.forall_mem_cons.mpr ⟨hc, hafter⟩

/-- A call of the confirmation throws. -/
theorem waited_thrown (hafter : ∀ a ∈ after, a.1.confirms = true) (hopen : Unsettled after)
    (hc : c.confirms = true) (e : ContractError) :
    Waited hash base (.error e) (⟨c, .error e⟩ :: (after ++ base)) := by
  refine ⟨⟨c, .error e⟩ :: after, rfl, confirms_cons hafter hc _,
    hopen.cons RpcAnswer.confirmation_of_error, ?_⟩
  rintro message rfl
  exact ⟨c, List.mem_cons_self⟩

/-- The loop gives up without an error of the server. -/
theorem waited_given_up (hafter : ∀ a ∈ after, a.1.confirms = true) (hopen : Unsettled after)
    {e : ContractError} (he : ∀ message, e ≠ .error message) :
    Waited hash base (.error e) (after ++ base) :=
  ⟨after, rfl, hafter, hopen, fun message h => (he message h).elim⟩

/-- A pending response settles nothing. -/
theorem unsettled_of_pending {response : GetTransactionResponse}
    (hlast : lastConfirmation after = some ⟨hash, false, response⟩)
    (hpending : isPendingStatus response.status = true) : Unsettled after := by
  intro c hc
  rw [hlast] at hc
  cases hc
  exact ⟨rfl, hpending⟩

/-- The loop is left with a response that is not pending. -/
theorem waited_final {response : GetTransactionResponse}
    (hafter : ∀ a ∈ after, a.1.confirms = true)
    (hlast : lastConfirmation after = some ⟨hash, false, response⟩)
    (hfinal : ¬ isPendingStatus response.status = true) :
    Waited hash base (.ok response) (after ++ base) :=
  ⟨after, rfl, hafter, false, hlast, fun _ => Bool.eq_false_of_not_eq_true hfinal⟩

/-- The loop gives up on a pending response, or leaves with one that is not. -/
theorem waited_pollUntilFinal {deadline : Nat} (fuel : Nat) (response : GetTransactionResponse)
    (hafter : ∀ a ∈ after, a.1.confirms = true)
    (hlast : lastConfirmation after = some ⟨hash, false, response⟩) :
    (pollUntilFinal hash deadline fuel response).wp anyServer (Waited hash base)
      (after ++ base) := by
  induction fuel generalizing after response with
  | zero =>
    unfold pollUntilFinal
    exact wp_if (fun hpending => waited_given_up hafter (unsettled_of_pending hlast hpending) nofun)
      (waited_final hafter hlast)
  | succ fuel ih =>
    unfold pollUntilFinal
    refine wp_if (fun hpending => ?_) (waited_final hafter hlast)
    have hopen := unsettled_of_pending hlast hpending
    rw [wp_bind]
    refine wp_rpc fun r => ?_
    cases r with
    | error e => exact waited_thrown hafter hopen rfl e
    | ok now =>
      -- a round reads the clock, pauses and asks again; each of the three may be rejected
      have hafter' := confirms_cons (c := .dateNow) hafter rfl (.ok now)
      have hopen' : Unsettled (⟨.dateNow, .ok now⟩ :: after) := hopen.cons rfl
      refine wp_if (fun _ => waited_given_up hafter' hopen' nofun) fun _ => ?_
      rw [wp_bind]
      refine wp_rpc fun r => ?_
      cases r with
      | error e => exact waited_thrown hafter' hopen' rfl e
      | ok _ =>
        have hafter'' := confirms_cons (c := .setTimeout TX_CONFIRM_POLL_INTERVAL_MS) hafter' rfl
          (.ok ())
        dsimp only
        rw [wp_bind]
        refine wp_rpc fun r => ?_
        cases r with
        | error e => exact waited_thrown hafter'' (hopen'.cons rfl) rfl e
        | ok response' => exact ih response' (confirms_cons hafter'' rfl _) rfl

/-- The confirmation, with either method of the server. -/
theorem waited_pollTransactionStatus (fuel : Nat) (hash : String) :
    (pollTransactionStatus S fuel hash).wp anyServer (Waited hash base) base := by
  have hnone : ∀ a ∈ ([] : List RpcAnswer), a.1.confirms = true := List.forall_mem_nil _
  have hopen : Unsettled [] := nofun
  unfold pollTransactionStatus
  refine wp_if (fun _ => wp_rpc fun r => ?_) fun _ => ?_
  · cases r with
    | error e => exact waited_thrown hnone hopen rfl e
    | ok response => exact ⟨_ :: [], rfl, confirms_cons hnone rfl _, true, rfl, nofun⟩
  · refine wp_if (fun _ => ?_) fun _ => waited_given_up hnone hopen nofun
    unfold pollWithGetTransaction
    rw [wp_bind]
    refine wp_rpc fun r => ?_
    cases r with
    | error e => exact waited_thrown hnone hopen rfl e
    | ok now =>
      have hafter := confirms_cons (c := .dateNow) hnone rfl (.ok now)
      dsimp only
      rw [wp_bind]
      refine wp_rpc fun r => ?_
      cases r with
      | error e => exact waited_thrown hafter (hopen.cons rfl) rfl e
      | ok response => exact waited_pollUntilFinal fuel response (confirms_cons hafter rfl _) rfl

/-- The payload of a failed transaction throws what `payloadError` says. -/
theorem wp_decodeTransactionError {response : GetTransactionResponse}
    {Q : Except ContractError String → List RpcAnswer → Prop}
    (hok : ∀ text, Q (.ok text) log)
    (herror : ∀ message, payloadError C response.resultXdr = some message →
      Q (.error (.error message)) log) :
    (decodeTransactionError C response).wp anyServer Q log := by
  unfold decodeTransactionError payloadText
  unfold payloadError at herror
  cases hpayload : response.resultXdr with
  | undefined => exact hok _
  | null => exact hok _
  | string s => exact hok _
  | _ =>
    rw [hpayload] at herror
    dsimp only at herror ⊢
    cases hrender : C.stringify _ with
    | ok text => exact hok text
    | error message =>
      rw [hrender] at herror
      exact herror message rfl

/-- The last step: only `FAILED` is rejected. -/
theorem wp_confirmed (fuel : Nat) (txHash : String) :
    (confirmed C S fuel txHash).wp anyServer (fun r log' => ∃ after, log' = after ++ base ∧
      (∀ a ∈ after, a.1.confirms = true) ∧ Confirmed C r after ∧
        ∀ hash, r = .ok hash → hash = txHash) base := by
  unfold confirmed
  refine wp_seq (waited_pollTransactionStatus fuel txHash) ?_ ?_
  · rintro e log' ⟨after, rfl, hafter, hopen, hthrown⟩
    exact ⟨after, rfl, hafter, .thrown hopen hthrown, nofun⟩
  · rintro response log' ⟨after, rfl, hafter, polled, hlast, hfinal⟩
    refine wp_if (fun hfailed => ?_) fun hfailed => ?_
    · rw [wp_bind]
      apply wp_decodeTransactionError
      · exact fun text => ⟨after, rfl, hafter, .failed hlast hfailed nofun, nofun⟩
      · intro message hpayload
        refine ⟨after, rfl, hafter, .failed hlast hfailed ?_, nofun⟩
        rintro _ ⟨⟩
        exact hpayload
    · refine ⟨after, rfl, hafter, .settled hlast rfl hfailed hfinal, ?_⟩
      rintro _ ⟨⟩
      rfl

/-- One submission: refused, or accepted and then waited for. -/
theorem wp_submission (fuel : Nat) (tx : Transaction) {before : List RpcAnswer}
    (hbefore : ∀ a ∈ before, a.1.Preliminary) (hnone : before.countP RpcAnswer.rejected = 0) :
    (do
      let txHash ← submittedHash C S tx
      confirmed C S fuel txHash).wp anyServer
      (fun r log' => ∃ new, log' = new ++ log ∧ Attempted C r new) (before ++ log) := by
  unfold submittedHash submitTransaction
  rw [wp_bind, wp_bind, wp_ite]
  refine ⟨fun _ => wp_rpc fun r => ?_, fun _ => ⟨before, rfl, .unsent before hbefore (by omega)⟩⟩
  cases r with
  | error e => exact ⟨_ :: before, rfl, .refused _ before rfl rfl hbefore hnone⟩
  | ok sendResult =>
    apply wp_if
    · -- a refusal: however its text is rendered, the attempt is over
      intro hrefused
      have hnot : RpcAnswer.isAccepted ⟨.sendTransaction tx, .ok sendResult⟩ = false := by
        show decide (sendResult.status ≠ some "ERROR") = false
        rw [hrefused]
        rfl
      have hover : ∀ e, ∃ new, (⟨.sendTransaction tx, .ok sendResult⟩ : RpcAnswer) ::
          (before ++ log) = new ++ log ∧ Attempted C (.error e) new :=
        fun e => ⟨_ :: before, rfl, .refused _ before rfl hnot hbefore hnone⟩
      rw [wp_bind]
      refine wp_payloadText C fun r => ?_
      cases r with
      | error e => exact hover _
      | ok errorMsg => exact wp_if (fun _ => hover _) fun _ => hover _
    · intro haccepted
      have hacc : RpcAnswer.isAccepted ⟨.sendTransaction tx, .ok sendResult⟩ = true :=
        decide_eq_true haccepted
      cases hhash : truthy sendResult.hash with
      | none =>
        exact ⟨[] ++ _ :: before, rfl, .accepted [] before hacc nofun hbefore hnone
          (List.forall_mem_nil _) (.thrown nofun nofun)⟩
      | some txHash =>
        dsimp only
        rw [wp_pure]
        refine wp_mono (wp_confirmed fuel txHash) ?_
        rintro r log' ⟨after, rfl, hafter, hconfirmed, hsame⟩
        refine ⟨after ++ _ :: before, by rw [List.append_assoc, List.cons_append],
          .accepted after before hacc ?_ hbefore hnone hafter hconfirmed⟩
        intro hash hr
        rw [hsame hash hr]
        exact truthy_eq_some hhash

/-- What one attempt adds to the log, whatever the server answers. -/
theorem wp_attempt (hserver : C.server = some S) (hsimulate : S.simulateTransaction = true)
    (log : List RpcAnswer) (fuel : Nat) (functionName : String) (args : List ScVal)
    (legacyParams : LegacyParams) :
    (invokeContract C fuel functionName args legacyParams).wp anyServer
      (fun r log' => ∃ new, log' = new ++ log ∧ Attempted C r new) log := by
  have hunsent : ∀ e, ∃ new, log = new ++ log ∧ Attempted C (.error e) new :=
    fun e => ⟨[], rfl, .unsent [] (List.forall_mem_nil _) (Nat.zero_le 1)⟩
  unfold invokeContract
  rw [hserver]
  refine wp_if (fun hlegacy => ?_) fun _ => ?_
  · rw [hsimulate] at hlegacy
    cases hlegacy.2
  unfold getContractId
  rw [wp_bind]
  cases truthy C.CONTRACT_ID with
  | none => exact hunsent _
  | some contractId =>
    rw [wp_pure]
    dsimp only
    cases truthy ((truthy legacyParams.sourceAddress).orElse fun _ => signerKeypair C) with
    | none => exact hunsent _
    | some sourcePublic =>
      dsimp only
      have hsigned := (strict_signedTransaction C S contractId sourcePublic functionName args).wp_oracle
        log
      refine wp_seq hsigned ?_ ?_
      · rintro e log' ⟨before, rfl, hbefore, hrejected, -⟩
        exact ⟨before, rfl, .unsent before hbefore hrejected⟩
      · rintro tx log' ⟨before, rfl, hbefore, -, hnone⟩
        exact wp_submission fuel tx hbefore (hnone tx rfl)

end ContractService

/-- Run `invokeContract` against a server that behaves so. -/
def runInvocation (C : ContractConfig) (fuel : Nat) (functionName : String) (args : List ScVal)
    (legacyParams : LegacyParams) (behaviour : RpcBehaviour) :
    Except ContractError String × List RpcAnswer :=
  (ContractService.invokeContract C fuel functionName args legacyParams).exec
    (Machine.oracle soroban) behaviour []

/-- Against every server with `simulateTransaction` and every sequence of answers, the hash an
invocation resolves with was sent and has succeeded exactly if the last confirmation response
was conclusive. -/
theorem invokeContract_confirmed_iff {C : ContractConfig} {S : StellarServer}
    (hserver : C.server = some S) (hsimulate : S.simulateTransaction = true) (fuel : Nat)
    (functionName : String) (args : List ScVal) (legacyParams : LegacyParams)
    (behaviour : RpcBehaviour) :
    ConfirmationSound (runInvocation C fuel functionName args legacyParams behaviour).1
        (runInvocation C fuel functionName args legacyParams behaviour).2 ↔
      Conclusive (runInvocation C fuel functionName args legacyParams behaviour).2 := by
  have hwp := wp_attempt hserver hsimulate [] fuel functionName args legacyParams
  obtain ⟨new, hlog, hnew⟩ := exec_of_wp (M := Machine.oracle soroban) hwp fun _ => trivial
  rw [List.append_nil] at hlog
  rw [← hlog] at hnew
  exact hnew.sound_iff

/-! ## A server that polls, and one that does not -/

/-- An SDK that accepts everything. -/
def StellarSdk.lenient : StellarSdk where
  fromSecret secret := .ok secret
  newAccount accountId sequence := .ok ⟨accountId, sequence.getD "0"⟩
  newContract _ := .ok ()
  newAddress a := .ok (.address a)
  build source networkPassphrase functionName args :=
    .ok ⟨source, networkPassphrase, functionName, args, []⟩
  assembleTransaction := none
  sign tx signer := .ok { tx with signers := signer :: tx.signers }

/-- Everything the transaction needs is configured; the server polls itself, or does not. -/
def ContractConfig.configured (pollTransaction : Bool) : ContractConfig where
  server := some
    { loadAccount := false
      getAccount := false
      simulateTransaction := true
      prepareTransaction := false
      sendTransaction := true
      getTransaction := true
      pollTransaction := pollTransaction
      submitTransaction := false }
  CONTRACT_ID := some "contract"
  SYSTEM_SIGNER_SECRET := some "secret"
  STELLAR_NETWORK := none
  sdk := .lenient
  toLowerCase := id
  stringify _ := .ok "payload"

/-- The server takes the transaction and reports this status whenever it is asked. -/
def RpcBehaviour.reporting (status : String) : RpcBehaviour := fun n c =>
  match c with
  | .loadAccount _ => .ok none
  | .getAccount _ => .ok .other
  | .simulateTransaction _ => .ok ⟨none, none⟩
  | .prepareTransaction tx => .ok tx
  | .sendTransaction _ => .ok ⟨some "PENDING", some "hash", .undefined, .undefined⟩
  | .getTransaction _ => .ok ⟨some status, .undefined⟩
  | .pollTransaction _ => .ok ⟨some status, .undefined⟩
  | .submitTransaction _ => .error (.error "no stub")
  | .dateNow => .ok n
  | .setTimeout _ => .ok ()

/-- The parameters of a release. -/
def LegacyParams.release : LegacyParams where
  callerAddress := none
  sourceAddress := some "source"
  contractEscrowId := "7"
  resolution := none
  refund := false

/-- With `getTransaction` a success is reported as such. -/
theorem invokeContract_confirmed_success :
    ConfirmationSound
      (runInvocation (.configured false) 3 "auto_release" [.u64 7] .release (.reporting "SUCCESS")).1
      (runInvocation (.configured false) 3 "auto_release" [.u64 7] .release
        (.reporting "SUCCESS")).2 := by
  refine (invokeContract_confirmed_iff rfl rfl 3 "auto_release" [.u64 7] .release
    (.reporting "SUCCESS")).mpr ?_
  intro c hc
  have hlast : lastConfirmation (runInvocation (.configured false) 3 "auto_release" [.u64 7]
      .release (.reporting "SUCCESS")).2 = some ⟨"hash", false, some "SUCCESS", .undefined⟩ := rfl
  rw [hlast] at hc
  cases hc
  exact .inl rfl

/-- `pollTransaction` gives up and reports `NOT_FOUND`: the invocation resolves with the hash of a
transaction that nobody has seen succeed. -/
theorem invokeContract_unconfirmed :
    (runInvocation (.configured true) 3 "auto_release" [.u64 7] .release
        (.reporting "NOT_FOUND")).1 = .ok "hash" ∧
      lastConfirmation (runInvocation (.configured true) 3 "auto_release" [.u64 7] .release
        (.reporting "NOT_FOUND")).2 = some ⟨"hash", true, some "NOT_FOUND", .undefined⟩ ∧
      ¬ ConfirmationSound
        (runInvocation (.configured true) 3 "auto_release" [.u64 7] .release
          (.reporting "NOT_FOUND")).1
        (runInvocation (.configured true) 3 "auto_release" [.u64 7] .release
          (.reporting "NOT_FOUND")).2 := by
  have hresult : (runInvocation (.configured true) 3 "auto_release" [.u64 7] .release
      (.reporting "NOT_FOUND")).1 = .ok "hash" := rfl
  have hlast : lastConfirmation (runInvocation (.configured true) 3 "auto_release" [.u64 7] .release
      (.reporting "NOT_FOUND")).2 = some ⟨"hash", true, some "NOT_FOUND", .undefined⟩ := rfl
  refine ⟨hresult, hlast, fun hsound => ?_⟩
  obtain ⟨-, c, hc, -, hsuccess⟩ := hsound "hash" hresult
  rw [hlast] at hc
  cases hc
  exact absurd hsuccess (by decide)

/-! ## The loop ends -/

/-- A clock that moves on: it is read as it is, a timer runs for at least its time, and no answer
is taken for a loop that is still going. -/
def clocked : Protocol soroban Nat where
  ok _ _ := True
  step t c r t' :=
    match c, r with
    | .dateNow, r => r = .ok t ∧ t ≤ t'
    | .setTimeout ms, r => r = .ok () ∧ t + ms ≤ t'
    | _, r => r ≠ .error .unsettled ∧ t ≤ t'

namespace ContractService

/-- One round: the deadline has passed, or the clock moves by the interval before the next one. -/
theorem wp_round {hash : String} {deadline now : Nat} (fuel : Nat)
    (response : GetTransactionResponse)
    (hnext : now < deadline → ∀ response' now', now + TX_CONFIRM_POLL_INTERVAL_MS ≤ now' →
      (pollUntilFinal hash deadline fuel response').wp clocked
        (fun r _ => r ≠ .error .unsettled) now') :
    (pollUntilFinal hash deadline (fuel + 1) response).wp clocked
      (fun r _ => r ≠ .error .unsettled) now := by
  unfold pollUntilFinal
  refine wp_if (fun _ => ?_) fun _ => ?_
  swap
  · rw [wp_pure]
    exact nofun
  rw [wp_bind]
  refine ⟨trivial, ?_⟩
  rintro _ t ⟨rfl, ht⟩
  show Prog.wp clocked (if deadline ≤ now then _ else _) _ t
  refine wp_if (fun _ => ?_) fun hlate => ?_
  · rw [wp_throw]
    exact nofun
  rw [wp_bind]
  refine ⟨trivial, ?_⟩
  rintro _ t' ⟨rfl, ht'⟩
  show Prog.wp clocked (rpc (.getTransaction hash) >>= _) _ t'
  rw [wp_bind]
  refine ⟨trivial, ?_⟩
  rintro r t'' ⟨hr, ht''⟩
  cases r with
  | error e => exact fun h => hr (by cases h; rfl)
  | ok response' =>
    apply hnext (by omega) response' t''
    omega

/-- Every round moves the clock by the interval, so it takes as many as reach the deadline, and one
more to notice. -/
theorem pollUntilFinal_settles {hash : String} {deadline now : Nat} (fuel : Nat)
    (response : GetTransactionResponse)
    (henough : deadline ≤ now + fuel * TX_CONFIRM_POLL_INTERVAL_MS) :
    (pollUntilFinal hash deadline (fuel + 1) response).wp clocked
      (fun r _ => r ≠ .error .unsettled) now := by
  induction fuel generalizing now response with
  | zero =>
    refine wp_round 0 response fun hlate => ?_
    omega
  | succ fuel ih =>
    refine wp_round (fuel + 1) response fun _ response' now' hnow' => ?_
    apply ih response'
    have hround : (fuel + 1) * TX_CONFIRM_POLL_INTERVAL_MS =
        fuel * TX_CONFIRM_POLL_INTERVAL_MS + TX_CONFIRM_POLL_INTERVAL_MS := Nat.succ_mul _ _
    omega

/-- The confirmation loop ends: within its timeout it is confirmed, or it gives up. -/
theorem pollWithGetTransaction_settles (hash : String) (now : Nat) :
    (pollWithGetTransaction (TX_CONFIRM_TIMEOUT_MS / TX_CONFIRM_POLL_INTERVAL_MS + 1) hash).wp
      clocked (fun r _ => r ≠ .error .unsettled) now := by
  unfold pollWithGetTransaction
  rw [wp_bind]
  refine ⟨trivial, ?_⟩
  rintro _ t ⟨rfl, ht⟩
  show Prog.wp clocked (rpc (.getTransaction hash) >>= _) _ t
  rw [wp_bind]
  refine ⟨trivial, ?_⟩
  rintro r t' ⟨hr, ht'⟩
  cases r with
  | error e => exact fun h => hr (by cases h; rfl)
  | ok response =>
    apply pollUntilFinal_settles
    have hrounds : TX_CONFIRM_TIMEOUT_MS / TX_CONFIRM_POLL_INTERVAL_MS *
        TX_CONFIRM_POLL_INTERVAL_MS = TX_CONFIRM_TIMEOUT_MS := by decide
    omega

end ContractService

end TrustLink
