import TrustLink.Effects.Exec
import TrustLink.Model.EscrowService
import TrustLink.Numeric.Double

/-!
# TrustLink — dispatching a notification

`dispatchEmail` and `dispatchSms` call their provider up to `MAX_ATTEMPTS` times and then write one
audit row. The two loops are the same but for what a success assigns: the SendGrid loop sets the
provider's message id and the response code, the Twilio loop only the id. `attemptLoop` is the loop,
`settle` what it computes from the answers of the provider.

Whether a call that failed is made again is decided on one number, the first one found among `code`,
`status` and the two statuses of the response (`Thrown.FirstFinal`). So the calls a dispatch makes can
be read off the answers of the provider (`GetsTo`), and both results are stated on those.

* **`notification_row_truthful_iff`** — the row of an e-mail describes the last call; that of a
  message does unless the call succeeded after one that failed with a code, which is left in place.
* **`permanent_not_retried_iff`** — a client error is final exactly if the first number of the error
  says so; a provider's own error code in `code` hides the status.
-/

namespace TrustLink

open Effects JsNumber

/-! ## Records -/

inductive NotificationType where
  | FUNDED | SHIPPED | DELIVERED | DISPUTED | COMPLETED | REFUNDED
  deriving DecidableEq, Repr

def NotificationType.name : NotificationType → String
  | .FUNDED => "FUNDED"
  | .SHIPPED => "SHIPPED"
  | .DELIVERED => "DELIVERED"
  | .DISPUTED => "DISPUTED"
  | .COMPLETED => "COMPLETED"
  | .REFUNDED => "REFUNDED"

inductive NotificationChannel where
  | EMAIL | SMS
  deriving DecidableEq, Repr

def NotificationChannel.name : NotificationChannel → String
  | .EMAIL => "EMAIL"
  | .SMS => "SMS"

structure CreateNotificationInput where
  escrowId : String
  type : NotificationType
  channel : NotificationChannel
  recipientAddress : String
  message : String
  providerMessageId : Option String
  attemptCount : Nat
  lastResponseCode : Option Number
  deriving DecidableEq, Repr

structure SendGridMessage where
  recipient : String
  sender : Option String
  templateId : String
  escrowId : String
  itemName : String
  requestId : String

structure TwilioMessage where
  recipient : String
  body : String
  sender : Option String

/-- The first entry of a SendGrid response. -/
structure SendGridEntry where
  headers : Option (List (String × String))
  statusCode : Option Number

/-- A response is an array whose first entry is an object, or something else. -/
inductive SendGridResponse where
  | entries (first : SendGridEntry)
  | other

structure TwilioResponse where
  sid : Option String

/-- `error.response`; a field that is no number is `none`. -/
structure ErrorResponse where
  statusCode : Option Number
  status : Option Number

/-- What a provider call throws. -/
inductive Thrown where
  | primitive
  | object (code status : Option Number) (response : Option ErrorResponse)

/-! ## Calls -/

inductive NotifyCall where
  | randomUUID
  | send (message : SendGridMessage)
  | create (message : TwilioMessage)
  | sleep (ms : Nat)
  | createNotification (data : CreateNotificationInput)

@[reducible] def NotifyCall.Resp : NotifyCall → Type
  | .randomUUID => String
  | .send _ => SendGridResponse
  | .create _ => TwilioResponse
  | .sleep _ => Unit
  | .createNotification _ => Unit

abbrev notifications : Sig := ⟨NotifyCall, NotifyCall.Resp, Thrown⟩

/-- What the service reads from its surroundings. `template` is the configured template id of a
type, before it is trimmed. -/
structure NotificationsConfig where
  isValidEd25519PublicKey : String → Bool
  /-- No SendGrid client is injected. -/
  noopSendGrid : Bool
  SENDGRID_FROM_EMAIL : Option String
  template : NotificationType → Option String
  TWILIO_FROM_NUMBER : Option String

namespace NotificationsService

def MAX_ATTEMPTS : Nat := 3

def isRetryableProviderError : (statusCode : Option Number) → Bool
  | none => true
  | some statusCode =>
    if strictEq statusCode (ofRat 408) || strictEq statusCode (ofRat 429) then true
    else !(le (ofRat 400) statusCode && !le (ofRat 500) statusCode)

def extractProviderId : SendGridResponse → Option String
  | .entries first => first.headers.bind (·.lookup "x-message-id")
  | .other => none

def extractSuccessCode : SendGridResponse → Option Number
  | .entries first => first.statusCode
  | .other => none

def extractResponseCode : Thrown → Option Number
  | .object code status response =>
    code <|> status <|> response.bind fun r => r.statusCode <|> r.status
  | .primitive => none

def templateIdFor (C : NotificationsConfig) (type : NotificationType) : Option String :=
  truthy ((C.template type).map EscrowService.trim)

/-! ## The loop -/

/-- The variables of the loop. -/
structure Attempts where
  providerMessageId : Option String := none
  attemptCount : Nat := 0
  lastResponseCode : Option Number := none

/-- `while (attemptCount < MAX_ATTEMPTS)`, with `left` iterations left. `delivered` is what a success
assigns. -/
def attemptLoop (call : NotifyCall) (delivered : call.Resp → Attempts → Attempts) :
    (left : Nat) → Attempts → Prog notifications Attempts
  | 0, a => pure a
  | left + 1, a =>
    let a := { a with attemptCount := a.attemptCount + 1 }
    (Prog.perform (S := notifications) call).andThen fun
      | .ok response => pure (delivered response a)
      | .error error =>
        let a := { a with lastResponseCode := extractResponseCode error }
        if isRetryableProviderError a.lastResponseCode = false then pure a
        else if a.attemptCount < MAX_ATTEMPTS then do
          Prog.perform (S := notifications) (.sleep (1000 * 2 ^ (a.attemptCount - 1)))
          attemptLoop call delivered left a
        else attemptLoop call delivered left a

def emailDelivered (response : SendGridResponse) (a : Attempts) : Attempts :=
  { a with
    providerMessageId := extractProviderId response
    lastResponseCode := extractSuccessCode response }

def smsDelivered (response : TwilioResponse) (a : Attempts) : Attempts :=
  { a with providerMessageId := response.sid }

/-- The audit row. -/
def createNotification (type : NotificationType) (escrow : EscrowRecord)
    (channel : NotificationChannel) (recipientAddress : String) (a : Attempts) :
    Prog notifications Unit :=
  Prog.perform (S := notifications) (.createNotification
    { escrowId := escrow.id
      type := type
      channel := channel
      recipientAddress := recipientAddress
      message := s!"{type.name}: {escrow.itemName}"
      providerMessageId := a.providerMessageId
      attemptCount := a.attemptCount
      lastResponseCode := a.lastResponseCode })

/-- `recordUndeliverable` and `recordUndeliverableEmail`, which differ in what they log. -/
def recordUndeliverable (type : NotificationType) (escrow : EscrowRecord)
    (channel : NotificationChannel) (recipientAddress : String) : Prog notifications Unit :=
  createNotification type escrow channel recipientAddress {}

def dispatchEmail (C : NotificationsConfig) (type : NotificationType) (escrow : EscrowRecord)
    (recipientAddress : String) : Prog notifications Unit := do
  let requestId ← Prog.perform (S := notifications) .randomUUID
  if C.isValidEd25519PublicKey recipientAddress then
    recordUndeliverable type escrow .EMAIL recipientAddress
  else if C.noopSendGrid = false ∧ truthy C.SENDGRID_FROM_EMAIL = none then
    recordUndeliverable type escrow .EMAIL recipientAddress
  else if C.noopSendGrid = false ∧ templateIdFor C type = none then
    recordUndeliverable type escrow .EMAIL recipientAddress
  else
    let a ← attemptLoop
      (.send
        { recipient := recipientAddress
          sender := C.SENDGRID_FROM_EMAIL
          templateId := (templateIdFor C type).getD ""
          escrowId := escrow.id
          itemName := escrow.itemName
          requestId := requestId })
      emailDelivered MAX_ATTEMPTS {}
    createNotification type escrow .EMAIL recipientAddress a

def dispatchSms (C : NotificationsConfig) (type : NotificationType) (escrow : EscrowRecord)
    (recipientAddress : String) : Prog notifications Unit := do
  let _requestId ← Prog.perform (S := notifications) .randomUUID
  if C.isValidEd25519PublicKey recipientAddress then
    recordUndeliverable type escrow .SMS recipientAddress
  else
    let a ← attemptLoop
      (.create
        { recipient := recipientAddress
          body := s!"{type.name}: {escrow.itemName}"
          sender := truthy C.TWILIO_FROM_NUMBER })
      smsDelivered MAX_ATTEMPTS {}
    createNotification type escrow .SMS recipientAddress a

end NotificationsService

open NotificationsService

/-- What the providers answer to the calls of a dispatch, in order. -/
structure Providers where
  sendGrid : Nat → Except Thrown SendGridResponse
  twilio : Nat → Except Thrown TwilioResponse

structure NotifyState where
  /-- The provider calls made. -/
  calls : Nat
  /-- The rows written, oldest first. -/
  rows : List CreateNotificationInput

/-- The environment chooses ids; rows are accepted. -/
abbrev Providers.machine (P : Providers) : Machine notifications where
  State := NotifyState
  Choice := String
  handle uuid c s :=
    match c with
    | .randomUUID => (.ok uuid, s)
    | .send _ => (P.sendGrid s.calls, { s with calls := s.calls + 1 })
    | .create _ => (P.twilio s.calls, { s with calls := s.calls + 1 })
    | .sleep _ => (.ok (), s)
    | .createNotification data => (.ok (), { s with rows := s.rows ++ [data] })

def NotifyState.start : NotifyState := ⟨0, []⟩

/-! ## The number an error is judged by

`extractResponseCode` looks at four fields, `isRetryableProviderError` at the number that was found
first. Together they are one property of the error. -/

/-- The numbers in an error, in the order in which they are looked for. -/
def Thrown.numbers : Thrown → List Number
  | .primitive => []
  | .object code status response =>
    code.toList ++ status.toList ++
      response.elim [] fun r => r.statusCode.toList ++ r.status.toList

/-- At least 400 and below 500, and neither 408 nor 429. -/
def IsFinalCode (code : Number) : Prop :=
  (∃ q, code.toRat = some q ∧ 400 ≤ q ∧ q < 500) ∧ code ≠ ofRat 408 ∧ code ≠ ofRat 429

/-- The first number in the error is a code that is not retried. -/
def Thrown.FirstFinal (error : Thrown) : Prop :=
  ∃ code, error.numbers.head? = some code ∧ IsFinalCode code

/-- The extractor finds the first number in its order of fields. -/
theorem extractResponseCode_eq (error : Thrown) : extractResponseCode error = error.numbers.head? := by
  cases error with
  | primitive => rfl
  | object code status response =>
    cases code <;> cases status <;> rcases response with _ | ⟨_ | _, _ | _⟩ <;> rfl

/-- A number that is not `NaN` is strictly equal to itself only. -/
theorem strictEq_ofRat {a : Number} {q : ℚ} : strictEq a (ofRat q) = true ↔ a = ofRat q := by
  constructor
  · intro h
    rw [strictEq, Bool.and_eq_true] at h
    exact eq_of_beq h.2
  · rintro rfl
    exact strictEq_ofRat_self q

/-- The range test of the classifier, on the exact value. -/
theorem le_and_not_le_iff (code : Number) :
    (le (ofRat 400) code && !le (ofRat 500) code) = true ↔
      ∃ q, code.toRat = some q ∧ 400 ≤ q ∧ q < 500 := by
  have hlow : (ofRat 400).toRat = some 400 := by decide +kernel
  have hhigh : (ofRat 500).toRat = some 500 := by decide +kernel
  cases code with
  | nan =>
    refine iff_of_false (by decide +kernel) ?_
    rintro ⟨q, hq, -⟩
    cases hq
  | infinity neg =>
    refine iff_of_false (by cases neg <;> decide +kernel) ?_
    rintro ⟨q, hq, -⟩
    cases hq
  | finite neg m e =>
    obtain ⟨v, hv⟩ : ∃ v, (Number.finite neg m e).toRat = some v := ⟨_, rfl⟩
    rw [le_eq_decide hlow hv, le_eq_decide hhigh hv, hv]
    simp

/-- What the classifier does not retry. -/
theorem isRetryableProviderError_eq_false_iff (code : Option Number) :
    isRetryableProviderError code = false ↔ ∃ n, code = some n ∧ IsFinalCode n := by
  cases code with
  | none =>
    refine iff_of_false (by decide) ?_
    rintro ⟨n, hn, -⟩
    cases hn
  | some n =>
    have hexempt : (strictEq n (ofRat 408) || strictEq n (ofRat 429)) = true ↔
        n = ofRat 408 ∨ n = ofRat 429 := by
      rw [Bool.or_eq_true, strictEq_ofRat, strictEq_ofRat]
    rw [isRetryableProviderError]
    split
    · next h =>
      refine iff_of_false (by decide) ?_
      rintro ⟨_, ⟨⟩, -, htimeout, hlimit⟩
      exact (hexempt.mp h).elim htimeout hlimit
    · next h =>
      rw [hexempt, not_or] at h
      rw [Bool.not_eq_false', le_and_not_le_iff]
      constructor
      · exact fun hrange => ⟨n, rfl, hrange, h⟩
      · rintro ⟨_, ⟨⟩, hrange, -⟩
        exact hrange

/-- Extractor and classifier together: an error is final by its first number. -/
theorem Thrown.firstFinal_iff (error : Thrown) :
    error.FirstFinal ↔ isRetryableProviderError (extractResponseCode error) = false := by
  rw [isRetryableProviderError_eq_false_iff, extractResponseCode_eq]
  exact Iff.rfl

/-- The answers of the provider lead to the call with this index: there are attempts left, and every
call before has failed with an error that is not final. -/
def GetsTo {α : Type} (outcome : Nat → Except Thrown α) (i : Nat) : Prop :=
  i < MAX_ATTEMPTS ∧ ∀ j < i, ∃ error, outcome j = .error error ∧ ¬error.FirstFinal

/-! ## What the loop computes

`settle` is the loop as a function of the answers alone. `Settled` says where it stops and what it has
assigned by then; both results of this module are read off it. -/

section settle

variable {α : Type} (outcome : Nat → Except Thrown α) (delivered : α → Attempts → Attempts)

/-- The loop on the answers alone. -/
def settle : (left : Nat) → Attempts → Attempts
  | 0, a => a
  | left + 1, a =>
    match outcome a.attemptCount with
    | .ok response => delivered response { a with attemptCount := a.attemptCount + 1 }
    | .error error =>
      let a := { a with
        attemptCount := a.attemptCount + 1, lastResponseCode := extractResponseCode error }
      if isRetryableProviderError a.lastResponseCode = false then a
      else settle left a

end settle

/-- The program computes `settle`, one provider call per attempt. -/
theorem exec_attemptLoop (P : Providers) (call : NotifyCall)
    (outcome : Nat → Except Thrown call.Resp)
    (hcall : ∀ uuid s, P.machine.handle uuid call s
      = (outcome s.calls, { s with calls := s.calls + 1 }))
    (delivered : call.Resp → Attempts → Attempts)
    (hdelivered : ∀ response a, (delivered response a).attemptCount = a.attemptCount) (left : Nat) :
    ∀ (env : Nat → String) (s : NotifyState) (a : Attempts), s.calls = a.attemptCount →
      (attemptLoop call delivered left a).exec P.machine env s
        = (.ok (settle outcome delivered left a),
          { s with calls := (settle outcome delivered left a).attemptCount }) := by
  induction left with
  | zero =>
    intro env s a hs
    show (Except.ok a, s) = (Except.ok a, { s with calls := a.attemptCount })
    rw [← hs]
  | succ left ih =>
    intro env s a hs
    rw [attemptLoop]
    show Prog.exec P.machine (Prog.call call _) env s = _
    rw [Prog.exec, hcall, settle, hs]
    simp only [Prog.andThen]
    cases outcome a.attemptCount with
    | ok response =>
      show (Except.ok _, _) = _
      rw [hdelivered]
    | error error =>
      dsimp only
      by_cases hretry : isRetryableProviderError (extractResponseCode error) = false
      · rw [if_pos hretry, if_pos hretry]
        rfl
      · rw [if_neg hretry, if_neg hretry]
        split
        · -- the pause is one more call
          exact ih _ _ _ rfl
        · exact ih _ _ _ rfl

section spec

variable {α : Type} {outcome : Nat → Except Thrown α} {delivered : α → Attempts → Attempts}

/-- Where the loop stops, and why. -/
structure Settled (outcome : Nat → Except Thrown α) (delivered : α → Attempts → Attempts)
    (left : Nat) (a b : Attempts) : Prop where
  first : a.attemptCount + 1 ≤ b.attemptCount
  bound : b.attemptCount ≤ a.attemptCount + left
  /-- Every call but the last has failed, and could be retried. -/
  earlier : ∀ i, a.attemptCount ≤ i → i + 1 < b.attemptCount →
    ∃ error, outcome i = .error error ∧ ¬error.FirstFinal
  /-- A call that fails for good is the last. -/
  early : b.attemptCount < a.attemptCount + left →
    ∀ error, outcome (b.attemptCount - 1) = .error error → error.FirstFinal
  /-- After a failure the code is that of the failure, and there is no message id. -/
  failed : ∀ error, outcome (b.attemptCount - 1) = .error error →
    b.lastResponseCode = extractResponseCode error ∧ b.providerMessageId = a.providerMessageId
  /-- A success finds the code of the failure before it, or the one there was. -/
  succeeded : ∀ response, outcome (b.attemptCount - 1) = .ok response →
    ∃ code, b = delivered response
        { providerMessageId := a.providerMessageId
          attemptCount := b.attemptCount
          lastResponseCode := code } ∧
      (b.attemptCount = a.attemptCount + 1 → code = a.lastResponseCode) ∧
      (∀ error, a.attemptCount + 1 < b.attemptCount → outcome (b.attemptCount - 2) = .error error →
        code = extractResponseCode error)

/-- One call, after which the loop stops. -/
theorem Settled.of_last {left : Nat} {a b : Attempts} (hcount : b.attemptCount = a.attemptCount + 1)
    (hearly : 0 < left → ∀ error, outcome a.attemptCount = .error error → error.FirstFinal)
    (hfailed : ∀ error, outcome a.attemptCount = .error error →
      b.lastResponseCode = extractResponseCode error ∧ b.providerMessageId = a.providerMessageId)
    (hsucceeded : ∀ response, outcome a.attemptCount = .ok response →
      b = delivered response { a with attemptCount := a.attemptCount + 1 }) :
    Settled outcome delivered (left + 1) a b := by
  have hlast : b.attemptCount - 1 = a.attemptCount := by omega
  refine ⟨by omega, by omega, fun i _ _ => by omega, ?_, ?_, ?_⟩
  · rw [hlast]
    intro hlt
    exact hearly (by omega)
  · rw [hlast]
    exact hfailed
  · rw [hlast]
    intro response hresponse
    refine ⟨a.lastResponseCode, ?_, fun _ => rfl, fun error hlt => by omega⟩
    rw [hcount]
    exact hsucceeded response hresponse

/-- A call that may be retried, and the rest of the loop. What the rest has found carries over; only a
success right after this call sees the code of its error. -/
theorem Settled.of_retry {left : Nat} {a a' b : Attempts} {error : Thrown}
    (herror : outcome a.attemptCount = .error error)
    (hretry : ¬error.FirstFinal)
    (ha' : a' = { a with
      attemptCount := a.attemptCount + 1, lastResponseCode := extractResponseCode error })
    (h : Settled outcome delivered left a' b) : Settled outcome delivered (left + 1) a b := by
  have hcount : a'.attemptCount = a.attemptCount + 1 := by rw [ha']
  have hfirst := h.first
  have hbound := h.bound
  refine ⟨by omega, by omega, ?_, ?_, ?_, ?_⟩
  · intro i hi hlt
    by_cases hthis : i = a.attemptCount
    · exact ⟨error, hthis ▸ herror, hretry⟩
    · exact h.earlier i (by omega) hlt
  · intro hlt
    exact h.early (by omega)
  · intro error' herror'
    have hfailed := h.failed error' herror'
    rw [ha'] at hfailed
    exact hfailed
  · intro response hresponse
    obtain ⟨code, hb, hsecond, hlater⟩ := h.succeeded response hresponse
    refine ⟨code, ?_, fun heq => by omega, ?_⟩
    · rw [ha'] at hb
      exact hb
    · intro error' hlt herror'
      by_cases hthis : b.attemptCount = a'.attemptCount + 1
      · -- the failure before the success is this one
        have hindex : b.attemptCount - 2 = a.attemptCount := by omega
        rw [hindex, herror] at herror'
        cases herror'
        rw [hsecond hthis, ha']
      · exact hlater error' (by omega) herror'

variable (outcome delivered) in
/-- What the loop computes is where it has settled. Induction on the iterations left. -/
theorem settle_spec
    (hdelivered : ∀ response a, (delivered response a).attemptCount = a.attemptCount) (left : Nat) :
    ∀ a, 0 < left → Settled outcome delivered left a (settle outcome delivered left a) := by
  induction left with
  | zero =>
    intro a hpos
    omega
  | succ left ih =>
    intro a _
    rw [settle]
    cases hout : outcome a.attemptCount with
    | ok response =>
      apply Settled.of_last (hdelivered _ _)
      · intro _ error herror
        cases hout.symm.trans herror
      · intro error herror
        cases hout.symm.trans herror
      · intro response' hresponse'
        cases hout.symm.trans hresponse'
        rfl
    | error error =>
      -- the loop ends here on a final error, and when no attempt is left
      have hlast : (left = 0 ∨ error.FirstFinal) →
          Settled outcome delivered (left + 1) a { a with
            attemptCount := a.attemptCount + 1
            lastResponseCode := extractResponseCode error } := by
        intro hstop
        apply Settled.of_last rfl
        · intro hpos error' herror'
          cases hout.symm.trans herror'
          exact hstop.resolve_left (by omega)
        · intro error' herror'
          cases hout.symm.trans herror'
          exact ⟨rfl, rfl⟩
        · intro response' hresponse'
          cases hout.symm.trans hresponse'
      dsimp only
      split
      · next hfinal => exact hlast (.inr (error.firstFinal_iff.mpr hfinal))
      · next hretry =>
        cases left with
        | zero => exact hlast (.inl rfl)
        | succ left =>
          exact .of_retry hout (fun hfinal => hretry (error.firstFinal_iff.mp hfinal)) rfl
            (ih _ (by omega))

/-- The calls that were made are those the answers lead to. -/
theorem Settled.lt_iff_getsTo {a : Attempts} (h : Settled outcome delivered MAX_ATTEMPTS {} a)
    {i : Nat} : i < a.attemptCount ↔ GetsTo outcome i := by
  have hbound : a.attemptCount ≤ 0 + MAX_ATTEMPTS := h.bound
  constructor
  · intro hi
    exact ⟨by omega, fun j hj => h.earlier j (Nat.zero_le j) (by omega)⟩
  · rintro ⟨hmax, hfailed⟩
    -- otherwise the last call has failed, and would have been the last only for good
    by_contra hle
    have hfirst : 0 + 1 ≤ a.attemptCount := h.first
    obtain ⟨error, herror, hretry⟩ := hfailed (a.attemptCount - 1) (by omega)
    have hearly : a.attemptCount < 0 + MAX_ATTEMPTS := by omega
    exact hretry (h.early hearly error herror)

end spec

/-! ## Dispatches

The attempts, followed by the one row that the audit gets. -/

section dispatch

variable (C : NotificationsConfig) (P : Providers) (type : NotificationType) (escrow : EscrowRecord)
  (recipientAddress : String) (env : Nat → String)

/-- The providers can be called: the recipient is no public key, and an injected SendGrid client has
a sender and a template. -/
structure Deliverable : Prop where
  recipient : C.isValidEd25519PublicKey recipientAddress = false
  sender : C.noopSendGrid = false → truthy C.SENDGRID_FROM_EMAIL ≠ none
  template : C.noopSendGrid = false → templateIdFor C type ≠ none

/-- The row of these attempts. -/
def auditRow (channel : NotificationChannel) (a : Attempts) : CreateNotificationInput where
  escrowId := escrow.id
  type := type
  channel := channel
  recipientAddress := recipientAddress
  message := s!"{type.name}: {escrow.itemName}"
  providerMessageId := a.providerMessageId
  attemptCount := a.attemptCount
  lastResponseCode := a.lastResponseCode

def emailState : NotifyState :=
  ((dispatchEmail C type escrow recipientAddress).exec P.machine env .start).2

def smsState : NotifyState :=
  ((dispatchSms C type escrow recipientAddress).exec P.machine env .start).2

/-- The loop makes the attempts of `settle` and no other call. -/
theorem exec_emailLoop (message : SendGridMessage) :
    (attemptLoop (.send message) emailDelivered MAX_ATTEMPTS {}).exec P.machine env .start
      = (.ok (settle P.sendGrid emailDelivered MAX_ATTEMPTS {}),
        ⟨(settle P.sendGrid emailDelivered MAX_ATTEMPTS {}).attemptCount, []⟩) :=
  exec_attemptLoop P (.send message) P.sendGrid (fun _ _ => rfl) emailDelivered (fun _ _ => rfl)
    MAX_ATTEMPTS env .start {} rfl

/-- So does the loop of the SMS dispatch. -/
theorem exec_smsLoop (message : TwilioMessage) :
    (attemptLoop (.create message) smsDelivered MAX_ATTEMPTS {}).exec P.machine env .start
      = (.ok (settle P.twilio smsDelivered MAX_ATTEMPTS {}),
        ⟨(settle P.twilio smsDelivered MAX_ATTEMPTS {}).attemptCount, []⟩) :=
  exec_attemptLoop P (.create message) P.twilio (fun _ _ => rfl) smsDelivered (fun _ _ => rfl)
    MAX_ATTEMPTS env .start {} rfl

variable {C type recipientAddress}

/-- An email that can be delivered is attempted and written down. -/
theorem emailState_eq (h : Deliverable C type recipientAddress) :
    emailState C P type escrow recipientAddress env
      = ⟨(settle P.sendGrid emailDelivered MAX_ATTEMPTS {}).attemptCount,
        [auditRow type escrow recipientAddress .EMAIL
          (settle P.sendGrid emailDelivered MAX_ATTEMPTS {})]⟩ := by
  have hkey : ¬C.isValidEd25519PublicKey recipientAddress = true := by
    rw [h.recipient]
    exact Bool.false_ne_true
  have hsender : ¬(C.noopSendGrid = false ∧ truthy C.SENDGRID_FROM_EMAIL = none) := by
    intro hnone
    exact h.sender hnone.1 hnone.2
  have htemplate : ¬(C.noopSendGrid = false ∧ templateIdFor C type = none) := by
    intro hnone
    exact h.template hnone.1 hnone.2
  have huuid : (Prog.perform (S := notifications) .randomUUID).exec P.machine env NotifyState.start
      = (.ok (env 0), NotifyState.start) := rfl
  unfold emailState dispatchEmail
  rw [exec_bind_ok huuid, if_neg hkey, if_neg hsender,
    if_neg htemplate, exec_bind_ok (exec_emailLoop P _ _)]
  rfl

/-- So is an SMS to what is no public key. -/
theorem smsState_eq (h : C.isValidEd25519PublicKey recipientAddress = false) :
    smsState C P type escrow recipientAddress env
      = ⟨(settle P.twilio smsDelivered MAX_ATTEMPTS {}).attemptCount,
        [auditRow type escrow recipientAddress .SMS
          (settle P.twilio smsDelivered MAX_ATTEMPTS {})]⟩ := by
  have hkey : ¬C.isValidEd25519PublicKey recipientAddress = true := by
    rw [h]
    exact Bool.false_ne_true
  have huuid : (Prog.perform (S := notifications) .randomUUID).exec P.machine env NotifyState.start
      = (.ok (env 0), NotifyState.start) := rfl
  unfold smsState dispatchSms
  rw [exec_bind_ok huuid, if_neg hkey,
    exec_bind_ok (exec_smsLoop P _ _)]
  rfl

end dispatch

/-! ## The audit row

One row for each dispatch, whatever the provider has answered. -/

section truthful

variable {α : Type}

/-- The code a provider call yields; `successCode` is what is read from a success. -/
def callCode (successCode : α → Option Number) : Except Thrown α → Option Number
  | .ok response => successCode response
  | .error error => extractResponseCode error

/-- One row is written, and it describes the last provider call. -/
def Truthful (outcome : Nat → Except Thrown α) (successCode : α → Option Number)
    (s : NotifyState) : Prop :=
  ∃ row, s.rows = [row] ∧ row.attemptCount = s.calls ∧ 0 < s.calls ∧ s.calls ≤ MAX_ATTEMPTS ∧
    row.lastResponseCode = callCode successCode (outcome (s.calls - 1)) ∧
    (row.providerMessageId ≠ none → ∃ response, outcome (s.calls - 1) = .ok response)

/-- What is left to ask after a loop: whether a success has left the right code. -/
theorem truthful_iff {outcome : Nat → Except Thrown α} {delivered : α → Attempts → Attempts}
    {a : Attempts} (h : Settled outcome delivered MAX_ATTEMPTS {} a)
    (successCode : α → Option Number) (type : NotificationType) (escrow : EscrowRecord)
    (recipientAddress : String) (channel : NotificationChannel) :
    Truthful outcome successCode
        ⟨a.attemptCount, [auditRow type escrow recipientAddress channel a]⟩
      ↔ ∀ response, outcome (a.attemptCount - 1) = .ok response →
        a.lastResponseCode = successCode response := by
  constructor
  · rintro ⟨row, hrow, -, -, -, hcode, -⟩ response hresponse
    cases hrow
    rw [hresponse] at hcode
    exact hcode
  · intro hsuccess
    refine ⟨_, rfl, rfl, ?_, ?_, ?_, ?_⟩
    · have hfirst := h.first
      show 0 < a.attemptCount
      omega
    · have hbound := h.bound
      show a.attemptCount ≤ MAX_ATTEMPTS
      rwa [Nat.zero_add] at hbound
    -- a failed call has set the code; after a success it is what the success left
    · show a.lastResponseCode = callCode successCode (outcome (a.attemptCount - 1))
      cases hout : outcome (a.attemptCount - 1) with
      | ok response => exact hsuccess response hout
      | error error => exact (h.failed error hout).1
    · intro hid
      show ∃ response, outcome (a.attemptCount - 1) = .ok response
      cases hout : outcome (a.attemptCount - 1) with
      | ok response => exact ⟨response, rfl⟩
      | error error => exact absurd (h.failed error hout).2 hid

end truthful

/-- The row of an e-mail is truthful. That of a text message is, unless the answers lead to a call that
succeeds after one that failed with a number in its error. -/
theorem notification_row_truthful_iff (C : NotificationsConfig) (P : Providers)
    (type : NotificationType) (escrow : EscrowRecord) (recipientAddress : String)
    (env : Nat → String) (h : Deliverable C type recipientAddress) :
    Truthful P.sendGrid extractSuccessCode (emailState C P type escrow recipientAddress env) ∧
    (Truthful P.twilio (fun _ => none) (smsState C P type escrow recipientAddress env) ↔
      ∀ n response error, GetsTo P.twilio (n + 1) → P.twilio n = .error error →
        P.twilio (n + 1) = .ok response → error.numbers = []) := by
  rw [emailState_eq P escrow env h, smsState_eq P escrow env h.recipient]
  constructor
  · have hspec := settle_spec P.sendGrid emailDelivered (fun _ _ => rfl) MAX_ATTEMPTS {} (by decide)
    rw [truthful_iff hspec]
    intro response hresponse
    obtain ⟨code, hb, -⟩ := hspec.succeeded response hresponse
    exact congrArg Attempts.lastResponseCode hb
  · have hspec := settle_spec P.twilio smsDelivered (fun _ _ => rfl) MAX_ATTEMPTS {} (by decide)
    rw [truthful_iff hspec]
    generalize settle P.twilio smsDelivered MAX_ATTEMPTS {} = a at hspec
    have hfirst : 0 + 1 ≤ a.attemptCount := hspec.first
    constructor
    · intro hcode n response error hgets herror hresponse
      -- a call after the success would need an error in its place
      have hcalls : a.attemptCount = n + 2 := by
        have hle := hspec.lt_iff_getsTo.mpr hgets
        by_contra hne
        obtain ⟨error', herror', -⟩ := hspec.earlier (n + 1) (Nat.zero_le _) (by omega)
        cases hresponse.symm.trans herror'
      have hlast : P.twilio (a.attemptCount - 1) = .ok response := by
        rw [hcalls]
        exact hresponse
      obtain ⟨code, hb, -, hbefore⟩ := hspec.succeeded response hlast
      have hkept : a.lastResponseCode = code := congrArg Attempts.lastResponseCode hb
      have hbeforeLast : P.twilio (a.attemptCount - 2) = .error error := by
        rw [hcalls]
        exact herror
      have hsecond : ({} : Attempts).attemptCount + 1 < a.attemptCount := by
        rw [hcalls]
        exact Nat.lt_add_left n (by decide : 0 + 1 < 2)
      rw [← List.head?_eq_none_iff, ← extractResponseCode_eq, ← hbefore error hsecond hbeforeLast,
        ← hkept]
      exact hcode response hlast
    · intro hcond response hresponse
      obtain ⟨code, hb, hone, hbefore⟩ := hspec.succeeded response hresponse
      have hkept : a.lastResponseCode = code := congrArg Attempts.lastResponseCode hb
      rw [hkept]
      by_cases hcalls : a.attemptCount = 0 + 1
      · exact hone hcalls
      · -- the call before the last has failed
        obtain ⟨n, hn⟩ : ∃ n, a.attemptCount = n + 2 := ⟨a.attemptCount - 2, by omega⟩
        obtain ⟨error, herror, -⟩ := hspec.earlier n (Nat.zero_le _) (by omega)
        rw [hn] at hresponse
        have hnone := hcond n response error (hspec.lt_iff_getsTo.mp (by omega)) herror hresponse
        have hsecond : 0 + 1 < a.attemptCount := by omega
        rw [hbefore error hsecond (by rw [hn]; exact herror), extractResponseCode_eq, hnone]
        rfl

section instances

/-- A client, a sender and a template for every type; no recipient is a public key. -/
def NotificationsConfig.plain : NotificationsConfig where
  isValidEd25519PublicKey _ := false
  noopSendGrid := false
  SENDGRID_FROM_EMAIL := some "noreply@trustlink.example"
  template _ := some "d-1"
  TWILIO_FROM_NUMBER := none

theorem deliverable_plain (type : NotificationType) (recipientAddress : String) :
    Deliverable .plain type recipientAddress := by
  have htemplate : templateIdFor .plain type = some "d-1" := by
    cases type <;> decide +kernel
  refine ⟨rfl, fun _ => by decide, fun _ => ?_⟩
  rw [htemplate]
  exact Option.some_ne_none _

/-- Both providers fail with a server error once and then succeed. -/
def Providers.flaky : Providers where
  sendGrid
    | 0 => .error (.object none (some (ofRat 500)) none)
    | _ => .ok (.entries ⟨none, some (ofRat 202)⟩)
  twilio
    | 0 => .error (.object none (some (ofRat 500)) none)
    | _ => .ok ⟨some "SM1"⟩

def lampRecord : EscrowRecord := toEscrowRecord (Db.lampEscrow .FUNDED)

/-- The e-mail is sent at the second call, and its row says so. -/
theorem notification_row_truthful_flaky :
    (emailState .plain .flaky .FUNDED lampRecord "a@b.c" fun _ => "r").calls = 2 ∧
    Truthful Providers.flaky.sendGrid extractSuccessCode
      (emailState .plain .flaky .FUNDED lampRecord "a@b.c" fun _ => "r") :=
  ⟨by decide +kernel, (notification_row_truthful_iff .plain .flaky .FUNDED lampRecord "a@b.c"
    (fun _ => "r") (deliverable_plain _ _)).1⟩

/-- The text message is sent at the second call, and its row has the code of the first. -/
theorem sent_sms_keeps_error_code :
    let s := smsState .plain .flaky .FUNDED lampRecord "+2348012345678" fun _ => "r"
    s.calls = 2 ∧ s.rows.map (·.lastResponseCode) = [some (ofRat 500)] ∧
      ¬Truthful Providers.flaky.twilio (fun _ => none) s := by
  intro s
  have hcalls : s.calls = 2 := by decide +kernel
  have hcodes : s.rows.map (·.lastResponseCode) = [some (ofRat 500)] := by decide +kernel
  refine ⟨hcalls, hcodes, ?_⟩
  rintro ⟨row, hrow, -, -, -, hcode, -⟩
  rw [hrow] at hcodes
  rw [hcalls] at hcode
  have hnone : row.lastResponseCode = none := hcode
  rw [List.map_singleton, hnone] at hcodes
  cases hcodes

end instances

/-! ## Permanent errors

The classifier and the extractor meet here: an error is permanent by the number that is found in it.
-/

/-- In 400..499, but neither a timeout nor a rate limit. -/
def isClientError (status : Number) : Bool :=
  le (ofRat 400) status && le status (ofRat 499) &&
    !strictEq status (ofRat 408) && !strictEq status (ofRat 429)

/-- The HTTP statuses an error carries: its own, and those of its response. -/
def Thrown.httpStatuses : Thrown → List Number
  | .primitive => []
  | .object _ status response =>
    status.toList ++ (response.elim [] fun r => r.statusCode.toList ++ r.status.toList)

def Thrown.isPermanent (error : Thrown) : Bool := error.httpStatuses.any isClientError

section permanent

variable {α : Type} (outcome : Nat → Except Thrown α)

/-- A call that fails permanently is the last one. -/
def PermanentIsFinal (calls : Nat) : Prop :=
  ∀ i error, i < calls → outcome i = .error error → error.isPermanent = true → calls = i + 1

/-- Whenever the answers lead to a permanent error and an attempt is left, the first number in the
error is a final code. -/
def PermanentFirst : Prop :=
  ∀ i error, GetsTo outcome i → i + 1 < MAX_ATTEMPTS → outcome i = .error error →
    error.isPermanent = true → error.FirstFinal

variable {outcome}

/-- The count stops at the first permanent error if that comes first. -/
theorem permanentIsFinal_iff {delivered : α → Attempts → Attempts} {a : Attempts}
    (h : Settled outcome delivered MAX_ATTEMPTS {} a) :
    PermanentIsFinal outcome a.attemptCount ↔ PermanentFirst outcome := by
  have hbound : a.attemptCount ≤ 0 + MAX_ATTEMPTS := h.bound
  constructor
  · intro hfinal i error hgets hmax herror hpermanent
    have hlast := hfinal i error (h.lt_iff_getsTo.mpr hgets) herror hpermanent
    have hindex : a.attemptCount - 1 = i := by omega
    have hearly : a.attemptCount < 0 + MAX_ATTEMPTS := by omega
    exact h.early hearly error (hindex ▸ herror)
  · intro hfirst i error hi herror hpermanent
    -- a later call would mean that the error is not final
    by_contra hmore
    obtain ⟨error', herror', hretry⟩ := h.earlier i (Nat.zero_le i) (by omega)
    cases herror.symm.trans herror'
    exact hretry (hfirst i error (h.lt_iff_getsTo.mp hi) (by omega) herror hpermanent)

/-- A client error is a final code. -/
theorem isFinalCode_of_isClientError {status : Number} (h : isClientError status = true) :
    IsFinalCode status := by
  have htop : (ofRat 499).toRat = some 499 := by decide +kernel
  have hlow : (ofRat 400).toRat = some 400 := by decide +kernel
  simp only [isClientError, Bool.and_eq_true, Bool.not_eq_true'] at h
  obtain ⟨⟨⟨hge, hle⟩, htimeout⟩, hlimit⟩ := h
  refine ⟨?_, ?_, ?_⟩
  · cases status with
    | nan => cases hge
    | infinity neg =>
      cases neg with
      | false => cases hle
      | true => exact absurd hge (by decide +kernel)
    | finite neg m e =>
      obtain ⟨v, hv⟩ : ∃ v, (Number.finite neg m e).toRat = some v := ⟨_, rfl⟩
      rw [le_eq_decide hlow hv, decide_eq_true_eq] at hge
      rw [le_eq_decide hv htop, decide_eq_true_eq] at hle
      exact ⟨v, hv, hge, lt_of_le_of_lt hle (by norm_num)⟩
  · rintro rfl
    rw [strictEq_ofRat_self] at htimeout
    cases htimeout
  · rintro rfl
    rw [strictEq_ofRat_self] at hlimit
    cases hlimit

/-- A permanent status that is the only number in its error is final. -/
theorem Thrown.firstFinal_of_lone {error : Thrown} {status : Number}
    (hlone : error.numbers = [status]) (hpermanent : error.isPermanent = true) :
    error.FirstFinal := by
  refine ⟨status, by rw [hlone]; rfl, isFinalCode_of_isClientError ?_⟩
  obtain ⟨n, hn, hclient⟩ := List.any_eq_true.mp hpermanent
  have hmem : n ∈ error.numbers := by
    cases error with
    | primitive => exact hn
    | object code status response =>
      rw [Thrown.numbers, List.append_assoc]
      exact List.mem_append_right _ hn
  rw [hlone, List.mem_singleton] at hmem
  rwa [← hmem]

end permanent

/-- A permanent error ends the dispatch exactly if the first number among `code`, `status` and the two
statuses of the response is at least 400, below 500 and neither 408 nor 429. -/
theorem permanent_not_retried_iff (C : NotificationsConfig) (P : Providers)
    (type : NotificationType) (escrow : EscrowRecord) (recipientAddress : String)
    (env : Nat → String) (h : Deliverable C type recipientAddress) :
    (PermanentIsFinal P.sendGrid (emailState C P type escrow recipientAddress env).calls ↔
      PermanentFirst P.sendGrid) ∧
    (PermanentIsFinal P.twilio (smsState C P type escrow recipientAddress env).calls ↔
      PermanentFirst P.twilio) := by
  rw [emailState_eq P escrow env h, smsState_eq P escrow env h.recipient]
  exact ⟨permanentIsFinal_iff (settle_spec P.sendGrid emailDelivered (fun _ _ => rfl) MAX_ATTEMPTS
      {} (by decide)),
    permanentIsFinal_iff (settle_spec P.twilio smsDelivered (fun _ _ => rfl) MAX_ATTEMPTS {}
      (by decide))⟩

/-- Both providers reject every call as a bad request; Twilio's error has its own code as well. -/
def Providers.rejecting : Providers where
  sendGrid _ := .error (.object none none (some ⟨some (ofRat 400), none⟩))
  twilio _ := .error (.object (some (ofRat 21211)) (some (ofRat 400)) none)

/-- The e-mail is not tried again. -/
theorem permanent_not_retried_email :
    PermanentIsFinal Providers.rejecting.sendGrid
      (emailState .plain .rejecting .FUNDED lampRecord "a@b.c" fun _ => "r").calls := by
  rw [(permanent_not_retried_iff .plain .rejecting .FUNDED lampRecord "a@b.c" (fun _ => "r")
    (deliverable_plain _ _)).1]
  intro i error _ _ herror hpermanent
  cases herror
  exact Thrown.firstFinal_of_lone rfl hpermanent

/-- The text message is sent three times, though the first answer was a bad request. -/
theorem twilio_code_hides_status :
    let s := smsState .plain .rejecting .FUNDED lampRecord "+2348012345678" fun _ => "r"
    s.calls = 3 ∧ ¬PermanentIsFinal Providers.rejecting.twilio s.calls := by
  intro s
  have hcalls : s.calls = 3 := by decide +kernel
  refine ⟨hcalls, ?_⟩
  intro hfinal
  have honly := hfinal 0 _ (by omega) rfl (by decide +kernel)
  omega

end TrustLink
