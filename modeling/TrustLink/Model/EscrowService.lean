import TrustLink.Model.Repositories
import TrustLink.Model.RequestBody

/-!
# TrustLink — `EscrowService`

The operations on a single escrow, as `src/escrow/escrow.service.ts` writes them: every guard
in its place, every rejection with its text. Logging and tracing spans are left out, and so is
the payment URL that `createEscrow` appends to the record it returns.
-/

namespace TrustLink

open Effects JsNumber

namespace EscrowService

variable (D : Deployment)

/-- `String.prototype.trim`. -/
def trim (s : String) : String := String.ofList (trimChars s.toList)

/-- `String.prototype.length`: the number of UTF-16 code units. -/
def utf16Length (s : String) : Nat :=
  (s.toList.map fun c => if c.toNat < 0x10000 then 1 else 2).sum

/-- A missing escrow keeps its own error; any other failure is reported as an outage. -/
def findById (id : String) : App EscrowRecord :=
  Prog.tryCatch
    (do
      match ← EscrowRepository.findById D id with
      | none => throw (.notFound s!"Escrow with ID {id} not found")
      | some escrow => pure escrow)
    fun
      | .notFound message => throw (.notFound message)
      | _ => throw (.internalServerError "Failed to retrieve escrow")

theorem only_findById {D : Deployment} {K : Call → Prop} {id : String}
    (hget : K (.cache (.getEscrow id))) (hfind : K (.db (.escrowFindUnique id)))
    (hset : ∀ record, K (.cache (.setEscrow id record))) : (findById D id).Only K := by
  unfold findById
  apply only_tryCatch
  · apply only_bind (EscrowRepository.only_findById hget hfind hset)
    intro found
    cases found with
    | none => exact only_throw _
    | some escrow => exact only_pure _
  · intro e
    cases e <;> exact only_throw _

/-! ## Tracking details, cached by tracking id -/

def cachedTracking (trackingId : String) : App (Option TrackingDetails) :=
  if D.cache then cache (.getTracking trackingId) else pure none

def rememberTracking (trackingId : String) (details : TrackingDetails) : App Unit :=
  if D.cache then cache (.setTracking trackingId details) else pure ()

def forgetTracking (trackingId : String) : App Unit :=
  if D.cache then cache (.delTracking trackingId) else pure ()

def getTracking (id : String) : App TrackingDetails := do
  let escrow ← findById D id
  match truthy escrow.trackingId with
  | none => throw (.notFound "Tracking information not available")
  | some trackingId =>
    match ← cachedTracking D trackingId with
    | some details => pure details
    | none =>
      Prog.tryCatch
        (do
          let details ← ext (.getStatus trackingId)
          rememberTracking D trackingId details
          pure details)
        fun err =>
          throw (.notFound ("Unable to fetch tracking details: " ++
            err.message.getD "Unable to fetch tracking details"))

/-! ## Creation -/

def VENDOR_PROFILE_PLACEHOLDER_DESCRIPTION : String := "[placeholder]"

def ensureVendorProfile (vendorAddress : String) : App Unit :=
  if D.prisma then
    db (.vendorProfileUpsert
      { address := vendorAddress
        businessName := vendorAddress
        description := some VENDOR_PROFILE_PLACEHOLDER_DESCRIPTION })
  else pure ()

def createEscrow (dto : CreateEscrowDto) (vendorAddress : String) : App EscrowRecord := do
  if dto.amount.units ≤ 0 then throw (.badRequest "Amount must be positive")
  else if dto.buyerAddress = vendorAddress then
    throw (.badRequest "buyerAddress must be different from the vendor address")
  else
    match ← EscrowRepository.findByVendorAndItem vendorAddress dto.itemRef with
    | some _ => throw (.conflict "Duplicate escrow for this item reference")
    | none =>
      ensureVendorProfile D vendorAddress
      EscrowRepository.create dto vendorAddress

/-! ## Idempotent creation

The request hash is taken of the stable serialisation of the body (`Model/RequestBody.lean`). -/

/-- The hash of a request body, as the object it is. -/
def hashBody (body : JsonValue Decimal) : String :=
  D.sha256 (stableStringify D.numberToString body)

def hashRequestBody (dto : CreateEscrowDto) : String := hashBody D dto.toJson

def idempotencyCacheKey (idempotencyKey vendorAddress : String) : String :=
  s!"idempotency:{vendorAddress}:{idempotencyKey}"

def cachedResult (cacheKey : String) : App (Option IdempotencyCacheEntry) :=
  if D.cache then cache (.getIdempotency cacheKey) else pure none

def rememberResult (cacheKey : String) (entry : IdempotencyCacheEntry) : App Unit :=
  if D.cache then cache (.setIdempotency cacheKey entry) else pure ()

/-- `createIdempotentInternal` for a body that holds the fields of `dto`, in whatever order it has
its keys. -/
def createIdempotentOf (body : JsonValue Decimal) (idempotencyKey : String) (dto : CreateEscrowDto)
    (vendorAddress : String) : App EscrowRecord := do
  let cacheKey := idempotencyCacheKey idempotencyKey vendorAddress
  let requestHash := hashBody D body
  match ← cachedResult D cacheKey with
  | some cached =>
    if cached.requestHash ≠ requestHash then
      throw (.unprocessableEntity
        "Idempotency-Key has already been used with a different request body")
    else pure cached.result
  | none =>
    let result ← createEscrow D dto vendorAddress
    rememberResult D cacheKey { requestHash := requestHash, result := result }
    pure result

def createIdempotent (idempotencyKey : String) (dto : CreateEscrowDto) (vendorAddress : String) :
    App EscrowRecord :=
  createIdempotentOf D dto.toJson idempotencyKey dto vendorAddress

/-! ## Cancellation -/

/-- The participant check of the two cancellations. -/
def mayCancel (escrow : EscrowRecord) (callerAddress : String) (isAdmin : Bool) : Bool :=
  isAdmin || escrow.vendorAddress = callerAddress || escrow.buyerAddress = callerAddress

def cancelEscrow (escrowId callerAddress : String) (isAdmin : Bool) : App EscrowRecord := do
  let escrow ← findById D escrowId
  if mayCancel escrow callerAddress isAdmin = false then
    throw (.forbidden "Only the vendor, buyer, or admin can cancel this escrow")
  else if escrow.state ≠ .FUNDED then
    throw (.conflict (s!"Cannot cancel escrow in {escrow.state.name} state. " ++
      "Only FUNDED escrows can be cancelled."))
  else EscrowRepository.markCancelled D escrowId

/-- The on-chain half of a pending cancellation: refund a funded contract, refuse any state but
`CREATED`, and do nothing for an escrow the contract does not know. -/
def cancelOnChain (contractEscrowId : Nat) (callerAddress : String) : App Unit := do
  let chainState : ChainState ← ext (.getEscrowState contractEscrowId)
  if chainState.exists_ ∧ chainState.state = "FUNDED" then
    let _ ← ext (.cancelEscrowOnChain contractEscrowId callerAddress)
    pure ()
  else if chainState.exists_ ∧ chainState.state ≠ "CREATED" then
    throw (.conflict s!"On-chain escrow is in {chainState.state} state and cannot be cancelled.")
  else pure ()

def cancelPendingEscrow (escrowId callerAddress : String) (isAdmin : Bool) : App EscrowRecord := do
  let escrow ← findById D escrowId
  if mayCancel escrow callerAddress isAdmin = false then
    throw (.forbidden "Only the vendor, buyer, or admin can cancel this escrow")
  else if escrow.state ≠ .CREATED then
    throw (.conflict (s!"Cannot cancel escrow in {escrow.state.name} state. " ++
      "Only CREATED (pending) escrows can be cancelled."))
  else
    match escrow.contractEscrowId with
    | none => EscrowRepository.markCancelled D escrowId
    | some contractEscrowId =>
      cancelOnChain contractEscrowId callerAddress
      EscrowRepository.markCancelled D escrowId

/-! ## Shipment and buyer contact -/

def handleShipment (escrowId vendorAddress trackingId : String) (isAdmin : Bool) :
    App EscrowRecord := do
  if trim trackingId = "" then
    throw (.badRequest "Tracking ID is required and cannot be empty")
  else if utf16Length (trim trackingId) < 3 then
    throw (.badRequest "Tracking ID must be at least 3 characters long")
  else
    let escrow ← findById D escrowId
    if isAdmin = false ∧ escrow.vendorAddress ≠ vendorAddress then
      throw (.forbidden "Only the escrow vendor or admin can ship this order")
    else if escrow.state ≠ .FUNDED then
      throw (.conflict (s!"Cannot ship escrow in {escrow.state.name} state. " ++
        "Escrow must be in FUNDED state."))
    else
      match truthy escrow.trackingId with
      | some shipped => throw (.conflict s!"Escrow already shipped with tracking ID: {shipped}")
      | none =>
        let shipped ← EscrowRepository.markShipped D escrow.id (trim trackingId)
        forgetTracking D (trim trackingId)
        notify .notifyShipped shipped
        pure shipped

/-- `value ? encryptContact(value) : null` -/
def encrypted (value : Option String) : App (Option String) :=
  match truthy value with
  | none => pure none
  | some plaintext => do
    let ciphertext ← ext (.encryptContact plaintext)
    pure (some ciphertext)

def updateBuyerContact (escrowId : String) (dto : UpdateBuyerContactDto) : App String := do
  let escrow ← findById D escrowId
  if escrow.state ∈ TERMINAL_STATES then
    throw (.conflict
      s!"Cannot update buyer contact for an escrow in {escrow.state.name} state.")
  else if D.isContactEncryptionConfigured = false then
    throw (.serviceUnavailable "Buyer contact encryption is not configured.")
  else
    let encryptedEmail ← encrypted dto.email
    let encryptedPhone ← encrypted dto.phone
    let _ ← EscrowRepository.saveBuyerContact D escrowId encryptedEmail encryptedPhone
    pure "Buyer contact information saved."

/-! ## Chain events -/

def skip (reason : String) : App SyncResult := pure { skipped := true, reason := some reason }

/-- Write the new state, send what is to be sent about the record, report the change. -/
def applied (write : App EscrowRecord) (n : Option Notification) : App SyncResult := do
  let escrow ← write
  match n with
  | some n => notify n escrow
  | none => pure ()
  pure { skipped := false }

/-- The branches whose only guard is that the escrow is not terminal. -/
def closing (escrow : EscrowRecord) (reason : String) (write : App EscrowRecord)
    (n : Option Notification) : App SyncResult :=
  if escrow.state ∈ TERMINAL_STATES then skip reason else applied write n

/-- Insert the dispute row, when Prisma is wired in. -/
def recordDispute (event : SorobanChainEvent) : App Unit :=
  if D.prisma then do
    let id ← randomUUID
    let _ ← db (.disputeCreate
      { id := some id
        escrowId := event.escrowId
        reason := event.reason.getD "on-chain dispute"
        description := ""
        evidenceUrls := [] })
    pure ()
  else pure ()

def onDisputeRaised (event : SorobanChainEvent) (escrow : EscrowRecord) : App SyncResult :=
  if escrow.state = .DISPUTED then skip "already_disputed"
  else if escrow.state ∈ TERMINAL_STATES then skip "terminal_state"
  else do
    recordDispute D event
    applied (EscrowRepository.updateState D event.escrowId .DISPUTED) (some .notifyDisputed)

/-- Settle the dispute row, if any; `false` when it was settled before. -/
def settleDispute (escrowId : String) : App Bool :=
  if D.prisma then do
    match (← db (.disputeFindFirst escrowId none) : Option Dispute) with
    | none => pure true
    | some dispute =>
      if dispute.status = .RESOLVED then pure false
      else
        let _ ← DisputeRepository.resolve dispute.id
        pure true
  else pure true

def onDisputeResolved (event : SorobanChainEvent) (escrow : EscrowRecord) : App SyncResult :=
  if escrow.state ∈ TERMINAL_STATES then skip "terminal_state"
  else do
    if ← settleDispute D event.escrowId then
      if event.resolution = some .REFUND then
        applied (EscrowRepository.markRefunded D event.escrowId) (some .notifyRefunded)
      else applied (EscrowRepository.markCompleted D event.escrowId) (some .notifyCompleted)
    else skip "dispute_already_resolved"

/-- The `switch` of `syncStateFromChain`, on the escrow as it was read. -/
def applyEvent (event : SorobanChainEvent) (escrow : EscrowRecord) : App SyncResult :=
  let escrowId := event.escrowId
  match event.eventType with
  | .EscrowFunded =>
    if escrow.state ≠ .CREATED then skip "already_funded_or_terminal"
    else applied (EscrowRepository.updateState D escrowId .FUNDED) (some .notifyFunded)
  | .EscrowShipped =>
    if escrow.state ≠ .CREATED ∧ escrow.state ≠ .FUNDED then skip "already_shipped_or_terminal"
    else
      applied
        (EscrowRepository.markShipped D escrowId
          ((event.trackingId.orElse fun _ => escrow.trackingId).getD ""))
        (some .notifyShipped)
  | .EscrowCompleted =>
    closing escrow "already_completed_or_terminal" (EscrowRepository.markCompleted D escrowId)
      (some .notifyCompleted)
  | .EscrowCancelled | .EscrowCanceled | .EscrowAutoCancelled =>
    closing escrow "already_cancelled_or_terminal" (EscrowRepository.markCancelled D escrowId) none
  | .DisputeRaised => onDisputeRaised D event escrow
  | .DisputeResolved => onDisputeResolved D event escrow
  | .AutoReleased =>
    if escrow.state = .RELEASED then skip "already_released"
    else
      closing escrow "terminal_state"
        (EscrowRepository.markAutoReleased D escrowId
          (((truthy event.txHash).orElse fun _ => truthy escrow.autoReleaseTxHash).getD ""))
        (some .notifyCompleted)
  | .EscrowExpired | .RefundApproved =>
    closing escrow "already_refunded_or_terminal" (EscrowRepository.markRefunded D escrowId)
      (some .notifyRefunded)
  | .other _ => skip "unknown_event_type"

def syncStateFromChain (event : SorobanChainEvent) : App SyncResult := do
  match ← EscrowRepository.findById D event.escrowId with
  | none => skip "escrow_not_found"
  | some escrow => applyEvent D event escrow

end EscrowService

end TrustLink
