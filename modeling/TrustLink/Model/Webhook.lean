import TrustLink.Model.Repositories

/-!
# TrustLink — `StellarWebhookService`

Payment operations arrive signed from Horizon (`handleEvent`) or unsigned from a trusted replay
(`processOperationDto`). Both mark the operation id before they process it and unmark it when
processing fails. `handlePayment` funds *every* pending escrow of the destination that the
payment matches; the match is on JavaScript numbers.
-/

namespace TrustLink

open Effects JsNumber

namespace StellarWebhookService

variable (D : Deployment)

/-- `WebhookResult`: what either entry point reports. -/
structure Receipt where
  skipped : Bool
  reason : Option String := none
  deriving DecidableEq, Repr

def verifySignature (rawBody : String) (signature : Option String) : App Unit :=
  match truthy D.STELLAR_WEBHOOK_SECRET with
  | none => throw (.internalServerError "Webhook secret not configured")
  | some secret =>
    match truthy signature with
    | none => throw (.unauthorized "Missing X-Stellar-Signature header")
    | some signature =>
      if D.signatureMatches secret rawBody signature then pure ()
      else throw (.unauthorized "Invalid webhook signature")

/-! ## Payments -/

/-- `Number(dto.amount)`, or `NaN` when the field is absent. -/
def receivedAmount (dto : StellarWebhookDto) : Number :=
  match dto.amount with
  | some text => ofString text
  | none => .nan

/-- The received amount is a number and is the expected one. -/
def amountMatches (dto : StellarWebhookDto) (escrow : EscrowRecord) : Bool :=
  strictEq (receivedAmount dto) escrow.amount

def receivedAsset (dto : StellarWebhookDto) : String :=
  D.toUpperCase (dto.asset_code.getD "XLM")

def assetMatches (dto : StellarWebhookDto) (escrow : EscrowRecord) : Bool :=
  receivedAsset D dto = D.toUpperCase escrow.currency

/-- One iteration of the loop: a mismatch is skipped. -/
def fund (dto : StellarWebhookDto) (escrow : EscrowRecord) : App PUnit :=
  if amountMatches dto escrow = false then pure ⟨⟩
  else if assetMatches D dto escrow = false then pure ⟨⟩
  else do
    let updatedEscrow ← EscrowRepository.updateState D escrow.id .FUNDED
    notify .notifyFunded updatedEscrow

def handlePayment (dto : StellarWebhookDto) : App Unit :=
  match truthy dto.to_ with
  | none => throw (.badRequest "Payment event missing destination address")
  | some destination => do
    let escrows ← EscrowRepository.findByVendor destination
    let pending := escrows.filter (·.state = .CREATED)
    forM pending (fund D dto)

def processEvent (dto : StellarWebhookDto) : App Unit :=
  if dto.kind = "payment" then handlePayment D dto else pure ()

/-- Process an operation that has just been marked; a failure unmarks it. -/
def processMarked (dto : StellarWebhookDto) : App Unit :=
  Prog.tryCatch (processEvent D dto) fun err => do
    StellarWebhookRepository.unmarkProcessed dto.id
    throw err

/-- What the two entry points share: mark, then process, unless the operation was marked before
(`true`). -/
def processOnce (dto : StellarWebhookDto) : App Bool := do
  if ← StellarWebhookRepository.isProcessed dto.id then pure true
  else
    StellarWebhookRepository.markProcessed dto.id
    processMarked D dto
    pure false

def handleEvent (rawBody : String) (signature : Option String) (dto : StellarWebhookDto) :
    App Receipt := do
  verifySignature D rawBody signature
  let duplicate ← processOnce D dto
  pure { skipped := duplicate, reason := if duplicate then some "duplicate" else none }

def processOperationDto (dto : StellarWebhookDto) : App Receipt := do
  let duplicate ← processOnce D dto
  pure { skipped := duplicate }

end StellarWebhookService

end TrustLink
