import TrustLink.Numeric.JsNumber

/-!
# TrustLink — the data model

Rows and records of `prisma/schema.prisma` and `src/prisma/prisma.service.ts`, the requests
the services take, and the errors they reject with. A column no modelled function reads or
writes is left out.

Two choices are made here once. A timestamp is an integer of milliseconds. An escrow's
`amount` is the only column whose row and record types differ (`Decimal(18, 8)` against
`number`), so `EscrowFields` carries all the others and `EscrowRow` / `EscrowRecord` extend it.
-/

namespace TrustLink

open JsNumber

/-- Milliseconds since the epoch. -/
abbrev Time := Int

inductive EscrowState where
  | CREATED | FUNDED | SHIPPED | DELIVERED | COMPLETED | RELEASED | DISPUTED | REFUNDED | CANCELLED
  deriving DecidableEq, Repr

/-- The name of the state, as error texts show it. -/
def EscrowState.name : EscrowState → String
  | .CREATED => "CREATED"
  | .FUNDED => "FUNDED"
  | .SHIPPED => "SHIPPED"
  | .DELIVERED => "DELIVERED"
  | .COMPLETED => "COMPLETED"
  | .RELEASED => "RELEASED"
  | .DISPUTED => "DISPUTED"
  | .REFUNDED => "REFUNDED"
  | .CANCELLED => "CANCELLED"

/-- `TERMINAL_STATES` of `escrow.service.ts` and of `auto-release.worker.ts`. -/
def TERMINAL_STATES : List EscrowState := [.COMPLETED, .RELEASED, .REFUNDED, .CANCELLED]

/-- `DISPUTABLE_STATES` of `buyer-dispute.service.ts`. -/
def DISPUTABLE_STATES : List EscrowState := [.FUNDED, .SHIPPED, .DELIVERED]

inductive DisputeStatus where
  | OPEN | UNDER_REVIEW | RESOLVED | CANCELLED | ABANDONED
  deriving DecidableEq, Repr

/-- A `Decimal(18, 8)` column: an integral number of units of `10⁻⁸`. -/
structure Decimal where
  units : Int
  deriving DecidableEq, Repr

def Decimal.toRat (d : Decimal) : ℚ := mkRat d.units (10 ^ 8)

/-! ## Escrows -/

structure EscrowFields where
  id : String
  contractEscrowId : Option Nat
  itemName : String
  itemRef : String
  currency : String
  buyerAddress : String
  vendorAddress : String
  state : EscrowState
  trackingId : Option String
  trackingCheckedAt : Option Time
  shippedAt : Option Time
  deliveredAt : Option Time
  deliveryRecordedAt : Option Time
  autoReleaseSubmittedAt : Option Time
  autoReleaseTxHash : Option String
  disputeId : Option String
  buyerContactEmail : Option String
  buyerContactPhone : Option String
  cancelledAt : Option Time
  createdAt : Time
  updatedAt : Time
  deriving DecidableEq, Repr

structure EscrowRow extends EscrowFields where
  amount : Decimal
  deriving DecidableEq, Repr

structure EscrowRecord extends EscrowFields where
  amount : Number
  deriving DecidableEq, Repr

/-- `toEscrowRecord`: the row with `amount` as a number. -/
def toEscrowRecord (row : EscrowRow) : EscrowRecord where
  toEscrowFields := row.toEscrowFields
  amount := ofRat row.amount.toRat

@[simp] theorem toEscrowRecord_fields (row : EscrowRow) :
    (toEscrowRecord row).toEscrowFields = row.toEscrowFields := rfl

/-- Cached outcome of an idempotent create. -/
structure IdempotencyCacheEntry where
  requestHash : String
  result : EscrowRecord
  deriving DecidableEq, Repr

/-- The `data` of `prisma.escrow.update`: the columns some mutator writes. `none` leaves the
column as it is. Identity, parties, item and amount are not among them. -/
structure EscrowData where
  state : Option EscrowState := none
  trackingId : Option (Option String) := none
  trackingCheckedAt : Option (Option Time) := none
  shippedAt : Option (Option Time) := none
  deliveredAt : Option (Option Time) := none
  deliveryRecordedAt : Option (Option Time) := none
  autoReleaseSubmittedAt : Option (Option Time) := none
  autoReleaseTxHash : Option (Option String) := none
  buyerContactEmail : Option (Option String) := none
  buyerContactPhone : Option (Option String) := none
  cancelledAt : Option (Option Time) := none
  deriving DecidableEq, Repr

/-- The row after an update; `updatedAt` is `@updatedAt`. -/
def EscrowRow.update (row : EscrowRow) (data : EscrowData) (now : Time) : EscrowRow :=
  { row with
    state := data.state.getD row.state
    trackingId := data.trackingId.getD row.trackingId
    trackingCheckedAt := data.trackingCheckedAt.getD row.trackingCheckedAt
    shippedAt := data.shippedAt.getD row.shippedAt
    deliveredAt := data.deliveredAt.getD row.deliveredAt
    deliveryRecordedAt := data.deliveryRecordedAt.getD row.deliveryRecordedAt
    autoReleaseSubmittedAt := data.autoReleaseSubmittedAt.getD row.autoReleaseSubmittedAt
    autoReleaseTxHash := data.autoReleaseTxHash.getD row.autoReleaseTxHash
    buyerContactEmail := data.buyerContactEmail.getD row.buyerContactEmail
    buyerContactPhone := data.buyerContactPhone.getD row.buyerContactPhone
    cancelledAt := data.cancelledAt.getD row.cancelledAt
    updatedAt := now }

section update

variable (row : EscrowRow) (data : EscrowData) (now : Time)

@[simp] theorem EscrowRow.update_id : (row.update data now).id = row.id := rfl

@[simp] theorem EscrowRow.update_state :
    (row.update data now).state = data.state.getD row.state := rfl

@[simp] theorem EscrowRow.update_autoReleaseSubmittedAt :
    (row.update data now).autoReleaseSubmittedAt
      = data.autoReleaseSubmittedAt.getD row.autoReleaseSubmittedAt := rfl

@[simp] theorem EscrowRow.update_deliveredAt :
    (row.update data now).deliveredAt = data.deliveredAt.getD row.deliveredAt := rfl

@[simp] theorem EscrowRow.update_deliveryRecordedAt :
    (row.update data now).deliveryRecordedAt
      = data.deliveryRecordedAt.getD row.deliveryRecordedAt := rfl

end update

structure Dispute where
  id : String
  escrowId : String
  reason : String
  description : String
  evidenceUrls : List String
  status : DisputeStatus
  resolvedAt : Option Time
  createdAt : Time
  updatedAt : Time
  deriving DecidableEq, Repr

structure VendorProfile where
  address : String
  businessName : String
  description : Option String
  deriving DecidableEq, Repr

/-! ## Requests -/

structure CreateEscrowDto where
  itemName : String
  itemRef : String
  amount : Decimal
  currency : String
  buyerAddress : String
  deriving DecidableEq, Repr

structure OpenDisputeDto where
  reason : String
  description : String
  evidenceUrls : Option (List String)
  deriving DecidableEq, Repr

structure UpdateBuyerContactDto where
  email : Option String
  phone : Option String
  deriving DecidableEq, Repr

/-- `StellarWebhookDto`, with `type` as `kind`. -/
structure StellarWebhookDto where
  kind : String
  id : String
  transaction_hash : String
  to_ : Option String
  amount : Option String
  asset_code : Option String
  deriving DecidableEq, Repr

inductive Resolution where
  | RELEASE | REFUND
  deriving DecidableEq, Repr

/-- The event names `syncStateFromChain` switches on; any other name falls to its default. -/
inductive ChainEventType where
  | EscrowFunded | EscrowShipped | EscrowCompleted | EscrowCancelled | EscrowCanceled
  | DisputeRaised | DisputeResolved | AutoReleased | EscrowAutoCancelled | EscrowExpired
  | RefundApproved
  | other (name : String)
  deriving DecidableEq, Repr

structure SorobanChainEvent where
  eventType : ChainEventType
  escrowId : String
  trackingId : Option String := none
  txHash : Option String := none
  reason : Option String := none
  resolution : Option Resolution := none
  deriving DecidableEq, Repr

structure SyncResult where
  skipped : Bool
  reason : Option String := none
  deriving DecidableEq, Repr

/-- The methods of `NotificationsService` that the modelled code calls. -/
inductive Notification where
  | notifyFunded | notifyShipped | notifyDelivered | notifyDisputed | notifyDisputedAdmin
  | notifyCompleted | notifyRefunded
  deriving DecidableEq, Repr

inductive LogisticsStatus where
  | PENDING | IN_TRANSIT | DELIVERED
  deriving DecidableEq, Repr

structure TrackingEvent where
  timestamp : Time
  status : String
  location : Option String
  description : String
  deriving DecidableEq, Repr

structure TrackingDetails where
  status : LogisticsStatus
  estimatedDelivery : Option Time
  carrier : Option String
  events : List TrackingEvent
  deriving DecidableEq, Repr

/-- The answer of `ContractService.getEscrowState`. -/
structure ChainState where
  state : String
  exists_ : Bool
  deriving DecidableEq, Repr

inductive PrismaError where
  /-- P2002 -/
  | uniqueConstraint
  /-- P2003 -/
  | foreignKey
  /-- P2025 -/
  | recordNotFound
  | unavailable
  deriving DecidableEq, Repr

inductive Err where
  | badRequest (message : String)
  | unauthorized (message : String)
  | forbidden (message : String)
  | notFound (message : String)
  | conflict (message : String)
  | unprocessableEntity (message : String)
  | serviceUnavailable (message : String)
  | internalServerError (message : String)
  | prisma (e : PrismaError)
  | error (message : String)
  deriving DecidableEq, Repr

/-- `error.message`; the texts of database errors are Prisma's and are not modelled. -/
def Err.message : Err → Option String
  | .badRequest m | .unauthorized m | .forbidden m | .notFound m | .conflict m
  | .unprocessableEntity m | .serviceUnavailable m | .internalServerError m | .error m => some m
  | .prisma _ => none

end TrustLink
