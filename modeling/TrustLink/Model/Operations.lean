import TrustLink.Model.EscrowService
import TrustLink.Model.Disputes
import TrustLink.Model.Webhook
import TrustLink.Model.Workers

/-!
# TrustLink — the operations of the backend

What a process can be asked to do, each as a program. `Op` is the alphabet of every run the
development talks about, sequential or interleaved.
-/

namespace TrustLink

open Effects

inductive Op where
  | createEscrow (dto : CreateEscrowDto) (vendorAddress : String)
  | createIdempotent (idempotencyKey : String) (dto : CreateEscrowDto) (vendorAddress : String)
  | findById (id : String)
  | getTracking (id : String)
  | cancelEscrow (escrowId callerAddress : String) (isAdmin : Bool)
  | cancelPendingEscrow (escrowId callerAddress : String) (isAdmin : Bool)
  | handleShipment (escrowId vendorAddress trackingId : String) (isAdmin : Bool)
  | updateBuyerContact (escrowId : String) (dto : UpdateBuyerContactDto)
  | syncStateFromChain (event : SorobanChainEvent)
  | openDispute (escrowId callerAddress : String) (dto : OpenDisputeDto)
  | getDispute (escrowId callerAddress : String)
  | resolve (escrowId : String) (resolution : Resolution)
  | handleEvent (rawBody : String) (signature : Option String) (dto : StellarWebhookDto)
  | processOperationDto (dto : StellarWebhookDto)
  | handlePayment (dto : StellarWebhookDto)
  | processShipment (snapshot : EscrowRecord)
  | processEscrow (snapshot : EscrowRecord)
  | autoReleaseCycle (referenceTime : Time)
  deriving DecidableEq

def Op.prog (D : Deployment) : Op → App Unit
  | .createEscrow dto vendorAddress => (EscrowService.createEscrow D dto vendorAddress).void
  | .createIdempotent idempotencyKey dto vendorAddress =>
    (EscrowService.createIdempotent D idempotencyKey dto vendorAddress).void
  | .findById id => (EscrowRepository.findById D id).void
  | .getTracking id => (EscrowService.getTracking D id).void
  | .cancelEscrow id caller isAdmin => (EscrowService.cancelEscrow D id caller isAdmin).void
  | .cancelPendingEscrow id caller isAdmin =>
    (EscrowService.cancelPendingEscrow D id caller isAdmin).void
  | .handleShipment id vendorAddress trackingId isAdmin =>
    (EscrowService.handleShipment D id vendorAddress trackingId isAdmin).void
  | .updateBuyerContact id dto => (EscrowService.updateBuyerContact D id dto).void
  | .syncStateFromChain event => (EscrowService.syncStateFromChain D event).void
  | .openDispute id caller dto => (BuyerDisputeService.openDispute D id caller dto).void
  | .getDispute id caller => (BuyerDisputeService.getDispute D id caller).void
  | .resolve id resolution => (DisputeService.resolve D id resolution).void
  | .handleEvent rawBody signature dto =>
    (StellarWebhookService.handleEvent D rawBody signature dto).void
  | .processOperationDto dto => (StellarWebhookService.processOperationDto D dto).void
  | .handlePayment dto => StellarWebhookService.handlePayment D dto
  | .processShipment snapshot => TrackingPollWorker.processShipment D snapshot
  | .processEscrow snapshot => (AutoReleaseWorker.processEscrow D snapshot).void
  | .autoReleaseCycle referenceTime => AutoReleaseWorker.runCycle D referenceTime

/-- A sequential run: each operation is executed alone, under its own environment. -/
def runOps (D : Deployment) (w : World) (ops : List (Op × (Nat → Choice))) : World :=
  ops.foldl (fun w o => ((o.1.prog D).exec world o.2 w).2) w

/-- Any number of operations at once, interleaved call by call. -/
abbrev Backend := Pool world Op

/-- An interleaved run from a world in which nothing is running yet. -/
abbrev interleave (D : Deployment) (w : World) (ms : List (Move world Op)) : Backend :=
  Pool.run (Op.prog D) ⟨w, []⟩ ms

/-- The moves of such a run all meet `K` when they are made. -/
abbrev AlwaysMeets (D : Deployment) (K : Backend → Move world Op → Prop) (w : World)
    (ms : List (Move world Op)) : Prop :=
  Pool.Admissible (Op.prog D) K ⟨w, []⟩ ms

end TrustLink
