import TrustLink.Model.Repositories

/-!
# TrustLink — the background workers

`TrackingPollWorker.processShipment` and `AutoReleaseWorker`. Both claim an escrow in the
database before they call the contract, and give the claim up when the call fails. They start
from a record that was read earlier, so what they hold may be stale.
-/

namespace TrustLink

open Effects

variable (D : Deployment)

namespace TrackingPollWorker

def requireAdminAddress : App String :=
  match truthy D.ADMIN_ADDRESS with
  | none =>
    throw (.error "ADMIN_ADDRESS is not configured; refusing to record delivery on-chain.")
  | some address => pure address

/-- `notifyDelivered`, when the service is wired in; its failures are logged. -/
def notifyDelivered (escrow : EscrowRecord) : App Unit :=
  if D.deliveryNotifications then notify .notifyDelivered escrow else pure ()

/-- Record a delivery whose claim has been won. -/
def recordClaimed (escrow : EscrowRecord) (contractEscrowId : Nat) : App Unit := do
  let admin ← requireAdminAddress D
  let _ ← ext (.recordDelivery contractEscrowId admin)
  let now ← newDate
  let updated ← EscrowRepository.markDelivered D escrow.id now
  notifyDelivered D updated

def deliver (escrow : EscrowRecord) : App Unit :=
  match truthy escrow.trackingId, escrow.contractEscrowId with
  | some trackingId, some contractEscrowId => do
    let status : TrackingDetails ← ext (.getStatus trackingId)
    if status.status ≠ .DELIVERED then pure ()
    else
      match ← EscrowRepository.claimDelivery D escrow.id with
      | none => pure ()
      | some _ =>
        Prog.tryCatch (recordClaimed D escrow contractEscrowId) fun err => do
          let _ ← EscrowRepository.clearDeliveryClaim D escrow.id
          throw err
  | _, _ => pure ()

def processShipment (escrow : EscrowRecord) : App Unit :=
  Prog.tryFinally (deliver D escrow) (EscrowRepository.markTrackingChecked D escrow.id).void

end TrackingPollWorker

namespace AutoReleaseWorker

def requireAutoReleaseSource : App String :=
  match truthy D.AUTO_RELEASE_SOURCE_ADDRESS with
  | none =>
    throw (.error
      "AUTO_RELEASE_SOURCE_ADDRESS is not configured, so auto-release is unavailable.")
  | some address => pure address

/-- Submit the release of an escrow whose claim has been won, and record the hash. -/
def submitClaimed (escrow : EscrowRecord) (contractEscrowId : Nat) : App Bool := do
  let source ← requireAutoReleaseSource D
  let txHash ← ext (.submitAutoRelease contractEscrowId source)
  let _ ← EscrowRepository.recordAutoReleaseSubmission D escrow.id txHash
  pure true

def processEscrow (escrow : EscrowRecord) : App Bool := do
  match ← DisputeRepository.findByEscrow escrow.id with
  | some _ => pure false
  | none =>
    if escrow.state ∈ TERMINAL_STATES ∨ (truthy escrow.autoReleaseTxHash).isSome then pure false
    else
      match escrow.contractEscrowId with
      | none => pure false
      | some contractEscrowId =>
        match ← EscrowRepository.markAutoReleaseSubmitting D escrow.id with
        | none => pure false
        | some _ =>
          Prog.tryCatch (submitClaimed D escrow contractEscrowId) fun err => do
            let _ ← EscrowRepository.clearAutoReleaseSubmitting D escrow.id
            throw err

/-- One cycle: a failure of one escrow is logged and the others go on. -/
def runCycle (referenceTime : Time) : App Unit :=
  Prog.tryCatch
    (do
      let eligible ← EscrowRepository.findAutoReleaseEligible referenceTime
      forM eligible fun escrow => Prog.tryCatch (processEscrow D escrow).void fun _ => pure ())
    fun _ => pure ()

/-- A lamp delivered at time zero and known to the contract. -/
def dueLamp : EscrowRow :=
  { Db.lampEscrow .DELIVERED with deliveredAt := some 0, contractEscrowId := some 7 }

/-- The first reference time at which it is due. -/
def dueTime : Time :=
  EscrowRepository.AUTO_RELEASE_WINDOW_HOURS * EscrowRepository.MILLISECONDS_PER_HOUR

end AutoReleaseWorker

end TrustLink
