import TrustLink.Model.Repositories

/-!
# TrustLink — the dispute services

`BuyerDisputeService` (a participant opens or reads a dispute) and `DisputeService` (an admin
resolves one). Both write two tables in two separate calls.
-/

namespace TrustLink

open Effects

variable (D : Deployment)

namespace BuyerDisputeService

/-- The caller is the configured admin, the buyer or the vendor. -/
def isInvolved (escrow : EscrowRecord) (callerAddress : String) : Bool :=
  D.ADMIN_ADDRESS = some callerAddress || escrow.buyerAddress = callerAddress ||
    escrow.vendorAddress = callerAddress

/-- The escrow, if it exists and the caller is involved in it. -/
def authorise (escrowId callerAddress : String) : App EscrowRecord := do
  match ← EscrowRepository.findById D escrowId with
  | none => throw (.notFound s!"Escrow {escrowId} not found")
  | some escrow =>
    if isInvolved D escrow callerAddress = false then
      throw (.forbidden "You are not involved in this escrow")
    else pure escrow

def openDispute (escrowId callerAddress : String) (dto : OpenDisputeDto) : App Dispute := do
  let escrow ← authorise D escrowId callerAddress
  if escrow.state = .DISPUTED then
    throw (.conflict "A dispute is already open for this escrow")
  else if escrow.state ∉ DISPUTABLE_STATES then
    throw (.conflict s!"Cannot open a dispute on an escrow in {escrow.state.name} state")
  else
    let dispute ← DisputeRepository.create
      { id := none
        escrowId := escrowId
        reason := dto.reason
        description := dto.description
        evidenceUrls := dto.evidenceUrls.getD [] }
    let disputedEscrow ← EscrowRepository.updateState D escrowId .DISPUTED
    notify .notifyDisputed disputedEscrow
    notify .notifyDisputedAdmin disputedEscrow
    pure dispute

def getDispute (escrowId callerAddress : String) : App Dispute := do
  let _ ← authorise D escrowId callerAddress
  match ← DisputeRepository.findByEscrow escrowId with
  | none => throw (.notFound s!"No dispute found for escrow {escrowId}")
  | some dispute => pure dispute

end BuyerDisputeService

namespace DisputeService

def requireAdminAddress : App String :=
  match truthy D.ADMIN_ADDRESS with
  | none => throw (.conflict "ADMIN_ADDRESS is not configured; cannot resolve disputes on-chain.")
  | some address => pure address

/-- Settle the open dispute row, if there is one. -/
def settleOpen (escrowId : String) : App Unit := do
  match ← DisputeRepository.findFirst escrowId [.OPEN, .UNDER_REVIEW] with
  | none => pure ()
  | some dispute =>
    let _ ← DisputeRepository.resolve dispute.id
    pure ()

def resolve (escrowId : String) (resolution : Resolution) : App EscrowRecord := do
  match ← EscrowRepository.findById D escrowId with
  | none => throw (.notFound "Escrow not found")
  | some escrow =>
    if escrow.state = .COMPLETED ∨ escrow.state = .REFUNDED then
      throw (.conflict "Dispute has already been resolved")
    else if escrow.state ≠ .DISPUTED then
      throw (.conflict "Escrow is not currently disputed")
    else
      match escrow.contractEscrowId with
      | none =>
        throw (.conflict
          "Escrow has no contractEscrowId, so the dispute cannot be resolved on-chain.")
      | some contractEscrowId =>
        let admin ← requireAdminAddress D
        let _ ← ext (.resolveDispute contractEscrowId resolution admin)
        settleOpen escrowId
        match resolution with
        | .RELEASE =>
          let result ← EscrowRepository.markCompleted D escrowId
          notify .notifyCompleted result
          pure result
        | .REFUND =>
          let result ← EscrowRepository.markRefunded D escrowId
          notify .notifyRefunded result
          pure result

end DisputeService

end TrustLink
