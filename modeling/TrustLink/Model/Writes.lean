import TrustLink.Model.Frame
import TrustLink.Model.Operations

/-!
# TrustLink — what the operations write

Which columns of an escrow row an operation can set, and together with which others. Every update
goes through a mutator of `EscrowRepository`, so there are few shapes (`EscrowData.Written`); the
buyer's contact and the time of the last tracking check are each written by one operation only.
That no operation makes any other update is `only_op` (`Model/Grounds.lean`); what is known of the
shapes is then known of every run.
-/

namespace TrustLink

open Effects

/-- An update of an escrow row, but for the two that belong to one operation. -/
inductive EscrowData.Written : EscrowData → Prop
  /-- A state that nothing goes with. -/
  | state (state : EscrowState)
      (h : state ∉ [EscrowState.SHIPPED, .DELIVERED, .CANCELLED, .RELEASED]) :
      Written { state := some state }
  | shipped (trackingId : String) (now : Time) :
      Written
        { state := some .SHIPPED
          trackingId := some (some trackingId)
          shippedAt := some (some now) }
  | delivered (deliveredAt : Time) :
      Written
        { state := some .DELIVERED
          deliveredAt := some (some deliveredAt)
          deliveryRecordedAt := some (some deliveredAt) }
  | cancelled (now : Time) : Written { state := some .CANCELLED, cancelledAt := some (some now) }
  | released (txHash : String) :
      Written { state := some .RELEASED, autoReleaseTxHash := some (some txHash) }
  /-- The hash of a release that the chain has not reported yet. -/
  | submitted (submittedAt : Time) (txHash : String) :
      Written
        { autoReleaseSubmittedAt := some (some submittedAt)
          autoReleaseTxHash := some (some txHash) }
  | unsubmitted : Written { autoReleaseSubmittedAt := some none }
  /-- The delivery is claimed, or its claim is given up. -/
  | claim (deliveryRecordedAt : Option Time) :
      Written { deliveryRecordedAt := some deliveryRecordedAt }

def Call.Written : Call → Prop
  | .db (.escrowUpdate _ data) => data.Written
  | _ => True

/-- The calls an operation may make. -/
def Op.Makes (op : Op) : Call → Prop
  | .db (.escrowUpdate id data) =>
    data.Written ∨
    (∃ dto email phone, op = .updateBuyerContact id dto ∧
      data = { buyerContactEmail := some email, buyerContactPhone := some phone }) ∨
    (∃ snapshot checkedAt, op = .processShipment snapshot ∧ id = snapshot.id ∧
      data = { trackingCheckedAt := some (some checkedAt) })
  | _ => True

theorem Writes.only_service_findById {D : Deployment} {id : String} :
    (EscrowService.findById D id).Only Call.Written :=
  EscrowService.only_findById trivial trivial fun _ => trivial

end TrustLink
