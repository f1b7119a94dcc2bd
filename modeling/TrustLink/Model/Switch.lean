import TrustLink.Lifecycle.Abstract
import TrustLink.Model.Writes

/-!
# TrustLink — the switch on chain events

`applyEvent` looks at the type of the event and at the state that was read. What it does then is one
of five things (`Applies`): the event comes too late or is unknown, the state is written and
announced, or a dispute is raised or resolved. Whatever is said about the switch goes through them.
-/

namespace TrustLink

open Effects EscrowService

variable {D : Deployment}

/-- A mutator that sets the state, dated or not. -/
inductive Mutates (D : Deployment) (id : String) (after : EscrowState) : App EscrowRecord → Prop
  | plain {data : EscrowData} (hdata : data.Written) (h : data.state = some after) :
      Mutates D id after (EscrowRepository.update D id data)
  | dated {data : Time → EscrowData} (hdata : ∀ now, (data now).Written)
      (h : ∀ now, (data now).state = some after) :
      Mutates D id after (newDate >>= fun now => EscrowRepository.update D id (data now))

/-- The state an event asks for that is not about a dispute. -/
def ChainEventType.goal : ChainEventType → Option EscrowState
  | .EscrowFunded => some .FUNDED
  | .EscrowShipped => some .SHIPPED
  | .EscrowCompleted => some .COMPLETED
  | .EscrowCancelled | .EscrowCanceled | .EscrowAutoCancelled => some .CANCELLED
  | .AutoReleased => some .RELEASED
  | .EscrowExpired | .RefundApproved => some .REFUNDED
  | .DisputeRaised | .DisputeResolved | .other _ => none

/-- What the switch can do about an event, for an escrow in this state. -/
inductive Applies (D : Deployment) (event : SorobanChainEvent) (escrow : EscrowRecord) :
    App SyncResult → Prop
  | late {after : EscrowState} {reason : String} (hgoal : event.eventType.goal = some after)
      (hlate : after.rank ≤ escrow.state.rank) : Applies D event escrow (skip reason)
  | unknown {name reason : String} (h : event.eventType = .other name) :
      Applies D event escrow (skip reason)
  | written {after : EscrowState} {write : App EscrowRecord} {n : Option Notification}
      (hgoal : event.eventType.goal = some after) (ht : Transition escrow.state after)
      (hwrite : Mutates D event.escrowId after write) (hnotes : n.toList ∈ announcements after) :
      Applies D event escrow (applied write n)
  | raised (h : event.eventType = .DisputeRaised) :
      Applies D event escrow (onDisputeRaised D event escrow)
  | resolved (h : event.eventType = .DisputeResolved) :
      Applies D event escrow (onDisputeResolved D event escrow)

section switch

variable {event : SorobanChainEvent} {escrow : EscrowRecord} {after : EscrowState}
  {n : Option Notification} {write : App EscrowRecord}

/-- A branch guarded by `TERMINAL_STATES`. -/
theorem applies_closing (hgoal : event.eventType.goal = some after)
    (hwrite : Mutates D event.escrowId after write) (hafter : after ∈ TERMINAL_STATES)
    (hnotes : n.toList ∈ announcements after) (reason : String) :
    Applies D event escrow (closing escrow reason write n) := by
  unfold closing
  split
  · next hterminal =>
    refine .late hgoal ?_
    rw [(EscrowState.mem_terminal_iff after).mp hafter,
      (EscrowState.mem_terminal_iff escrow.state).mp hterminal]
  · next hopen => exact .written hgoal (.close hopen hafter) hwrite hnotes

/-- The `switch`, branch by branch. -/
theorem applies_applyEvent (event : SorobanChainEvent) (escrow : EscrowRecord) :
    Applies D event escrow (applyEvent D event escrow) := by
  unfold applyEvent
  cases hevent : event.eventType with
  | EscrowFunded =>
    have hgoal : event.eventType.goal = some .FUNDED := by rw [hevent]; rfl
    dsimp only
    split
    · next hlate =>
      refine .late hgoal ?_
      cases hs : escrow.state <;> first | exact absurd hs hlate | decide
    · next hcreated =>
      have ht : Transition escrow.state .FUNDED := by rw [Decidable.not_not.mp hcreated]; exact .fund
      exact .written hgoal ht (.plain (.state _ (by decide)) rfl) (by decide)
  | EscrowShipped =>
    have hgoal : event.eventType.goal = some .SHIPPED := by rw [hevent]; rfl
    dsimp only
    split
    · next hlate =>
      refine .late hgoal ?_
      cases hs : escrow.state <;>
        first | exact absurd hs hlate.1 | exact absurd hs hlate.2 | decide
    · next hearly =>
      have hstate : escrow.state = .CREATED ∨ escrow.state = .FUNDED := by
        by_contra hlate
        exact hearly (not_or.mp hlate)
      exact .written hgoal (.ship hstate) (.dated (.shipped _) fun _ => rfl) (by decide)
  | EscrowCompleted =>
    exact applies_closing (by rw [hevent]; rfl) (.plain (.state _ (by decide)) rfl) (by decide)
      (by decide) _
  | EscrowCancelled | EscrowCanceled | EscrowAutoCancelled =>
    exact applies_closing (by rw [hevent]; rfl) (.dated .cancelled fun _ => rfl) (by decide)
      (by decide) _
  | DisputeRaised => exact .raised hevent
  | DisputeResolved => exact .resolved hevent
  -- closes as well, after a test for its own state
  | AutoReleased =>
    have hgoal : event.eventType.goal = some .RELEASED := by rw [hevent]; rfl
    dsimp only
    split
    · next hreleased => exact .late hgoal (by rw [hreleased])
    · exact applies_closing hgoal (.plain (.released _) rfl) (by decide) (by decide) _
  | EscrowExpired | RefundApproved =>
    exact applies_closing (by rw [hevent]; rfl) (.plain (.state _ (by decide)) rfl) (by decide)
      (by decide) _
  | other name => exact .unknown hevent

end switch

end TrustLink
