import TrustLink.Model.World

/-!
# TrustLink — the repositories

`EscrowRepository`, `DisputeRepository` and `StellarWebhookRepository`. Every mutator of
`EscrowRepository` but the two claims is one `update` by id followed by the eviction of the
cached record; they differ only in the columns they write.
-/

namespace TrustLink

open Effects

/-- The value unless it is missing or empty: the truthiness of an optional string. -/
def truthy : Option String → Option String
  | some s => if s = "" then none else some s
  | none => none

theorem truthy_eq_some {value : Option String} {s : String} (h : truthy value = some s) :
    value = some s := by
  cases value with
  | none => cases h
  | some t =>
    simp only [truthy] at h
    split at h
    · cases h
    · exact h

namespace EscrowRepository

variable (D : Deployment)

def invalidate (id : String) : App Unit :=
  if D.cache then cache (.delEscrow id) else pure ()

def create (dto : CreateEscrowDto) (vendorAddress : String) : App EscrowRecord := do
  let id ← randomUUID
  let row ← db (.escrowCreate id dto vendorAddress)
  pure (toEscrowRecord row)

def findByVendorAndItem (vendorAddress itemRef : String) : App (Option EscrowRecord) := do
  let row ← db (.escrowFindFirst vendorAddress itemRef)
  pure (row.map toEscrowRecord)

/-- A cached record, if there is one; without a cache there never is. -/
def cached (id : String) : App (Option EscrowRecord) :=
  if D.cache then cache (.getEscrow id) else pure none

def remember (id : String) (record : EscrowRecord) : App Unit :=
  if D.cache then cache (.setEscrow id record) else pure ()

/-- The record of the stored row, which is cached for the next time. -/
def findStored (id : String) : App (Option EscrowRecord) := do
  match (← db (.escrowFindUnique id) : Option EscrowRow) with
  | none => pure none
  | some row =>
    remember D id (toEscrowRecord row)
    pure (some (toEscrowRecord row))

def findById (id : String) : App (Option EscrowRecord) := do
  match ← cached D id with
  | some record => pure (some record)
  | none => findStored D id

theorem findById_eq (id : String) :
    findById D id = cached D id >>= fun found =>
      found.elim (findStored D id) fun record => pure (some record) := by
  unfold findById
  congr 1
  funext found
  cases found with
  | none => rfl
  | some record => rfl

def findByVendor (vendorAddress : String) : App (List EscrowRecord) := do
  let rows ← db (.escrowFindByVendor vendorAddress 20)
  pure (rows.map toEscrowRecord)

/-! ## Mutators -/

/-- The shape the mutators share: write the columns, evict the record, return the row. -/
def update (id : String) (data : EscrowData) : App EscrowRecord := do
  let result ← db (.escrowUpdate id data)
  invalidate D id
  pure (toEscrowRecord result)

def updateState (id : String) (state : EscrowState) : App EscrowRecord :=
  update D id { state := some state }

def updateTracking (id trackingId : String) : App EscrowRecord :=
  update D id { trackingId := some (some trackingId) }

def markShipped (id trackingId : String) : App EscrowRecord := do
  let now ← newDate
  update D id
    { state := some .SHIPPED, trackingId := some (some trackingId), shippedAt := some (some now) }

def markTrackingChecked (id : String) : App EscrowRecord := do
  let checkedAt ← newDate
  update D id { trackingCheckedAt := some (some checkedAt) }

/-- `markTrackingChecked` with its second argument given. -/
def markTrackingCheckedAt (id : String) (checkedAt : Time) : App EscrowRecord :=
  update D id { trackingCheckedAt := some (some checkedAt) }

def markCompleted (id : String) : App EscrowRecord :=
  update D id { state := some .COMPLETED }

def markRefunded (id : String) : App EscrowRecord :=
  update D id { state := some .REFUNDED }

def markDelivered (id : String) (deliveredAt : Time) : App EscrowRecord :=
  update D id
    { state := some .DELIVERED
      deliveredAt := some (some deliveredAt)
      deliveryRecordedAt := some (some deliveredAt) }

/-- `markDelivered` with its second argument left out. -/
def markDeliveredNow (id : String) : App EscrowRecord := do
  let deliveredAt ← newDate
  markDelivered D id deliveredAt

def recordAutoReleaseSubmission (id txHash : String) : App EscrowRecord := do
  let submittedAt ← newDate
  update D id
    { autoReleaseSubmittedAt := some (some submittedAt), autoReleaseTxHash := some (some txHash) }

/-- `recordAutoReleaseSubmission` with its third argument given. -/
def recordAutoReleaseSubmissionAt (id txHash : String) (submittedAt : Time) : App EscrowRecord :=
  update D id
    { autoReleaseSubmittedAt := some (some submittedAt), autoReleaseTxHash := some (some txHash) }

def markCancelled (id : String) : App EscrowRecord := do
  let now ← newDate
  update D id { state := some .CANCELLED, cancelledAt := some (some now) }

def clearAutoReleaseSubmitting (id : String) : App EscrowRecord :=
  update D id { autoReleaseSubmittedAt := some none }

def markAutoReleased (id txHash : String) : App EscrowRecord :=
  update D id { state := some .RELEASED, autoReleaseTxHash := some (some txHash) }

def clearDeliveryClaim (id : String) : App EscrowRecord :=
  update D id { deliveryRecordedAt := some none }

def saveBuyerContact (id : String) (encryptedEmail encryptedPhone : Option String) :
    App EscrowRecord :=
  update D id
    { buyerContactEmail := some encryptedEmail, buyerContactPhone := some encryptedPhone }

def AUTO_RELEASE_WINDOW_HOURS : Int := 48

def MILLISECONDS_PER_HOUR : Int := 60 * 60 * 1000

/-- The delivery time at or before which an escrow is due at `referenceTime`. -/
def autoReleaseCutoff (referenceTime : Time) : Time :=
  referenceTime - AUTO_RELEASE_WINDOW_HOURS * MILLISECONDS_PER_HOUR

def findAutoReleaseEligible (referenceTime : Time) : App (List EscrowRecord) := do
  let rows ← db (.escrowFindAutoReleaseEligible (autoReleaseCutoff referenceTime))
  pure (rows.map toEscrowRecord)

/-- The claim is the one conditional write; the record is read back through the cache. -/
def markAutoReleaseSubmitting (id : String) : App (Option EscrowRecord) := do
  let now ← newDate
  let count : Nat ← db (.escrowUpdateManyUnsubmitted id now)
  if count = 0 then pure none
  else
    let result ← findById D id
    invalidate D id
    pure result

/-- Unlike the claim above, this one checks a row it has read and then writes by id. -/
def claimDelivery (id : String) : App (Option EscrowRecord) := do
  match (← db (.escrowFindUnique id) : Option EscrowRow) with
  | none => pure none
  | some escrow =>
    if escrow.state ≠ .SHIPPED ∨ escrow.deliveryRecordedAt ≠ none then pure none
    else
      let now ← newDate
      let result ← update D id { deliveryRecordedAt := some (some now) }
      pure (some result)

/-! ## The calls they make -/

section only

variable {D} {K : Call → Prop} {id : String}

theorem only_invalidate (hdel : K (.cache (.delEscrow id))) : (invalidate D id).Only K :=
  only_ite (only_perform hdel) (only_pure _)

theorem only_update {data : EscrowData} (hupdate : K (.db (.escrowUpdate id data)))
    (hdel : K (.cache (.delEscrow id))) : (update D id data).Only K := by
  unfold update
  apply only_bind
  · exact only_perform hupdate
  · intro row
    exact only_bind (only_invalidate hdel) fun _ => only_pure _

theorem only_findById (hget : K (.cache (.getEscrow id))) (hfind : K (.db (.escrowFindUnique id)))
    (hset : ∀ record, K (.cache (.setEscrow id record))) : (findById D id).Only K := by
  unfold findById findStored cached remember
  apply only_bind
  · exact only_ite (only_perform hget) (only_pure _)
  · intro cached
    cases cached with
    | some record => exact only_pure _
    | none =>
      apply only_bind (only_perform hfind)
      intro row
      cases row with
      | none => exact only_pure _
      | some row =>
        apply only_bind
        · exact only_ite (only_perform (hset _)) (only_pure _)
        · exact fun _ => only_pure _

end only

end EscrowRepository

namespace DisputeRepository

def create (data : NewDispute) : App Dispute :=
  db (.disputeCreate data)

def findByEscrow (escrowId : String) : App (Option Dispute) :=
  db (.disputeFindFirst escrowId none)

def findFirst (escrowId : String) (statuses : List DisputeStatus) : App (Option Dispute) :=
  db (.disputeFindFirst escrowId (some statuses))

/-- `update` with `data: { status: 'RESOLVED', resolvedAt: new Date() }`. -/
def resolve (id : String) : App Dispute := do
  let now ← newDate
  db (.disputeUpdate id .RESOLVED now)

end DisputeRepository

namespace StellarWebhookRepository

def isProcessed (operationId : String) : App Bool :=
  db (.processedFindUnique operationId)

def markProcessed (operationId : String) : App Unit :=
  db (.processedCreate operationId)

def unmarkProcessed (operationId : String) : App Unit :=
  db (.processedDelete operationId)

end StellarWebhookRepository

end TrustLink
