import TrustLink.Lifecycle.Sequential

/-!
# TrustLink — the mutators return what they have stored

Every mutator of `EscrowRepository` writes the row, evicts the cached record and returns the row it
was answered; `markAutoReleaseSubmitting` is the exception. Its write is an `updateMany`, which
answers a number of rows, so it fetches the row with `findById`, and that goes through the cache
*before* the record is evicted. If the record was cached, the caller that has just claimed the escrow
is handed the record from before the claim.

`mutators_return_stored_iff` says that this is the only way in which a mutator that runs alone
returns something else than the row stored after it, for every method, every database, every content
of the cache that agrees with the row, and whatever is rejected or has expired meanwhile. The cache
does what it is asked (`Kept`): a lost eviction leaves the old record by design.
-/

namespace TrustLink

open Effects EscrowRepository

/-- The methods of `EscrowRepository` that update an escrow row. A date with a default is `none` when
it is left out. -/
inductive Mutator where
  | updateState (state : EscrowState)
  | updateTracking (trackingId : String)
  | markShipped (trackingId : String)
  | markTrackingChecked (checkedAt : Option Time)
  | markCompleted
  | markRefunded
  | markDelivered (deliveredAt : Option Time)
  | recordAutoReleaseSubmission (txHash : String) (submittedAt : Option Time)
  | markCancelled
  | markAutoReleaseSubmitting
  | clearAutoReleaseSubmitting
  | markAutoReleased (txHash : String)
  | claimDelivery
  | clearDeliveryClaim
  | saveBuyerContact (encryptedEmail encryptedPhone : Option String)
  deriving DecidableEq

/-- A method that always returns a record. -/
def returning (p : App EscrowRecord) : App (Option EscrowRecord) := do
  let record ← p
  pure (some record)

def Mutator.call (D : Deployment) (id : String) : Mutator → App (Option EscrowRecord)
  | .updateState state => returning (EscrowRepository.updateState D id state)
  | .updateTracking trackingId => returning (EscrowRepository.updateTracking D id trackingId)
  | .markShipped trackingId => returning (EscrowRepository.markShipped D id trackingId)
  | .markTrackingChecked none => returning (EscrowRepository.markTrackingChecked D id)
  | .markTrackingChecked (some checkedAt) => returning (markTrackingCheckedAt D id checkedAt)
  | .markCompleted => returning (EscrowRepository.markCompleted D id)
  | .markRefunded => returning (EscrowRepository.markRefunded D id)
  | .markDelivered none => returning (markDeliveredNow D id)
  | .markDelivered (some deliveredAt) =>
    returning (EscrowRepository.markDelivered D id deliveredAt)
  | .recordAutoReleaseSubmission txHash none =>
    returning (EscrowRepository.recordAutoReleaseSubmission D id txHash)
  | .recordAutoReleaseSubmission txHash (some submittedAt) =>
    returning (recordAutoReleaseSubmissionAt D id txHash submittedAt)
  | .markCancelled => returning (EscrowRepository.markCancelled D id)
  | .markAutoReleaseSubmitting => EscrowRepository.markAutoReleaseSubmitting D id
  | .clearAutoReleaseSubmitting => returning (EscrowRepository.clearAutoReleaseSubmitting D id)
  | .markAutoReleased txHash => returning (EscrowRepository.markAutoReleased D id txHash)
  | .claimDelivery => EscrowRepository.claimDelivery D id
  | .clearDeliveryClaim => returning (EscrowRepository.clearDeliveryClaim D id)
  | .saveBuyerContact email phone => returning (EscrowRepository.saveBuyerContact D id email phone)

/-- The record is the stored row, and nothing else is cached. -/
structure Stored (D : Deployment) (id : String) (record : EscrowRecord) (w : World) : Prop where
  row : w.version id = some record
  cached : D.cache = true → ∀ record', w.cache.escrow id = some record' →
    w.version id = some record'

/-- A call that returns a record returns the row that is stored after it, and leaves no other record
in the cache. -/
def ReturnsStored (D : Deployment) (id : String) (w : World) (op : Mutator) (env : Nat → Choice) :
    Prop :=
  ∀ record, ((op.call D id).exec world env w).1 = .ok (some record) →
    Stored D id record ((op.call D id).exec world env w).2

/-- Nothing that is written to the cache or evicted from it is lost. -/
def Kept (ch : Choice) : Prop := ch.lost = false

/-! ## The rules -/

section rules

variable {D : Deployment} {id : String} {w : World} {record : EscrowRecord}

/-- Evicting the record leaves the row. -/
theorem wp_invalidate_stored (hrow : w.version id = some record) :
    (invalidate D id).wp (alone Kept) (fun _ w' => Stored D id record w') w := by
  unfold invalidate
  apply wp_if
  · intro _
    rw [wp_handle_cache]
    intro ch hkept
    refine ⟨hrow, fun _ record' hcached => ?_⟩
    rw [cached_delEscrow, if_pos ⟨hkept, rfl⟩] at hcached
    cases hcached
  · intro hcache
    exact ⟨hrow, fun hD => absurd hD hcache⟩

/-- The shape the mutators share. -/
theorem wp_update_stored (data : EscrowData) :
    (update D id data).wp (alone Kept)
      (fun r w' => ∀ record, r = .ok record → Stored D id record w') w := by
  unfold update
  rw [wp_bind, wp_handle_db]
  intro ch _
  rcases handle_escrowUpdate ch w id data with ⟨e, heq⟩ | ⟨_, row, hrow, heq⟩
  · rw [heq]
    exact fun _ h => nomatch h
  · rw [heq]
    have hversion : (w.updated row data ch.now).version id =
        some (toEscrowRecord (row.update data ch.now)) := by
      show ((w.db.putEscrow (row.update data ch.now)).escrows.get id).map toEscrowRecord = _
      rw [putEscrow_get, EscrowRow.update_id, get_id hrow, if_pos rfl]
      rfl
    refine wp_seq (wp_invalidate_stored hversion) (fun _ _ _ _ h => nomatch h) ?_
    rintro _ w' hstored _ ⟨⟩
    exact hstored

/-- What a mutator that runs alone leaves behind, whatever it returns. -/
def LeavesStored (D : Deployment) (id : String) (r : Except Err (Option EscrowRecord))
    (w : World) : Prop :=
  ∀ record, r = .ok (some record) → Stored D id record w

theorem wp_returning {p : App EscrowRecord}
    (h : p.wp (alone Kept) (fun r w' => ∀ record, r = .ok record → Stored D id record w') w) :
    (returning p).wp (alone Kept) (LeavesStored D id) w := by
  unfold returning
  refine wp_seq h (fun _ _ _ _ h => nomatch h) ?_
  rintro record w' hr _ ⟨⟩
  exact hr record rfl

/-- A mutator whose columns do not depend on the clock. -/
theorem wp_returning_update (data : EscrowData) :
    (returning (update D id data)).wp (alone Kept) (LeavesStored D id) w :=
  wp_returning (wp_update_stored data)

/-- A mutator that reads the clock first. -/
theorem wp_returning_dated (data : Time → EscrowData) :
    (returning (do
      let now ← newDate
      update D id (data now))).wp (alone Kept) (LeavesStored D id) w := by
  apply wp_returning
  refine (wp_machine_bind (M := world)).mpr fun ch _ => ?_
  exact wp_update_stored (data ch.now)

theorem wp_claimDelivery_stored : (claimDelivery D id).wp (alone Kept) (LeavesStored D id) w := by
  unfold claimDelivery
  rw [wp_bind]
  refine wp_findUnique (fun _ _ => fun _ h => nomatch h) ?_
  dsimp only
  cases w.db.escrows.get id with
  | none => exact fun _ h => nomatch h
  | some escrow =>
    refine wp_if (fun _ => fun _ h => (nomatch h)) fun _ => ?_
    refine (wp_machine_bind (M := world)).mpr fun ch _ => ?_
    exact wp_returning_update { deliveryRecordedAt := some (some ch.now) }

/-- No record is cached, or there is no cache: the row is read. -/
theorem wp_findById_uncached {Q : Except Err (Option EscrowRecord) → World → Prop}
    (huncached : D.cache = true → w.cache.escrow id = none) (hfail : ∀ e, Q (.error e) w)
    (h : ∀ w', w'.version id = w.version id → Q (.ok (w.version id)) w') :
    (findById D id).wp (alone Kept) Q w := by
  have hversion : w.version id = (w.db.escrows.get id).map toEscrowRecord := rfl
  apply wp_findById_of
  · intro ch record hcache _ _ hentry
    rw [huncached hcache] at hentry
    cases hentry
  apply wp_findStored fun e _ => hfail e
  · intro hrow
    rw [hrow] at hversion
    rw [hversion] at h
    exact h w hversion
  · intro row hrow
    rw [hrow] at hversion
    rw [hversion] at h
    exact h w hversion
  · intro row ch hrow _
    rw [hrow] at hversion
    rw [hversion] at h
    exact h _ hversion

/-- The claim returns the row it has claimed, unless the record was cached. -/
theorem wp_markAutoReleaseSubmitting_stored
    (huncached : D.cache = true → ∀ record, w.cache.escrow id = some record →
      w.version id = some record ∧ record.autoReleaseSubmittedAt ≠ none) :
    (markAutoReleaseSubmitting D id).wp (alone Kept) (LeavesStored D id) w := by
  unfold markAutoReleaseSubmitting
  refine (wp_machine_bind (M := world)).mpr fun ch _ => ?_
  show Prog.wp _ (_ >>= _) _ w
  rw [wp_bind, wp_handle_db]
  intro ch' _
  rcases handle_unsubmitted ch' w id ch.now with ⟨e, heq⟩ | heq | ⟨row, hrow, hfree, heq⟩
  · rw [heq]
    exact fun _ h => nomatch h
  · rw [heq]
    exact fun _ h => nomatch h
  · rw [heq]
    have hversion : w.version id = some (toEscrowRecord row) := by
      rw [World.version, hrow]
      rfl
    -- a cached record would be the unclaimed row
    have hnone : D.cache = true → w.cache.escrow id = none := by
      intro hcache
      cases hcached : w.cache.escrow id with
      | none => rfl
      | some record =>
        obtain ⟨hrecord, hclaimed⟩ := huncached hcache record hcached
        rw [hversion] at hrecord
        cases hrecord
        exact absurd hfree hclaimed
    show Prog.wp _ (findById D id >>= _) _ _
    rw [wp_bind]
    refine wp_findById_uncached hnone (fun _ => fun _ h => nomatch h) ?_
    intro w' hw'
    have hclaimed : w'.version id = some (toEscrowRecord (row.update (claimData ch.now) ch'.now)) := by
      rw [hw']
      show ((w.db.putEscrow _).escrows.get id).map toEscrowRecord = _
      rw [putEscrow_get, EscrowRow.update_id, get_id hrow, if_pos rfl]
      rfl
    refine wp_seq (wp_invalidate_stored hclaimed) (fun _ _ _ _ h => nomatch h) ?_
    intro _ w'' hstored record hrecord
    rw [← hw', hclaimed] at hrecord
    cases hrecord
    exact hstored

end rules

/-! ## All of them -/

variable {D : Deployment} {id : String} {w : World}

/-- The claim would read an unclaimed record from the cache. -/
def ReadsUnclaimed (D : Deployment) (id : String) (w : World) (op : Mutator) : Prop :=
  op = .markAutoReleaseSubmitting ∧ D.cache = true ∧
    ∃ record, w.cache.escrow id = some record ∧ record.autoReleaseSubmittedAt = none

theorem wp_mutator_stored {op : Mutator}
    (hcached : ∀ record, w.cache.escrow id = some record → w.version id = some record)
    (hop : ¬ ReadsUnclaimed D id w op) : (op.call D id).wp (alone Kept) (LeavesStored D id) w := by
  cases op with
  | updateState state => exact wp_returning_update _
  | updateTracking trackingId => exact wp_returning_update _
  | markShipped trackingId =>
    exact wp_returning_dated fun now =>
      { state := some .SHIPPED, trackingId := some (some trackingId), shippedAt := some (some now) }
  | markTrackingChecked checkedAt =>
    cases checkedAt with
    | none => exact wp_returning_dated fun now => { trackingCheckedAt := some (some now) }
    | some checkedAt => exact wp_returning_update _
  | markCompleted => exact wp_returning_update _
  | markRefunded => exact wp_returning_update _
  | markDelivered deliveredAt =>
    cases deliveredAt with
    | none =>
      exact wp_returning_dated fun now =>
        { state := some .DELIVERED
          deliveredAt := some (some now)
          deliveryRecordedAt := some (some now) }
    | some deliveredAt => exact wp_returning_update _
  | recordAutoReleaseSubmission txHash submittedAt =>
    cases submittedAt with
    | none =>
      exact wp_returning_dated fun now =>
        { autoReleaseSubmittedAt := some (some now), autoReleaseTxHash := some (some txHash) }
    | some submittedAt => exact wp_returning_update _
  | markCancelled =>
    exact wp_returning_dated fun now => { state := some .CANCELLED, cancelledAt := some (some now) }
  | markAutoReleaseSubmitting =>
    apply wp_markAutoReleaseSubmitting_stored
    intro hcache record hrecord
    refine ⟨hcached record hrecord, fun hfree => ?_⟩
    exact hop ⟨rfl, hcache, record, hrecord, hfree⟩
  | clearAutoReleaseSubmitting => exact wp_returning_update _
  | markAutoReleased txHash => exact wp_returning_update _
  | claimDelivery => exact wp_claimDelivery_stored
  | clearDeliveryClaim => exact wp_returning_update _
  | saveBuyerContact email phone => exact wp_returning_update _

/-- With nothing in its way, the claim returns the cached record, and the row is claimed. -/
theorem markAutoReleaseSubmitting_cached {record : EscrowRecord} (hD : D.cache = true)
    (hrecord : w.cache.escrow id = some record) (hrow : w.version id = some record)
    (hfree : record.autoReleaseSubmittedAt = none) :
    ∃ w', (markAutoReleaseSubmitting D id).exec world (fun _ => .calm) w = (.ok (some record), w') ∧
      w'.version id ≠ some record := by
  obtain ⟨row, hget, rfl⟩ := Option.map_eq_some_iff.mp hrow
  have hnull : row.autoReleaseSubmittedAt.isNone = true := Option.isNone_iff_eq_none.mpr hfree
  have hclaim : handle .calm (.db (.escrowUpdateManyUnsubmitted id 0)) w =
      (.ok 1, { w with db := w.db.putEscrow (row.update (claimData 0) 0) }) := by
    apply handle_db_ok rfl
    simp only [Db.exec, Db.updateManyUnsubmitted, hget, if_pos hnull]
    rfl
  -- the claim is written, but the read that follows is answered by the cache
  have hread : (findById D id).exec world (fun _ => .calm)
        { w with db := w.db.putEscrow (row.update (claimData 0) 0) } =
      (.ok (some (toEscrowRecord row)),
        { w with db := w.db.putEscrow (row.update (claimData 0) 0) }) := by
    have hhit : (cached D id).exec world (fun _ => .calm)
          { w with db := w.db.putEscrow (row.update (claimData 0) 0) } =
        (.ok (some (toEscrowRecord row)),
          { w with db := w.db.putEscrow (row.update (claimData 0) 0) }) := by
      unfold cached
      rw [if_pos hD]
      show (Except.ok (if Choice.calm.miss then none else w.cache.escrow id), _) = _
      rw [hrecord]
      rfl
    unfold findById
    rw [exec_bind_ok hhit]
    rfl
  have hexec : (markAutoReleaseSubmitting D id).exec world (fun _ => .calm) w =
      (.ok (some (toEscrowRecord row)), { w with
        db := w.db.putEscrow (row.update (claimData 0) 0)
        cache := { w.cache with escrow := Function.update w.cache.escrow id none } }) := by
    have hclock : newDate.exec world (fun _ => .calm) w = (.ok 0, w) := rfl
    have hclaimed : (db (.escrowUpdateManyUnsubmitted id 0)).exec world (fun _ => .calm) w =
        (.ok 1, { w with db := w.db.putEscrow (row.update (claimData 0) 0) }) := hclaim
    unfold markAutoReleaseSubmitting
    rw [exec_bind_ok hclock, exec_bind_ok hclaimed, if_neg Nat.one_ne_zero,
      exec_bind_ok hread]
    unfold invalidate
    rw [if_pos hD]
    rfl
  refine ⟨_, hexec, ?_⟩
  have hclaimed : (w.db.putEscrow (row.update (claimData 0) 0)).escrows.get id =
      some (row.update (claimData 0) 0) := by
    rw [putEscrow_get, EscrowRow.update_id, get_id hget, if_pos rfl]
  intro hsame
  have hrecords : some (toEscrowRecord (row.update (claimData 0) 0)) = some (toEscrowRecord row) := by
    rw [← hsame]
    show _ = ((w.db.putEscrow (row.update (claimData 0) 0)).escrows.get id).map toEscrowRecord
    rw [hclaimed]
    rfl
  -- the two records differ in the column that was claimed
  have hdates := congrArg (fun r => r.map (·.autoReleaseSubmittedAt)) hrecords
  have hnot : (some (some (0 : Time)) : Option (Option Time))
      = some row.autoReleaseSubmittedAt := hdates
  rw [Option.isNone_iff_eq_none.mp hnull] at hnot
  cases hnot

/-- For every method, every database and every cache that holds no record of the escrow or the
stored one: every call that runs alone and returns a record returns the row that is stored after it
and leaves no other record in the cache, exactly if it is not a claim of an unclaimed escrow whose
record is cached. -/
theorem mutators_return_stored_iff (D : Deployment) (id : String) (w : World) (op : Mutator)
    (hcached : ∀ record, w.cache.escrow id = some record → w.version id = some record) :
    (∀ env : Nat → Choice, (∀ n, Kept (env n)) → ReturnsStored D id w op env) ↔
      ¬ ReadsUnclaimed D id w op := by
  constructor
  · rintro hreturns ⟨rfl, hD, record, hrecord, hfree⟩
    obtain ⟨w', hexec, hdiffers⟩ :=
      markAutoReleaseSubmitting_cached hD hrecord (hcached record hrecord) hfree
    have hexec' : (Mutator.markAutoReleaseSubmitting.call D id).exec world (fun _ => .calm) w =
        (.ok (some record), w') := hexec
    have hstored := hreturns (fun _ => .calm) (fun _ => rfl) record (by rw [hexec'])
    rw [hexec'] at hstored
    exact hdiffers hstored.row
  · intro hop env henv
    exact exec_of_wp (M := world) (wp_mutator_stored hcached hop) henv

/-- The world with a delivered escrow whose record is cached. -/
def deliveredAndCached : World :=
  { World.ofEscrows [Db.lampEscrow .DELIVERED] with
    cache :=
      { escrow := fun id => if id = "e1" then some (toEscrowRecord (Db.lampEscrow .DELIVERED)) else none
        tracking := fun _ => none
        idempotency := fun _ => none } }

/-- The record that is cached there is the stored row. -/
theorem deliveredAndCached_coherent :
    ∀ record, deliveredAndCached.cache.escrow "e1" = some record →
      deliveredAndCached.version "e1" = some record := by
  rintro _ ⟨⟩
  rfl

/-- Completing a cached escrow returns the completed row. -/
theorem markCompleted_returns_stored :
    ReturnsStored .cached "e1" deliveredAndCached .markCompleted (fun _ => .calm) :=
  (mutators_return_stored_iff .cached "e1" deliveredAndCached .markCompleted
    deliveredAndCached_coherent).mpr (fun h => nomatch h.1) (fun _ => .calm) fun _ => rfl

/-- The claim of a cached escrow returns a record that does not say when the release was submitted;
the row does. -/
theorem claim_returns_unclaimed :
    ((Mutator.markAutoReleaseSubmitting.call .cached "e1").exec world (fun _ => .calm)
        deliveredAndCached).1 = .ok (some (toEscrowRecord (Db.lampEscrow .DELIVERED))) ∧
      (((Mutator.markAutoReleaseSubmitting.call .cached "e1").exec world (fun _ => .calm)
        deliveredAndCached).2.version "e1").map (·.autoReleaseSubmittedAt) = some (some 0) ∧
      ¬ ReturnsStored .cached "e1" deliveredAndCached .markAutoReleaseSubmitting (fun _ => .calm) := by
  have hreturned : ((Mutator.markAutoReleaseSubmitting.call .cached "e1").exec world (fun _ => .calm)
      deliveredAndCached).1 = .ok (some (toEscrowRecord (Db.lampEscrow .DELIVERED))) := by
    decide +kernel
  have hstored : (((Mutator.markAutoReleaseSubmitting.call .cached "e1").exec world (fun _ => .calm)
      deliveredAndCached).2.version "e1").map (·.autoReleaseSubmittedAt) = some (some 0) := by
    decide +kernel
  refine ⟨hreturned, hstored, fun hreturns => ?_⟩
  have hrow := (hreturns _ hreturned).row
  rw [hrow] at hstored
  cases hstored

end TrustLink
