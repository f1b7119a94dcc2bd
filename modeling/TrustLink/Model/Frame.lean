import TrustLink.Model.World

/-!
# TrustLink — what one call can change

The inversion lemmas every invariant is derived from. A call that writes is answered in one of
two ways (`handle_escrowUpdate`, `handle_unsubmitted`, …): rejected with the world as it was,
or accepted with one row replaced. Seen from a single row (`handle_escrow`, `handle_dispute`),
a call leaves it alone or is one of the few that write it.
-/

namespace TrustLink

open Store

variable (ch : Choice) (w : World)

/-! ## The database calls, one by one

Each is rejected and changes nothing, or is executed; what it finds is read off the tables. -/

/-- A written row is found under its id, and the others as before. -/
theorem putEscrow_get (db : Db) (row : EscrowRow) (id : String) :
    (db.putEscrow row).escrows.get id = if id = row.id then some row else db.escrows.get id :=
  db.escrows.get_put id row

/-- A row is stored under its id. -/
theorem get_id {db : Db} {id : String} {row : EscrowRow} (h : db.escrows.get id = some row) :
    row.id = id :=
  db.escrows.key_of_get h

variable {ch w} in
/-- A database call that does not fail is answered by the tables. -/
theorem handle_db_ok {c : DbCall} {r : c.Resp} {db : Db} (hfault : ch.fault c = none)
    (hexec : Db.exec ch.now ch.uuid ch.tie c w.db = (.ok r, db)) :
    handle ch (.db c) w =
      (.ok r, { w with db := db, journal := observed w.db c ++ w.journal }) := by
  simp only [handle, handleDb, hfault, hexec]

variable {ch w} in
/-- Prisma's own errors change nothing either. -/
theorem handle_db_error {c : DbCall} {e : PrismaError} {db : Db} (hfault : ch.fault c = none)
    (hexec : Db.exec ch.now ch.uuid ch.tie c w.db = (.error e, db)) :
    handle ch (.db c) w = (.error (.prisma e), w) := by
  simp only [handle, handleDb, hfault, hexec]

/-- The world after an accepted update of `row`. -/
def World.updated (w : World) (row : EscrowRow) (data : EscrowData) (now : Time) : World :=
  { w with
    db := w.db.putEscrow (row.update data now)
    journal := observed w.db (.escrowUpdate row.id data) ++ w.journal }

/-- An update that is not rejected writes the row it finds. -/
theorem handle_escrowUpdate_ok {id : String} {data : EscrowData} {row : EscrowRow}
    (hfault : ch.fault (.escrowUpdate id data) = none) (hrow : w.db.escrows.get id = some row) :
    handle ch (.db (.escrowUpdate id data)) w =
      (.ok (row.update data ch.now), w.updated row data ch.now) := by
  simp only [handle, handleDb, Db.exec, Db.updateEscrow, hfault, hrow]
  rw [World.updated, get_id hrow]

theorem handle_escrowUpdate (id : String) (data : EscrowData) :
    (∃ e, handle ch (.db (.escrowUpdate id data)) w = (.error e, w)) ∨
    (ch.fault (.escrowUpdate id data) = none ∧ ∃ row, w.db.escrows.get id = some row ∧
      handle ch (.db (.escrowUpdate id data)) w =
        (.ok (row.update data ch.now), w.updated row data ch.now)) := by
  cases hfault : ch.fault (.escrowUpdate id data) with
  | some e =>
    refine .inl ⟨.prisma e, ?_⟩
    simp only [handle, handleDb, hfault]
  | none =>
    cases hrow : w.db.escrows.get id with
    | none =>
      refine .inl ⟨.prisma .recordNotFound, ?_⟩
      simp only [handle, handleDb, Db.exec, Db.updateEscrow, hfault, hrow]
    | some row => exact .inr ⟨rfl, row, rfl, handle_escrowUpdate_ok ch w hfault hrow⟩

/-- The columns the auto-release claim writes. -/
def claimData (submittedAt : Time) : EscrowData :=
  { autoReleaseSubmittedAt := some (some submittedAt) }

/-- The conditional write finds a row that was not submitted, or counts none. -/
theorem handle_unsubmitted (id : String) (t : Time) :
    (∃ e, handle ch (.db (.escrowUpdateManyUnsubmitted id t)) w = (.error e, w)) ∨
    handle ch (.db (.escrowUpdateManyUnsubmitted id t)) w = (.ok 0, w) ∨
    ∃ row, w.db.escrows.get id = some row ∧ row.autoReleaseSubmittedAt = none ∧
      handle ch (.db (.escrowUpdateManyUnsubmitted id t)) w =
        (.ok 1, { w with db := w.db.putEscrow (row.update (claimData t) ch.now) }) := by
  simp only [handle, handleDb, Db.exec, Db.updateManyUnsubmitted]
  cases hfault : ch.fault (.escrowUpdateManyUnsubmitted id t) with
  | some e => exact .inl ⟨_, rfl⟩
  | none =>
    refine .inr ?_
    cases hrow : w.db.escrows.get id with
    | none => exact .inl rfl
    | some row =>
      dsimp only
      by_cases hnull : row.autoReleaseSubmittedAt.isNone
      · refine .inr ⟨row, rfl, Option.isNone_iff_eq_none.mp hnull, ?_⟩
        rw [if_pos hnull]
        rfl
      · rw [if_neg hnull]
        exact .inl rfl

/-- The id has to be new. -/
theorem handle_escrowCreate (id : String) (dto : CreateEscrowDto) (vendorAddress : String) :
    (∃ e, handle ch (.db (.escrowCreate id dto vendorAddress)) w = (.error e, w)) ∨
    (w.db.escrows.get id = none ∧
      handle ch (.db (.escrowCreate id dto vendorAddress)) w =
        (.ok (Db.newEscrow id dto vendorAddress ch.now),
          { w with db := w.db.putEscrow (Db.newEscrow id dto vendorAddress ch.now) })) := by
  simp only [handle, handleDb, Db.exec, Db.createEscrow]
  cases hfault : ch.fault (.escrowCreate id dto vendorAddress) with
  | some e => exact .inl ⟨_, rfl⟩
  | none =>
    dsimp only
    split
    · next heq =>
      split at heq
      · cases heq; exact .inl ⟨_, rfl⟩
      · split at heq
        · cases heq; exact .inl ⟨_, rfl⟩
        · cases heq
    · next heq =>
      split at heq
      · cases heq
      · next hfree =>
        split at heq
        · cases heq
        · cases heq
          refine .inr ⟨?_, rfl⟩
          have hnone : ¬ (w.db.escrows.get id).isSome := fun h => hfree (.inl h)
          exact Option.not_isSome_iff_eq_none.mp hnone

/-- The escrow has to be without a dispute. -/
theorem handle_disputeCreate (data : NewDispute) :
    (∃ e, handle ch (.db (.disputeCreate data)) w = (.error e, w)) ∨
    (w.db.disputes.get data.escrowId = none ∧
      ∃ hfresh, handle ch (.db (.disputeCreate data)) w =
        (.ok (Db.newDispute data ch.uuid ch.now),
          { w with db := w.db.addDispute (Db.newDispute data ch.uuid ch.now) hfresh })) := by
  simp only [handle, handleDb, Db.exec, Db.createDispute]
  cases hfault : ch.fault (.disputeCreate data) with
  | some e => exact .inl ⟨_, rfl⟩
  | none =>
    dsimp only
    by_cases htaken : (w.db.disputes.get data.escrowId).isSome
    · rw [if_pos htaken]
      exact .inl ⟨_, rfl⟩
    · rw [if_neg htaken]
      by_cases hfresh : ∀ d' ∈ w.db.disputes.rows, d'.id ≠ (Db.newDispute data ch.uuid ch.now).id
      · rw [dif_pos hfresh]
        by_cases hescrow : (w.db.escrows.get data.escrowId).isNone
        · rw [if_pos hescrow]
          exact .inl ⟨_, rfl⟩
        · rw [if_neg hescrow]
          exact .inr ⟨Option.not_isSome_iff_eq_none.mp htaken, hfresh, rfl⟩
      · rw [dif_neg hfresh]
        exact .inl ⟨_, rfl⟩

/-- A dispute that violates no constraint is inserted, unless the call is rejected from outside. -/
theorem handle_disputeCreate_ok {data : NewDispute} (hfault : ch.fault (.disputeCreate data) = none)
    (hnone : w.db.disputes.get data.escrowId = none)
    (hfresh : ∀ d' ∈ w.db.disputes.rows, d'.id ≠ (Db.newDispute data ch.uuid ch.now).id)
    (hescrow : w.db.escrows.get data.escrowId ≠ none) :
    handle ch (.db (.disputeCreate data)) w =
      (.ok (Db.newDispute data ch.uuid ch.now),
        { w with db := w.db.addDispute (Db.newDispute data ch.uuid ch.now) hfresh }) := by
  have htaken : ¬ (w.db.disputes.get data.escrowId).isSome := by rw [hnone]; exact Bool.false_ne_true
  have hthere : ¬ (w.db.escrows.get data.escrowId).isNone :=
    fun h => hescrow (Option.isNone_iff_eq_none.mp h)
  simp only [handle, handleDb, Db.exec, Db.createDispute, hfault]
  rw [if_neg htaken, dif_pos hfresh, if_neg hthere]
  rfl

/-- The row after `prisma.dispute.update`. -/
def Dispute.settle (d : Dispute) (status : DisputeStatus) (resolvedAt now : Time) : Dispute :=
  { d with status := status, resolvedAt := some resolvedAt, updatedAt := now }

/-- Disputes are updated by their own id. -/
theorem handle_disputeUpdate (id : String) (status : DisputeStatus) (t : Time) :
    (∃ e, handle ch (.db (.disputeUpdate id status t)) w = (.error e, w)) ∨
    ∃ d, d.id = id ∧ ∃ hd : d ∈ w.db.disputes.rows,
      handle ch (.db (.disputeUpdate id status t)) w =
        (.ok (d.settle status t ch.now),
          { w with db := w.db.setDispute d (d.settle status t ch.now) hd rfl rfl }) := by
  simp only [handle, handleDb, Db.exec, Db.updateDispute]
  cases hfault : ch.fault (.disputeUpdate id status t) with
  | some e => exact .inl ⟨_, rfl⟩
  | none =>
    dsimp only
    split
    · next heq =>
      split at heq
      · cases heq; exact .inl ⟨_, rfl⟩
      · cases heq
    · next heq =>
      split at heq
      · cases heq
      · next d hfind =>
        cases heq
        have hid : d.id = id := by simpa using List.find?_some hfind
        exact .inr ⟨d, hid, List.mem_of_find?_eq_some hfind, rfl⟩

/-- An update of a stored dispute that is not rejected from outside is accepted. -/
theorem handle_disputeUpdate_ok {d : Dispute} {status : DisputeStatus} {t : Time}
    (hfault : ch.fault (.disputeUpdate d.id status t) = none) (hd : d ∈ w.db.disputes.rows) :
    handle ch (.db (.disputeUpdate d.id status t)) w =
      (.ok (d.settle status t ch.now),
        { w with db := w.db.setDispute d (d.settle status t ch.now) hd rfl rfl }) := by
  rcases handle_disputeUpdate ch w d.id status t with ⟨e, heq⟩ | ⟨d', hid, hd', heq⟩
  · -- the row is there, so the lookup by primary key finds one
    exfalso
    simp only [handle, handleDb, hfault, Db.exec, Db.updateDispute] at heq
    split at heq
    · next hrejected =>
      split at hrejected
      · next hfind =>
        have hnone := List.find?_eq_none.mp hfind d hd
        simp at hnone
      · cases hrejected
    · cases heq
  · obtain rfl : d' = d := w.db.disputeId_inj d' hd' d hd hid
    exact heq

/-! ## The calls that write no row

Reads answer from the tables as they are. -/

theorem handle_findByVendor (vendorAddress : String) (take : Nat) :
    (∃ e, handle ch (.db (.escrowFindByVendor vendorAddress take)) w = (.error e, w)) ∨
    handle ch (.db (.escrowFindByVendor vendorAddress take)) w =
      (.ok (w.db.findByVendor ch.tie vendorAddress take), w) := by
  simp only [handle, handleDb]
  cases ch.fault (.escrowFindByVendor vendorAddress take) with
  | some e => exact .inl ⟨_, rfl⟩
  | none => exact .inr rfl

theorem handle_findUnique (id : String) :
    (∃ e, handle ch (.db (.escrowFindUnique id)) w = (.error e, w)) ∨
    handle ch (.db (.escrowFindUnique id)) w = (.ok (w.db.escrows.get id), w) := by
  simp only [handle, handleDb]
  cases ch.fault (.escrowFindUnique id) with
  | some e => exact .inl ⟨_, rfl⟩
  | none => exact .inr rfl

/-- The escrow and dispute tables are as they were. -/
def SameRows (w w' : World) : Prop :=
  w'.db.escrows = w.db.escrows ∧ w'.db.disputes = w.db.disputes

/-- The calls that may write an escrow or a dispute. -/
def Call.writesRows : Call → Bool
  | .db (.escrowCreate _ _ _) => true
  | .db (.escrowUpdate _ _) => true
  | .db (.escrowUpdateManyUnsubmitted _ _) => true
  | .db (.disputeCreate _) => true
  | .db (.disputeUpdate _ _ _) => true
  | _ => false

/-- Whatever is neither an update nor an insertion leaves the rows alone. -/
theorem handle_sameRows (c : Call) (h : c.writesRows = false) : SameRows w (handle ch c w).2 := by
  cases c with
  | db c =>
    simp only [handle, handleDb]
    cases ch.fault c with
    | some e => exact ⟨rfl, rfl⟩
    | none =>
      cases c with
      | escrowCreate _ _ _ => cases h
      | escrowUpdate _ _ => cases h
      | escrowUpdateManyUnsubmitted _ _ => cases h
      | disputeCreate _ => cases h
      | disputeUpdate _ _ _ => cases h
      | vendorProfileUpsert profile =>
        simp only [Db.exec]
        split <;> exact ⟨rfl, rfl⟩
      | processedCreate operationId =>
        by_cases hmem : operationId ∈ w.db.processedWebhookEvents <;>
          simp only [Db.exec, hmem, if_true, if_false] <;> exact ⟨rfl, rfl⟩
      | processedDelete operationId =>
        by_cases hmem : operationId ∈ w.db.processedWebhookEvents <;>
          simp only [Db.exec, hmem, if_true, if_false] <;> exact ⟨rfl, rfl⟩
      | _ => exact ⟨rfl, rfl⟩
  | _ => exact ⟨rfl, rfl⟩

/-! ## The processed table

It changes in two calls only, which set and delete a mark. -/

/-- A mark can be set once. -/
theorem handle_processedCreate (operationId : String) :
    (∃ e, handle ch (.db (.processedCreate operationId)) w = (.error e, w)) ∨
    (operationId ∉ w.db.processedWebhookEvents ∧
      handle ch (.db (.processedCreate operationId)) w = (.ok (), { w with db := { w.db with
        processedWebhookEvents := insert operationId w.db.processedWebhookEvents } })) := by
  simp only [handle, handleDb]
  cases ch.fault (.processedCreate operationId) with
  | some e => exact .inl ⟨_, rfl⟩
  | none =>
    by_cases hmem : operationId ∈ w.db.processedWebhookEvents
    · simp only [Db.exec, if_pos hmem]
      exact .inl ⟨_, rfl⟩
    · simp only [Db.exec, if_neg hmem]
      exact .inr ⟨hmem, rfl⟩

theorem handle_processedDelete (operationId : String) :
    (∃ e, handle ch (.db (.processedDelete operationId)) w = (.error e, w)) ∨
    handle ch (.db (.processedDelete operationId)) w = (.ok (), { w with db := { w.db with
      processedWebhookEvents := w.db.processedWebhookEvents.erase operationId } }) := by
  simp only [handle, handleDb]
  cases ch.fault (.processedDelete operationId) with
  | some e => exact .inl ⟨_, rfl⟩
  | none =>
    by_cases hmem : operationId ∈ w.db.processedWebhookEvents
    · simp only [Db.exec, if_pos hmem]
      exact .inr rfl
    · simp only [Db.exec, if_neg hmem]
      exact .inl ⟨_, rfl⟩

/-- The calls that may write the processed table. -/
def Call.writesProcessed : Call → Bool
  | .db (.processedCreate _) => true
  | .db (.processedDelete _) => true
  | _ => false

/-- Every other call leaves the marks alone. -/
theorem handle_sameProcessed (c : Call) (h : c.writesProcessed = false) :
    (handle ch c w).2.db.processedWebhookEvents = w.db.processedWebhookEvents := by
  have processed_eq : ∀ {a : Except Err c.Resp × World}, handle ch c w = a →
      (handle ch c w).2.db.processedWebhookEvents = a.2.db.processedWebhookEvents :=
    fun h => h ▸ rfl
  cases c with
  | db c =>
    cases c with
    | processedCreate _ => cases h
    | processedDelete _ => cases h
    | escrowUpdate id data =>
      rcases handle_escrowUpdate ch w id data with ⟨e, heq⟩ | ⟨_, _, _, heq⟩ <;>
        exact processed_eq heq
    | escrowUpdateManyUnsubmitted id t =>
      rcases handle_unsubmitted ch w id t with ⟨e, heq⟩ | heq | ⟨_, _, _, heq⟩ <;>
        exact processed_eq heq
    | escrowCreate id dto vendorAddress =>
      rcases handle_escrowCreate ch w id dto vendorAddress with ⟨e, heq⟩ | ⟨_, heq⟩ <;>
        exact processed_eq heq
    | disputeCreate data =>
      rcases handle_disputeCreate ch w data with ⟨e, heq⟩ | ⟨_, _, heq⟩ <;>
        exact processed_eq heq
    | disputeUpdate id status t =>
      rcases handle_disputeUpdate ch w id status t with ⟨e, heq⟩ | ⟨_, _, _, heq⟩ <;>
        exact processed_eq heq
    | vendorProfileUpsert profile =>
      simp only [handle, handleDb]
      cases ch.fault (.vendorProfileUpsert profile) with
      | some e => rfl
      | none =>
        simp only [Db.exec]
        split <;> rfl
    | _ =>
      simp only [handle, handleDb]
      cases ch.fault _ <;> rfl
  | _ => rfl

/-! ## The cached records -/

/-- The records that are cached after a write. -/
theorem cached_setEscrow (id : String) (record : EscrowRecord) (id' : String) :
    (handle ch (.cache (.setEscrow id record)) w).2.cache.escrow id' =
      if ch.lost = false ∧ id' = id then some record else w.cache.escrow id' := by
  simp only [handle, Cache.handle]
  cases ch.lost <;> simp [Function.update_apply]

/-- The records that are cached after an eviction. -/
theorem cached_delEscrow (id id' : String) :
    (handle ch (.cache (.delEscrow id)) w).2.cache.escrow id' =
      if ch.lost = false ∧ id' = id then none else w.cache.escrow id' := by
  simp only [handle, Cache.handle]
  cases ch.lost <;> simp [Function.update_apply]

variable {ch w} in
/-- What is cached after a call was cached before, or the call has put it there. -/
theorem cached_handle {c : Call} {id : String} {record : EscrowRecord}
    (h : (handle ch c w).2.cache.escrow id = some record) :
    c = .cache (.setEscrow id record) ∨ w.cache.escrow id = some record := by
  cases c with
  | cache c =>
    cases c with
    | setEscrow id' record' =>
      rw [cached_setEscrow] at h
      split at h
      · next hput =>
        cases h
        exact .inl (by rw [hput.2])
      · exact .inr h
    | delEscrow id' =>
      rw [cached_delEscrow] at h
      split at h
      · cases h
      · exact .inr h
    | setTracking trackingId details =>
      simp only [handle, Cache.handle] at h
      split at h <;> exact .inr h
    | delTracking trackingId =>
      simp only [handle, Cache.handle] at h
      split at h <;> exact .inr h
    | setIdempotency cacheKey entry =>
      simp only [handle, Cache.handle] at h
      split at h <;> exact .inr h
    | _ => exact .inr h
  | db c =>
    refine .inr ?_
    simp only [handle, handleDb] at h
    split at h
    · exact h
    · split at h <;> exact h
  | _ => exact .inr h

/-! ## One row at a time

What any call can do to one escrow or one dispute: nothing, or one of the writes. -/

/-- What the call `c` can make of the escrow `id`. -/
inductive EscrowChange (c : Call) (id : String) : Option EscrowRow → Prop
  | same : EscrowChange c id (w.db.escrows.get id)
  | updated (data : EscrowData) (row : EscrowRow) (hc : c = .db (.escrowUpdate id data))
      (hrow : w.db.escrows.get id = some row) :
      EscrowChange c id (some (row.update data ch.now))
  | claimed (t : Time) (row : EscrowRow) (hc : c = .db (.escrowUpdateManyUnsubmitted id t))
      (hrow : w.db.escrows.get id = some row) (hfree : row.autoReleaseSubmittedAt = none) :
      EscrowChange c id (some (row.update (claimData t) ch.now))
  | created (dto : CreateEscrowDto) (vendorAddress : String)
      (hc : c = .db (.escrowCreate id dto vendorAddress)) (hnone : w.db.escrows.get id = none) :
      EscrowChange c id (some (Db.newEscrow id dto vendorAddress ch.now))

/-- The case split over all calls, made once. -/
theorem handle_escrow (c : Call) (id : String) :
    EscrowChange ch w c id ((handle ch c w).2.db.escrows.get id) := by
  by_cases hwrites : c.writesRows
  · cases c with
    | db c =>
      cases c with
      | escrowUpdate id' data =>
        rcases handle_escrowUpdate ch w id' data with ⟨e, h⟩ | ⟨_, row, hrow, h⟩
        · rw [h]; exact .same
        · rw [h, World.updated, putEscrow_get, EscrowRow.update_id, get_id hrow]
          split
          · next hid => subst hid; exact .updated data row rfl hrow
          · exact .same
      | escrowUpdateManyUnsubmitted id' t =>
        rcases handle_unsubmitted ch w id' t with ⟨e, h⟩ | h | ⟨row, hrow, hfree, h⟩
        · rw [h]; exact .same
        · rw [h]; exact .same
        · rw [h, putEscrow_get, EscrowRow.update_id, get_id hrow]
          split
          · next hid => subst hid; exact .claimed t row rfl hrow hfree
          · exact .same
      | escrowCreate id' dto vendorAddress =>
        rcases handle_escrowCreate ch w id' dto vendorAddress with ⟨e, h⟩ | ⟨hnone, h⟩
        · rw [h]; exact .same
        · rw [h, putEscrow_get]
          split
          · next hid =>
            have hid : id = id' := hid
            subst hid
            exact .created dto vendorAddress rfl hnone
          · exact .same
      | disputeCreate data =>
        rcases handle_disputeCreate ch w data with ⟨e, h⟩ | ⟨_, _, h⟩ <;> rw [h] <;> exact .same
      | disputeUpdate id' status t =>
        rcases handle_disputeUpdate ch w id' status t with ⟨e, h⟩ | ⟨_, _, _, h⟩ <;> rw [h] <;>
          exact .same
      | _ => cases hwrites
    | _ => cases hwrites
  · rw [(handle_sameRows ch w c (Bool.eq_false_iff.mpr hwrites)).1]
    exact .same

/-- What the call `c` can make of the dispute of an escrow. -/
inductive DisputeChange (c : Call) (escrowId : String) : Option Dispute → Prop
  | same : DisputeChange c escrowId (w.db.disputes.get escrowId)
  | created (data : NewDispute) (hc : c = .db (.disputeCreate data)) (hid : data.escrowId = escrowId)
      (hnone : w.db.disputes.get escrowId = none) :
      DisputeChange c escrowId (some (Db.newDispute data ch.uuid ch.now))
  | settled (status : DisputeStatus) (t : Time) (d : Dispute)
      (hc : c = .db (.disputeUpdate d.id status t)) (hd : w.db.disputes.get escrowId = some d) :
      DisputeChange c escrowId (some (d.settle status t ch.now))

/-- The same for disputes. -/
theorem handle_dispute (c : Call) (escrowId : String) :
    DisputeChange ch w c escrowId ((handle ch c w).2.db.disputes.get escrowId) := by
  by_cases hwrites : c.writesRows
  · cases c with
    | db c =>
      cases c with
      | disputeCreate data =>
        rcases handle_disputeCreate ch w data with ⟨e, h⟩ | ⟨hnone, _, h⟩
        · rw [h]; exact .same
        · rw [h]
          show DisputeChange ch w _ escrowId ((w.db.disputes.put _).get escrowId)
          rw [Table.get_put]
          split
          · next hid =>
            have hid : escrowId = data.escrowId := hid
            subst hid
            exact .created data rfl rfl hnone
          · exact .same
      | disputeUpdate id' status t =>
        rcases handle_disputeUpdate ch w id' status t with ⟨e, h⟩ | ⟨d, hid, hd, h⟩
        · rw [h]; exact .same
        · rw [h]
          show DisputeChange ch w _ escrowId ((w.db.disputes.put _).get escrowId)
          rw [Table.get_put]
          split
          · next hesc =>
            have hesc : escrowId = d.escrowId := hesc
            subst hid hesc
            exact .settled status t d rfl (w.db.disputes.mem_rows_iff.mp hd)
          · exact .same
      | escrowUpdate id' data =>
        rcases handle_escrowUpdate ch w id' data with ⟨e, h⟩ | ⟨_, _, _, h⟩ <;> rw [h] <;> exact .same
      | escrowUpdateManyUnsubmitted id' t =>
        rcases handle_unsubmitted ch w id' t with ⟨e, h⟩ | h | ⟨_, _, _, h⟩ <;> rw [h] <;>
          exact .same
      | escrowCreate id' dto vendorAddress =>
        rcases handle_escrowCreate ch w id' dto vendorAddress with ⟨e, h⟩ | ⟨_, h⟩ <;> rw [h] <;>
          exact .same
      | _ => cases hwrites
    | _ => cases hwrites
  · rw [(handle_sameRows ch w c (Bool.eq_false_iff.mpr hwrites)).2]
    exact .same

end TrustLink
