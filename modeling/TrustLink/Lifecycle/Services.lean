import TrustLink.Lifecycle.ChainSync

/-!
# TrustLink — disputes, payments and workers follow the lifecycle

The operations outside the escrow service: the two dispute services, the webhook and the
reconciler, and the two workers. They all read before they write, through the same repository.
-/

namespace TrustLink

open Effects StellarWebhookService TrackingPollWorker AutoReleaseWorker BuyerDisputeService

variable {D : Deployment} {off : String → Prop} {w w' : World} {id : String}

/-! ## The dispute services -/

/-- The caller is checked against a fresh read of the escrow. -/
theorem follows_authorise {α : Type} {escrowId callerAddress : String} {f : EscrowRecord → App α}
    (hw : Coherent D w)
    (hf : ∀ w' row, Quiet D w w' → w'.db.escrows.get escrowId = some row →
      (f (toEscrowRecord row)).wp (alone Reliable) (Follows D off w') w') :
    (authorise D escrowId callerAddress >>= f).wp (alone Reliable)
      (Follows D off w) w := by
  rw [wp_bind, authorise, wp_bind]
  refine wp_findById hw (fun _ hr => absurd hr not_rejects_reliable) fun w' hquiet => ?_
  rw [← hquiet.rows.1]
  dsimp only
  cases hrow : w'.db.escrows.get escrowId with
  | none => exact ⟨hquiet.coherent, hquiet.still.evolves⟩
  | some row =>
    refine wp_if (fun _ => ?_) fun _ => ?_
    · exact ⟨hquiet.coherent, hquiet.still.evolves⟩
    · exact follows_after hquiet.still (hf w' row hquiet hrow)

/-- Opening a dispute takes the escrow to `DISPUTED`. -/
theorem follows_openDispute (hw : Coherent D w) (escrowId callerAddress : String)
    (dto : OpenDisputeDto) :
    (openDispute D escrowId callerAddress dto).wp (alone Reliable)
      (Follows D off w) w := by
  refine follows_authorise hw fun w' row hquiet hrow => ?_
  have hw' := hquiet.coherent
  refine wp_if (fun _ => hw'.follows) fun hdisputed => ?_
  refine wp_if (fun _ => hw'.follows) fun hdisputable => ?_
  have hopen : row.state ∉ TERMINAL_STATES :=
    EscrowState.not_terminal_of_disputable (Decidable.not_not.mp hdisputable)
  rw [wp_bind]
  refine wp_disputeCreate hw' (fun e => hw'.follows) fun d w₁ hnone hset => ?_
  refine SetsState.bind (sets_update rfl) hset.coherent (hset.escrows ▸ hrow)
    fun record w₂ hid hmoved => ?_
  have hmoved := Moved.of_disputeOnly hset.toDisputeOnly hmoved
  refine (wp_bind _ _ _ _).mpr (wp_sends ?_)
  refine (wp_bind _ _ _ _).mpr (wp_sends ?_)
  rw [hid]
  refine ((hmoved.notified .notifyDisputed).notified .notifyDisputedAdmin).follows
    (.dispute hopen hdisputed) (by decide) ?_
  rw [hset.status, hnone]
  exact .raised rfl

/-- Reading a dispute moves nothing. -/
theorem keeps_getDispute (escrowId callerAddress : String) :
    Keeps D (getDispute D escrowId callerAddress) := by
  have hauthorise : Keeps D (authorise D escrowId callerAddress) := by
    refine keeps_bind (keeps_findById escrowId) fun r => ?_
    cases r with
    | none => exact keeps_throw _
    | some escrow => exact keeps_ite (fun _ => keeps_throw _) fun _ => keeps_pure _
  refine keeps_bind hauthorise fun _ => keeps_bind (keeps_quiet rfl) fun r => ?_
  cases r with
  | none => exact keeps_throw _
  | some dispute => exact keeps_pure _

/-- `settleOpen`: there is no open dispute, or it is settled. -/
theorem wp_settleOpen {Q : Except Err Unit → World → Prop} (hw : Coherent D w)
    (hnone : (∀ status ∈ (w.caseOf id).dispute, status.isOpen = false) → Q (.ok ()) w)
    (hsettled : ∀ w', DisputeSet D id .RESOLVED w w' → Q (.ok ()) w') :
    (DisputeService.settleOpen id).wp (alone Reliable) Q w := by
  unfold DisputeService.settleOpen DisputeRepository.findFirst
  rw [wp_bind]
  refine wp_findDispute (fun _ hr => absurd hr not_rejects_reliable) ?_
  dsimp only
  cases hfind : w.db.findDispute id (some [.OPEN, .UNDER_REVIEW]) with
  | none =>
    refine hnone fun status hstatus => ?_
    obtain ⟨d, hd, rfl⟩ := Option.map_eq_some_iff.mp hstatus
    rw [Db.findDispute, hd, Option.filter_eq_none_iff] at hfind
    have hclosed := hfind d rfl
    cases hs : d.status <;> rw [hs] at hclosed <;> first | rfl | exact absurd rfl hclosed
  | some d =>
    have hd : w.db.disputes.get id = some d := by
      rw [Db.findDispute, Option.filter_eq_some_iff] at hfind
      exact hfind.1
    dsimp only
    rw [wp_bind]
    exact wp_resolve hw hd (fun _ _ hr => absurd hr not_rejects_reliable)
      fun _ w' hset => hsettled w' hset

/-- The end of both resolutions: the dispute has been dealt with, the escrow is closed and its
parties are told. -/
theorem follows_told {p : App EscrowRecord} {after : EscrowState} {n : Notification}
    {row : EscrowRow} (hset : SetsState D id after p) (honly : DisputeOnly D id w w')
    (hescrows : w'.db.escrows = w.db.escrows) (hrow : w.db.escrows.get id = some row)
    (ht : Transition row.state after) (hnotes : [n] ∈ announcements after)
    (hd : DisputeMove (off id) row.state after (w.caseOf id).dispute (w'.caseOf id).dispute) :
    (p >>= fun result => notify n result >>= fun _ => pure result).wp (alone Reliable)
      (Follows D off w) w' := by
  refine hset.bind honly.coherent (hescrows ▸ hrow) fun record w₁ hid hmoved => ?_
  refine (wp_bind _ _ _ _).mpr (wp_sends ?_)
  rw [hid]
  exact ((Moved.of_disputeOnly honly hmoved).notified n).follows ht hnotes hd

/-- A resolution closes the escrow. -/
theorem follows_resolve (hw : Coherent D w) (escrowId : String) (resolution : Resolution) :
    (DisputeService.resolve D escrowId resolution).wp (alone Reliable) (Follows D off w) w := by
  refine follows_findById hw fun w' hquiet => ?_
  have hw' := hquiet.coherent
  cases hrow : w'.db.escrows.get escrowId with
  | none => exact hw'.follows
  | some row =>
    refine wp_if (fun _ => hw'.follows) fun _ => ?_
    refine wp_if (fun _ => hw'.follows) fun hnot => ?_
    have hdisputed : row.state = .DISPUTED := Decidable.not_not.mp hnot
    split
    · exact hw'.follows
    · next contractEscrowId _ =>
      have hadmin : Keeps D (DisputeService.requireAdminAddress D) := by
        unfold DisputeService.requireAdminAddress
        split
        · exact keeps_throw _
        · exact keeps_pure _
      refine hadmin.bind_follows hw' fun admin w₁ hstill₁ => ?_
      refine (keeps_quiet rfl).bind_follows hstill₁.coherent fun _ w₂ hstill₂ => ?_
      obtain ⟨row₂, hrow₂, hstate₂⟩ := (hstill₁.trans hstill₂).row_of hrow
      rw [hdisputed] at hstate₂
      have hw₂ := hstill₂.coherent
      -- the contract call and the guards have moved nothing, so the escrow is still disputed
      have hclose : ∀ {after}, after ∈ TERMINAL_STATES → Transition row₂.state after := by
        intro after hafter
        rw [hstate₂]
        exact .close (by decide) hafter
      rw [wp_bind]
      refine wp_settleOpen hw₂ ?_ ?_
      -- no open dispute on record: only the escrow is written
      · intro hclosed
        have honly := (Still.refl hw₂).disputeOnly escrowId
        cases resolution with
        | RELEASE =>
          exact follows_told (sets_update rfl) honly rfl hrow₂ (hclose (by decide)) (by decide)
            (.undisputed (by decide) hclosed)
        | REFUND =>
          exact follows_told (sets_update rfl) honly rfl hrow₂ (hclose (by decide)) (by decide)
            (.undisputed (by decide) hclosed)
      · intro w₃ hset
        have hd : ∀ {after}, after ∈ TERMINAL_STATES → DisputeMove (off escrowId) row₂.state after
            (w₂.caseOf escrowId).dispute (w₃.caseOf escrowId).dispute := by
          intro after hafter
          rw [hset.status]
          exact .settled hafter
        cases resolution with
        | RELEASE =>
          exact follows_told (sets_update rfl) hset.toDisputeOnly hset.escrows hrow₂
            (hclose (by decide)) (by decide) (hd (by decide))
        | REFUND =>
          exact follows_told (sets_update rfl) hset.toDisputeOnly hset.escrows hrow₂
            (hclose (by decide)) (by decide) (hd (by decide))

/-! ## Payments

An operation is marked as processed, and a payment funds the pending escrows of its vendor that
match it. -/

/-- One iteration on an escrow that is still `CREATED`. -/
theorem follows_fund (off : String → Prop) {dto : StellarWebhookDto} {escrow : EscrowRecord}
    {row : EscrowRow}
    (hw : Coherent D w) (hrow : w.db.escrows.get escrow.id = some row)
    (hstate : row.state = .CREATED) :
    (fund D dto escrow).wp (alone Reliable) (fun r w' =>
      Follows D off w r w' ∧ ∀ id', id' ≠ escrow.id → w'.stateOf id' = w.stateOf id') w := by
  have hskip : ∀ r : Except Err PUnit, Follows D off w r w ∧
      ∀ id', id' ≠ escrow.id → w.stateOf id' = w.stateOf id' :=
    fun _ => ⟨hw.follows, fun _ _ => rfl⟩
  unfold fund
  refine wp_if (fun _ => hskip _) fun _ => ?_
  refine wp_if (fun _ => hskip _) fun _ => ?_
  refine SetsState.bind (sets_update rfl) hw hrow fun record w₁ hid hmoved => wp_sends ?_
  rw [hid]
  have hmoved := hmoved.notified .notifyFunded
  rw [hstate] at hmoved
  refine ⟨hmoved.follows .fund (by decide) (.untouched (by decide) (by decide)), fun id' hne => ?_⟩
  exact congrArg Case.state (hmoved.others id' hne)

/-- Each pending escrow that matches is funded. -/
theorem follows_handlePayment (hw : Coherent D w) (dto : StellarWebhookDto) :
    (handlePayment D dto).wp (alone Reliable) (Follows D off w) w := by
  unfold handlePayment
  split
  · exact hw.follows
  · next destination _ =>
    rw [wp_bind, EscrowRepository.findByVendor, wp_bind]
    refine wp_handle_db.mpr fun ch hch => ?_
    rcases handle_findByVendor ch w destination 20 with ⟨e, heq⟩ | heq
    · rw [heq]
      exact hw.follows
    · rw [heq]
      -- the records still to come are those of distinct escrows that are `CREATED`
      refine wp_forM (Q := fun _ w' => Coherent D w' ∧ Evolves off w w')
        (I := fun (left : List EscrowRecord) w' =>
        (Coherent D w' ∧ Evolves off w w') ∧ (left.map (·.id)).Nodup ∧
          ∀ e ∈ left, w'.stateOf e.id = some .CREATED) ?_
        (fun w' h => h.1) _ w ⟨⟨hw, (Still.refl hw).evolves⟩, ?_, ?_⟩
      · rintro escrow left w' ⟨hfollows, hnodup, hcreated⟩
        rw [List.map_cons, List.nodup_cons] at hnodup
        obtain ⟨row, hrow, hstate⟩ :=
          Option.map_eq_some_iff.mp (hcreated escrow List.mem_cons_self)
        refine wp_mono (follows_fund off hfollows.1 hrow hstate) fun r w'' h => ?_
        have hthere : Coherent D w'' ∧ Evolves off w w'' := ⟨h.1.1, hfollows.2.trans h.1.2⟩
        cases r with
        | error e => exact hthere
        | ok u =>
          refine ⟨hthere, hnodup.2, fun e he => ?_⟩
          rw [h.2 e.id]
          · exact hcreated e (List.mem_cons_of_mem _ he)
          · intro hid
            exact hnodup.1 (hid ▸ List.mem_map_of_mem he)
      · have hids : ((w.db.findByVendor ch.tie destination 20).map toEscrowRecord).map (·.id)
            = (w.db.findByVendor ch.tie destination 20).map (·.id) := by
          rw [List.map_map]
          rfl
        refine List.Nodup.sublist (List.Sublist.map _ List.filter_sublist) ?_
        rw [hids]
        exact Db.findByVendor_ids_nodup _ _ _ _
      · intro e he
        obtain ⟨hmem, hcreated⟩ := List.mem_filter.mp he
        obtain ⟨row, hrow, rfl⟩ := List.mem_map.mp hmem
        have hstate : row.state = .CREATED := of_decide_eq_true hcreated
        show w.stateOf row.id = some .CREATED
        rw [World.stateOf, (Db.mem_findByVendor hrow).1, ← hstate]
        rfl

theorem follows_processEvent (hw : Coherent D w) (dto : StellarWebhookDto) :
    (processEvent D dto).wp (alone Reliable) (Follows D off w) w := by
  unfold processEvent
  exact wp_if (fun _ => follows_handlePayment hw dto) fun _ => hw.follows

/-- The mark and its rollback are aside. -/
theorem follows_processOnce (hw : Coherent D w) (dto : StellarWebhookDto) :
    (processOnce D dto).wp (alone Reliable) (Follows D off w) w := by
  refine (keeps_quiet rfl).bind_follows hw fun seen w₁ hstill₁ => ?_
  refine wp_if (fun _ => hstill₁.coherent.follows) fun _ => ?_
  refine (keeps_quiet rfl).bind_follows hstill₁.coherent fun _ w₂ hstill₂ => ?_
  refine follows_andThen_keeps (follows_tryCatch (follows_processEvent hstill₂.coherent dto) ?_) ?_
  · exact fun e => keeps_bind (keeps_quiet rfl) fun _ => keeps_throw e
  · intro r
    cases r <;> exact keeps_done _

theorem follows_handleEvent (hw : Coherent D w) (rawBody : String) (signature : Option String)
    (dto : StellarWebhookDto) :
    (handleEvent D rawBody signature dto).wp (alone Reliable)
      (Follows D off w) w := by
  have hverify : Keeps D (verifySignature D rawBody signature) := by
    unfold verifySignature
    split
    · exact keeps_throw _
    · split
      · exact keeps_throw _
      · exact keeps_ite (fun _ => keeps_pure _) fun _ => keeps_throw _
  refine hverify.bind_follows hw fun _ w' hstill => ?_
  refine follows_andThen_keeps (follows_processOnce hstill.coherent dto) fun r => ?_
  cases r <;> exact keeps_done _

theorem follows_processOperationDto (hw : Coherent D w) (dto : StellarWebhookDto) :
    (processOperationDto D dto).wp (alone Reliable) (Follows D off w) w := by
  refine follows_andThen_keeps (follows_processOnce hw dto) fun r => ?_
  cases r <;> exact keeps_done _

/-! ## The workers

The tracking poll delivers what it has claimed. The auto-release writes its claim and no state. -/

/-- A won delivery claim is on an escrow that is `SHIPPED`. -/
theorem follows_claimDelivery {α : Type} {f : Option EscrowRecord → App α} (hw : Coherent D w)
    (hnone : ∀ w', Coherent D w' → (f none).wp (alone Reliable) (Follows D off w') w')
    (hclaimed : ∀ record w' row, Coherent D w' → w'.db.escrows.get id = some row →
      row.state = .SHIPPED → (f (some record)).wp (alone Reliable) (Follows D off w') w') :
    (EscrowRepository.claimDelivery D id >>= f).wp (alone Reliable) (Follows D off w) w := by
  rw [wp_bind, EscrowRepository.claimDelivery, wp_bind]
  refine wp_findUnique (fun _ hr => absurd hr not_rejects_reliable) ?_
  dsimp only
  cases hrow : w.db.escrows.get id with
  | none => exact hnone w hw
  | some row =>
    refine wp_if (fun _ => hnone w hw) fun hfree => ?_
    have hshipped : row.state = .SHIPPED := Decidable.not_not.mp (not_or.mp hfree).1
    refine wp_seq (keeps_quiet rfl w hw) (fun _ _ hstill => hstill.follows) ?_
    intro now w₁ hstill₁
    -- the claim is no lifecycle column, so its update keeps every case
    have hclaim : Keeps D (EscrowRepository.update D id
      { deliveryRecordedAt := some (some now) }) := keeps_update rfl
    refine wp_seq (hclaim w₁ hstill₁.coherent)
      (fun _ _ hstill₂ => (hstill₁.trans hstill₂).follows) ?_
    intro record w₂ hstill₂
    have hstill := hstill₁.trans hstill₂
    obtain ⟨row', hrow', hstate'⟩ := hstill.row_of hrow
    exact follows_after hstill
      (hclaimed record w₂ row' hstill.coherent hrow' (hstate'.trans hshipped))

theorem follows_recordClaimed {escrow : EscrowRecord} {contractEscrowId : Nat} {row : EscrowRow}
    (hw : Coherent D w) (hrow : w.db.escrows.get escrow.id = some row)
    (hshipped : row.state = .SHIPPED) :
    (recordClaimed D escrow contractEscrowId).wp (alone Reliable)
      (Follows D off w) w := by
  have hadmin : Keeps D (TrackingPollWorker.requireAdminAddress D) := by
    unfold TrackingPollWorker.requireAdminAddress
    split
    · exact keeps_throw _
    · exact keeps_pure _
  refine hadmin.bind_follows hw fun admin w₁ hstill₁ => ?_
  refine (keeps_quiet rfl).bind_follows hstill₁.coherent fun _ w₂ hstill₂ => ?_
  refine (keeps_quiet rfl).bind_follows hstill₂.coherent fun now w₃ hstill₃ => ?_
  obtain ⟨row₃, hrow₃, hstate₃⟩ := ((hstill₁.trans hstill₂).trans hstill₃).row_of hrow
  refine SetsState.bind (sets_update rfl) hstill₃.coherent hrow₃ fun record w₄ hid hmoved => ?_
  rw [hstate₃, hshipped] at hmoved
  unfold notifyDelivered
  apply wp_if
  · intro _
    refine wp_sends ?_
    rw [hid]
    exact (hmoved.notified .notifyDelivered).follows .deliver (by decide)
      (.untouched (by decide) (by decide))
  · intro _
    exact hmoved.follows .deliver (by decide) (.untouched (by decide) (by decide))

/-- The poll delivers a shipment that has arrived. -/
theorem follows_deliver (hw : Coherent D w) (escrow : EscrowRecord) :
    (TrackingPollWorker.deliver D escrow).wp (alone Reliable) (Follows D off w) w := by
  unfold TrackingPollWorker.deliver
  split
  · refine (keeps_quiet rfl).bind_follows hw fun status w₁ hstill₁ => ?_
    refine wp_if (fun _ => hstill₁.coherent.follows) fun _ => ?_
    refine follows_claimDelivery hstill₁.coherent (fun w₂ hw₂ => hw₂.follows) ?_
    intro record w₂ row hw₂ hrow hshipped
    refine follows_tryCatch (follows_recordClaimed hw₂ hrow hshipped) fun err => ?_
    exact keeps_bind (keeps_update rfl) fun _ => keeps_throw err
  · exact hw.follows

/-- The check is noted whether or not the shipment has arrived. -/
theorem follows_processShipment (hw : Coherent D w) (snapshot : EscrowRecord) :
    (processShipment D snapshot).wp (alone Reliable) (Follows D off w) w := by
  refine follows_tryFinally (follows_deliver hw snapshot) (keeps_void ?_)
  exact keeps_bind (keeps_quiet rfl) fun _ => keeps_update rfl

/-- The conditional claim writes no state. What it leaves in the cache for a moment is a record
that is stale in the claim column only, and evicted before anybody uses it. -/
theorem keeps_markAutoReleaseSubmitting (id : String) :
    Keeps D (EscrowRepository.markAutoReleaseSubmitting D id) := by
  refine keeps_bind (keeps_quiet rfl) fun now w hw => ?_
  rw [wp_bind, wp_handle_db]
  intro ch hch
  rcases handle_unsubmitted ch w id now with ⟨e, heq⟩ | heq | ⟨row, hrow, _, heq⟩
  · rw [heq]
    exact Still.refl hw
  · rw [heq]
    exact Still.refl hw
  · rw [heq]
    have hbut : CoherentBut D id
        { w with db := w.db.putEscrow (row.update (claimData now) ch.now) } := by
      rw [← get_id hrow]
      exact coherentBut_put hw (row.update (claimData now) ch.now)
    refine wp_if (fun h => absurd h Nat.one_ne_zero) fun _ => ?_
    -- the read may answer the record from before the claim
    refine (wp_bind _ _ _ _).mpr (wp_findById_stale hbut
      (fun e hr => absurd hr not_rejects_reliable) ?_)
    intro record w₁ hbut₁ hdb₁ hjournal₁
    refine (wp_bind _ _ _ _).mpr (wp_evict (fun _ hch => hch.2) hbut₁ ?_)
    intro w₂ hw₂ hdb₂ hjournal₂
    have hwrote : Wrote D row (claimData now) w w₂ :=
      ⟨hw₂, ⟨ch.now, by rw [hdb₂, hdb₁]; rfl⟩, by rw [hdb₂, hdb₁]; rfl,
        by rw [hjournal₂, hjournal₁]; rfl⟩
    exact hwrote.still hrow rfl

/-- A release is requested from the contract; the chain reports it later. -/
theorem keeps_processEscrow (snapshot : EscrowRecord) :
    Keeps D (processEscrow D snapshot) := by
  refine keeps_bind (keeps_quiet rfl) fun dispute => ?_
  cases dispute with
  | some _ => exact keeps_pure _
  | none =>
    refine keeps_ite (fun _ => keeps_pure _) fun _ => ?_
    split
    · exact keeps_pure _
    · refine keeps_bind (keeps_markAutoReleaseSubmitting snapshot.id) fun claimed => ?_
      cases claimed with
      | none => exact keeps_pure _
      | some record =>
        refine keeps_tryCatch ?_ fun err => keeps_bind (keeps_update rfl) fun _ => keeps_throw err
        have hsource : Keeps D (requireAutoReleaseSource D) := by
          unfold requireAutoReleaseSource
          split
          · exact keeps_throw _
          · exact keeps_pure _
        refine keeps_bind hsource fun source => keeps_bind (keeps_quiet rfl) fun txHash => ?_
        refine keeps_bind (keeps_bind (keeps_quiet rfl) fun _ => keeps_update rfl) fun _ => ?_
        exact keeps_pure _

/-- So it is with a cycle of them. -/
theorem keeps_runCycle (referenceTime : Time) :
    Keeps D (runCycle D referenceTime) := by
  refine keeps_tryCatch (keeps_bind ?_ fun eligible => ?_) fun _ => keeps_pure _
  · exact keeps_bind (keeps_quiet rfl) fun _ => keeps_pure _
  · refine keeps_forM (fun escrow => ?_) eligible
    exact keeps_tryCatch (keeps_void (keeps_processEscrow escrow)) fun _ => keeps_pure _

end TrustLink
