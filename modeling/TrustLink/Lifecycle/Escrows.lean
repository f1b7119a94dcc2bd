import TrustLink.Lifecycle.Refinement

/-!
# TrustLink — the escrow service follows the lifecycle

One lemma for each operation of the escrow service but the chain sync. An operation is judged from
the world it starts in; its guards are evaluated on the record it reads, which coherence makes the
stored row, so the guard that protects a write speaks about the state the write replaces.
-/

namespace TrustLink

open Effects EscrowService

variable {D : Deployment} {off : String → Prop} {w w' : World} {id : String}

/-- The guards of an operation are about the stored row. -/
theorem follows_findById {α : Type} {f : Option EscrowRecord → App α} (hw : Coherent D w)
    (hf : ∀ w', Quiet D w w' → (f ((w'.db.escrows.get id).map toEscrowRecord)).wp (alone Reliable)
      (Follows D off w') w') :
    (EscrowRepository.findById D id >>= f).wp (alone Reliable) (Follows D off w) w := by
  rw [wp_bind]
  refine wp_findById hw (fun _ hr => absurd hr not_rejects_reliable) fun w' hquiet => ?_
  rw [← hquiet.rows.1]
  exact follows_after hquiet.still (hf w' hquiet)

/-- The service's own read throws where there is no row. -/
theorem follows_service_findById {α : Type} {f : EscrowRecord → App α} (hw : Coherent D w)
    (hf : ∀ w' row, Quiet D w w' → w'.db.escrows.get id = some row →
      (f (toEscrowRecord row)).wp (alone Reliable) (Follows D off w') w') :
    (EscrowService.findById D id >>= f).wp (alone Reliable) (Follows D off w) w := by
  rw [wp_bind, EscrowService.findById, wp_tryCatch, wp_bind]
  refine wp_findById hw (fun _ hr => absurd hr not_rejects_reliable) fun w' hquiet => ?_
  rw [← hquiet.rows.1]
  dsimp only
  cases hrow : w'.db.escrows.get id with
  | none => exact ⟨hquiet.coherent, hquiet.still.evolves⟩
  | some row => exact follows_after hquiet.still (hf w' row hquiet hrow)

/-! ## Cancellation and shipment

The guards ask for `CREATED` or `FUNDED`, where there is no dispute. -/

/-- A cancellation from a state in which there is no dispute to settle. -/
theorem follows_markCancelled {row : EscrowRow} (hw : Coherent D w)
    (hrow : w.db.escrows.get id = some row) (hstate : row.state = .CREATED ∨ row.state = .FUNDED) :
    (EscrowRepository.markCancelled D id).wp (alone Reliable) (Follows D off w) w := by
  refine SetsState.follows (sets_newDate fun _ => sets_update rfl) hw hrow
    (.close ?_ (by decide)) (by decide) (.untouched ?_ (by decide))
  · rcases hstate with h | h <;> rw [h] <;> decide
  · rcases hstate with h | h <;> rw [h] <;> decide

/-- From `FUNDED` -/
theorem follows_cancelEscrow (hw : Coherent D w) (escrowId callerAddress : String) (isAdmin : Bool) :
    (cancelEscrow D escrowId callerAddress isAdmin).wp (alone Reliable)
      (Follows D off w) w := by
  refine follows_service_findById hw fun w' row hquiet hrow => ?_
  have hw' := hquiet.coherent
  refine wp_if (fun _ => hw'.follows) fun _ => ?_
  refine wp_if (fun _ => hw'.follows) fun hfunded => ?_
  exact follows_markCancelled hw' hrow (.inr (Decidable.not_not.mp hfunded))

/-- The contract has no part in the rows. -/
theorem keeps_cancelOnChain (contractEscrowId : Nat) (callerAddress : String) :
    Keeps D (cancelOnChain contractEscrowId callerAddress) := by
  unfold cancelOnChain
  refine keeps_bind (keeps_quiet rfl) fun chainState => keeps_ite (fun _ => ?_) fun _ => ?_
  · exact keeps_bind (keeps_quiet rfl) fun _ => keeps_pure _
  · exact keeps_ite (fun _ => keeps_throw _) fun _ => keeps_pure _

/-- From `CREATED`, where the contract may be asked first. -/
theorem follows_cancelPendingEscrow (hw : Coherent D w) (escrowId callerAddress : String)
    (isAdmin : Bool) :
    (cancelPendingEscrow D escrowId callerAddress isAdmin).wp (alone Reliable)
      (Follows D off w) w := by
  refine follows_service_findById hw fun w' row hquiet hrow => ?_
  have hw' := hquiet.coherent
  refine wp_if (fun _ => hw'.follows) fun _ => ?_
  refine wp_if (fun _ => hw'.follows) fun hcreated => ?_
  have hstate : row.state = .CREATED := Decidable.not_not.mp hcreated
  split
  · exact follows_markCancelled hw' hrow (.inl hstate)
  · -- the contract may be asked first; the row is still there afterwards
    refine (keeps_cancelOnChain _ callerAddress).bind_follows hw' fun _ w₁ hstill => ?_
    obtain ⟨row', hrow', hstate'⟩ := hstill.row_of hrow
    exact follows_markCancelled hstill.coherent hrow' (.inl (hstate'.trans hstate))

/-- The tracking cache holds no escrow. -/
theorem wp_forgetTracking {trackingId : String} {Q : Except Err Unit → World → Prop}
    (hw : Coherent D w) (h : ∀ w', Still D w w' → Q (.ok ()) w') :
    (forgetTracking D trackingId).wp (alone Reliable) Q w := by
  unfold forgetTracking
  refine wp_if (fun _ => ?_) fun _ => h w (Still.refl hw)
  rw [wp_handle_cache]
  exact fun ch _ => h _ (handle_quiet hw rfl).still

/-- From `FUNDED`, and the parties are told. -/
theorem follows_handleShipment (hw : Coherent D w) (escrowId vendorAddress trackingId : String)
    (isAdmin : Bool) :
    (handleShipment D escrowId vendorAddress trackingId isAdmin).wp (alone Reliable)
      (Follows D off w) w := by
  unfold handleShipment
  rw [wp_ite, wp_ite]
  refine ⟨fun _ => hw.follows, fun _ => ⟨fun _ => hw.follows, fun _ => ?_⟩⟩
  refine follows_service_findById hw fun w' row hquiet hrow => ?_
  have hw' := hquiet.coherent
  refine wp_if (fun _ => hw'.follows) fun _ => ?_
  refine wp_if (fun _ => hw'.follows) fun hfunded => ?_
  have hstate : row.state = .FUNDED := Decidable.not_not.mp hfunded
  split
  · exact hw'.follows
  · -- the write goes to the record's own id, which is the one that was asked for
    rw [show (toEscrowRecord row).id = escrowId from get_id hrow]
    refine SetsState.bind (sets_newDate fun _ => sets_update rfl) hw' hrow
      fun record w₁ hid hmoved => ?_
    rw [wp_bind]
    refine wp_forgetTracking hmoved.coherent fun w₂ hstill => ?_
    have hmoved := hmoved.still hstill
    rw [hstate] at hmoved
    refine (wp_bind _ _ _ _).mpr (wp_sends ?_)
    rw [hid]
    exact (hmoved.notified .notifyShipped).follows (.ship (.inr rfl)) (by decide)
      (.untouched (by decide) (by decide))

theorem keeps_encrypted (value : Option String) : Keeps D (encrypted value) := by
  unfold encrypted
  split
  · exact keeps_pure _
  · exact keeps_bind (keeps_quiet rfl) fun _ => keeps_pure _

theorem keeps_service_findById (id : String) : Keeps D (EscrowService.findById D id) := by
  refine keeps_tryCatch (keeps_bind (keeps_findById id) fun r => ?_) fun e => ?_
  · cases r with
    | none => exact keeps_throw _
    | some record => exact keeps_pure _
  · cases e <;> exact keeps_throw _

/-- The contact is no part of the lifecycle. -/
theorem keeps_updateBuyerContact (escrowId : String) (dto : UpdateBuyerContactDto) :
    Keeps D (updateBuyerContact D escrowId dto) := by
  refine keeps_bind (keeps_service_findById escrowId) fun escrow => ?_
  refine keeps_ite (fun _ => keeps_throw _) fun _ => keeps_ite (fun _ => keeps_throw _) fun _ => ?_
  refine keeps_bind (keeps_encrypted dto.email) fun _ => keeps_bind (keeps_encrypted dto.phone) ?_
  exact fun _ => keeps_bind (keeps_update rfl) fun _ => keeps_pure _

/-- Neither is what the carrier says. -/
theorem keeps_getTracking (id : String) : Keeps D (getTracking D id) := by
  refine keeps_bind (keeps_service_findById id) fun escrow => ?_
  split
  · exact keeps_throw _
  · refine keeps_bind (keeps_ite (fun _ => keeps_quiet rfl) fun _ => keeps_pure _) fun cached => ?_
    cases cached with
    | some details => exact keeps_pure _
    | none =>
      refine keeps_tryCatch (keeps_bind (keeps_quiet rfl) fun details => ?_) fun _ => keeps_throw _
      refine keeps_bind (keeps_ite (fun _ => keeps_quiet rfl) fun _ => keeps_pure _) fun _ => ?_
      exact keeps_pure _

/-! ## Creation

A history begins where there is no row. -/

/-- The insertion is the first step of a history. -/
theorem follows_create (hw : Coherent D w) (dto : CreateEscrowDto) (vendorAddress : String) :
    (EscrowRepository.create dto vendorAddress).wp (alone Reliable) (Follows D off w) w := by
  refine (keeps_quiet (c := .randomUUID) rfl).bind_follows hw fun newId w₁ hstill => ?_
  have hw₁ := hstill.coherent
  rw [wp_bind, wp_handle_db]
  intro ch _
  rcases handle_escrowCreate ch w₁ newId dto vendorAddress with ⟨e, heq⟩ | ⟨hnone, heq⟩
  · rw [heq]
    exact hw₁.follows
  · rw [heq]
    refine ⟨fun hD id' record hcached => ?_, [], rfl, fun id' => ?_⟩
    · obtain ⟨row, hrow, hrecord⟩ := hw₁ hD id' record hcached
      refine ⟨row, ?_, hrecord⟩
      rw [putEscrow_get]
      split
      · next hid =>
        have hid : id' = newId := hid
        rw [hid, hnone] at hrow
        cases hrow
      · exact hrow
    · show History (off id') id' (w₁.caseOf id') [] (World.caseOf { w₁ with
        db := w₁.db.putEscrow (Db.newEscrow newId dto vendorAddress ch.now) } id')
      rw [World.caseOf, World.caseOf, World.stateOf, World.stateOf, putEscrow_get]
      split
      · next hid =>
        have hid : id' = newId := hid
        rw [hid, hnone]
        exact Path.single Step.create
      · exact Effects.Path.refl

/-- An item that the vendor has on offer already is refused. -/
theorem follows_createEscrow (hw : Coherent D w) (dto : CreateEscrowDto) (vendorAddress : String) :
    (createEscrow D dto vendorAddress).wp (alone Reliable) (Follows D off w) w := by
  unfold createEscrow
  refine wp_if (fun _ => hw.follows) fun _ => ?_
  refine wp_if (fun _ => hw.follows) fun _ => ?_
  have hlookup : Keeps D (EscrowRepository.findByVendorAndItem vendorAddress dto.itemRef) :=
    keeps_bind (keeps_quiet rfl) fun _ => keeps_pure _
  refine hlookup.bind_follows hw fun existing w₁ hstill => ?_
  cases existing with
  | some _ => exact hstill.coherent.follows
  | none =>
    have hprofile : Keeps D (ensureVendorProfile D vendorAddress) :=
      keeps_ite (fun _ => keeps_quiet rfl) fun _ => keeps_pure _
    exact hprofile.bind_follows hstill.coherent fun _ w₂ hstill' =>
      follows_create hstill'.coherent dto vendorAddress

/-- A remembered result is returned; otherwise the escrow is created and remembered. -/
theorem follows_createIdempotent (hw : Coherent D w) (key : String) (dto : CreateEscrowDto)
    (vendorAddress : String) :
    (createIdempotent D key dto vendorAddress).wp (alone Reliable)
      (Follows D off w) w := by
  unfold createIdempotent createIdempotentOf
  have hlookup : Keeps D (cachedResult D
      (idempotencyCacheKey key vendorAddress)) :=
    keeps_ite (fun _ => keeps_quiet rfl) fun _ => keeps_pure _
  refine hlookup.bind_follows hw fun cached w₁ hstill => ?_
  cases cached with
  | some entry =>
    exact wp_if (fun _ => hstill.coherent.follows) fun _ => hstill.coherent.follows
  | none =>
    refine follows_andThen_keeps (follows_createEscrow hstill.coherent dto vendorAddress) ?_
    intro result
    cases result with
    | error e => exact keeps_done _
    | ok result =>
      refine keeps_bind ?_ fun _ => keeps_pure _
      exact keeps_ite (fun _ => keeps_quiet rfl) fun _ => keeps_pure _

end TrustLink
