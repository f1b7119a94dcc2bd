import TrustLink.Effects.History
import TrustLink.Model.Switch

/-!
# TrustLink — on what grounds an escrow is written

Every guard of the backend looks at something that was read or answered some calls earlier: a record
from the cache or the database, a signature, the hash of a confirmed transaction. Here each write to
the escrow table is traced back to it. `Grounds` has one constructor for each way an operation may
update a row, with what must stand in *the same execution's* history by then; `Op.Ok` adds the
contract transactions, what may be put into the cache, and what the parties may be told.

`Grounded.prog` says that every operation keeps to this, whatever its calls are answered and whatever
runs in between. What a policy then says about the writes is a case analysis over `Grounds`; the
first is `only_op`, which shapes an update can have.
-/

namespace TrustLink

open Effects

/-- The states a notification is about. -/
def Notification.states : Notification → List EscrowState
  | .notifyFunded => [.FUNDED]
  | .notifyShipped => [.SHIPPED]
  | .notifyDelivered => [.DELIVERED]
  | .notifyDisputed | .notifyDisputedAdmin => [.DISPUTED]
  | .notifyCompleted => [.COMPLETED, .RELEASED]
  | .notifyRefunded => [.REFUNDED]

/-- What is announced of a state is about it. -/
theorem states_of_announced {state : EscrowState} {n : Option Notification}
    (h : n.toList ∈ announcements state) : ∀ m ∈ n, state ∈ m.states := by
  rintro m rfl
  revert h
  cases state <;> cases m <;> decide

/-- What an execution has done so far, newest first. -/
abbrev Trail := List (Event backend)

namespace Trail

variable (past : Trail)

/-- The row was read under this id. -/
def Fetched (id : String) (row : EscrowRow) : Prop :=
  (⟨.db (.escrowFindUnique id), .ok (some row)⟩ : Event backend) ∈ past

/-- The record was read under this id, from the cache or from the database. -/
def Read (id : String) (record : EscrowRecord) : Prop :=
  (⟨.cache (.getEscrow id), .ok (some record)⟩ : Event backend) ∈ past ∨
    ∃ row, past.Fetched id row ∧ toEscrowRecord row = record

/-- The call of the outside world was answered so. -/
def Answered (c : ExtCall) (r : c.Resp) : Prop :=
  (⟨.ext c, .ok r⟩ : Event backend) ∈ past

/-- What is stored for a contact field: nothing, or what the cipher answered for it. -/
def Encrypted (value stored : Option String) : Prop :=
  (truthy value = none ∧ stored = none) ∨
    ∃ plaintext ciphertext, truthy value = some plaintext ∧ stored = some ciphertext ∧
      past.Answered (.encryptContact plaintext) ciphertext

/-- An accepted update has written the state and has left the record. -/
def Left (state : EscrowState) (record : EscrowRecord) : Prop :=
  ∃ id data row, (⟨.db (.escrowUpdate id data), .ok row⟩ : Event backend) ∈ past ∧
    data.state = some state ∧ toEscrowRecord row = record

/-- These are the rows the query of an auto-release cycle has returned. -/
def Found (referenceTime : Time) (rows : List EscrowRow) : Prop :=
  (⟨.db (.escrowFindAutoReleaseEligible (EscrowRepository.autoReleaseCutoff referenceTime)),
    .ok rows⟩ : Event backend) ∈ past

end Trail

/-- The payment an operation processes. -/
def Op.payment : Op → Option StellarWebhookDto
  | .handleEvent _ _ dto => some dto
  | .processOperationDto dto | .handlePayment dto => some dto
  | _ => none

/-- A payment from outside is signed. -/
def Op.Authentic (D : Deployment) : Op → Prop
  | .handleEvent rawBody signature _ => ∃ secret text,
      truthy D.STELLAR_WEBHOOK_SECRET = some secret ∧
      truthy signature = some text ∧ D.signatureMatches secret rawBody text = true
  | _ => True

/-- The records whose release an operation looks after. -/
def Op.Due (past : Trail) (record : EscrowRecord) : Op → Prop
  | .processEscrow snapshot => record = snapshot
  | .autoReleaseCycle referenceTime => ∃ rows row,
      past.Found referenceTime rows ∧ row ∈ rows ∧ record = toEscrowRecord row
  | _ => False

/-- The state a resolution leads to. -/
def Resolution.state : Resolution → EscrowState
  | .RELEASE => .COMPLETED
  | .REFUND => .REFUNDED

/-- What must have happened before an operation updates a row. -/
inductive Grounds (D : Deployment) (past : Trail) : Op → String → EscrowData → Prop
  | cancelled {id callerAddress : String} {isAdmin : Bool} {record : EscrowRecord} (now : Time)
      (hread : past.Read id record)
      (hmay : EscrowService.mayCancel record callerAddress isAdmin = true) :
      Grounds D past (.cancelEscrow id callerAddress isAdmin) id
        { state := some .CANCELLED, cancelledAt := some (some now) }
  | cancelledPending {id callerAddress : String} {isAdmin : Bool} {record : EscrowRecord}
      (now : Time) (hread : past.Read id record)
      (hmay : EscrowService.mayCancel record callerAddress isAdmin = true) :
      Grounds D past (.cancelPendingEscrow id callerAddress isAdmin) id
        { state := some .CANCELLED, cancelledAt := some (some now) }
  | shipped {id vendorAddress trackingId : String} {isAdmin : Bool} {record : EscrowRecord}
      (now : Time) (hread : past.Read id record)
      (hmay : isAdmin = true ∨ record.vendorAddress = vendorAddress) :
      Grounds D past (.handleShipment id vendorAddress trackingId isAdmin) record.id
        { state := some .SHIPPED
          trackingId := some (some (EscrowService.trim trackingId))
          shippedAt := some (some now) }
  | contact {id : String} {dto : UpdateBuyerContactDto} {email phone : Option String}
      (hemail : past.Encrypted dto.email email) (hphone : past.Encrypted dto.phone phone) :
      Grounds D past (.updateBuyerContact id dto) id
        { buyerContactEmail := some email, buyerContactPhone := some phone }
  | synced {event : SorobanChainEvent} {data : EscrowData} (hdata : data.Written) :
      Grounds D past (.syncStateFromChain event) event.escrowId data
  | disputed {id callerAddress : String} {dto : OpenDisputeDto} {record : EscrowRecord}
      (hread : past.Read id record)
      (hinvolved : BuyerDisputeService.isInvolved D record callerAddress = true) :
      Grounds D past (.openDispute id callerAddress dto) id { state := some .DISPUTED }
  | resolved {id : String} {resolution : Resolution} {record : EscrowRecord} {k : Nat}
      {admin txHash : String} (hread : past.Read id record)
      (hk : record.contractEscrowId = some k) (hadmin : truthy D.ADMIN_ADDRESS = some admin)
      (hresolved : past.Answered (.resolveDispute k resolution admin) txHash) :
      Grounds D past (.resolve id resolution) id { state := some resolution.state }
  | funded {op : Op} {dto : StellarWebhookDto} {destination : String} {take : Nat}
      {rows : List EscrowRow} {row : EscrowRow} (hop : op.payment = some dto)
      (hauthentic : op.Authentic D) (hdestination : truthy dto.to_ = some destination)
      (hfound : (⟨.db (.escrowFindByVendor destination take), .ok rows⟩ : Event backend) ∈ past)
      (hrow : row ∈ rows) : Grounds D past op row.id { state := some .FUNDED }
  /-- The delivery is claimed, or its claim is given up. -/
  | deliveryClaim {snapshot : EscrowRecord} (deliveryRecordedAt : Option Time) :
      Grounds D past (.processShipment snapshot) snapshot.id
        { deliveryRecordedAt := some deliveryRecordedAt }
  | delivered {snapshot : EscrowRecord} {k : Nat} {admin txHash : String} (now : Time)
      (hk : snapshot.contractEscrowId = some k) (hadmin : truthy D.ADMIN_ADDRESS = some admin)
      (hrecorded : past.Answered (.recordDelivery k admin) txHash) :
      Grounds D past (.processShipment snapshot) snapshot.id
        { state := some .DELIVERED
          deliveredAt := some (some now)
          deliveryRecordedAt := some (some now) }
  | trackingChecked {snapshot : EscrowRecord} (now : Time) :
      Grounds D past (.processShipment snapshot) snapshot.id
        { trackingCheckedAt := some (some now) }
  | releaseRecorded {op : Op} {record : EscrowRecord} {k : Nat} {source txHash : String}
      (now : Time) (hdue : op.Due past record) (hk : record.contractEscrowId = some k)
      (hsource : truthy D.AUTO_RELEASE_SOURCE_ADDRESS = some source)
      (hsubmitted : past.Answered (.submitAutoRelease k source) txHash) :
      Grounds D past op record.id
        { autoReleaseSubmittedAt := some (some now), autoReleaseTxHash := some (some txHash) }
  | releaseGivenUp {op : Op} {record : EscrowRecord} (hdue : op.Due past record) :
      Grounds D past op record.id { autoReleaseSubmittedAt := some none }

/-- The grounds for the calls that touch an escrow: its row, its cached record, its contract, and
what its parties are told. -/
def Op.Ok (D : Deployment) (op : Op) (past : Trail) : Call → Prop
  | .db (.escrowUpdate id data) => ∃ earlier ⊆ past, Grounds D earlier op id data
  | .db (.escrowUpdateManyUnsubmitted id _) => ∃ record, op.Due past record ∧ record.id = id
  | .cache (.setEscrow id record) => ∃ row, past.Fetched id row ∧ toEscrowRecord row = record
  | .ext (.cancelEscrowOnChain k callerAddress) => ∃ id isAdmin record,
      op = .cancelPendingEscrow id callerAddress isAdmin ∧ past.Read id record ∧
      EscrowService.mayCancel record callerAddress isAdmin = true ∧
      record.contractEscrowId = some k
  | .ext (.resolveDispute k resolution admin) => ∃ id record, op = .resolve id resolution ∧
      past.Read id record ∧ record.contractEscrowId = some k ∧
      truthy D.ADMIN_ADDRESS = some admin
  | .ext (.recordDelivery k admin) => ∃ snapshot, op = .processShipment snapshot ∧
      snapshot.contractEscrowId = some k ∧ truthy D.ADMIN_ADDRESS = some admin
  | .ext (.submitAutoRelease k source) => ∃ record, op.Due past record ∧
      record.contractEscrowId = some k ∧ truthy D.AUTO_RELEASE_SOURCE_ADDRESS = some source
  | .notify n record => ∃ state ∈ n.states, past.Left state record
  | _ => True

/-- The calls that no guard stands before: they read no escrow, and change none that is there. -/
def Call.unguarded : Call → Bool
  | .db (.escrowFindUnique _) | .db (.escrowFindByVendor _ _)
  | .db (.escrowFindAutoReleaseEligible _) | .db (.escrowUpdate _ _)
  | .db (.escrowUpdateManyUnsubmitted _ _) => false
  | .db _ | .newDate | .randomUUID => true
  | _ => false

/-- What no guard stands before needs no grounds. -/
theorem Op.ok_of_unguarded {D : Deployment} {op : Op} {past : Trail} {c : Call}
    (h : c.unguarded = true) : op.Ok D past c := by
  unfold Op.Ok
  split <;> trivial

/-! ## Grounds last

They are read off events, and no event leaves a history. -/

section lasting

variable {past past' : Trail} (hsub : past ⊆ past')
include hsub

theorem Trail.Read.mono {id : String} {record : EscrowRecord} (h : past.Read id record) :
    past'.Read id record := by
  rcases h with hcache | ⟨row, hrow, rfl⟩
  · exact .inl (hsub hcache)
  · exact .inr ⟨row, hsub hrow, rfl⟩

theorem Trail.Encrypted.mono {value stored : Option String} (h : past.Encrypted value stored) :
    past'.Encrypted value stored := by
  rcases h with h | ⟨plaintext, ciphertext, hvalue, hstored, hanswered⟩
  · exact .inl h
  · exact .inr ⟨plaintext, ciphertext, hvalue, hstored, hsub hanswered⟩

theorem Op.Due.mono {op : Op} {record : EscrowRecord} (h : op.Due past record) :
    op.Due past' record := by
  cases op with
  | processEscrow snapshot => exact h
  | autoReleaseCycle referenceTime =>
    obtain ⟨rows, row, hfound, hrow, hrecord⟩ := h
    exact ⟨rows, row, hsub hfound, hrow, hrecord⟩
  | _ => exact h.elim

end lasting

/-- What there are grounds for once there are grounds for ever after. -/
theorem Op.ok_lasting (D : Deployment) (op : Op) : Lasting (S := backend) (op.Ok D) := by
  intro past past' c hsub h
  unfold Op.Ok at h ⊢
  split
  · obtain ⟨earlier, hearlier, hgrounds⟩ := h
    exact ⟨earlier, List.Subset.trans hearlier hsub, hgrounds⟩
  · obtain ⟨record, hdue, hid⟩ := h
    exact ⟨record, hdue.mono hsub, hid⟩
  · obtain ⟨row, hrow, heq⟩ := h
    exact ⟨row, hsub hrow, heq⟩
  · obtain ⟨id, isAdmin, record, hop, hread, hrest⟩ := h
    exact ⟨id, isAdmin, record, hop, hread.mono hsub, hrest⟩
  · obtain ⟨id, record, hop, hread, hrest⟩ := h
    exact ⟨id, record, hop, hread.mono hsub, hrest⟩
  · exact h
  · obtain ⟨record, hdue, hrest⟩ := h
    exact ⟨record, hdue.mono hsub, hrest⟩
  · obtain ⟨state, hstate, id, data, row, hwritten, hrest⟩ := h
    exact ⟨state, hstate, id, data, row, hsub hwritten, hrest⟩
  · trivial

/-! ## Every operation keeps to its grounds

Each operation is followed to the guard that its write stands behind. Up to there the rules carry
what the history shows (`Yields`); from there on the calls that are left are only listed
(`keeps_of_only`). -/

section operations

variable {D : Deployment} {past : Trail} {α β : Type} {op : Op}

namespace Op

/-- The program keeps to the grounds of this operation from here on. -/
abbrev Keeps (D : Deployment) (op : Op) (past : Trail) (p : App α) : Prop :=
  p.wp (.history (op.Ok D)) (fun _ _ => True) past

/-- So it does, and a value it returns is one that its history vouches for. -/
abbrev Yields (D : Deployment) (op : Op) (past : Trail) (p : App α)
    (R : α → Trail → Prop) : Prop :=
  p.wp (.history (op.Ok D)) (fun r past' => ∀ a, r = .ok a → R a past') past

/-- From here on the grounds for all its calls are there. -/
theorem keeps_of_only {p : App α} (h : p.Only (op.Ok D past)) : op.Keeps D past p :=
  wp_of_only (op.ok_lasting D) h

/-- What the first part yields is known to the second. -/
theorem yields_bind {p : App α} {f : α → App β} {R : α → Trail → Prop}
    {R' : β → Trail → Prop} (hp : op.Yields D past p R)
    (hf : ∀ a past', past ⊆ past' → R a past' → op.Yields D past' (f a) R') :
    op.Yields D past (p >>= f) R' :=
  wp_seq (wp_history_grows hp) nofun
    fun a past' h => hf a past' h.1 (h.2 a rfl)

/-- A call there are grounds for yields its answer. -/
theorem yields_call {c : Call} (hok : op.Ok D past c) :
    op.Yields D past (Prog.perform (S := backend) c)
      fun r past' => (⟨c, .ok r⟩ : Event backend) ∈ past' := by
  refine wp_history_perform hok fun r => ?_
  rintro a rfl
  exact List.mem_cons_self

theorem yields_pure {a : α} {R : α → Trail → Prop} (h : R a past) :
    op.Yields D past (pure a) R := by
  rintro _ ⟨⟩
  exact h

theorem yields_throw {e : Err} {R : α → Trail → Prop} : op.Yields D past (throw e) R :=
  nofun

/-- A setting that must not be missing. -/
theorem yields_configured {value : Option String} {e : Err} :
    op.Yields D past
      (match truthy value with
        | none => throw e
        | some text => pure text)
      fun text _ => truthy value = some text := by
  cases truthy value with
  | none => exact yields_throw
  | some text => exact yields_pure rfl

/-- A value about which nothing is asked. -/
theorem Keeps.yields {p : App α} (h : op.Keeps D past p) : op.Yields D past p fun _ _ => True :=
  wp_mono h fun _ _ _ _ _ => trivial

/-- Calls that have their grounds already yield nothing. -/
theorem yields_of_only {p : App α} (h : p.Only (op.Ok D past)) :
    op.Yields D past p fun _ _ => True :=
  (keeps_of_only h).yields

/-- So it is with calls that need no grounds. -/
theorem yields_of_unguarded {p : App α} (h : p.Only fun c : Call => c.unguarded) :
    op.Yields D past p fun _ _ => True :=
  yields_of_only (h.mono fun _ => Op.ok_of_unguarded)

/-! ### The repositories -/

/-- A lookup by id returns a record that the history shows. -/
theorem yields_repository_findById (op : Op) (id : String) :
    op.Yields D past (EscrowRepository.findById D id)
      fun found past' => ∀ record ∈ found, Trail.Read past' id record := by
  have hstored : ∀ past' : Trail, op.Yields D past' (EscrowRepository.findStored D id)
      fun found past'' => ∀ record ∈ found, Trail.Read past'' id record := by
    intro past'
    refine yields_bind (yields_call trivial) fun found past₁ _ hfound => ?_
    cases found with
    | none => exact yields_pure fun _ h => nomatch h
    | some row =>
      -- the row is remembered, if there is a cache, and returned
      have honly : (EscrowRepository.remember D id (toEscrowRecord row)).Only (op.Ok D past₁) :=
        only_ite (only_perform ⟨row, hfound, rfl⟩) (only_pure _)
      refine yields_bind (yields_of_only honly) fun _ past₂ hsub _ => yields_pure ?_
      rintro _ ⟨⟩
      exact .inr ⟨row, hsub hfound, rfl⟩
  rw [EscrowRepository.findById_eq]
  have hcached : op.Yields D past (EscrowRepository.cached D id)
      fun found past' => ∀ record ∈ found, Trail.Read past' id record := by
    rw [EscrowRepository.cached, Yields, wp_ite]
    refine ⟨fun _ => ?_, fun _ => yields_pure fun _ h => nomatch h⟩
    refine wp_mono (yields_call trivial) ?_
    rintro r past' h found rfl record rfl
    exact .inl (h _ rfl)
  refine yields_bind hcached fun found past' _ hfound => ?_
  cases found with
  | none => exact hstored past'
  | some record => exact yields_pure hfound

/-- A lookup through the service, which rejects instead of finding nothing. -/
theorem yields_findById (op : Op) (id : String) :
    op.Yields D past (EscrowService.findById D id)
      fun record past' => Trail.Read past' id record := by
  unfold EscrowService.findById
  rw [Yields, wp_tryCatch, wp_bind]
  refine wp_mono (op.yields_repository_findById id) ?_
  intro found past' hread
  match found with
  | .error e => cases e <;> exact fun _ h => nomatch h
  | .ok none => exact fun _ h => nomatch h
  | .ok (some record) =>
    rintro _ ⟨⟩
    exact hread _ rfl record rfl

/-- An update there are grounds for. -/
theorem only_update {id : String} {data : EscrowData} (h : Grounds D past op id data) :
    (EscrowRepository.update D id data).Only (op.Ok D past) :=
  EscrowRepository.only_update ⟨past, List.Subset.refl _, h⟩ trivial

/-- An update of the state returns the record it has left. -/
theorem yields_update {id : String} {data : EscrowData} {state : EscrowState} {earlier : Trail}
    (h : Grounds D earlier op id data) (hearlier : earlier ⊆ past)
    (hstate : data.state = some state) :
    op.Yields D past (EscrowRepository.update D id data)
      fun record past' => Trail.Left past' state record := by
  refine yields_bind (yields_call (c := .db (.escrowUpdate id data)) ⟨earlier, hearlier, h⟩)
    fun row past₁ _ hwritten => ?_
  refine yields_bind (yields_of_only (EscrowRepository.only_invalidate trivial))
    fun _ past₂ hsub _ => yields_pure ?_
  exact ⟨id, data, row, hsub hwritten, hstate, rfl⟩

/-- An update that is dated first. -/
theorem yields_dated {id : String} {data : Time → EscrowData} {state : EscrowState}
    (h : ∀ now, Grounds D past op id (data now)) (hstate : ∀ now, (data now).state = some state) :
    op.Yields D past (do
        let now ← newDate
        EscrowRepository.update D id (data now))
      fun record past' => Trail.Left past' state record :=
  yields_bind (yields_call (c := .newDate) trivial) fun now _ hsub _ =>
    yields_update (h now) hsub (hstate now)

/-- What is yielded may be forgotten. -/
theorem Yields.keeps {p : App α} {R : α → Trail → Prop} (h : op.Yields D past p R) :
    op.Keeps D past p :=
  wp_mono h fun _ _ _ => trivial

end Op

namespace Grounded

open Op

/-- What the first part yields is known to the second, and is still so there. -/
theorem keeps_bind {p : App α} {f : α → App β} {R : α → Trail → Prop}
    (hp : op.Yields D past p R)
    (hf : ∀ a past', past ⊆ past' → R a past' → op.Keeps D past' (f a)) :
    op.Keeps D past (p >>= f) :=
  wp_seq (wp_history_grows hp) (fun _ _ _ => trivial)
    fun a past' h => hf a past' h.1 (h.2 a rfl)

/-- The handler runs with all that has happened until the error. -/
theorem keeps_tryCatch {p : App α} {handler : Err → App α} (hp : op.Keeps D past p)
    (hh : ∀ e past', past ⊆ past' → op.Keeps D past' (handler e)) :
    op.Keeps D past (Prog.tryCatch p handler) := by
  rw [Op.Keeps, wp_tryCatch]
  refine wp_mono (wp_history_grows hp) ?_
  rintro (e | a) past' ⟨hsub, -⟩
  · exact hh e past' hsub
  · trivial

theorem keeps_ite {c : Prop} [Decidable c] {p q : App α} (hp : op.Keeps D past p)
    (hq : op.Keeps D past q) : op.Keeps D past (if c then p else q) := by
  split
  · exact hp
  · exact hq

theorem keeps_void {p : App α} (hp : op.Keeps D past p) : op.Keeps D past p.void := by
  rw [Op.Keeps, wp_void]
  exact hp

/-! ### Cancellation

The record that was read names who may cancel. -/

/-- The caller is checked against the record that was read under this id. -/
theorem cancelEscrow (id callerAddress : String) (isAdmin : Bool) :
    (Op.cancelEscrow id callerAddress isAdmin).Keeps D past
      (EscrowService.cancelEscrow D id callerAddress isAdmin) := by
  refine keeps_bind (yields_findById _ id) fun record past' _ hread => ?_
  rw [Op.Keeps, wp_ite, wp_ite]
  refine ⟨fun _ => trivial, fun hmay => ⟨fun _ => trivial, fun _ => ?_⟩⟩
  replace hmay := Bool.eq_true_of_not_eq_false hmay
  exact (yields_dated (fun now => .cancelled now hread hmay) fun _ => rfl).keeps

/-- The two calls of a cancellation on the chain. -/
theorem only_cancelOnChain {K : Call → Prop} {k : Nat} {callerAddress : String}
    (hstate : K (.ext (.getEscrowState k)))
    (hok : K (.ext (.cancelEscrowOnChain k callerAddress))) :
    (EscrowService.cancelOnChain k callerAddress).Only K := by
  refine only_bind (only_perform hstate) fun chainState => ?_
  refine only_ite ?_ (only_ite (only_throw _) (only_pure _))
  exact only_bind (only_perform hok) fun _ => only_pure _

/-- The same, and the contract is asked to cancel before the row is written. -/
theorem cancelPendingEscrow (id callerAddress : String) (isAdmin : Bool) :
    (Op.cancelPendingEscrow id callerAddress isAdmin).Keeps D past
      (EscrowService.cancelPendingEscrow D id callerAddress isAdmin) := by
  refine keeps_bind (yields_findById _ id) fun record past₁ _ hread => ?_
  rw [Op.Keeps, wp_ite, wp_ite]
  refine ⟨fun _ => trivial, fun hmay => ⟨fun _ => trivial, fun _ => ?_⟩⟩
  replace hmay := Bool.eq_true_of_not_eq_false hmay
  have hcancelled := fun now => Grounds.cancelledPending (D := D) now hread hmay
  cases hk : record.contractEscrowId with
  | none => exact (yields_dated hcancelled fun _ => rfl).keeps
  | some k =>
    refine keeps_of_only (only_bind (only_cancelOnChain trivial ?_) fun _ =>
      only_bind (only_perform trivial) fun now => only_update (hcancelled now))
    exact ⟨id, isAdmin, record, rfl, hread, hmay, hk⟩

/-! ### Shipment, contact, creation and tracking

Only the first two write a row that is there. -/

/-- The vendor is checked before the row is marked, and the parties are told what was written. -/
theorem handleShipment (id vendorAddress trackingId : String) (isAdmin : Bool) :
    (Op.handleShipment id vendorAddress trackingId isAdmin).Keeps D past
      (EscrowService.handleShipment D id vendorAddress trackingId isAdmin) := by
  unfold EscrowService.handleShipment
  rw [Op.Keeps, wp_ite, wp_ite]
  refine ⟨fun _ => trivial, fun _ => ⟨fun _ => trivial, fun _ => ?_⟩⟩
  refine keeps_bind (yields_findById _ id) fun record past' _ hread => ?_
  rw [Op.Keeps, wp_ite, wp_ite]
  refine ⟨fun _ => trivial, fun hmay => ⟨fun _ => trivial, fun _ => ?_⟩⟩
  have hmay' : isAdmin = true ∨ record.vendorAddress = vendorAddress := by
    cases isAdmin with
    | true => exact .inl rfl
    | false => exact .inr (not_not.mp fun h => hmay ⟨rfl, h⟩)
  cases truthy record.trackingId with
  | some shipped => trivial
  | none =>
    refine keeps_bind (yields_dated (fun now => .shipped now hread hmay') fun _ => rfl)
      fun shipped past'' _ hleft => keeps_of_only ?_
    refine only_bind (only_ite (only_perform trivial) (only_pure _)) fun _ => ?_
    exact only_bind (only_perform ⟨_, by decide, hleft⟩) fun _ => only_pure _

/-- A contact text is what the cipher answered, or nothing. -/
theorem yields_encrypted (value : Option String) :
    op.Yields D past (EscrowService.encrypted value)
      fun stored past' => Trail.Encrypted past' value stored := by
  unfold EscrowService.encrypted
  cases hvalue : truthy value with
  | none => exact yields_pure (.inl ⟨hvalue, rfl⟩)
  | some plaintext =>
    refine yields_bind (yields_call (c := .ext (.encryptContact plaintext)) trivial)
      fun ciphertext past' _ hanswered => yields_pure ?_
    exact .inr ⟨plaintext, ciphertext, hvalue, rfl, hanswered⟩

/-- Both texts are encrypted before either is written. -/
theorem updateBuyerContact (id : String) (dto : UpdateBuyerContactDto) :
    (Op.updateBuyerContact id dto).Keeps D past (EscrowService.updateBuyerContact D id dto) := by
  refine keeps_bind (yields_findById _ id) fun record past₀ _ _ => ?_
  refine keeps_ite trivial (keeps_ite trivial ?_)
  refine keeps_bind (yields_encrypted dto.email) fun email past₁ hsub₁ hemail => ?_
  refine keeps_bind (yields_encrypted dto.phone) fun phone past₂ hsub₂ hphone => ?_
  refine keeps_of_only (only_bind (only_update ?_) fun _ => only_pure _)
  exact .contact (hemail.mono hsub₂) hphone

/-- A creation updates nothing, so that it needs no grounds. -/
theorem only_createEscrow (op : Op) (dto : CreateEscrowDto) (vendorAddress : String) :
    (EscrowService.createEscrow D dto vendorAddress).Only (op.Ok D past) := by
  unfold EscrowService.createEscrow
  apply only_ite (only_throw _)
  apply only_ite (only_throw _)
  refine only_bind (only_bind (only_perform trivial) fun _ => only_pure _) ?_
  intro existing
  cases existing with
  | some _ => exact only_throw _
  | none =>
    refine only_bind (only_ite (only_perform trivial) (only_pure _)) fun _ => ?_
    refine only_bind (only_perform trivial) fun newId => ?_
    exact only_bind (only_perform trivial) fun _ => only_pure _

/-- Neither does a creation that is remembered. -/
theorem only_createIdempotent (op : Op) (key : String) (dto : CreateEscrowDto)
    (vendorAddress : String) :
    (EscrowService.createIdempotent D key dto vendorAddress).Only (op.Ok D past) := by
  refine only_bind (only_ite (only_perform trivial) (only_pure _)) fun cached => ?_
  cases cached with
  | some entry => exact only_ite (only_throw _) (only_pure _)
  | none =>
    refine only_bind (only_createEscrow op dto vendorAddress) fun result => ?_
    exact only_bind (only_ite (only_perform trivial) (only_pure _)) fun _ =>
      only_pure _

/-- The tracking cache holds no escrow. -/
theorem getTracking (id : String) :
    (Op.getTracking id).Keeps D past (EscrowService.getTracking D id) := by
  refine keeps_bind (yields_findById _ id) fun record past' _ _ => keeps_of_only ?_
  cases truthy record.trackingId with
  | none => exact only_throw _
  | some trackingId =>
    refine only_bind (only_ite (only_perform trivial) (only_pure _)) fun cached => ?_
    cases cached with
    | some details => exact only_pure _
    | none =>
      refine only_tryCatch ?_ fun _ => only_throw _
      refine only_bind (only_perform trivial) fun details => ?_
      exact only_bind (only_ite (only_perform trivial) (only_pure _)) fun _ =>
        only_pure _

/-! ### Chain events

The event names the escrow, and its row is written whatever the state is. -/

section chain

variable {event : SorobanChainEvent}

/-- A write may be followed by a notification about the state it has written. -/
theorem keeps_applied {write : App EscrowRecord} {state : EscrowState} {n : Option Notification}
    (hwrite : op.Yields D past write fun record past' => Trail.Left past' state record)
    (hn : ∀ m ∈ n, state ∈ m.states) : op.Keeps D past (EscrowService.applied write n) := by
  refine keeps_bind hwrite fun record past' _ hleft => ?_
  cases n with
  | none => trivial
  | some m =>
    exact keeps_of_only (only_bind (only_perform ⟨state, hn m rfl, hleft⟩) fun _ =>
      only_pure _)

/-- Closing a dispute reads and writes disputes only. -/
theorem only_settleDispute (D : Deployment) (id : String) :
    (EscrowService.settleDispute D id).Only fun c : Call => c.unguarded := by
  refine only_ite (only_bind (only_perform rfl) fun dispute => ?_)
    (only_pure _)
  cases dispute with
  | none => exact only_pure _
  | some dispute =>
    refine only_ite (only_pure _) (only_bind ?_ fun _ => only_pure _)
    exact only_bind (only_perform rfl) fun _ => only_perform rfl

/-- A dispute is recorded in its own table. -/
theorem only_recordDispute (D : Deployment) (event : SorobanChainEvent) :
    (EscrowService.recordDispute D event).Only fun c : Call => c.unguarded := by
  refine only_ite (only_bind (only_perform rfl) fun _ => ?_) (only_pure _)
  exact only_bind (only_perform rfl) fun _ => only_pure _

/-- A mutator leaves its record in the state. -/
theorem yields_mutates {write : App EscrowRecord} {state : EscrowState}
    (h : Mutates D event.escrowId state write) :
    (Op.syncStateFromChain event).Yields D past write
      fun record past' => Trail.Left past' state record := by
  cases h with
  | plain hdata hstate => exact yields_update (.synced hdata) (List.Subset.refl _) hstate
  | dated hdata hstate => exact yields_dated (fun now => .synced (hdata now)) hstate

/-- An event may write the row of its escrow. -/
theorem applyEvent (event : SorobanChainEvent) (record : EscrowRecord) :
    (Op.syncStateFromChain event).Keeps D past (EscrowService.applyEvent D event record) := by
  have happlies := applies_applyEvent (D := D) event record
  generalize EscrowService.applyEvent D event record = p at happlies ⊢
  cases happlies with
  | late => trivial
  | unknown => trivial
  | written _ _ hwrite hnotes =>
    exact keeps_applied (yields_mutates hwrite) (states_of_announced hnotes)
  | raised =>
    refine keeps_ite trivial (keeps_ite trivial ?_)
    refine keeps_bind (yields_of_unguarded (only_recordDispute _ _)) fun _ past' _ _ => ?_
    exact keeps_applied (yields_mutates (.plain (.state _ (by decide)) rfl)) (by decide)
  | resolved =>
    refine keeps_ite trivial ?_
    refine keeps_bind (yields_of_unguarded (only_settleDispute _ _)) fun _ past' _ _ => ?_
    refine keeps_ite (keeps_ite ?_ ?_) trivial
    · exact keeps_applied (yields_mutates (.plain (.state _ (by decide)) rfl)) (by decide)
    · exact keeps_applied (yields_mutates (.plain (.state _ (by decide)) rfl)) (by decide)

/-- An event finds its escrow and is applied to it. -/
theorem syncStateFromChain (event : SorobanChainEvent) :
    (Op.syncStateFromChain event).Keeps D past (EscrowService.syncStateFromChain D event) := by
  refine keeps_bind (yields_repository_findById _ _) fun found past' _ _ => ?_
  cases found with
  | none => trivial
  | some record => exact applyEvent event record

end chain

/-! ### Disputes

The party is checked before anything is written. -/

/-- The escrow is there and the caller is involved in it. -/
theorem yields_authorise (id callerAddress : String) :
    op.Yields D past (BuyerDisputeService.authorise D id callerAddress) fun record past' =>
      Trail.Read past' id record ∧
        BuyerDisputeService.isInvolved D record callerAddress = true := by
  refine yields_bind (op.yields_repository_findById id) fun found past' _ hread => ?_
  cases found with
  | none => exact yields_throw
  | some record =>
    dsimp only
    rw [Op.Yields, wp_ite]
    refine ⟨fun _ => yields_throw, fun hinvolved => yields_pure ?_⟩
    exact ⟨hread record rfl, Bool.eq_true_of_not_eq_false hinvolved⟩

/-- The row is written after the caller was found to be involved. -/
theorem openDispute (id callerAddress : String) (dto : OpenDisputeDto) :
    (Op.openDispute id callerAddress dto).Keeps D past
      (BuyerDisputeService.openDispute D id callerAddress dto) := by
  refine keeps_bind (yields_authorise id callerAddress) fun record past₁ _ hread => ?_
  refine keeps_ite trivial (keeps_ite trivial ?_)
  refine keeps_bind (yields_call trivial) fun dispute past₂ hsub _ => ?_
  refine keeps_bind (yields_update (.disputed hread.1 hread.2) hsub rfl)
    fun escrow past₃ _ hleft => keeps_of_only ?_
  refine only_bind (only_perform ⟨_, by decide, hleft⟩) fun _ => ?_
  exact only_bind (only_perform ⟨_, by decide, hleft⟩) fun _ => only_pure _

/-- A reader is checked as well, and writes nothing. -/
theorem getDispute (id callerAddress : String) :
    (Op.getDispute id callerAddress).Keeps D past
      (BuyerDisputeService.getDispute D id callerAddress) := by
  refine keeps_bind (yields_authorise id callerAddress) fun record past' _ _ => ?_
  refine keeps_of_only (only_bind (only_perform trivial) fun dispute => ?_)
  cases dispute with
  | none => exact only_throw _
  | some dispute => exact only_pure _

/-- The open dispute is looked for and closed. -/
theorem only_settleOpen (id : String) :
    (DisputeService.settleOpen id).Only fun c : Call => c.unguarded := by
  refine only_bind (only_perform rfl) fun dispute => ?_
  cases dispute with
  | none => exact only_pure _
  | some dispute =>
    refine only_bind ?_ fun _ => only_pure _
    exact only_bind (only_perform rfl) fun _ => only_perform rfl

/-- The row follows the contract, which was asked to resolve as the admin. -/
theorem resolve (id : String) (resolution : Resolution) :
    (Op.resolve id resolution).Keeps D past (DisputeService.resolve D id resolution) := by
  refine keeps_bind (yields_repository_findById _ id) fun found past₁ _ hfound => ?_
  cases found with
  | none => trivial
  | some record =>
    have hread := hfound record rfl
    refine keeps_ite trivial (keeps_ite trivial ?_)
    cases hk : record.contractEscrowId with
    | none => trivial
    | some k =>
      refine keeps_bind yields_configured fun admin past₂ hsub₂ hadmin => ?_
      refine keeps_bind (yields_call (c := .ext (.resolveDispute k resolution admin))
        ⟨id, record, rfl, hread.mono hsub₂, hk, hadmin⟩)
        fun txHash past₃ hsub₃ hanswered => ?_
      have hresolved : Grounds D past₃ (.resolve id resolution) id
          { state := some resolution.state } :=
        .resolved ((hread.mono hsub₂).mono hsub₃) hk hadmin hanswered
      refine keeps_bind (yields_of_unguarded (only_settleOpen _)) fun _ past₄ hsub₄ _ => ?_
      cases resolution <;>
        exact keeps_bind (yields_update hresolved hsub₄ rfl) fun _ past₅ _ hleft =>
          keeps_of_only (only_bind (only_perform ⟨_, by decide, hleft⟩) fun _ =>
            only_pure _)

/-! ### Payments

A payment funds escrows that the query for its destination has returned. Where it came in through
the web, the signature was checked before anything else. -/

section payments

variable {dto : StellarWebhookDto}

/-- The answer that lists the vendor's escrows is the ground for funding each of them. -/
theorem handlePayment (hop : op.payment = some dto) (hauthentic : op.Authentic D) :
    op.Keeps D past (StellarWebhookService.handlePayment D dto) := by
  unfold StellarWebhookService.handlePayment
  cases hdestination : truthy dto.to_ with
  | none => trivial
  | some destination =>
    have hrows : op.Yields D past (EscrowRepository.findByVendor destination)
        fun records past' => ∃ rows, records = rows.map toEscrowRecord ∧
          (⟨.db (.escrowFindByVendor destination 20), .ok rows⟩ : Event backend) ∈ past' :=
      yields_bind (yields_call trivial) fun rows _ _ hfound =>
        yields_pure ⟨rows, rfl, hfound⟩
    refine keeps_bind hrows ?_
    rintro _ past' - ⟨rows, rfl, hfound⟩
    -- the answer that names the escrows stays in the history while they are funded
    refine wp_forM (I := fun records past'' => past' ⊆ past'' ∧
        ∀ record ∈ records, ∃ row ∈ rows, toEscrowRecord row = record)
      ?_ (fun _ _ => trivial) _ past' ⟨List.Subset.refl _, fun record hrecord => ?_⟩
    · rintro record records past'' ⟨hsub, hall⟩
      obtain ⟨row, hrow, rfl⟩ := hall record List.mem_cons_self
      have hfund : op.Keeps D past'' (StellarWebhookService.fund D dto (toEscrowRecord row)) := by
        refine keeps_ite trivial (keeps_ite trivial ?_)
        refine keeps_bind (yields_update
          (.funded hop hauthentic hdestination hfound hrow) hsub rfl) fun _ _ _ hleft => ?_
        exact keeps_of_only (only_perform ⟨_, by decide, hleft⟩)
      refine wp_mono (wp_history_grows hfund) ?_
      rintro (e | _) past₃ ⟨hsub₃, -⟩
      · trivial
      · have hrest := fun record' h => hall record' (List.mem_cons_of_mem _ h)
        exact ⟨List.Subset.trans hsub hsub₃, hrest⟩
    · exact List.mem_map.mp (List.mem_filter.mp hrecord).1

/-- The mark of the operation touches no escrow. -/
theorem processOnce (hop : op.payment = some dto) (hauthentic : op.Authentic D) :
    op.Keeps D past (StellarWebhookService.processOnce D dto) := by
  refine keeps_bind (yields_call trivial) fun duplicate past₁ _ _ => ?_
  refine keeps_ite trivial ?_
  refine keeps_bind (yields_call trivial) fun _ past₂ _ _ => ?_
  have hmarked : op.Keeps D past₂ (StellarWebhookService.processMarked D dto) := by
    refine keeps_tryCatch ?_ fun e past₃ _ => keeps_of_only ?_
    · exact keeps_ite (handlePayment hop hauthentic) trivial
    · exact only_bind (only_perform trivial) fun _ => only_throw (S := backend) e
  exact wp_seq hmarked (fun _ _ _ => trivial) fun _ _ _ => trivial

/-- Nothing is processed unless the signature matches. -/
theorem handleEvent (rawBody : String) (signature : Option String) (dto : StellarWebhookDto) :
    (Op.handleEvent rawBody signature dto).Keeps D past
      (StellarWebhookService.handleEvent D rawBody signature dto) := by
  unfold StellarWebhookService.handleEvent StellarWebhookService.verifySignature
  rw [Op.Keeps, wp_bind]
  cases hsecret : truthy D.STELLAR_WEBHOOK_SECRET with
  | none => trivial
  | some secret =>
    cases hsignature : truthy signature with
    | none => trivial
    | some text =>
      refine wp_if (fun hmatches => ?_) fun _ => trivial
      exact wp_seq (processOnce rfl ⟨secret, text, hsecret, hsignature, hmatches⟩)
        (fun _ _ _ => trivial) fun _ _ _ => trivial

/-- A replayed operation is processed without a signature. -/
theorem processOperationDto (dto : StellarWebhookDto) :
    (Op.processOperationDto dto).Keeps D past
      (StellarWebhookService.processOperationDto D dto) :=
  wp_seq (processOnce rfl trivial) (fun _ _ _ => trivial) fun _ _ _ => trivial

end payments

/-! ### The workers

They work from a snapshot, or from the rows a query has returned. -/

section workers

variable {snapshot record : EscrowRecord} {k : Nat}

/-- The row is marked delivered after the contract has recorded the delivery. -/
theorem recordClaimed (hk : snapshot.contractEscrowId = some k) :
    (Op.processShipment snapshot).Keeps D past
      (TrackingPollWorker.recordClaimed D snapshot k) := by
  refine keeps_bind yields_configured fun admin past₁ _ hadmin => ?_
  refine keeps_bind (yields_call (c := .ext (.recordDelivery k admin))
    ⟨snapshot, rfl, hk, hadmin⟩) fun txHash past₂ _ hrecorded => ?_
  refine keeps_bind (yields_call (c := .newDate) trivial) fun now past₃ hsub₃ _ => ?_
  refine keeps_bind (yields_update (.delivered now hk hadmin hrecorded) hsub₃ rfl)
    fun _ past₄ _ hleft => ?_
  exact keeps_of_only
    (only_ite (only_perform ⟨_, by decide, hleft⟩) (only_pure _))

/-- The claim writes its own column only. -/
theorem only_claimDelivery (snapshot : EscrowRecord) :
    (EscrowRepository.claimDelivery D snapshot.id).Only ((Op.processShipment snapshot).Ok D past) := by
  refine only_bind (only_perform trivial) fun found => ?_
  cases found with
  | none => exact only_pure _
  | some row =>
    refine only_ite (only_pure _) (only_bind (only_perform trivial) fun now => ?_)
    exact only_bind (only_update (.deliveryClaim (some now))) fun _ => only_pure _

/-- A claim that came to nothing is given up. -/
theorem deliver (snapshot : EscrowRecord) :
    (Op.processShipment snapshot).Keeps D past (TrackingPollWorker.deliver D snapshot) := by
  unfold TrackingPollWorker.deliver
  split
  next trackingId k htracking hk =>
    refine keeps_bind (yields_call (c := .ext (.getStatus trackingId)) trivial)
      fun status past₁ _ _ => keeps_ite trivial ?_
    refine keeps_bind (yields_of_only (only_claimDelivery snapshot))
      fun claimed past₂ _ _ => ?_
    cases claimed with
    | none => trivial
    | some record =>
      refine keeps_tryCatch (recordClaimed hk) fun e past₃ _ => ?_
      exact keeps_of_only (only_bind (only_update (.deliveryClaim none)) fun _ =>
        only_throw (S := backend) e)
  next => trivial

/-- The snapshot is claimed before the contract is called. -/
theorem processShipment (snapshot : EscrowRecord) :
    (Op.processShipment snapshot).Keeps D past (TrackingPollWorker.processShipment D snapshot) := by
  unfold TrackingPollWorker.processShipment
  rw [Op.Keeps, wp_tryFinally]
  refine wp_mono (deliver snapshot) fun r past' _ => ?_
  refine wp_mono (keeps_void (keeps_of_only (only_bind
    (only_perform trivial) fun now => only_update (.trackingChecked now)))) ?_
  rintro (_ | _) _ _ <;> trivial

/-- The hash that is stored is the one the contract answered. -/
theorem submitClaimed (hdue : op.Due past record) (hk : record.contractEscrowId = some k) :
    op.Keeps D past (AutoReleaseWorker.submitClaimed D record k) := by
  refine keeps_bind yields_configured fun source past₁ hsub₁ hsource => ?_
  refine keeps_bind (yields_call (c := .ext (.submitAutoRelease k source))
    ⟨record, hdue.mono hsub₁, hk, hsource⟩) fun txHash past₂ hsub₂ hsubmitted => ?_
  refine keeps_of_only (only_bind (only_bind (only_perform trivial) fun now =>
    only_update ?_) fun _ => only_pure _)
  exact .releaseRecorded now ((hdue.mono hsub₁).mono hsub₂) hk hsource hsubmitted

/-- The claim itself is made by no update. -/
theorem keeps_markAutoReleaseSubmitting (hdue : op.Due past record) :
    op.Keeps D past (EscrowRepository.markAutoReleaseSubmitting D record.id) := by
  refine keeps_bind (yields_call (c := .newDate) trivial) fun now past₁ hsub₁ _ => ?_
  refine keeps_bind (yields_call (c := .db (.escrowUpdateManyUnsubmitted record.id now))
    ⟨record, hdue.mono hsub₁, rfl⟩) fun n past₂ _ _ => keeps_ite trivial ?_
  refine keeps_bind (op.yields_repository_findById record.id) fun found past₃ _ _ => ?_
  exact keeps_of_only (only_bind (EscrowRepository.only_invalidate trivial) fun _ =>
    only_pure _)

/-- A release is claimed, submitted and recorded for a record that was due. -/
theorem processEscrow (hdue : op.Due past record) :
    op.Keeps D past (AutoReleaseWorker.processEscrow D record) := by
  refine keeps_bind (yields_call trivial) fun dispute past₁ hsub₁ _ => ?_
  cases dispute with
  | some dispute => trivial
  | none =>
    refine keeps_ite trivial ?_
    cases hk : record.contractEscrowId with
    | none => trivial
    | some k =>
      refine keeps_bind (keeps_markAutoReleaseSubmitting (hdue.mono hsub₁)).yields
        fun claimed past₂ hsub₂ _ => ?_
      cases claimed with
      | none => trivial
      | some claimed =>
        have hdue₂ := (hdue.mono hsub₁).mono hsub₂
        refine keeps_tryCatch (submitClaimed hdue₂ hk) fun e past₃ hsub₃ => ?_
        exact keeps_of_only (only_bind (only_update (.releaseGivenUp (hdue₂.mono hsub₃)))
          fun _ => only_throw (S := backend) e)

/-- Each of the rows the query has returned is due. -/
theorem runCycle (referenceTime : Time) :
    (Op.autoReleaseCycle referenceTime).Keeps D past
      (AutoReleaseWorker.runCycle D referenceTime) := by
  refine keeps_tryCatch ?_ fun _ _ _ => trivial
  have hrows : (Op.autoReleaseCycle referenceTime).Yields D past
      (EscrowRepository.findAutoReleaseEligible referenceTime) fun records past' =>
        ∀ record ∈ records, (Op.autoReleaseCycle referenceTime).Due past' record :=
    yields_bind (yields_call trivial) fun rows _ _ hfound => yields_pure fun record h => by
      obtain ⟨row, hrow, rfl⟩ := List.mem_map.mp h
      exact ⟨rows, row, hfound, hrow, rfl⟩
  refine keeps_bind hrows fun records past₁ _ hdue => ?_
  -- what is due for the records still to come is not lost while one of them is processed
  refine wp_forM (I := fun records past' => ∀ record ∈ records,
    (Op.autoReleaseCycle referenceTime).Due past' record) ?_ (fun _ _ => trivial) records past₁ hdue
  intro record records past₂ hdue₂
  have hone : (Op.autoReleaseCycle referenceTime).Keeps D past₂
      (Prog.tryCatch (AutoReleaseWorker.processEscrow D record).void fun _ => pure ()) :=
    keeps_tryCatch (keeps_void (processEscrow (hdue₂ record List.mem_cons_self)))
      fun _ _ _ => trivial
  refine wp_mono (wp_history_grows hone) ?_
  rintro (e | _) past₃ ⟨hsub, -⟩
  · trivial
  · exact fun record hrecord => (hdue₂ record (List.mem_cons_of_mem _ hrecord)).mono hsub

end workers

/-- Every operation keeps to its grounds. -/
theorem prog (D : Deployment) (op : Op) : op.Keeps D [] (op.prog D) := by
  cases op with
  | createEscrow => exact keeps_void (Op.keeps_of_only (only_createEscrow ..))
  | createIdempotent => exact keeps_void (Op.keeps_of_only (only_createIdempotent ..))
  | findById => exact keeps_void (Op.yields_repository_findById ..).keeps
  | getTracking => exact keeps_void (getTracking ..)
  | cancelEscrow => exact keeps_void (cancelEscrow ..)
  | cancelPendingEscrow => exact keeps_void (cancelPendingEscrow ..)
  | handleShipment => exact keeps_void (handleShipment ..)
  | updateBuyerContact => exact keeps_void (updateBuyerContact ..)
  | syncStateFromChain => exact keeps_void (syncStateFromChain ..)
  | openDispute => exact keeps_void (openDispute ..)
  | getDispute => exact keeps_void (getDispute ..)
  | resolve => exact keeps_void (resolve ..)
  | handleEvent => exact keeps_void (handleEvent ..)
  | processOperationDto => exact keeps_void (processOperationDto ..)
  | handlePayment => exact handlePayment rfl trivial
  | processShipment => exact processShipment ..
  | processEscrow => exact keeps_void (processEscrow rfl)
  | autoReleaseCycle => exact runCycle ..

end Grounded

end operations

/-! ## The shapes of the updates -/

/-- What there are grounds for is one of the calls the operation makes. -/
theorem Op.Ok.makes {D : Deployment} {op : Op} {past : Trail} {c : Call} (h : op.Ok D past c) :
    op.Makes c := by
  unfold Op.Makes
  split
  · obtain ⟨earlier, -, hgrounds⟩ := h
    cases hgrounds with
    | cancelled now => exact .inl (.cancelled now)
    | cancelledPending now => exact .inl (.cancelled now)
    | shipped now => exact .inl (.shipped _ now)
    | contact => exact .inr (.inl ⟨_, _, _, rfl, rfl⟩)
    | synced hdata => exact .inl hdata
    | disputed => exact .inl (.state _ (by decide))
    | @resolved _ resolution => cases resolution <;> exact .inl (.state _ (by decide))
    | funded => exact .inl (.state _ (by decide))
    | deliveryClaim deliveryRecordedAt => exact .inl (.claim deliveryRecordedAt)
    | delivered now => exact .inl (.delivered now)
    | trackingChecked now => exact .inr (.inr ⟨_, now, rfl, rfl, rfl⟩)
    | releaseRecorded now => exact .inl (.submitted now _)
    | releaseGivenUp => exact .inl .unsubmitted
  · trivial

namespace Writes

/-- An operation makes no other write. -/
theorem only_op (D : Deployment) (op : Op) : (op.prog D).Only op.Makes :=
  only_of_history (fun _ _ h => h.makes) (Grounded.prog D op)

theorem only_deliver {D : Deployment} {escrow : EscrowRecord} :
    (TrackingPollWorker.deliver D escrow).Only (Op.processShipment escrow).Makes := by
  have hdeliver : (Op.processShipment escrow).Keeps D [] (TrackingPollWorker.deliver D escrow) :=
    Grounded.deliver escrow
  exact only_of_history (fun _ _ h => h.makes) hdeliver

end Writes

end TrustLink
