import Mathlib.Data.Finset.Insert
import Mathlib.Data.Finset.Erase
import TrustLink.Store.Table
import TrustLink.Model.Records

/-!
# TrustLink — the database

The Prisma calls the modelled code makes, each one an atomic step on the tables, with the
constraints of `prisma/schema.prisma`: primary keys, the unique `Dispute.escrowId` and
`(vendorAddress, itemRef)`, and the foreign keys of `Escrow` and `Dispute`. A rejected call
leaves the tables as they were.

What the database decides by itself is passed in: the time of the write (`now`), a generated
id (`fresh`), and the order of rows whose sort keys are equal (`tie`), which Postgres leaves
open.
-/

namespace TrustLink

open Store

structure Db where
  escrows : Table String EscrowRow (·.id)
  /-- By `escrowId`, which is unique. -/
  disputes : Table String Dispute (·.escrowId)
  vendorProfiles : Table String VendorProfile (·.address)
  processedWebhookEvents : Finset String
  /-- `Dispute.id` is the primary key. -/
  disputeId_inj : ∀ d ∈ disputes.rows, ∀ d' ∈ disputes.rows, d.id = d'.id → d = d'

/-- The `data` of `prisma.dispute.create`; an id that is not given is generated. -/
structure NewDispute where
  id : Option String
  escrowId : String
  reason : String
  description : String
  evidenceUrls : List String
  deriving DecidableEq, Repr

inductive DbCall where
  | escrowFindUnique (id : String)
  | escrowFindFirst (vendorAddress itemRef : String)
  | escrowFindByVendor (vendorAddress : String) (take : Nat)
  | escrowFindAutoReleaseEligible (cutoff : Time)
  | escrowCreate (id : String) (dto : CreateEscrowDto) (vendorAddress : String)
  | escrowUpdate (id : String) (data : EscrowData)
  /-- `updateMany` where `{ id, autoReleaseSubmittedAt: null }`. -/
  | escrowUpdateManyUnsubmitted (id : String) (submittedAt : Time)
  | disputeFindFirst (escrowId : String) (statuses : Option (List DisputeStatus))
  | disputeCreate (data : NewDispute)
  | disputeUpdate (id : String) (status : DisputeStatus) (resolvedAt : Time)
  | vendorProfileUpsert (profile : VendorProfile)
  | processedFindUnique (operationId : String)
  | processedCreate (operationId : String)
  | processedDelete (operationId : String)
  deriving DecidableEq

@[reducible] def DbCall.Resp : DbCall → Type
  | .escrowFindUnique _ => Option EscrowRow
  | .escrowFindFirst _ _ => Option EscrowRow
  | .escrowFindByVendor _ _ => List EscrowRow
  | .escrowFindAutoReleaseEligible _ => List EscrowRow
  | .escrowCreate _ _ _ => EscrowRow
  | .escrowUpdate _ _ => EscrowRow
  | .escrowUpdateManyUnsubmitted _ _ => Nat
  | .disputeFindFirst _ _ => Option Dispute
  | .disputeCreate _ => Dispute
  | .disputeUpdate _ _ _ => Dispute
  | .vendorProfileUpsert _ => Unit
  | .processedFindUnique _ => Bool
  | .processedCreate _ => Unit
  | .processedDelete _ => Unit

namespace Db

/-- A database that holds these escrows and nothing else. -/
def ofEscrows (rows : List EscrowRow) : Db where
  escrows := rows.foldl Table.put Table.empty
  disputes := Table.empty
  vendorProfiles := Table.empty
  processedWebhookEvents := ∅
  disputeId_inj := nofun

/-! ## Queries -/

/-- `orderBy: { createdAt: 'desc' }`, rows of one time in the order the database likes. -/
def newestFirst (tie : String → Nat) (a b : EscrowRow) : Prop :=
  b.createdAt < a.createdAt ∨ (a.createdAt = b.createdAt ∧ tie a.id ≤ tie b.id)

instance (tie : String → Nat) : DecidableRel (newestFirst tie) :=
  fun _ _ => inferInstanceAs (Decidable (_ ∨ _))

def findByVendor (db : Db) (tie : String → Nat) (vendorAddress : String) (take : Nat) :
    List EscrowRow :=
  ((db.escrows.rows.filter (·.vendorAddress = vendorAddress)).insertionSort
    (newestFirst tie)).take take

/-- A page shows no escrow twice. -/
theorem findByVendor_ids_nodup (db : Db) (tie : String → Nat) (vendorAddress : String)
    (take : Nat) : ((db.findByVendor tie vendorAddress take).map (·.id)).Nodup := by
  have hsorted : ((db.escrows.rows.filter (·.vendorAddress = vendorAddress)).insertionSort
      (newestFirst tie)).Perm (db.escrows.rows.filter (·.vendorAddress = vendorAddress)) :=
    List.perm_insertionSort _ _
  have hall : ((db.escrows.rows.filter (·.vendorAddress = vendorAddress)).map (·.id)).Nodup :=
    List.Nodup.sublist (List.Sublist.map _ List.filter_sublist) db.escrows.rows_keys_nodup
  exact List.Nodup.sublist (List.Sublist.map _ (List.take_sublist _ _))
    ((hsorted.map _).nodup_iff.mpr hall)

theorem mem_findByVendor {db : Db} {tie : String → Nat} {vendorAddress : String} {take : Nat}
    {row : EscrowRow} (h : row ∈ db.findByVendor tie vendorAddress take) :
    db.escrows.get row.id = some row ∧ row.vendorAddress = vendorAddress := by
  have hsorted := List.mem_of_mem_take h
  rw [List.mem_insertionSort, List.mem_filter] at hsorted
  exact ⟨db.escrows.mem_rows_iff.mp hsorted.1, of_decide_eq_true hsorted.2⟩

/-- The `where` of `findAutoReleaseEligible`. -/
def autoReleaseEligible (cutoff : Time) (row : EscrowRow) : Bool :=
  row.state = .DELIVERED && (row.deliveredAt.elim false fun t => decide (t ≤ cutoff)) &&
    row.disputeId.isNone && row.autoReleaseTxHash.isNone && row.autoReleaseSubmittedAt.isNone

/-- `orderBy: [{ deliveredAt: 'asc' }, { id: 'asc' }]`. -/
def oldestDelivery (a b : EscrowRow) : Prop :=
  a.deliveredAt.getD 0 < b.deliveredAt.getD 0 ∨
    (a.deliveredAt.getD 0 = b.deliveredAt.getD 0 ∧ a.id ≤ b.id)

instance : DecidableRel oldestDelivery := fun _ _ => inferInstanceAs (Decidable (_ ∨ _))

def findAutoReleaseEligible (db : Db) (cutoff : Time) : List EscrowRow :=
  (db.escrows.rows.filter (autoReleaseEligible cutoff)).insertionSort oldestDelivery

theorem mem_findAutoReleaseEligible {db : Db} {cutoff : Time} {row : EscrowRow}
    (h : row ∈ db.findAutoReleaseEligible cutoff) :
    db.escrows.get row.id = some row ∧ autoReleaseEligible cutoff row = true := by
  rw [findAutoReleaseEligible, List.mem_insertionSort, List.mem_filter] at h
  exact ⟨db.escrows.mem_rows_iff.mp h.1, h.2⟩

def findDispute (db : Db) (escrowId : String) (statuses : Option (List DisputeStatus)) :
    Option Dispute :=
  (db.disputes.get escrowId).filter fun d => statuses.elim true (·.contains d.status)

/-- Without a filter, the dispute of the escrow. -/
theorem findDispute_none (db : Db) (escrowId : String) :
    db.findDispute escrowId none = db.disputes.get escrowId := by
  unfold findDispute
  cases db.disputes.get escrowId <;> rfl

/-! ## Writes -/

/-- A new row as `prisma.escrow.create` stores it. -/
def newEscrow (id : String) (dto : CreateEscrowDto) (vendorAddress : String) (now : Time) :
    EscrowRow where
  id := id
  contractEscrowId := none
  itemName := dto.itemName
  itemRef := dto.itemRef
  currency := dto.currency
  buyerAddress := dto.buyerAddress
  vendorAddress := vendorAddress
  state := .CREATED
  trackingId := none
  trackingCheckedAt := none
  shippedAt := none
  deliveredAt := none
  deliveryRecordedAt := none
  autoReleaseSubmittedAt := none
  autoReleaseTxHash := none
  disputeId := none
  buyerContactEmail := none
  buyerContactPhone := none
  cancelledAt := none
  createdAt := now
  updatedAt := now
  amount := dto.amount

/-- An escrow to run things on: a lamp, one unit of `10⁻⁸ USDC`. -/
def lampEscrow (state : EscrowState) : EscrowRow :=
  { newEscrow "e1"
      { itemName := "lamp"
        itemRef := "lamp-1"
        amount := ⟨1⟩
        currency := "USDC"
        buyerAddress := "buyer" } "vendor" 0 with
    state := state }

def putEscrow (db : Db) (row : EscrowRow) : Db := { db with escrows := db.escrows.put row }

def newDispute (data : NewDispute) (fresh : String) (now : Time) : Dispute where
  id := data.id.getD fresh
  escrowId := data.escrowId
  reason := data.reason
  description := data.description
  evidenceUrls := data.evidenceUrls
  status := .OPEN
  resolvedAt := none
  createdAt := now
  updatedAt := now

theorem mem_disputes_put {t : Table String Dispute (·.escrowId)} {d d' : Dispute}
    (h : d' ∈ (t.put d).rows) : d' = d ∨ (d'.escrowId ≠ d.escrowId ∧ d' ∈ t.rows) := by
  rw [Table.mem_rows_iff, Table.get_put] at h
  split at h
  · exact .inl (Option.some.inj h).symm
  · next hne => exact .inr ⟨hne, t.mem_rows_iff.mpr h⟩

/-- Insert a dispute whose primary key no stored dispute has. -/
def addDispute (db : Db) (d : Dispute) (hfresh : ∀ d' ∈ db.disputes.rows, d'.id ≠ d.id) : Db where
  escrows := db.escrows
  disputes := db.disputes.put d
  vendorProfiles := db.vendorProfiles
  processedWebhookEvents := db.processedWebhookEvents
  disputeId_inj := by
    intro a ha b hb hab
    rcases mem_disputes_put ha with had | ⟨_, haold⟩ <;>
      rcases mem_disputes_put hb with hbd | ⟨_, hbold⟩
    · rw [had, hbd]
    · exact absurd (hab.symm.trans (by rw [had])) (hfresh b hbold)
    · exact absurd (hab.trans (by rw [hbd])) (hfresh a haold)
    · exact db.disputeId_inj a haold b hbold hab

/-- Replace a stored dispute; its primary key and its escrow stay. -/
def setDispute (db : Db) (d d' : Dispute) (hd : d ∈ db.disputes.rows) (hid : d'.id = d.id)
    (hesc : d'.escrowId = d.escrowId) : Db where
  escrows := db.escrows
  disputes := db.disputes.put d'
  vendorProfiles := db.vendorProfiles
  processedWebhookEvents := db.processedWebhookEvents
  disputeId_inj := by
    -- an old row with the new row's id is the row it replaces, so it is gone
    have hold : ∀ x ∈ db.disputes.rows, x.escrowId ≠ d'.escrowId → x.id ≠ d'.id := by
      intro x hx hne hxid
      have hxd : x = d := db.disputeId_inj x hx d hd (hxid.trans hid)
      exact hne (by rw [hxd, hesc])
    intro a ha b hb hab
    rcases mem_disputes_put ha with had | ⟨hane, haold⟩ <;>
      rcases mem_disputes_put hb with hbd | ⟨hbne, hbold⟩
    · rw [had, hbd]
    · exact absurd (hab.symm.trans (by rw [had])) (hold b hbold hbne)
    · exact absurd (hab.trans (by rw [hbd])) (hold a haold hane)
    · exact db.disputeId_inj a haold b hbold hab

/-! ## The calls -/

/-- `prisma.escrow.create`. -/
def createEscrow (db : Db) (now : Time) (id : String) (dto : CreateEscrowDto)
    (vendorAddress : String) : Except PrismaError EscrowRow × Db :=
  if (db.escrows.get id).isSome ∨
      db.escrows.rows.any (fun r => r.vendorAddress = vendorAddress && r.itemRef = dto.itemRef) then
    (.error .uniqueConstraint, db)
  else if (db.vendorProfiles.get vendorAddress).isNone then (.error .foreignKey, db)
  else
    let row := newEscrow id dto vendorAddress now
    (.ok row, db.putEscrow row)

/-- `prisma.escrow.update` where `{ id }`. -/
def updateEscrow (db : Db) (now : Time) (id : String) (data : EscrowData) :
    Except PrismaError EscrowRow × Db :=
  match db.escrows.get id with
  | none => (.error .recordNotFound, db)
  | some row =>
    let row' := row.update data now
    (.ok row', db.putEscrow row')

/-- `prisma.escrow.updateMany` where `{ id, autoReleaseSubmittedAt: null }`: predicate and write
in one step, answered by the number of rows written. -/
def updateManyUnsubmitted (db : Db) (now : Time) (id : String) (submittedAt : Time) : Nat × Db :=
  match db.escrows.get id with
  | none => (0, db)
  | some row =>
    if row.autoReleaseSubmittedAt.isNone then
      (1, db.putEscrow (row.update { autoReleaseSubmittedAt := some (some submittedAt) } now))
    else (0, db)

/-- `prisma.dispute.create`. -/
def createDispute (db : Db) (now : Time) (fresh : String) (data : NewDispute) :
    Except PrismaError Dispute × Db :=
  let d := newDispute data fresh now
  if (db.disputes.get data.escrowId).isSome then (.error .uniqueConstraint, db)
  else if h : ∀ d' ∈ db.disputes.rows, d'.id ≠ d.id then
    if (db.escrows.get data.escrowId).isNone then (.error .foreignKey, db)
    else (.ok d, db.addDispute d h)
  else (.error .uniqueConstraint, db)

/-- `prisma.dispute.update` where `{ id }`. -/
def updateDispute (db : Db) (now : Time) (id : String) (status : DisputeStatus)
    (resolvedAt : Time) : Except PrismaError Dispute × Db :=
  match h : db.disputes.rows.find? (·.id = id) with
  | none => (.error .recordNotFound, db)
  | some d =>
    let d' := { d with status := status, resolvedAt := some resolvedAt, updatedAt := now }
    (.ok d', db.setDispute d d' (List.mem_of_find?_eq_some h) rfl rfl)

/-- One call, answered. -/
def exec (now : Time) (fresh : String) (tie : String → Nat) :
    (c : DbCall) → Db → Except PrismaError c.Resp × Db
  | .escrowFindUnique id, db => (.ok (db.escrows.get id), db)
  | .escrowFindFirst vendorAddress itemRef, db =>
    (.ok (((db.escrows.rows.filter fun r =>
      r.vendorAddress = vendorAddress && r.itemRef = itemRef).insertionSort
        (fun a b => newestFirst tie b a)).head?), db)
  | .escrowFindByVendor vendorAddress take, db => (.ok (db.findByVendor tie vendorAddress take), db)
  | .escrowFindAutoReleaseEligible cutoff, db => (.ok (db.findAutoReleaseEligible cutoff), db)
  | .escrowCreate id dto vendorAddress, db => db.createEscrow now id dto vendorAddress
  | .escrowUpdate id data, db => db.updateEscrow now id data
  | .escrowUpdateManyUnsubmitted id submittedAt, db =>
    let r := db.updateManyUnsubmitted now id submittedAt
    (.ok r.1, r.2)
  | .disputeFindFirst escrowId statuses, db => (.ok (db.findDispute escrowId statuses), db)
  | .disputeCreate data, db => db.createDispute now fresh data
  | .disputeUpdate id status resolvedAt, db => db.updateDispute now id status resolvedAt
  | .vendorProfileUpsert profile, db =>
    -- an existing profile is left untouched: `update: {}`
    (.ok (), if (db.vendorProfiles.get profile.address).isSome then db
      else { db with vendorProfiles := db.vendorProfiles.put profile })
  | .processedFindUnique operationId, db =>
    (.ok (decide (operationId ∈ db.processedWebhookEvents)), db)
  | .processedCreate operationId, db =>
    if operationId ∈ db.processedWebhookEvents then (.error .uniqueConstraint, db)
    else (.ok (), { db with
      processedWebhookEvents := insert operationId db.processedWebhookEvents })
  | .processedDelete operationId, db =>
    if operationId ∈ db.processedWebhookEvents then
      (.ok (), { db with processedWebhookEvents := db.processedWebhookEvents.erase operationId })
    else (.error .recordNotFound, db)

end Db

end TrustLink
