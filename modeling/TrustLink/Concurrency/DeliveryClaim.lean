import TrustLink.Effects.Claim
import TrustLink.Model.Frame
import TrustLink.Concurrency.Session
import TrustLink.Data.Lists

/-!
# TrustLink — the delivery claim

`claimDelivery` is meant to be a lock like the auto-release claim, but it is not one conditional
write: it reads the row, finds it `SHIPPED` with `deliveryRecordedAt` null, and then sets the
column by id. Two workers that have both read the free column both get the claim, and the one
whose contract call fails clears the column the other has set: `delivery_claimed_twice` is such a
run, and it ends with an escrow that is `DELIVERED` and has no `deliveryRecordedAt`.

`delivery_exclusive` says that the race is all there is to it. It is the check-then-act rule of
`Effects/Claim.lean`: in every run in which no write of an escrow takes the free column away from a
worker that has read it and may still claim it, claims are separated by clears, at most one
`recordDelivery` for an escrow is in flight, and every `DELIVERED` escrow has the column set.
-/

namespace TrustLink

open Effects TrackingPollWorker

/-! ## What a worker holds

The monitor of a visit: nothing is held, the column was read free, or the claim was written. An
update is allowed with what it needs. -/

/-- What an update means for the delivery claim. -/
inductive DeliveryWrite where
  | claim
  | clear
  | deliver
  | other
  | foreign
  deriving DecidableEq, Repr

/-- `claimDelivery`, `clearDeliveryClaim`, `markDelivered`, an update that writes neither the state
nor the column, and what no worker writes. -/
def EscrowData.deliveryWrite (data : EscrowData) : DeliveryWrite :=
  match data.state, data.deliveryRecordedAt with
  | none, some (some _) => .claim
  | none, some none => .clear
  | some .DELIVERED, some (some _) => .deliver
  | none, none => .other
  | _, _ => .foreign

inductive Hold where
  | nothing
  /-- The escrow was read `SHIPPED` and unclaimed. -/
  | sawFree
  | claim
  deriving DecidableEq, Repr

/-- A visit of one escrow by a worker. -/
structure Courier where
  escrowId : String
  hold : Hold
  deriving DecidableEq, Repr

namespace Courier

/-- The row as `claimDelivery` wants it. -/
def claimable (row : EscrowRow) : Bool := row.state = .SHIPPED && row.deliveryRecordedAt.isNone

def written (v : Courier) (data : EscrowData) : Courier :=
  match data.deliveryWrite with
  | .claim => { v with hold := .claim }
  | .clear | .deliver => { v with hold := .nothing }
  | .other | .foreign => v

def next (v : Courier) : (c : Call) → Except Err c.Resp → Courier
  | .db (.escrowFindUnique _), .ok (some row) =>
    if claimable row then { v with hold := .sawFree } else v
  | .db (.escrowUpdate _ data), .ok _ => v.written data
  | _, _ => v

/-- What must be held for an update. -/
def mayWrite (v : Courier) (data : EscrowData) : Prop :=
  match data.deliveryWrite with
  | .claim => v.hold = .sawFree
  | .clear | .deliver => v.hold = .claim
  | .other => True
  | .foreign => False

def ok (v : Courier) : Call → Prop
  | .db (.escrowFindUnique id) => id = v.escrowId ∧ v.hold = .nothing
  | .db (.escrowUpdate id data) => id = v.escrowId ∧ v.mayWrite data
  | .ext (.recordDelivery _ _) => v.hold = .claim
  | c => c.writesRows = false

def Knows (v : Courier) (id : String) : Prop := v.escrowId = id ∧ v.hold = .sawFree

def Owns (v : Courier) (id : String) : Prop := v.escrowId = id ∧ v.hold = .claim

/-- What an update that `v` may make does to the row, and what is held after it. -/
inductive Write (v : Courier) (data : EscrowData) : DeliveryWrite → Courier → Prop
  | claim (t : Time) (hheld : v.hold = .sawFree) (hstate : data.state = none)
      (hcolumn : data.deliveryRecordedAt = some (some t)) :
      Write v data .claim { v with hold := .claim }
  | clear (hheld : v.hold = .claim) (hstate : data.state = none)
      (hcolumn : data.deliveryRecordedAt = some none) :
      Write v data .clear { v with hold := .nothing }
  | deliver (t : Time) (hheld : v.hold = .claim) (hstate : data.state = some .DELIVERED)
      (hcolumn : data.deliveryRecordedAt = some (some t)) :
      Write v data .deliver { v with hold := .nothing }
  | other (hstate : data.state = none) (hcolumn : data.deliveryRecordedAt = none) :
      Write v data .other v

end Courier

/-- Every execution visits the escrow it was started with. -/
def courier : Monitor backend EscrowRecord Courier where
  init escrow := ⟨escrow.id, .nothing⟩
  next := Courier.next
  ok := Courier.ok
  ans _ := Session.answered

/-- The call may claim the escrow: the update of `claimDelivery`. -/
def ClaimsDelivery (id : String) (c : Call) : Prop :=
  ∃ data, c = .db (.escrowUpdate id data) ∧ data.deliveryWrite = .claim

/-- The escrow is `SHIPPED` and unclaimed. -/
def Unclaimed (id : String) (w : World) : Prop :=
  ∃ row, w.db.escrows.get id = some row ∧ Courier.claimable row = true

/-- The column is set. -/
def DeliveryRecorded (id : String) (w : World) : Prop :=
  ∃ row, w.db.escrows.get id = some row ∧ row.deliveryRecordedAt ≠ none

section courier

variable {v : Courier} {c : Call} {w : World} {ch : Choice} {id : String} {data : EscrowData}

/-- A visit is of one escrow. -/
@[simp] theorem Courier.next_escrowId (v : Courier) (c : Call) (r : Except Err c.Resp) :
    (v.next c r).escrowId = v.escrowId := by
  unfold Courier.next Courier.written
  repeat' split
  all_goals rfl

/-- Calls other than the read and the update leave a visit as it is. -/
theorem Courier.next_other (v : Courier) {c : Call} (r : Except Err c.Resp)
    (hfind : ∀ id, c ≠ .db (.escrowFindUnique id))
    (hupdate : ∀ id data, c ≠ .db (.escrowUpdate id data)) : v.next c r = v := by
  unfold Courier.next
  split
  · next id row => exact absurd rfl (hfind id)
  · next id data row => exact absurd rfl (hupdate id data)
  · rfl

/-- A rejected call changes nothing. -/
theorem Courier.next_error (v : Courier) (c : Call) (e : Err) : v.next c (.error e) = v := by
  unfold Courier.next
  split
  · contradiction
  · contradiction
  · rfl

/-- A call the monitor allows writes no row, or is an update of the escrow that is visited. -/
theorem Courier.ok_cases (hok : v.ok c) :
    c.writesRows = false ∨
      ∃ data, c = .db (.escrowUpdate v.escrowId data) ∧ v.mayWrite data := by
  cases c with
  | db c =>
    cases c with
    | escrowUpdate id data =>
      obtain ⟨rfl, hmay⟩ := hok
      exact .inr ⟨data, rfl, hmay⟩
    | escrowFindUnique id => exact .inl rfl
    | _ => exact .inl hok
  | ext c => exact .inl rfl
  | _ => exact .inl hok

/-- What `claimDelivery` looks for. -/
theorem claimable_iff {row : EscrowRow} :
    Courier.claimable row = true ↔ row.state = .SHIPPED ∧ row.deliveryRecordedAt = none := by
  simp [Courier.claimable]

/-- A column that can be claimed is not set. -/
theorem not_recorded_of_unclaimed (h : Unclaimed id w) : ¬ DeliveryRecorded id w := by
  rintro ⟨row, hrow, hset⟩
  obtain ⟨row', hrow', hfree⟩ := h
  rw [hrow] at hrow'
  cases hrow'
  exact hset (claimable_iff.mp hfree).2

theorem Courier.write_of_mayWrite (h : v.mayWrite data) :
    v.Write data data.deliveryWrite (v.written data) := by
  unfold Courier.mayWrite at h
  unfold Courier.written
  cases hkind : data.deliveryWrite with
  | foreign => rw [hkind] at h; exact h.elim
  | _ =>
    rw [hkind] at h
    unfold EscrowData.deliveryWrite at hkind
    split at hkind <;> cases hkind
    all_goals constructor <;> assumption

/-- The other rows after an accepted update. -/
theorem updated_get_ne {row : EscrowRow} (data : EscrowData) (now : Time)
    (hrow : w.db.escrows.get id = some row)
    {id' : String} (hne : id' ≠ id) :
    (w.updated row data now).db.escrows.get id' = w.db.escrows.get id' := by
  rw [World.updated, putEscrow_get, EscrowRow.update_id, get_id hrow, if_neg hne]

/-- The row itself. -/
theorem updated_get_self {row : EscrowRow} {now : Time} (hrow : w.db.escrows.get id = some row) :
    (w.updated row data now).db.escrows.get id = some (row.update data now) := by
  rw [World.updated, putEscrow_get, EscrowRow.update_id, get_id hrow, if_pos rfl]

/-- A predicate of the row is kept where rows are not written. -/
theorem same_get (hc : c.writesRows = false) (id : String) :
    (handle ch c w).2.db.escrows.get id = w.db.escrows.get id := by
  rw [(handle_sameRows ch w c hc).1]

/-- What a visit holds after a call that writes no row: what it held, or a column just read. -/
theorem Courier.next_reading (v : Courier) (ch : Choice) (w : World) (hc : c.writesRows = false) :
    v.next c (handle ch c w).1 = v ∨
      (∃ row, c = .db (.escrowFindUnique v.escrowId) ∧
        w.db.escrows.get v.escrowId = some row ∧ Courier.claimable row = true ∧
        v.next c (handle ch c w).1 = { v with hold := .sawFree }) ∨
      ∃ id, id ≠ v.escrowId ∧ c = .db (.escrowFindUnique id) := by
  by_cases hfind : ∃ id, c = .db (.escrowFindUnique id)
  · obtain ⟨id, rfl⟩ := hfind
    by_cases hid : id = v.escrowId
    · subst hid
      simp only [handle, handleDb]
      cases ch.fault (.escrowFindUnique v.escrowId) with
      | some e => exact .inl rfl
      | none =>
        simp only [Db.exec]
        cases hrow : w.db.escrows.get v.escrowId with
        | none => exact .inl rfl
        | some row =>
          simp only [Courier.next]
          split
          · next hfree => exact .inr (.inl ⟨row, trivial, rfl, hfree, rfl⟩)
          · exact .inl rfl
    · exact .inr (.inr ⟨id, hid, rfl⟩)
  · refine .inl (v.next_other _ (fun id h => hfind ⟨id, h⟩) ?_)
    intro id data h
    rw [h] at hc
    cases hc

/-- A claim is not read. -/
theorem Courier.owns_of_reading (hok : v.ok c) (hc : c.writesRows = false)
    (h : (v.next c (handle ch c w).1).Owns id) : v.Owns id := by
  rcases v.next_reading ch w hc with
    hv | ⟨row, rfl, _, _, hv⟩ | ⟨id', hne, rfl⟩
  · rw [hv] at h
    exact h
  · rw [hv] at h
    cases h.2
  · exact absurd hok.1 hne

/-- A set column stays set under every update but a clear. -/
theorem recorded_updated (id : String) {row : EscrowRow} (now : Time)
    (hrow : w.db.escrows.get v.escrowId = some row) (hmay : v.mayWrite data)
    (hclear : data.deliveryWrite = .clear → id ≠ v.escrowId)
    (h : DeliveryRecorded id w) : DeliveryRecorded id (w.updated row data now) := by
  obtain ⟨row', hrow', hset⟩ := h
  by_cases hid : id = v.escrowId
  · subst hid
    rw [hrow] at hrow'
    cases hrow'
    refine ⟨_, updated_get_self hrow, ?_⟩
    rw [EscrowRow.update_deliveryRecordedAt]
    have hwrite := Courier.write_of_mayWrite hmay
    generalize data.deliveryWrite = kind, v.written data = v' at hwrite hclear
    cases hwrite with
    | claim t _ _ hcolumn | deliver t _ _ hcolumn =>
      rw [hcolumn]
      exact Option.some_ne_none t
    | clear => exact absurd rfl (hclear rfl)
    | other _ hcolumn =>
      rw [hcolumn]
      exact hset
  · rw [← updated_get_ne data now hrow hid] at hrow'
    exact ⟨row', hrow', hset⟩

/-- An accepted update that sets the column. -/
theorem recorded_of_set {row : EscrowRow} {now t : Time} (hrow : w.db.escrows.get id = some row)
    (hcolumn : data.deliveryRecordedAt = some (some t)) :
    DeliveryRecorded id (w.updated row data now) := by
  refine ⟨_, updated_get_self hrow, ?_⟩
  rw [EscrowRow.update_deliveryRecordedAt, hcolumn]
  exact Option.some_ne_none t

end courier

/-! ## The claim as a lock

The column is the lock of the library's `Claim`, and these are its side conditions. -/

section lock

variable {v : Courier} {c : Call} {w : World} {ch : Choice}

/-- What a worker knows to be free it has just read, or it has not touched. -/
theorem courier_reads (hok : v.ok c) (id : String) (h : (v.next c (handle ch c w).1).Knows id) :
    Unclaimed id (handle ch c w).2 ∨
      (v.Knows id ∧ (Unclaimed id w → Unclaimed id (handle ch c w).2)) := by
  rcases Courier.ok_cases hok with hreads | ⟨data, rfl, hmay⟩
  · have hsame : Unclaimed id (handle ch c w).2 ↔ Unclaimed id w := by
      unfold Unclaimed
      rw [same_get hreads]
    rw [hsame]
    rcases v.next_reading ch w hreads with
      hv | ⟨row, rfl, hrow, hfree, hv⟩ | ⟨id', hne, rfl⟩
    · rw [hv] at h
      exact .inr ⟨h, fun hw => hw⟩
    · rw [hv] at h
      obtain ⟨rfl, _⟩ := h
      exact .inl ⟨row, hrow, hfree⟩
    · exact absurd hok.1 hne
  · rcases handle_escrowUpdate ch w v.escrowId data with ⟨e, heq⟩ | ⟨_, row, hrow, heq⟩
    · rw [heq] at h ⊢
      rw [Courier.next_error] at h
      exact .inr ⟨h, fun hw => hw⟩
    · rw [heq] at h ⊢
      -- a write of its own kind ends the knowledge; any other write leaves the row claimable
      have h : (v.written data).Knows id := h
      have hwrite := Courier.write_of_mayWrite hmay
      generalize data.deliveryWrite = kind, v.written data = v' at hwrite h
      cases hwrite with
      | claim | clear | deliver => cases h.2
      | other hstate hcolumn =>
        refine .inr ⟨h, ?_⟩
        rintro ⟨row', hrow', hfree⟩
        obtain ⟨rfl, _⟩ := h
        rw [hrow] at hrow'
        cases hrow'
        refine ⟨_, updated_get_self hrow, ?_⟩
        rw [claimable_iff] at hfree ⊢
        rw [EscrowRow.update_state, EscrowRow.update_deliveryRecordedAt, hstate, hcolumn]
        exact hfree

/-- The claim column is a lock. -/
theorem courier_locks (hok : v.ok c)
    (hfacts : ∀ id, v.Knows id → ClaimsDelivery id c → Unclaimed id w)
    (howned : ∀ id, v.Owns id → DeliveryRecorded id w) (id : String) :
    courier.LockStep (M := world) Courier.Owns DeliveryRecorded v c w ch id := by
  rcases Courier.ok_cases hok with hreads | ⟨data, rfl, hmay⟩
  · have hsame : DeliveryRecorded id (handle ch c w).2 ↔ DeliveryRecorded id w := by
      unfold DeliveryRecorded
      rw [same_get hreads]
    constructor
    · intro h
      have hbefore := Courier.owns_of_reading hok hreads h
      exact ⟨hsame.mpr (howned id hbefore), .inl hbefore⟩
    · intro hset
      exact .inl (hsame.mpr hset)
  · rcases handle_escrowUpdate ch w v.escrowId data with ⟨e, heq⟩ | ⟨_, row, hrow, heq⟩
    · refine Monitor.lockStep_of_handle (M := world) heq (fun h => ?_) Or.inl
      have h : (v.next _ (.error e)).Owns id := h
      rw [Courier.next_error] at h
      exact ⟨howned id h, .inl h⟩
    · have hkept := fun hclear => recorded_updated id ch.now hrow hmay hclear
      have hwrite := Courier.write_of_mayWrite hmay
      have hclaims : data.deliveryWrite = .claim → ClaimsDelivery v.escrowId _ :=
        fun hkind => ⟨data, rfl, hkind⟩
      refine Monitor.lockStep_of_handle (M := world) heq (fun h => ?_) fun hlocked => ?_
      · -- an owner after the update is one that has just claimed, or was one and wrote nothing
        have h : (v.written data).Owns id := h
        generalize data.deliveryWrite = kind, v.written data = v' at hwrite h hkept hclaims
        cases hwrite with
        | claim t hread _ hcolumn =>
          obtain ⟨rfl, _⟩ := h
          refine ⟨recorded_of_set hrow hcolumn, .inr ?_⟩
          exact not_recorded_of_unclaimed (hfacts v.escrowId ⟨rfl, hread⟩ (hclaims rfl))
        | clear | deliver => cases h.2
        | other => exact ⟨hkept nofun (howned id h), .inl h⟩
      · show _ ∨ v.Owns id ∧ ¬ (v.written data).Owns id
        generalize data.deliveryWrite = kind, v.written data = v' at hwrite hkept
        cases hwrite with
        | clear hheld =>
          by_cases hid : id = v.escrowId
          · exact .inr ⟨⟨hid.symm, hheld⟩, fun h => nomatch h.2⟩
          · exact .inl (hkept (fun _ => hid) hlocked)
        | _ => exact .inl (hkept nofun hlocked)

/-- The library's rule for claims applies to the poll. -/
theorem courier_claiming : courier.Claiming (M := world) Courier.Knows Courier.Owns ClaimsDelivery
    Unclaimed DeliveryRecorded where
  init_knows _ _ h := nomatch h.2
  init_owns _ _ h := nomatch h.2
  answers _ c w ch := session_answered c w ch
  reads _ _ _ _ hok id h := courier_reads hok id h
  locks _ _ _ _ hok hfacts howned id := courier_locks hok hfacts howned id

end lock

/-! ## A visit keeps to it

The program of a visit, call by call. -/

section visit

variable {D : Deployment} {v : Courier} {id : String} {data : EscrowData}

theorem wp_courier_invalidate {Q : Except Err Unit → Courier → Prop} (h : Q (.ok ()) v) :
    (EscrowRepository.invalidate D id).wp courier.protocol Q v := by
  rw [EscrowRepository.invalidate, wp_ite]
  refine ⟨fun _ => ⟨rfl, ?_⟩, fun _ => h⟩
  rintro r v' ⟨⟨_, rfl⟩, rfl⟩
  exact h

theorem wp_courier_update {Q : Except Err EscrowRecord → Courier → Prop}
    (hid : id = v.escrowId) (hmay : v.mayWrite data) (herror : ∀ e, Q (.error e) v)
    (hdone : ∀ record, Q (.ok record) (v.written data)) :
    (EscrowRepository.update D id data).wp courier.protocol Q v := by
  rw [EscrowRepository.update, wp_bind, wp_db]
  refine ⟨⟨hid, hmay⟩, ?_⟩
  rintro r v' ⟨_, rfl⟩
  cases r with
  | error e => exact herror e
  | ok row =>
    dsimp only
    rw [wp_bind]
    exact wp_courier_invalidate (hdone _)

/-- The clock is read, and nothing else happens. -/
theorem wp_courier_date {Q : Except Err Time → Courier → Prop} (h : ∀ t, Q (.ok t) v) :
    newDate.wp courier.protocol Q v := by
  refine ⟨rfl, ?_⟩
  rintro r v' ⟨⟨t, rfl⟩, rfl⟩
  exact h t

theorem wp_claimDelivery :
    (EscrowRepository.claimDelivery D id).wp courier.protocol (fun r v' => v'.escrowId = id ∧
      ∀ record, r = .ok (some record) → v'.hold = .claim) ⟨id, .nothing⟩ := by
  rw [EscrowRepository.claimDelivery, wp_bind, wp_db]
  refine ⟨⟨rfl, rfl⟩, ?_⟩
  rintro r v' ⟨_, rfl⟩
  match r with
  | .error e => exact ⟨rfl, fun _ h => nomatch h⟩
  | .ok none => exact ⟨rfl, fun _ h => nomatch h⟩
  | .ok (some row) =>
    apply wp_if
    · intro _
      exact ⟨Courier.next_escrowId _ _ _, fun _ h => nomatch h⟩
    · intro hfree
      -- the row that is claimed is one that was read as claimable
      have hclaimable : Courier.claimable row = true := by
        rw [claimable_iff]
        exact ⟨Decidable.not_not.mp fun h => hfree (.inl h),
          Decidable.not_not.mp fun h => hfree (.inr h)⟩
      have hv : Courier.next ⟨id, .nothing⟩ (.db (.escrowFindUnique id)) (.ok (some row))
          = ⟨id, .sawFree⟩ := by
        simp only [Courier.next]
        rw [if_pos hclaimable]
      show Prog.wp courier.protocol (newDate >>= _) _
        (Courier.next ⟨id, .nothing⟩ (.db (.escrowFindUnique id)) (.ok (some row)))
      rw [hv, wp_bind]
      refine wp_courier_date fun now => ?_
      dsimp only
      rw [wp_bind]
      refine wp_courier_update rfl rfl (fun e => ⟨rfl, fun _ h => nomatch h⟩) fun record => ?_
      exact ⟨rfl, fun _ _ => rfl⟩

/-- Under the claim: either the delivery is recorded, or the claim is still there. -/
theorem wp_recordClaimed (escrow : EscrowRecord) (contractEscrowId : Nat) :
    (recordClaimed D escrow contractEscrowId).wp courier.protocol
      (fun r v' => v'.escrowId = escrow.id ∧ ∀ e, r = .error e → v'.hold = .claim)
      ⟨escrow.id, .claim⟩ := by
  rw [recordClaimed, wp_bind]
  unfold requireAdminAddress
  cases truthy D.ADMIN_ADDRESS with
  | none => exact ⟨rfl, fun _ _ => rfl⟩
  | some admin =>
    rw [wp_pure]
    dsimp only
    rw [wp_bind, wp_ext]
    refine ⟨rfl, ?_⟩
    rintro r v' ⟨_, rfl⟩
    cases r with
    | error e => exact ⟨rfl, fun _ _ => rfl⟩
    | ok txHash =>
      show Prog.wp courier.protocol (newDate >>= _) _ ⟨escrow.id, .claim⟩
      rw [wp_bind]
      refine wp_courier_date fun now => ?_
      dsimp only
      rw [wp_bind]
      refine wp_courier_update rfl rfl (fun e => ⟨rfl, fun _ _ => rfl⟩) fun updated => ?_
      -- what follows an accepted write is not rejected
      show Prog.wp courier.protocol (notifyDelivered D updated) _
        ⟨escrow.id, .nothing⟩
      rw [notifyDelivered, wp_ite]
      refine ⟨fun _ => ⟨rfl, ?_⟩, fun _ => ⟨rfl, fun _ h => nomatch h⟩⟩
      rintro r v' ⟨⟨_, rfl⟩, rfl⟩
      exact ⟨rfl, fun _ h => nomatch h⟩

theorem wp_deliver (escrow : EscrowRecord) :
    (TrackingPollWorker.deliver D escrow).wp courier.protocol
      (fun _ v' => v'.escrowId = escrow.id) ⟨escrow.id, .nothing⟩ := by
  unfold TrackingPollWorker.deliver
  split
  · next trackingId contractEscrowId _ _ =>
    rw [wp_bind, wp_ext]
    refine ⟨rfl, ?_⟩
    rintro r v' ⟨_, rfl⟩
    cases r with
    | error e => rfl
    | ok status =>
      show Prog.wp courier.protocol (if status.status ≠ .DELIVERED then _ else _) _
        ⟨escrow.id, .nothing⟩
      refine wp_if (fun _ => rfl) fun _ => ?_
      rw [wp_bind]
      refine wp_mono wp_claimDelivery ?_
      rintro r v' ⟨hid, hclaim⟩
      match r with
      | .error e => exact hid
      | .ok none => exact hid
      | .ok (some record) =>
        -- a claim that was won is the courier's own, and the `catch` may return it
        have hv : v' = ⟨escrow.id, .claim⟩ := by
          obtain ⟨escrowId, hold⟩ := v'
          cases hid
          cases hclaim record rfl
          rfl
        rw [hv]
        dsimp only
        rw [wp_tryCatch]
        refine wp_mono (wp_recordClaimed escrow contractEscrowId) ?_
        rintro r v'' ⟨hid', hkept⟩
        cases r with
        | ok _ => exact hid'
        | error err =>
          dsimp only
          rw [wp_bind]
          refine wp_courier_update hid'.symm (hkept err rfl) (fun e => hid') fun record => ?_
          exact hid'
  · rfl

/-- A visit keeps to the protocol. -/
theorem wp_processShipment (D : Deployment) (escrow : EscrowRecord) :
    (processShipment D escrow).wp courier.protocol (fun _ _ => True)
      (courier.init escrow) := by
  rw [processShipment, wp_tryFinally]
  refine wp_mono (wp_deliver escrow) fun r v' hid => ?_
  rw [wp_void, EscrowRepository.markTrackingChecked, wp_bind]
  refine wp_courier_date fun checkedAt => ?_
  refine wp_courier_update hid.symm trivial (fun e => trivial) fun record => ?_
  trivial

end visit

/-! ## Runs -/

/-- Any number of visits, of any escrows, on records read at any time. -/
abbrev Couriers := Pool world EscrowRecord

abbrev runVisits (D : Deployment) (w : World) (ms : List (Move world EscrowRecord)) : Couriers :=
  Pool.run (processShipment D) ⟨w, []⟩ ms

/-- What is seen of the claims: `claimDelivery` succeeds, `clearDeliveryClaim` succeeds. -/
inductive DeliveryMark where
  | claimed (id : String)
  | cleared (id : String)
  deriving DecidableEq, Repr

/-- What an accepted call shows. -/
def deliveryMarks : (c : Call) → Except Err c.Resp → List DeliveryMark
  | .db (.escrowUpdate id data), .ok _ =>
    match data.deliveryWrite with
    | .claim => [.claimed id]
    | .clear => [.cleared id]
    | _ => []
  | _, _ => []

def deliveryMarksOf (P : Couriers) : Move world EscrowRecord → List DeliveryMark
  | .spawn _ => []
  | .step i ch =>
    match P.threads[i]? with
    | none => []
    | some t =>
      match t.rest with
      | .done _ => []
      | .call c _ => deliveryMarks c (handle ch c P.state).1

/-- The marks of a run, oldest first. -/
abbrev visitMarks (D : Deployment) (w : World) (ms : List (Move world EscrowRecord)) :
    List DeliveryMark :=
  Pool.observe (processShipment D) deliveryMarksOf ⟨w, []⟩ ms

/-- Execution `i` has a `recordDelivery` call for the escrow in flight. -/
def RecordingDelivery (P : Couriers) (i : Nat) (id : String) : Prop :=
  ∃ t contractEscrowId admin k, P.threads[i]? = some t ∧ t.label.id = id ∧
    t.rest = .call (.ext (.recordDelivery contractEscrowId admin)) k

/-- Every delivered escrow has the column set. -/
def DeliveriesRecorded (w : World) : Prop :=
  ∀ id row, w.db.escrows.get id = some row → row.state = .DELIVERED →
    row.deliveryRecordedAt ≠ none

/-- The claim is exclusive: two claims of an escrow have a clear between them, at most one
`recordDelivery` for it is in flight, and what is delivered is recorded. -/
structure DeliveryExclusive (marks : List DeliveryMark) (P : Couriers) : Prop where
  claims : ∀ id older between newer,
    marks = older ++ .claimed id :: (between ++ .claimed id :: newer) → .cleared id ∈ between
  inFlight : ∀ id i j, RecordingDelivery P i id → RecordingDelivery P j id → i = j
  recorded : DeliveriesRecorded P.state

/-- What is kept along a run besides the lock. -/
structure DeliveryInv (marks : List DeliveryMark) (P : Couriers) : Prop where
  /-- Whoever holds a claim holds it on a shipped escrow. -/
  shipped : ∀ t ∈ P.threads, ∀ id, (courier.view t).Owns id → P.state.stateOf id = some .SHIPPED
  recorded : DeliveriesRecorded P.state
  /-- A claim that was not cleared left the column set. -/
  standing : ∀ id older newer, marks = older ++ .claimed id :: newer → .cleared id ∉ newer →
    DeliveryRecorded id P.state
  claims : ∀ id older between newer,
    marks = older ++ .claimed id :: (between ++ .claimed id :: newer) → .cleared id ∈ between

section marks

variable {marks : List DeliveryMark} {m : DeliveryMark}

/-- A claim among the marks, with those of one more update: it is this update, or an earlier one. -/
theorem claimed_split {older newer : List DeliveryMark} {data : EscrowData} {id id' : String}
    {answer : EscrowRow}
    (h : marks ++ deliveryMarks (.db (.escrowUpdate id' data)) (.ok answer)
      = older ++ .claimed id :: newer) :
    (marks = older ∧ id = id' ∧ data.deliveryWrite = .claim) ∨
      ∃ newer', marks = older ++ .claimed id :: newer' ∧
        newer = newer' ++ deliveryMarks (.db (.escrowUpdate id' data)) (.ok answer) := by
  simp only [deliveryMarks] at h ⊢
  cases hkind : data.deliveryWrite with
  | claim =>
    rw [hkind] at h
    rcases Lists.concat_eq_append_cons h with ⟨-, hbefore, hnew⟩ | ⟨newer', hnewer, hbefore⟩
    · cases hnew
      exact .inl ⟨hbefore, rfl, rfl⟩
    · exact .inr ⟨newer', hbefore, hnewer⟩
  | clear =>
    rw [hkind] at h
    rcases Lists.concat_eq_append_cons h with ⟨-, -, hnew⟩ | ⟨newer', hnewer, hbefore⟩
    · cases hnew
    · exact .inr ⟨newer', hbefore, hnewer⟩
  | deliver | other | foreign =>
    rw [hkind] at h
    refine .inr ⟨newer, ?_, (List.append_nil newer).symm⟩
    rw [← h, List.append_nil]

end marks

/-! ## The step

An update is classified once, by `Write`; each part of the invariant is then followed through the
classes. -/

section step

variable {marks : List DeliveryMark} {P : Couriers} {i : Nat} {ch : Choice}
  {t : Thread backend EscrowRecord} {c : Call} {k : Except Err c.Resp → App Unit}

theorem deliveryMarksOf_step (ht : P.threads[i]? = some t) (hr : t.rest = .call c k) :
    deliveryMarksOf P (.step i ch) = deliveryMarks c (handle ch c P.state).1 := by
  simp only [deliveryMarksOf, ht, hr]

/-- A move that changes nothing shows nothing. -/
theorem deliveryMarksOf_idle {D : Deployment} {mv : Move world EscrowRecord}
    (h : Pool.next (processShipment D) P mv = P) : deliveryMarksOf P mv = [] := by
  cases mv with
  | spawn escrow => rfl
  | step i ch =>
    cases ht : P.threads[i]? with
    | none => simp only [deliveryMarksOf, ht]
    | some t =>
      cases hr : t.rest with
      | done r => simp only [deliveryMarksOf, ht, hr]
      | call c k => exact absurd h (Pool.next_ne ht hr)

/-- A call that leaves the rows as they are, and shows nothing. -/
theorem deliveryInv_same (h : DeliveryInv marks P) (ht : P.threads[i]? = some t)
    (hrows : ∀ id, (handle ch c P.state).2.db.escrows.get id = P.state.db.escrows.get id)
    (howns : ∀ id, ((courier.view t).next c (handle ch c P.state).1).Owns id →
      (courier.view t).Owns id) : DeliveryInv marks (P.advance i t c k ch) where
  shipped := by
    intro t' ht' id hown
    have hstate : (P.advance i t c k ch).state.stateOf id = P.state.stateOf id :=
      congrArg (Option.map _) (hrows id)
    rw [hstate]
    rcases Pool.mem_advance ht' with rfl | hold
    · exact h.shipped t (List.mem_of_getElem? ht) id (howns id hown)
    · exact h.shipped t' hold id hown
  recorded := by
    intro id row hrow
    exact h.recorded id row ((hrows id).symm.trans hrow)
  standing := by
    intro id older newer hmarks hnone
    obtain ⟨row, hrow, hset⟩ := h.standing id older newer hmarks hnone
    exact ⟨row, (hrows id).trans hrow, hset⟩
  claims := h.claims

section write

variable {data : EscrowData} {row : EscrowRow} {now : Time} {w : World} {v : Courier}

/-- Only `markDelivered` writes the state. -/
theorem stateOf_updated (now : Time) (hrow : w.db.escrows.get v.escrowId = some row)
    (hmay : v.mayWrite data) (id : String) (hdeliver : data.deliveryWrite = .deliver → id ≠ v.escrowId) :
    (w.updated row data now).stateOf id = w.stateOf id := by
  by_cases hid : id = v.escrowId
  · subst hid
    rw [World.stateOf, World.stateOf, updated_get_self hrow, hrow]
    have hstate : data.state = none := by
      have hwrite := Courier.write_of_mayWrite hmay
      generalize data.deliveryWrite = kind, v.written data = v' at hwrite hdeliver
      cases hwrite with
      | deliver => exact absurd rfl (hdeliver rfl)
      | _ => assumption
    rw [Option.map_some, Option.map_some, EscrowRow.update_state, hstate]
    rfl
  · rw [World.stateOf, World.stateOf, updated_get_ne data now hrow hid]

/-- An update that is allowed leaves deliveries recorded: a clear is made under a claim, and the
claimed escrow is still `SHIPPED`. -/
theorem recorded_write (h : DeliveriesRecorded w) (hrow : w.db.escrows.get v.escrowId = some row)
    (hmay : v.mayWrite data)
    (hshipped : data.deliveryWrite = .clear → w.stateOf v.escrowId = some .SHIPPED) :
    DeliveriesRecorded (w.updated row data now) := by
  intro id row' hrow' hdelivered
  suffices hrecorded : DeliveryRecorded id (w.updated row data now) by
    obtain ⟨row₁, hrow₁, hset⟩ := hrecorded
    rw [hrow'] at hrow₁
    cases hrow₁
    exact hset
  have hstate := stateOf_updated now hrow hmay id
  rw [World.stateOf, hrow', Option.map_some, hdelivered] at hstate
  -- where the state was not written, the escrow was delivered, and recorded, before
  have hkept : (data.deliveryWrite = .clear → id ≠ v.escrowId) →
      (data.deliveryWrite = .deliver → id ≠ v.escrowId) →
      DeliveryRecorded id (w.updated row data now) := by
    intro hclear hdeliver
    obtain ⟨row₀, hrow₀, hstate₀⟩ := Option.map_eq_some_iff.mp (hstate hdeliver).symm
    exact recorded_updated _ now hrow hmay hclear ⟨row₀, hrow₀, h id row₀ hrow₀ hstate₀⟩
  by_cases hid : id = v.escrowId
  · subst hid
    have hwrite := Courier.write_of_mayWrite hmay
    generalize data.deliveryWrite = kind, v.written data = v' at hwrite hstate hkept hshipped
    cases hwrite with
    | clear => exact nomatch (hstate (fun h => nomatch h)).trans (hshipped rfl)
    | deliver t _ _ hcolumn => exact recorded_of_set hrow hcolumn
    | _ => exact hkept (fun h => nomatch h) (fun h => nomatch h)
  · exact hkept (fun _ => hid) fun _ => hid

end write

section accepted

variable {data : EscrowData} {row : EscrowRow} {v : Courier}

/-- To clear or to deliver, one has to hold the claim. -/
theorem owns_of_mayWrite (hmay : v.mayWrite data)
    (hkind : data.deliveryWrite = .clear ∨ data.deliveryWrite = .deliver) :
    v.Owns v.escrowId := by
  have hwrite := Courier.write_of_mayWrite hmay
  generalize data.deliveryWrite = kind, v.written data = v' at hwrite hkind
  cases hwrite with
  | clear hheld | deliver _ hheld => exact ⟨rfl, hheld⟩
  | _ => simp at hkind

/-- Who holds a claim after an update of its own holds it on a shipped escrow. -/
theorem shipped_own (h : DeliveryInv marks P) (hmem : t ∈ P.threads) (hv : courier.view t = v)
    (hmay : v.mayWrite data) (hfree : data.deliveryWrite = .claim → Unclaimed v.escrowId P.state)
    (hrow : P.state.db.escrows.get v.escrowId = some row) (now : Time) {id : String}
    (hown : (v.written data).Owns id) :
    (P.state.updated row data now).stateOf id = some .SHIPPED := by
  have hstate := stateOf_updated now hrow hmay id
  have hwrite := Courier.write_of_mayWrite hmay
  generalize data.deliveryWrite = kind, v.written data = v' at hwrite hown hstate hfree
  cases hwrite with
  | clear | deliver => cases hown.2
  | claim =>
    obtain ⟨rfl, _⟩ := hown
    obtain ⟨row', hrow', hclaimable⟩ := hfree rfl
    rw [hstate nofun, World.stateOf, hrow', Option.map_some,
      (claimable_iff.mp hclaimable).1]
  | other =>
    rw [hstate fun h => nomatch h]
    exact h.shipped t hmem id (by rw [hv]; exact hown)

/-- A claim that stands after an update has left the column set. -/
theorem standing_write (h : DeliveryInv marks P) (hmay : v.mayWrite data)
    (hrow : P.state.db.escrows.get v.escrowId = some row) (now : Time) {answer : EscrowRow}
    {id : String} {older newer : List DeliveryMark}
    (hmarks : marks ++ deliveryMarks (.db (.escrowUpdate v.escrowId data)) (.ok answer)
      = older ++ .claimed id :: newer) (hnone : .cleared id ∉ newer) :
    DeliveryRecorded id (P.state.updated row data now) := by
  rcases claimed_split hmarks with ⟨-, rfl, hkind⟩ | ⟨newer', hold, rfl⟩
  · have hwrite := Courier.write_of_mayWrite hmay
    generalize v.written data = v' at hwrite
    rw [hkind] at hwrite
    cases hwrite with
    | claim t _ _ hcolumn => exact recorded_of_set hrow hcolumn
  · have hbefore := h.standing id older newer' hold fun hmem => hnone (List.mem_append_left _ hmem)
    refine recorded_updated _ now hrow hmay ?_ hbefore
    -- a clear of this escrow would be among the newer marks
    rintro hkind rfl
    apply hnone
    apply List.mem_append_right
    simp only [deliveryMarks, hkind]
    exact List.mem_cons_self

/-- Between two claims of an escrow there is a clear. -/
theorem claims_write (h : DeliveryInv marks P)
    (hfree : data.deliveryWrite = .claim → Unclaimed v.escrowId P.state) {answer : EscrowRow}
    {id : String} {older between newer : List DeliveryMark}
    (hmarks : marks ++ deliveryMarks (.db (.escrowUpdate v.escrowId data)) (.ok answer)
      = older ++ .claimed id :: (between ++ .claimed id :: newer)) : .cleared id ∈ between := by
  rw [← List.cons_append, ← List.append_assoc] at hmarks
  rcases claimed_split hmarks with ⟨hbefore, rfl, hkind⟩ | ⟨newer', hbefore, -⟩
  · -- the column was free, so the claim before this one was cleared
    by_contra hnone
    exact not_recorded_of_unclaimed (hfree hkind)
      (h.standing v.escrowId older between hbefore hnone)
  · exact h.claims id older between newer'
      (by rw [hbefore, List.append_assoc, List.cons_append])

/-- An accepted update. The mover holds what its update needs, and nobody else holds it. -/
theorem deliveryInv_write (h : DeliveryInv marks P)
    (hexclusive : courier.Exclusive (M := world) Courier.Owns DeliveryRecorded P)
    (ht : P.threads[i]? = some t) (hv : courier.view t = v) (hmay : v.mayWrite data)
    (hfree : data.deliveryWrite = .claim → Unclaimed v.escrowId P.state)
    (hrow : P.state.db.escrows.get v.escrowId = some row)
    {k : Except Err EscrowRow → App Unit}
    (heq : handle ch (.db (.escrowUpdate v.escrowId data)) P.state =
      (.ok (row.update data ch.now), P.state.updated row data ch.now)) :
    DeliveryInv (marks ++ deliveryMarks (.db (.escrowUpdate v.escrowId data))
        (.ok (row.update data ch.now)))
      (P.advance i t (.db (.escrowUpdate v.escrowId data)) k ch) := by
  have hstate : (P.advance i t (.db (.escrowUpdate v.escrowId data)) k ch).state =
      P.state.updated row data ch.now := congrArg Prod.snd heq
  have hmem := List.mem_of_getElem? ht
  constructor
  · intro t' ht' id hown
    rw [hstate]
    obtain ⟨j, hj⟩ := List.mem_iff_getElem?.mp ht'
    rcases Pool.advance_threads_cases hj with ⟨_, rfl⟩ | ⟨hne, hold⟩
    · have hown : ((courier.view t).next (.db (.escrowUpdate v.escrowId data))
          (handle ch (.db (.escrowUpdate v.escrowId data)) P.state).1).Owns id := hown
      rw [heq, hv] at hown
      exact shipped_own h hmem hv hmay hfree hrow ch.now hown
    · rw [stateOf_updated _ hrow hmay _]
      · exact h.shipped t' (List.mem_of_getElem? hold) id hown
      · -- a delivery is made by the one holder
        rintro hkind rfl
        refine hne (hexclusive.unique j i t' t v.escrowId hold ht hown ?_)
        rw [hv]
        exact owns_of_mayWrite hmay (.inr hkind)
  · rw [hstate]
    refine recorded_write h.recorded hrow hmay fun hkind => ?_
    exact h.shipped t hmem v.escrowId (by rw [hv]; exact owns_of_mayWrite hmay (.inl hkind))
  · rw [hstate]
    intro id older newer hmarks hnone
    exact standing_write h hmay hrow ch.now hmarks hnone
  · intro id older between newer hmarks
    exact claims_write h hfree hmarks

end accepted

theorem deliveryInv_advance (h : DeliveryInv marks P)
    (hsound : courier.Sound (M := world) Courier.Knows ClaimsDelivery Unclaimed P)
    (hexclusive : courier.Exclusive (M := world) Courier.Owns DeliveryRecorded P)
    (ht : P.threads[i]? = some t) (hr : t.rest = .call c k) (hok : (courier.view t).ok c) :
    DeliveryInv (marks ++ deliveryMarksOf P (.step i ch)) (P.advance i t c k ch) := by
  rw [deliveryMarksOf_step ht hr]
  rcases Courier.ok_cases hok with hreads | ⟨data, rfl, hmay⟩
  · have hnothing : deliveryMarks c (handle ch c P.state).1 = [] := by
      unfold deliveryMarks
      split
      · cases hreads
      · rfl
    rw [hnothing, List.append_nil]
    exact deliveryInv_same h ht (same_get hreads) fun id => Courier.owns_of_reading hok hreads
  · rcases handle_escrowUpdate ch P.state (courier.view t).escrowId data with
      ⟨e, heq⟩ | ⟨_, row, hrow, heq⟩
    · rw [heq]
      show DeliveryInv (marks ++ []) _
      rw [List.append_nil]
      refine deliveryInv_same h ht (fun id => by rw [heq]) fun id hown => ?_
      rw [heq] at hown
      have hown : ((courier.view t).next _ (.error e)).Owns id := hown
      rw [Courier.next_error] at hown
      exact hown
    · rw [heq]
      refine deliveryInv_write h hexclusive ht rfl hmay (fun hkind => ?_) hrow heq
      refine Monitor.holds_of_head hsound (List.mem_of_getElem? ht) hr ?_ ⟨data, rfl, hkind⟩
      unfold Courier.mayWrite at hmay
      rw [hkind] at hmay
      exact ⟨rfl, hmay⟩

end step

/-- A visit is of the escrow it was started with. -/
theorem courier_escrowId (t : Thread backend EscrowRecord) :
    (courier.view t).escrowId = t.label.id := by
  obtain ⟨label, past, rest⟩ := t
  induction past with
  | nil => rfl
  | cons e past ih =>
    rw [courier.view_cons label e past rest rest]
    exact (Courier.next_escrowId _ _ _).trans ih

/-- No write takes the free column of an escrow away from a worker that has read it and may still
claim the escrow. -/
def NoDeliveryRace : Couriers → Move world EscrowRecord → Prop :=
  courier.NoRace Courier.Knows ClaimsDelivery Unclaimed

/-- For any number of workers and any failures: in every run without a race the delivery claim is
exclusive. -/
theorem delivery_exclusive (D : Deployment) (w : World) (hw : DeliveriesRecorded w)
    (ms : List (Move world EscrowRecord))
    (hrun : Pool.Admissible (processShipment D) NoDeliveryRace ⟨w, []⟩ ms) :
    DeliveryExclusive (visitMarks D w ms) (runVisits D w ms) := by
  have hresult := courier_claiming.run_observed
    (Q := fun _ _ _ => True) (wp_processShipment D) deliveryMarksOf (J := DeliveryInv)
    ?_ ?_ ?_ ms w hrun ?_
  · obtain ⟨hsettles, hexclusive, hinv⟩ := hresult
    refine ⟨hinv.claims, fun id i j hi hj => ?_, hinv.recorded⟩
    -- a call in flight is made under the claim
    have howner : ∀ {n}, RecordingDelivery (runVisits D w ms) n id →
        ∃ t, (runVisits D w ms).threads[n]? = some t ∧ (courier.view t).Owns id := by
      rintro n ⟨t, contractEscrowId, admin, k, ht, hid, hrest⟩
      have hwp := hsettles t (List.mem_of_getElem? ht)
      rw [hrest] at hwp
      exact ⟨t, ht, (courier_escrowId t).trans hid, hwp.1⟩
    obtain ⟨t, ht, hown⟩ := howner hi
    obtain ⟨t', ht', hown'⟩ := howner hj
    exact hexclusive.unique i j t t' id ht ht' hown hown'
  · intro P mv marks hsame h
    rw [deliveryMarksOf_idle hsame, List.append_nil]
    exact h
  · intro P escrow marks h
    show DeliveryInv (marks ++ []) _
    rw [List.append_nil]
    refine ⟨fun t ht id hown => ?_, h.recorded, h.standing, h.claims⟩
    rcases Pool.mem_spawn ht with hold | rfl
    · exact h.shipped t hold id hown
    · cases hown.2
  · intro P i ch t c k marks hsound hexclusive h ht hr hok
    exact deliveryInv_advance h hsound hexclusive ht hr hok
  · constructor
    · intro t ht
      cases ht
    · exact hw
    · intro id older newer hmarks
      exact absurd hmarks (by simp)
    · intro id older between newer hmarks
      exact absurd hmarks (by simp)

/-! ## A run of each kind -/

/-- The lamp on its way, as escrow 7 of the contract. -/
def shippedLamp : EscrowRow :=
  { Db.lampEscrow .SHIPPED with trackingId := some "track-1", contractEscrowId := some 7 }

/-- The carrier has delivered; the contract answers so. -/
def Choice.arrived (recordDelivery : Except Err String) : Choice :=
  { Choice.calm with
    reply := fun
      | .getStatus _ => .ok ⟨.DELIVERED, none, none, []⟩
      | .recordDelivery _ _ => recordDelivery
      | _ => .error (.error "no answer") }

def Choice.recording : Choice := .arrived (.ok "tx")

def Choice.rejecting : Choice := .arrived (.error (.error "timeout"))

/-- Two visits, one after the other: the contract does not answer the first, and it gives up the
claim; the second records the delivery. -/
def visitsInTurn : List (Move world EscrowRecord) :=
  .spawn (toEscrowRecord shippedLamp) :: List.replicate 9 (.step 0 .rejecting) ++
    .spawn (toEscrowRecord shippedLamp) :: List.replicate 10 (.step 1 .recording)

theorem delivery_exclusive_in_turn :
    visitMarks .bare (World.ofEscrows [shippedLamp]) visitsInTurn
      = [.claimed "e1", .cleared "e1", .claimed "e1"] ∧
    DeliveryExclusive (visitMarks .bare (World.ofEscrows [shippedLamp]) visitsInTurn)
      (runVisits .bare (World.ofEscrows [shippedLamp]) visitsInTurn) := by
  have hturn : Pool.Admissible (processShipment .bare) Pool.InTurn
      (⟨World.ofEscrows [shippedLamp], []⟩ : Couriers) visitsInTurn := by
    decide +kernel
  refine ⟨by decide +kernel, delivery_exclusive .bare _ ?_ _
    (hturn.mono fun _ _ => Monitor.undisturbed_in_turn fun _ _ _ => trivial)⟩
  intro id row hrow hdelivered
  have hlamp : row = shippedLamp := by
    have hmem := (Store.Table.mem_rows_iff _).mpr
      (show (World.ofEscrows [shippedLamp]).db.escrows.get row.id = some row by
        rw [get_id hrow]; exact hrow)
    exact List.mem_singleton.mp hmem
  rw [hlamp] at hdelivered
  cases hdelivered

/-- Two workers read the lamp unclaimed before either has claimed it. -/
def racingVisits : List (Move world EscrowRecord) :=
  [.spawn (toEscrowRecord shippedLamp), .spawn (toEscrowRecord shippedLamp),
    .step 0 .recording, .step 0 .recording, .step 1 .rejecting, .step 1 .rejecting,
    .step 0 .recording, .step 0 .recording, .step 1 .rejecting, .step 1 .rejecting]

/-- The first records the delivery; the call of the second fails, and it gives up the claim. -/
def racingRecords : List (Move world EscrowRecord) :=
  [.step 0 .recording, .step 0 .recording, .step 0 .recording, .step 1 .rejecting, .step 1 .rejecting]

/-- Both claims succeed with no clear between them, both contract calls are in flight, and in the
end the lamp is `DELIVERED` without a `deliveryRecordedAt`. -/
theorem delivery_claimed_twice :
    visitMarks .bare (World.ofEscrows [shippedLamp]) racingVisits =
        [.claimed "e1", .claimed "e1"] ∧
      RecordingDelivery (runVisits .bare (World.ofEscrows [shippedLamp]) racingVisits) 0 "e1" ∧
      RecordingDelivery (runVisits .bare (World.ofEscrows [shippedLamp]) racingVisits) 1 "e1" ∧
      ((runVisits .bare (World.ofEscrows [shippedLamp])
        (racingVisits ++ racingRecords)).state.db.escrows.get "e1").map
          (fun row => (row.state, row.deliveryRecordedAt)) = some (.DELIVERED, none) ∧
      ¬ DeliveryExclusive (visitMarks .bare (World.ofEscrows [shippedLamp]) racingVisits)
        (runVisits .bare (World.ofEscrows [shippedLamp]) racingVisits) := by
  have hmarks : visitMarks .bare (World.ofEscrows [shippedLamp]) racingVisits =
      [.claimed "e1", .claimed "e1"] := by decide +kernel
  refine ⟨hmarks, ⟨_, 7, "admin", _, rfl, rfl, rfl⟩, ⟨_, 7, "admin", _, rfl, rfl, rfl⟩,
    by decide +kernel, fun hexclusive => ?_⟩
  have hcleared := hexclusive.claims "e1" [] [] [] hmarks
  cases hcleared

end TrustLink
