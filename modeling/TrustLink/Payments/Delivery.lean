import TrustLink.Model.Webhook

/-!
# TrustLink — deliveries of payment operations

An operation of the Stellar ledger is delivered any number of times, by the signed webhook or by
a replay. Every delivery runs the same steps: look the operation up in the processed table, mark
it, read a page of the destination's escrows, fund those the payment matches, and unmark the
operation if any of this was rejected.

`visit` is the monitor of one delivery. It follows the mark and the matches that are still to be
funded, and says what may happen: the mark is written once and deleted at most once, an escrow is
funded only under the mark and only as the next match of the page, and a delivery that has funded
the last of its matches never unmarks. `Payments/Marks.lean` reads the mark off it,
`Payments/Conservation.lean` the fundings.
-/

namespace TrustLink

open Effects StellarWebhookService

/-- A delivery of an operation: signed by Horizon, or replayed. -/
inductive Delivery where
  | handleEvent (rawBody : String) (signature : Option String) (dto : StellarWebhookDto)
  | processOperationDto (dto : StellarWebhookDto)
  deriving DecidableEq

namespace Delivery

def dto : Delivery → StellarWebhookDto
  | .handleEvent _ _ dto => dto
  | .processOperationDto dto => dto

def operationId (l : Delivery) : String := l.dto.id

def prog (D : Deployment) : Delivery → App Unit
  | .handleEvent rawBody signature dto =>
    (StellarWebhookService.handleEvent D rawBody signature dto).void
  | .processOperationDto dto => (StellarWebhookService.processOperationDto D dto).void

end Delivery

/-- A payment to the vendor for one lamp. -/
def lampPayment : StellarWebhookDto where
  kind := "payment"
  id := "p1"
  transaction_hash := "tx-1"
  to_ := some "vendor"
  amount := some "0.00000001"
  asset_code := some "USDC"

/-- Any number of deliveries, interleaved call by call. -/
abbrev Webhooks := Pool world Delivery

abbrev deliver (D : Deployment) (w : World) (ms : List (Move world Delivery)) : Webhooks :=
  Pool.run (Delivery.prog D) ⟨w, []⟩ ms

/-- The loop of `handlePayment` funds this record. -/
def fundable (D : Deployment) (dto : StellarWebhookDto) (escrow : EscrowRecord) : Bool :=
  escrow.state = .CREATED && amountMatches dto escrow && assetMatches D dto escrow

/-- The rows of a page that the payment funds. -/
def matching (D : Deployment) (dto : StellarWebhookDto) (rows : List EscrowRow) : List EscrowRow :=
  rows.filter fun row => fundable D dto (toEscrowRecord row)

/-! ## The monitor -/

/-- What has become of the mark of a delivery. -/
inductive Phase where
  | unmarked
  /-- `processEvent` has been entered, and what it did has not been rolled back. -/
  | marked
  | rolledBack
  /-- The roll-back was rejected, so the mark of an operation that failed stays. -/
  | leftBehind
  deriving DecidableEq, Repr

structure Visit where
  dto : StellarWebhookDto
  phase : Phase
  /-- The matches of the page that was read, as far as they are not funded yet. -/
  left : List EscrowRow
  funded : Bool

namespace Visit

def next (D : Deployment) (v : Visit) : (c : Call) → Except Err c.Resp → Visit
  | .db (.processedCreate _), .ok _ => { v with phase := .marked }
  | .db (.escrowFindByVendor _ _), .ok rows => { v with left := matching D v.dto rows }
  | .db (.escrowUpdate _ _), .ok _ => { v with left := v.left.tail, funded := true }
  | .db (.processedDelete _), .ok _ => { v with phase := .rolledBack }
  | .db (.processedDelete _), .error _ => { v with phase := .leftBehind }
  | _, _ => v

def ok (v : Visit) : Call → Prop
  | .db (.processedFindUnique _) => True
  | .db (.processedCreate operationId) => operationId = v.dto.id ∧ v.phase = .unmarked
  | .db (.escrowFindByVendor _ _) => v.phase = .marked ∧ v.funded = false
  | .db (.escrowUpdate id data) =>
    data = { state := some .FUNDED } ∧ v.phase = .marked ∧ ∃ row ∈ v.left.head?, row.id = id
  | .db (.processedDelete operationId) =>
    operationId = v.dto.id ∧ v.phase = .marked ∧ (v.funded = true → v.left ≠ [])
  | .cache _ => True
  | .notify _ _ => True
  | _ => False

/-- The cache and the mailbox never reject. -/
def answered : (c : Call) → Except Err c.Resp → Prop
  | .cache _, .error _ => False
  | .notify _ _, .error _ => False
  | _, _ => True

/-- A delivery that ends with its mark ends without an error. -/
def Ended {α : Type} (r : Except Err α) (v : Visit) : Prop := v.phase = .marked → r.isOk = true

end Visit

def visit (D : Deployment) : Monitor backend Delivery Visit where
  init l := ⟨l.dto, .unmarked, [], false⟩
  next := Visit.next D
  ok := Visit.ok
  ans _ := Visit.answered

theorem Visit.next_dto (D : Deployment) (v : Visit) (c : Call) (r : Except Err c.Resp) :
    (v.next D c r).dto = v.dto := by
  unfold Visit.next
  split <;> rfl

/-- The monitor keeps the operation of the delivery. -/
theorem view_dto (D : Deployment) (t : Thread backend Delivery) :
    ((visit D).view t).dto = t.label.dto := by
  obtain ⟨label, past, rest⟩ := t
  induction past with
  | nil => rfl
  | cons e past ih => exact (Visit.next_dto D _ e.call e.resp).trans ih

/-- What the monitor expects of the answers, the backend gives. -/
theorem Visit.answered_handle (ch : Choice) (c : Call) (w : World) :
    Visit.answered c (handle ch c w).1 := by
  cases c <;> trivial

/-! ## The programs keep to it

The loop of `handlePayment` runs over the pending records of the page. What is left of it and what
the monitor has left agree: the records still to come that the payment funds are the matches that
are not funded yet. -/

namespace Visit

variable {D : Deployment} {v : Visit}

/-- What an iteration of the loop relies on. -/
structure Loop (D : Deployment) (dto : StellarWebhookDto) (records : List EscrowRecord)
    (v : Visit) : Prop where
  dto_eq : v.dto = dto
  marked : v.phase = .marked
  left : records.filter (fundable D dto) = v.left.map toEscrowRecord

/-- What an error leaves behind: the mark, and with it a match that was not funded. -/
structure Failed (dto : StellarWebhookDto) (v : Visit) : Prop where
  dto_eq : v.dto = dto
  marked : v.phase = .marked
  left : v.funded = true → v.left ≠ []

theorem wp_invalidate {id : String} {Q : Except Err Unit → Visit → Prop} (h : Q (.ok ()) v) :
    (EscrowRepository.invalidate D id).wp (visit D).protocol Q v := by
  unfold EscrowRepository.invalidate
  refine wp_if (fun _ => ?_) fun _ => h
  rw [wp_cache]
  refine ⟨trivial, ?_⟩
  rintro r v' ⟨hans, rfl⟩
  cases r with
  | ok u => exact h
  | error e => exact False.elim hans

/-- One iteration: a record that does not match is skipped, one that does is the next match. -/
theorem wp_fund {dto : StellarWebhookDto} {escrow : EscrowRecord} {records : List EscrowRecord}
    (hpending : escrow.state = .CREATED) (h : v.Loop D dto (escrow :: records)) :
    (fund D dto escrow).wp (visit D).protocol (fun r v' => match r with
      | .ok _ => v'.Loop D dto records
      | .error _ => v'.Failed dto) v := by
  obtain ⟨hdto, hmarked, hleft⟩ := h
  unfold fund
  -- a mismatch is not in the filtered list, so nothing changes
  have hskip : fundable D dto escrow = false → v.Loop D dto records := by
    intro hno
    rw [List.filter_cons_of_neg (by rw [hno]; exact Bool.false_ne_true)] at hleft
    exact ⟨hdto, hmarked, hleft⟩
  refine wp_if (fun hamount => hskip ?_) fun hamount => ?_
  · simp [fundable, hamount]
  refine wp_if (fun hasset => hskip ?_) fun hasset => ?_
  · simp [fundable, hasset]
  have hfundable : fundable D dto escrow = true := by
    simp [fundable, hpending, Bool.eq_true_of_not_eq_false hamount,
      Bool.eq_true_of_not_eq_false hasset]
  rw [List.filter_cons_of_pos hfundable] at hleft
  obtain ⟨row, rest, hrows, rfl, hrest⟩ := List.map_eq_cons_iff.mp hleft.symm
  have hne : v.left ≠ [] := by
    rw [hrows]
    exact List.cons_ne_nil _ _
  have htail : records.filter (fundable D dto) = v.left.tail.map toEscrowRecord := by
    rw [hrows, ← hrest, List.tail_cons]
  rw [wp_bind, EscrowRepository.updateState, EscrowRepository.update, wp_bind, wp_db]
  refine ⟨⟨rfl, hmarked, row, by rw [hrows]; rfl, rfl⟩, ?_⟩
  rintro r v' ⟨_, rfl⟩
  cases r with
  | error e => exact ⟨hdto, hmarked, fun _ => hne⟩
  | ok row' =>
    refine (wp_bind _ _ _ _).mpr (wp_invalidate ?_)
    refine ⟨trivial, ?_⟩
    rintro r v' ⟨hans, rfl⟩
    cases r with
    | ok u => exact ⟨hdto, hmarked, htail⟩
    | error e => exact False.elim hans

theorem wp_processEvent (dto : StellarWebhookDto) (hdto : v.dto = dto) (hmarked : v.phase = .marked)
    (hfunded : v.funded = false) :
    (processEvent D dto).wp (visit D).protocol (fun r v' => match r with
      | .ok _ => True
      | .error _ => v'.Failed dto) v := by
  have hfailed : v.Failed dto := ⟨hdto, hmarked, fun h => by rw [hfunded] at h; cases h⟩
  unfold processEvent
  refine wp_if (fun _ => ?_) fun _ => trivial
  unfold handlePayment
  split
  · exact hfailed
  · next destination hto =>
    rw [wp_bind, EscrowRepository.findByVendor, wp_bind, wp_db]
    refine ⟨⟨hmarked, hfunded⟩, ?_⟩
    rintro r v' ⟨hans, rfl⟩
    cases r with
    | error e => exact hfailed
    | ok rows =>
      -- the loop runs over the pending records of the page
      have hpending : ∀ escrow ∈ (rows.map toEscrowRecord).filter (·.state = .CREATED),
          escrow.state = .CREATED := fun escrow h => of_decide_eq_true (List.mem_filter.mp h).2
      have hmatches : ((rows.map toEscrowRecord).filter (·.state = .CREATED)).filter
          (fundable D dto) = (matching D dto rows).map toEscrowRecord := by
        rw [List.filter_filter, List.filter_map, matching]
        refine congrArg _ (List.filter_congr fun row _ => ?_)
        show (fundable D dto (toEscrowRecord row) && decide (row.state = .CREATED)) = _
        by_cases hcreated : row.state = .CREATED <;> simp [fundable, hcreated]
      refine wp_forM (I := fun left v => (∀ e ∈ left, e.state = .CREATED) ∧ v.Loop D dto left)
        ?_ (fun _ _ => trivial) _ _ ⟨hpending, ⟨hdto, hmarked, ?_⟩⟩
      · rintro escrow left v ⟨hcreated, hloop⟩
        refine wp_mono (wp_fund (hcreated escrow List.mem_cons_self) hloop) fun r v' h => ?_
        cases r with
        | ok u => exact ⟨fun e he => hcreated e (List.mem_cons_of_mem _ he), h⟩
        | error e => exact h
      · rw [hmatches, ← hdto]
        rfl

/-- Only an error unmarks, and an error that unmarks is passed on. -/
theorem wp_processMarked (dto : StellarWebhookDto) :
    (processMarked D dto).wp (visit D).protocol Ended ⟨dto, .marked, [], false⟩ := by
  unfold processMarked
  rw [wp_tryCatch]
  refine wp_mono (wp_processEvent dto rfl rfl rfl) fun r v' h => ?_
  cases r with
  | ok u => exact fun _ => rfl
  | error e =>
    refine (wp_bind _ _ _ _).mpr ?_
    rw [StellarWebhookRepository.unmarkProcessed, wp_db]
    refine ⟨⟨by rw [h.dto_eq], h.marked, h.left⟩, ?_⟩
    rintro r v'' ⟨_, rfl⟩
    cases r <;> exact nofun

theorem wp_processOnce (dto : StellarWebhookDto) :
    (processOnce D dto).wp (visit D).protocol Ended ⟨dto, .unmarked, [], false⟩ := by
  unfold processOnce
  rw [wp_bind, StellarWebhookRepository.isProcessed, wp_db]
  refine ⟨trivial, ?_⟩
  rintro r v' ⟨_, rfl⟩
  cases r with
  | error e => exact nofun
  | ok seen =>
    refine wp_if (fun _ _ => rfl) fun _ => ?_
    rw [wp_bind, StellarWebhookRepository.markProcessed, wp_db]
    refine ⟨⟨rfl, rfl⟩, ?_⟩
    rintro r v' ⟨_, rfl⟩
    cases r with
    | error e => exact nofun
    | ok u =>
      -- only from here on is there a mark
      exact wp_seq (wp_processMarked dto) (fun _ _ hended => hended) fun _ _ _ _ => rfl

theorem wp_verifySignature {rawBody : String} {signature : Option String}
    {Q : Except Err Unit → Visit → Prop} (hrejected : ∀ e, Q (.error e) v) (h : Q (.ok ()) v) :
    (verifySignature D rawBody signature).wp (visit D).protocol Q v := by
  unfold verifySignature
  split
  · exact hrejected _
  · split
    · exact hrejected _
    · exact wp_if (fun _ => h) fun _ => hrejected _

/-- Every delivery keeps to the monitor and ends as `Ended` says. -/
theorem wp_delivery (D : Deployment) (l : Delivery) :
    (l.prog D).wp (visit D).protocol Ended ((visit D).init l) := by
  cases l with
  | handleEvent rawBody signature dto =>
    rw [Delivery.prog, wp_void, StellarWebhookService.handleEvent, wp_bind]
    -- the signature check makes no call
    refine wp_verifySignature nofun ?_
    exact wp_seq (wp_processOnce dto) (fun _ _ hended => hended) fun _ _ _ _ => rfl
  | processOperationDto dto =>
    rw [Delivery.prog, wp_void, StellarWebhookService.processOperationDto]
    exact wp_seq (wp_processOnce dto) (fun _ _ hended => hended) fun _ _ _ _ => rfl

end Visit

end TrustLink
