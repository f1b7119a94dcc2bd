import TrustLink.Model.Grounds

/-!
# TrustLink — a state and its evidence

A shipped escrow has a tracking id and a shipping time, a delivered one a delivery time, a
cancelled one a cancellation time, a released one the hash of its release. Nothing in the schema
says so. It holds because every write that sets one of these states sets the columns that go with
it in the same call, and because no write ever clears one of them.

So the argument looks at one write at a time, whatever row it falls on (`EscrowData.Evident`);
which writes other executions make in between does not matter, and neither does which calls are
rejected.

* **`Evidenced`** — what the state of a row promises about its other columns.
* **the writers** — one lemma for each shape of update there is.
* **`only_evident`** — so every write of every operation of the backend is evident.
* **`state_evidenced`** — every row of every reachable database is evidenced.
-/

namespace TrustLink

open Effects

/-- What the state of an escrow stands for is on record. -/
structure Evidenced (row : EscrowRow) : Prop where
  shipped : row.state = .SHIPPED → row.trackingId ≠ none ∧ row.shippedAt ≠ none
  delivered : row.state = .DELIVERED → row.deliveredAt ≠ none
  cancelled : row.state = .CANCELLED → row.cancelledAt ≠ none
  released : row.state = .RELEASED → row.autoReleaseTxHash ≠ none

/-- What this state promises about the other columns. -/
def EscrowState.Promises (row : EscrowRow) : EscrowState → Prop
  | .SHIPPED => row.trackingId ≠ none ∧ row.shippedAt ≠ none
  | .DELIVERED => row.deliveredAt ≠ none
  | .CANCELLED => row.cancelledAt ≠ none
  | .RELEASED => row.autoReleaseTxHash ≠ none
  | _ => True

theorem Evidenced.of_promises {row : EscrowRow} (h : row.state.Promises row) : Evidenced row := by
  constructor
  all_goals
    intro hs
    rw [hs] at h
    exact h

/-! ## One write

A write is judged by what it makes of an arbitrary evidenced row: the row it was decided on may
not be the row it falls on. -/

/-- The write leaves an evidenced row evidenced. -/
def EscrowData.Evident (data : EscrowData) : Prop :=
  ∀ (row : EscrowRow) (now : Time), Evidenced row → Evidenced (row.update data now)

/-- A write that sets no state and none of the columns a state promises. -/
theorem evident_of_unrelated {data : EscrowData} (hstate : data.state = none)
    (htracking : data.trackingId = none) (hshipped : data.shippedAt = none)
    (hdelivered : data.deliveredAt = none) (hcancelled : data.cancelledAt = none)
    (hhash : data.autoReleaseTxHash = none) : data.Evident := by
  intro row now h
  have hsame : (row.update data now).state = row.state := by
    rw [EscrowRow.update_state, hstate]
    rfl
  constructor
  · rw [hsame]
    intro hs
    simp only [EscrowRow.update, htracking, hshipped, Option.getD_none]
    exact h.shipped hs
  · rw [hsame]
    intro hs
    simp only [EscrowRow.update, hdelivered, Option.getD_none]
    exact h.delivered hs
  · rw [hsame]
    intro hs
    simp only [EscrowRow.update, hcancelled, Option.getD_none]
    exact h.cancelled hs
  · rw [hsame]
    intro hs
    simp only [EscrowRow.update, hhash, Option.getD_none]
    exact h.released hs

/-- A write that moves the escrow to a state, together with what the state promises. -/
theorem evident_of_promises {data : EscrowData} {state : EscrowState}
    (hstate : data.state = some state)
    (h : ∀ row now, state.Promises (EscrowRow.update row data now)) : data.Evident := by
  intro row now _
  apply Evidenced.of_promises
  rw [EscrowRow.update_state, hstate]
  exact h row now

/-- A write that moves the escrow to a state that promises nothing. -/
theorem evident_of_state {data : EscrowData} {state : EscrowState} (hstate : data.state = some state)
    (h : state ∉ [EscrowState.SHIPPED, .DELIVERED, .CANCELLED, .RELEASED]) : data.Evident := by
  apply evident_of_promises hstate
  intro row now
  cases state with
  | SHIPPED | DELIVERED | CANCELLED | RELEASED => exact absurd (by decide) h
  | _ => trivial

theorem evident_markShipped (trackingId : String) (now : Time) :
    EscrowData.Evident
      { state := some .SHIPPED
        trackingId := some (some trackingId)
        shippedAt := some (some now) } :=
  evident_of_promises rfl fun _ _ => ⟨Option.some_ne_none trackingId, Option.some_ne_none now⟩

theorem evident_markDelivered (deliveredAt : Time) :
    EscrowData.Evident
      { state := some .DELIVERED
        deliveredAt := some (some deliveredAt)
        deliveryRecordedAt := some (some deliveredAt) } :=
  evident_of_promises rfl fun _ _ => Option.some_ne_none deliveredAt

theorem evident_markCancelled (now : Time) :
    EscrowData.Evident { state := some .CANCELLED, cancelledAt := some (some now) } :=
  evident_of_promises rfl fun _ _ => Option.some_ne_none now

theorem evident_markAutoReleased (txHash : String) :
    EscrowData.Evident { state := some .RELEASED, autoReleaseTxHash := some (some txHash) } :=
  evident_of_promises rfl fun _ _ => Option.some_ne_none txHash

/-- The hash is also written without the state, before the chain reports the release. -/
theorem evident_recordAutoReleaseSubmission (submittedAt : Time) (txHash : String) :
    EscrowData.Evident
      { autoReleaseSubmittedAt := some (some submittedAt)
        autoReleaseTxHash := some (some txHash) } := by
  intro row t h
  constructor
  · exact h.shipped
  · exact h.delivered
  · exact h.cancelled
  · intro _
    simp [EscrowRow.update]

/-- The calls that keep every escrow evidenced. -/
def Call.Evident : Call → Prop
  | .db (.escrowUpdate _ data) => data.Evident
  | _ => True

/-- Every shape of update is evident. -/
theorem evident_of_written {data : EscrowData} (h : data.Written) : data.Evident := by
  cases h with
  | state state h => exact evident_of_state rfl h
  | shipped trackingId now => exact evident_markShipped trackingId now
  | delivered deliveredAt => exact evident_markDelivered deliveredAt
  | cancelled now => exact evident_markCancelled now
  | released txHash => exact evident_markAutoReleased txHash
  | submitted submittedAt txHash => exact evident_recordAutoReleaseSubmission submittedAt txHash
  | unsubmitted => exact evident_of_unrelated rfl rfl rfl rfl rfl rfl
  | claim deliveryRecordedAt => exact evident_of_unrelated rfl rfl rfl rfl rfl rfl

/-- Every write of every operation is evident. -/
theorem only_evident (D : Deployment) (op : Op) : (op.prog D).Only Call.Evident := by
  apply (Writes.only_op D op).mono
  intro c hc
  cases c with
  | db d =>
    cases d with
    | escrowUpdate id data =>
      rcases hc with hwritten | ⟨dto, email, phone, -, rfl⟩ | ⟨snapshot, checkedAt, -, -, rfl⟩
      · exact evident_of_written hwritten
      · exact evident_of_unrelated rfl rfl rfl rfl rfl rfl
      · exact evident_of_unrelated rfl rfl rfl rfl rfl rfl
    | _ => trivial
  | _ => trivial

/-! ## Reachable databases -/

/-- Every escrow of the database is evidenced. -/
def World.Evidenced (w : World) : Prop :=
  ∀ id row, w.db.escrows.get id = some row → TrustLink.Evidenced row

/-- An evident call, accepted or not, keeps every row evidenced. -/
theorem handle_evidenced {ch : Choice} {c : Call} {w : World} (hc : c.Evident)
    (hw : w.Evidenced) : (handle ch c w).2.Evidenced := by
  intro id row hrow
  generalize hafter : (handle ch c w).2.db.escrows.get id = after at hrow
  have hchange : EscrowChange ch w c id after := by
    rw [← hafter]
    exact handle_escrow ch w c id
  cases hchange with
  | same => exact hw id row hrow
  | updated data row₀ hcall hrow₀ =>
    subst hcall
    cases hrow
    exact hc row₀ ch.now (hw id row₀ hrow₀)
  | claimed t row₀ hcall hrow₀ hfree =>
    cases hrow
    have hclaim : (claimData t).Evident := evident_of_unrelated rfl rfl rfl rfl rfl rfl
    exact hclaim row₀ ch.now (hw id row₀ hrow₀)
  | created dto vendorAddress hcall hnone =>
    cases hrow
    -- a new escrow is in a state that promises nothing
    exact Evidenced.of_promises trivial

/-- In every database reachable by interleaved operations, with any calls rejected, every escrow
has on record what its state stands for. -/
theorem state_evidenced (D : Deployment) (w : World) (hw : w.Evidenced)
    (ms : List (Move world Op)) : (interleave D w ms).state.Evidenced :=
  Pool.run_only (K := Call.Evident) (I := World.Evidenced) (only_evident D)
    (fun _ _ _ hc hs => handle_evidenced hc hs) ms w hw

/-- A lamp is created and the chain reports it shipped, each in four calls. -/
theorem shipped_lamp_evidenced :
    let request : CreateEscrowDto := ⟨"lamp", "lamp-1", ⟨1⟩, "USDC", "buyer"⟩
    let ms : List (Move world Op) :=
      .spawn (.createEscrow request "vendor") :: List.replicate 4 (.step 0 .calm) ++
        .spawn (.syncStateFromChain { eventType := .EscrowShipped, escrowId := "fresh" }) ::
          List.replicate 4 (.step 1 .calm)
    (interleave .bare (World.ofEscrows []) ms).state.stateOf "fresh" = some .SHIPPED ∧
      (interleave .bare (World.ofEscrows []) ms).state.Evidenced := by
  intro request ms
  have hempty : (World.ofEscrows []).Evidenced := by
    intro id row hrow
    cases hrow
  exact ⟨by decide +kernel, state_evidenced .bare (World.ofEscrows []) hempty ms⟩

end TrustLink
