import TrustLink.Effects.Pool
import TrustLink.Model.Records
import TrustLink.Store.Table

/-!
# TrustLink — the dead-letter queue

`DlqService` and `FailedTransactionRepository`: the state machine of a dead letter, from review to
replay or abandonment. A replay claims the record with a conditional write, runs a callback for as
long as it takes, and finishes with a write by id. A claim that is older than
`REPLAYING_STALE_THRESHOLD_MS` counts as stale and can be taken over or abandoned, because the
process that made it may be gone.

The environment chooses the time of every call; the machine keeps the latest. It also answers the
callbacks. Enqueueing, listing and logging are left out, and so is `ledgerFeedback`, which nothing
here reads.
-/

namespace TrustLink

open Effects

inductive FailedTransactionStatus where
  | PENDING_REVIEW | REPLAYING | REPLAYED | ABANDONED
  deriving DecidableEq, Repr

def FailedTransactionStatus.name : FailedTransactionStatus → String
  | .PENDING_REVIEW => "PENDING_REVIEW"
  | .REPLAYING => "REPLAYING"
  | .REPLAYED => "REPLAYED"
  | .ABANDONED => "ABANDONED"

/-- Records stuck in `REPLAYING` longer than this are considered stale. -/
def REPLAYING_STALE_THRESHOLD_MS : Time := 5 * 60 * 1000

structure FailedTransaction where
  id : String
  operation : String
  escrowId : Option String
  errorMessage : String
  attempts : Nat
  status : FailedTransactionStatus
  lastReplayTxHash : Option String
  createdAt : Time
  updatedAt : Time
  reviewedAt : Option Time
  replayedAt : Option Time
  deriving DecidableEq, Repr

/-- The `data` of an update: `none` leaves the column as it is, `attempts` is `{ increment: n }`. -/
structure FailedTransactionData where
  status : Option FailedTransactionStatus := none
  attempts : Nat := 0
  errorMessage : Option String := none
  lastReplayTxHash : Option String := none
  reviewedAt : Option Time := none
  replayedAt : Option Time := none
  deriving DecidableEq, Repr

/-- The row after an update; `updatedAt` is `@updatedAt`. -/
def FailedTransaction.update (row : FailedTransaction) (data : FailedTransactionData) (now : Time) :
    FailedTransaction :=
  { row with
    status := data.status.getD row.status
    attempts := row.attempts + data.attempts
    errorMessage := data.errorMessage.getD row.errorMessage
    lastReplayTxHash := data.lastReplayTxHash.orElse fun _ => row.lastReplayTxHash
    reviewedAt := data.reviewedAt.orElse fun _ => row.reviewedAt
    replayedAt := data.replayedAt.orElse fun _ => row.replayedAt
    updatedAt := now }

section update

variable (row : FailedTransaction) (data : FailedTransactionData) (now : Time)

@[simp] theorem FailedTransaction.update_id : (row.update data now).id = row.id := rfl

@[simp] theorem FailedTransaction.update_status :
    (row.update data now).status = data.status.getD row.status := rfl

@[simp] theorem FailedTransaction.update_attempts :
    (row.update data now).attempts = row.attempts + data.attempts := rfl

end update

/-- The `where` that the claim and the abandonment share, for a row with the id. -/
def FailedTransaction.claimable (row : FailedTransaction) (staleBefore : Option Time) : Bool :=
  row.status = .PENDING_REVIEW ||
    staleBefore.elim false fun t => row.status = .REPLAYING && decide (row.updatedAt ≤ t)

/-! ## Calls -/

/-- The answer of `updateMany`. No program reads `executedAt`. -/
structure BatchPayload where
  count : Nat
  executedAt : Time
  deriving DecidableEq, Repr

inductive DlqCall where
  | findUnique (id : String)
  | updateManyClaimable (id : String) (staleBefore : Option Time) (data : FailedTransactionData)
  | update (id : String) (data : FailedTransactionData)
  /-- The callback that re-executes the operation. -/
  | replayFn (record : FailedTransaction)
  | dateNow
  deriving DecidableEq

@[reducible] def DlqCall.Resp : DlqCall → Type
  | .findUnique _ => Option FailedTransaction
  | .updateManyClaimable _ _ _ => BatchPayload
  | .update _ _ => FailedTransaction
  | .replayFn _ => String
  | .dateNow => Time

abbrev dlq : Sig := ⟨DlqCall, DlqCall.Resp, Err⟩

structure DlqState where
  table : Store.Table String FailedTransaction (·.id)
  /-- The time of the latest call. -/
  clock : Time

/-- What the environment decides at one call. -/
structure DlqChoice where
  now : Time
  /-- Reject the call, if it is one of the database. -/
  fault : Option PrismaError
  reply : FailedTransaction → Except Err String

def DlqState.put (s : DlqState) (row : FailedTransaction) (now : Time) : DlqState :=
  { table := s.table.put row, clock := now }

def handleDlq (ch : DlqChoice) : (c : DlqCall) → DlqState → Except Err c.Resp × DlqState
  | .dateNow, s => (.ok ch.now, { s with clock := ch.now })
  | .replayFn record, s => (ch.reply record, { s with clock := ch.now })
  | .findUnique id, s =>
    match ch.fault with
    | some e => (.error (.prisma e), { s with clock := ch.now })
    | none => (.ok (s.table.get id), { s with clock := ch.now })
  | .updateManyClaimable id staleBefore data, s =>
    match ch.fault, s.table.get id with
    | some e, _ => (.error (.prisma e), { s with clock := ch.now })
    | none, none => (.ok ⟨0, ch.now⟩, { s with clock := ch.now })
    | none, some row =>
      if row.claimable staleBefore then
        (.ok ⟨1, ch.now⟩, s.put (row.update data ch.now) ch.now)
      else (.ok ⟨0, ch.now⟩, { s with clock := ch.now })
  | .update id data, s =>
    match ch.fault, s.table.get id with
    | some e, _ => (.error (.prisma e), { s with clock := ch.now })
    | none, none => (.error (.prisma .recordNotFound), { s with clock := ch.now })
    | none, some row => (.ok (row.update data ch.now), s.put (row.update data ch.now) ch.now)

abbrev deadLetters : Machine dlq := ⟨DlqState, DlqChoice, handleDlq⟩

abbrev Dlq (α : Type) := Prog dlq α

def dlqCall (c : DlqCall) : Dlq c.Resp := Prog.perform (S := dlq) c

namespace FailedTransactionRepository

def findById (id : String) : Dlq (Option FailedTransaction) :=
  dlqCall (.findUnique id)

def incrementAttempts (id errorMessage : String) : Dlq FailedTransaction :=
  dlqCall (.update id { attempts := 1, errorMessage := some errorMessage })

/-- What the claim and the abandonment share: the conditional write, and the row read back. -/
def updateClaimable (id : String) (staleBefore : Option Time) (data : FailedTransactionData) :
    Dlq (Option FailedTransaction) := do
  let result : BatchPayload ← dlqCall (.updateManyClaimable id staleBefore data)
  if result.count = 0 then pure none else findById id

def claimForReplay (id : String) (staleBefore : Option Time) : Dlq (Option FailedTransaction) :=
  updateClaimable id staleBefore { status := some .REPLAYING }

def releaseClaim (id : String) : Dlq FailedTransaction :=
  dlqCall (.update id { status := some .PENDING_REVIEW })

def markReplayed (id txHash : String) : Dlq FailedTransaction := do
  let now : Time ← dlqCall .dateNow
  dlqCall (.update id
    { status := some .REPLAYED, replayedAt := some now, lastReplayTxHash := some txHash })

def markAbandoned (id : String) (staleBefore : Option Time) : Dlq (Option FailedTransaction) := do
  let now : Time ← dlqCall .dateNow
  updateClaimable id staleBefore { status := some .ABANDONED, reviewedAt := some now }

def markReviewed (id : String) : Dlq FailedTransaction := do
  let now : Time ← dlqCall .dateNow
  dlqCall (.update id { reviewedAt := some now })

end FailedTransactionRepository

/-! ## The service -/

namespace DlqService

open FailedTransactionRepository

def get (id : String) : Dlq FailedTransaction := do
  match ← findById id with
  | none => throw (.notFound s!"Failed transaction {id} not found")
  | some record => pure record

def requireRecord (id : String) : Dlq FailedTransaction := get id

/-- The record is pending, or its claim is stale. -/
def mayProceed (record : FailedTransaction) (staleThreshold : Time) : Bool :=
  record.status = .PENDING_REVIEW ||
    (record.status = .REPLAYING && decide (record.updatedAt ≤ staleThreshold))

/-- The callback, with its failure recorded: the claim is released, then the attempt counted. -/
def attempt (id : String) (claimed : FailedTransaction) : Dlq String :=
  Prog.tryCatch (dlqCall (.replayFn claimed)) fun err => do
    let _ ← releaseClaim id
    let _ ← incrementAttempts id (err.message.getD "")
    throw err

def replay (id : String) : Dlq FailedTransaction := do
  let record ← requireRecord id
  let now : Time ← dlqCall .dateNow
  let staleThreshold := now - REPLAYING_STALE_THRESHOLD_MS
  if mayProceed record staleThreshold = false then
    throw (.conflict
      s!"Failed transaction {id} is not pending review (status: {record.status.name})")
  else
    match ← claimForReplay id (some staleThreshold) with
    | none =>
      throw (.conflict s!"Failed transaction {id} is already being replayed or was replayed")
    | some claimed =>
      let txHash ← attempt id claimed
      FailedTransactionRepository.markReplayed id txHash

def abandon (id : String) : Dlq FailedTransaction := do
  let record ← requireRecord id
  let now : Time ← dlqCall .dateNow
  let staleThreshold := now - REPLAYING_STALE_THRESHOLD_MS
  if mayProceed record staleThreshold = false then
    throw (.conflict
      s!"Failed transaction {id} cannot be abandoned (status: {record.status.name})")
  else
    match ← markAbandoned id (some staleThreshold) with
    | none =>
      throw (.conflict
        s!"Failed transaction {id} cannot be abandoned (status: {record.status.name})")
    | some abandoned => pure abandoned

def markReviewed (id : String) : Dlq FailedTransaction := do
  let _ ← requireRecord id
  FailedTransactionRepository.markReviewed id

end DlqService

inductive DlqOp where
  | replay (id : String)
  | abandon (id : String)
  | markReviewed (id : String)
  deriving DecidableEq

def DlqOp.id : DlqOp → String
  | .replay id | .abandon id | .markReviewed id => id

def DlqOp.replays : DlqOp → Bool
  | .replay _ => true
  | _ => false

def DlqOp.prog : DlqOp → Dlq Unit
  | .replay id => (DlqService.replay id).void
  | .abandon id => (DlqService.abandon id).void
  | .markReviewed id => (DlqService.markReviewed id).void

/-- Any number of executions at once, interleaved call by call. -/
abbrev Desk := Pool deadLetters DlqOp

abbrev runDesk (s : DlqState) (ms : List (Move deadLetters DlqOp)) : Desk :=
  Pool.run DlqOp.prog ⟨s, []⟩ ms

/-! ## What one call can change -/

section frame

variable (ch : DlqChoice) (s : DlqState)

@[simp] theorem handleDlq_clock (c : DlqCall) : (handleDlq ch c s).2.clock = ch.now := by
  cases c with
  | dateNow => rfl
  | replayFn record => rfl
  | findUnique id =>
    simp only [handleDlq]
    split <;> rfl
  | updateManyClaimable id staleBefore data =>
    simp only [handleDlq]
    split
    · rfl
    · rfl
    · split <;> rfl
  | update id data =>
    simp only [handleDlq]
    split <;> rfl

theorem handleDlq_update (id : String) (data : FailedTransactionData) :
    (∃ e, handleDlq ch (.update id data) s = (.error e, { s with clock := ch.now })) ∨
    ∃ row, s.table.get id = some row ∧ handleDlq ch (.update id data) s =
      (.ok (row.update data ch.now), s.put (row.update data ch.now) ch.now) := by
  simp only [handleDlq]
  split
  · exact .inl ⟨_, rfl⟩
  · exact .inl ⟨_, rfl⟩
  · next row _ hrow => exact .inr ⟨row, hrow, rfl⟩

theorem handleDlq_updateMany (id : String) (staleBefore : Option Time)
    (data : FailedTransactionData) :
    (∃ e, handleDlq ch (.updateManyClaimable id staleBefore data) s =
      (.error e, { s with clock := ch.now })) ∨
    handleDlq ch (.updateManyClaimable id staleBefore data) s =
      (.ok ⟨0, ch.now⟩, { s with clock := ch.now }) ∨
    ∃ row, s.table.get id = some row ∧ row.claimable staleBefore = true ∧
      handleDlq ch (.updateManyClaimable id staleBefore data) s =
        (.ok ⟨1, ch.now⟩, s.put (row.update data ch.now) ch.now) := by
  simp only [handleDlq]
  split
  · exact .inl ⟨_, rfl⟩
  · exact .inr (.inl rfl)
  · next row _ hrow =>
    split
    · next hclaimable => exact .inr (.inr ⟨row, hrow, hclaimable, rfl⟩)
    · exact .inr (.inl rfl)

/-- What the call `c` can make of the record `id`. -/
inductive RecordChange (c : DlqCall) (id : String) : Option FailedTransaction → Prop
  | same : RecordChange c id (s.table.get id)
  | updated (data : FailedTransactionData) (row : FailedTransaction) (hc : c = .update id data)
      (hrow : s.table.get id = some row) : RecordChange c id (some (row.update data ch.now))
  | matched (staleBefore : Option Time) (data : FailedTransactionData) (row : FailedTransaction)
      (hc : c = .updateManyClaimable id staleBefore data) (hrow : s.table.get id = some row)
      (hclaimable : row.claimable staleBefore = true) :
      RecordChange c id (some (row.update data ch.now))

theorem handleDlq_record (c : DlqCall) (id : String) :
    RecordChange ch s c id ((handleDlq ch c s).2.table.get id) := by
  -- a row that is put under its own id
  have hput : ∀ {id' : String} {row : FailedTransaction} {data : FailedTransactionData},
      s.table.get id' = some row →
      (s.put (row.update data ch.now) ch.now).table.get id =
        if id = id' then some (row.update data ch.now) else s.table.get id := by
    intro id' row data hrow
    rw [DlqState.put, Store.Table.get_put, FailedTransaction.update_id, s.table.key_of_get hrow]
  cases c with
  | dateNow => exact .same
  | replayFn record => exact .same
  | findUnique id' =>
    simp only [handleDlq]
    split <;> exact .same
  | update id' data =>
    rcases handleDlq_update ch s id' data with ⟨e, heq⟩ | ⟨row, hrow, heq⟩
    · rw [heq]
      exact .same
    · rw [heq, hput hrow]
      split
      · next hid =>
        subst hid
        exact .updated data row rfl hrow
      · exact .same
  | updateManyClaimable id' staleBefore data =>
    rcases handleDlq_updateMany ch s id' staleBefore data with
      ⟨e, heq⟩ | heq | ⟨row, hrow, hclaimable, heq⟩
    · rw [heq]
      exact .same
    · rw [heq]
      exact .same
    · rw [heq, hput hrow]
      split
      · next hid =>
        subst hid
        exact .matched staleBefore data row rfl hrow hclaimable
      · exact .same

end frame

end TrustLink
