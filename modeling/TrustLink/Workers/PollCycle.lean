import TrustLink.Model.Grounds
import TrustLink.Workers.Batch

/-!
# TrustLink — the tracking poll

A cycle of `TrackingPollWorker` selects the escrows whose carrier was asked least recently, never
asked first, and processes them as a batch with bounded concurrency. Processing an escrow ends with
`markTrackingChecked`, in a `finally`: whatever the carrier and the contract did, the escrow has
been checked now.

`TrackingStep` is one atomic step of the worker and of everything that goes on beside it. The
worker's steps are those of the batch (`Batch.step`) and the calls of the programs it awaits, one at
a time; between any two of them another operation may make a call, and what is not modelled here
(the settings of a vendor, the mapping of a contract) may change as it likes, as long as it leaves
the times of checks and creations alone.

The steps are those of the executions in question: the worker's database calls succeed, and a time
that is written is later than every time that was stored when the cycle began.
-/

namespace TrustLink

open Effects

/-- The `where` of `findShippedWithTracking`. The settings say for a vendor that has some whether
tracking is enabled. -/
def shippedWithTracking (settings : String → Option Bool) (row : EscrowRow) : Bool :=
  row.state = .SHIPPED && row.trackingId.isSome && row.contractEscrowId.isSome &&
    settings row.vendorAddress ≠ some false

structure PollKey where
  trackingCheckedAt : Option Time
  createdAt : Time
  deriving DecidableEq

def pollKey (row : EscrowRow) : PollKey := ⟨row.trackingCheckedAt, row.createdAt⟩

/-- The `orderBy` of `findShippedWithTracking`: the time of the last check, nulls first, and then
the time of creation. -/
def PollKey.notAfter (a b : PollKey) : Bool :=
  match a.trackingCheckedAt, b.trackingCheckedAt with
  | none, none => a.createdAt ≤ b.createdAt
  | none, some _ => true
  | some _, none => false
  | some s, some t => s < t || (s = t && a.createdAt ≤ b.createdAt)

/-- The answers the query may get: rows with equal keys come in any order. -/
def FindShippedWithTracking (settings : String → Option Bool) (limit : Nat) (db : Db)
    (rows : List EscrowRow) : Prop :=
  ∃ all : List EscrowRow, all.Perm (db.escrows.rows.filter (shippedWithTracking settings)) ∧
    all.Pairwise (fun a b => (pollKey a).notAfter (pollKey b)) ∧ rows = all.take limit

/-! ## The worker -/

structure TrackingLimits where
  batchSize : Nat
  concurrency : WithTop ℚ
  one_le_concurrency : 1 ≤ concurrency

/-- `TRACKING_POLL_BATCH_SIZE` and `TRACKING_POLL_CONCURRENCY`. -/
def TRACKING_POLL : TrackingLimits where
  batchSize := 50
  concurrency := (5 : ℚ)
  one_le_concurrency := by exact_mod_cast (by norm_num : (1 : ℚ) ≤ 5)

/-- A cycle that has selected its shipments. -/
structure TrackingBatch where
  /-- The world when the cycle began. -/
  start : World
  shipments : List EscrowRecord
  batch : Batch EscrowRecord
  /-- What is left of the call for each position. -/
  programs : List (App Unit)

inductive TrackingPhase where
  | idle
  | querying (start : World)
  | processing (b : TrackingBatch)

structure TrackingState where
  world : World
  settings : String → Option Bool
  phase : TrackingPhase
  /-- What each cycle so far has selected. -/
  selections : List (List EscrowRecord)

/-- Rows that are there before and after were checked and created at the same times. -/
def KeepsTimes (w w' : World) : Prop :=
  ∀ id row row', w.db.escrows.get id = some row → w'.db.escrows.get id = some row' →
    row'.trackingCheckedAt = row.trackingCheckedAt ∧ row'.createdAt = row.createdAt

/-- Later than every check that is stored. -/
def LaterThanChecks (w : World) (t : Time) : Prop :=
  ∀ id row t', w.db.escrows.get id = some row → row.trackingCheckedAt = some t' → t' < t

/-- A database call does not fail, and a time of check is later than those at the beginning. -/
structure Call.Succeeds (start w : World) (ch : Choice) (c : Call) : Prop where
  ok : (∃ d, c = .db d) → ∃ r, (handle ch c w).1 = .ok r
  later : ∀ id data t, c = .db (.escrowUpdate id data) → data.trackingCheckedAt = some (some t) →
    LaterThanChecks start t

inductive TrackingStep (D : Deployment) (limits : TrackingLimits) (s : TrackingState) :
    TrackingState → Prop where
  /-- Another operation makes one of its calls. -/
  | operation (op : Op) (c : Call) (ch : Choice) (hop : ∀ snapshot, op ≠ .processShipment snapshot)
      (hmakes : op.Makes c) :
      TrackingStep D limits s { s with world := (handle ch c s.world).2 }
  | outside (w : World) (settings : String → Option Bool) (hkeeps : KeepsTimes s.world w) :
      TrackingStep D limits s { s with world := w, settings := settings }
  | begin (hidle : s.phase = .idle) : TrackingStep D limits s { s with phase := .querying s.world }
  | query (start : World) (rows : List EscrowRow) (hphase : s.phase = .querying start)
      (hrows : FindShippedWithTracking s.settings limits.batchSize s.world.db rows) :
      TrackingStep D limits s { s with
        phase := .processing
          { start
            shipments := rows.map toEscrowRecord
            batch := .empty
            programs := (rows.map toEscrowRecord).map (TrackingPollWorker.processShipment D) }
        selections := s.selections ++ [rows.map toEscrowRecord] }
  /-- The batch goes on. A call settles when its program has. -/
  | batch (b : TrackingBatch) (e : BatchEvent) (batch : Batch EscrowRecord)
      (hphase : s.phase = .processing b)
      (hsettle : ∀ k outcome, e = .settle k outcome → ∃ item position,
        b.batch.runners[k]? = some (.awaiting item position) ∧
        b.programs[position]? = some (.done outcome))
      (hstep : b.batch.step (·.id) b.shipments limits.concurrency e = some batch) :
      TrackingStep D limits s { s with phase := .processing { b with batch := batch } }
  /-- A program that a runner awaits makes its next call. -/
  | call (b : TrackingBatch) (k position : Nat) (item : EscrowRecord) (c : Call)
      (rest : Except Err c.Resp → App Unit) (ch : Choice) (hphase : s.phase = .processing b)
      (hrunner : b.batch.runners[k]? = some (.awaiting item position))
      (hprogram : b.programs[position]? = some (.call c rest))
      (hsucceeds : c.Succeeds b.start s.world ch) :
      TrackingStep D limits s { s with
        world := (handle ch c s.world).2
        phase := .processing
          { b with programs := b.programs.set position (rest (handle ch c s.world).1) } }
  | finish (b : TrackingBatch) (hphase : s.phase = .processing b)
      (hresolved : b.batch.resolved = true) : TrackingStep D limits s { s with phase := .idle }

namespace TrackingState

variable (s : TrackingState)

/-- The escrows the query would consider. -/
def eligible : Finset String :=
  ((s.world.db.escrows.rows.filter (shippedWithTracking s.settings)).map (·.id)).toFinset

/-- The others of them whose key is not greater than this one. -/
def upTo (key : PollKey) (id : String) : Finset String :=
  ((s.world.db.escrows.rows.filter fun row =>
    shippedWithTracking s.settings row && (pollKey row).notAfter key && row.id ≠ id).map
      (·.id)).toFinset

/-- The other eligible escrows whose key is not greater than that of the escrow `id`. -/
def ahead (id : String) : Finset String :=
  match s.world.db.escrows.get id with
  | some row => s.upTo (pollKey row) id
  | none => ∅

variable {s} {id : String}

theorem mem_eligible : id ∈ s.eligible ↔ ∃ row, s.world.db.escrows.get id = some row ∧
    shippedWithTracking s.settings row = true := by
  simp only [eligible, List.mem_toFinset, List.mem_map, List.mem_filter,
    s.world.db.escrows.mem_rows_iff]
  constructor
  · rintro ⟨row, ⟨hrow, heligible⟩, rfl⟩
    exact ⟨row, hrow, heligible⟩
  · rintro ⟨row, hrow, heligible⟩
    have hid : row.id = id := get_id hrow
    exact ⟨row, ⟨by rw [hid]; exact hrow, heligible⟩, hid⟩

theorem mem_upTo {key : PollKey} {y : String} : y ∈ s.upTo key id ↔
    ∃ row, s.world.db.escrows.get y = some row ∧ shippedWithTracking s.settings row = true ∧
      (pollKey row).notAfter key = true ∧ y ≠ id := by
  simp only [upTo, List.mem_toFinset, List.mem_map, List.mem_filter,
    s.world.db.escrows.mem_rows_iff, Bool.and_eq_true, decide_eq_true_eq]
  constructor
  · rintro ⟨row, ⟨hrow, ⟨heligible, hkey⟩, hne⟩, rfl⟩
    exact ⟨row, hrow, heligible, hkey, hne⟩
  · rintro ⟨row, hrow, heligible, hkey, hne⟩
    have hid : row.id = y := get_id hrow
    exact ⟨row, ⟨by rw [hid]; exact hrow, ⟨heligible, hkey⟩, by rw [hid]; exact hne⟩, hid⟩

end TrackingState

end TrustLink
