import TrustLink.Ingest.Model
import Mathlib.Logic.Function.Basic

/-!
# TrustLink — what the ingestion services are connected to

The machine that answers their calls. `ContractEvents` is everything the contract will ever emit,
in order; the RPC shows the part up to the latest closed ledger, a page at a time. Every call may
be rejected and any number of ledgers may close before it is answered; the conditions a statement
needs are put on the environment's choices there.

The journal keeps what the statements are about: which cursors were stored, and which events were
accepted by the escrow service or put into the dead-letter queue.
-/

namespace TrustLink

open Effects JsNumber Store

/-- Paging tokens are issued by the RPC: no two events share one, and none of them looks like the
start ledger this service stores in their place. -/
structure ContractEvents where
  events : List SorobanRpcEvent
  sorted : events.Pairwise fun a b => a.ledger ≤ b.ledger
  tokens_nodup : (events.map (·.pagingToken)).Nodup
  plain : ∀ e ∈ events, isLedgerCursor e.pagingToken = false ∧ e.pagingToken ≠ ""

def ContractEvents.feed (E : ContractEvents) : Feed SorobanRpcEvent String where
  items := E.events
  stamp := (·.ledger)
  token := (·.pagingToken)
  sorted := E.sorted
  tokens_nodup := E.tokens_nodup

/-- Where a request starts; `NaN` is nowhere. -/
def EventsFrom.mark : EventsFrom → Option (Mark String)
  | .startLedger ledger => ledger.map .atStamp
  | .cursor token => some (.afterToken token)

/-- How many events are before a cursor. -/
def ContractEvents.pos (E : ContractEvents) (cursor : String) : Nat :=
  (eventsFrom cursor).mark.elim 0 E.feed.pos

/-! ## The machine

Each call lets any number of ledgers close and is then rejected or answered. Calls to the memory of
the process are never rejected. -/

inductive IngestObs where
  | stored (id cursorValue : String)
  | synced (source : SorobanRpcEvent)
  | enqueued (input : DeadLetter)
  deriving DecidableEq, Repr

structure IngestWorld where
  cursors : String → Option String
  syncRetryCounts : String → Option Nat
  latest : Nat
  /-- Newest first. -/
  journal : List IngestObs

structure IngestChoice where
  /-- Ledgers that close before this call is answered. -/
  closed : IngestCall → Nat
  /-- Reject this call. -/
  fault : IngestCall → Option Err
  parsed : SorobanRpcEvent → Option ParsedSorobanEvent
  escrowId : Nat → Option String
  result : SorobanChainEvent → SyncResult
  operations : String → Option (List OperationRecord)

/-- The calls that only touch the memory of the process. -/
def IngestCall.inMemory : IngestCall → Bool
  | .getRetryCount _ | .setRetryCount _ _ | .deleteRetryCount _ => true
  | _ => false

/-- The answer to a call that is not rejected. -/
def IngestCall.answer (E : ContractEvents) (ch : IngestChoice) :
    (c : IngestCall) → IngestWorld → Except Err c.Resp × IngestWorld
  | .cursorFindById id, w => (.ok (w.cursors id), w)
  | .cursorUpsert id cursorValue, w =>
    (.ok (), { w with
      cursors := Function.update w.cursors id (some cursorValue)
      journal := .stored id cursorValue :: w.journal })
  | .getEvents start limit, w =>
    match start.mark with
    | none => (.error (.error "Soroban RPC error: invalid parameters"), w)
    | some m => (.ok (some (E.feed.page w.latest limit m)), w)
  | .getLatestLedger, w => (.ok (some w.latest), w)
  | .parseEvent raw, w => (.ok (ch.parsed raw), w)
  | .findIdByContractEscrowId contractEscrowId, w => (.ok (ch.escrowId contractEscrowId), w)
  | .syncStateFromChain source event, w =>
    (.ok (ch.result event), { w with journal := .synced source :: w.journal })
  | .enqueue input, w => (.ok (), { w with journal := .enqueued input :: w.journal })
  | .getRetryCount eventId, w => (.ok (w.syncRetryCounts eventId), w)
  | .setRetryCount eventId attempts, w =>
    (.ok (), { w with
      syncRetryCounts := Function.update w.syncRetryCounts eventId (some attempts) })
  | .deleteRetryCount eventId, w =>
    (.ok (), { w with syncRetryCounts := Function.update w.syncRetryCounts eventId none })
  | .getOperations url, w => (.ok (ch.operations url), w)
  | .processOperationDto _, w => (.ok (), w)

def handleIngest (E : ContractEvents) (ch : IngestChoice) (c : IngestCall) (w : IngestWorld) :
    Except Err c.Resp × IngestWorld :=
  let w := { w with latest := w.latest + ch.closed c }
  match if c.inMemory then none else ch.fault c with
  | some e => (.error e, w)
  | none => c.answer E ch w

abbrev network (E : ContractEvents) : Machine ingestion :=
  ⟨IngestWorld, IngestChoice, handleIngest E⟩

/-! ## The two kinds of cursor

A paging token points behind its event, and `ledger:n` in front of the first event of ledger `n`.
Both are positions among the events. -/

/-- The digits that were written are read back. -/
theorem eventsFrom_ledgerCursor (n : Nat) :
    eventsFrom (ledgerCursor n) = .startLedger (some n) := by
  have hlist : (ledgerCursor n).toList = LEDGER_CURSOR_PREFIX.toList ++ Nat.toDigits 10 n :=
    String.toList_ofList
  have hledger : isLedgerCursor (ledgerCursor n) = true := by
    rw [isLedgerCursor, hlist, List.isPrefixOf_iff_prefix]
    exact List.prefix_append _ _
  rw [eventsFrom, if_pos hledger, hlist, List.drop_left, digits_toDigits]

/-- The position of a cursor is that of the mark a request starts at. -/
theorem pos_of_mark {E : ContractEvents} {cursor : String} {m : Mark String}
    (h : (eventsFrom cursor).mark = some m) : E.pos cursor = E.feed.pos m := by
  rw [ContractEvents.pos, h]
  rfl

/-- The position of a start ledger. -/
theorem pos_ledgerCursor (E : ContractEvents) (n : Nat) :
    E.pos (ledgerCursor n) = E.feed.pos (.atStamp n) :=
  pos_of_mark (by rw [eventsFrom_ledgerCursor]; rfl)

/-- The token of an event is a cursor behind it. -/
theorem pos_pagingToken {E : ContractEvents} {i : Nat} {e : SorobanRpcEvent}
    (h : E.events[i]? = some e) : E.pos e.pagingToken = i + 1 := by
  have hplain := (E.plain e (List.mem_of_getElem? h)).1
  have hfrom : eventsFrom e.pagingToken = .cursor e.pagingToken := by
    rw [eventsFrom, if_neg (by rw [hplain]; exact Bool.false_ne_true)]
  rw [ContractEvents.pos, hfrom]
  exact Feed.pos_after_token (F := E.feed) h

/-- A start ledger is never taken for a missing cursor. -/
theorem ledgerCursor_ne (n : Nat) : ledgerCursor n ≠ "" := by
  intro hempty
  have hfrom := eventsFrom_ledgerCursor n
  rw [hempty] at hfrom
  cases hfrom

/-- Neither is the token of an event on a page. -/
theorem pagingToken_truthy {E : ContractEvents} {now limit : Nat} {m : Mark String}
    {e : SorobanRpcEvent} (he : e ∈ E.feed.page now limit m) :
    truthy (some e.pagingToken) = some e.pagingToken := by
  rw [truthy, if_neg (E.plain e (Feed.mem_of_mem_page he)).2]

/-- The answer to a cursor read: the row, or the rejection. -/
theorem handleIngest_read {E : ContractEvents} {w : IngestWorld} (ch : IngestChoice) (id : String) :
    handleIngest E ch (.cursorFindById id) w =
      (match ch.fault (.cursorFindById id) with
        | none => .ok (w.cursors id)
        | some e => .error e,
      { w with latest := w.latest + ch.closed (.cursorFindById id) }) := by
  unfold handleIngest
  cases hfault : ch.fault (.cursorFindById id) with
  | none => simp [IngestCall.inMemory, IngestCall.answer]
  | some e => simp [IngestCall.inMemory]

end TrustLink
