import TrustLink.Model.Repositories
import TrustLink.Store.Feed

/-!
# TrustLink — ingestion of on-chain events

`SorobanPollerService` reads contract events from the Soroban RPC and passes them to
`syncStateFromChain`; `EventReplayService` replays Horizon operations at startup. Both remember
how far they have come in a cursor row that they read and write through `CursorService`, which
swallows every database error.

The machine below answers their calls. Contract events come from a fixed feed of which the part up
to the latest closed ledger is visible; how many ledgers close is the environment's choice at every
call, and so is what the escrow service, the dead-letter queue and Horizon answer. The decoding of
XDR values, `JSON.stringify` and the text of an error are parameters (`IngestConfig`).
-/

namespace TrustLink

open Effects JsNumber Store

/-! ## Decoded values -/

/-- A JavaScript value, as `scValToNative` and `JSON.parse` produce them. -/
inductive Native where
  | undefined
  | null
  | boolean (b : Bool)
  | number (x : Number)
  | bigint (n : Int)
  | string (s : String)
  | array (items : List Native)
  | object (fields : List (String × Native))

namespace Native

/-- `value?.name`; only objects have fields here. -/
def field (name : String) : Native → Native
  | .object fields => (fields.lookup name).getD .undefined
  | _ => .undefined

/-- `typeof value === 'string' ? value : undefined` -/
def string? : Native → Option String
  | .string s => some s
  | _ => none

/-- `value ?? other` -/
def orElse (other : Native) : Native → Native
  | .undefined | .null => other
  | value => value

end Native

/-- `Number.isSafeInteger(x) && x >= 0`, as the integer. -/
def safeNat? : Number → Option Nat
  | .finite neg m e =>
    let n : Option Nat := if 0 ≤ e then some (m * 2 ^ e.toNat)
      else if m % 2 ^ (-e).toNat = 0 then some (m / 2 ^ (-e).toNat) else none
    n.filter fun n => !neg && decide (n < 2 ^ 53)
  | _ => none

/-- A contract `u64`, whichever way the decoder handed it back. -/
def toContractEscrowId : Native → Option Nat
  | .bigint n => if 0 ≤ n then some n.toNat else none
  | .number x => safeNat? x
  | .string s => digits 10 s.toList
  | _ => none

/-- `parseDisputeResolution` -/
def parseDisputeResolution (toUpperCase : String → String) (value : Native) : Option Resolution :=
  let variant := match value with
    | .array [.string s] => some s
    | .string s => some s
    | _ => none
  match truthy variant with
  | none => none
  | some variant =>
    if toUpperCase variant = "REFUND" then some .REFUND
    else if toUpperCase variant = "RELEASE" then some .RELEASE
    else none

/-- The case of `syncStateFromChain` that an event name selects. -/
def ChainEventType.ofName : String → ChainEventType
  | "EscrowFunded" => .EscrowFunded
  | "EscrowShipped" => .EscrowShipped
  | "EscrowCompleted" => .EscrowCompleted
  | "EscrowCancelled" => .EscrowCancelled
  | "EscrowCanceled" => .EscrowCanceled
  | "DisputeRaised" => .DisputeRaised
  | "DisputeResolved" => .DisputeResolved
  | "AutoReleased" => .AutoReleased
  | "EscrowAutoCancelled" => .EscrowAutoCancelled
  | "EscrowExpired" => .EscrowExpired
  | "RefundApproved" => .RefundApproved
  | name => .other name

structure SorobanRpcEvent where
  id : String
  contractId : String
  kind : String
  ledger : Nat
  pagingToken : String
  topic : List String
  value : String
  deriving DecidableEq, Repr

structure ParsedSorobanEvent where
  topics : List Native
  data : Native

structure LedgerFeedback where
  eventId : String
  contractId : String
  kind : String
  ledger : Nat
  pagingToken : String
  topic : List String
  deriving DecidableEq, Repr

def SorobanRpcEvent.feedback (raw : SorobanRpcEvent) : LedgerFeedback where
  eventId := raw.id
  contractId := raw.contractId
  kind := raw.kind
  ledger := raw.ledger
  pagingToken := raw.pagingToken
  topic := raw.topic

structure DeadLetter where
  operation : String
  escrowId : Option String
  errorMessage : String
  ledgerFeedback : LedgerFeedback
  deriving DecidableEq, Repr

/-- The start of a `getEvents` request. `Number` of something that is not a numeral is `NaN`. -/
inductive EventsFrom where
  | startLedger (ledger : Option Nat)
  | cursor (token : String)
  deriving DecidableEq, Repr

/-- A record of Horizon's answer: `Record<string, unknown>`. -/
abbrev OperationRecord := List (String × Native)

inductive IngestCall where
  | cursorFindById (id : String)
  | cursorUpsert (id cursorValue : String)
  | getEvents (start : EventsFrom) (limit : Nat)
  | getLatestLedger
  | parseEvent (raw : SorobanRpcEvent)
  | findIdByContractEscrowId (contractEscrowId : Nat)
  /-- `source` is the raw event the call is made for; the service is not given it. -/
  | syncStateFromChain (source : SorobanRpcEvent) (event : SorobanChainEvent)
  | enqueue (input : DeadLetter)
  /-- `syncRetryCounts`, in the memory of the process. -/
  | getRetryCount (eventId : String)
  | setRetryCount (eventId : String) (attempts : Nat)
  | deleteRetryCount (eventId : String)
  | getOperations (url : String)
  | processOperationDto (dto : StellarWebhookDto)

@[reducible] def IngestCall.Resp : IngestCall → Type
  | .cursorFindById _ => Option String
  | .getEvents _ _ => Option (List SorobanRpcEvent)
  | .getLatestLedger => Option Nat
  | .parseEvent _ => Option ParsedSorobanEvent
  | .findIdByContractEscrowId _ => Option String
  | .syncStateFromChain _ _ => SyncResult
  | .getRetryCount _ => Option Nat
  | .getOperations _ => Option (List OperationRecord)
  | _ => Unit

abbrev ingestion : Sig := ⟨IngestCall, IngestCall.Resp, Err⟩

/-- A program of the ingestion services. -/
abbrev Ingest (α : Type) := Prog ingestion α

/-- Make a call. -/
def call (c : IngestCall) : Ingest c.Resp := Prog.perform (S := ingestion) c

/-! ## The programs -/

structure IngestConfig where
  SOROBAN_START_LEDGER : Option Nat
  horizonUrl : String
  toUpperCase : String → String
  encodeURIComponent : String → String
  /-- `String(value)` -/
  text : Native → String
  /-- `JSON.stringify(value)`, which throws on a bigint. -/
  stringify : Native → Except Err String
  /-- `err instanceof Error ? err.message : String(err)` -/
  errorText : Err → String

namespace CursorService

def DEFAULT_KEY : String := "stellar-listener"
def EVENT_REPLAY_KEY : String := "horizon-event-replay"

/-- A cursor that cannot be read is reported like one that was never stored. -/
def get (key : String) : Ingest (Option String) :=
  Prog.tryCatch (call (.cursorFindById key)) fun _ => pure none

def set (cursorValue key : String) : Ingest Unit :=
  Prog.tryCatch (call (.cursorUpsert key cursorValue)) fun _ => pure ()

end CursorService

def START_LEDGER_MARGIN : Nat := 10
def MAX_SYNC_RETRIES : Nat := 5
def LEDGER_CURSOR_PREFIX : String := "ledger:"

/-- What a plain object inherits under this name, as a template literal renders it. -/
def inheritedText (name : String) : Option String :=
  if name = "__proto__" then some "[object Object]"
  else if name = "constructor" then some "function Object() \x7b [native code] \x7d"
  else if name ∈ ["hasOwnProperty", "isPrototypeOf", "propertyIsEnumerable", "toLocaleString",
      "toString", "valueOf", "__defineGetter__", "__defineSetter__", "__lookupGetter__",
      "__lookupSetter__"] then
    some ("function " ++ name ++ "() \x7b [native code] \x7d")
  else none

/-- `EVENT_TYPE_OVERRIDES[name] ?? name`; the other entries of the table map a name to itself. The
table is a plain object, so an inherited name hits it too. -/
def overrideEventType : String → String
  | "EscrowReleased" => "AutoReleased"
  | "EscrowCanceled" => "EscrowCancelled"
  | "EscrowAutoCncl" => "EscrowAutoCancelled"
  | name => (inheritedText name).getD name

/-- `cursor.startsWith(LEDGER_CURSOR_PREFIX)` -/
def isLedgerCursor (cursor : String) : Bool :=
  LEDGER_CURSOR_PREFIX.toList.isPrefixOf cursor.toList

/-- `${LEDGER_CURSOR_PREFIX}${ledger}` -/
def ledgerCursor (ledger : Nat) : String :=
  String.ofList (LEDGER_CURSOR_PREFIX.toList ++ Nat.toDigits 10 ledger)

/-- The two ways a cursor is sent to `getEvents`. -/
def eventsFrom (cursor : String) : EventsFrom :=
  if isLedgerCursor cursor then
    .startLedger (digits 10 (cursor.toList.drop LEDGER_CURSOR_PREFIX.toList.length))
  else .cursor cursor

namespace SorobanPollerService

variable (C : IngestConfig)

def getLatestLedger : Ingest Nat := do
  match (← call .getLatestLedger : Option Nat) with
  | none => throw (.error "Soroban RPC getLatestLedger returned no ledger sequence")
  | some sequence => pure sequence

/-- `Math.max(1, latest - START_LEDGER_MARGIN)` -/
def marginLedger (latest : Nat) : Nat := max 1 (latest - START_LEDGER_MARGIN)

def resolveStartLedger : Ingest Nat :=
  match C.SOROBAN_START_LEDGER with
  | some configured =>
    -- a configured zero is falsy
    if configured ≠ 0 then pure configured else do
      let latest ← getLatestLedger
      pure (marginLedger latest)
  | none => do
    let latest ← getLatestLedger
    pure (marginLedger latest)

def fetchEvents (cursor : String) : Ingest (List SorobanRpcEvent) := do
  let events ← call (.getEvents (eventsFrom cursor) 100)
  pure (events.getD [])

/-- A dead letter that cannot be stored is lost: the error is only logged. -/
def deadLetter (raw : SorobanRpcEvent) (escrowId : Option String) (reason : String) : Ingest Unit :=
  Prog.tryCatch
    (call (.enqueue
      { operation := "soroban_event_sync"
        escrowId := escrowId
        errorMessage := reason
        ledgerFeedback := raw.feedback }))
    fun _ => pure ()

/-- The event handed to `syncStateFromChain`. -/
def chainEvent (raw : SorobanRpcEvent) (eventType escrowId : String) (data : Native) :
    SorobanChainEvent where
  eventType := .ofName eventType
  escrowId := escrowId
  trackingId := (data.field "tracking_id").string?.orElse fun _ => (data.field "trackingId").string?
  txHash := if eventType = "AutoReleased" then some raw.id else (data.field "txHash").string?
  reason := (data.field "reason").string?
  resolution := parseDisputeResolution C.toUpperCase (data.field "resolution")

/-- The failed attempts of an event are counted; at the fifth it is given up. -/
def onSyncFailed (raw : SorobanRpcEvent) (eventType escrowId : String) (err : Err) : Ingest Unit := do
  let count ← call (.getRetryCount raw.id)
  let attempts := count.getD 0 + 1
  call (.setRetryCount raw.id attempts)
  if attempts ≥ MAX_SYNC_RETRIES then
    call (.deleteRetryCount raw.id)
    let message := C.errorText err
    deadLetter raw (some escrowId)
      s!"syncStateFromChain failed {attempts} times for event \"{eventType}\": {message}"
  else throw err

def syncEvent (raw : SorobanRpcEvent) (eventType escrowId : String) (data : Native) : Ingest Unit :=
  Prog.tryCatch
    (do
      let _ ← call (.syncStateFromChain raw (chainEvent C raw eventType escrowId data))
      call (.deleteRetryCount raw.id))
    (onSyncFailed C raw eventType escrowId)

def processEvent (raw : SorobanRpcEvent) : Ingest Unit := do
  match (← call (.parseEvent raw) : Option ParsedSorobanEvent) with
  | none => deadLetter raw none "event payload could not be parsed"
  | some parsed =>
    let first := parsed.topics.getD 0 .undefined
    let second := parsed.topics.getD 1 .undefined
    match truthy first.string?, truthy second.string? with
    | some topic0, some topic1 =>
      let eventType := overrideEventType (topic0 ++ topic1)
      let escrow_id := parsed.data.field "escrow_id"
      match toContractEscrowId escrow_id with
      | none =>
        match C.stringify (escrow_id.orElse .null) with
        | .error e => throw e
        | .ok got =>
          deadLetter raw none
            (s!"event \"{eventType}\" payload is missing a usable escrow_id " ++ s!"(got {got})")
      | some contractEscrowId =>
        let found ← call (.findIdByContractEscrowId contractEscrowId)
        match truthy found with
        | none =>
          deadLetter raw none
            (s!"event \"{eventType}\" references contract escrow " ++
              s!"{contractEscrowId}, which maps to no backend escrow")
        | some escrowId => syncEvent C raw eventType escrowId parsed.data
    | _, _ =>
      let text0 := C.text first
      let text1 := C.text second
      deadLetter raw none s!"non-string topics [{text0}, {text1}]"

/-- The batch stops at the first event that throws; the answer is the last token before it. -/
def processBatch : List SorobanRpcEvent → Option String → Ingest (Option String)
  | [], lastPagingToken => pure lastPagingToken
  | raw :: rest, lastPagingToken =>
    (processEvent C raw).andThen fun
      | .ok _ => processBatch rest (some raw.pagingToken)
      | .error _ => pure lastPagingToken

/-- Nothing is stored yet: a start ledger is stored before it is used. -/
def startCursor : Ingest String := do
  let startLedger ← resolveStartLedger C
  CursorService.set (ledgerCursor startLedger) CursorService.DEFAULT_KEY
  pure (ledgerCursor startLedger)

/-- The cursor to fetch from. -/
def currentCursor : Ingest String := do
  match truthy (← CursorService.get CursorService.DEFAULT_KEY) with
  | some cursor => pure cursor
  | none => startCursor C

/-- The contract is quiet: both kinds of cursor are replaced by a ledger just behind the latest. -/
def advanceQuiet : Ingest Unit := do
  let latestLedger ← Prog.tryCatch (do let latest ← getLatestLedger; pure (some latest))
    fun _ => pure none
  match latestLedger with
  | none => pure ()
  | some latest =>
    if latest = 0 then pure ()
    else CursorService.set (ledgerCursor (marginLedger latest)) CursorService.DEFAULT_KEY

/-- The token of the last event that was handled becomes the cursor. -/
def storeLast (lastPagingToken : Option String) : Ingest Unit :=
  match truthy lastPagingToken with
  | none => pure ()
  | some token => CursorService.set token CursorService.DEFAULT_KEY

def pollFrom (cursor : String) : Ingest Unit := do
  let rawEvents ← fetchEvents cursor
  match rawEvents with
  | [] => advanceQuiet
  | raw :: rest =>
    let lastPagingToken ← processBatch C (raw :: rest) none
    storeLast lastPagingToken

def pollInternal : Ingest Unit := do
  let cursor ← currentCursor C
  pollFrom C cursor

/-- One tick. Whatever goes wrong is logged. -/
def poll : Ingest Unit := Prog.tryCatch (pollInternal C) fun _ => pure ()

end SorobanPollerService

namespace EventReplayService

variable (C : IngestConfig)

def field (record : OperationRecord) (name : String) : Native := Native.field name (.object record)

def toDto (record : OperationRecord) : StellarWebhookDto where
  id := (field record "id").string?.getD ""
  kind := (field record "type").string?.getD ""
  transaction_hash := (field record "transaction_hash").string?.getD ""
  to_ := (field record "to").string?
  amount := (field record "amount").string?
  asset_code := (field record "asset_code").string?

/-- `String(record.paging_token ?? record.id)` -/
def cursorOf (record : OperationRecord) : String :=
  C.text ((field record "paging_token").orElse (field record "id"))

/-- An operation that throws is logged, and the next one is tried. -/
def replay : List OperationRecord → Ingest Unit
  | [] => pure ()
  | record :: rest => do
    Prog.tryCatch (call (.processOperationDto (toDto record))) fun _ => pure ()
    replay rest

/-- The request of a startup. -/
def operationsUrl (cursor : Option String) : String :=
  C.horizonUrl ++ "/operations?order=asc&limit=200" ++
    match truthy cursor with
    | some cursor => "&cursor=" ++ C.encodeURIComponent cursor
    | none => ""

/-- The cursor of the last record, whatever became of the others. -/
def persistCursor (records : List OperationRecord) : Ingest Unit :=
  match records.getLast? with
  | none => pure ()
  | some lastRec => CursorService.set (cursorOf C lastRec) CursorService.EVENT_REPLAY_KEY

def onModuleInit : Ingest Unit :=
  Prog.tryCatch
    (do
      let cursor ← CursorService.get CursorService.EVENT_REPLAY_KEY
      let embedded ← call (.getOperations (operationsUrl C cursor))
      let records := embedded.getD []
      replay records
      persistCursor C records)
    fun _ => pure ()

end EventReplayService

/-- A configuration without a start ledger. -/
def IngestConfig.unset : IngestConfig where
  SOROBAN_START_LEDGER := none
  horizonUrl := "horizon"
  toUpperCase := id
  encodeURIComponent := id
  text value := value.string?.getD "value"
  stringify _ := .ok "value"
  errorText _ := "error"

def SorobanRpcEvent.sample (ledger : Nat) : SorobanRpcEvent where
  id := "e"
  contractId := "c"
  kind := "contract"
  ledger := ledger
  pagingToken := "t"
  topic := []
  value := ""

end TrustLink
