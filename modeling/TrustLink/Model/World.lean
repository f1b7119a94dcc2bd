import TrustLink.Effects.Pool
import TrustLink.Model.Prisma

/-!
# TrustLink — the calls of the backend and what answers them

Everything the modelled services await: the database, the cache, the carrier and the contract
(`ExtCall`), the notification service, the clock and the id generator. `world` answers them.
The environment makes a `Choice` at every call; a rejected database call leaves the tables as
they were, and the cache never rejects: `CacheService` swallows the errors of its client, so a
lost read is a miss and a lost write has no effect.

Two ghost-free records of a run are kept: the tables themselves, and a `journal` of the state
writes and notifications in the order they happened, which no modelled code reads.
-/

namespace TrustLink

open Effects

inductive CacheCall where
  | getEscrow (id : String)
  | setEscrow (id : String) (record : EscrowRecord)
  | delEscrow (id : String)
  | getTracking (trackingId : String)
  | setTracking (trackingId : String) (details : TrackingDetails)
  | delTracking (trackingId : String)
  | getIdempotency (cacheKey : String)
  | setIdempotency (cacheKey : String) (entry : IdempotencyCacheEntry)
  deriving DecidableEq

@[reducible] def CacheCall.Resp : CacheCall → Type
  | .getEscrow _ => Option EscrowRecord
  | .getTracking _ => Option TrackingDetails
  | .getIdempotency _ => Option IdempotencyCacheEntry
  | _ => Unit

/-- The carrier (`LogisticsService`), the contract (`ContractService`) and the contact cipher. -/
inductive ExtCall where
  | getStatus (trackingId : String)
  | getEscrowState (contractEscrowId : Nat)
  | cancelEscrowOnChain (contractEscrowId : Nat) (callerAddress : String)
  | resolveDispute (contractEscrowId : Nat) (resolution : Resolution) (adminAddress : String)
  | recordDelivery (contractEscrowId : Nat) (callerAddress : String)
  | submitAutoRelease (contractEscrowId : Nat) (sourceAddress : String)
  | encryptContact (plaintext : String)
  deriving DecidableEq

@[reducible] def ExtCall.Resp : ExtCall → Type
  | .getStatus _ => TrackingDetails
  | .getEscrowState _ => ChainState
  | _ => String

inductive Call where
  | db (c : DbCall)
  | cache (c : CacheCall)
  | ext (c : ExtCall)
  | notify (n : Notification) (escrow : EscrowRecord)
  | newDate
  | randomUUID
  deriving DecidableEq

@[reducible] def Call.Resp : Call → Type
  | .db c => c.Resp
  | .cache c => c.Resp
  | .ext c => c.Resp
  | .notify _ _ => Unit
  | .newDate => Time
  | .randomUUID => String

abbrev backend : Sig := ⟨Call, Call.Resp, Err⟩

/-! ## The world -/

structure Cache where
  escrow : String → Option EscrowRecord
  tracking : String → Option TrackingDetails
  idempotency : String → Option IdempotencyCacheEntry

/-- What happened to an escrow, as an observer of the tables and the mailbox sees it. -/
inductive Obs where
  | stateWrite (escrowId : String) (before after : EscrowState)
  | notified (n : Notification) (escrowId : String)
  deriving DecidableEq, Repr

def Obs.escrowId : Obs → String
  | .stateWrite id _ _ => id
  | .notified _ id => id

structure World where
  db : Db
  cache : Cache
  /-- Newest first. -/
  journal : List Obs

/-- A world with these escrows, an empty cache and no history. -/
def World.ofEscrows (rows : List EscrowRow) : World where
  db := Db.ofEscrows rows
  cache := ⟨fun _ => none, fun _ => none, fun _ => none⟩
  journal := []

def World.stateOf (w : World) (id : String) : Option EscrowState :=
  (w.db.escrows.get id).map (·.state)

/-- The current version of an escrow. -/
def World.version (w : World) (id : String) : Option EscrowRecord :=
  (w.db.escrows.get id).map toEscrowRecord

/-- What the environment decides at one call. -/
structure Choice where
  /-- Reject this database call. -/
  fault : DbCall → Option PrismaError
  now : Time
  uuid : String
  tie : String → Nat
  /-- A cached entry has expired, or cannot be read. -/
  miss : Bool
  /-- A cache write or eviction is lost. -/
  lost : Bool
  reply : (c : ExtCall) → Except Err c.Resp

/-- Nothing fails, and the outside does not answer. -/
def Choice.calm : Choice where
  fault _ := none
  now := 0
  uuid := "fresh"
  tie _ := 0
  miss := false
  lost := false
  reply _ := .error (.error "no answer")

/-- The observation a database call leaves, if it is accepted. -/
def observed (db : Db) : DbCall → List Obs
  | .escrowUpdate id data =>
    match data.state, db.escrows.get id with
    | some after, some row => [.stateWrite id row.state after]
    | _, _ => []
  | _ => []

def handleDb (ch : Choice) (c : DbCall) (w : World) : Except Err c.Resp × World :=
  match ch.fault c with
  | some e => (.error (.prisma e), w)
  | none =>
    match Db.exec ch.now ch.uuid ch.tie c w.db with
    | (.error e, _) => (.error (.prisma e), w)
    | (.ok r, db) => (.ok r, { w with db := db, journal := observed w.db c ++ w.journal })

def Cache.handle (miss lost : Bool) : (c : CacheCall) → Cache → c.Resp × Cache
  | .getEscrow id, m => (if miss then none else m.escrow id, m)
  | .getTracking trackingId, m => (if miss then none else m.tracking trackingId, m)
  | .setEscrow id record, m =>
    ((), if lost then m else { m with escrow := Function.update m.escrow id (some record) })
  | .delEscrow id, m =>
    ((), if lost then m else { m with escrow := Function.update m.escrow id none })
  | .setTracking trackingId details, m =>
    ((), if lost then m else
      { m with tracking := Function.update m.tracking trackingId (some details) })
  | .delTracking trackingId, m =>
    ((), if lost then m else { m with tracking := Function.update m.tracking trackingId none })
  | .getIdempotency cacheKey, m => (if miss then none else m.idempotency cacheKey, m)
  | .setIdempotency cacheKey entry, m =>
    ((), if lost then m else
      { m with idempotency := Function.update m.idempotency cacheKey (some entry) })

def handle (ch : Choice) : (c : Call) → World → Except Err c.Resp × World
  | .db c, w => handleDb ch c w
  | .cache c, w =>
    let a := w.cache.handle ch.miss ch.lost c
    (.ok a.1, { w with cache := a.2 })
  | .ext c, w => (ch.reply c, w)
  | .notify n escrow, w => (.ok (), { w with journal := .notified n escrow.id :: w.journal })
  | .newDate, w => (.ok ch.now, w)
  | .randomUUID, w => (.ok ch.uuid, w)

abbrev world : Machine backend := ⟨World, Choice, handle⟩

/-- A backend program. -/
abbrev App (α : Type) := Prog backend α

def db (c : DbCall) : App c.Resp := Prog.perform (S := backend) (.db c)

def cache (c : CacheCall) : App c.Resp := Prog.perform (S := backend) (.cache c)

def ext (c : ExtCall) : App c.Resp := Prog.perform (S := backend) (.ext c)

def notify (n : Notification) (escrow : EscrowRecord) : App Unit :=
  Prog.perform (S := backend) (.notify n escrow)

def newDate : App Time := Prog.perform (S := backend) .newDate

def randomUUID : App String := Prog.perform (S := backend) .randomUUID

section wp

variable {σ : Type} {P : Protocol backend σ} {s : σ}

@[simp] theorem wp_db {c : DbCall} {Q : Except Err c.Resp → σ → Prop} :
    (db c).wp P Q s ↔ P.ok s (.db c) ∧ ∀ r s', P.step s (.db c) r s' → Q r s' := Iff.rfl

@[simp] theorem wp_cache {c : CacheCall} {Q : Except Err c.Resp → σ → Prop} :
    (cache c).wp P Q s ↔ P.ok s (.cache c) ∧ ∀ r s', P.step s (.cache c) r s' → Q r s' := Iff.rfl

@[simp] theorem wp_ext {c : ExtCall} {Q : Except Err c.Resp → σ → Prop} :
    (ext c).wp P Q s ↔ P.ok s (.ext c) ∧ ∀ r s', P.step s (.ext c) r s' → Q r s' := Iff.rfl

@[simp] theorem wp_newDate {Q : Except Err Time → σ → Prop} :
    newDate.wp P Q s ↔ P.ok s .newDate ∧ ∀ r s', P.step s .newDate r s' → Q r s' := Iff.rfl

end wp

/-! ## The deployment

What is fixed for the life of a process: optional collaborators and configuration. -/

structure Deployment where
  /-- `CacheService` is wired into the repository and the services. -/
  cache : Bool
  /-- `PrismaService` is wired into `EscrowService`. -/
  prisma : Bool
  /-- `NotificationsService` is wired into `TrackingPollWorker`. -/
  deliveryNotifications : Bool
  ADMIN_ADDRESS : Option String
  AUTO_RELEASE_SOURCE_ADDRESS : Option String
  isContactEncryptionConfigured : Bool
  STELLAR_WEBHOOK_SECRET : Option String
  /-- Does the signature match the raw body under the secret? -/
  signatureMatches : (secret rawBody signature : String) → Bool
  /-- `String.prototype.toUpperCase`. -/
  toUpperCase : String → String
  /-- `Number.prototype.toString`, of the amount of a request. -/
  numberToString : Decimal → String
  /-- The hexadecimal SHA-256 digest of a text. -/
  sha256 : String → String

/-- No cache; everything else that has no secret is there. -/
def Deployment.bare : Deployment where
  cache := false
  prisma := true
  deliveryNotifications := true
  ADMIN_ADDRESS := some "admin"
  AUTO_RELEASE_SOURCE_ADDRESS := some "source"
  isContactEncryptionConfigured := false
  STELLAR_WEBHOOK_SECRET := none
  signatureMatches _ _ _ := false
  toUpperCase := id
  numberToString d := toString d.units
  sha256 := id

/-- The same with a cache. -/
def Deployment.cached : Deployment := { Deployment.bare with cache := true }

end TrustLink
