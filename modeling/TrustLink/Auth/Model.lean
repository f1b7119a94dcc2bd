import TrustLink.Model.Repositories
import TrustLink.Store.Rows

/-!
# TrustLink — SEP-10 authentication and refresh tokens

`Sep10Service` hands out challenges, redeems a signed challenge for a pair of tokens, and rotates
refresh tokens; `RefreshTokenCleanupService` and `NonceCleanupService` delete expired rows. All of
it is a few Prisma calls on two tables, `Nonce` and `RefreshToken`.

The cryptography is a parameter (`Sep10Config`): building, reading and verifying a challenge, the
hash of a transaction, the HMAC, the signature of an access token. Generated ids are numbers that
are drawn in order, so they never repeat; a random refresh token is the environment's choice, and
one whose hash is taken is rejected by the unique column like any other. Next to the tables the
world keeps every refresh token that was ever created, which no modelled code reads.
-/

namespace TrustLink

open Effects Store

/-! ## Tables

Rows are marked, never rewritten: their keys stay. -/

structure Nonce where
  id : Nat
  nonce : String
  walletAddress : String
  challenge : String
  used : Bool
  expiresAt : Time
  createdAt : Time
  deriving DecidableEq, Repr

structure RefreshToken where
  id : Nat
  userId : String
  tokenHash : String
  parentTokenId : Option Nat
  revoked : Bool
  expiresAt : Time
  createdAt : Time
  deriving DecidableEq, Repr

structure AuthDb where
  nonces : Rows Nonce Nat String (·.id) (·.nonce)
  refreshTokens : Rows RefreshToken Nat String (·.id) (·.tokenHash)
  /-- The id that is generated next. -/
  nextId : Nat
  nonces_lt : ∀ n ∈ nonces.rows, n.id < nextId
  refreshTokens_lt : ∀ t ∈ refreshTokens.rows, t.id < nextId

def Nonce.markUsed (id : Nat) (n : Nonce) : Nonce := if n.id = id then { n with used := true } else n

def RefreshToken.revokeId (id : Nat) (t : RefreshToken) : RefreshToken :=
  if t.id = id then { t with revoked := true } else t

def RefreshToken.revokeUser (userId : String) (t : RefreshToken) : RefreshToken :=
  if t.userId = userId then { t with revoked := true } else t

section keys

variable (id : Nat) (userId : String) (n : Nonce) (t : RefreshToken)

@[simp] theorem Nonce.markUsed_id : (n.markUsed id).id = n.id := by
  unfold Nonce.markUsed; split <;> rfl

@[simp] theorem Nonce.markUsed_nonce : (n.markUsed id).nonce = n.nonce := by
  unfold Nonce.markUsed; split <;> rfl

@[simp] theorem RefreshToken.revokeId_id : (t.revokeId id).id = t.id := by
  unfold RefreshToken.revokeId; split <;> rfl

@[simp] theorem RefreshToken.revokeId_tokenHash : (t.revokeId id).tokenHash = t.tokenHash := by
  unfold RefreshToken.revokeId; split <;> rfl

@[simp] theorem RefreshToken.revokeUser_id : (t.revokeUser userId).id = t.id := by
  unfold RefreshToken.revokeUser; split <;> rfl

@[simp] theorem RefreshToken.revokeUser_tokenHash :
    (t.revokeUser userId).tokenHash = t.tokenHash := by
  unfold RefreshToken.revokeUser; split <;> rfl

end keys

inductive AuthCall where
  | nonceCreate (nonce walletAddress challenge : String) (expiresAt : Time)
  | nonceFindUnique (nonce : String)
  /-- `nonce.deleteMany({ where: { expiresAt: { lt: before } } })` -/
  | nonceDeleteExpired (before : Time)
  /-- `nonce.update({ where: { id }, data: { used: true } })` -/
  | nonceUpdateUsed (id : Nat)
  | refreshTokenFindByHash (tokenHash : String)
  | refreshTokenFindById (id : Nat)
  /-- `refreshToken.update({ where: { id }, data: { revoked: true } })` -/
  | refreshTokenUpdateRevoked (id : Nat)
  /-- `refreshToken.updateMany({ where: { userId }, data: { revoked: true } })` -/
  | refreshTokenUpdateManyRevoked (userId : String)
  | refreshTokenCreate (userId tokenHash : String) (parentTokenId : Option Nat) (expiresAt : Time)
  /-- `refreshToken.deleteMany({ where: { expiresAt: { lt: before } } })` -/
  | refreshTokenDeleteExpired (before : Time)
  | newDate
  /-- `randomBytes(32).toString('hex')`, and the randomness of a challenge. -/
  | randomBytes
  deriving DecidableEq

@[reducible] def AuthCall.Resp : AuthCall → Type
  | .nonceFindUnique _ => Option Nonce
  | .nonceDeleteExpired _ => Nat
  | .refreshTokenFindByHash _ => Option RefreshToken
  | .refreshTokenFindById _ => Option RefreshToken
  | .refreshTokenUpdateManyRevoked _ => Nat
  | .refreshTokenDeleteExpired _ => Nat
  | .newDate => Time
  | .randomBytes => String
  | _ => Unit

abbrev authentication : Sig := ⟨AuthCall, AuthCall.Resp, Err⟩

/-- A program of the authentication services. -/
abbrev Auth (α : Type) := Prog authentication α

def auth (c : AuthCall) : Auth c.Resp := Prog.perform (S := authentication) c

/-- A call is performed. -/
theorem wp_auth {σ : Type} {P : Protocol authentication σ} {s : σ} {c : AuthCall}
    {Q : Except Err c.Resp → σ → Prop} :
    (auth c).wp P Q s ↔ P.ok s c ∧ ∀ r s', P.step s c r s' → Q r s' := Iff.rfl

/-! ## The world -/

structure AuthWorld where
  db : AuthDb
  /-- Every refresh token that was created, newest first. -/
  issued : List RefreshToken

structure AuthChoice where
  /-- Reject this database call. -/
  fault : AuthCall → Option PrismaError
  now : Time
  random : String

namespace AuthDb

variable (db : AuthDb)

def useNonce (id : Nat) : AuthDb :=
  { db with
    nonces := db.nonces.modify (Nonce.markUsed id) (Nonce.markUsed_id id) (Nonce.markUsed_nonce id)
    nonces_lt := by
      intro n hn
      obtain ⟨n', hn', rfl⟩ := (Rows.mem_modify _ _).mp hn
      rw [Nonce.markUsed_id]
      exact db.nonces_lt n' hn' }

/-- Rewrite refresh tokens without touching their ids and hashes. -/
def rewriteTokens (f : RefreshToken → RefreshToken) (hid : ∀ t, (f t).id = t.id)
    (hhash : ∀ t, (f t).tokenHash = t.tokenHash) : AuthDb :=
  { db with
    refreshTokens := db.refreshTokens.modify f hid hhash
    refreshTokens_lt := by
      intro t ht
      obtain ⟨t', ht', rfl⟩ := (Rows.mem_modify _ _).mp ht
      rw [hid]
      exact db.refreshTokens_lt t' ht' }

def revokeToken (id : Nat) : AuthDb :=
  db.rewriteTokens (RefreshToken.revokeId id) (RefreshToken.revokeId_id id)
    (RefreshToken.revokeId_tokenHash id)

def revokeUser (userId : String) : AuthDb :=
  db.rewriteTokens (RefreshToken.revokeUser userId) (RefreshToken.revokeUser_id userId)
    (RefreshToken.revokeUser_tokenHash userId)

def deleteExpiredNonces (before : Time) : AuthDb :=
  { db with
    nonces := db.nonces.filter fun n => before ≤ n.expiresAt
    nonces_lt := fun n hn => db.nonces_lt n (Rows.mem_filter.mp hn).1 }

def deleteExpired (before : Time) : AuthDb :=
  { db with
    refreshTokens := db.refreshTokens.filter fun t => before ≤ t.expiresAt
    refreshTokens_lt := fun t ht => db.refreshTokens_lt t (Rows.mem_filter.mp ht).1 }

def newNonce (now : Time) (nonce walletAddress challenge : String) (expiresAt : Time) : Nonce where
  id := db.nextId
  nonce := nonce
  walletAddress := walletAddress
  challenge := challenge
  used := false
  expiresAt := expiresAt
  createdAt := now

def addNonce (n : Nonce) (hid : n.id = db.nextId)
    (hnonce : ∀ n' ∈ db.nonces.rows, n'.nonce ≠ n.nonce) : AuthDb where
  nonces := db.nonces.insert n (fun n' hn' => by
    rw [hid]; exact Nat.ne_of_lt (db.nonces_lt n' hn')) hnonce
  refreshTokens := db.refreshTokens
  nextId := db.nextId + 1
  nonces_lt := by
    intro n' hn'
    rcases (Rows.mem_insert _ _).mp hn' with rfl | hold
    · omega
    · exact Nat.lt_succ_of_lt (db.nonces_lt n' hold)
  refreshTokens_lt t ht := Nat.lt_succ_of_lt (db.refreshTokens_lt t ht)

def newToken (now : Time) (userId tokenHash : String) (parentTokenId : Option Nat)
    (expiresAt : Time) : RefreshToken where
  id := db.nextId
  userId := userId
  tokenHash := tokenHash
  parentTokenId := parentTokenId
  revoked := false
  expiresAt := expiresAt
  createdAt := now

def addToken (t : RefreshToken) (hid : t.id = db.nextId)
    (hhash : ∀ t' ∈ db.refreshTokens.rows, t'.tokenHash ≠ t.tokenHash) : AuthDb where
  nonces := db.nonces
  refreshTokens := db.refreshTokens.insert t (fun t' ht' => by
    rw [hid]; exact Nat.ne_of_lt (db.refreshTokens_lt t' ht')) hhash
  nextId := db.nextId + 1
  nonces_lt n hn := Nat.lt_succ_of_lt (db.nonces_lt n hn)
  refreshTokens_lt := by
    intro t' ht'
    rcases (Rows.mem_insert _ _).mp ht' with rfl | hold
    · omega
    · exact Nat.lt_succ_of_lt (db.refreshTokens_lt t' hold)

section membership

variable {db} {n : Nonce} {t : RefreshToken} {id : Nat} {userId : String} {before : Time}

/-- Marking a nonce keeps the rows. -/
theorem mem_useNonce :
    n ∈ (db.useNonce id).nonces.rows ↔ ∃ n' ∈ db.nonces.rows, n'.markUsed id = n :=
  Rows.mem_modify (Nonce.markUsed_id id) (Nonce.markUsed_nonce id)

/-- So does revoking a token. -/
theorem mem_revokeToken : t ∈ (db.revokeToken id).refreshTokens.rows ↔
    ∃ t' ∈ db.refreshTokens.rows, t'.revokeId id = t :=
  Rows.mem_modify (RefreshToken.revokeId_id id) (RefreshToken.revokeId_tokenHash id)

/-- And revoking all tokens of a user. -/
theorem mem_revokeUser : t ∈ (db.revokeUser userId).refreshTokens.rows ↔
    ∃ t' ∈ db.refreshTokens.rows, t'.revokeUser userId = t :=
  Rows.mem_modify (RefreshToken.revokeUser_id userId) (RefreshToken.revokeUser_tokenHash userId)

theorem mem_deleteExpired (h : t ∈ (db.deleteExpired before).refreshTokens.rows) :
    t ∈ db.refreshTokens.rows := (Rows.mem_filter.mp h).1

/-- A new token is the only new row. -/
theorem mem_addToken {new : RefreshToken} (hid : new.id = db.nextId)
    (hhash : ∀ t' ∈ db.refreshTokens.rows, t'.tokenHash ≠ new.tokenHash) :
    t ∈ (db.addToken new hid hhash).refreshTokens.rows ↔ t = new ∨ t ∈ db.refreshTokens.rows :=
  Rows.mem_insert (fun t' ht' => by rw [hid]; exact Nat.ne_of_lt (db.refreshTokens_lt t' ht')) hhash

end membership

end AuthDb

/-- The world after a refresh token was created. -/
def AuthWorld.withToken (w : AuthWorld) (t : RefreshToken) (hid : t.id = w.db.nextId)
    (hhash : ∀ t' ∈ w.db.refreshTokens.rows, t'.tokenHash ≠ t.tokenHash) : AuthWorld where
  db := w.db.addToken t hid hhash
  issued := t :: w.issued

/-- The answer of the database, if the call is not rejected from outside. -/
def AuthWorld.exec (ch : AuthChoice) :
    (c : AuthCall) → AuthWorld → Except PrismaError c.Resp × AuthWorld
  | .nonceCreate nonce walletAddress challenge expiresAt, w =>
    let n := w.db.newNonce ch.now nonce walletAddress challenge expiresAt
    if h : ∀ n' ∈ w.db.nonces.rows, n'.nonce ≠ n.nonce then
      (.ok (), { w with db := w.db.addNonce n rfl h })
    else (.error .uniqueConstraint, w)
  | .nonceFindUnique nonce, w => (.ok (w.db.nonces.findAlt nonce), w)
  | .nonceDeleteExpired before, w =>
    (.ok (w.db.nonces.rows.countP fun n => n.expiresAt < before),
      { w with db := w.db.deleteExpiredNonces before })
  | .nonceUpdateUsed id, w =>
    match w.db.nonces.find id with
    | none => (.error .recordNotFound, w)
    | some _ => (.ok (), { w with db := w.db.useNonce id })
  | .refreshTokenFindByHash tokenHash, w => (.ok (w.db.refreshTokens.findAlt tokenHash), w)
  | .refreshTokenFindById id, w => (.ok (w.db.refreshTokens.find id), w)
  | .refreshTokenUpdateRevoked id, w =>
    match w.db.refreshTokens.find id with
    | none => (.error .recordNotFound, w)
    | some _ => (.ok (), { w with db := w.db.revokeToken id })
  | .refreshTokenUpdateManyRevoked userId, w =>
    (.ok (w.db.refreshTokens.rows.countP fun t => t.userId = userId),
      { w with db := w.db.revokeUser userId })
  | .refreshTokenCreate userId tokenHash parentTokenId expiresAt, w =>
    let t := w.db.newToken ch.now userId tokenHash parentTokenId expiresAt
    if h : ∀ t' ∈ w.db.refreshTokens.rows, t'.tokenHash ≠ t.tokenHash then
      (.ok (), w.withToken t rfl h)
    else (.error .uniqueConstraint, w)
  | .refreshTokenDeleteExpired before, w =>
    (.ok (w.db.refreshTokens.rows.countP fun t => t.expiresAt < before),
      { w with db := w.db.deleteExpired before })
  | .newDate, w => (.ok ch.now, w)
  | .randomBytes, w => (.ok ch.random, w)

/-- A database call, which the environment may reject. -/
def AuthWorld.query (ch : AuthChoice) (c : AuthCall) (w : AuthWorld) :
    Except Err c.Resp × AuthWorld :=
  match ch.fault c with
  | some e => (.error (.prisma e), w)
  | none =>
    match w.exec ch c with
    | (.error e, w') => (.error (.prisma e), w')
    | (.ok r, w') => (.ok r, w')

/-- The clock and the random source do not fail. -/
def handleAuth (ch : AuthChoice) : (c : AuthCall) → AuthWorld → Except Err c.Resp × AuthWorld
  | .newDate, w => (.ok ch.now, w)
  | .randomBytes, w => (.ok ch.random, w)
  | c, w => w.query ch c

abbrev authWorld : Machine authentication := ⟨AuthWorld, AuthChoice, handleAuth⟩

/-! ## What a call does

A rejected call changes nothing. -/

def AuthCall.writesNonces : AuthCall → Bool
  | .nonceCreate .. | .nonceUpdateUsed _ | .nonceDeleteExpired _ => true
  | _ => false

def AuthCall.writesTokens : AuthCall → Bool
  | .refreshTokenUpdateRevoked _ | .refreshTokenUpdateManyRevoked _ | .refreshTokenCreate ..
  | .refreshTokenDeleteExpired _ => true
  | _ => false

section frame

variable (ch : AuthChoice) (w : AuthWorld)

/-- What is rejected changes nothing. -/
theorem exec_rejected {c : AuthCall} {e : PrismaError} {w' : AuthWorld}
    (h : w.exec ch c = (.error e, w')) : w' = w := by
  cases c <;> simp only [AuthWorld.exec] at h
  case nonceCreate | refreshTokenCreate | nonceUpdateUsed | refreshTokenUpdateRevoked =>
    split at h
    · cases h <;> rfl
    · cases h <;> rfl
  all_goals cases h

/-- A query is rejected, or it is executed. -/
theorem query_cases (c : AuthCall) : (∃ e, w.query ch c = (.error e, w)) ∨
    ∃ r w', w.exec ch c = (.ok r, w') ∧ w.query ch c = (.ok r, w') := by
  unfold AuthWorld.query
  cases ch.fault c with
  | some e => exact .inl ⟨_, rfl⟩
  | none =>
    match hexec : w.exec ch c with
    | (.error e, w') =>
      rw [exec_rejected ch w hexec]
      exact .inl ⟨_, rfl⟩
    | (.ok r, w') => exact .inr ⟨r, w', rfl, rfl⟩

/-- A call is rejected and changes nothing, or does what the database does. -/
theorem handleAuth_cases (c : AuthCall) : (∃ e, handleAuth ch c w = (.error e, w)) ∨
    ∃ r w', w.exec ch c = (.ok r, w') ∧ handleAuth ch c w = (.ok r, w') := by
  cases c with
  | newDate => exact .inr ⟨_, _, rfl, rfl⟩
  | randomBytes => exact .inr ⟨_, _, rfl, rfl⟩
  | _ => exact query_cases ch w _

/-- Without a rejection from outside, the answer is the database's. -/
theorem handleAuth_of_exec {c : AuthCall} {r : c.Resp} {w' : AuthWorld} (hfault : ch.fault c = none)
    (h : w.exec ch c = (.ok r, w')) : handleAuth ch c w = (.ok r, w') := by
  have hquery : w.query ch c = (.ok r, w') := by
    unfold AuthWorld.query
    rw [hfault, h]
  cases c with
  | newDate => cases h; rfl
  | randomBytes => cases h; rfl
  | _ => exact hquery

variable {ch w} {c : AuthCall}

/-- The calls about tokens leave the nonces alone. -/
theorem handleAuth_nonces (hc : c.writesNonces = false) :
    (handleAuth ch c w).2.db.nonces = w.db.nonces := by
  rcases handleAuth_cases ch w c with ⟨e, heq⟩ | ⟨r, w', hexec, heq⟩
  · rw [heq]
  · rw [heq]
    cases c <;> simp only [AuthWorld.exec] at hexec
    case nonceCreate | nonceUpdateUsed | nonceDeleteExpired => cases hc
    case refreshTokenCreate | refreshTokenUpdateRevoked =>
      split at hexec <;> cases hexec
      rfl
    all_goals (cases hexec; rfl)

/-- The refresh tokens and their record are as they were; ids may have been drawn. -/
structure SameTokens (w w' : AuthWorld) : Prop where
  refreshTokens : w'.db.refreshTokens = w.db.refreshTokens
  issued : w'.issued = w.issued
  nextId : w.db.nextId ≤ w'.db.nextId

/-- The calls about nonces leave the tokens alone. -/
theorem handleAuth_tokens (hc : c.writesTokens = false) : SameTokens w (handleAuth ch c w).2 := by
  rcases handleAuth_cases ch w c with ⟨e, heq⟩ | ⟨r, w', hexec, heq⟩
  · rw [heq]
    exact ⟨rfl, rfl, Nat.le_refl _⟩
  · rw [heq]
    cases c <;> simp only [AuthWorld.exec] at hexec
    case refreshTokenUpdateRevoked | refreshTokenUpdateManyRevoked | refreshTokenCreate
      | refreshTokenDeleteExpired => cases hc
    case nonceCreate =>
      split at hexec <;> cases hexec
      exact ⟨rfl, rfl, Nat.le_succ _⟩
    case nonceUpdateUsed =>
      split at hexec <;> cases hexec
      exact ⟨rfl, rfl, Nat.le_refl _⟩
    all_goals (cases hexec; exact ⟨rfl, rfl, Nat.le_refl _⟩)

/-- An accepted redemption marks the row. -/
theorem handleAuth_nonceUpdateUsed (ch : AuthChoice) (w : AuthWorld) (id : Nat) :
    (∃ e, handleAuth ch (.nonceUpdateUsed id) w = (.error e, w)) ∨
      handleAuth ch (.nonceUpdateUsed id) w = (.ok (), { w with db := w.db.useNonce id }) := by
  rcases handleAuth_cases ch w (.nonceUpdateUsed id) with h | ⟨r, w', hexec, heq⟩
  · exact .inl h
  · simp only [AuthWorld.exec] at hexec
    split at hexec <;> cases hexec
    exact .inr heq

theorem handleAuth_refreshTokenUpdateRevoked (ch : AuthChoice) (w : AuthWorld) (id : Nat) :
    (∃ e, handleAuth ch (.refreshTokenUpdateRevoked id) w = (.error e, w)) ∨
      handleAuth ch (.refreshTokenUpdateRevoked id) w
        = (.ok (), { w with db := w.db.revokeToken id }) := by
  rcases handleAuth_cases ch w (.refreshTokenUpdateRevoked id) with h | ⟨r, w', hexec, heq⟩
  · exact .inl h
  · simp only [AuthWorld.exec] at hexec
    split at hexec <;> cases hexec
    exact .inr heq

/-- An accepted creation stores a new unrevoked row, and records it. -/
theorem handleAuth_refreshTokenCreate (ch : AuthChoice) (w : AuthWorld) (userId tokenHash : String)
    (parentTokenId : Option Nat) (expiresAt : Time) :
    (∃ e, handleAuth ch (.refreshTokenCreate userId tokenHash parentTokenId expiresAt) w
        = (.error e, w)) ∨
      ∃ h, handleAuth ch (.refreshTokenCreate userId tokenHash parentTokenId expiresAt) w
        = (.ok (), w.withToken
            (w.db.newToken ch.now userId tokenHash parentTokenId expiresAt) rfl h) := by
  rcases handleAuth_cases ch w (.refreshTokenCreate userId tokenHash parentTokenId expiresAt) with
    h | ⟨r, w', hexec, heq⟩
  · exact .inl h
  · simp only [AuthWorld.exec] at hexec
    split at hexec <;> cases hexec
    next h => exact .inr ⟨h, heq⟩

end frame

/-! ## `Sep10Service` -/

inductive TokenRole where
  | admin
  deriving DecidableEq, Repr

structure AccessTokenPayload where
  sub : String
  iat : Int
  exp : Int
  role : Option TokenRole
  deriving DecidableEq, Repr

structure AuthTokens where
  token : String
  refreshToken : String
  deriving DecidableEq, Repr

structure Sep10Config where
  /-- `WebAuth.buildChallengeTx`, with the time and the randomness it uses. -/
  buildChallengeTx : (accountId : String) → (timeout : Nat) → (now : Time) → (random : String) →
    Except String String
  /-- The client account `WebAuth.readChallengeTx` returns at this time. -/
  readChallengeTx : (now : Time) → (challengeTx : String) → Except String String
  /-- `TransactionBuilder.fromXDR` and the hash of the transaction, in hex. -/
  hashTx : (challengeTx : String) → Except String String
  /-- `WebAuth.verifyChallengeTxSigners` for the client account at this time. -/
  verifyChallengeTxSigners : (now : Time) → (challengeTx clientAccountID : String) →
    Except String Unit
  SEP10_JWT_SECRET : Option String
  ADMIN_ADDRESS : Option String
  ACCESS_TOKEN_TTL : Option Nat
  REFRESH_TOKEN_TTL : Option Nat
  /-- `createHmac('sha256', secret).update(token).digest('hex')` -/
  hmac : (secret token : String) → String
  /-- The signed token with this payload. -/
  signJwt : (secret : String) → AccessTokenPayload → String

def MILLISECONDS_PER_SECOND : Int := 1000
def SECONDS_PER_DAY : Nat := 24 * 60 * 60
def CHALLENGE_TIMEOUT_SECONDS : Nat := 5 * 60
def REFRESH_TOKEN_TTL_DEFAULT : Nat := 7 * SECONDS_PER_DAY

namespace Sep10Service

variable (C : Sep10Config)

def jwtSecret : Auth String :=
  match truthy C.SEP10_JWT_SECRET with
  | none => throw (.error "SEP10_JWT_SECRET is not configured. Refusing to sign or hash tokens.")
  | some secret => pure secret

def hashToken (token : String) : Auth String := do
  let secret ← jwtSecret C
  pure (C.hmac secret token)

def roleOf (sub : String) : Option TokenRole :=
  match truthy C.ADMIN_ADDRESS with
  | some adminAddress => if sub = adminAddress then some .admin else none
  | none => none

def issueJwt (sub : String) : Auth String := do
  let now ← auth .newDate
  let iat := now / MILLISECONDS_PER_SECOND
  let secret ← jwtSecret C
  pure (C.signJwt secret ⟨sub, iat, iat + (C.ACCESS_TOKEN_TTL.getD 3600 : Nat), roleOf C sub⟩)

/-- `REFRESH_TOKEN_TTL || REFRESH_TOKEN_TTL_DEFAULT` -/
def refreshTokenTtl : Nat :=
  match C.REFRESH_TOKEN_TTL with
  | some ttl => if ttl = 0 then REFRESH_TOKEN_TTL_DEFAULT else ttl
  | none => REFRESH_TOKEN_TTL_DEFAULT

def generateAuthTokens (userId : String) (parentTokenId : Option Nat) : Auth AuthTokens := do
  let token ← issueJwt C userId
  let refreshToken ← auth .randomBytes
  let tokenHash ← hashToken C refreshToken
  let now ← auth .newDate
  auth (.refreshTokenCreate userId tokenHash parentTokenId
    (now + refreshTokenTtl C * MILLISECONDS_PER_SECOND))
  pure ⟨token, refreshToken⟩

def buildChallenge (accountId : String) (timeout : Nat := CHALLENGE_TIMEOUT_SECONDS) :
    Auth String := do
  let now ← auth .newDate
  let random ← auth .randomBytes
  match C.buildChallengeTx accountId timeout now random with
  | .error message => throw (.error message)
  | .ok challengeTx =>
    match C.hashTx challengeTx with
    | .error message => throw (.error message)
    | .ok txHash =>
      let now ← auth .newDate
      auth (.nonceCreate txHash accountId challengeTx (now + timeout * MILLISECONDS_PER_SECOND))
      pure challengeTx

/-- What the first `try` of `verifyAndIssueToken` computes: the client account and the hash. -/
def readChallenge (now : Time) (challengeTx : String) : Except String (String × String) := do
  let clientAccountID ← C.readChallengeTx now challengeTx
  let txHash ← C.hashTx challengeTx
  pure (clientAccountID, txHash)

/-- The rest of `verifyAndIssueToken` once the nonce row was found unused: the row is marked by id,
whatever it says by then. -/
def redeem (challengeTx clientAccountID : String) (nonceRecord : Nonce) : Auth AuthTokens := do
  let now ← auth .newDate
  if nonceRecord.expiresAt < now then throw (.unauthorized "Challenge expired")
  else
    let now ← auth .newDate
    match C.verifyChallengeTxSigners now challengeTx clientAccountID with
    | .error message => throw (.unauthorized message)
    | .ok _ =>
      auth (.nonceUpdateUsed nonceRecord.id)
      generateAuthTokens C clientAccountID none

def verifyAndIssueToken (challengeTx : String) : Auth AuthTokens := do
  let now ← auth .newDate
  match readChallenge C now challengeTx with
  | .error message => throw (.unauthorized message)
  | .ok (clientAccountID, txHash) =>
    match (← auth (.nonceFindUnique txHash) : Option Nonce) with
    | none => throw (.unauthorized "Challenge not found")
    | some nonceRecord =>
      if nonceRecord.used then throw (.unauthorized "Challenge has already been used")
      else redeem C challengeTx clientAccountID nonceRecord

/-- All tokens of the user who owns the token, not only its chain. -/
def revokeTokenFamily (tokenId : Nat) : Auth Unit := do
  match (← auth (.refreshTokenFindById tokenId) : Option RefreshToken) with
  | none => pure ()
  | some token =>
    let _ ← auth (.refreshTokenUpdateManyRevoked token.userId)
    pure ()

/-- The rest of `rotateRefreshToken` once the token was found unrevoked: it is revoked by id, and
gets a child. -/
def exchange (storedToken : RefreshToken) : Auth AuthTokens := do
  let now ← auth .newDate
  if storedToken.expiresAt < now then throw (.unauthorized "Refresh token expired")
  else
    auth (.refreshTokenUpdateRevoked storedToken.id)
    generateAuthTokens C storedToken.userId (some storedToken.id)

def rotateRefreshToken (oldToken : String) : Auth AuthTokens := do
  let tokenHash ← hashToken C oldToken
  match (← auth (.refreshTokenFindByHash tokenHash) : Option RefreshToken) with
  | none => throw (.unauthorized "Invalid refresh token")
  | some storedToken =>
    if storedToken.revoked then
      revokeTokenFamily storedToken.id
      throw (.unauthorized "Refresh token reuse detected. All sessions revoked.")
    else exchange C storedToken

section only

variable {C} {K : AuthCall → Prop}

theorem only_jwtSecret : (jwtSecret C).Only K := by
  unfold jwtSecret
  split
  · exact only_throw _
  · exact only_pure _

theorem only_hashToken (token : String) : (hashToken C token).Only K :=
  only_bind only_jwtSecret fun _ => only_pure _

theorem only_issueJwt (hdate : K .newDate) (sub : String) : (issueJwt C sub).Only K :=
  only_bind (only_perform hdate) fun _ =>
    only_bind only_jwtSecret fun _ => only_pure _

/-- The pair is made of a date and of random bytes, and stored by one call. -/
theorem only_generateAuthTokens {userId : String} {parentTokenId : Option Nat}
    (hdate : K .newDate) (hrandom : K .randomBytes)
    (hcreate : ∀ tokenHash expiresAt,
      K (.refreshTokenCreate userId tokenHash parentTokenId expiresAt)) :
    (generateAuthTokens C userId parentTokenId).Only K := by
  refine only_bind (only_issueJwt hdate userId) fun token => ?_
  refine only_bind (only_perform hrandom) fun refreshToken => ?_
  refine only_bind (only_hashToken refreshToken) fun tokenHash => ?_
  refine only_bind (only_perform hdate) fun now => ?_
  exact only_bind (only_perform (hcreate _ _)) fun _ => only_pure _

/-- The calls of `generateAuthTokens`: what the clock and the random source keep holds until the
token is created, and what the creation establishes then holds at the end. -/
theorem wp_generateAuthTokens {σ : Type} {P : Protocol authentication σ} {I J : σ → Prop} {s : σ}
    {userId : String} {parentTokenId : Option Nat} (hIJ : ∀ s, I s → J s)
    (hquiet : ∀ c s, c = .newDate ∨ c = .randomBytes → I s →
      P.ok s c ∧ ∀ r s', P.step s c r s' → I s')
    (hcreate : ∀ s tokenHash expiresAt, I s →
      P.ok s (.refreshTokenCreate userId tokenHash parentTokenId expiresAt) ∧
        ∀ r s', P.step s (.refreshTokenCreate userId tokenHash parentTokenId expiresAt) r s' → J s')
    (hs : I s) : (generateAuthTokens C userId parentTokenId).wp P (fun _ s' => J s') s := by
  have hkeeps : ∀ {α : Type} {p : Auth α} {s : σ},
      p.Only (fun c : AuthCall => c = .newDate ∨ c = .randomBytes) → I s → p.wp P (fun _ s' => I s') s :=
    fun hp hs => hp.wp_invariant hquiet hs
  -- everything up to the insert reads the clock or draws bytes
  rw [generateAuthTokens]
  refine wp_seq (hkeeps (only_issueJwt (.inl rfl) userId) hs) (fun _ => hIJ) ?_
  intro token s hs
  refine wp_seq (hkeeps (only_perform (.inr rfl)) hs) (fun _ => hIJ) ?_
  intro refreshToken s hs
  refine wp_seq (hkeeps (only_hashToken refreshToken) hs) (fun _ => hIJ) ?_
  intro tokenHash s hs
  refine wp_seq (hkeeps (only_perform (.inl rfl)) hs) (fun _ => hIJ) ?_
  intro now s hs
  obtain ⟨hok, hstep⟩ := hcreate s tokenHash
    (now + refreshTokenTtl C * MILLISECONDS_PER_SECOND) hs
  rw [wp_bind, wp_auth]
  refine ⟨hok, fun r s' hs' => ?_⟩
  cases r with
  | error e => exact hstep _ s' hs'
  | ok _ => exact hstep _ s' hs'

end only

end Sep10Service

namespace RefreshTokenCleanupService

def GRACE_PERIOD_MS : Int := 30 * 24 * 60 * 60 * 1000

def cleanupExpiredRefreshTokens : Auth Unit := do
  let now ← auth .newDate
  let _ ← auth (.refreshTokenDeleteExpired (now - GRACE_PERIOD_MS))
  pure ()

end RefreshTokenCleanupService

namespace NonceCleanupService

def cleanupExpiredNonces : Auth Unit := do
  let now ← auth .newDate
  let _ ← auth (.nonceDeleteExpired now)
  pure ()

end NonceCleanupService

/-! ## A small deployment

Every transaction is its own hash and belongs to Alice. -/

def Sep10Config.plain : Sep10Config where
  buildChallengeTx accountId _ _ random := .ok (accountId ++ random)
  readChallengeTx _ _ := .ok "alice"
  hashTx challengeTx := .ok challengeTx
  verifyChallengeTxSigners _ _ _ := .ok ()
  SEP10_JWT_SECRET := some "secret"
  ADMIN_ADDRESS := none
  ACCESS_TOKEN_TTL := none
  REFRESH_TOKEN_TTL := none
  hmac secret token := secret ++ token
  signJwt _ payload := payload.sub

def AuthWorld.empty : AuthWorld where
  db := ⟨Rows.empty, Rows.empty, 0, nofun, nofun⟩
  issued := []

/-- Nothing fails, and this is the next random token. -/
def AuthChoice.calm (random : String) : AuthChoice := ⟨fun _ => none, 0, random⟩

end TrustLink
