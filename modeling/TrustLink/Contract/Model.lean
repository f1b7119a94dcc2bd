import TrustLink.Ingest.Model

/-!
# TrustLink — the contract service

`ContractService` builds, simulates, prepares, signs, submits and confirms Soroban transactions
against whatever `StellarServer` was injected. Every method of that interface is optional, so
which of them exist is data (`StellarServer`), and the code branches on it.

The server itself is not modelled: a program here is a tree over its calls, and each call may be
answered or rejected in any way. What the SDK computes locally (keys, accounts, addresses,
transaction building) may throw; it is the parameter `StellarSdk`. Spans are left out, they pass
results and errors through.
-/

namespace TrustLink

open Effects

/-! ## Values that cross the interface -/

inductive ScVal where
  | address (a : String)
  | u64 (n : Nat)
  | symbol (s : String)
  | string (s : String)
  | vec (items : List ScVal)

structure Account where
  accountId : String
  sequence : String
  deriving DecidableEq, Repr

inductive Networks where
  | PUBLIC
  | TESTNET
  deriving DecidableEq, Repr

/-- One contract invocation; the fee and the time bounds are the same in every transaction. -/
structure Transaction where
  source : Account
  networkPassphrase : Networks
  functionName : String
  args : List ScVal
  signers : List String

/-- What `getAccount` hands back: an SDK account, or one of the shapes `fetchAccount` knows. -/
inductive RawAccount where
  | account (a : Account)
  | sequenceNumber (seq : String)
  | sequence (seq : String)
  | other

/-- `error` is there when the key is; `retval` is what the simulated function returned. -/
structure SimulateTransactionResponse where
  error : Option String
  retval : Option ScVal

structure SendTransactionResponse where
  status : Option String
  hash : Option String
  errorResultXdr : Native
  errorResult : Native

structure GetTransactionResponse where
  status : Option String
  resultXdr : Native

/-- The named parameters of the stub interface. -/
structure LegacyParams where
  callerAddress : Option String
  sourceAddress : Option String
  contractEscrowId : String
  resolution : Option Resolution
  refund : Bool

inductive LegacyTransaction where
  | invoke (operation : String) (sequence : Option String) (params : LegacyParams)
  | getEscrowState (escrowId : String)

structure LegacyResponse where
  hash : Option String
  status : Option String
  resultXdr : Option String

/-! ## Calls -/

/-- The methods the injected server has. -/
structure StellarServer where
  loadAccount : Bool
  getAccount : Bool
  simulateTransaction : Bool
  prepareTransaction : Bool
  sendTransaction : Bool
  getTransaction : Bool
  pollTransaction : Bool
  submitTransaction : Bool
  deriving DecidableEq, Repr

inductive RpcCall where
  | loadAccount (sourceAddress : String)
  | getAccount (sourceAddress : String)
  | simulateTransaction (tx : Transaction)
  | prepareTransaction (tx : Transaction)
  | sendTransaction (tx : Transaction)
  | getTransaction (hash : String)
  | pollTransaction (hash : String)
  | submitTransaction (transaction : LegacyTransaction)
  /-- `Date.now()` -/
  | dateNow
  | setTimeout (ms : Nat)

@[reducible] def RpcCall.Resp : RpcCall → Type
  | .loadAccount _ => Option String
  | .getAccount _ => RawAccount
  | .simulateTransaction _ => SimulateTransactionResponse
  | .prepareTransaction _ => Transaction
  | .sendTransaction _ => SendTransactionResponse
  | .getTransaction _ => GetTransactionResponse
  | .pollTransaction _ => GetTransactionResponse
  | .submitTransaction _ => LegacyResponse
  | .dateNow => Nat
  | .setTimeout _ => Unit

inductive ContractError where
  | ContractCallFailedException (message : String)
  | error (message : String)
  /-- Not an error of the code: the confirmation loop was observed for so long and has not ended. -/
  | unsettled
  deriving DecidableEq, Repr

abbrev soroban : Sig := ⟨RpcCall, RpcCall.Resp, ContractError⟩

/-- A program of the contract service. -/
abbrev Rpc (α : Type) := Prog soroban α

def rpc (c : RpcCall) : Rpc c.Resp := Prog.perform (S := soroban) c

/-- The local computations of the SDK. Each may throw an `Error` with a message. -/
structure StellarSdk where
  /-- `Keypair.fromSecret(secret).publicKey()` -/
  fromSecret : String → Except String String
  /-- `new Account(publicKey, sequence)` -/
  newAccount : String → Option String → Except String Account
  /-- `new Contract(contractId)` -/
  newContract : String → Except String Unit
  /-- `new Address(address).toScVal()` -/
  newAddress : String → Except String ScVal
  /-- `contract.call` and `TransactionBuilder` -/
  build : Account → Networks → String → List ScVal → Except String Transaction
  /-- `rpc.assembleTransaction(tx, simResult).build()`, if the SDK has it -/
  assembleTransaction :
    Option (Transaction → SimulateTransactionResponse → Except String Transaction)
  sign : Transaction → String → Except String Transaction

structure ContractConfig where
  server : Option StellarServer
  CONTRACT_ID : Option String
  SYSTEM_SIGNER_SECRET : Option String
  STELLAR_NETWORK : Option String
  sdk : StellarSdk
  /-- `String.prototype.toLowerCase` -/
  toLowerCase : String → String
  /-- `JSON.stringify` -/
  stringify : Native → Except String String

def TX_CONFIRM_TIMEOUT_MS : Nat := 30000
def TX_CONFIRM_POLL_INTERVAL_MS : Nat := 250

/-- `s.includes(t)` -/
def includes (s t : String) : Bool := decide (t.toList <:+: s.toList)

/-- `String(status)` -/
def statusText (status : Option String) : String := status.getD "undefined"

/-- A local computation of the SDK. -/
def sdk {α : Type} : Except String α → Rpc α
  | .ok a => pure a
  | .error message => throw (.error message)

namespace ContractService

variable (C : ContractConfig)

def getContractId : Rpc String :=
  match truthy C.CONTRACT_ID with
  | none =>
    throw (.ContractCallFailedException "CONTRACT_ID is not configured; cannot invoke contract.")
  | some contractId => pure contractId

def networkPassphrase : Networks :=
  if C.STELLAR_NETWORK = some "MAINNET" then .PUBLIC else .TESTNET

/-- The public key of the signer. A secret that cannot be parsed is only warned about. -/
def signerKeypair : Option String :=
  match truthy C.SYSTEM_SIGNER_SECRET with
  | none => none
  | some secret => (C.sdk.fromSecret secret).toOption

def isSequenceError (text : String) : Bool :=
  let lower := C.toLowerCase text
  includes lower "sequence" || includes lower "tx_bad_seq" || includes lower "bad_seq"

/-- `'error' in simResult || Boolean(simResult.error)` -/
def isSimulationError (simResult : SimulateTransactionResponse) : Bool := simResult.error.isSome

def decodeSimulationError (simResult : SimulateTransactionResponse) : String :=
  (truthy simResult.error).getD "Unknown simulation error"

/-- `value == null ? missing : typeof value === 'string' ? value : JSON.stringify(value)` -/
def payloadText (missing : String) : Native → Rpc String
  | .undefined | .null => pure missing
  | .string s => pure s
  | value => sdk (C.stringify value)

def decodeTransactionError (txResponse : GetTransactionResponse) : Rpc String :=
  payloadText C "Transaction failed on chain" txResponse.resultXdr

def isPendingStatus (status : Option String) : Bool :=
  statusText status = "NOT_FOUND" || statusText status = "PENDING"

/-! ## The steps of an invocation -/

variable (S : StellarServer)

def fetchAccount (publicKey : String) : Rpc Account :=
  if S.getAccount then do
    match (← rpc (.getAccount publicKey) : RawAccount) with
    | .account a => pure a
    | .sequenceNumber seq => sdk (C.sdk.newAccount publicKey (some seq))
    | .sequence seq => sdk (C.sdk.newAccount publicKey (some seq))
    | .other => sdk (C.sdk.newAccount publicKey (some "0"))
  else if S.loadAccount then do
    let seq ← rpc (.loadAccount publicKey)
    sdk (C.sdk.newAccount publicKey seq)
  else sdk (C.sdk.newAccount publicKey (some "0"))

def simulateTransaction (tx : Transaction) : Rpc SimulateTransactionResponse :=
  if S.simulateTransaction then rpc (.simulateTransaction tx)
  else throw (.ContractCallFailedException "simulateTransaction is not supported")

def prepareTransaction (tx : Transaction) (simResult : SimulateTransactionResponse) :
    Rpc Transaction :=
  if S.prepareTransaction then rpc (.prepareTransaction tx)
  else match C.sdk.assembleTransaction with
    | some assemble => sdk (assemble tx simResult)
    | none => pure tx

def signTransaction (tx : Transaction) : Rpc Transaction :=
  match signerKeypair C with
  | none => pure tx
  | some signer => sdk (C.sdk.sign tx signer)

/-- Steps 1 to 5: fetch the account, build, simulate, prepare and sign. -/
def signedTransaction (contractId sourcePublic functionName : String) (args : List ScVal) :
    Rpc Transaction := do
  let account ← fetchAccount C S sourcePublic
  match C.sdk.newContract contractId with
  | .error message => throw (.ContractCallFailedException s!"Invalid contract ID: {message}")
  | .ok _ =>
    let tx ← sdk (C.sdk.build account (networkPassphrase C) functionName args)
    let simResult ← simulateTransaction S tx
    if isSimulationError simResult then
      let errorMsg := decodeSimulationError simResult
      throw (.ContractCallFailedException s!"Simulation failed: {errorMsg}")
    else
      let preparedTx ← Prog.tryCatch (prepareTransaction C S tx simResult) fun
        | .error message =>
          throw (.ContractCallFailedException s!"Transaction preparation failed: {message}")
        | e => throw e
      signTransaction C preparedTx

def submitTransaction (tx : Transaction) : Rpc SendTransactionResponse :=
  if S.sendTransaction then rpc (.sendTransaction tx)
  else throw (.ContractCallFailedException "sendTransaction is not supported")

/-- Step 6. Only the status `ERROR` is a refusal: `DUPLICATE` and `TRY_AGAIN_LATER` go on. -/
def submittedHash (tx : Transaction) : Rpc String := do
  let sendResult ← submitTransaction S tx
  if sendResult.status = some "ERROR" then
    let errorMsg ← payloadText C "Transaction submission returned ERROR status"
      (sendResult.errorResultXdr.orElse sendResult.errorResult)
    if isSequenceError C errorMsg then throw (.error s!"sequence error: {errorMsg}")
    else throw (.ContractCallFailedException s!"Submission failed: {errorMsg}")
  else
    match truthy sendResult.hash with
    | none => throw (.ContractCallFailedException "Missing transaction hash")
    | some txHash => pure txHash

/-- The `while` of `pollWithGetTransaction`, observed for `fuel` rounds. -/
def pollUntilFinal (hash : String) (deadline : Nat) :
    Nat → GetTransactionResponse → Rpc GetTransactionResponse
  | 0, response => if isPendingStatus response.status then throw .unsettled else pure response
  | fuel + 1, response =>
    if isPendingStatus response.status then do
      let now ← rpc .dateNow
      if deadline ≤ now then
        throw (.ContractCallFailedException
          s!"Transaction {hash} was not confirmed within {TX_CONFIRM_TIMEOUT_MS}ms")
      else
        rpc (.setTimeout TX_CONFIRM_POLL_INTERVAL_MS)
        let response ← rpc (.getTransaction hash)
        pollUntilFinal hash deadline fuel response
    else pure response

def pollWithGetTransaction (fuel : Nat) (hash : String) : Rpc GetTransactionResponse := do
  let now ← rpc .dateNow
  let response ← rpc (.getTransaction hash)
  pollUntilFinal hash (now + TX_CONFIRM_TIMEOUT_MS) fuel response

def pollTransactionStatus (fuel : Nat) (hash : String) : Rpc GetTransactionResponse :=
  if S.pollTransaction then rpc (.pollTransaction hash)
  else if S.getTransaction then pollWithGetTransaction fuel hash
  else throw (.ContractCallFailedException
    ("Unable to confirm transaction: the Stellar server exposes neither " ++
      "pollTransaction nor getTransaction"))

/-- Step 7. Every status but `FAILED` is taken for success. -/
def confirmed (fuel : Nat) (txHash : String) : Rpc String := do
  let finalTx ← pollTransactionStatus S fuel txHash
  if statusText finalTx.status = "FAILED" then
    let decodedError ← decodeTransactionError C finalTx
    throw (.ContractCallFailedException s!"Contract execution failed: {decodedError}")
  else pure txHash

/-! ## Invocations -/

/-- The operation name of the stub interface. -/
def legacyOperation : String → String
  | "resolve_dispute" => "resolveDispute"
  | "auto_release" => "autoRelease"
  | "cancel_escrow" => "cancelEscrow"
  | "record_delivery" => "recordDelivery"
  | functionName => functionName

/-- A server with `submitTransaction` and without `simulateTransaction`: a stub that takes the
operation by name and confirms it in one call. -/
def invokeLegacy (functionName : String) (legacyParams : LegacyParams) : Rpc String := do
  let sequence ← match legacyParams.sourceAddress with
    | some sourceAddress =>
      if functionName = "auto_release" ∧ S.loadAccount then rpc (.loadAccount sourceAddress)
      else pure none
    | none => pure none
  let result ← rpc (.submitTransaction
    (.invoke (legacyOperation functionName) sequence legacyParams))
  if result.status = some "ERROR" ∨ result.resultXdr = some "TxFailed" then
    throw (.ContractCallFailedException "Soroban contract call failed")
  else
    match truthy result.hash with
    | none => throw (.ContractCallFailedException "Missing transaction hash")
    | some hash => pure hash

def invokeContract (fuel : Nat) (functionName : String) (args : List ScVal)
    (legacyParams : LegacyParams) : Rpc String :=
  match C.server with
  | none => throw (.ContractCallFailedException "Stellar server is not configured")
  | some S =>
    if S.submitTransaction ∧ S.simulateTransaction = false then
      invokeLegacy S functionName legacyParams
    else do
      let contractId ← getContractId C
      match truthy ((truthy legacyParams.sourceAddress).orElse fun _ => signerKeypair C) with
      | none =>
        throw (.ContractCallFailedException
          ("No source address available: SYSTEM_SIGNER_SECRET is missing or invalid " ++
            "and no sourceAddress was provided"))
      | some sourcePublic =>
        let tx ← signedTransaction C S contractId sourcePublic functionName args
        let txHash ← submittedHash C S tx
        confirmed C S fuel txHash

def cancelEscrowOnChain (fuel : Nat) (contractEscrowId : Nat) (callerAddress : String) :
    Rpc String := do
  let caller ← sdk (C.sdk.newAddress callerAddress)
  invokeContract C fuel "cancel_escrow" [caller, .u64 contractEscrowId]
    { callerAddress := some callerAddress
      sourceAddress := none
      contractEscrowId := toString contractEscrowId
      resolution := none
      refund := true }

def recordDelivery (fuel : Nat) (contractEscrowId : Nat) (callerAddress : String) :
    Rpc String := do
  let caller ← sdk (C.sdk.newAddress callerAddress)
  invokeContract C fuel "record_delivery" [caller, .u64 contractEscrowId]
    { callerAddress := some callerAddress
      sourceAddress := none
      contractEscrowId := toString contractEscrowId
      resolution := none
      refund := false }

/-- A unit variant crosses the XDR boundary as a vector of one symbol. -/
def toResolutionType : Resolution → ScVal
  | .RELEASE => .vec [.symbol "Release"]
  | .REFUND => .vec [.symbol "Refund"]

def resolveDispute (fuel : Nat) (contractEscrowId : Nat) (resolution : Resolution)
    (callerAddress : String) : Rpc String := do
  let caller ← sdk (C.sdk.newAddress callerAddress)
  invokeContract C fuel "resolve_dispute"
    [caller, .u64 contractEscrowId, toResolutionType resolution]
    { callerAddress := some callerAddress
      sourceAddress := none
      contractEscrowId := toString contractEscrowId
      resolution := some resolution
      refund := false }

def DEFAULT_AUTO_RELEASE_MAX_RETRIES : Nat := 2

/-- The `while` of `submitAutoRelease`; `remaining` counts the attempts from `attempt` to
`maxRetries`. Whichever step of an attempt an error comes from, its text alone decides whether there
is another one. -/
def releaseAttempts (fuel maxRetries contractEscrowId : Nat) (sourceAddress : String) :
    (remaining attempt : Nat) → Rpc String
  | 0, _ => throw (.ContractCallFailedException "Max retries exceeded")
  | remaining + 1, attempt =>
    Prog.tryCatch
      (invokeContract C fuel "auto_release" [.u64 contractEscrowId]
        { callerAddress := none
          sourceAddress := some sourceAddress
          contractEscrowId := toString contractEscrowId
          resolution := none
          refund := false })
      fun
        | .error message =>
          if isSequenceError C message ∧ attempt < maxRetries then
            releaseAttempts fuel maxRetries contractEscrowId sourceAddress remaining (attempt + 1)
          else if isSequenceError C message then
            throw (.ContractCallFailedException "Max retries exceeded")
          else throw (.ContractCallFailedException message)
        | e => throw e

def submitAutoRelease (fuel contractEscrowId : Nat) (sourceAddress : String)
    (maxRetries : Nat := DEFAULT_AUTO_RELEASE_MAX_RETRIES) : Rpc String :=
  match C.server with
  | none => throw (.ContractCallFailedException "Stellar server is not configured")
  | some _ => releaseAttempts C fuel maxRetries contractEscrowId sourceAddress (maxRetries + 1) 0

def unknownState : ChainState := ⟨"UNKNOWN", false⟩

/-- The account that read-only simulations are built with. -/
def dummyAccount : String := "GBBD47IF6LWK7P7MDEVSCWR7DPUWV3NY3DTQEVFL4NAT4AQH3ZLLFLA5"

/-- The stub reports the state in `resultXdr`. -/
def getLegacyState (escrowId : String) : Rpc ChainState :=
  Prog.tryCatch
    (do
      let result ← rpc (.submitTransaction (.getEscrowState escrowId))
      if result.status = some "ERROR" then pure unknownState
      else pure ⟨result.resultXdr.getD "CREATED", true⟩)
    fun _ => pure unknownState

/-- The simulation of `get_escrow` is taken as proof that the escrow exists; what it returned is
not looked at. -/
def simulateState (escrowId : String) : Rpc ChainState :=
  Prog.tryCatch
    (do
      let contractId ← getContractId C
      sdk (C.sdk.newContract contractId)
      let account ← sdk (C.sdk.newAccount dummyAccount (some "0"))
      let tx ← sdk (C.sdk.build account (networkPassphrase C) "get_escrow" [.string escrowId])
      let simResult ← simulateTransaction S tx
      if isSimulationError simResult then pure unknownState
      else pure ⟨"CREATED", true⟩)
    fun _ => pure unknownState

def getEscrowState (contractEscrowId : Nat) : Rpc ChainState :=
  match C.server with
  | none => pure unknownState
  | some S =>
    if S.submitTransaction ∧ S.simulateTransaction = false then
      getLegacyState (toString contractEscrowId)
    else simulateState C S (toString contractEscrowId)

end ContractService

end TrustLink
