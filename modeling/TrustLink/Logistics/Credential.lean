import Mathlib.Logic.Function.Basic
import TrustLink.Common.Encryption

/-!
# TrustLink — the logistics credential

`LogisticsService` keeps the carrier's API key encrypted in memory and, when a repository is wired
in, in its row of `ProviderCredential`. Starting an instance copies the row into memory; rotating the
key assigns the field first and writes the row after it.

The two therefore part when the write is rejected: the field already has the new key. A run of
rotations keeps them together exactly if every rejected rotation submitted the key that was current
(`rotation_all_or_nothing_iff`).
-/

namespace TrustLink

open Text

def LOGISTICS_CREDENTIAL_PROVIDER : String := "logistics"

structure LogisticsConfig where
  gcm : AuthenticatedCipher
  replaced : List UInt8 → List Char
  LOGISTICS_API_KEY : Option String
  CREDENTIAL_ENCRYPTION_KEY : Option String
  /-- The repository is injected. -/
  providerCredentialRepository : Bool
  /-- Prisma is injected into the repository. -/
  prisma : Bool

structure LogisticsState where
  /-- `this.apiKey` -/
  apiKey : Option String
  /-- The rows of `ProviderCredential`: the encrypted key of each provider. -/
  credentials : String → Option String

variable (C : LogisticsConfig)

namespace ProviderCredentialRepository

def findByProvider (fault : Option PrismaError) (provider : String) (s : LogisticsState) :
    Except Err (Option String) :=
  if C.prisma then
    match fault with
    | some e => .error (.prisma e)
    | none => .ok (s.credentials provider)
  else .ok none

def upsert (fault : Option PrismaError) (provider encryptedKey : String) (s : LogisticsState) :
    Except Err Unit × LogisticsState :=
  if C.prisma then
    match fault with
    | some e => (.error (.prisma e), s)
    | none => (.ok (), { s with credentials := Function.update s.credentials provider encryptedKey })
  else (.ok (), s)

end ProviderCredentialRepository

namespace LogisticsService

/-- The environment variable, for a first start with nothing stored. -/
def loadFromEnvironment (iv : Iv) (s : LogisticsState) : Except Err Unit × LogisticsState :=
  match truthy C.LOGISTICS_API_KEY, truthy C.CREDENTIAL_ENCRYPTION_KEY with
  | some envToken, some key =>
    match encryptCredential C.gcm iv envToken key with
    | .ok encryptedKey => (.ok (), { s with apiKey := encryptedKey })
    | .error e => (.error e, s)
  | _, _ => (.ok (), s)

def loadPersistedApiKey (fault : Option PrismaError) (iv : Iv) (s : LogisticsState) :
    Except Err Unit × LogisticsState :=
  if C.providerCredentialRepository then
    match ProviderCredentialRepository.findByProvider C fault LOGISTICS_CREDENTIAL_PROVIDER s with
    | .ok (some encryptedKey) => (.ok (), { s with apiKey := encryptedKey })
    -- nothing stored, or the read failed and was logged
    | .ok none | .error _ => loadFromEnvironment C iv s
  else loadFromEnvironment C iv s

/-- One rotation: the key submitted, the IV drawn and the answer of the database. -/
structure Rotation where
  key : String
  iv : Iv
  fault : Option PrismaError

def rotateApiKey (call : Rotation) (s : LogisticsState) : Except Err Unit × LogisticsState :=
  match truthy C.CREDENTIAL_ENCRYPTION_KEY with
  | none => (.error (.error "CREDENTIAL_ENCRYPTION_KEY is not configured"), s)
  | some encryptionKey =>
    match encryptCredential C.gcm call.iv call.key encryptionKey with
    | .error e => (.error e, s)
    | .ok encryptedKey =>
      let s := { s with apiKey := encryptedKey }
      if C.providerCredentialRepository then
        ProviderCredentialRepository.upsert C call.fault LOGISTICS_CREDENTIAL_PROVIDER encryptedKey s
      else (.ok (), s)

def getApiKey (s : LogisticsState) : Except Err (Option String) :=
  match truthy s.apiKey with
  | none => .ok none
  | some stored =>
    match truthy C.CREDENTIAL_ENCRYPTION_KEY with
    | none => .error (.error "Failed to decrypt logistics API key")
    | some encryptionKey =>
      match decryptCredential C.gcm C.replaced stored encryptionKey with
      | .ok key => .ok (some key)
      | .error _ => .error (.error "Failed to decrypt logistics API key")

end LogisticsService

open LogisticsService

/-! ## Runs

A rotation sets the field before it writes the row, so the two differ after a rejected write. -/

/-- An instance started on these rows. -/
def started (iv : Iv) (s : LogisticsState) : LogisticsState :=
  (loadPersistedApiKey C none iv { s with apiKey := none }).2

/-- The key an instance started now would have. -/
def loadedKey (iv : Iv) (s : LogisticsState) : Except Err (Option String) :=
  getApiKey C (started C iv s)

/-- After every rotation the instance has the key that is stored, and a rejected one has changed
neither. -/
def AllOrNothing (iv : Iv) : List Rotation → LogisticsState → Prop
  | [], _ => True
  | call :: rest, s =>
    let (result, s') := rotateApiKey C call s
    getApiKey C s' = loadedKey C iv s' ∧
    (result ≠ .ok () → getApiKey C s' = getApiKey C s ∧ loadedKey C iv s' = loadedKey C iv s) ∧
    AllOrNothing iv rest s'

/-- Every rotation whose write is rejected submits the key that is current: the key of the last
rotation that was stored, or the one there was before. -/
def RejectedAreCurrent : Except Err (Option String) → List Rotation → Prop
  | _, [] => True
  | current, call :: rest =>
    match call.fault with
    | none => RejectedAreCurrent (.ok (some call.key)) rest
    | some _ => current = .ok (some call.key) ∧ RejectedAreCurrent current rest

section wired

variable {C} (hrepository : C.providerCredentialRepository = true) (hprisma : C.prisma = true)
  {encryptionKey : String} (hkey : truthy C.CREDENTIAL_ENCRYPTION_KEY = some encryptionKey)
  (hlength : (ofHex encryptionKey.toList).length = KEY_BYTES)

include hrepository hprisma in
/-- Starting an instance copies the row. -/
theorem started_of_row (iv : Iv) {s : LogisticsState} {stored : String}
    (hrow : s.credentials LOGISTICS_CREDENTIAL_PROVIDER = some stored) :
    started C iv s = { s with apiKey := some stored } := by
  have hfind : ProviderCredentialRepository.findByProvider C none LOGISTICS_CREDENTIAL_PROVIDER
      { s with apiKey := none } = .ok (some stored) := by
    rw [ProviderCredentialRepository.findByProvider, if_pos hprisma]
    exact congrArg Except.ok hrow
  rw [started, loadPersistedApiKey, if_pos hrepository, hfind]

/-- What is encrypted for storing is no empty text. -/
theorem truthy_sealField (gcm : AuthenticatedCipher) (key : List UInt8) (iv : Iv) (plaintext : String) :
    truthy (some (sealField gcm key iv plaintext)) = some (sealField gcm key iv plaintext) := by
  apply if_neg
  intro hempty
  have hmem : SEPARATOR ∈ (sealField gcm key iv plaintext).toList := by
    rw [sealField, String.toList_ofList]
    exact List.mem_append_right _ List.mem_cons_self
  rw [hempty] at hmem
  cases hmem

include hkey hlength in
/-- A text that encrypts a key reads as the key. -/
theorem getApiKey_encrypted {iv : Iv} {key encryptedKey : String}
    (hencrypted : encryptCredential C.gcm iv key encryptionKey = .ok encryptedKey)
    {s : LogisticsState} (hs : s.apiKey = some encryptedKey) : getApiKey C s = .ok (some key) := by
  obtain ⟨stored, hstored, hread⟩ :=
    decryptCredential_encryptCredential C.gcm C.replaced hlength iv key
  have hsealed : stored = sealField C.gcm (ofHex encryptionKey.toList) iv key := by
    rw [encryptCredential, credentialKey_of_length hlength] at hstored
    exact (Except.ok.inj hstored).symm
  rw [hencrypted] at hstored
  cases hstored
  rw [getApiKey, hs, hsealed, truthy_sealField, ← hsealed, hkey]
  dsimp only
  rw [hread]

include hrepository hprisma hkey hlength in
/-- One rotation: the field has the new key in any case, the row only if the write was accepted. -/
theorem rotateApiKey_cases (iv : Iv) (call : Rotation) {s : LogisticsState} {stored : String}
    (hrow : s.credentials LOGISTICS_CREDENTIAL_PROVIDER = some stored) :
    ∃ result s' stored', rotateApiKey C call s = (result, s') ∧
      s'.credentials LOGISTICS_CREDENTIAL_PROVIDER = some stored' ∧
      getApiKey C s' = .ok (some call.key) ∧
      (call.fault = none ∧ result = .ok () ∧ loadedKey C iv s' = .ok (some call.key) ∨
        (∃ e, call.fault = some e) ∧ result ≠ .ok () ∧ loadedKey C iv s' = loadedKey C iv s) := by
  obtain ⟨encryptedKey, hencrypted, -⟩ :=
    decryptCredential_encryptCredential C.gcm C.replaced hlength call.iv call.key
  -- the field is assigned before the repository is asked
  have hrotate : rotateApiKey C call s = ProviderCredentialRepository.upsert C call.fault
      LOGISTICS_CREDENTIAL_PROVIDER encryptedKey { s with apiKey := some encryptedKey } := by
    rw [rotateApiKey, hkey]
    dsimp only
    rw [hencrypted]
    exact if_pos hrepository
  rw [hrotate]
  unfold ProviderCredentialRepository.upsert
  rw [if_pos hprisma]
  cases hfault : call.fault with
  | none =>
    have hrow' : Function.update s.credentials LOGISTICS_CREDENTIAL_PROVIDER (some encryptedKey)
        LOGISTICS_CREDENTIAL_PROVIDER = some encryptedKey := Function.update_self ..
    refine ⟨_, _, encryptedKey, rfl, hrow', getApiKey_encrypted hkey hlength hencrypted rfl,
      .inl ⟨rfl, rfl, ?_⟩⟩
    rw [loadedKey, started_of_row hrepository hprisma iv hrow']
    exact getApiKey_encrypted hkey hlength hencrypted rfl
  | some e =>
    have hrow' : ({ s with apiKey := some encryptedKey } : LogisticsState).credentials
        LOGISTICS_CREDENTIAL_PROVIDER = some stored := hrow
    -- the row is as it was, but the field has the new key
    have hrejected : (.error (.prisma e) : Except Err Unit) ≠ .ok () := by
      intro h
      cases h
    refine ⟨_, _, stored, rfl, hrow', getApiKey_encrypted hkey hlength hencrypted rfl,
      .inr ⟨⟨e, rfl⟩, hrejected, ?_⟩⟩
    rw [loadedKey, loadedKey, started_of_row hrepository hprisma iv hrow,
      started_of_row hrepository hprisma iv hrow']

include hrepository hprisma hkey hlength in
/-- From a state in which the field and the row agree. -/
theorem allOrNothing_iff (iv : Iv) (calls : List Rotation) :
    ∀ {s : LogisticsState} {stored : String},
      s.credentials LOGISTICS_CREDENTIAL_PROVIDER = some stored →
      loadedKey C iv s = getApiKey C s →
      (AllOrNothing C iv calls s ↔ RejectedAreCurrent (getApiKey C s) calls) := by
  induction calls with
  | nil =>
    intro s stored _ _
    exact Iff.rfl
  | cons call rest ih =>
    intro s stored hrow hagree
    obtain ⟨result, s', stored', hrotate, hrow', hget, hwrite⟩ :=
      rotateApiKey_cases hrepository hprisma hkey hlength iv call hrow
    rw [AllOrNothing, RejectedAreCurrent, hrotate]
    dsimp only
    rcases hwrite with ⟨hfault, hresult, hloaded⟩ | ⟨⟨e, hfault⟩, hresult, hloaded⟩
    · -- stored: both have the new key
      rw [hfault, hget, hloaded, ← hget, ← ih hrow' (hloaded.trans hget.symm)]
      constructor
      · intro h
        exact h.2.2
      · intro h
        exact ⟨rfl, fun hne => absurd hresult hne, h⟩
    · -- rejected: the field has the new key, the row the old one
      rw [hfault]
      dsimp only
      constructor
      · rintro ⟨hsame, -, hrest⟩
        have hcurrent : getApiKey C s = .ok (some call.key) := by
          rw [← hagree, ← hloaded, ← hsame, hget]
        refine ⟨hcurrent, ?_⟩
        rw [hcurrent, ← hget]
        exact (ih hrow' hsame.symm).mp hrest
      · rintro ⟨hcurrent, hrest⟩
        have hsame : getApiKey C s' = getApiKey C s := hget.trans hcurrent.symm
        have hagree' : loadedKey C iv s' = getApiKey C s' := hloaded.trans (hagree.trans hsame.symm)
        refine ⟨hagree'.symm, fun _ => ⟨hsame, hloaded⟩, ?_⟩
        rw [ih hrow' hagree', hsame]
        exact hrest

end wired

/-- Rotations of an instance that started on a stored credential are all-or-nothing exactly if those
whose write is rejected submit the key that is current. -/
theorem rotation_all_or_nothing_iff (hrepository : C.providerCredentialRepository = true)
    (hprisma : C.prisma = true) {encryptionKey : String}
    (hkey : truthy C.CREDENTIAL_ENCRYPTION_KEY = some encryptionKey)
    (hlength : (ofHex encryptionKey.toList).length = KEY_BYTES) (iv : Iv) {s : LogisticsState}
    {stored : String} (hrow : s.credentials LOGISTICS_CREDENTIAL_PROVIDER = some stored)
    (calls : List Rotation) :
    AllOrNothing C iv calls (started C iv s)
      ↔ RejectedAreCurrent (getApiKey C (started C iv s)) calls := by
  have hstarted := started_of_row hrepository hprisma iv hrow
  have hrow' : (started C iv s).credentials LOGISTICS_CREDENTIAL_PROVIDER = some stored := by
    rw [hstarted]
    exact hrow
  refine allOrNothing_iff hrepository hprisma hkey hlength iv calls hrow' ?_
  rw [loadedKey, started_of_row hrepository hprisma iv hrow', hstarted]

section instances

/-- A repository, a key, and the null cipher. -/
def LogisticsConfig.local : LogisticsConfig where
  gcm := .mask
  replaced _ := []
  LOGISTICS_API_KEY := none
  CREDENTIAL_ENCRYPTION_KEY :=
    some "00112233445566778899aabbccddeeff00112233445566778899aabbccddeeff"
  providerCredentialRepository := true
  prisma := true

/-- The row holds the key `old`. -/
def LogisticsState.old : LogisticsState where
  apiKey := none
  credentials _ := some "000000000000000000000000:00000000000000000000000000000000:6f6c64"

/-- A repeated key whose write is rejected changes nothing. -/
theorem rotation_all_or_nothing_repeated :
    AllOrNothing .local .zero [⟨"new", .zero, none⟩, ⟨"new", .zero, some .unavailable⟩]
      (started .local .zero .old) := by
  have hkey : truthy LogisticsConfig.local.CREDENTIAL_ENCRYPTION_KEY
      = some "00112233445566778899aabbccddeeff00112233445566778899aabbccddeeff" := by
    decide +kernel
  rw [rotation_all_or_nothing_iff .local rfl rfl hkey (by decide +kernel) .zero
    (s := .old) rfl]
  exact ⟨rfl, trivial⟩

/-- `rotateApiKey('new')` with a rejected write: the instance uses `new`, the row says `old`. -/
theorem rejected_rotation_changes_key :
    ¬AllOrNothing .local .zero [⟨"new", .zero, some .unavailable⟩]
      (started .local .zero .old) := by
  intro h
  exact absurd h.1 (by decide +kernel)

end instances

end TrustLink
