import TrustLink.Model.Repositories
import TrustLink.Text.Bytes

/-!
# TrustLink — encrypted fields

Buyer contacts and provider credentials are stored encrypted, as three hex texts with colons between
them: the IV, the authentication tag, the ciphertext. The two utilities write this format the same
way and differ in where the key comes from and in their errors; `sealField` and `openField` are what
they share.

AES-256-GCM is a parameter, with the two facts about it that reading back needs: its tags have 16
bytes, and it decrypts what it encrypted. The IV that `crypto.randomBytes` draws is an argument.
-/

namespace TrustLink

open Text

def KEY_BYTES : Nat := 32
def IV_BYTES : Nat := 12
def TAG_BYTES : Nat := 16
def SEPARATOR : Char := ':'

/-- An authenticated cipher. `decrypt` has no result where `decipher.final()` throws. -/
structure AuthenticatedCipher where
  /-- The ciphertext and the tag. -/
  encrypt : (key iv plaintext : List UInt8) → List UInt8 × List UInt8
  decrypt : (key iv tag ciphertext : List UInt8) → Option (List UInt8)
  tag_length : ∀ {key iv : List UInt8} (plaintext : List UInt8), key.length = KEY_BYTES →
    iv.length = IV_BYTES → (encrypt key iv plaintext).2.length = TAG_BYTES
  decrypt_encrypt : ∀ {key iv : List UInt8} (plaintext : List UInt8), key.length = KEY_BYTES →
    iv.length = IV_BYTES →
    decrypt key iv (encrypt key iv plaintext).2 (encrypt key iv plaintext).1 = some plaintext

/-- A cipher that masks every byte with the first byte of the key. Half of the key is the tag. -/
def AuthenticatedCipher.mask : AuthenticatedCipher where
  encrypt key _ plaintext := (plaintext.map (· ^^^ key.headD 0), key.take TAG_BYTES)
  decrypt key _ tag ciphertext :=
    if tag = key.take TAG_BYTES then some (ciphertext.map (· ^^^ key.headD 0)) else none
  tag_length _ hkey _ := by
    rw [List.length_take, hkey]
    rfl
  decrypt_encrypt plaintext _ _ := by
    rw [if_pos rfl, List.map_map]
    refine congrArg some (List.map_id'' ?_ plaintext)
    intro byte
    simp [UInt8.xor_assoc]

/-- What `crypto.randomBytes(IV_BYTES)` returns. -/
structure Iv where
  bytes : List UInt8
  length_eq : bytes.length = IV_BYTES

def Iv.zero : Iv := ⟨List.replicate IV_BYTES 0, rfl⟩

def sealField (gcm : AuthenticatedCipher) (key : List UInt8) (iv : Iv) (plaintext : String) :
    String :=
  let (encrypted, tag) := gcm.encrypt key iv.bytes (utf8 plaintext.toList)
  String.ofList (hex iv.bytes ++ SEPARATOR :: (hex tag ++ SEPARATOR :: hex encrypted))

/-- The errors of one utility: not three parts, wrong lengths, `decipher.final()` threw. -/
structure FieldErrors where
  format : Err
  malformed : Err
  rejected : Err

/-- `replaced` is what decoding makes of bytes that are not UTF-8. -/
def openField (gcm : AuthenticatedCipher) (replaced : List UInt8 → List Char) (errors : FieldErrors)
    (key : List UInt8) (stored : String) : Except Err String :=
  match stored.toList.splitOn SEPARATOR with
  | [ivHex, tagHex, ctHex] =>
    let iv := ofHex ivHex
    let tag := ofHex tagHex
    let ct := ofHex ctHex
    if iv.length ≠ IV_BYTES ∨ tag.length ≠ TAG_BYTES then .error errors.malformed
    else
      match gcm.decrypt key iv tag ct with
      | some plaintext => .ok (String.ofList (ofUtf8 replaced plaintext))
      | none => .error errors.rejected
  | _ => .error errors.format

def isContactEncryptionConfigured (CONTACT_ENCRYPTION_KEY : Option String) : Bool :=
  match truthy CONTACT_ENCRYPTION_KEY with
  | none => false
  | some raw => (ofHex raw.toList).length = KEY_BYTES

def resolveKey (CONTACT_ENCRYPTION_KEY : Option String) : Except Err (List UInt8) :=
  match truthy CONTACT_ENCRYPTION_KEY with
  | none =>
    .error (.serviceUnavailable
      "CONTACT_ENCRYPTION_KEY environment variable is required for buyer contact encryption.")
  | some raw =>
    let key := ofHex raw.toList
    if key.length ≠ KEY_BYTES then
      .error (.serviceUnavailable
        s!"CONTACT_ENCRYPTION_KEY must be exactly 64 hex characters (32 bytes). Got {key.length} bytes.")
    else .ok key

def contactErrors : FieldErrors where
  format := .error "Invalid encrypted contact format."
  malformed := .error "Malformed encrypted contact: wrong IV or tag length."
  -- not caught: the error is the one of the cipher
  rejected := .error "Unsupported state or unable to authenticate data"

section contact

variable (gcm : AuthenticatedCipher) (replaced : List UInt8 → List Char)
  (CONTACT_ENCRYPTION_KEY : Option String)

def encryptContact (iv : Iv) (plaintext : String) : Except Err String := do
  let key ← resolveKey CONTACT_ENCRYPTION_KEY
  pure (sealField gcm key iv plaintext)

def decryptContact (stored : String) : Except Err String := do
  let key ← resolveKey CONTACT_ENCRYPTION_KEY
  openField gcm replaced contactErrors key stored

end contact

def credentialKey (encryptionKey : String) : Except Err (List UInt8) :=
  let key := ofHex encryptionKey.toList
  if key.length ≠ KEY_BYTES then
    .error (.error
      s!"Encryption key must be exactly 64 hex characters (32 bytes). Got {key.length} bytes.")
  else .ok key

def credentialErrors : FieldErrors where
  format := .error "Invalid encrypted credential format."
  malformed := .error "Malformed encrypted credential: wrong IV or tag length."
  rejected := .error "Failed to decrypt credential: invalid key or corrupted data."

section credential

variable (gcm : AuthenticatedCipher) (replaced : List UInt8 → List Char)

def encryptCredential (iv : Iv) (plaintext encryptionKey : String) : Except Err String := do
  let key ← credentialKey encryptionKey
  pure (sealField gcm key iv plaintext)

def decryptCredential (stored encryptionKey : String) : Except Err String := do
  let key ← credentialKey encryptionKey
  openField gcm replaced credentialErrors key stored

def reencryptCredential (iv : Iv) (encryptedCredential oldKey newKey : String) :
    Except Err String := do
  let plaintext ← decryptCredential gcm replaced encryptedCredential oldKey
  encryptCredential gcm iv plaintext newKey

end credential

/-! ## Reading back -/

section roundTrip

variable (gcm : AuthenticatedCipher) (replaced : List UInt8 → List Char)

theorem separator_notMem_hex (bytes : List UInt8) : SEPARATOR ∉ hex bytes := colon_notMem_hex bytes

/-- The three hex texts have no colon, so the split finds them; each decodes to its bytes. -/
theorem openField_sealField (errors : FieldErrors) {key : List UInt8} (hkey : key.length = KEY_BYTES)
    (iv : Iv) (plaintext : String) :
    openField gcm replaced errors key (sealField gcm key iv plaintext) = .ok plaintext := by
  have htag := gcm.tag_length (utf8 plaintext.toList) hkey iv.length_eq
  have hopen := gcm.decrypt_encrypt (utf8 plaintext.toList) hkey iv.length_eq
  have hsplit : (sealField gcm key iv plaintext).toList.splitOn SEPARATOR
      = [hex iv.bytes, hex (gcm.encrypt key iv.bytes (utf8 plaintext.toList)).2,
          hex (gcm.encrypt key iv.bytes (utf8 plaintext.toList)).1] := by
    rw [sealField, String.toList_ofList,
      List.splitOn_append_cons_self_of_not_mem (separator_notMem_hex _),
      List.splitOn_append_cons_self_of_not_mem (separator_notMem_hex _),
      List.splitOn_eq_singleton (separator_notMem_hex _)]
  have hlengths : ¬(iv.bytes.length ≠ IV_BYTES ∨
      (gcm.encrypt key iv.bytes (utf8 plaintext.toList)).2.length ≠ TAG_BYTES) := by
    rintro (h | h)
    · exact h iv.length_eq
    · exact h htag
  rw [openField, hsplit]
  dsimp only
  rw [ofHex_hex, ofHex_hex, ofHex_hex, if_neg hlengths, hopen]
  dsimp only
  rw [ofUtf8_utf8, String.ofList_toList]

theorem resolveKey_of_configured {CONTACT_ENCRYPTION_KEY : Option String}
    (h : isContactEncryptionConfigured CONTACT_ENCRYPTION_KEY = true) :
    ∃ key, resolveKey CONTACT_ENCRYPTION_KEY = .ok key ∧ key.length = KEY_BYTES := by
  unfold isContactEncryptionConfigured at h
  unfold resolveKey
  cases hraw : truthy CONTACT_ENCRYPTION_KEY with
  | none =>
    rw [hraw] at h
    exact absurd h Bool.false_ne_true
  | some raw =>
    rw [hraw] at h
    have hlength : (ofHex raw.toList).length = KEY_BYTES := of_decide_eq_true h
    exact ⟨ofHex raw.toList, if_neg (not_not_intro hlength), hlength⟩

theorem credentialKey_of_length {encryptionKey : String}
    (h : (ofHex encryptionKey.toList).length = KEY_BYTES) :
    credentialKey encryptionKey = .ok (ofHex encryptionKey.toList) :=
  if_neg (not_not_intro h)

/-- What is stored for a contact decrypts to the contact. -/
theorem decryptContact_encryptContact {CONTACT_ENCRYPTION_KEY : Option String}
    (h : isContactEncryptionConfigured CONTACT_ENCRYPTION_KEY = true) (iv : Iv) (plaintext : String) :
    ∃ stored, encryptContact gcm CONTACT_ENCRYPTION_KEY iv plaintext = .ok stored ∧
      decryptContact gcm replaced CONTACT_ENCRYPTION_KEY stored = .ok plaintext := by
  obtain ⟨key, hkey, hlength⟩ := resolveKey_of_configured h
  refine ⟨sealField gcm key iv plaintext, ?_, ?_⟩
  · rw [encryptContact, hkey]
    rfl
  · rw [decryptContact, hkey]
    exact openField_sealField gcm replaced contactErrors hlength iv plaintext

/-- What is stored for a credential decrypts to it, under the key it was encrypted with. -/
theorem decryptCredential_encryptCredential {encryptionKey : String}
    (h : (ofHex encryptionKey.toList).length = KEY_BYTES) (iv : Iv) (plaintext : String) :
    ∃ stored, encryptCredential gcm iv plaintext encryptionKey = .ok stored ∧
      decryptCredential gcm replaced stored encryptionKey = .ok plaintext := by
  refine ⟨sealField gcm (ofHex encryptionKey.toList) iv plaintext, ?_, ?_⟩
  · rw [encryptCredential, credentialKey_of_length h]
    rfl
  · rw [decryptCredential, credentialKey_of_length h]
    exact openField_sealField gcm replaced credentialErrors h iv plaintext

end roundTrip

/-- Every encrypted field reads back: a contact under the configured key, a credential under its
key, and a credential that was moved to another key under that one. -/
theorem encrypted_fields_round_trip (gcm : AuthenticatedCipher)
    (replaced : List UInt8 → List Char) (plaintext : String) {CONTACT_ENCRYPTION_KEY : Option String}
    (hcontact : isContactEncryptionConfigured CONTACT_ENCRYPTION_KEY = true) {k₁ k₂ : String}
    (hk₁ : (ofHex k₁.toList).length = KEY_BYTES) (hk₂ : (ofHex k₂.toList).length = KEY_BYTES)
    (iv iv' : Iv) :
    (encryptContact gcm CONTACT_ENCRYPTION_KEY iv plaintext
      >>= decryptContact gcm replaced CONTACT_ENCRYPTION_KEY) = .ok plaintext ∧
    (encryptCredential gcm iv plaintext k₁
      >>= fun stored => decryptCredential gcm replaced stored k₁) = .ok plaintext ∧
    (encryptCredential gcm iv plaintext k₁
      >>= fun stored => reencryptCredential gcm replaced iv' stored k₁ k₂
      >>= fun moved => decryptCredential gcm replaced moved k₂) = .ok plaintext := by
  obtain ⟨contact, hcontactStored, hcontactRead⟩ :=
    decryptContact_encryptContact gcm replaced hcontact iv plaintext
  obtain ⟨stored, hstored, hread⟩ :=
    decryptCredential_encryptCredential gcm replaced hk₁ iv plaintext
  obtain ⟨moved, hmoved, hreadMoved⟩ :=
    decryptCredential_encryptCredential gcm replaced hk₂ iv' plaintext
  -- what is encrypted again is the text that was read back under the first key
  have hreencrypt : reencryptCredential gcm replaced iv' stored k₁ k₂ = .ok moved := by
    rw [reencryptCredential, hread]
    exact hmoved
  refine ⟨?_, ?_, ?_⟩
  · rw [hcontactStored]
    exact hcontactRead
  · rw [hstored]
    exact hread
  · rw [hstored]
    show (reencryptCredential gcm replaced iv' stored k₁ k₂ >>= _) = _
    rw [hreencrypt]
    exact hreadMoved

theorem encrypted_fields_round_trip_masked :
    let k₁ := "00112233445566778899aabbccddeeff00112233445566778899aabbccddeeff"
    let k₂ := "FFEEDDCCBBAA99887766554433221100FFEEDDCCBBAA99887766554433221100"
    ∀ plaintext ∈ ["buyer@example.com", ""],
      (encryptContact .mask (some k₂) .zero plaintext
        >>= decryptContact .mask (fun _ => []) (some k₂)) = .ok plaintext ∧
      (encryptCredential .mask .zero plaintext k₁
        >>= fun stored => reencryptCredential .mask (fun _ => []) .zero stored k₁ k₂
        >>= fun moved => decryptCredential .mask (fun _ => []) moved k₂) = .ok plaintext := by
  intro k₁ k₂ plaintext _
  have hcontact : isContactEncryptionConfigured (some k₂) = true := by decide +kernel
  have hk₁ : (ofHex k₁.toList).length = KEY_BYTES := by decide +kernel
  have hk₂ : (ofHex k₂.toList).length = KEY_BYTES := by decide +kernel
  obtain ⟨hread, -, hmoved⟩ := encrypted_fields_round_trip .mask (fun _ => []) plaintext hcontact
    hk₁ hk₂ .zero .zero
  exact ⟨hread, hmoved⟩

end TrustLink
