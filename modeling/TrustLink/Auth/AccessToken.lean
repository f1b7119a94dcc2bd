import TrustLink.Auth.Model
import TrustLink.Model.RequestBody
import TrustLink.Text.Bytes
import TrustLink.Text.JsObject

/-!
# TrustLink — access tokens

`Sep10Service.issueJwt` writes a token and `JwtGuard.extractUser` reads one; neither uses a JWT
library. A token is three base64url segments: a fixed header, the payload as JSON, and the
HMAC-SHA256 of the first two. The guard splits at the dots, recomputes the signature, parses the
payload and checks its expiry and its subject.

`signJwt` is the writing half, for any signing function. Times in a payload are numbers, so the sum
of the issue time and the lifetime is rounded once; `Date.now()` is small enough that the comparison
with the current second is not affected.
-/

namespace TrustLink

open Effects JsNumber Store Text

def TokenRole.name : TokenRole → String
  | .admin => "admin"

def AccessTokenPayload.toObject (payload : AccessTokenPayload) : JsObject :=
  let claims : JsObject :=
    { entries := [("sub", .string payload.sub), ("iat", .number (ofRat payload.iat)),
        ("exp", .number (ofRat payload.exp))]
      keys_nodup := by
        simp only [List.map_cons, List.map_nil]
        decide }
  match payload.role with
  | none => claims
  | some role => claims.set "role" (.string role.name)

def jwtHeader : JsObject where
  entries := [("alg", .string "HS256"), ("typ", .string "JWT")]
  keys_nodup := by decide

/-- `Buffer.from(JSON.stringify(value)).toString('base64url')` -/
def segment (value : JsObject) : List Char := base64url (utf8 (stringify bigintToJSON value))

/-- The token `issueJwt` puts together; `hmac` is `createHmac('sha256', secret).update(message)`. -/
def Sep10Service.signJwt (hmac : (secret message : String) → List UInt8) (secret : String)
    (payload : AccessTokenPayload) : String :=
  let header := segment jwtHeader
  let body := segment payload.toObject
  let sig := base64url (hmac secret (String.ofList (header ++ '.' :: body)))
  String.ofList (header ++ '.' :: (body ++ '.' :: sig))

structure AuthUser where
  address : String
  role : Option String
  deriving DecidableEq, Repr

namespace JwtGuard

/-- The checks on a payload whose signature has been verified. -/
def userOf (now : Time) (payload : JsObject) : Option AuthUser :=
  match prop payload "exp" with
  | .number exp =>
    let nowSeconds := ofRat (now / MILLISECONDS_PER_SECOND : Int)
    if le exp nowSeconds then none
    else
      match prop payload "sub" with
      | .string sub =>
        if sub = "" then none
        else
          some
            { address := sub
              role := match prop payload "role" with
                | .string role => some role
                | _ => none }
      | _ => none
  | _ => none

/-- A text that is not JSON throws, and so does a payload that is `null`; both are caught. Any other
payload that is not an object has no `exp`. -/
def extractUser (hmac : (secret message : String) → List UInt8)
    (replaced : List UInt8 → List Char) (SEP10_JWT_SECRET : Option String) (now : Time)
    (token : String) : Option AuthUser :=
  match token.toList.splitOn '.' with
  | [header, body, signature] =>
    match truthy SEP10_JWT_SECRET with
    | none => none
    | some secret =>
      let expected := base64url (hmac secret (String.ofList (header ++ '.' :: body)))
      if ofBase64url signature ≠ ofBase64url expected then none
      else
        match parseObject (ofUtf8 replaced (ofBase64url body)) with
        | none => none
        | some payload => userOf now payload
  | _ => none

end JwtGuard

/-! ## The segments of a token -/

section token

variable (hmac : (secret message : String) → List UInt8) (replaced : List UInt8 → List Char)
  (secret : String) (payload : AccessTokenPayload)

theorem dot_notMem_segment (value : JsObject) : '.' ∉ segment value := dot_notMem_base64url _

/-- The guard finds the three segments, and in the last one the signature of the other two. -/
theorem splitOn_signJwt : ∃ signature,
    (Sep10Service.signJwt hmac secret payload).toList.splitOn '.'
      = [segment jwtHeader, segment payload.toObject, signature] ∧
    ofBase64url signature
      = hmac secret (String.ofList (segment jwtHeader ++ '.' :: segment payload.toObject)) := by
  refine ⟨_, ?_, ofBase64url_base64url _⟩
  rw [Sep10Service.signJwt, String.toList_ofList,
    List.splitOn_append_cons_self_of_not_mem (dot_notMem_segment _),
    List.splitOn_append_cons_self_of_not_mem (dot_notMem_segment _),
    List.splitOn_eq_singleton (dot_notMem_base64url _)]

/-- Under the secret it was signed with, the guard reads a copy of the payload. -/
theorem extractUser_signJwt {configured : Option String} (hsecret : truthy configured = some secret)
    (now : Time) :
    ∃ copy, (∀ key, prop copy key = (prop payload.toObject key).copied bigintToJSON) ∧
      JwtGuard.extractUser hmac replaced configured now (Sep10Service.signJwt hmac secret payload)
        = JwtGuard.userOf now copy := by
  obtain ⟨signature, hsplit, hsignature⟩ := splitOn_signJwt hmac secret payload
  obtain ⟨copy, hparse, hcopy⟩ := prop_parse_stringify bigintToJSON payload.toObject
  refine ⟨copy, hcopy, ?_⟩
  rw [JwtGuard.extractUser, hsplit, hsecret]
  dsimp only
  rw [hsignature, ofBase64url_base64url, if_neg (not_not_intro rfl), segment,
    ofBase64url_base64url, ofUtf8_utf8, hparse]

/-- Under any other setting it computes another signature, or none. -/
theorem extractUser_other
    (hhmac : ∀ secret secret' message, secret ≠ secret' → hmac secret message ≠ hmac secret' message)
    {configured : Option String} (hother : configured ≠ some secret) (now : Time) :
    JwtGuard.extractUser hmac replaced configured now (Sep10Service.signJwt hmac secret payload)
      = none := by
  obtain ⟨signature, hsplit, hsignature⟩ := splitOn_signJwt hmac secret payload
  rw [JwtGuard.extractUser, hsplit]
  dsimp only
  cases hsecret : truthy configured with
  | none => rfl
  | some secret' =>
    have hne : secret ≠ secret' := by
      intro heq
      apply hother
      rw [heq, truthy_eq_some hsecret]
    dsimp only
    rw [hsignature, ofBase64url_base64url, if_pos (hhmac _ _ _ hne)]

end token

/-! ## The payload -/

/-- The times a `Date` can hold. -/
def IsTimeValue (t : Time) : Prop := Int.natAbs t ≤ 8640000000000000

instance (t : Time) : Decidable (IsTimeValue t) := inferInstanceAs (Decidable (_ ≤ _))

/-- In whole seconds they are numbers that no rounding changes. -/
theorem IsTimeValue.seconds {t : Time} (ht : IsTimeValue t) :
    Int.natAbs (t / MILLISECONDS_PER_SECOND) < 2 ^ 43 := by
  unfold IsTimeValue at ht
  unfold MILLISECONDS_PER_SECOND
  omega

section payload

variable {payload : AccessTokenPayload} {copy : JsObject} {now : Time}

theorem prop_toObject (payload : AccessTokenPayload) :
    prop payload.toObject "sub" = .string payload.sub ∧
    prop payload.toObject "exp" = .number (ofRat payload.exp) ∧
    prop payload.toObject "role" = payload.role.elim .undefined fun role => .string role.name := by
  cases hrole : payload.role with
  | none =>
    simp only [AccessTokenPayload.toObject, hrole]
    exact ⟨rfl, rfl, rfl⟩
  | some role =>
    simp only [AccessTokenPayload.toObject, hrole, prop_set]
    exact ⟨rfl, rfl, rfl⟩

/-- What the guard makes of a copy of the payload. -/
theorem userOf_copy
    (hcopy : ∀ key, prop copy key = (prop payload.toObject key).copied bigintToJSON)
    (hsub : payload.sub ≠ "") (hnow : IsTimeValue now) (hlow : -2 ^ 53 < payload.exp)
    (hhigh : (payload.exp : ℚ) < MAX_VALUE + 2 ^ 53) :
    JwtGuard.userOf now copy
      = if now / MILLISECONDS_PER_SECOND < payload.exp then
          some ⟨payload.sub, payload.role.map TokenRole.name⟩
        else none := by
  obtain ⟨hpsub, hpexp, hprole⟩ := prop_toObject payload
  have hlow' : (-2 ^ 53 : ℚ) < payload.exp := by exact_mod_cast hlow
  have hbound : (2 : ℚ) ^ 53 < (2 ^ 54 - 1) * 2 ^ (970 : Int) := by
    apply lt_overflow
    have hpos : 0 < MAX_VALUE := by
      unfold MAX_VALUE
      positivity
    linarith
  -- the expiry is a number, and the copy has the same one
  have hexp : prop copy "exp" = .number (ofRat payload.exp) := by
    rw [hcopy, hpexp]
    apply copied_number
    apply isDouble_ofRat
    rw [abs_lt]
    exact ⟨lt_trans (neg_lt_neg hbound) hlow', lt_overflow hhigh⟩
  have hsub' : prop copy "sub" = .string payload.sub := by
    rw [hcopy, hpsub]
    rfl
  have hseconds := hnow.seconds
  have hle := le_ofRat_iff (n := now / MILLISECONDS_PER_SECOND) (by omega) hlow
    (lt_overflow hhigh)
  rw [JwtGuard.userOf, hexp]
  dsimp only
  by_cases hexpired : payload.exp ≤ now / MILLISECONDS_PER_SECOND
  · rw [if_pos (hle.mpr hexpired), if_neg (not_lt.mpr hexpired)]
  · have hfresh : ¬ le (ofRat payload.exp) (ofRat (now / MILLISECONDS_PER_SECOND : Int)) = true :=
      fun h => hexpired (hle.mp h)
    rw [if_neg hfresh, if_pos (not_le.mp hexpired), hsub']
    dsimp only
    rw [if_neg hsub, hcopy, hprole]
    cases payload.role with
    | none => rfl
    | some role => rfl

end payload

/-! ## From the issuer to the guard -/

section issued

variable (C : Sep10Config) (sub : String)

theorem exec_issueJwt (env : Nat → AuthChoice) (w : AuthWorld) :
    (Sep10Service.issueJwt C sub).exec authWorld env w
      = match truthy C.SEP10_JWT_SECRET with
        | none => (.error (.error
            "SEP10_JWT_SECRET is not configured. Refusing to sign or hash tokens."), w)
        | some secret =>
          let iat := (env 0).now / MILLISECONDS_PER_SECOND
          (.ok (C.signJwt secret ⟨sub, iat, iat + (C.ACCESS_TOKEN_TTL.getD 3600 : Nat),
            Sep10Service.roleOf C sub⟩), w) := by
  have hdate : (auth .newDate).exec authWorld env w = (.ok (env 0).now, w) := rfl
  rw [Sep10Service.issueJwt, exec_bind_ok hdate]
  unfold Sep10Service.jwtSecret
  cases truthy C.SEP10_JWT_SECRET with
  | none => rfl
  | some secret => rfl

theorem roleOf_name (hsub : sub ≠ "") :
    (Sep10Service.roleOf C sub).map TokenRole.name
      = if C.ADMIN_ADDRESS = some sub then some "admin" else none := by
  unfold Sep10Service.roleOf
  cases hadmin : C.ADMIN_ADDRESS with
  | none => rfl
  | some adminAddress =>
    by_cases hempty : adminAddress = ""
    · have hne : ¬ some adminAddress = some sub := by
        intro h
        cases h
        exact hsub hempty
      rw [if_neg hne, truthy, if_pos hempty]
      rfl
    · rw [truthy, if_neg hempty]
      dsimp only
      by_cases heq : sub = adminAddress
      · rw [if_pos heq, if_pos (congrArg some heq.symm)]
        rfl
      · have hne : ¬ some adminAddress = some sub := by
          intro h
          cases h
          exact heq rfl
        rw [if_neg heq, if_neg hne]
        rfl

end issued

/-- The configuration with the tokens the service writes. -/
def Sep10Config.signing (C : Sep10Config) (hmac : (secret message : String) → List UInt8) :
    Sep10Config :=
  { C with signJwt := Sep10Service.signJwt hmac }

/-- A configured secret gives a token. The guard accepts it under this secret until the second in
which it expires, as the user it was issued to, and under no other secret. -/
theorem access_token_round_trip {hmac : (secret message : String) → List UInt8}
    (hhmac : ∀ secret secret' message, secret ≠ secret' → hmac secret message ≠ hmac secret' message)
    (replaced : List UInt8 → List Char) (C : Sep10Config) {sub : String} (hsub : sub ≠ "")
    {ttl : Nat} (httl : C.ACCESS_TOKEN_TTL.getD 3600 = ttl) (hnumber : (ttl : ℚ) ≤ MAX_VALUE)
    (env : Nat → AuthChoice) (w : AuthWorld) (hissue : IsTimeValue (env 0).now) :
    ((truthy C.SEP10_JWT_SECRET).isSome → ∃ token,
      (Sep10Service.issueJwt (C.signing hmac) sub).exec authWorld env w = (.ok token, w)) ∧
    ∀ token w', (Sep10Service.issueJwt (C.signing hmac) sub).exec authWorld env w = (.ok token, w') →
      ∀ now, IsTimeValue now →
        JwtGuard.extractUser hmac replaced C.SEP10_JWT_SECRET now token
          = (if now / MILLISECONDS_PER_SECOND < (env 0).now / MILLISECONDS_PER_SECOND + ttl then
              some ⟨sub, if C.ADMIN_ADDRESS = some sub then some "admin" else none⟩
            else none) ∧
        ∀ configured, configured ≠ C.SEP10_JWT_SECRET →
          JwtGuard.extractUser hmac replaced configured now token = none := by
  have hseconds := hissue.seconds
  have hexec := exec_issueJwt (C.signing hmac) sub env w
  rw [show (C.signing hmac).SEP10_JWT_SECRET = C.SEP10_JWT_SECRET from rfl] at hexec
  cases hsecret : truthy C.SEP10_JWT_SECRET with
  | none =>
    rw [hsecret] at hexec
    refine ⟨nofun, fun token w' htoken => ?_⟩
    rw [hexec] at htoken
    cases htoken
  | some secret =>
    -- from here on the payload counts only through its three fields
    obtain ⟨payload, hpayload⟩ : ∃ payload : AccessTokenPayload, payload =
        ⟨sub, (env 0).now / MILLISECONDS_PER_SECOND,
          (env 0).now / MILLISECONDS_PER_SECOND + (C.ACCESS_TOKEN_TTL.getD 3600 : Nat),
          Sep10Service.roleOf C sub⟩ := ⟨_, rfl⟩
    have hissued : (Sep10Service.issueJwt (C.signing hmac) sub).exec authWorld env w
        = (.ok (Sep10Service.signJwt hmac secret payload), w) := by
      rw [hexec, hsecret, hpayload]
      rfl
    have hsub' : payload.sub = sub := by rw [hpayload]
    have hexp : payload.exp = (env 0).now / MILLISECONDS_PER_SECOND + (ttl : Int) := by
      rw [hpayload, httl]
    have hrole : payload.role.map TokenRole.name
        = if C.ADMIN_ADDRESS = some sub then some "admin" else none := by
      rw [hpayload, roleOf_name C sub hsub]
    clear hpayload hexec
    refine ⟨fun _ => ⟨_, hissued⟩, fun token w' htoken now hnow => ?_⟩
    obtain rfl : Sep10Service.signJwt hmac secret payload = token :=
      Except.ok.inj (congrArg Prod.fst (hissued.symm.trans htoken))
    constructor
    · obtain ⟨copy, hcopy, hread⟩ := extractUser_signJwt hmac replaced secret payload hsecret now
      have hlow : -2 ^ 53 < payload.exp := by omega
      have hhigh : (payload.exp : ℚ) < MAX_VALUE + 2 ^ 53 := by
        have hiat : payload.exp < 2 ^ 53 + (ttl : Int) := by omega
        have hiat' : (payload.exp : ℚ) < 2 ^ 53 + ttl := by exact_mod_cast hiat
        linarith
      rw [hread, userOf_copy hcopy (hsub' ▸ hsub) hnow hlow hhigh, hsub', hexp, hrole]
    · intro configured hother
      apply extractUser_other hmac replaced secret payload hhmac
      rw [← truthy_eq_some hsecret]
      exact hother

/-- A token issued at the epoch, with the secret itself for a signature. -/
theorem access_token_round_trip_alice :
    let hmac := fun (secret _ : String) => utf8 secret.toList
    ∃ token, (Sep10Service.issueJwt (Sep10Config.plain.signing hmac) "alice").exec authWorld
        (fun _ => AuthChoice.calm "") AuthWorld.empty = (.ok token, AuthWorld.empty) ∧
      JwtGuard.extractUser hmac (fun _ => []) (some "secret") 3599999 token
        = some ⟨"alice", none⟩ ∧
      JwtGuard.extractUser hmac (fun _ => []) (some "secret") 3600000 token = none ∧
      JwtGuard.extractUser hmac (fun _ => []) (some "other") 3599999 token = none := by
  intro hmac
  have hhmac : ∀ secret secret' message, secret ≠ secret' →
      hmac secret message ≠ hmac secret' message := by
    intro secret secret' _ hne heq
    have hchars := congrArg (ofUtf8 fun _ => []) (show utf8 _ = utf8 _ from heq)
    rw [ofUtf8_utf8, ofUtf8_utf8] at hchars
    exact hne (String.toList_inj.mp hchars)
  have hnumber : ((3600 : Nat) : ℚ) ≤ MAX_VALUE := by
    have hone : (1 : ℚ) ≤ 2 ^ (971 : Int) := one_le_zpow₀ one_le_two (by decide)
    unfold MAX_VALUE
    generalize (2 : ℚ) ^ (971 : Int) = ulp at hone ⊢
    rw [Nat.cast_ofNat]
    linarith only [hone]
  obtain ⟨hissued, hread⟩ := access_token_round_trip hhmac (fun _ => []) Sep10Config.plain
    (show "alice" ≠ "" by decide) rfl hnumber (fun _ => AuthChoice.calm "") AuthWorld.empty
    (by decide)
  obtain ⟨token, htoken⟩ := hissued rfl
  refine ⟨token, htoken, ?_, ?_, ?_⟩
  · exact (hread token _ htoken 3599999 (by decide)).1
  · exact (hread token _ htoken 3600000 (by decide)).1
  · exact (hread token _ htoken 3599999 (by decide)).2 (some "other") (by decide)

end TrustLink
