import TrustLink.Model.EscrowService
import TrustLink.Text.Integer

/-!
# TrustLink — what the request hash sees

`stableStringify` writes a canonical tree: the body without its `undefined` properties and with the
keys of every object sorted (`stableStringify_eq`). Written trees are unambiguous, so two bodies have
the same text exactly if they have the same canonical tree, and they have the same canonical tree
exactly if they are equal up to the order of keys and up to `undefined` properties, at every depth
(`canonical_eq_iff`).

Numbers are of any type, as long as they are written as different number literals.
-/

namespace TrustLink

open Text EscrowService

variable {ν : Type}

/-! ## Equal bodies -/

/-- The property of an object; one that is absent is `undefined`. -/
def JsonValue.prop (fields : List (String × Option (JsonValue ν))) (key : String) :
    Option (JsonValue ν) :=
  (fields.lookup key).join

mutual

/-- Equal up to the order of object keys at every depth, and up to keys whose value is
`undefined`. -/
inductive Same : JsonValue ν → JsonValue ν → Prop
  | null : Same .null .null
  | bool (b : Bool) : Same (.bool b) (.bool b)
  | number (x : ν) : Same (.number x) (.number x)
  | string (s : String) : Same (.string s) (.string s)
  | array {xs ys : List (JsonValue ν)} (h : SameItems xs ys) : Same (.array xs) (.array ys)
  | object {fs gs : List (String × Option (JsonValue ν))}
      (h : ∀ key, SameProp (JsonValue.prop fs key) (JsonValue.prop gs key)) :
      Same (.object fs) (.object gs)

inductive SameItems : List (JsonValue ν) → List (JsonValue ν) → Prop
  | nil : SameItems [] []
  | cons {x y : JsonValue ν} {xs ys : List (JsonValue ν)} (h : Same x y) (hs : SameItems xs ys) :
      SameItems (x :: xs) (y :: ys)

inductive SameProp : Option (JsonValue ν) → Option (JsonValue ν) → Prop
  | undefined : SameProp none none
  | value {x y : JsonValue ν} (h : Same x y) : SameProp (some x) (some y)

end

mutual

/-- No object has a key twice. -/
def JsonValue.WellFormed : JsonValue ν → Prop
  | .array items => WellFormedItems items
  | .object fields => (fields.map Prod.fst).Nodup ∧ WellFormedFields fields
  | _ => True

def WellFormedItems : List (JsonValue ν) → Prop
  | [] => True
  | item :: items => item.WellFormed ∧ WellFormedItems items

def WellFormedFields : List (String × Option (JsonValue ν)) → Prop
  | [] => True
  | (_, none) :: fields => WellFormedFields fields
  | (_, some value) :: fields => value.WellFormed ∧ WellFormedFields fields

end

/-! ## The canonical tree -/

section canonical

variable (token : ν → NumberToken)

mutual

def JsonValue.canonical : JsonValue ν → Json
  | .null => .null
  | .bool b => .bool b
  | .number x => .number (token x)
  | .string s => .string s
  | .array items => .array (canonicalItems items)
  | .object fields => .object (sortByKey (canonicalFields fields))

def canonicalItems : List (JsonValue ν) → List Json
  | [] => []
  | item :: items => item.canonical :: canonicalItems items

def canonicalFields : List (String × Option (JsonValue ν)) → List (String × Json)
  | [] => []
  | (_, none) :: fields => canonicalFields fields
  | (key, some value) :: fields => (key, value.canonical) :: canonicalFields fields

end

/-- `JSON.stringify` of a number. -/
def numberText (x : ν) : String := String.ofList (token x).chars

theorem ofList_commas (texts : List (List Char)) :
    ",".intercalate (texts.map String.ofList) = String.ofList (commas texts) := by
  apply String.toList_injective
  rw [String.toList_intercalate, List.map_map]
  simp [commas, Function.comp_def]

mutual

/-- `stableStringify` writes the canonical tree. -/
theorem stableStringify_eq : (v : JsonValue ν) →
    stableStringify (numberText token) v = String.ofList (render (v.canonical token))
  | .null => by
    rw [stableStringify, JsonValue.canonical, render]
  | .bool b => by
    rw [stableStringify, JsonValue.canonical]
    cases b
    · rw [render]
      rfl
    · rw [render]
      rfl
  | .number x => by
    rw [stableStringify, JsonValue.canonical, render]
    rfl
  | .string s => by
    rw [stableStringify, JsonValue.canonical, render]
    rfl
  | .array items => by
    rw [stableStringify, JsonValue.canonical, render_array, stringifyItems_eq items,
      ← List.map_map, ofList_commas, String.append_assoc]
    simp [String.ofList_cons, String.ofList_append]
  | .object fields => by
    -- each field is written as its key, a colon and its value, in the order of the keys
    have hfields : ∀ fs : List (String × Json),
        (fs.map fun f => (f.1, String.ofList (render f.2))).map
            (fun f => quote f.1 ++ ":" ++ f.2)
          = (fs.map fun f => quoted f.1 ++ ':' :: render f.2).map String.ofList := by
      intro fs
      rw [List.map_map, List.map_map]
      apply List.map_congr_left
      intro f _
      simp [quote, String.ofList_append, String.ofList_cons, String.append_assoc]
    rw [stableStringify, JsonValue.canonical, render_object,
      stringifyFields_eq fields, sortByKey_map (fun t => String.ofList (render t)), hfields,
      ofList_commas, String.append_assoc]
    simp [String.ofList_cons, String.ofList_append]

theorem stringifyItems_eq : (items : List (JsonValue ν)) →
    stringifyItems (numberText token) items
      = (canonicalItems token items).map (String.ofList ∘ render)
  | [] => by rw [stringifyItems, canonicalItems]; rfl
  | item :: items => by
    rw [stringifyItems, canonicalItems, stableStringify_eq item,
      stringifyItems_eq items]
    rfl

theorem stringifyFields_eq : (fields : List (String × Option (JsonValue ν))) →
    stringifyFields (numberText token) fields
      = (canonicalFields token fields).map fun f => (f.1, String.ofList (render f.2))
  | [] => by rw [stringifyFields, canonicalFields]; rfl
  | (_, none) :: fields => by
    rw [stringifyFields, canonicalFields, stringifyFields_eq fields]
  | (key, some v) :: fields => by
    rw [stringifyFields, canonicalFields, stableStringify_eq v,
      stringifyFields_eq fields]
    rfl

end

/-! ## Equal trees

Sorting the keys and leaving out `undefined` is all that the canonical tree forgets. -/

section fields

variable {token} {fields : List (String × Option (JsonValue ν))}

theorem canonicalFields_keys (fields : List (String × Option (JsonValue ν))) :
    ((canonicalFields token fields).map Prod.fst).Sublist (fields.map Prod.fst) := by
  induction fields with
  | nil =>
    rw [canonicalFields]
    exact List.Sublist.refl _
  | cons f fields ih =>
    obtain ⟨key, value⟩ := f
    cases value with
    | none =>
      rw [canonicalFields]
      exact ih.trans (List.sublist_cons_self _ _)
    | some value =>
      rw [canonicalFields]
      exact ih.cons_cons _

theorem prop_cons_ne {k key : String} (hk : key ≠ k) (value : Option (JsonValue ν)) :
    JsonValue.prop ((k, value) :: fields) key = JsonValue.prop fields key := by
  have hbeq : (key == k) = false := by simpa using hk
  rw [JsonValue.prop, List.lookup_cons, hbeq]
  rfl

/-- A property of the canonical object. -/
theorem lookup_canonicalFields (hkeys : (fields.map Prod.fst).Nodup) (key : String) :
    (canonicalFields token fields).lookup key
      = (JsonValue.prop fields key).map (JsonValue.canonical token) := by
  induction fields with
  | nil =>
    rw [canonicalFields]
    rfl
  | cons f fields ih =>
    obtain ⟨k, value⟩ := f
    rw [List.map_cons, List.nodup_cons] at hkeys
    unfold JsonValue.prop at ih ⊢
    by_cases hk : key = k
    · -- the key does not come again
      subst hk
      have hlater : (canonicalFields token fields).lookup key = none := by
        rw [List.lookup_eq_none_iff]
        intro p hp
        have hne : p.1 ≠ key := by
          rintro rfl
          exact hkeys.1 ((canonicalFields_keys fields).subset (List.mem_map_of_mem hp))
        simpa using hne.symm
      cases value with
      | none =>
        rw [canonicalFields, hlater, List.lookup_cons_self]
        rfl
      | some value =>
        rw [canonicalFields, List.lookup_cons_self, List.lookup_cons_self]
        rfl
    · have hbeq : (key == k) = false := by simpa using hk
      cases value with
      | none =>
        rw [canonicalFields, ih hkeys.2, List.lookup_cons, hbeq]
      | some value =>
        rw [canonicalFields, List.lookup_cons, hbeq, List.lookup_cons, hbeq]
        exact ih hkeys.2

theorem wellFormed_prop (h : WellFormedFields fields) {key : String} {v : JsonValue ν}
    (hv : JsonValue.prop fields key = some v) : v.WellFormed := by
  induction fields with
  | nil => cases hv
  | cons f fields ih =>
    obtain ⟨k, value⟩ := f
    unfold JsonValue.prop at ih hv
    rw [List.lookup_cons] at hv
    cases value with
    | none =>
      rw [WellFormedFields] at h
      split at hv
      · cases hv
      · exact ih h hv
    | some value =>
      rw [WellFormedFields] at h
      split at hv
      · cases hv
        exact h.1
      · exact ih h.2 hv

end fields

variable {token}

mutual

/-- Two bodies have the same canonical tree exactly if they are the same up to the order of keys and
`undefined` properties. -/
theorem canonical_eq_iff (htoken : Function.Injective token) : (a : JsonValue ν) →
    ∀ {b : JsonValue ν}, a.WellFormed → b.WellFormed →
      (a.canonical token = b.canonical token ↔ Same a b)
  | .null, b, _, _ => by
    constructor
    · intro h
      cases b <;> first | exact .null | (simp only [JsonValue.canonical] at h; cases h)
    · rintro ⟨⟩
      rfl
  | .bool x, b, _, _ => by
    constructor
    · intro h
      cases b <;> simp only [JsonValue.canonical] at h <;> cases h
      exact .bool _
    · rintro ⟨⟩
      rfl
  | .number x, b, _, _ => by
    constructor
    · intro h
      cases b <;> simp only [JsonValue.canonical] at h <;> try cases h
      rw [Json.number.injEq] at h
      rw [htoken h]
      exact .number _
    · rintro ⟨⟩
      rfl
  | .string s, b, _, _ => by
    constructor
    · intro h
      cases b <;> simp only [JsonValue.canonical] at h <;> cases h
      exact .string _
    · rintro ⟨⟩
      rfl
  | .array items, b, ha, hb => by
    constructor
    · intro h
      cases b <;> simp only [JsonValue.canonical] at h <;> try cases h
      rw [Json.array.injEq] at h
      rw [JsonValue.WellFormed] at ha hb
      exact .array ((canonicalItems_eq_iff htoken items ha hb).mp h)
    · intro h
      cases h with
      | array hitems =>
        rw [JsonValue.WellFormed] at ha hb
        rw [JsonValue.canonical, JsonValue.canonical,
          (canonicalItems_eq_iff htoken items ha hb).mpr hitems]
  | .object fields, b, ha, hb => by
    -- sorted objects are equal if every property is
    have hobject : ∀ gs : List (String × Option (JsonValue ν)),
        (JsonValue.object gs).WellFormed →
        (sortByKey (canonicalFields token fields) = sortByKey (canonicalFields token gs)
          ↔ ∀ key, SameProp (JsonValue.prop fields key) (JsonValue.prop gs key)) := by
      intro gs hgs
      rw [JsonValue.WellFormed] at ha hgs
      rw [sort_eq_iff ((canonicalFields_keys fields).nodup ha.1)
        ((canonicalFields_keys gs).nodup hgs.1)]
      apply forall_congr'
      intro key
      rw [lookup_canonicalFields ha.1, lookup_canonicalFields hgs.1]
      exact prop_eq_iff htoken fields ha.2 key (fun w hw => wellFormed_prop hgs.2 hw)
    constructor
    · intro h
      cases b <;> simp only [JsonValue.canonical] at h <;> try cases h
      rw [Json.object.injEq] at h
      exact .object ((hobject _ hb).mp h)
    · intro h
      cases h with
      | object hprops => rw [JsonValue.canonical, JsonValue.canonical, (hobject _ hb).mpr hprops]

theorem canonicalItems_eq_iff (htoken : Function.Injective token) : (xs : List (JsonValue ν)) →
    ∀ {ys : List (JsonValue ν)}, WellFormedItems xs → WellFormedItems ys →
      (canonicalItems token xs = canonicalItems token ys ↔ SameItems xs ys)
  | [], ys, _, _ => by
    cases ys with
    | nil => exact ⟨fun _ => .nil, fun _ => rfl⟩
    | cons y ys =>
      rw [canonicalItems, canonicalItems]
      constructor <;> (intro h; cases h)
  | x :: xs, ys, hxs, hys => by
    cases ys with
    | nil =>
      rw [canonicalItems, canonicalItems]
      constructor <;> (intro h; cases h)
    | cons y ys =>
      rw [WellFormedItems] at hxs hys
      rw [canonicalItems, canonicalItems, List.cons.injEq, canonical_eq_iff htoken x hxs.1 hys.1,
        canonicalItems_eq_iff htoken xs hxs.2 hys.2]
      constructor
      · intro h
        exact .cons h.1 h.2
      · intro h
        cases h with
        | cons h hs => exact ⟨h, hs⟩

/-- The same for one property of an object. -/
theorem prop_eq_iff (htoken : Function.Injective token) :
    (fields : List (String × Option (JsonValue ν))) → WellFormedFields fields → ∀ (key : String)
      {other : Option (JsonValue ν)}, (∀ w, other = some w → w.WellFormed) →
      ((JsonValue.prop fields key).map (JsonValue.canonical token)
          = other.map (JsonValue.canonical token)
        ↔ SameProp (JsonValue.prop fields key) other)
  | [], _, key, other, _ => by
    cases other with
    | none => exact ⟨fun _ => .undefined, fun _ => rfl⟩
    | some w => constructor <;> (intro h; cases h)
  | (k, none) :: fields, hfields, key, other, hother => by
    rw [WellFormedFields] at hfields
    by_cases hk : key = k
    · have hprop : JsonValue.prop ((k, none) :: fields) key = none := by
        rw [JsonValue.prop, hk, List.lookup_cons_self]
        rfl
      rw [hprop]
      cases other with
      | none => exact ⟨fun _ => .undefined, fun _ => rfl⟩
      | some w => constructor <;> (intro h; cases h)
    · rw [prop_cons_ne hk]
      exact prop_eq_iff htoken fields hfields key hother
  | (k, some v) :: fields, hfields, key, other, hother => by
    rw [WellFormedFields] at hfields
    by_cases hk : key = k
    · have hprop : JsonValue.prop ((k, some v) :: fields) key = some v := by
        rw [JsonValue.prop, hk, List.lookup_cons_self]
        rfl
      rw [hprop]
      cases other with
      | none => constructor <;> (intro h; cases h)
      | some w =>
        rw [Option.map_some, Option.map_some, Option.some.injEq,
          canonical_eq_iff htoken v hfields.1 (hother w rfl)]
        constructor
        · intro h
          exact .value h
        · intro h
          cases h with
          | value h => exact h
    · rw [prop_cons_ne hk]
      exact prop_eq_iff htoken fields hfields.2 key hother

end

/-- Two bodies have the same text exactly if they are the same. -/
theorem stableStringify_eq_iff (htoken : Function.Injective token) {a b : JsonValue ν}
    (ha : a.WellFormed) (hb : b.WellFormed) :
    stableStringify (numberText token) a
        = stableStringify (numberText token) b ↔ Same a b := by
  rw [stableStringify_eq, stableStringify_eq, ← canonical_eq_iff htoken a ha hb]
  constructor
  · intro h
    exact render_injective (String.ofList_injective h)
  · intro h
    rw [h]

end canonical

/-! ## Retries

A retry answers from the entry that the first execution has left. -/

section retry

open Effects

variable {D : Deployment} {body body' : JsonValue Decimal} {key vendor : String}
  {dto : CreateEscrowDto} {w : World} {env : Nat → Choice} {result : EscrowRecord}

/-- An execution that succeeds leaves its result under the key, with the hash of its body: it has
just stored it, or it found it there. -/
theorem remembered (hcache : D.cache = true) (hkept : ∀ n, (env n).lost = false)
    (hfirst : ((createIdempotentOf D body key dto vendor).exec world env w).1 = .ok result) :
    ((createIdempotentOf D body key dto vendor).exec world env w).2.cache.idempotency
      (idempotencyCacheKey key vendor) = some ⟨hashBody D body, result⟩ := by
  have hwp : (createIdempotentOf D body key dto vendor).wp
      (world.protocol fun ch => ch.lost = false)
      (fun r v => ∀ result, r = .ok result →
        v.cache.idempotency (idempotencyCacheKey key vendor) = some ⟨hashBody D body, result⟩)
      w := by
    unfold createIdempotentOf cachedResult
    dsimp only
    rw [if_pos hcache, wp_bind, cache, wp_machine_perform]
    intro ch _
    generalize hfound : (world.handle ch (.cache (.getIdempotency (idempotencyCacheKey key vendor)))
      w).1 = found
    match found with
    | .error e => exact fun _ h => nomatch h
    | .ok none =>
      -- whatever the creation does, its result is stored
      dsimp only
      rw [wp_bind]
      apply wp_machine_any
      intro created v
      cases created with
      | error e => exact fun _ h => nomatch h
      | ok record =>
        dsimp only
        unfold rememberResult
        rw [if_pos hcache, wp_bind, cache, wp_machine_perform]
        intro ch hlost result hresult
        cases hresult
        show (if ch.lost then _ else _ : Cache).idempotency _ = _
        rw [hlost]
        exact Function.update_self _ _ _
    | .ok (some entry) =>
      apply wp_if
      · intro _ _ h
        cases h
      · intro hsame result hresult
        cases hresult
        have hhash : entry.requestHash = hashBody D body := Decidable.not_not.mp hsame
        have hentry : (if ch.miss then none
            else w.cache.idempotency (idempotencyCacheKey key vendor)) = some entry :=
          Except.ok.inj hfound
        split at hentry
        · cases hentry
        · rw [← hhash]
          exact hentry
  exact exec_of_wp hwp hkept result hfirst

/-- An execution that finds an entry answers from it. -/
theorem exec_found {entry : IdempotencyCacheEntry} (hcache : D.cache = true)
    (hread : (env 0).miss = false)
    (hentry : w.cache.idempotency (idempotencyCacheKey key vendor) = some entry) :
    (createIdempotentOf D body key dto vendor).exec world env w
      = (if entry.requestHash ≠ hashBody D body then
          .error (.unprocessableEntity
            "Idempotency-Key has already been used with a different request body")
        else .ok entry.result, w) := by
  have hfound : (cachedResult D (idempotencyCacheKey key vendor)).exec world env w
      = (.ok (some entry), w) := by
    unfold cachedResult
    rw [if_pos hcache]
    show (Except.ok (if (env 0).miss then none else _), w) = _
    rw [hread, hentry]
    rfl
  unfold createIdempotentOf
  dsimp only
  rw [exec_bind_ok hfound]
  dsimp only
  split
  · rfl
  · rfl

/-- What makes the request hash tell bodies apart: there is a cache, numbers are written as literals,
different numbers as different ones, and the digest has no collisions. -/
structure Deployment.TellsBodiesApart (D : Deployment) (token : Decimal → NumberToken) : Prop where
  cache : D.cache = true
  numberToString : D.numberToString = numberText token
  token : Function.Injective token
  sha256 : Function.Injective D.sha256

theorem hashBody_eq_iff {token : Decimal → NumberToken} (hD : D.TellsBodiesApart token)
    (hbody : body.WellFormed) (hbody' : body'.WellFormed) :
    hashBody D body = hashBody D body' ↔ Same body body' := by
  unfold hashBody
  rw [hD.sha256.eq_iff, hD.numberToString, stableStringify_eq_iff hD.token hbody hbody']

/-- The text of a body determines it up to the order of keys and `undefined` properties, and nothing
else goes into it. So a retry is answered with the escrow of the first request exactly if its body
is the same in this sense, and is rejected otherwise. -/
theorem request_hash_canonical :
    (∀ {ν : Type} {token : ν → NumberToken} {a b : JsonValue ν}, Function.Injective token →
      a.WellFormed → b.WellFormed →
      (stableStringify (numberText token) a = stableStringify (numberText token) b ↔ Same a b)) ∧
    ∀ {D : Deployment} {token : Decimal → NumberToken} {body body' : JsonValue Decimal}
      {key vendor : String} {dto : CreateEscrowDto} (dto' : CreateEscrowDto) {w w' : World}
      {env : Nat → Choice} (env' : Nat → Choice) {result : EscrowRecord},
      let cacheKey := idempotencyCacheKey key vendor
      let first := (createIdempotentOf D body key dto vendor).exec world env w
      let retry := (createIdempotentOf D body' key dto' vendor).exec world env' w'
      D.TellsBodiesApart token → body.WellFormed → body'.WellFormed →
      (∀ n, (env n).lost = false) → first.1 = .ok result →
      w'.cache.idempotency cacheKey = first.2.cache.idempotency cacheKey →
      (env' 0).miss = false →
      (retry = (.ok result, w') ↔ Same body body') ∧
      (retry = (.error (.unprocessableEntity
        "Idempotency-Key has already been used with a different request body"), w')
          ↔ ¬ Same body body') := by
  refine ⟨fun htoken ha hb => stableStringify_eq_iff htoken ha hb, ?_⟩
  intro D token body body' key vendor dto dto' w w' env env' result cacheKey first retry
    hD hbody hbody' hkept hfirst hstays hread
  have hretry : retry = _ :=
    exec_found hD.cache hread (hstays.trans (remembered hD.cache hkept hfirst))
  rw [hretry, ← hashBody_eq_iff hD hbody hbody']
  by_cases hsame : hashBody D body = hashBody D body'
  · rw [if_neg (not_not.mpr hsame)]
    simp [hsame]
  · rw [if_pos hsame]
    simp [hsame]

/-- A lamp is ordered, ordered again with the keys in another order, and a second one is ordered
under the same key. -/
theorem request_hash_canonical_lamp :
    let token := fun d : Decimal => integerToken d.units
    let D := { Deployment.cached with numberToString := numberText token }
    let dto : CreateEscrowDto := ⟨"lamp", "lamp-1", ⟨1⟩, "USDC", "buyer"⟩
    let body := JsonValue.object
      [("itemRef", some (.string "lamp-1")), ("amount", some (.number ⟨1⟩)), ("note", none)]
    let reordered := JsonValue.object
      [("amount", some (.number ⟨1⟩)), ("itemRef", some (.string "lamp-1"))]
    let other := JsonValue.object
      [("amount", some (.number ⟨1⟩)), ("itemRef", some (.string "lamp-2"))]
    let request := fun body => (createIdempotentOf D body "key" dto "vendor").exec world
      fun _ => .calm
    let first := request body (World.ofEscrows [])
    ∃ result, first.1 = .ok result ∧ request reordered first.2 = (.ok result, first.2) ∧
      request other first.2 = (.error (.unprocessableEntity
        "Idempotency-Key has already been used with a different request body"), first.2) := by
  intro token D dto body reordered other request first
  have hD : D.TellsBodiesApart token :=
    ⟨rfl, rfl, fun x y h => by
      cases x
      cases y
      cases integerToken_injective h
      rfl, Function.injective_id⟩
  have hbody : body.WellFormed := by simp [body, JsonValue.WellFormed, WellFormedFields]
  have hreordered : reordered.WellFormed := by
    simp [reordered, JsonValue.WellFormed, WellFormedFields]
  have hother : other.WellFormed := by simp [other, JsonValue.WellFormed, WellFormedFields]
  have hsame : Same body reordered :=
    (hashBody_eq_iff hD hbody hreordered).mp (by decide +kernel)
  have hdiffers : ¬ Same body other := by
    rw [← hashBody_eq_iff hD hbody hother]
    decide +kernel
  have hok : first.1.isOk = true := by decide +kernel
  match hfirst : first.1 with
  | .error e =>
    rw [hfirst] at hok
    cases hok
  | .ok result =>
    refine ⟨result, rfl, ?_, ?_⟩
    · exact (request_hash_canonical.2 dto (fun _ => .calm) hD hbody hreordered (fun _ => rfl) hfirst
        rfl rfl).1.mpr hsame
    · exact (request_hash_canonical.2 dto (fun _ => .calm) hD hbody hother (fun _ => rfl) hfirst
        rfl rfl).2.mpr hdiffers

end retry

end TrustLink
