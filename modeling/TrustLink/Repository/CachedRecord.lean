import TrustLink.Cache.Memory
import TrustLink.Model.Prisma
import TrustLink.Model.RequestBody
import TrustLink.Text.JsObject

/-!
# TrustLink — cached escrows

`findById` puts the record it has read into the cache and revives what it finds there. With Redis
the record is stored as JSON, so its dates come back as ISO texts and its contract id as a decimal
text; the in-memory map keeps the object itself. `reviveCachedEscrow` turns exactly the fields that
hold dates, and the contract id, back, and leaves an object that was never written alone.

Records are JavaScript objects here, with whatever strings they hold, so that a text that looks like
a date stands in the same place as a date that became a text. What `Date.parse` makes of a text that
is not in the ISO format is a parameter.
-/

namespace TrustLink

open Calendar JsNumber Store Text

def ESCROW_DATE_FIELDS : List String :=
  ["shippedAt", "trackingCheckedAt", "deliveredAt", "deliveryRecordedAt", "autoReleaseSubmittedAt",
    "cancelledAt", "createdAt", "updatedAt"]

section revive

variable (otherDates : String → Option Int)

/-- `new Date(s)` -/
def dateOf (s : String) : Js := .date ((parseISO s.toList).or (otherDates s))

/-- The body of the loop over the date fields. -/
def reviveField (record : JsObject) (field : String) : JsObject :=
  match prop record field with
  | .string s => record.set field (dateOf otherDates s)
  | _ => record

/-- A contract id that is not a number is a `SyntaxError` of `BigInt`. -/
def reviveCachedEscrow (cached : JsObject) : Option JsObject :=
  let record := ESCROW_DATE_FIELDS.foldl (reviveField otherDates) cached
  match prop record "contractEscrowId" with
  | .string s => (bigInt s.toList).map fun n => record.set "contractEscrowId" (.bigint n)
  | _ => some record

end revive

/-! ## Reading through a cache -/

/-- What a `CacheService` stores in: Redis holds texts, the fallback map holds the values. -/
inductive CacheBackend where
  /-- No `CacheService` is wired in. -/
  | absent
  | redis (texts : String → Option (List Char))
  | memory (entries : CacheMemory JsObject)

/-- What the environment decides at one `findById`: the clock, whether Redis still has the entry and
can be read, and whether a write to Redis fails. -/
structure CacheReading where
  now : Time
  miss : Bool
  lost : Bool

def ESCROW_CACHE_TTL_SECONDS : ℚ := 60

namespace CacheBackend

/-- A text that cannot be parsed is logged and counts as a miss. -/
def get (reading : CacheReading) (key : String) : CacheBackend → Option JsObject × CacheBackend
  | .absent => (none, .absent)
  | .redis texts =>
    let raw := if reading.miss then none else texts key
    (raw.bind fun raw => if raw = [] then none else parseObject raw, .redis texts)
  | .memory entries =>
    let read := CacheService.get reading.now key entries
    (read.1, .memory read.2)

def set (reading : CacheReading) (key : String) (value : JsObject) : CacheBackend → CacheBackend
  | .absent => .absent
  | .redis texts =>
    if reading.lost then .redis texts
    else .redis (Function.update texts key (some (stringify bigintToJSON value)))
  | .memory entries =>
    .memory (CacheService.set reading.now key value (some ESCROW_CACHE_TTL_SECONDS) entries)

end CacheBackend

namespace EscrowRepository

def cacheKey (id : String) : String := s!"escrow:{id}"

/-- `findById` over a database that has these records, as objects. -/
def findByIdThrough (otherDates : String → Option Int) (rows : String → Option JsObject)
    (reading : CacheReading) (id : String) (cache : CacheBackend) :
    Option (Option JsObject × CacheBackend) :=
  match cache.get reading (cacheKey id) with
  | (some cached, cache) =>
    (reviveCachedEscrow otherDates cached).map fun record => (some record, cache)
  | (none, cache) =>
    match rows id with
    | none => some (none, cache)
    | some record => some (some record, cache.set reading (cacheKey id) record)

/-- One read after the other. -/
def findAllThrough (otherDates : String → Option Int) (rows : String → Option JsObject) :
    List (CacheReading × String) → CacheBackend → Option (List (Option JsObject))
  | [], _ => some []
  | (reading, id) :: reads, cache => do
    let (found, cache) ← findByIdThrough otherDates rows reading id cache
    let rest ← findAllThrough otherDates rows reads cache
    pure (found :: rest)

end EscrowRepository

/-- A `Date | null` with a year of four digits. -/
def IsDateField : Js → Prop
  | .undefined | .null => True
  | .date (some t) => 0 ≤ (ofDays (t / msPerDay)).year ∧ (ofDays (t / msPerDay)).year ≤ 9999
  | _ => False

/-- A `bigint | null`. -/
def IsBigintField : Js → Prop
  | .undefined | .null | .bigint _ => True
  | _ => False

/-- A `string | null` or a finite number. -/
def IsPlainField : Js → Prop
  | .undefined | .null | .string _ => True
  | .number x => x.IsDouble
  | _ => False

/-- An object whose fields have the types of an `EscrowRecord`. -/
structure IsEscrowRecord (record : JsObject) : Prop where
  dates : ∀ field ∈ ESCROW_DATE_FIELDS, IsDateField (prop record field)
  contractEscrowId : IsBigintField (prop record "contractEscrowId")
  others : ∀ field, field ∉ ESCROW_DATE_FIELDS → field ≠ "contractEscrowId" →
    IsPlainField (prop record field)

/-! ## What reviving does to a field -/

section fields

variable {otherDates : String → Option Int}

/-- A date field, revived. -/
def reviveDate (otherDates : String → Option Int) : Js → Js
  | .string s => dateOf otherDates s
  | v => v

/-- The contract id, revived. -/
def reviveId : Js → Option Js
  | .string s => (bigInt s.toList).map .bigint
  | v => some v

theorem prop_reviveField (record : JsObject) (f field : String) :
    prop (reviveField otherDates record f) field
      = if field = f then reviveDate otherDates (prop record field) else prop record field := by
  unfold reviveField
  split
  · next s h =>
    rw [prop_set]
    split
    · next heq =>
      rw [heq, h]
      rfl
    · rfl
  · next h =>
    split
    · next heq =>
      rw [heq]
      unfold reviveDate
      split
      · next s hs => exact absurd hs (h s)
      · rfl
    · rfl

theorem reviveDate_reviveDate (v : Js) :
    reviveDate otherDates (reviveDate otherDates v) = reviveDate otherDates v := by
  cases v <;> rfl

theorem prop_reviveFields (fields : List String) (cached : JsObject) (field : String) :
    prop (fields.foldl (reviveField otherDates) cached) field
      = if field ∈ fields then reviveDate otherDates (prop cached field) else prop cached field := by
  induction fields generalizing cached with
  | nil => simp
  | cons f fields ih =>
    rw [List.foldl_cons, ih, prop_reviveField]
    by_cases hf : field = f
    · subst hf
      simp [reviveDate_reviveDate]
    · simp [hf]

/-- The three kinds of fields. -/
theorem prop_reviveCachedEscrow {cached : JsObject} {id : Js}
    (hid : reviveId (prop cached "contractEscrowId") = some id) :
    ∃ revived, reviveCachedEscrow otherDates cached = some revived ∧
      ∀ field, prop revived field =
        if field = "contractEscrowId" then id
        else if field ∈ ESCROW_DATE_FIELDS then reviveDate otherDates (prop cached field)
        else prop cached field := by
  have hfields : ∀ field, prop (ESCROW_DATE_FIELDS.foldl (reviveField otherDates) cached) field = _ :=
    prop_reviveFields ESCROW_DATE_FIELDS cached
  have hsame := hfields "contractEscrowId"
  rw [if_neg (by decide)] at hsame
  unfold reviveCachedEscrow
  dsimp only
  rw [hsame]
  split
  · next s h =>
    rw [h, reviveId] at hid
    obtain ⟨n, hn, rfl⟩ := Option.map_eq_some_iff.mp hid
    refine ⟨_, by rw [hn, Option.map_some], ?_⟩
    intro field
    rw [prop_set, hfields]
  · next h =>
    refine ⟨_, rfl, ?_⟩
    have heq : prop cached "contractEscrowId" = id := by
      unfold reviveId at hid
      split at hid
      · next s hs => exact absurd hs (h s)
      · exact Option.some.inj hid
    intro field
    by_cases hf : field = "contractEscrowId"
    · rw [if_pos hf, hf, hsame, heq]
    · rw [if_neg hf, hfields]

/-! ### There and back -/

theorem reviveDate_copied {v : Js} (h : IsDateField v) :
    reviveDate otherDates (v.copied bigintToJSON) = v := by
  match v, h with
  | .undefined, _ => rfl
  | .null, _ => rfl
  | .date (some t), h =>
    show dateOf otherDates (String.ofList (toISO t)) = _
    rw [dateOf, String.toList_ofList, parseISO_toISO h.1 h.2]
    rfl

theorem reviveId_copied {v : Js} (h : IsBigintField v) :
    reviveId (v.copied bigintToJSON) = some v := by
  match v, h with
  | .undefined, _ => rfl
  | .null, _ => rfl
  | .bigint n, _ =>
    show (bigInt (String.ofList (integer n)).toList).map Js.bigint = _
    rw [String.toList_ofList, bigInt_integer]
    rfl

theorem copied_plain {v : Js} (h : IsPlainField v) : v.copied bigintToJSON = v := by
  match v, h with
  | .undefined, _ => rfl
  | .null, _ => rfl
  | .string s, _ => rfl
  | .number x, h => exact copied_number bigintToJSON h

/-- A record that went through JSON is revived to a record with the same fields. -/
theorem revive_copy {record : JsObject} (h : IsEscrowRecord record) :
    ∃ copy revived, parseObject (stringify bigintToJSON record) = some copy ∧
      reviveCachedEscrow otherDates copy = some revived ∧
      ∀ field, prop revived field = prop record field := by
  obtain ⟨copy, hcopy, hprop⟩ := prop_parse_stringify bigintToJSON record
  have hid : reviveId (prop copy "contractEscrowId") = some (prop record "contractEscrowId") := by
    rw [hprop]
    exact reviveId_copied h.contractEscrowId
  obtain ⟨revived, hrevived, hfields⟩ :
      ∃ revived, reviveCachedEscrow otherDates copy = some revived ∧ _ :=
    prop_reviveCachedEscrow hid
  refine ⟨copy, revived, hcopy, hrevived, ?_⟩
  intro field
  rw [hfields]
  split
  · next hf => rw [hf]
  · next hf =>
    rw [hprop]
    split
    · next hdate => exact reviveDate_copied (h.dates field hdate)
    · next hother => exact copied_plain (h.others field hother hf)

/-- A record that was not written is left alone. -/
theorem revive_record {record : JsObject} (h : IsEscrowRecord record) :
    reviveCachedEscrow otherDates record = some record := by
  have hfields : ∀ fields : List String, (∀ field ∈ fields, IsDateField (prop record field)) →
      fields.foldl (reviveField otherDates) record = record := by
    intro fields hdates
    induction fields with
    | nil => rfl
    | cons f fields ih =>
      have hstep : reviveField otherDates record f = record := by
        have hdate := hdates f List.mem_cons_self
        unfold reviveField
        split
        · next s hs =>
          rw [hs] at hdate
          exact hdate.elim
        · rfl
      rw [List.foldl_cons, hstep]
      exact ih fun field hf => hdates field (List.mem_cons_of_mem f hf)
  have hid := h.contractEscrowId
  unfold reviveCachedEscrow
  rw [hfields ESCROW_DATE_FIELDS h.dates]
  dsimp only
  split
  · next s hs =>
    rw [hs] at hid
    exact hid.elim
  · rfl

end fields

/-! ## Through the cache

A cache that holds records of the database keeps doing so, and reads through it find them. -/

section reads

open EscrowRepository

variable {otherDates : String → Option Int} {rows : String → Option JsObject}
  {cache cache' : CacheBackend}

/-- Nothing is cached under an id but the record that the database has. -/
def CacheBackend.Holds (rows : String → Option JsObject) : CacheBackend → Prop
  | .absent => True
  | .redis texts => ∀ id text, texts (cacheKey id) = some text →
      ∃ record, rows id = some record ∧ text = stringify bigintToJSON record
  | .memory entries => ∀ id entry, entries.get (cacheKey id) = some entry → rows id = some entry.value

theorem cacheKey_injective : Function.Injective cacheKey := by
  intro id id' h
  have hlist := congrArg String.toList h
  apply String.toList_injective
  simpa [cacheKey, toString, String.toList_append] using hlist

/-- What is found in the cache. -/
theorem get_holds (h : cache.Holds rows) (reading : CacheReading) (id : String) :
    (cache.get reading (cacheKey id)).2.Holds rows ∧
    ∀ cached, (cache.get reading (cacheKey id)).1 = some cached → ∃ record, rows id = some record ∧
      (cached = record ∨ parseObject (stringify bigintToJSON record) = some cached) := by
  cases cache with
  | absent => exact ⟨trivial, nofun⟩
  | redis texts =>
    refine ⟨h, ?_⟩
    intro cached hfound
    obtain ⟨raw, hraw, hparsed⟩ := Option.bind_eq_some_iff.mp hfound
    split at hraw
    · cases hraw
    · obtain ⟨record, hrow, rfl⟩ := h id raw hraw
      split at hparsed
      · cases hparsed
      · exact ⟨record, hrow, .inr hparsed⟩
  | memory entries =>
    constructor
    · intro id' entry hentry
      exact h id' entry (CacheService.get_get_iff.mp hentry).1
    · intro cached hfound
      obtain ⟨entry, hentry, rfl, -⟩ := CacheService.get_value_iff.mp hfound
      exact ⟨entry.value, h id entry hentry, .inl rfl⟩

theorem set_holds (h : cache.Holds rows) (reading : CacheReading) {id : String} {record : JsObject}
    (hrow : rows id = some record) : (cache.set reading (cacheKey id) record).Holds rows := by
  cases cache with
  | absent => trivial
  | redis texts =>
    rw [CacheBackend.set]
    split
    · exact h
    · intro id' text htext
      by_cases hid : id' = id
      · subst hid
        rw [Function.update_self] at htext
        cases htext
        exact ⟨record, hrow, rfl⟩
      · rw [Function.update_of_ne (cacheKey_injective.ne hid)] at htext
        exact h id' text htext
  | memory entries =>
    intro id' entry hentry
    have hset := CacheService.get_evictToCapacity hentry
    rw [OrderedMap.get_set] at hset
    split at hset
    · next hkey =>
      cases hset
      rw [cacheKey_injective hkey]
      exact hrow
    · exact h id' entry hset

/-- A read through the cache is a read of the database, on a hit as on a miss. -/
theorem findByIdThrough_eq (hrows : ∀ id record, rows id = some record → IsEscrowRecord record)
    (h : cache.Holds rows) (reading : CacheReading) (id : String) :
    ∃ found cache', findByIdThrough otherDates rows reading id cache = some (found, cache') ∧
      (∀ field, found.map (prop · field) = (rows id).map (prop · field)) ∧ cache'.Holds rows := by
  obtain ⟨hheld, hhit⟩ := get_holds h reading id
  unfold findByIdThrough
  generalize cache.get reading (cacheKey id) = answer at *
  obtain ⟨cached, cache'⟩ := answer
  cases cached with
  | some cached =>
    obtain ⟨record, hrow, hcached⟩ := hhit cached rfl
    have hrecord := hrows id record hrow
    -- the object itself, or its JSON copy
    obtain ⟨revived, hrevived, hfields⟩ : ∃ revived,
        reviveCachedEscrow otherDates cached = some revived ∧
        ∀ field, prop revived field = prop record field := by
      rcases hcached with rfl | hcopy
      · exact ⟨cached, revive_record hrecord, fun _ => rfl⟩
      · obtain ⟨copy, revived, hcopy', hrevived, hfields⟩ := revive_copy hrecord
        rw [hcopy] at hcopy'
        cases hcopy'
        exact ⟨revived, hrevived, hfields⟩
    refine ⟨some revived, cache', ?_, ?_, hheld⟩
    · dsimp only
      rw [hrevived]
      rfl
    · intro field
      rw [hrow, Option.map_some, Option.map_some, hfields]
  | none =>
    dsimp only
    cases hrow : rows id with
    | none => exact ⟨none, cache', rfl, fun _ => rfl, hheld⟩
    | some record => exact ⟨some record, _, rfl, fun _ => rfl, set_holds hheld reading hrow⟩

/-- The same for any number of reads. -/
theorem findAllThrough_eq (hrows : ∀ id record, rows id = some record → IsEscrowRecord record)
    (h : cache.Holds rows) (reads : List (CacheReading × String)) :
    ∃ found, findAllThrough otherDates rows reads cache = some found ∧
      ∀ field, found.map (Option.map (prop · field))
        = reads.map fun read => (rows read.2).map (prop · field) := by
  induction reads generalizing cache with
  | nil => exact ⟨[], rfl, fun _ => rfl⟩
  | cons read reads ih =>
    obtain ⟨reading, id⟩ := read
    obtain ⟨found, cache', hfound, hfields, hheld⟩ :
        ∃ found cache', findByIdThrough otherDates rows reading id cache = some (found, cache') ∧ _ :=
      findByIdThrough_eq hrows h reading id
    obtain ⟨rest, hrest, hrestFields⟩ := ih hheld
    refine ⟨found :: rest, ?_, ?_⟩
    · rw [findAllThrough, hfound]
      show (findAllThrough otherDates rows reads cache').bind _ = _
      rw [hrest]
      rfl
    · intro field
      rw [List.map_cons, List.map_cons, hfields, hrestFields]

end reads

/-! ## The records of the database -/

def textField (value : Option String) : Js := value.elim .null .string

def dateField (value : Option Time) : Js := value.elim .null fun t => .date (some t)

/-- The record as the object it is. -/
def EscrowRecord.toObject (record : EscrowRecord) : JsObject where
  entries :=
    [("id", .string record.id),
      ("contractEscrowId", record.contractEscrowId.elim .null fun n => .bigint n),
      ("itemName", .string record.itemName), ("itemRef", .string record.itemRef),
      ("amount", .number record.amount), ("currency", .string record.currency),
      ("buyerAddress", .string record.buyerAddress), ("vendorAddress", .string record.vendorAddress),
      ("state", .string record.state.name), ("trackingId", textField record.trackingId),
      ("trackingCheckedAt", dateField record.trackingCheckedAt),
      ("shippedAt", dateField record.shippedAt), ("deliveredAt", dateField record.deliveredAt),
      ("deliveryRecordedAt", dateField record.deliveryRecordedAt),
      ("autoReleaseSubmittedAt", dateField record.autoReleaseSubmittedAt),
      ("autoReleaseTxHash", textField record.autoReleaseTxHash),
      ("disputeId", textField record.disputeId),
      ("buyerContactEmail", textField record.buyerContactEmail),
      ("buyerContactPhone", textField record.buyerContactPhone),
      ("cancelledAt", dateField record.cancelledAt), ("createdAt", dateField record.createdAt),
      ("updatedAt", dateField record.updatedAt)]
  keys_nodup := by
    simp only [List.map_cons, List.map_nil]
    decide

def EscrowRow.dates (row : EscrowRow) : List (Option Time) :=
  [row.trackingCheckedAt, row.shippedAt, row.deliveredAt, row.deliveryRecordedAt,
    row.autoReleaseSubmittedAt, row.cancelledAt, some row.createdAt, some row.updatedAt]

/-- The dates of a row have years of four digits, and the amount fits a `Decimal(18, 8)`. -/
structure EscrowRow.Storable (row : EscrowRow) : Prop where
  years : ∀ value ∈ row.dates, ∀ t ∈ value,
    0 ≤ (ofDays (t / msPerDay)).year ∧ (ofDays (t / msPerDay)).year ≤ 9999
  amount : row.amount.units.natAbs < 10 ^ 18

theorem isDouble_amount {d : Decimal} (h : d.units.natAbs < 10 ^ 18) :
    (ofRat d.toRat).IsDouble := by
  apply isDouble_ofRat
  have hunits : |(d.units : ℚ)| < 10 ^ 18 := by
    rw [← Int.cast_abs, ← Nat.cast_natAbs]
    exact_mod_cast h
  rw [Decimal.toRat, Rat.mkRat_eq_div, abs_div]
  calc |(d.units : ℚ)| / |((10 ^ 8 : Nat) : ℚ)| ≤ |(d.units : ℚ)| := by
        apply div_le_self (abs_nonneg _)
        norm_num
    _ < 10 ^ 18 := hunits
    _ < (2 ^ 54 - 1) * 2 ^ (10 : Int) := by norm_num
    _ ≤ (2 ^ 54 - 1) * 2 ^ (970 : Int) := by
        gcongr
        · norm_num
        · norm_num

/-- What a field of a record may hold. -/
def FieldTyped (field : String) (v : Js) : Prop :=
  if field ∈ ESCROW_DATE_FIELDS then IsDateField v
  else if field = "contractEscrowId" then IsBigintField v
  else IsPlainField v

theorem isEscrowRecord_of_entries {record : JsObject}
    (h : ∀ e ∈ record.entries, FieldTyped e.1 e.2) : IsEscrowRecord record := by
  have hprop : ∀ field, FieldTyped field (prop record field) := by
    intro field
    cases hget : record.get field with
    | none =>
      rw [prop, hget, Option.getD_none, FieldTyped]
      split
      · trivial
      · split <;> trivial
    | some v =>
      rw [prop, hget]
      exact h (field, v) (OrderedMap.get_eq_some_iff.mp hget)
  constructor
  · intro field hdate
    have hfield := hprop field
    rwa [FieldTyped, if_pos hdate] at hfield
  · have hfield := hprop "contractEscrowId"
    rwa [FieldTyped, if_neg (by decide), if_pos rfl] at hfield
  · intro field hdate hid
    have hfield := hprop field
    rwa [FieldTyped, if_neg hdate, if_neg hid] at hfield

theorem isPlainField_textField (value : Option String) : IsPlainField (textField value) := by
  cases value <;> trivial

theorem isDateField_dateField {value : Option Time}
    (h : ∀ t ∈ value, 0 ≤ (ofDays (t / msPerDay)).year ∧ (ofDays (t / msPerDay)).year ≤ 9999) :
    IsDateField (dateField value) := by
  cases value with
  | none => trivial
  | some t => exact h t rfl

/-- The record of a row that can be stored is an object with the right fields. -/
theorem isEscrowRecord_toObject {row : EscrowRow} (h : row.Storable) :
    IsEscrowRecord (toEscrowRecord row).toObject := by
  apply isEscrowRecord_of_entries
  have hdates : ∀ value ∈ row.dates, IsDateField (dateField value) :=
    fun value hvalue => isDateField_dateField (h.years value hvalue)
  have hid : ∀ id : Option Nat, IsBigintField (id.elim .null fun n => .bigint n) := by
    intro id
    cases id <;> trivial
  have hamount : IsPlainField (.number (toEscrowRecord row).amount) := isDouble_amount h.amount
  have htext : ∀ s, IsPlainField (.string s) := fun _ => trivial
  simpa [EscrowRecord.toObject, FieldTyped, ESCROW_DATE_FIELDS, EscrowRow.dates,
    isPlainField_textField, hid, hamount, htext] using hdates

/-- The records of a database, as objects. -/
def Db.objects (db : Db) (id : String) : Option JsObject :=
  (db.escrows.get id).map fun row => (toEscrowRecord row).toObject

theorem isEscrowRecord_objects {db : Db}
    (h : ∀ id row, db.escrows.get id = some row → row.Storable) {id : String} {record : JsObject}
    (hrecord : db.objects id = some record) : IsEscrowRecord record := by
  obtain ⟨row, hrow, rfl⟩ := Option.map_eq_some_iff.mp hrecord
  exact isEscrowRecord_toObject (h id row hrow)

/-! ## The round trip -/

/-- A record that is read back from JSON is revived to a record with the same fields, and one that
was never written is not changed. So whatever has been cached by earlier reads, in Redis, in memory
or nowhere, a read returns what the database has. -/
theorem cached_record_round_trip (otherDates : String → Option Int) :
    (∀ record, IsEscrowRecord record →
      (∃ copy revived, parseObject (stringify bigintToJSON record) = some copy ∧
        reviveCachedEscrow otherDates copy = some revived ∧
        ∀ field, prop revived field = prop record field) ∧
      reviveCachedEscrow otherDates record = some record) ∧
    ∀ rows : String → Option JsObject, (∀ id record, rows id = some record → IsEscrowRecord record) →
      ∀ cache ∈ [CacheBackend.absent, .redis fun _ => none, .memory OrderedMap.empty],
      ∀ reads : List (CacheReading × String), ∃ found,
        EscrowRepository.findAllThrough otherDates rows reads cache = some found ∧
        ∀ field, found.map (Option.map (prop · field))
          = reads.map fun read => (rows read.2).map (prop · field) := by
  constructor
  · intro record h
    exact ⟨revive_copy h, revive_record h⟩
  · intro rows hrows cache hcache reads
    have hempty : cache.Holds rows := by
      simp only [List.mem_cons, List.not_mem_nil, or_false] at hcache
      rcases hcache with rfl | rfl | rfl
      · trivial
      · intro id text h
        cases h
      · intro id entry h
        cases h
    exact findAllThrough_eq hrows hempty reads

/-- A lamp with the largest contract id and a name that looks like a date is read twice from Redis. -/
theorem cached_record_round_trip_lamp :
    let row := { Db.lampEscrow .SHIPPED with
      contractEscrowId := some 18446744073709551615
      itemName := "2024-02-29T12:00:00.000Z"
      shippedAt := some 1709208000000 }
    let rows := (Db.ofEscrows [row]).objects
    let reads := [(⟨0, false, false⟩, "e1"), (⟨1, false, false⟩, "e1")]
    reviveCachedEscrow (fun _ => none) (toEscrowRecord row).toObject
      = some (toEscrowRecord row).toObject ∧
    ∃ found, EscrowRepository.findAllThrough (fun _ => none) rows reads (.redis fun _ => none)
        = some found ∧
      found.map (Option.map (prop · "itemName"))
        = List.replicate 2 (some (.string "2024-02-29T12:00:00.000Z")) ∧
      found.map (Option.map (prop · "shippedAt"))
        = List.replicate 2 (some (.date (some 1709208000000))) := by
  intro row rows reads
  have hrow : row.Storable := ⟨by decide, by decide⟩
  have hrows : ∀ id record, rows id = some record → IsEscrowRecord record := by
    intro id record
    apply isEscrowRecord_objects
    intro id' row' h
    rw [show (Db.ofEscrows [row]).escrows = Store.Table.empty.put row from rfl, Table.get_put] at h
    split at h
    · cases h
      exact hrow
    · cases h
  obtain ⟨hrecord, hreads⟩ := cached_record_round_trip fun _ => none
  obtain ⟨found, hfound, hfields⟩ := hreads rows hrows (.redis fun _ => none) (by simp) reads
  refine ⟨(hrecord _ (isEscrowRecord_toObject hrow)).2, found, hfound, ?_, ?_⟩
  · rw [hfields]
    rfl
  · rw [hfields]
    rfl

end TrustLink
