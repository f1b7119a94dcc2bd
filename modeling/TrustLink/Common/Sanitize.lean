import TrustLink.Numeric.JsNumber
import TrustLink.Text.Replace

/-!
# TrustLink — sanitising request values

`SanitizationPipe` runs `sanitizeDeep` over every validated body: each string loses its control
characters, then everything that looks like a tag, then the angle brackets that are left. Taking out
a tag can bring two halves of another one together, which is why the last stage is needed; what it
leaves has neither bracket, so a second run finds nothing.

The walk rewrites the values of an object under its own keys. A key is never rewritten, so the result
is free of markup exactly if the keys were (`neutralised_iff`).

Strings are UTF-16 code units, with the lone surrogates a JSON text can write. A position is a path of
child numbers from the root; a child of an object is the value of one of its properties.
-/

namespace TrustLink

open JsNumber Text

/-! ## Strings -/

def lessThan : UInt16 := 0x3c
def greaterThan : UInt16 := 0x3e

def isControl (code : Nat) : Bool :=
  (code ≤ 0x1f && code ≠ 0x09 && code ≠ 0x0a && code ≠ 0x0d) || code = 0x7f

def stripControlChars (value : List UInt16) : List UInt16 := dropCodePoints isControl value

/-- `/<[^>]*>/`: from a bracket to the next closing one. -/
def HTML_TAGS : List UInt16 → Option Nat
  | [] => none
  | c :: rest =>
    if c = lessThan ∧ greaterThan ∈ rest then
      some ((rest.takeWhile (· ≠ greaterThan)).length + 2)
    else none

/-- `/[<>]/` -/
def ANGLE_BRACKETS (text : List UInt16) : Option Nat :=
  text.head?.bind fun c => if c = lessThan || c = greaterThan then some 1 else none

def sanitizeString (value : List UInt16) : List UInt16 :=
  dropMatches ANGLE_BRACKETS 0 (dropMatches HTML_TAGS 0 (stripControlChars value))

/-- Neither bracket, and no control character but tab, newline and carriage return. -/
def Clean (s : List UInt16) : Prop :=
  ∀ u ∈ s, u ≠ lessThan ∧ u ≠ greaterThan ∧ isControl u.toNat = false

instance (s : List UInt16) : Decidable (Clean s) :=
  inferInstanceAs (Decidable (∀ u ∈ s, u ≠ lessThan ∧ u ≠ greaterThan ∧ isControl u.toNat = false))

theorem stripControlChars_eq (s : List UInt16) :
    stripControlChars s = s.filter fun u => !isControl u.toNat := by
  apply dropCodePoints_eq_filter
  intro code hcode
  unfold isControl
  simp only [Bool.or_eq_false_iff, Bool.and_eq_false_iff, decide_eq_false_iff_not]
  omega

theorem dropAngleBrackets_eq (s : List UInt16) : dropMatches ANGLE_BRACKETS 0 s
    = s.filter fun c => !(c = lessThan || c = greaterThan : Bool) :=
  dropMatches_class _ s

/-- The brackets go in the last stage, and no stage brings a control character back. -/
theorem clean_sanitizeString (s : List UInt16) : Clean (sanitizeString s) := by
  intro u hu
  rw [sanitizeString, dropAngleBrackets_eq, List.mem_filter] at hu
  obtain ⟨hmem, hbracket⟩ := hu
  have hstripped := mem_of_mem_dropMatches _ _ _ hmem
  rw [stripControlChars_eq, List.mem_filter] at hstripped
  have hcontrol : isControl u.toNat = false := by simpa using hstripped.2
  have hne : u ≠ lessThan ∧ u ≠ greaterThan := by simpa using hbracket
  exact ⟨hne.1, hne.2, hcontrol⟩

/-- A tag needs a bracket to begin with. -/
theorem HTML_TAGS_of_clean {s : List UInt16} (hs : Clean s) : HTML_TAGS s = none := by
  cases s with
  | nil => rfl
  | cons c rest => exact if_neg fun h => (hs c List.mem_cons_self).1 h.1

theorem sanitizeString_of_clean {s : List UInt16} (hs : Clean s) : sanitizeString s = s := by
  have hstrip : stripControlChars s = s := by
    rw [stripControlChars_eq, List.filter_eq_self]
    intro u hu
    simp [(hs u hu).2.2]
  have htags : dropMatches HTML_TAGS 0 s = s := by
    apply dropMatches_eq_self
    intro suffix hsuffix
    exact HTML_TAGS_of_clean fun u hu => hs u (hsuffix.subset hu)
  rw [sanitizeString, hstrip, htags, dropAngleBrackets_eq, List.filter_eq_self]
  intro u hu
  simp [(hs u hu).1, (hs u hu).2.1]

/-! ## Values -/

/-- A value as `JSON.parse` builds it; the fields of an object are in the order of
`Object.keys`. -/
inductive RequestValue where
  | null
  | bool (b : Bool)
  | number (x : Number)
  | string (s : List UInt16)
  | array (items : List RequestValue)
  | object (fields : List (List UInt16 × RequestValue))

mutual

def sanitizeDeep : RequestValue → RequestValue
  | .string s => .string (sanitizeString s)
  | .array items => .array (sanitizeItems items)
  | .object fields => .object (sanitizeFields fields)
  | .null => .null
  | .bool b => .bool b
  | .number x => .number x

def sanitizeItems : List RequestValue → List RequestValue
  | [] => []
  | item :: rest => sanitizeDeep item :: sanitizeItems rest

/-- `record[key] = sanitizeDeep(record[key])` for every key -/
def sanitizeFields : List (List UInt16 × RequestValue) → List (List UInt16 × RequestValue)
  | [] => []
  | (key, value) :: rest => (key, sanitizeDeep value) :: sanitizeFields rest

end

theorem sanitizeItems_eq (items : List RequestValue) : sanitizeItems items = items.map sanitizeDeep := by
  induction items with
  | nil => rfl
  | cons item rest ih => rw [sanitizeItems, ih, List.map_cons]

theorem sanitizeFields_eq (fields : List (List UInt16 × RequestValue)) :
    sanitizeFields fields = fields.map fun f => (f.1, sanitizeDeep f.2) := by
  induction fields with
  | nil => rfl
  | cons f rest ih => rw [sanitizeFields, ih, List.map_cons]

mutual

/-- A second run changes nothing. -/
theorem sanitizeDeep_idem : ∀ v, sanitizeDeep (sanitizeDeep v) = sanitizeDeep v
  | .string s => by
    rw [sanitizeDeep, sanitizeDeep, sanitizeString_of_clean (clean_sanitizeString s)]
  | .array items => by
    rw [sanitizeDeep, sanitizeDeep, sanitizeItems_idem items]
  | .object fields => by
    rw [sanitizeDeep, sanitizeDeep, sanitizeFields_idem fields]
  | .null => rfl
  | .bool _ => rfl
  | .number _ => rfl

theorem sanitizeItems_idem : ∀ items, sanitizeItems (sanitizeItems items) = sanitizeItems items
  | [] => rfl
  | item :: rest => by
    rw [sanitizeItems, sanitizeItems, sanitizeDeep_idem item, sanitizeItems_idem rest]

theorem sanitizeFields_idem :
    ∀ fields, sanitizeFields (sanitizeFields fields) = sanitizeFields fields
  | [] => rfl
  | (key, value) :: rest => by
    rw [sanitizeFields, sanitizeFields, sanitizeDeep_idem value, sanitizeFields_idem rest]

end

/-! ## Positions -/

namespace RequestValue

def children : RequestValue → List RequestValue
  | .array items => items
  | .object fields => fields.map Prod.snd
  | _ => []

/-- The value at the end of a path. -/
def valueAt : List Nat → RequestValue → Option RequestValue
  | [], v => some v
  | i :: path, v => v.children[i]?.bind (valueAt path)

/-- Neither a string nor made of other values. -/
def IsScalar : RequestValue → Prop
  | .null | .bool _ | .number _ => True
  | _ => False

def HasKey (key : List UInt16) (v : RequestValue) : Prop :=
  ∃ path fields, v.valueAt path = some (.object fields) ∧ key ∈ fields.map Prod.fst

/-- The string occurs somewhere, as a value or as a key. -/
def Occurs (s : List UInt16) (v : RequestValue) : Prop :=
  (∃ path, v.valueAt path = some (.string s)) ∨ HasKey s v

end RequestValue

open RequestValue

theorem children_sanitizeDeep (v : RequestValue) :
    (sanitizeDeep v).children = v.children.map sanitizeDeep := by
  cases v with
  | array items => exact sanitizeItems_eq items
  | object fields =>
    rw [sanitizeDeep, children, children, sanitizeFields_eq, List.map_map, List.map_map]
    rfl
  | _ => rfl

/-- Every position holds what was there, sanitised. -/
theorem valueAt_sanitizeDeep (path : List Nat) :
    ∀ v, (sanitizeDeep v).valueAt path = (v.valueAt path).map sanitizeDeep := by
  induction path with
  | nil =>
    intro v
    rfl
  | cons i path ih =>
    intro v
    rw [valueAt, valueAt, children_sanitizeDeep, List.getElem?_map]
    cases v.children[i]? with
    | none => rfl
    | some child => exact ih child

/-- Only a string becomes a string, and it is clean. -/
theorem string_of_sanitizeDeep {v : RequestValue} {s : List UInt16}
    (h : sanitizeDeep v = .string s) : Clean s := by
  cases v with
  | string t =>
    cases h
    exact clean_sanitizeString t
  | _ => cases h

/-- An object keeps its keys. -/
theorem object_of_sanitizeDeep {v : RequestValue} {fields' : List (List UInt16 × RequestValue)}
    (h : sanitizeDeep v = .object fields') :
    ∃ fields, v = .object fields ∧ fields'.map Prod.fst = fields.map Prod.fst := by
  cases v with
  | object fields =>
    refine ⟨fields, rfl, ?_⟩
    cases h
    rw [sanitizeFields_eq, List.map_map]
    rfl
  | _ => cases h

theorem object_at_sanitizeDeep {v : RequestValue} {path : List Nat}
    {fields : List (List UInt16 × RequestValue)} (h : v.valueAt path = some (.object fields)) :
    ∃ fields', (sanitizeDeep v).valueAt path = some (.object fields') ∧
      fields'.map Prod.fst = fields.map Prod.fst := by
  refine ⟨sanitizeFields fields, ?_, ?_⟩
  · rw [valueAt_sanitizeDeep, h]
    rfl
  · rw [sanitizeFields_eq, List.map_map]
    rfl

/-- Sanitising removes and adds no key. -/
theorem hasKey_sanitizeDeep {key : List UInt16} {v : RequestValue} :
    HasKey key (sanitizeDeep v) ↔ HasKey key v := by
  constructor
  · rintro ⟨path, fields', hat, hkey⟩
    rw [valueAt_sanitizeDeep, Option.map_eq_some_iff] at hat
    obtain ⟨x, hx, hobject⟩ := hat
    obtain ⟨fields, rfl, hkeys⟩ := object_of_sanitizeDeep hobject
    exact ⟨path, fields, hx, hkeys ▸ hkey⟩
  · rintro ⟨path, fields, hat, hkey⟩
    obtain ⟨fields', hat', hkeys⟩ := object_at_sanitizeDeep hat
    exact ⟨path, fields', hat', hkeys ▸ hkey⟩

/-! ## What sanitising is for -/

/-- No markup is left, and nothing but markup is gone. -/
structure Neutralised (v : RequestValue) : Prop where
  clean : ∀ s, Occurs s (sanitizeDeep v) → Clean s
  idempotent : sanitizeDeep (sanitizeDeep v) = sanitizeDeep v
  scalars : ∀ path x, v.valueAt path = some x → x.IsScalar →
    (sanitizeDeep v).valueAt path = some x
  lengths : ∀ path items, v.valueAt path = some (.array items) →
    ∃ items', (sanitizeDeep v).valueAt path = some (.array items') ∧ items'.length = items.length
  strings : ∀ path s, v.valueAt path = some (.string s) → Clean s →
    (sanitizeDeep v).valueAt path = some (.string s)
  keys : ∀ path fields (i : Nat) key, v.valueAt path = some (.object fields) →
    (fields.map Prod.fst)[i]? = some key → Clean key →
      ∃ fields', (sanitizeDeep v).valueAt path = some (.object fields') ∧
        (fields'.map Prod.fst)[i]? = some key

/-- That is so exactly if no key of the value has markup in it. -/
theorem neutralised_iff (v : RequestValue) : Neutralised v ↔ ∀ key, HasKey key v → Clean key := by
  constructor
  · intro h key hkey
    exact h.clean key (.inr (hasKey_sanitizeDeep.mpr hkey))
  · intro hkeys
    refine ⟨?_, sanitizeDeep_idem v, ?_, ?_, ?_, ?_⟩
    -- a string of the result is a value, sanitised where it stands, or a key of the original
    · rintro s (⟨path, hat⟩ | hkey)
      · rw [valueAt_sanitizeDeep, Option.map_eq_some_iff] at hat
        obtain ⟨x, -, hstring⟩ := hat
        exact string_of_sanitizeDeep hstring
      · exact hkeys s (hasKey_sanitizeDeep.mp hkey)
    · intro path x hat hscalar
      rw [valueAt_sanitizeDeep, hat]
      cases x with
      | null | bool _ | number _ => rfl
      | string _ | array _ | object _ => exact hscalar.elim
    · intro path items hat
      refine ⟨sanitizeItems items, ?_, ?_⟩
      · rw [valueAt_sanitizeDeep, hat]
        rfl
      · rw [sanitizeItems_eq, List.length_map]
    · intro path s hat hs
      rw [valueAt_sanitizeDeep, hat]
      show some (sanitizeDeep (.string s)) = _
      rw [sanitizeDeep, sanitizeString_of_clean hs]
    · intro path fields i key hat hkey _
      obtain ⟨fields', hat', hkeys'⟩ := object_at_sanitizeDeep hat
      exact ⟨fields', hat', hkeys' ▸ hkey⟩

/-- A tag as a key, `{"<b>": null}`, comes through. -/
theorem sanitizeDeep_keeps_tag_key :
    ¬Neutralised (.object [([lessThan, 0x62, greaterThan], .null)]) := by
  intro h
  have hkey : HasKey [lessThan, 0x62, greaterThan]
      (sanitizeDeep (.object [([lessThan, 0x62, greaterThan], .null)])) :=
    ⟨[], _, rfl, List.mem_cons_self⟩
  have hclean := h.clean _ (.inr hkey)
  revert hclean
  decide +kernel

end TrustLink
