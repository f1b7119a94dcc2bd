import TrustLink.Numeric.Calendar
import TrustLink.Store.OrderedMap
import TrustLink.Text.Numeral

/-!
# Text — objects and their JSON copies

An object with its properties in order, and what `JSON.stringify` and `JSON.parse` make of it. A copy
made through JSON keeps strings, finite numbers, booleans and `null`; a date comes back as its ISO
text, a bigint as whatever its `toJSON` returned, and a property that is `undefined` does not come
back (`Js.copied`, `prop_parse_stringify`).

Arrays and objects inside an object are kept as JSON trees.
-/

namespace Text

open Calendar JsNumber Store

inductive Js where
  | undefined
  | null
  | bool (b : Bool)
  | number (x : Number)
  | string (s : String)
  | bigint (n : Int)
  /-- A `Date`; without a time it is invalid. -/
  | date (time : Option Int)
  /-- An array or an object. -/
  | nested (tree : Json)

abbrev JsObject := OrderedMap String Js

/-- A property that is not there reads as `undefined`. -/
def prop (o : JsObject) (key : String) : Js := (o.get key).getD .undefined

theorem prop_set (o : JsObject) (key : String) (v : Js) (key' : String) :
    prop (o.set key v) key' = if key' = key then v else prop o key' := by
  unfold prop
  rw [OrderedMap.get_set]
  split <;> rfl

/-! ## JSON -/

section json

-- the `toJSON` method of bigints
variable (bigintToJSON : Int → String)

/-- What `JSON.stringify` writes for a property; nothing for `undefined`. -/
def Js.toJson : Js → Option Json
  | .undefined => none
  | .null => some .null
  | .bool b => some (.bool b)
  | .number x =>
    if h : isNumber (literal x) = true then some (.number ⟨literal x, h⟩) else some .null
  | .string s => some (.string s)
  | .bigint n => some (.string (bigintToJSON n))
  | .date (some t) => some (.string (String.ofList (toISO t)))
  | .date none => some .null
  | .nested tree => some tree

def Js.ofJson : Json → Js
  | .null => .null
  | .bool b => .bool b
  | .number token => .number ((ofLiteral token.chars).getD .nan)
  | .string s => .string s
  | tree => .nested tree

/-- What is left of a property in a JSON copy. -/
def Js.copied (v : Js) : Js := ((v.toJson bigintToJSON).map Js.ofJson).getD .undefined

def jsonFields (o : JsObject) : List (String × Json) :=
  o.entries.filterMap fun e => (e.2.toJson bigintToJSON).map fun j => (e.1, j)

/-- `JSON.stringify` of an object. -/
def stringify (o : JsObject) : List Char := render (.object (jsonFields bigintToJSON o))

/-- `JSON.parse`, of a text that is an object; of two properties with one key the later one stays. -/
def parseObject (cs : List Char) : Option JsObject :=
  match parse cs with
  | some (.object fields) =>
    some (fields.foldl (fun o f => o.set f.1 (Js.ofJson f.2)) OrderedMap.empty)
  | _ => none

theorem mem_jsonFields {o : JsObject} {key : String} {j : Json} :
    (key, j) ∈ jsonFields bigintToJSON o
      ↔ ∃ v, o.get key = some v ∧ v.toJson bigintToJSON = some j := by
  unfold jsonFields
  rw [List.mem_filterMap]
  constructor
  · rintro ⟨⟨k, v⟩, hmem, hwritten⟩
    obtain ⟨j', hj, heq⟩ := Option.map_eq_some_iff.mp hwritten
    cases heq
    exact ⟨v, OrderedMap.get_eq_some_iff.mpr hmem, hj⟩
  · rintro ⟨v, hget, hj⟩
    refine ⟨(key, v), OrderedMap.get_eq_some_iff.mp hget, ?_⟩
    rw [hj]
    rfl

/-- The copy of an object has the copies of its properties. -/
theorem prop_parse_stringify (o : JsObject) :
    ∃ copy, parseObject (stringify bigintToJSON o) = some copy ∧
      ∀ key, prop copy key = (prop o key).copied bigintToJSON := by
  refine ⟨_, by rw [parseObject, stringify, parse_render], ?_⟩
  intro key
  rcases OrderedMap.get_foldl_set Prod.fst (fun f => Js.ofJson f.2) (jsonFields bigintToJSON o)
      OrderedMap.empty key with ⟨⟨k, j⟩, hf, rfl, hget⟩ | ⟨hnone, hget⟩
  · -- the property was written
    obtain ⟨v, hv, hj⟩ := (mem_jsonFields bigintToJSON).mp hf
    rw [prop, hget, prop, hv, Option.getD_some, Option.getD_some, Js.copied, hj]
    rfl
  · -- nothing was written for the key
    rw [prop, hget, OrderedMap.get_empty, prop]
    cases hkey : o.get key with
    | none => rfl
    | some v =>
      rw [Option.getD_some, Js.copied]
      cases hj : v.toJson bigintToJSON with
      | none => rfl
      | some j => exact absurd rfl (hnone (key, j) ((mem_jsonFields bigintToJSON).mpr ⟨v, hkey, hj⟩))

/-- A finite number comes back as it was. -/
theorem copied_number {x : Number} (hx : x.IsDouble) :
    (Js.number x).copied bigintToJSON = .number x := by
  rw [Js.copied, Js.toJson, dif_pos (isNumber_literal hx)]
  show Js.number ((ofLiteral (literal x)).getD .nan) = _
  rw [ofLiteral_literal hx]
  rfl

end json

end Text
