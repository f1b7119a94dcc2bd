import TrustLink.Model.Records
import TrustLink.Text.Integer
import TrustLink.Text.Utf16

/-!
# TrustLink — request bodies

`stableStringify` writes a body with the keys of every object sorted and the `undefined` properties
left out, so that two bodies with the same fields have the same hash. `sort()` compares the keys by
their UTF-16 code units; `JSON.stringify` of a string is `Text.quoted`, and of a number whatever
`numberToString` says. A bigint is written as a string of its decimal digits, everywhere in the
process.
-/

namespace TrustLink

open Text

/-- `BigInt.prototype.toJSON`, as `common/bigint-json.ts` defines it. -/
def bigintToJSON (n : Int) : String := String.ofList (integer n)

/-- A JavaScript value that JSON can carry, with numbers of some type; a property that is `undefined`
is `none`. -/
inductive JsonValue (ν : Type) where
  | null
  | bool (b : Bool)
  | number (x : ν)
  | string (s : String)
  | array (items : List (JsonValue ν))
  | object (fields : List (String × Option (JsonValue ν)))

variable {ν : Type}

namespace EscrowService

section stringify

variable (numberToString : ν → String)

/-- `JSON.stringify` of a string. -/
def quote (s : String) : String := String.ofList (quoted s)

mutual

def stableStringify : JsonValue ν → String
  | .null => "null"
  | .bool b => if b then "true" else "false"
  | .number x => numberToString x
  | .string s => quote s
  | .array items => "[" ++ ",".intercalate (stringifyItems items) ++ "]"
  | .object fields =>
    let sorted := sortByKey (stringifyFields fields)
    "\x7b" ++ ",".intercalate (sorted.map fun f => quote f.1 ++ ":" ++ f.2) ++ "\x7d"

def stringifyItems : List (JsonValue ν) → List String
  | [] => []
  | item :: items => stableStringify item :: stringifyItems items

def stringifyFields : List (String × Option (JsonValue ν)) → List (String × String)
  | [] => []
  | (_, none) :: fields => stringifyFields fields
  | (key, some value) :: fields => (key, stableStringify value) :: stringifyFields fields

end

end stringify

end EscrowService

def CreateEscrowDto.toJson (dto : CreateEscrowDto) : JsonValue Decimal :=
  .object
    [("itemName", some (.string dto.itemName)), ("itemRef", some (.string dto.itemRef)),
      ("amount", some (.number dto.amount)), ("currency", some (.string dto.currency)),
      ("buyerAddress", some (.string dto.buyerAddress))]

end TrustLink
