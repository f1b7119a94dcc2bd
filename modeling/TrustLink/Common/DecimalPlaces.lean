import Mathlib.Algebra.Order.Floor.Ring
import Mathlib.Data.Rat.Floor
import Mathlib.Order.Bounds.Basic
import TrustLink.Model.Records
import TrustLink.Text.JsObject
import TrustLink.Text.Shortest

/-!
# TrustLink — the decimal places of an amount

`countDecimalPlaces` counts the places of a number on its numeral, with a regular expression that
knows the exponent, and `CreateEscrowDto` admits amounts of at most eight places below ten thousand
million. Two facts make this the right check for a column of type `Decimal(18, 8)`. The count is
moved by the exponent to `-p` for digits `s * 10 ^ p` in any of the layouts (`countDecimalPlaces_eq`),
and a numeral has no trailing zeros, so no smaller number of places would do (`isLeast_places`).

* **`accepted_amounts_storable`** — the count is the least number of places, and an amount that is
  accepted is stored as it stands and read back as the number that was sent.
-/

namespace TrustLink

open JsNumber Text

/-! ## The regular expression -/

/-- A run of digits and what follows it. -/
def digitRun (cs : List Char) : List Char × List Char := (cs.takeWhile isDigit, cs.dropWhile isDigit)

/-- `(?:e([+-]\d+))?$`: the group, if it takes part in the match. -/
def matchExponent : List Char → Option (Option (List Char))
  | [] => some none
  | 'e' :: sign :: ds =>
    if (sign = '+' ∨ sign = '-') ∧ ds ≠ [] ∧ ds.all isDigit then some (some (sign :: ds)) else none
  | _ => none

/-- `(?:\.(\d+))?(?:e([+-]\d+))?$`: both groups. -/
def matchFraction : List Char → Option (Option (List Char) × Option (List Char))
  | '.' :: cs =>
    match digitRun cs with
    | ([], _) => none
    | (frac, rest) => (matchExponent rest).map (some frac, ·)
  | cs => (matchExponent cs).map (none, ·)

/-- `/^(\d+)(?:\.(\d+))?(?:e([+-]\d+))?$/`: the second and the third group. What follows a run of
digits never begins with one, so each run is taken as a whole. -/
def matchNumeral (cs : List Char) : Option (Option (List Char) × Option (List Char)) :=
  match digitRun cs with
  | ([], _) => none
  | (_, rest) => matchFraction rest

/-- `Number(match[3])`, which has a sign and digits. -/
def exponentValue (group : List Char) : Int :=
  let (neg, ds) := signed group
  let n := (digits 10 ds).getD 0
  if neg then -(n : Int) else n

section validator

-- `Number.prototype.toString`
variable (toString : Number → List Char)

/-- `none` is `Number.POSITIVE_INFINITY`. -/
def countDecimalPlaces (value : Number) : Option Nat :=
  match matchNumeral (toString value.abs) with
  | none => none
  | some (fraction, exponent) =>
    let fractionDigits : Int := (fraction.map List.length).getD 0
    let exponent := (exponent.map exponentValue).getD 0
    some (fractionDigits - exponent).toNat

namespace MaxDecimalPlacesConstraint

def validate (maxPlaces : Nat) : Js → Bool
  | .number value => value.isFinite &&
    match countDecimalPlaces toString value with
    | some places => places ≤ maxPlaces
    | none => false
  | _ => false

def defaultMessage (property : String) (maxPlaces : Nat) : String :=
  s!"{property} must have at most {maxPlaces} decimal places"

end MaxDecimalPlacesConstraint

def ESCROW_AMOUNT_DECIMAL_PLACES : Nat := 8

def ESCROW_AMOUNT_MAX : Nat := 9999999999

/-- The checks of the validation library that an amount goes through, with what is documented of
them. -/
structure ClassValidator where
  isNumber : Js → Bool
  isPositive : Js → Bool
  max : Nat → Js → Bool
  /-- `IsNumber` admits the finite numbers. -/
  isNumber_iff : ∀ value, isNumber value = true ↔ ∃ x, value = .number x ∧ x.isFinite = true
  /-- `IsPositive` compares with zero. -/
  isPositive_number : ∀ x, isPositive (.number x) = x.positive
  /-- `Max` compares with the limit. -/
  max_number : ∀ limit x, max limit (.number x) = le x (ofRat limit)

/-- What the decorators of `CreateEscrowDto.amount` object to. The first two messages are those of
the library. -/
def amountViolations (V : ClassValidator) (amount : Js) : List String :=
  (if V.isNumber amount then []
    else ["amount must be a number conforming to the specified constraints"]) ++
  (if V.isPositive amount then [] else ["amount must be a positive number"]) ++
  (if MaxDecimalPlacesConstraint.validate toString ESCROW_AMOUNT_DECIMAL_PLACES amount then []
    else [MaxDecimalPlacesConstraint.defaultMessage "amount" ESCROW_AMOUNT_DECIMAL_PLACES]) ++
  (if V.max ESCROW_AMOUNT_MAX amount then []
    else [s!"amount must not exceed {ESCROW_AMOUNT_MAX}"])

end validator

/-- A value put into a column of type `Decimal(18, 8)`: it is rounded to eight places, halves away
from zero, and refused if it has more than ten digits before the point. -/
def storeAmount (q : ℚ) : Option Decimal :=
  let magnitude := ⌊|q| * 10 ^ 8 + 1 / 2⌋
  let units := if q < 0 then -magnitude else magnitude
  if units.natAbs < 10 ^ 18 then some ⟨units⟩ else none

/-! ## The match of a numeral -/

theorem digitRun_append {ds rest : List Char} (hds : ∀ c ∈ ds, isDigit c = true)
    (hrest : ∀ c ∈ rest.head?, isDigit c = false) : digitRun (ds ++ rest) = (ds, rest) := by
  unfold digitRun
  rw [List.takeWhile_append_of_pos hds, List.dropWhile_append_of_pos hds]
  cases rest with
  | nil => simp
  | cons c rest =>
    have hc := hrest c rfl
    simp [hc]

/-- The exponent of a decimal, as the third group has it. -/
def exponentGroup (x : Int) : List Char := (if 0 ≤ x then '+' else '-') :: Nat.toDigits 10 x.natAbs

theorem exponentValue_group (x : Int) : exponentValue (exponentGroup x) = x := by
  unfold exponentValue exponentGroup
  rw [signed_sign]
  dsimp only
  rw [digits_toDigits, Option.getD_some]
  simp only [decide_eq_true_eq]
  omega

theorem matchExponent_write (exponent : Option Int) :
    matchExponent (writeExponent exponent) = some (exponent.map exponentGroup) := by
  cases exponent with
  | none => rfl
  | some x =>
    have hsign : ∀ sign : Char, sign = (if 0 ≤ x then '+' else '-') → sign = '+' ∨ sign = '-' := by
      rintro sign rfl
      split
      · exact .inl rfl
      · exact .inr rfl
    have hdigits : (Nat.toDigits 10 x.natAbs).all isDigit = true :=
      List.all_eq_true.mpr fun c hc => isDigit_of_mem_toDigits hc
    unfold writeExponent matchExponent
    exact if_pos ⟨hsign _ rfl, Nat.toDigits_ne_nil, hdigits⟩

theorem ends_writeExponent {exponent : Option Int} {c : Char}
    (hc : c ∈ (writeExponent exponent).head?) : isDigit c = false := by
  rw [head_writeExponent hc]
  decide

theorem matchFraction_write {frac : List Char} (hfrac : ∀ c ∈ frac, isDigit c = true)
    (exponent : Option Int) :
    matchFraction (writeFraction frac ++ writeExponent exponent)
      = some (if frac = [] then none else some frac, exponent.map exponentGroup) := by
  have hexponent := matchExponent_write exponent
  cases frac with
  | nil =>
    have hskip : matchFraction (writeExponent exponent)
        = (matchExponent (writeExponent exponent)).map (none, ·) := by
      cases exponent with
      | none => rfl
      | some x => rfl
    rw [show writeFraction [] = [] from rfl, List.nil_append, hskip, hexponent]
    rfl
  | cons f frac =>
    show (match digitRun ((f :: frac) ++ writeExponent exponent) with
      | ([], _) => none
      | (frac, rest) => (matchExponent rest).map (some frac, ·)) = _
    rw [digitRun_append hfrac fun c hc => ends_writeExponent hc]
    dsimp only
    rw [hexponent]
    rfl

theorem matchNumeral_write {int frac : List Char} (hne : int ≠ [])
    (hint : ∀ c ∈ int, isDigit c = true) (hfrac : ∀ c ∈ frac, isDigit c = true)
    (exponent : Option Int) :
    matchNumeral (writeDecimal int frac exponent)
      = some (if frac = [] then none else some frac, exponent.map exponentGroup) := by
  have hends : ∀ c ∈ (writeFraction frac ++ writeExponent exponent).head?, isDigit c = false := by
    intro c hc
    cases frac with
    | nil => exact ends_writeExponent hc
    | cons f frac =>
      cases hc
      decide
  obtain ⟨i, int, rfl⟩ := List.exists_cons_of_ne_nil hne
  unfold matchNumeral writeDecimal
  rw [digitRun_append hint hends]
  exact matchFraction_write hfrac exponent

/-- Whatever the layout, the places are those of the digits. -/
theorem countDecimalPlaces_eq {toString : Number → List Char} {value : Number} {s : Nat} {p : Int}
    (hs : s % 10 ≠ 0 ∨ s = 0 ∧ p = 0) (htext : toString value.abs = numeral s p) :
    countDecimalPlaces toString value = some (-p).toNat := by
  obtain ⟨int, frac, exponent, hnumeral, hlayout⟩ := exists_layout hs
  have hfraction : ((if frac = [] then none else some frac).map List.length).getD 0 = frac.length := by
    split
    · next h =>
      rw [h]
      rfl
    · rfl
  have hexponent : ((exponent.map exponentGroup).map exponentValue).getD 0 = exponent.getD 0 := by
    cases exponent with
    | none => rfl
    | some x => exact exponentValue_group x
  unfold countDecimalPlaces
  rw [htext, hnumeral, matchNumeral_write hlayout.run.1 hlayout.run.2.1 hlayout.digits]
  dsimp only
  rw [hfraction, hexponent, hlayout.places]

/-- `d` places are enough for `q`. -/
def HasPlaces (q : ℚ) (d : Nat) : Prop := ∃ z : Int, q * 10 ^ d = z

theorem HasPlaces.mono {q : ℚ} {d d' : Nat} (h : HasPlaces q d) (hd : d ≤ d') : HasPlaces q d' := by
  obtain ⟨z, hz⟩ := h
  refine ⟨z * 10 ^ (d' - d), ?_⟩
  rw [← Nat.add_sub_cancel' hd, pow_add, ← mul_assoc, hz, Nat.add_sub_cancel_left]
  push_cast
  rfl

theorem isLeast_places {s : Nat} {p : Int} (hs : s % 10 ≠ 0 ∨ s = 0 ∧ p = 0) :
    IsLeast {d | HasPlaces (decimalValue s p) d} (-p).toNat := by
  rw [decimalValue_eq]
  rcases le_or_gt 0 p with hp | hp
  · -- an integer
    obtain ⟨k, rfl⟩ := Int.eq_ofNat_of_zero_le hp
    have hzero : (-(k : Int)).toNat = 0 := by omega
    rw [hzero]
    refine ⟨⟨s * 10 ^ k, ?_⟩, fun d _ => Nat.zero_le d⟩
    simp
  · obtain ⟨k, rfl⟩ : ∃ k : Nat, p = -(k : Int) := ⟨(-p).toNat, by omega⟩
    rw [neg_neg, Int.toNat_natCast]
    constructor
    · refine ⟨s, ?_⟩
      rw [zpow_neg, zpow_natCast]
      simp
    · -- with fewer places ten would divide the digits
      intro d hd
      obtain ⟨z, hz⟩ := hd
      by_contra hlt
      obtain ⟨j, rfl⟩ : ∃ j, k = d + (j + 1) := ⟨k - d - 1, by omega⟩
      have hten : (s : ℚ) = z * 10 ^ (j + 1) := by
        rw [zpow_neg, zpow_natCast, pow_add] at hz
        rw [← hz]
        field_simp
      have hdvd : (10 : Int) ∣ s := by
        refine ⟨z * 10 ^ j, ?_⟩
        have hint : (s : Int) = z * 10 ^ (j + 1) := by exact_mod_cast hten
        rw [hint]
        ring
      omega

/-! ## Storing

The column has eight places and ten digits before them, and an accepted amount fits. -/

/-- What has eight places and ten digits before them is not rounded. -/
theorem storeAmount_exact {q : ℚ} (hplaces : HasPlaces q 8) (hlow : 0 ≤ q) (hhigh : q < 10 ^ 10) :
    ∃ stored, storeAmount q = some stored ∧ stored.toRat = q ∧
      0 ≤ stored.units ∧ stored.units < 10 ^ 18 := by
  obtain ⟨z, hz⟩ := hplaces
  have hfloor : ⌊|q| * 10 ^ 8 + 1 / 2⌋ = z := by
    rw [abs_of_nonneg hlow, hz, Int.floor_eq_iff]
    constructor
    · linarith
    · linarith
  have hnonneg : 0 ≤ z := by
    have h : (0 : ℚ) ≤ z := by
      rw [← hz]
      positivity
    exact_mod_cast h
  have hlt : z < 10 ^ 18 := by
    have h : (z : ℚ) < 10 ^ 18 := by
      rw [← hz]
      linarith
    exact_mod_cast h
  refine ⟨⟨z⟩, ?_, ?_, hnonneg, hlt⟩
  · unfold storeAmount
    dsimp only
    rw [hfloor, if_neg (not_lt_of_ge hlow), if_pos (by omega)]
  · show mkRat z (10 ^ 8) = q
    rw [Rat.mkRat_eq_div, ← hz, Nat.cast_pow, Nat.cast_ofNat]
    exact mul_div_cancel_right₀ q (by norm_num)

/-- An amount nobody objects to is a positive number within both limits. -/
theorem accepted_iff {V : ClassValidator} {toString : Number → List Char} {amount : Js} :
    amountViolations toString V amount = [] ↔
      ∃ value places, amount = .number value ∧ value.isFinite = true ∧ value.positive = true ∧
        countDecimalPlaces toString value = some places ∧ places ≤ ESCROW_AMOUNT_DECIMAL_PLACES ∧
        le value (ofRat ESCROW_AMOUNT_MAX) = true := by
  have hnil : ∀ (b : Bool) (message : String),
      (if b = true then [] else [message]) = [] ↔ b = true := by
    intro b message
    cases b with
    | true => simp
    | false => simp
  unfold amountViolations
  rw [List.append_eq_nil_iff, List.append_eq_nil_iff, List.append_eq_nil_iff, hnil, hnil, hnil, hnil]
  constructor
  · rintro ⟨⟨⟨hnumber, hpositive⟩, hplaces⟩, hmax⟩
    -- anything but a number fails the first check already
    obtain ⟨value, rfl, hfinite⟩ := (V.isNumber_iff amount).mp hnumber
    rw [V.isPositive_number] at hpositive
    rw [V.max_number] at hmax
    unfold MaxDecimalPlacesConstraint.validate at hplaces
    dsimp only at hplaces
    rw [hfinite, Bool.true_and] at hplaces
    cases hcount : countDecimalPlaces toString value with
    | none =>
      rw [hcount] at hplaces
      cases hplaces
    | some places =>
      rw [hcount, decide_eq_true_eq] at hplaces
      exact ⟨value, places, rfl, hfinite, hpositive, hcount, hplaces, hmax⟩
  · rintro ⟨value, places, rfl, hfinite, hpositive, hcount, hplaces, hmax⟩
    refine ⟨⟨⟨(V.isNumber_iff _).mpr ⟨value, rfl, hfinite⟩, ?_⟩, ?_⟩, ?_⟩
    · rw [V.isPositive_number, hpositive]
    · unfold MaxDecimalPlacesConstraint.validate
      dsimp only
      rw [hfinite, Bool.true_and, hcount]
      exact decide_eq_true hplaces
    · rw [V.max_number, hmax]

theorem abs_of_positive {value : Number} (h : value.positive = true) : value.abs = value := by
  cases value with
  | nan => rfl
  | infinity neg =>
    cases neg with
    | true => cases h
    | false => rfl
  | finite neg m e =>
    cases neg with
    | true => cases h
    | false => rfl

/-- Rounding does not bring a decimal below the limit. -/
theorem lt_of_le_max {q : ℚ} {value : Number} (hvalue : ofRat q = value)
    (hfinite : value.isFinite = true) (hmax : le value (ofRat ESCROW_AMOUNT_MAX) = true) :
    q < 10 ^ 10 := by
  cases value with
  | nan => cases hfinite
  | infinity neg => cases hfinite
  | finite neg m e =>
    by_contra hge
    have hten : ((10 ^ 10 : Nat) : ℚ) ≤ q := by
      push_cast
      exact not_lt.mp hge
    have hround := le_toRat_ofRat (by norm_num) (by norm_num) hten (by rw [hvalue, toRat_finite])
    have hlimit : (ofRat (ESCROW_AMOUNT_MAX : ℚ)).toRat = some ((9999999999 : Int) : ℚ) :=
      toRat_ofRat_int (by decide)
    rw [le_eq_decide (toRat_finite neg m e) hlimit, decide_eq_true_eq] at hmax
    have habsurd : ((10 ^ 10 : Nat) : ℚ) ≤ ((9999999999 : Int) : ℚ) := le_trans hround hmax
    norm_num at habsurd

section amount

variable {V : ClassValidator} {toString : Number → List Char}

/-- The count on a numeral. -/
theorem countDecimalPlaces_isLeast {value : Number}
    (hnumeral : IsNumeral value.abs (toString value.abs)) :
    ∃ q d, decimalLiteral (toString value.abs) = some q ∧
      countDecimalPlaces toString value = some d ∧ IsLeast {d | HasPlaces q d} d := by
  obtain ⟨s, p, hs, -, htext⟩ := hnumeral
  refine ⟨decimalValue s p, (-p).toNat, ?_, countDecimalPlaces_eq hs htext, isLeast_places hs⟩
  rw [htext, decimalLiteral_numeral hs]

/-- An accepted amount is stored as it stands. -/
theorem exists_stored {value : Number} (haccepted : amountViolations toString V (.number value) = [])
    (hnumeral : IsNumeral value (toString value)) :
    ∃ q stored, decimalLiteral (toString value) = some q ∧ storeAmount q = some stored ∧
      stored.toRat = q ∧ 0 ≤ stored.units ∧ stored.units < 10 ^ 18 ∧
      ofRat stored.toRat = value := by
  obtain ⟨_, places, heq, hfinite, hpositive, hcount, hplaces, hmax⟩ := accepted_iff.mp haccepted
  cases heq
  obtain ⟨s, p, hs, hround, htext⟩ := hnumeral
  have htext' : toString value.abs = numeral s p := by
    rw [abs_of_positive hpositive]
    exact htext
  -- the count is at most eight, so eight places are enough
  rw [countDecimalPlaces_eq hs htext', Option.some.injEq] at hcount
  rw [← hcount] at hplaces
  have height : HasPlaces (decimalValue s p) 8 := (isLeast_places hs).1.mono hplaces
  obtain ⟨stored, hstore, hexact, hlow, hhigh⟩ := storeAmount_exact height (decimalValue_nonneg s p)
    (lt_of_le_max hround hfinite hmax)
  refine ⟨decimalValue s p, stored, ?_, hstore, hexact, hlow, hhigh, ?_⟩
  · rw [htext, decimalLiteral_numeral hs]
  · rw [hexact, hround]

end amount

/-- The places are counted right on every numeral, so an accepted amount is stored without rounding,
and is read back as the number it was. -/
theorem accepted_amounts_storable (V : ClassValidator) (toString : Number → List Char) :
    (∀ value : Number, IsNumeral value.abs (toString value.abs) →
      ∃ q d, decimalLiteral (toString value.abs) = some q ∧
        countDecimalPlaces toString value = some d ∧ IsLeast {d | HasPlaces q d} d) ∧
    ∀ amount : Js, amountViolations toString V amount = [] →
      (∀ value, amount = .number value → IsNumeral value (toString value)) →
      ∃ value q stored, amount = .number value ∧ decimalLiteral (toString value) = some q ∧
        storeAmount q = some stored ∧ stored.toRat = q ∧ ofRat stored.toRat = value := by
  constructor
  · intro value hnumeral
    exact countDecimalPlaces_isLeast hnumeral
  · intro amount haccepted hnumeral
    obtain ⟨value, -, rfl, -⟩ := accepted_iff.mp haccepted
    obtain ⟨q, stored, hvalue, hstore, hexact, -, -, hround⟩ :=
      exists_stored haccepted (hnumeral value rfl)
    exact ⟨value, q, stored, rfl, hvalue, hstore, hexact, hround⟩

/-- The checks as they are documented. -/
def ClassValidator.documented : ClassValidator where
  isNumber
    | .number x => x.isFinite
    | _ => false
  isPositive
    | .number x => x.positive
    | _ => false
  max limit
    | .number x => le x (ofRat limit)
    | _ => false
  isNumber_iff value := by
    cases value with
    | number x => simp
    | _ => simp
  isPositive_number _ := rfl
  max_number _ _ := rfl

/-- Half a micro-unit, which is written with an exponent. -/
theorem accepted_amounts_storable_small :
    let amount : Number := ofRat (5 / 10 ^ 7)
    (∃ q d, decimalLiteral (literal amount.abs) = some q ∧
      countDecimalPlaces literal amount = some d ∧ IsLeast {d | HasPlaces q d} d) ∧
    ∃ value q stored, Js.number amount = .number value ∧ decimalLiteral (literal value) = some q ∧
      storeAmount q = some stored ∧ stored.toRat = q ∧ ofRat stored.toRat = value := by
  have hnumeral : IsNumeral (ofRat (5 / 10 ^ 7)) (literal (ofRat (5 / 10 ^ 7))) :=
    ⟨5, -7, .inl (by decide), by decide +kernel, by decide +kernel⟩
  have habs : (ofRat (5 / 10 ^ 7)).abs = ofRat (5 / 10 ^ 7) := by decide +kernel
  refine ⟨(accepted_amounts_storable .documented literal).1 _ (by rwa [habs]),
    (accepted_amounts_storable .documented literal).2 _ (by decide +kernel) ?_⟩
  intro value heq
  cases heq
  exact hnumeral

/-- With the numerals that numbers are written as, an accepted amount is stored without rounding, is
positive in the column, and is what the record of the row shows. -/
theorem accepted_amount_roundtrip {V : ClassValidator} {value : Number} (hdouble : value.IsDouble)
    (haccepted : amountViolations literal V (.number value) = []) :
    ∃ q stored, decimalLiteral (literal value) = some q ∧ storeAmount q = some stored ∧
      stored.toRat = q ∧ 0 < stored.units ∧
      ∀ row : EscrowRow, row.amount = stored → (toEscrowRecord row).amount = value := by
  obtain ⟨_, _, heq, -, hpositive, -⟩ := accepted_iff.mp haccepted
  cases heq
  have hnumeral : IsNumeral value (literal value) := by
    cases value with
    | nan => exact hdouble.elim
    | infinity neg => exact hdouble.elim
    | finite neg m e =>
      have habs := abs_of_positive hpositive
      rw [← habs] at hdouble ⊢
      exact isNumeral_literal hdouble
  obtain ⟨q, stored, hq, hstore, hexact, hlow, -, hround⟩ := exists_stored haccepted hnumeral
  have hunits : stored.units ≠ 0 := by
    intro hzero
    have hrat : stored.toRat = 0 := by
      unfold Decimal.toRat
      rw [hzero, Rat.zero_mkRat]
    rw [← hround, hrat] at hpositive
    exact absurd hpositive (by decide)
  refine ⟨q, stored, hq, hstore, hexact, by omega, fun row hrow => ?_⟩
  rw [← hround, ← hrow]
  rfl

theorem accepted_amount_roundtrip_small : ∃ q stored,
    decimalLiteral (literal (ofRat (5 / 10 ^ 7))) = some q ∧ storeAmount q = some stored ∧
      ∀ row : EscrowRow, row.amount = stored → (toEscrowRecord row).amount = ofRat (5 / 10 ^ 7) := by
  have hdouble : (ofRat (5 / 10 ^ 7)).IsDouble := by
    have hvalue : ofRat (5 / 10 ^ 7) = .finite false 4722366482869645 (-73) := by decide +kernel
    rw [hvalue]
    exact ⟨by decide, by decide, by decide, .inl (by decide), by decide⟩
  obtain ⟨q, stored, hq, hstore, -, -, hround⟩ :=
    accepted_amount_roundtrip (V := .documented) hdouble (by decide +kernel)
  exact ⟨q, stored, hq, hstore, hround⟩

end TrustLink
