import Mathlib.Data.Rat.Defs
import Mathlib.Algebra.Order.Ring.Rat

/-!
# Numeric — ECMAScript numbers

The values of the `Number` type, and the two conversions a comparison of amounts goes
through: an exact decimal to the nearest binary64 (ties to even), and a string to a number
by the `StringToNumber` grammar (white space, sign, `Infinity`, decimal literals with an
exponent, and the `0x` / `0o` / `0b` literals).

The exact value a numeral denotes is kept apart from the number it is rounded to
(`Numeral`), so that "equal as numbers" and "equal as decimals" can both be said.
-/

namespace JsNumber

/-- A number. A finite one is `(-1)^neg * m * 2^e` with `2^52 ≤ m < 2^53` or `e = -1074`, so
equal values are equal terms; the sign of zero, which `===` does not see, is not kept. -/
inductive Number where
  | nan
  | infinity (neg : Bool)
  | finite (neg : Bool) (m : Nat) (e : Int)
  deriving DecidableEq, Repr

/-- `n / d` to the nearest integer, ties to even. -/
def roundHalfEven (n d : Nat) : Nat :=
  let q := n / d
  let r := n % d
  if 2 * r < d then q else if d < 2 * r then q + 1 else q + q % 2

/-- The largest `l` with `2^l ≤ n / d`, for positive `n` and `d`. -/
def floorLog2 (n d : Nat) : Int :=
  let l : Int := (Nat.log2 n : Int) - Nat.log2 d
  -- `l` is the answer or one too large
  if (if 0 ≤ l then d * 2 ^ l.toNat ≤ n else d ≤ n * 2 ^ (-l).toNat) then l else l - 1

/-- The nearest binary64 to `(-1)^neg * n / d`. -/
def roundFraction (neg : Bool) (n d : Nat) : Number :=
  if n = 0 then .finite false 0 (-1074)
  else
    let e := max (floorLog2 n d - 52) (-1074)
    let m := if 0 ≤ e then roundHalfEven n (d * 2 ^ e.toNat)
      else roundHalfEven (n * 2 ^ (-e).toNat) d
    -- rounding up may carry into the next binade
    let (m, e) := if m = 2 ^ 53 then (2 ^ 52, e + 1) else (m, e)
    if 971 < e then .infinity neg
    else if m = 0 then .finite false 0 (-1074)
    else .finite neg m e

/-- `Number(d)` for an exact decimal `d`. -/
def ofRat (q : ℚ) : Number :=
  roundFraction (q.num < 0) q.num.natAbs q.den

/-- A decimal is rounded to a number or to an infinity. -/
theorem ofRat_ne_nan (q : ℚ) : ofRat q ≠ .nan := by
  -- whatever mantissa and exponent the rounding has come to
  have hround : ∀ (neg : Bool) (p : Nat × Int), (if 971 < p.2 then Number.infinity neg
      else if p.1 = 0 then .finite false 0 (-1074) else .finite neg p.1 p.2) ≠ .nan := by
    intro neg p
    split
    · exact Number.noConfusion
    · split <;> exact Number.noConfusion
  unfold ofRat roundFraction
  split
  · exact Number.noConfusion
  · exact hround _ _

/-! ## Strings -/

/-- What a string denotes before it is rounded. -/
inductive Numeral where
  | nan
  | infinity (neg : Bool)
  | exact (q : ℚ)
  deriving DecidableEq

def isWhiteSpace (c : Char) : Bool :=
  [0x09, 0x0A, 0x0B, 0x0C, 0x0D, 0x20, 0xA0, 0x1680, 0x2028, 0x2029, 0x202F, 0x205F, 0x3000,
    0xFEFF].contains c.toNat || (0x2000 ≤ c.toNat && c.toNat ≤ 0x200A)

def trimChars (cs : List Char) : List Char :=
  ((cs.dropWhile isWhiteSpace).reverse.dropWhile isWhiteSpace).reverse

def digitValue (c : Char) : Nat :=
  if '0' ≤ c ∧ c ≤ '9' then c.toNat - '0'.toNat
  else if 'a' ≤ c ∧ c ≤ 'z' then c.toNat - 'a'.toNat + 10
  else if 'A' ≤ c ∧ c ≤ 'Z' then c.toNat - 'A'.toNat + 10
  else 36

/-- A non-empty run of digits of the radix, as its value. -/
def digits (radix : Nat) (cs : List Char) : Option Nat :=
  if cs ≠ [] ∧ cs.all (fun c => digitValue c < radix) then
    some (cs.foldl (fun acc c => acc * radix + digitValue c) 0)
  else none

/-- The decimal digits of a number denote it. -/
theorem digits_toDigits (n : Nat) : digits 10 (Nat.toDigits 10 n) = some n := by
  have hdigit : ∀ c ∈ Nat.toDigits 10 n, c.isDigit = true :=
    fun c hc => Nat.isDigit_of_mem_toDigits (by decide) (by decide) hc
  have hvalue : ∀ c : Char, c.isDigit = true →
      digitValue c = c.toNat - '0'.toNat ∧ digitValue c < 10 := by
    intro c hc
    have hrange : '0' ≤ c ∧ c ≤ '9' := by
      rw [Char.isDigit, Bool.and_eq_true] at hc
      exact ⟨of_decide_eq_true hc.1, of_decide_eq_true hc.2⟩
    have heq : digitValue c = c.toNat - '0'.toNat := if_pos hrange
    have hle : c.toNat ≤ '9'.toNat := hrange.2
    refine ⟨heq, ?_⟩
    rw [heq, show '0'.toNat = 48 from rfl]
    rw [show '9'.toNat = 57 from rfl] at hle
    omega
  -- the two folds read the digits in the same way
  have hfold : ∀ (cs : List Char) (acc : Nat), (∀ c ∈ cs, c.isDigit = true) →
      cs.foldl (fun acc c => acc * 10 + digitValue c) acc = Nat.ofDigitChars 10 cs acc := by
    intro cs
    induction cs with
    | nil => intro acc _; exact Nat.ofDigitChars_nil.symm
    | cons c cs ih =>
      intro acc hcs
      rw [List.foldl_cons, Nat.ofDigitChars_cons, ih _ fun c' hc' => hcs c' (List.mem_cons_of_mem c hc'),
        (hvalue c (hcs c List.mem_cons_self)).1, Nat.mul_comm]
  have hguard : Nat.toDigits 10 n ≠ [] ∧ (Nat.toDigits 10 n).all (fun c => digitValue c < 10) := by
    refine ⟨Nat.toDigits_ne_nil, List.all_eq_true.mpr fun c hc => ?_⟩
    exact decide_eq_true (hvalue c (hdigit c hc)).2
  rw [digits, if_pos hguard, hfold _ 0 hdigit, Nat.ofDigitChars_ten_toDigits]

/-- `cs` up to the first character that meets `p`, and what follows that character. -/
def splitAt (p : Char → Bool) (cs : List Char) : List Char × Option (List Char) :=
  (cs.takeWhile (fun c => !p c), match cs.dropWhile (fun c => !p c) with
    | [] => none
    | _ :: rest => some rest)

def signed (cs : List Char) : Bool × List Char :=
  match cs with
  | '+' :: rest => (false, rest)
  | '-' :: rest => (true, rest)
  | _ => (false, cs)

/-- `digits [. digits] [e [sign] digits]` or `. digits …`, as its exact value. -/
def decimalLiteral (cs : List Char) : Option ℚ := do
  let (mantissa, exponent) := splitAt (fun c => c == 'e' || c == 'E') cs
  let (int, frac) := splitAt (· == '.') mantissa
  let coefficient ← digits 10 (int ++ frac.getD [])
  let power : Int ← match exponent with
    | none => some 0
    | some ex =>
      let (neg, ds) := signed ex
      (digits 10 ds).map fun n => if neg then -(n : Int) else n
  let scale := power - ((frac.getD []).length : Int)
  some (if 0 ≤ scale then (coefficient * 10 ^ scale.toNat : Nat)
    else mkRat coefficient (10 ^ (-scale).toNat))

/-- `StringToNumber`, up to rounding. -/
def parse (s : String) : Numeral :=
  let cs := trimChars s.toList
  let radix (r : Nat) (ds : List Char) : Numeral :=
    match digits r ds with
    | some n => .exact n
    | none => .nan
  match cs with
  | [] => .exact 0
  | '0' :: 'x' :: ds | '0' :: 'X' :: ds => radix 16 ds
  | '0' :: 'o' :: ds | '0' :: 'O' :: ds => radix 8 ds
  | '0' :: 'b' :: ds | '0' :: 'B' :: ds => radix 2 ds
  | _ =>
    let (neg, body) := signed cs
    if body = "Infinity".toList then .infinity neg
    else match decimalLiteral body with
      | some q => .exact (if neg then -q else q)
      | none => .nan

/-- `Number(s)` for a string. -/
def ofString (s : String) : Number :=
  match parse s with
  | .nan => .nan
  | .infinity neg => .infinity neg
  | .exact q => ofRat q

/-- `===` on numbers: `NaN` is equal to nothing. -/
def strictEq (a b : Number) : Bool :=
  a != .nan && a == b

/-- A decimal that is read twice compares equal to itself. -/
theorem strictEq_ofRat_self (q : ℚ) : strictEq (ofRat q) (ofRat q) = true := by
  have hnumber := ofRat_ne_nan q
  simp [strictEq, hnumber]

end JsNumber
