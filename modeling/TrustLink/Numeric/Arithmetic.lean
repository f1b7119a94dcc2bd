import Mathlib.Data.Nat.Log
import TrustLink.Numeric.JsNumber

/-!
# Numeric — arithmetic

Sums, products and quotients of binary64 numbers are the exact result, rounded once. A decimal
library that works with a number of significant digits rounds its quotients to that many digits,
halves away from zero (`significant`).
-/

namespace JsNumber

/-- The exact value of a finite number. -/
def Number.toRat : Number → Option ℚ
  | .finite neg m e =>
    let q : ℚ := if 0 ≤ e then (m * 2 ^ e.toNat : Nat) else mkRat m (2 ^ (-e).toNat)
    some (if neg then -q else q)
  | _ => none

/-- `Number.isFinite(a)` -/
def Number.isFinite : Number → Bool
  | .finite .. => true
  | _ => false

/-- `Math.abs(a)` -/
def Number.abs : Number → Number
  | .nan => .nan
  | .infinity _ => .infinity false
  | .finite _ m e => .finite false m e

/-- `a > 0` -/
def Number.positive : Number → Bool
  | .nan => false
  | .infinity neg => !neg
  | .finite neg m _ => !neg && m != 0

/-- `a + b` -/
def add (a b : Number) : Number :=
  match a, b with
  | .nan, _ | _, .nan => .nan
  | .infinity s, .infinity t => if s = t then .infinity s else .nan
  | .infinity s, _ | _, .infinity s => .infinity s
  | .finite .., .finite .. => ofRat (a.toRat.getD 0 + b.toRat.getD 0)

/-- `a <= b` -/
def le (a b : Number) : Bool :=
  match a, b with
  | .nan, _ | _, .nan => false
  | .infinity true, _ | _, .infinity false => true
  | .infinity false, _ | _, .infinity true => false
  | .finite .., .finite .. => a.toRat.getD 0 ≤ b.toRat.getD 0

/-- `a * n` for a positive integer -/
def mulPos (a : Number) (n : Nat) : Number :=
  match a with
  | .finite .. => ofRat (a.toRat.getD 0 * n)
  | _ => a

/-- `a / n` for a positive integer -/
def divPos (a : Number) (n : Nat) : Number :=
  match a with
  | .finite .. => ofRat (a.toRat.getD 0 / n)
  | _ => a

/-- The largest `l` with `10^l ≤ n / d`, for positive `n` and `d`. -/
def floorLog10 (n d : Nat) : Int :=
  if d ≤ n then Nat.log 10 (n / d) else -(Nat.clog 10 ((d + n - 1) / n) : Int)

/-- `q` to `p` significant decimal digits, halves away from zero. -/
def significant (p : Nat) (q : ℚ) : ℚ :=
  if q = 0 then 0
  else
    let scale := (p : Int) - 1 - floorLog10 q.num.natAbs q.den
    let shifted : ℚ := |q| * 10 ^ scale
    let rounded : ℚ := (shifted + 1 / 2).floor / 10 ^ scale
    if q < 0 then -rounded else rounded

end JsNumber
