import Mathlib.Algebra.Order.Field.Power
import Mathlib.Tactic.FieldSimp
import Mathlib.Tactic.Linarith
import Mathlib.Tactic.NormNum
import Mathlib.Tactic.Positivity
import Mathlib.Tactic.Ring
import TrustLink.Numeric.Arithmetic

/-!
# Numeric — rounding keeps what is representable

`ofRat` finds the binade of a fraction and rounds the mantissa once. `floorLog2_spec` says which
binade that is. A number in the normal form of binary64 (`Number.IsDouble`) is in its own binade and
its mantissa is not rounded, so it is what its exact value is rounded to (`ofRat_toRat`); and what is
rounded to, unless it is infinite, is in normal form (`isDouble_ofRat`).
-/

namespace JsNumber

/-- A finite binary64 number: normal with a mantissa of 53 bits, or with the smallest exponent. -/
def Number.IsDouble : Number → Prop
  | .finite neg m e =>
    m < 2 ^ 53 ∧ -1074 ≤ e ∧ e ≤ 971 ∧ (2 ^ 52 ≤ m ∨ e = -1074) ∧ (m = 0 → neg = false)
  | _ => False

theorem isDouble_zero : (Number.finite false 0 (-1074)).IsDouble :=
  ⟨by norm_num, le_refl _, by norm_num, .inr rfl, fun _ => rfl⟩

theorem Number.IsDouble.positive {neg : Bool} {m : Nat} {e : Int}
    (h : (Number.finite neg m e).IsDouble) : (Number.finite false m e).IsDouble :=
  ⟨h.1, h.2.1, h.2.2.1, h.2.2.2.1, fun _ => rfl⟩

/-! ## The binade -/

/-- The test of `floorLog2`, without fractions. -/
theorem zpow_le_div_iff {n d : Nat} (hd : d ≠ 0) (l : Int) :
    (if 0 ≤ l then d * 2 ^ l.toNat ≤ n else d ≤ n * 2 ^ (-l).toNat) ↔ (2 : ℚ) ^ l ≤ n / d := by
  have hd : (0 : ℚ) < d := by exact_mod_cast Nat.pos_of_ne_zero hd
  rw [le_div_iff₀ hd]
  split
  · next hl =>
    obtain ⟨k, rfl⟩ := Int.eq_ofNat_of_zero_le hl
    rw [Int.toNat_natCast, zpow_natCast, mul_comm d]
    exact_mod_cast Iff.rfl
  · next hl =>
    obtain ⟨k, hk⟩ : ∃ k : Nat, -l = k := ⟨(-l).toNat, by omega⟩
    have hl : l = -(k : Int) := by omega
    have hpow : (0 : ℚ) < 2 ^ k := by positivity
    rw [hk, Int.toNat_natCast, hl, zpow_neg, zpow_natCast, inv_mul_le_iff₀ hpow, mul_comm n]
    exact_mod_cast Iff.rfl

theorem floorLog2_spec {n d : Nat} (hn : n ≠ 0) (hd : d ≠ 0) :
    (2 : ℚ) ^ floorLog2 n d ≤ n / d ∧ (n / d : ℚ) < 2 ^ (floorLog2 n d + 1) := by
  have hnlow : (2 : ℚ) ^ (Nat.log2 n : Int) ≤ n := by
    rw [zpow_natCast]
    exact_mod_cast Nat.log2_self_le hn
  have hnhigh : (n : ℚ) < 2 ^ ((Nat.log2 n : Int) + 1) := by
    rw [show (Nat.log2 n : Int) + 1 = ((Nat.log2 n + 1 : Nat) : Int) by omega, zpow_natCast]
    exact_mod_cast Nat.lt_log2_self
  have hdlow : (2 : ℚ) ^ (Nat.log2 d : Int) ≤ d := by
    rw [zpow_natCast]
    exact_mod_cast Nat.log2_self_le hd
  have hdhigh : (d : ℚ) < 2 ^ ((Nat.log2 d : Int) + 1) := by
    rw [show (Nat.log2 d : Int) + 1 = ((Nat.log2 d + 1 : Nat) : Int) by omega, zpow_natCast]
    exact_mod_cast Nat.lt_log2_self
  have hdpos : (0 : ℚ) < d := by exact_mod_cast Nat.pos_of_ne_zero hd
  unfold floorLog2
  dsimp only
  generalize (Nat.log2 n : Int) = a at *
  generalize (Nat.log2 d : Int) = b at *
  by_cases htest : (2 : ℚ) ^ (a - b) ≤ n / d
  · -- the quotient of the two powers is the binade
    rw [if_pos ((zpow_le_div_iff hd _).mpr htest)]
    refine ⟨htest, ?_⟩
    rw [div_lt_iff₀ hdpos]
    calc (n : ℚ) < 2 ^ (a + 1) := hnhigh
      _ = 2 ^ (a - b + 1) * 2 ^ b := by
        rw [← zpow_add₀ (by norm_num)]
        congr 1
        omega
      _ ≤ 2 ^ (a - b + 1) * d := by gcongr
  · -- the quotient is one binade too high
    rw [if_neg (mt (zpow_le_div_iff hd _).mp htest), show a - b - 1 + 1 = a - b by omega]
    refine ⟨?_, not_le.mp htest⟩
    rw [le_div_iff₀ hdpos]
    calc (2 : ℚ) ^ (a - b - 1) * d ≤ 2 ^ (a - b - 1) * 2 ^ (b + 1) := by gcongr
      _ = 2 ^ a := by
        rw [← zpow_add₀ (by norm_num)]
        congr 1
        omega
      _ ≤ n := hnlow

theorem floorLog2_eq {n d : Nat} (hn : n ≠ 0) (hd : d ≠ 0) {l : Int} (hlow : (2 : ℚ) ^ l ≤ n / d)
    (hhigh : (n / d : ℚ) < 2 ^ (l + 1)) : floorLog2 n d = l := by
  have hspec := floorLog2_spec hn hd
  have h₁ : floorLog2 n d < l + 1 :=
    (zpow_lt_zpow_iff_right₀ (by norm_num)).mp (lt_of_le_of_lt hspec.1 hhigh)
  have h₂ : l < floorLog2 n d + 1 :=
    (zpow_lt_zpow_iff_right₀ (by norm_num)).mp (lt_of_le_of_lt hlow hspec.2)
  omega

/-! ## The mantissa -/

theorem roundHalfEven_mul {m d : Nat} (hd : d ≠ 0) : roundHalfEven (m * d) d = m := by
  unfold roundHalfEven
  simp only [Nat.mul_mod_left, Nat.mul_div_cancel m (Nat.pos_of_ne_zero hd)]
  exact if_pos (by omega)

theorem le_roundHalfEven {n d k : Nat} (hd : d ≠ 0) (h : k * d ≤ n) : k ≤ roundHalfEven n d := by
  have hq : k ≤ n / d := (Nat.le_div_iff_mul_le (Nat.pos_of_ne_zero hd)).mpr h
  unfold roundHalfEven
  dsimp only
  split
  · exact hq
  · split <;> omega

theorem roundHalfEven_le {n d k : Nat} (hd : d ≠ 0) (h : n < k * d) : roundHalfEven n d ≤ k := by
  have hq : n / d < k := (Nat.div_lt_iff_lt_mul (Nat.pos_of_ne_zero hd)).mpr h
  unfold roundHalfEven
  dsimp only
  split
  · omega
  · split <;> omega

/-- Rounding goes up by at most a half. -/
theorem roundHalfEven_mul_le {n d : Nat} (hd : d ≠ 0) :
    2 * (roundHalfEven n d * d) ≤ 2 * n + d := by
  have hn : n / d * d + n % d = n := Nat.div_add_mod' n d
  have hr : n % d < d := Nat.mod_lt n (Nat.pos_of_ne_zero hd)
  have hup : (n / d + 1) * d = n / d * d + d := Nat.succ_mul _ _
  unfold roundHalfEven
  dsimp only
  split
  · omega
  · split
    · omega
    · rcases Nat.mod_two_eq_zero_or_one (n / d) with hodd | hodd
      · rw [hodd, Nat.add_zero]
        omega
      · rw [hodd]
        omega

/-- The mantissa is the fraction over the power of two, rounded. -/
theorem exists_scaled {n d : Nat} (hd : d ≠ 0) (e : Int) : ∃ a b : Nat, b ≠ 0 ∧
    (if 0 ≤ e then roundHalfEven n (d * 2 ^ e.toNat) else roundHalfEven (n * 2 ^ (-e).toNat) d)
      = roundHalfEven a b ∧ (n / d : ℚ) = a / b * 2 ^ e := by
  have hd' : (d : ℚ) ≠ 0 := by exact_mod_cast hd
  split
  · next he =>
    obtain ⟨k, rfl⟩ := Int.eq_ofNat_of_zero_le he
    refine ⟨n, d * 2 ^ k, by positivity, rfl, ?_⟩
    push_cast
    rw [zpow_natCast]
    field_simp
  · next he =>
    obtain ⟨k, rfl⟩ : ∃ k : Nat, e = -(k : Int) := ⟨(-e).toNat, by omega⟩
    refine ⟨n * 2 ^ k, d, hd, by simp, ?_⟩
    push_cast
    rw [zpow_neg, zpow_natCast]
    field_simp

/-! ## Exact values -/

/-- A value in normal form has its own exponent. -/
theorem exponent_eq {n d m : Nat} {e : Int} (hn : n ≠ 0) (hd : d ≠ 0)
    (hvalue : (n / d : ℚ) = m * 2 ^ e) (hm : m < 2 ^ 53) (he : -1074 ≤ e)
    (hnormal : 2 ^ 52 ≤ m ∨ e = -1074) : max (floorLog2 n d - 52) (-1074) = e := by
  have hpow : (0 : ℚ) < 2 ^ e := by positivity
  have hsplit : ∀ k : Nat, (2 : ℚ) ^ (e + k) = 2 ^ k * 2 ^ e := by
    intro k
    rw [zpow_add₀ (by norm_num), zpow_natCast, mul_comm]
  rcases Nat.lt_or_ge m (2 ^ 52) with hsub | hge
  · have he : e = -1074 := by omega
    have hlt : (2 : ℚ) ^ floorLog2 n d < 2 ^ (e + (52 : Nat)) := by
      apply lt_of_le_of_lt (floorLog2_spec hn hd).1
      rw [hvalue, hsplit]
      gcongr
      exact_mod_cast hsub
    have hlog := (zpow_lt_zpow_iff_right₀ (by norm_num : (1 : ℚ) < 2)).mp hlt
    omega
  · have hlog : floorLog2 n d = e + (52 : Nat) := by
      apply floorLog2_eq hn hd
      · rw [hvalue, hsplit]
        gcongr
        exact_mod_cast hge
      · rw [hvalue, show e + ((52 : Nat) : Int) + 1 = e + (53 : Nat) by omega, hsplit]
        gcongr
        exact_mod_cast hm
    omega

theorem roundFraction_eq {neg : Bool} {n d m : Nat} {e : Int} (hn : n ≠ 0) (hd : d ≠ 0)
    (hvalue : (n / d : ℚ) = m * 2 ^ e) (hdouble : (Number.finite neg m e).IsDouble) :
    roundFraction neg n d = .finite neg m e := by
  obtain ⟨hm, hlow, hhigh, hnormal, -⟩ := hdouble
  have hpow : (2 : ℚ) ^ e ≠ 0 := by positivity
  have hn' : (n : ℚ) ≠ 0 := by exact_mod_cast hn
  have hd' : (d : ℚ) ≠ 0 := by exact_mod_cast hd
  have hm0 : m ≠ 0 := by
    rintro rfl
    rw [Nat.cast_zero, zero_mul, div_eq_zero_iff] at hvalue
    exact hvalue.elim hn' hd'
  obtain ⟨a, b, hb, hround, hscaled⟩ := exists_scaled (n := n) hd e
  have hb' : (b : ℚ) ≠ 0 := by exact_mod_cast hb
  have hab : a = m * b := by
    rw [hvalue, mul_left_inj' hpow, eq_div_iff hb'] at hscaled
    exact_mod_cast hscaled.symm
  have hcarry : m ≠ 2 ^ 53 := by omega
  unfold roundFraction
  rw [if_neg hn]
  dsimp only
  rw [exponent_eq hn hd hvalue hm hlow hnormal, hround, hab, roundHalfEven_mul hb, if_neg hcarry]
  dsimp only
  rw [if_neg (by omega), if_neg hm0]

/-- The sign of a fraction is the sign of a non-zero number it is rounded to. -/
theorem roundFraction_sign {neg neg' : Bool} {n d m : Nat} {e : Int} (hm : m ≠ 0)
    (h : roundFraction neg n d = .finite neg' m e) :
    n ≠ 0 ∧ neg' = neg ∧ ∀ neg, roundFraction neg n d = .finite neg m e := by
  -- whatever mantissa and exponent the rounding has come to
  have hpacked : ∀ p : Nat × Int, (if 971 < p.2 then Number.infinity neg
      else if p.1 = 0 then .finite false 0 (-1074) else .finite neg p.1 p.2) = .finite neg' m e →
      neg' = neg ∧ ∀ neg, (if 971 < p.2 then Number.infinity neg
      else if p.1 = 0 then .finite false 0 (-1074) else .finite neg p.1 p.2) = .finite neg m e := by
    intro p h
    split at h
    · cases h
    · next hfinite =>
      split at h
      · cases h
        exact absurd rfl hm
      · next hnonzero =>
        cases h
        refine ⟨rfl, fun neg => ?_⟩
        rw [if_neg hfinite, if_neg hnonzero]
  unfold roundFraction at h ⊢
  by_cases hn : n = 0
  · rw [if_pos hn] at h
    cases h
    exact absurd rfl hm
  · simp only [if_neg hn] at h ⊢
    exact ⟨hn, hpacked _ h⟩

theorem ofRat_neg {q : ℚ} {m : Nat} {e : Int} (hm : m ≠ 0) (h : ofRat q = .finite false m e) :
    ofRat (-q) = .finite true m e := by
  obtain ⟨hnum, hsign, hround⟩ := roundFraction_sign hm h
  have hneg : decide ((-q).num < 0) = true := by
    rw [decide_eq_true_eq, Rat.num_neg_eq_neg_num]
    have hpos := of_decide_eq_false hsign.symm
    omega
  rw [ofRat, hneg, Rat.num_neg_eq_neg_num, Int.natAbs_neg, Rat.den_neg_eq_den]
  exact hround true

theorem natAbs_num_div_den (q : ℚ) : (q.num.natAbs / q.den : ℚ) = |q| := by
  have hden : |(q.den : ℚ)| = q.den := Nat.abs_cast q.den
  rw [Nat.cast_natAbs, Int.cast_abs, ← hden, ← abs_div, Rat.num_div_den]

/-- A positive rational as the fraction that is rounded. -/
theorem fraction_of_pos {q : ℚ} (hq : 0 < q) :
    ofRat q = roundFraction false q.num.natAbs q.den ∧ q.num.natAbs ≠ 0 ∧
      (q.num.natAbs / q.den : ℚ) = q := by
  have hsign : decide (q.num < 0) = false :=
    decide_eq_false (not_lt_of_ge (Rat.num_nonneg.mpr hq.le))
  refine ⟨by rw [ofRat, hsign], ?_, ?_⟩
  · rw [Int.natAbs_ne_zero, Ne, Rat.num_eq_zero]
    exact hq.ne'
  · rw [natAbs_num_div_den, abs_of_pos hq]

theorem toRat_finite (neg : Bool) (m : Nat) (e : Int) :
    (Number.finite neg m e).toRat = some (if neg then -((m : ℚ) * 2 ^ e) else (m : ℚ) * 2 ^ e) := by
  have hvalue : (if 0 ≤ e then ((m * 2 ^ e.toNat : Nat) : ℚ) else mkRat m (2 ^ (-e).toNat))
      = m * 2 ^ e := by
    split
    · next he =>
      obtain ⟨k, rfl⟩ := Int.eq_ofNat_of_zero_le he
      simp
    · next he =>
      obtain ⟨k, rfl⟩ : ∃ k : Nat, e = -(k : Int) := ⟨(-e).toNat, by omega⟩
      rw [Rat.mkRat_eq_div]
      simp [div_eq_mul_inv]
  unfold Number.toRat
  dsimp only
  rw [hvalue]

/-- A number is what its exact value is rounded to. -/
theorem ofRat_toRat {x : Number} (hx : x.IsDouble) : x.toRat.map ofRat = some x := by
  cases x with
  | nan => exact hx.elim
  | infinity neg => exact hx.elim
  | finite neg m e =>
    rw [toRat_finite, Option.map_some, Option.some.injEq]
    rcases Nat.eq_zero_or_pos m with rfl | hm
    · have he : e = -1074 := hx.2.2.2.1.resolve_left (by omega)
      have hneg : neg = false := hx.2.2.2.2 rfl
      subst he hneg
      simp [ofRat, roundFraction]
    · have hpos : (0 : ℚ) < m * 2 ^ e := by positivity
      generalize hq : (if neg then -((m : ℚ) * 2 ^ e) else (m : ℚ) * 2 ^ e) = q
      have habs : |q| = m * 2 ^ e := by
        rw [← hq]
        split
        · rw [abs_neg, abs_of_pos hpos]
        · rw [abs_of_pos hpos]
      have hsign : decide (q.num < 0) = neg := by
        rw [← hq]
        cases neg with
        | false => simpa using hpos.le
        | true => simpa using hpos
      have hnum : q.num.natAbs ≠ 0 := by
        intro h
        rw [Int.natAbs_eq_zero, Rat.num_eq_zero] at h
        rw [h, abs_zero] at habs
        exact hpos.ne habs
      unfold ofRat
      rw [hsign]
      apply roundFraction_eq hnum q.den_ne_zero _ hx
      rw [natAbs_num_div_den, habs]

/-! ## What is rounded to

The mantissa is rounded in its binade; a carry goes to the next one, or overflows. -/

theorem two_zpow_add (e : Int) (k : Nat) : (2 : ℚ) ^ (e + k) = 2 ^ k * 2 ^ e := by
  rw [zpow_add₀ (by norm_num), zpow_natCast, mul_comm]

/-- The mantissa before the carry, for a fraction `q` in the binade of `2^l`. -/
structure Rounded (q : ℚ) (l e : Int) (m : Nat) : Prop where
  exponent : e = max (l - 52) (-1074)
  low : (2 : ℚ) ^ l ≤ q
  high : m ≤ 2 ^ 53
  /-- All 53 bits are used, unless the number is subnormal. -/
  normal : -1074 ≤ l - 52 → 2 ^ 52 ≤ m
  half : ((2 : ℚ) * m - 1) * 2 ^ e ≤ 2 * q

/-- What `roundFraction` computes before it looks at the carry. -/
theorem exists_rounded {n d : Nat} (hn : n ≠ 0) (hd : d ≠ 0) {e : Int}
    (he : max (floorLog2 n d - 52) (-1074) = e) :
    ∃ m, (if 0 ≤ e then roundHalfEven n (d * 2 ^ e.toNat)
      else roundHalfEven (n * 2 ^ (-e).toNat) d) = m ∧ Rounded (n / d) (floorLog2 n d) e m := by
  have hspec := floorLog2_spec hn hd
  obtain ⟨a, b, hb, hround, hscaled⟩ := exists_scaled (n := n) hd e
  have hbpos : (0 : ℚ) < b := by exact_mod_cast Nat.pos_of_ne_zero hb
  have hpow : (0 : ℚ) < 2 ^ e := by positivity
  refine ⟨roundHalfEven a b, hround, he.symm, hspec.1, ?_, ?_, ?_⟩
  · apply roundHalfEven_le hb
    have hlt : (a / b * 2 ^ e : ℚ) < 2 ^ 53 * 2 ^ e := by
      rw [← hscaled, ← two_zpow_add]
      exact lt_of_lt_of_le hspec.2 (zpow_le_zpow_right₀ (by norm_num) (by omega))
    rw [mul_lt_mul_iff_left₀ hpow, div_lt_iff₀ hbpos] at hlt
    exact_mod_cast hlt
  · intro hl
    apply le_roundHalfEven hb
    have hle : (2 : ℚ) ^ 52 * 2 ^ e ≤ a / b * 2 ^ e := by
      rw [← hscaled, ← two_zpow_add]
      exact le_trans (zpow_le_zpow_right₀ (by norm_num) (by omega)) hspec.1
    rw [mul_le_mul_iff_left₀ hpow, le_div_iff₀ hbpos] at hle
    exact_mod_cast hle
  · have hle : (2 : ℚ) * (roundHalfEven a b * b) ≤ 2 * a + b := by
      exact_mod_cast roundHalfEven_mul_le (n := a) hb
    have hhalf : (2 : ℚ) * roundHalfEven a b - 1 ≤ 2 * (a / b) := by
      rw [← mul_div_assoc, le_div_iff₀ hbpos]
      linarith
    rw [hscaled, ← mul_assoc]
    exact mul_le_mul_of_nonneg_right hhalf hpow.le

namespace Rounded

variable {q : ℚ} {l e : Int} {m : Nat}

/-- The carry goes beyond the largest exponent. -/
theorem overflow_carry (h : Rounded q l e m) (hcarry : m = 2 ^ 53) (hlarge : 971 < e + 1) :
    ((2 ^ 54 - 1) * 2 ^ (970 : Int) : ℚ) ≤ q := by
  have hstep : (2 : ℚ) ^ (970 : Int) * 2 ≤ 2 ^ e := by
    rw [← zpow_add_one₀ (by norm_num)]
    exact zpow_le_zpow_right₀ (by norm_num) (by omega)
  have hhalf := h.half
  rw [hcarry] at hhalf
  push_cast at hhalf
  have hmul : ((2 : ℚ) ^ 54 - 1) * (2 ^ (970 : Int) * 2) ≤ (2 ^ 54 - 1) * 2 ^ e :=
    mul_le_mul_of_nonneg_left hstep (by norm_num)
  linarith

/-- The binade itself is beyond the largest exponent. -/
theorem overflow (h : Rounded q l e m) (hlarge : 971 < e) :
    ((2 ^ 54 - 1) * 2 ^ (970 : Int) : ℚ) ≤ q := by
  have hexponent := h.exponent
  calc ((2 : ℚ) ^ 54 - 1) * 2 ^ (970 : Int) ≤ 2 ^ 54 * 2 ^ (970 : Int) := by gcongr; norm_num
    _ = 2 ^ (970 + (54 : Nat) : Int) := (two_zpow_add 970 54).symm
    _ ≤ 2 ^ l := zpow_le_zpow_right₀ (by norm_num) (by omega)
    _ ≤ q := h.low

/-- In a normal binade, the mantissa starts at the bottom of the binade. -/
theorem binade (h : Rounded q l e m) (hl : -1022 ≤ l) : (2 : ℚ) ^ l = 2 ^ 52 * 2 ^ e := by
  have hexponent := h.exponent
  have hle : l = e + (52 : Nat) := by omega
  rw [hle, two_zpow_add]

theorem isDouble (h : Rounded q l e m) (hcarry : m ≠ 2 ^ 53) (hlarge : ¬971 < e) (hzero : m ≠ 0)
    (neg : Bool) : (Number.finite neg m e).IsDouble := by
  have hexponent := h.exponent
  have hhigh := h.high
  refine ⟨by omega, by omega, by omega, ?_, fun hm => absurd hm hzero⟩
  rcases le_or_gt (-1074) (l - 52) with hl | hl
  · exact .inl (h.normal hl)
  · right
    omega

end Rounded

/-- A positive fraction is rounded to infinity, if it is at least half a step above the largest
number, or to a number in normal form, which is not in a lower binade. -/
theorem roundFraction_cases {n d : Nat} (hn : n ≠ 0) (hd : d ≠ 0) (neg : Bool) :
    (roundFraction neg n d = .infinity neg ∧ ((2 ^ 54 - 1) * 2 ^ (970 : Int) : ℚ) ≤ n / d) ∨
    ∃ s m e, roundFraction neg n d = .finite s m e ∧ (Number.finite s m e).IsDouble ∧
      (-1022 ≤ floorLog2 n d → (2 : ℚ) ^ floorLog2 n d ≤ m * 2 ^ e) := by
  unfold roundFraction
  rw [if_neg hn]
  dsimp only
  generalize he : max (floorLog2 n d - 52) (-1074) = e
  obtain ⟨m, hm, h⟩ := exists_rounded hn hd he
  rw [hm]
  by_cases hcarry : m = 2 ^ 53
  · rw [if_pos hcarry]
    dsimp only
    by_cases hlarge : 971 < e + 1
    · left
      rw [if_pos hlarge]
      exact ⟨rfl, h.overflow_carry hcarry hlarge⟩
    · right
      rw [if_neg hlarge, if_neg (by norm_num)]
      refine ⟨neg, 2 ^ 52, e + 1, rfl, ?_, ?_⟩
      · exact ⟨by norm_num, by omega, by omega, .inl (le_refl _), by norm_num⟩
      · intro hl
        rw [h.binade hl]
        push_cast
        exact mul_le_mul_of_nonneg_left (zpow_le_zpow_right₀ (by norm_num) (by omega))
          (by positivity)
  · rw [if_neg hcarry]
    dsimp only
    by_cases hlarge : 971 < e
    · left
      rw [if_pos hlarge]
      exact ⟨rfl, h.overflow hlarge⟩
    · right
      rw [if_neg hlarge]
      by_cases hzero : m = 0
      · rw [if_pos hzero]
        refine ⟨false, 0, -1074, rfl, isDouble_zero, ?_⟩
        -- a mantissa of zero is subnormal
        intro hl
        have hnormal := h.normal (by omega)
        omega
      · rw [if_neg hzero]
        refine ⟨neg, m, e, rfl, h.isDouble hcarry hlarge hzero neg, ?_⟩
        intro hl
        rw [h.binade hl]
        gcongr
        exact_mod_cast h.normal (by omega)

/-- A rational that is not too large is rounded to a number in normal form. -/
theorem isDouble_ofRat {q : ℚ} (hq : |q| < (2 ^ 54 - 1) * 2 ^ (970 : Int)) :
    (ofRat q).IsDouble := by
  unfold ofRat
  by_cases hn : q.num.natAbs = 0
  · rw [hn, roundFraction, if_pos rfl]
    exact isDouble_zero
  · rcases roundFraction_cases hn q.den_ne_zero (decide (q.num < 0)) with
      ⟨-, hlarge⟩ | ⟨s, m, e, heq, hdouble, -⟩
    · rw [natAbs_num_div_den] at hlarge
      exact absurd hq (not_lt_of_ge hlarge)
    · rw [heq]
      exact hdouble

/-! ## Integers -/

/-- An integer of at most 53 bits is not rounded. -/
theorem toRat_ofRat_int {n : Int} (hn : n.natAbs < 2 ^ 53) : (ofRat n).toRat = some (n : ℚ) := by
  rcases eq_or_ne n 0 with rfl | hne
  · have hzero : ofRat ((0 : Int) : ℚ) = .finite false 0 (-1074) := by simp [ofRat, roundFraction]
    rw [hzero, toRat_finite]
    simp
  · have habs : n.natAbs ≠ 0 := Int.natAbs_ne_zero.mpr hne
    -- the integer, moved up until it has 53 bits
    have hlog : n.natAbs.log2 < 53 := (Nat.log2_lt habs).mpr hn
    obtain ⟨k, hk⟩ : ∃ k, n.natAbs.log2 + k = 52 := ⟨52 - n.natAbs.log2, by omega⟩
    have hmlow : 2 ^ 52 ≤ n.natAbs * 2 ^ k := by
      rw [← hk, pow_add]
      exact Nat.mul_le_mul_right _ (Nat.log2_self_le habs)
    have hmhigh : n.natAbs * 2 ^ k < 2 ^ 53 := by
      rw [show 53 = n.natAbs.log2 + 1 + k by omega, pow_add]
      exact Nat.mul_lt_mul_of_pos_right Nat.lt_log2_self (by positivity)
    have hdouble : (Number.finite (decide (n < 0)) (n.natAbs * 2 ^ k) (-(k : Int))).IsDouble :=
      ⟨hmhigh, by omega, by omega, .inl hmlow, fun h => by omega⟩
    have hvalue : ((n.natAbs * 2 ^ k : Nat) : ℚ) * 2 ^ (-(k : Int)) = n.natAbs := by
      rw [zpow_neg, zpow_natCast]
      push_cast
      field_simp
    have hround : ofRat n = .finite (decide (n < 0)) (n.natAbs * 2 ^ k) (-(k : Int)) := by
      rw [ofRat, Rat.num_intCast, Rat.den_intCast]
      apply roundFraction_eq habs (by decide) _ hdouble
      rw [hvalue]
      simp
    rw [hround, toRat_finite, hvalue, Option.some.injEq]
    rcases lt_or_ge n 0 with hneg | hpos
    · rw [decide_eq_true hneg, if_pos rfl, Nat.cast_natAbs, abs_of_neg hneg]
      simp
    · rw [decide_eq_false (by omega), if_neg (by decide), Nat.cast_natAbs, abs_of_nonneg hpos]

/-- What is larger is not rounded below them. -/
theorem toRat_ofRat_large {q : ℚ} (hlow : 2 ^ (53 : Int) ≤ q)
    (hhigh : q < (2 ^ 54 - 1) * 2 ^ (970 : Int)) :
    ∃ v, (ofRat q).toRat = some v ∧ 2 ^ (53 : Int) ≤ v := by
  have hpos : 0 < q := lt_of_lt_of_le (by positivity) hlow
  obtain ⟨hround, hnum, hfraction⟩ := fraction_of_pos hpos
  have hlog : 53 ≤ floorLog2 q.num.natAbs q.den := by
    have hspec := (floorLog2_spec hnum q.den_ne_zero).2
    rw [hfraction] at hspec
    have := (zpow_lt_zpow_iff_right₀ (by norm_num : (1 : ℚ) < 2)).mp (lt_of_le_of_lt hlow hspec)
    omega
  rcases roundFraction_cases hnum q.den_ne_zero false with
    ⟨-, hlarge⟩ | ⟨s, m, e, heq, -, hbinade⟩
  · rw [hfraction] at hlarge
    exact absurd hhigh (not_lt_of_ge hlarge)
  · have hvalue : (2 : ℚ) ^ (53 : Int) ≤ m * 2 ^ e :=
      le_trans (zpow_le_zpow_right₀ (by norm_num) hlog) (hbinade (by omega))
    have hm : m ≠ 0 := by
      rintro rfl
      rw [Nat.cast_zero, zero_mul] at hvalue
      exact absurd hvalue (not_le_of_gt (by positivity))
    have hs : s = false := (roundFraction_sign hm heq).2.1
    refine ⟨m * 2 ^ e, ?_, hvalue⟩
    rw [hround, heq, toRat_finite, hs]
    rfl

theorem le_eq_decide {a b : Number} {p q : ℚ} (ha : a.toRat = some p) (hb : b.toRat = some q) :
    le a b = decide (p ≤ q) := by
  cases a with
  | nan => cases ha
  | infinity => cases ha
  | finite =>
    cases b with
    | nan => cases hb
    | infinity => cases hb
    | finite =>
      unfold le
      rw [ha, hb]
      rfl

/-- Rounding keeps the order with an integer of at most 53 bits. -/
theorem le_ofRat_iff {s n : Int} (hn : n.natAbs < 2 ^ 53) (hlow : -2 ^ 53 < s)
    (hhigh : (s : ℚ) < (2 ^ 54 - 1) * 2 ^ (970 : Int)) :
    le (ofRat s) (ofRat n) = true ↔ s ≤ n := by
  rcases lt_or_ge s (2 ^ 53) with hs | hs
  · rw [le_eq_decide (toRat_ofRat_int (by omega)) (toRat_ofRat_int hn), decide_eq_true_eq]
    exact_mod_cast Iff.rfl
  · have hs' : (2 : ℚ) ^ (53 : Int) ≤ s := by exact_mod_cast hs
    obtain ⟨v, hv, hlarge⟩ := toRat_ofRat_large hs' hhigh
    have hn' : (n : ℚ) < 2 ^ (53 : Int) := by
      have : n < 2 ^ 53 := by omega
      exact_mod_cast this
    rw [le_eq_decide hv (toRat_ofRat_int hn), decide_eq_true_eq]
    constructor
    · intro h
      exact absurd (lt_of_le_of_lt (le_trans hlarge h) hn') (lt_irrefl _)
    · intro h
      omega

/-- The largest finite number. -/
def MAX_VALUE : ℚ := (2 ^ 53 - 1) * 2 ^ (971 : Int)

/-- A rational that is not far above the largest number is still rounded to a finite one. -/
theorem lt_overflow {q : ℚ} (hq : q < MAX_VALUE + 2 ^ 53) :
    q < (2 ^ 54 - 1) * 2 ^ (970 : Int) := by
  have hdouble : (2 : ℚ) ^ (971 : Int) = 2 * 2 ^ (970 : Int) := by
    rw [show (971 : Int) = 1 + 970 from rfl, zpow_add₀ two_ne_zero, zpow_one]
  have hpow : (2 : ℚ) ^ (53 : Int) ≤ 2 ^ (970 : Int) :=
    zpow_le_zpow_right₀ one_le_two (by norm_num)
  have hpow' : (2 : ℚ) ^ 53 ≤ 2 ^ (970 : Int) := by exact_mod_cast hpow
  unfold MAX_VALUE at hq
  rw [hdouble] at hq
  generalize (2 : ℚ) ^ (970 : Int) = ulp at hq hpow' ⊢
  linarith only [hq, hpow']

end JsNumber
