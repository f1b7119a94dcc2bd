import Mathlib.Algebra.Order.Floor.Ring
import Mathlib.Data.Rat.Floor
import TrustLink.Numeric.Nearest
import TrustLink.Text.Numeral
import TrustLink.Data.Lists

/-!
# Text — the shortest digits

The search for the digits of a number looks at the two decimals of `k` digits on either side of it,
for one `k` after the other. Of seventeen digits the nearer decimal is always rounded to the number
(`seventeen_digits`), so the search never falls back on the exact digits. And a decimal with a
trailing zero is among those of one digit less, where it would have been found before
(`shortest_trimmed`). So what is written for a number is its numeral (`isNumeral_literal`).
-/

namespace Text

open JsNumber

theorem floorLog10_spec {n d : Nat} (hn : n ≠ 0) (hd : d ≠ 0) :
    (10 : ℚ) ^ floorLog10 n d ≤ n / d ∧ (n / d : ℚ) < 10 ^ (floorLog10 n d + 1) := by
  have hnpos : (0 : ℚ) < n := by exact_mod_cast Nat.pos_of_ne_zero hn
  have hdpos : (0 : ℚ) < d := by exact_mod_cast Nat.pos_of_ne_zero hd
  unfold floorLog10
  split
  · next hle =>
    have hq : n / d ≠ 0 := (Nat.div_pos hle (Nat.pos_of_ne_zero hd)).ne'
    have hlow : 10 ^ Nat.log 10 (n / d) * d ≤ n :=
      (Nat.le_div_iff_mul_le (Nat.pos_of_ne_zero hd)).mp (Nat.pow_log_le_self 10 hq)
    have hhigh : n < 10 ^ (Nat.log 10 (n / d) + 1) * d :=
      (Nat.div_lt_iff_lt_mul (Nat.pos_of_ne_zero hd)).mp (Nat.lt_pow_succ_log_self (by decide) _)
    rw [le_div_iff₀ hdpos, div_lt_iff₀ hdpos, zpow_natCast, ← Nat.cast_add_one, zpow_natCast]
    exact ⟨by exact_mod_cast hlow, by exact_mod_cast hhigh⟩
  · next hlt =>
    -- below one, the inverse is rounded up
    have hceil : 1 < (d + n - 1) / n := by
      rw [Nat.lt_div_iff_mul_lt (Nat.pos_of_ne_zero hn)]
      omega
    obtain ⟨j, hj⟩ : ∃ j, Nat.clog 10 ((d + n - 1) / n) = j + 1 :=
      Nat.exists_eq_succ_of_ne_zero (Nat.clog_pos (by decide) hceil).ne'
    have hlow : d ≤ 10 ^ (j + 1) * n := by
      have h := Nat.le_pow_clog (b := 10) (by decide) ((d + n - 1) / n)
      rw [hj, Nat.div_le_iff_le_mul_add_pred (Nat.pos_of_ne_zero hn)] at h
      rw [mul_comm]
      omega
    have hhigh : 10 ^ j * n < d := by
      have h := Nat.pow_pred_clog_lt_self (b := 10) (by decide) hceil
      rw [hj, Nat.pred_succ, Nat.lt_div_iff_mul_lt (Nat.pos_of_ne_zero hn)] at h
      omega
    have hlow' : (d : ℚ) ≤ 10 ^ (j + 1) * n := by exact_mod_cast hlow
    have hhigh' : (10 : ℚ) ^ j * n < d := by exact_mod_cast hhigh
    have hexponent : -(((j + 1 : Nat) : Int)) + 1 = -(j : Int) := by omega
    rw [hj, hexponent, zpow_neg, zpow_neg, zpow_natCast, zpow_natCast, le_div_iff₀ hdpos,
      div_lt_iff₀ hdpos, inv_mul_le_iff₀ (by positivity), lt_inv_mul_iff₀ (by positivity)]
    exact ⟨hlow', hhigh'⟩

/-! ## Candidates -/

/-- The exponent of the last of `k` digits. -/
def lastExponent (q : ℚ) (k : Nat) : Int := floorLog10 q.num.natAbs q.den + 1 - k

/-- Digits that have become a power of ten are a one. -/
def carried (k : Nat) (p : Int) (s : Nat) : Nat × Int := if s = 10 ^ k then (1, p + k) else (s, p)

theorem decimalValue_carried (k : Nat) (p : Int) (s : Nat) :
    decimalValue (carried k p s).1 (carried k p s).2 = s * (10 : ℚ) ^ p := by
  rw [decimalValue_eq]
  unfold carried
  split
  · next hs =>
    rw [hs, zpow_add₀ (by norm_num), zpow_natCast]
    push_cast
    ring
  · rfl

/-- The decimals of `k` digits around `q` are `low` and `low + 1` steps of `10 ^ p`. -/
structure Around (q : ℚ) (k : Nat) (p : Int) (low : Nat) : Prop where
  above : low * (10 : ℚ) ^ p ≤ q
  below : q < (low + 1) * (10 : ℚ) ^ p
  digits : 10 ^ (k - 1) ≤ low
  room : low < 10 ^ k

theorem around_unique {q : ℚ} {p : Int} {low low' : Nat} (habove : low * (10 : ℚ) ^ p ≤ q)
    (hbelow : q < (low + 1) * (10 : ℚ) ^ p) (habove' : low' * (10 : ℚ) ^ p ≤ q)
    (hbelow' : q < (low' + 1) * (10 : ℚ) ^ p) : low = low' := by
  have hpow : (0 : ℚ) < 10 ^ p := by positivity
  have h₁ : low < low' + 1 := by
    exact_mod_cast (mul_lt_mul_iff_left₀ hpow).mp (lt_of_le_of_lt habove hbelow')
  have h₂ : low' < low + 1 := by
    exact_mod_cast (mul_lt_mul_iff_left₀ hpow).mp (lt_of_le_of_lt habove' hbelow)
  omega

/-- The number has `k` digits before the step. -/
theorem lastExponent_bounds {q : ℚ} (hq : 0 < q) {k : Nat} (hk : k ≠ 0) :
    (10 : ℚ) ^ (k - 1) * 10 ^ lastExponent q k ≤ q ∧ q < (10 : ℚ) ^ k * 10 ^ lastExponent q k := by
  obtain ⟨-, hnum, hfraction⟩ := fraction_of_pos hq
  have hlog := floorLog10_spec hnum q.den_ne_zero
  rw [hfraction] at hlog
  unfold lastExponent
  rw [← zpow_natCast, ← zpow_natCast, ← zpow_add₀ (by norm_num), ← zpow_add₀ (by norm_num)]
  have hbottom : ((k - 1 : Nat) : Int) + (floorLog10 q.num.natAbs q.den + 1 - k)
      = floorLog10 q.num.natAbs q.den := by omega
  have htop : (k : Int) + (floorLog10 q.num.natAbs q.den + 1 - k)
      = floorLog10 q.num.natAbs q.den + 1 := by omega
  rw [hbottom, htop]
  exact hlog

theorem scaled_eq (q : ℚ) (p : Int) :
    (if 0 ≤ p then q / ((10 ^ p.toNat : Nat) : ℚ) else q * ((10 ^ (-p).toNat : Nat) : ℚ))
      = q / 10 ^ p := by
  split
  · next hp =>
    obtain ⟨j, rfl⟩ := Int.eq_ofNat_of_zero_le hp
    simp
  · next hp =>
    obtain ⟨j, rfl⟩ : ∃ j : Nat, p = -(j : Int) := ⟨(-p).toNat, by omega⟩
    simp

theorem floor_toNat_bounds {x : ℚ} (hx : 0 ≤ x) : (x.floor.toNat : ℚ) ≤ x ∧ x < x.floor.toNat + 1 := by
  have hfloor : 0 ≤ x.floor := (Int.floor_nonneg (a := x)).mpr hx
  have hcast : ((x.floor.toNat : Nat) : ℚ) = x.floor := by
    exact_mod_cast Int.toNat_of_nonneg hfloor
  rw [hcast]
  exact ⟨Int.floor_le x, Int.lt_floor_add_one x⟩

/-- Both neighbours are candidates, and the nearer one comes first. -/
theorem candidates_spec {q : ℚ} (hq : 0 < q) {k : Nat} (hk : k ≠ 0) :
    ∃ low, Around q k (lastExponent q k) low ∧
      ((candidates q k
          = [carried k (lastExponent q k) low, carried k (lastExponent q k) (low + 1)] ∧
        q - low * (10 : ℚ) ^ lastExponent q k ≤ 10 ^ lastExponent q k / 2) ∨
      (candidates q k
          = [carried k (lastExponent q k) (low + 1), carried k (lastExponent q k) low] ∧
        (low + 1) * (10 : ℚ) ^ lastExponent q k - q ≤ 10 ^ lastExponent q k / 2)) := by
  obtain ⟨hlow, hhigh⟩ := lastExponent_bounds hq hk
  unfold candidates
  dsimp only
  rw [← lastExponent, scaled_eq]
  generalize lastExponent q k = p at hlow hhigh ⊢
  have hpow : (0 : ℚ) < 10 ^ p := by positivity
  -- the step `10 ^ p` is the unit from here on
  obtain ⟨x, rfl⟩ : ∃ x : ℚ, q = x * 10 ^ p := ⟨q / 10 ^ p, by field_simp⟩
  have hx : 0 < x := pos_of_mul_pos_left hq hpow.le
  obtain ⟨habove, hbelow⟩ := floor_toNat_bounds hx.le
  rw [mul_div_cancel_right₀ x hpow.ne']
  generalize x.floor.toNat = low at habove hbelow ⊢
  rw [mul_le_mul_iff_left₀ hpow] at hlow
  rw [mul_lt_mul_iff_left₀ hpow] at hhigh
  have hdigits : 10 ^ (k - 1) ≤ low := by
    have h : (10 : ℚ) ^ (k - 1) < low + 1 := lt_of_le_of_lt hlow hbelow
    have h' : 10 ^ (k - 1) < low + 1 := by exact_mod_cast h
    omega
  have hroom : low < 10 ^ k := by exact_mod_cast lt_of_le_of_lt habove hhigh
  refine ⟨low, ⟨?_, ?_, hdigits, hroom⟩, ?_⟩
  · exact mul_le_mul_of_nonneg_right habove hpow.le
  · exact mul_lt_mul_of_pos_right hbelow hpow
  · have hhalf : (10 : ℚ) ^ p / 2 = 1 / 2 * 10 ^ p := by ring
    rw [← sub_mul, ← sub_mul, hhalf, mul_le_mul_iff_left₀ hpow, mul_le_mul_iff_left₀ hpow]
    by_cases hnearer : x - low ≤ 1 / 2
    · rw [if_pos hnearer]
      exact .inl ⟨rfl, hnearer⟩
    · rw [if_neg hnearer]
      exact .inr ⟨rfl, by linarith⟩

/-! ## Seventeen digits -/

section shortest

variable {m : Nat} {e : Int}

/-- The nearer decimal of seventeen digits. -/
theorem seventeen_digits (hdouble : (Number.finite false m e).IsDouble) (hm : m ≠ 0) {q : ℚ}
    (hq : q = m * 2 ^ e) :
    ∃ c ∈ candidates q 17, ofRat (decimalValue c.1 c.2) = .finite false m e := by
  have hpos : 0 < q := by
    have hm' : (0 : ℚ) < m := by exact_mod_cast Nat.pos_of_ne_zero hm
    rw [hq]
    positivity
  obtain ⟨low, haround, hnearer⟩ := candidates_spec hpos (by decide : 17 ≠ 0)
  generalize lastExponent q 17 = p at haround hnearer
  have hpow : (0 : ℚ) < 10 ^ p := by positivity
  -- half a step is less than a part in `2 ^ 54`
  have hstep : (10 : ℚ) ^ p / 2 * 2 ^ 54 < q := by
    have hlow : (10 : ℚ) ^ 16 ≤ low := by exact_mod_cast haround.digits
    have hscaled : (10 : ℚ) ^ 16 * 10 ^ p ≤ low * 10 ^ p := mul_le_mul_of_nonneg_right hlow hpow.le
    have habove := haround.above
    linarith
  have hround : ∀ s : Nat, |s * (10 : ℚ) ^ p - q| ≤ 10 ^ p / 2 →
      ofRat (decimalValue (carried 17 p s).1 (carried 17 p s).2) = .finite false m e := by
    intro s hs
    rw [decimalValue_carried]
    apply ofRat_near hdouble hm
    rw [← hq]
    exact lt_of_le_of_lt (mul_le_mul_of_nonneg_right hs (by norm_num)) hstep
  have habove := haround.above
  have hbelow := haround.below
  rcases hnearer with ⟨hcandidates, hhalf⟩ | ⟨hcandidates, hhalf⟩
  · refine ⟨carried 17 p low, by simp [hcandidates], hround low ?_⟩
    rw [abs_le]
    constructor
    · linarith
    · linarith
  · refine ⟨carried 17 p (low + 1), by simp [hcandidates], hround (low + 1) ?_⟩
    rw [abs_le]
    push_cast
    constructor
    · linarith
    · linarith

theorem mem_candidates {q : ℚ} (hq : 0 < q) {k : Nat} (hk : k ≠ 0) :
    ∃ low, Around q k (lastExponent q k) low ∧ ∀ c, c ∈ candidates q k ↔
      c = carried k (lastExponent q k) low ∨ c = carried k (lastExponent q k) (low + 1) := by
  obtain ⟨low, haround, ⟨hcandidates, -⟩ | ⟨hcandidates, -⟩⟩ := candidates_spec hq hk
  · refine ⟨low, haround, fun c => ?_⟩
    rw [hcandidates, List.mem_pair]
  · refine ⟨low, haround, fun c => ?_⟩
    rw [hcandidates, List.mem_pair, or_comm]

/-- With one digit less, the last digit is cut off. -/
theorem Around.div_ten {q : ℚ} {k : Nat} {p : Int} {low low' : Nat} (h : Around q (k + 1) p low)
    (h' : Around q k (p + 1) low') : low' = low / 10 := by
  have hpow : (0 : ℚ) < 10 ^ p := by positivity
  have hstep : (10 : ℚ) ^ (p + 1) = 10 * 10 ^ p := by
    rw [zpow_add_one₀ (by norm_num), mul_comm]
  have hle : ((10 * (low / 10) : Nat) : ℚ) ≤ low := by exact_mod_cast Nat.mul_div_le low 10
  have hge : ((low + 1 : Nat) : ℚ) ≤ (10 * (low / 10 + 1) : Nat) := by
    have : low + 1 ≤ 10 * (low / 10 + 1) := by omega
    exact_mod_cast this
  push_cast at hle hge
  have habove := h.above
  have hbelow := h.below
  apply around_unique h'.above h'.below
  · rw [hstep]
    have hscaled := mul_le_mul_of_nonneg_right hle hpow.le
    linarith
  · rw [hstep]
    have hscaled := mul_le_mul_of_nonneg_right hge hpow.le
    linarith

/-- A candidate with a trailing zero is a candidate of one digit less. -/
theorem exists_shorter {q : ℚ} (hq : 0 < q) {k : Nat} {c : Nat × Int} (hc : c ∈ candidates q (k + 1))
    (hzero : c.1 % 10 = 0) :
    k ≠ 0 ∧ ∃ c' ∈ candidates q k, decimalValue c'.1 c'.2 = decimalValue c.1 c.2 := by
  obtain ⟨low, haround, hmem⟩ := mem_candidates hq (Nat.succ_ne_zero k)
  have hexponent : lastExponent q k = lastExponent q (k + 1) + 1 := by
    unfold lastExponent
    push_cast
    ring
  generalize lastExponent q (k + 1) = p at haround hmem hexponent
  obtain ⟨s, hs, rfl⟩ : ∃ s, (s = low ∨ s = low + 1) ∧ c = carried (k + 1) p s := by
    rcases (hmem c).mp hc with hc | hc
    · exact ⟨low, .inl rfl, hc⟩
    · exact ⟨low + 1, .inr rfl, hc⟩
  -- a one that was carried has no trailing zero
  have hsmall : s ≠ 10 ^ (k + 1) := by
    intro h
    rw [carried, if_pos h] at hzero
    omega
  have hten : s % 10 = 0 := by
    rw [carried, if_neg hsmall] at hzero
    exact hzero
  have hroom := haround.room
  have hdigits := haround.digits
  have hk : k ≠ 0 := by
    rintro rfl
    norm_num at hroom hdigits hsmall
    omega
  obtain ⟨low', haround', hmem'⟩ := mem_candidates hq hk
  rw [hexponent] at haround' hmem'
  -- the lower one of both comes from the lower one, the higher one from the higher one
  have hcut := haround.div_ten haround'
  obtain ⟨t, ht, rfl⟩ : ∃ t, (t = low' ∨ t = low' + 1) ∧ s = 10 * t := ⟨s / 10, by omega, by omega⟩
  refine ⟨hk, carried k (p + 1) t, ?_, ?_⟩
  · rcases ht with rfl | rfl
    · exact (hmem' _).mpr (.inl rfl)
    · exact (hmem' _).mpr (.inr rfl)
  · rw [decimalValue_carried, decimalValue_carried, zpow_add_one₀ (by norm_num)]
    push_cast
    ring

/-- The search ends at a candidate without a trailing zero. -/
theorem shortest_trimmed (hdouble : (Number.finite false m e).IsDouble) (hm : m ≠ 0) :
    (shortest m e).1 % 10 ≠ 0 := by
  have hvalue := toRat_finite false m e
  unfold Number.toRat at hvalue
  unfold shortest
  dsimp only at hvalue ⊢
  generalize (if 0 ≤ e then ((m * 2 ^ e.toNat : Nat) : ℚ) else mkRat m (2 ^ (-e).toNat)) = q at hvalue ⊢
  have hq : q = m * 2 ^ e := Option.some.inj hvalue
  have hpos : 0 < q := by
    have hm' : (0 : ℚ) < m := by exact_mod_cast Nat.pos_of_ne_zero hm
    rw [hq]
    positivity
  cases hfind : List.find? _ _ with
  | none =>
    obtain ⟨c, hc, hround⟩ := seventeen_digits hdouble hm hq
    have hnone := List.find?_eq_none.mp hfind c
      (List.mem_flatMap.mpr ⟨16, List.mem_range.mpr (by norm_num), hc⟩)
    exact absurd (decide_eq_true hround) hnone
  | some c =>
    rw [Option.getD_some]
    intro hzero
    rw [List.find?_flatMap, List.findSome?_eq_some_iff] at hfind
    obtain ⟨before, k, after, hrange, hfound, hbefore⟩ := hfind
    -- the same decimal with one digit less would have been found before
    obtain ⟨hk, c', hc', hsame⟩ := exists_shorter hpos (List.mem_of_find?_eq_some hfound) hzero
    obtain ⟨j, rfl⟩ := Nat.exists_eq_succ_of_ne_zero hk
    have hj := hbefore j (Lists.mem_of_range_eq hrange (Nat.lt_succ_self j))
    have hnone := List.find?_eq_none.mp hj c' hc'
    have hround := List.find?_some hfound
    rw [← hsame] at hround
    exact hnone hround

end shortest

/-- What is written for a number that is not negative is its numeral. -/
theorem isNumeral_literal {m : Nat} {e : Int} (hdouble : (Number.finite false m e).IsDouble) :
    IsNumeral (.finite false m e) (literal (.finite false m e)) := by
  by_cases hm : m = 0
  · subst hm
    have he : e = -1074 := hdouble.2.2.2.1.resolve_left (by norm_num)
    subst he
    exact ⟨0, 0, .inr ⟨rfl, rfl⟩, by decide, by decide⟩
  · refine ⟨_, _, .inl (shortest_trimmed hdouble hm), ofRat_shortest hdouble, ?_⟩
    rw [literal, if_neg hm]
    rfl

end Text
