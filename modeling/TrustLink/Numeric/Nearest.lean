import TrustLink.Numeric.Double

/-!
# Numeric — rounding to the nearest number

Two facts about `ofRat` that need more than the binade. It keeps the order with the integers of at
most 53 bits (`le_toRat_ofRat`), and whatever is nearer to a number than a part in `2 ^ 54` of it is
rounded to that number (`ofRat_near`). The second is what makes seventeen decimal digits enough; the
bound is that of a power of two, below which the numbers lie twice as dense as above.
-/

namespace JsNumber

/-! ## Order -/

/-- The value of a finite result is that of the mantissa before the carry. -/
theorem roundFraction_value {neg s : Bool} {n d m : Nat} {e : Int} (hn : n ≠ 0) (hd : d ≠ 0)
    (h : roundFraction neg n d = .finite s m e) :
    ∃ e₀ m₀, Rounded (n / d) (floorLog2 n d) e₀ m₀ ∧ (m : ℚ) * 2 ^ e = m₀ * 2 ^ e₀ ∧
      ∀ k : Nat, (k : ℚ) * 2 ^ e₀ ≤ n / d → k ≤ m₀ := by
  unfold roundFraction at h
  rw [if_neg hn] at h
  dsimp only at h
  generalize he : max (floorLog2 n d - 52) (-1074) = e₀ at h
  obtain ⟨m₀, hm₀, hrounded⟩ := exists_rounded hn hd he
  -- a multiple of the step below the fraction is not passed
  have hmono : ∀ k : Nat, (k : ℚ) * 2 ^ e₀ ≤ n / d → k ≤ m₀ := by
    intro k hk
    obtain ⟨a, b, hb, hround, hscaled⟩ := exists_scaled (n := n) hd e₀
    have hbpos : (0 : ℚ) < b := by exact_mod_cast Nat.pos_of_ne_zero hb
    rw [hscaled, mul_le_mul_iff_left₀ (by positivity), le_div_iff₀ hbpos] at hk
    rw [← hm₀, hround]
    exact le_roundHalfEven hb (by exact_mod_cast hk)
  refine ⟨e₀, m₀, hrounded, ?_, hmono⟩
  rw [hm₀] at h
  by_cases hcarry : m₀ = 2 ^ 53
  · rw [if_pos hcarry] at h
    dsimp only at h
    split at h
    · cases h
    · rw [if_neg (by norm_num)] at h
      cases h
      rw [hcarry, zpow_add_one₀ two_ne_zero]
      push_cast
      ring
  · rw [if_neg hcarry] at h
    dsimp only at h
    split at h
    · cases h
    · split at h
      · next hzero =>
        cases h
        rw [hzero, Nat.cast_zero, zero_mul, zero_mul]
      · cases h
        rfl

/-- An integer of at most 53 bits is not above what a larger fraction is rounded to. -/
theorem Rounded.natCast_le {q : ℚ} {l e : Int} {m k : Nat} (h : Rounded q l e m)
    (hmono : ∀ j : Nat, (j : ℚ) * 2 ^ e ≤ q → j ≤ m) (hk : k < 2 ^ 53) (hq : (k : ℚ) ≤ q) :
    (k : ℚ) ≤ m * 2 ^ e := by
  have hexponent := h.exponent
  rcases le_or_gt e 0 with he | he
  · -- the integer is a multiple of the step
    obtain ⟨j, rfl⟩ : ∃ j : Nat, e = -(j : Int) := ⟨(-e).toNat, by omega⟩
    have hmultiple : (k : ℚ) = (k * 2 ^ j : Nat) * 2 ^ (-(j : Int)) := by
      rw [zpow_neg, zpow_natCast]
      push_cast
      field_simp
    have hle : k * 2 ^ j ≤ m := hmono _ (by rw [← hmultiple]; exact hq)
    rw [hmultiple]
    gcongr
  · -- the step is larger than one, and so is the mantissa than the integer
    have hnormal : 2 ^ 52 ≤ m := h.normal (by omega)
    calc (k : ℚ) ≤ 2 ^ 52 * 2 ^ (1 : Int) := by
          rw [zpow_one]
          exact_mod_cast hk.le
      _ ≤ m * 2 ^ e := by
          gcongr
          · exact_mod_cast hnormal
          · norm_num
          · omega

/-- Rounding does not take a number below an integer of at most 53 bits. -/
theorem le_toRat_ofRat {q v : ℚ} {k : Nat} (hzero : k ≠ 0) (hk : k < 2 ^ 53) (h : (k : ℚ) ≤ q)
    (hv : (ofRat q).toRat = some v) : (k : ℚ) ≤ v := by
  have hkpos : (0 : ℚ) < k := by exact_mod_cast Nat.pos_of_ne_zero hzero
  obtain ⟨hofRat, hnum, hfraction⟩ := fraction_of_pos (lt_of_lt_of_le hkpos h)
  rw [hofRat] at hv
  cases hround : roundFraction false q.num.natAbs q.den with
  | nan =>
    rw [hround] at hv
    cases hv
  | infinity neg =>
    rw [hround] at hv
    cases hv
  | finite s m e =>
    obtain ⟨e₀, m₀, hrounded, hvalue, hmono⟩ := roundFraction_value hnum q.den_ne_zero hround
    rw [hfraction] at hrounded hmono
    have hle : (k : ℚ) ≤ m * 2 ^ e := by
      rw [hvalue]
      exact hrounded.natCast_le hmono hk h
    have hm : m ≠ 0 := by
      rintro rfl
      rw [Nat.cast_zero, zero_mul] at hle
      exact absurd hle (not_le_of_gt hkpos)
    have hs : s = false := (roundFraction_sign hm hround).2.1
    rw [hround, toRat_finite, hs, Option.some.injEq] at hv
    rw [← hv]
    exact hle

/-! ## Neighbourhoods -/

theorem roundHalfEven_near {a b m : Nat} (hb : b ≠ 0) (hlow : 2 * (m * b) < 2 * a + b)
    (hhigh : 2 * a < 2 * (m * b) + b) : roundHalfEven a b = m := by
  have ha : a / b * b + a % b = a := Nat.div_add_mod' a b
  have hr : a % b < b := Nat.mod_lt a (Nat.pos_of_ne_zero hb)
  have hlower : a / b ≤ m := by
    by_contra hlt
    have hle : (m + 1) * b ≤ a / b * b := Nat.mul_le_mul_right b (by omega)
    rw [Nat.succ_mul] at hle
    omega
  have hupper : m ≤ a / b + 1 := by
    by_contra hlt
    have hle : (a / b + 2) * b ≤ m * b := Nat.mul_le_mul_right b (by omega)
    rw [Nat.add_mul] at hle
    omega
  unfold roundHalfEven
  dsimp only
  rcases Nat.eq_or_lt_of_le hlower with heq | hlt
  · -- rounded down
    rw [heq] at ha ⊢
    exact if_pos (by omega)
  · have hup : m = a / b + 1 := by omega
    have hmul : m * b = a / b * b + b := by rw [hup, Nat.add_one_mul]
    rw [if_neg (by omega), if_pos (by omega), hup]

/-- The mantissa of a fraction in the same binade. -/
theorem mantissa_near {n d m : Nat} {e : Int} (hd : d ≠ 0) (hlow : ((m : ℚ) - 1 / 2) * 2 ^ e < n / d)
    (hhigh : (n / d : ℚ) < (m + 1 / 2) * 2 ^ e) :
    (if 0 ≤ e then roundHalfEven n (d * 2 ^ e.toNat) else roundHalfEven (n * 2 ^ (-e).toNat) d) = m := by
  obtain ⟨a, b, hb, hround, hscaled⟩ := exists_scaled (n := n) hd e
  have hbpos : (0 : ℚ) < b := by exact_mod_cast Nat.pos_of_ne_zero hb
  have hpow : (0 : ℚ) < 2 ^ e := by positivity
  rw [hscaled, mul_lt_mul_iff_left₀ hpow] at hlow hhigh
  rw [lt_div_iff₀ hbpos] at hlow
  rw [div_lt_iff₀ hbpos] at hhigh
  rw [hround]
  apply roundHalfEven_near hb
  · have h : (2 : ℚ) * (m * b) < 2 * a + b := by linarith
    exact_mod_cast h
  · have h : (2 : ℚ) * a < 2 * (m * b) + b := by linarith
    exact_mod_cast h

/-- The exponent of a fraction between the ends of a binade, the lower one being zero for the
smallest exponent. -/
theorem exponent_between {n d : Nat} {e : Int} (hn : n ≠ 0) (hd : d ≠ 0) (he : -1074 ≤ e)
    (hbottom : 2 ^ 52 * 2 ^ e ≤ (n / d : ℚ) ∨ e = -1074) (htop : (n / d : ℚ) < 2 ^ 53 * 2 ^ e) :
    max (floorLog2 n d - 52) (-1074) = e := by
  have hspec := floorLog2_spec hn hd
  rw [← two_zpow_add e 53] at htop
  have hle := (zpow_lt_zpow_iff_right₀ (by norm_num : (1 : ℚ) < 2)).mp (lt_of_le_of_lt hspec.1 htop)
  rcases hbottom with hbottom | hsub
  · rw [← two_zpow_add e 52] at hbottom
    have hge := (zpow_lt_zpow_iff_right₀ (by norm_num : (1 : ℚ) < 2)).mp
      (lt_of_le_of_lt hbottom hspec.2)
    omega
  · omega

section near

variable {n d m : Nat} {e : Int} {neg : Bool}

/-- A fraction that is rounded within the binade of the number. -/
theorem roundFraction_within (hn : n ≠ 0) (hd : d ≠ 0) (hdouble : (Number.finite neg m e).IsDouble)
    (hm : m ≠ 0) (hbottom : 2 ^ 52 * 2 ^ e ≤ (n / d : ℚ) ∨ e = -1074)
    (hlow : ((m : ℚ) - 1 / 2) * 2 ^ e < n / d) (hhigh : (n / d : ℚ) < (m + 1 / 2) * 2 ^ e) :
    roundFraction neg n d = .finite neg m e := by
  obtain ⟨hm53, he, hlarge, -⟩ := hdouble
  have hpow : (0 : ℚ) < 2 ^ e := by positivity
  have htop : (n / d : ℚ) < 2 ^ 53 * 2 ^ e := by
    have hm' : (m : ℚ) + 1 ≤ 2 ^ 53 := by exact_mod_cast hm53
    exact lt_of_lt_of_le hhigh (mul_le_mul_of_nonneg_right (by linarith) hpow.le)
  have hcarry : m ≠ 2 ^ 53 := by omega
  unfold roundFraction
  rw [if_neg hn]
  dsimp only
  rw [exponent_between hn hd he hbottom htop, mantissa_near hd hlow hhigh, if_neg hcarry]
  dsimp only
  rw [if_neg (by omega), if_neg hm]

/-- A fraction just below a power of two is rounded up into the next binade. -/
theorem roundFraction_below (hn : n ≠ 0) (hd : d ≠ 0) (he : -1074 < e) (hlarge : e ≤ 971)
    (hlow : ((2 : ℚ) ^ 52 - 1 / 4) * 2 ^ e < n / d) (hhigh : (n / d : ℚ) < 2 ^ 52 * 2 ^ e) :
    roundFraction neg n d = .finite neg (2 ^ 52) e := by
  have hpow : (0 : ℚ) < 2 ^ (e - 1) := by positivity
  have hhalf : (2 : ℚ) ^ e = 2 * 2 ^ (e - 1) := by
    rw [zpow_sub_one₀ two_ne_zero]
    ring
  rw [hhalf] at hlow hhigh
  have hexponent : max (floorLog2 n d - 52) (-1074) = e - 1 := by
    apply exponent_between hn hd (by omega)
    · left
      linarith
    · linarith
  have hmantissa := mantissa_near (n := n) (m := 2 ^ 53) (e := e - 1) hd
    (by push_cast; linarith) (by push_cast; linarith)
  unfold roundFraction
  rw [if_neg hn]
  dsimp only
  rw [hexponent, hmantissa, if_pos rfl]
  dsimp only
  rw [if_neg (by omega), if_neg (by norm_num), sub_add_cancel]

/-- What is nearer to a number than a part in `2 ^ 54` of it is rounded to it. -/
theorem roundFraction_near (hd : d ≠ 0) (hdouble : (Number.finite neg m e).IsDouble) (hm : m ≠ 0)
    (hnear : |(n / d : ℚ) - m * 2 ^ e| * 2 ^ 54 < m * 2 ^ e) :
    roundFraction neg n d = .finite neg m e := by
  have hpow : (0 : ℚ) < 2 ^ e := by positivity
  have hm1 : (1 : ℚ) ≤ m := by exact_mod_cast Nat.one_le_iff_ne_zero.mpr hm
  have hm53 : (m : ℚ) < 2 ^ 53 := by exact_mod_cast hdouble.1
  have hstep : (m : ℚ) * 2 ^ e < 2 ^ 53 * 2 ^ e := mul_lt_mul_of_pos_right hm53 hpow
  obtain ⟨hleft, hright⟩ := abs_le.mp (le_refl |(n / d : ℚ) - m * 2 ^ e|)
  have hlow : ((m : ℚ) - 1 / 2) * 2 ^ e < n / d := by linarith
  have hhigh : (n / d : ℚ) < (m + 1 / 2) * 2 ^ e := by linarith
  have hn : n ≠ 0 := by
    rintro rfl
    rw [Nat.cast_zero, zero_div] at hlow
    exact absurd hlow (not_lt_of_ge (mul_nonneg (by linarith) hpow.le))
  by_cases hbottom : 2 ^ 52 * 2 ^ e ≤ (n / d : ℚ) ∨ e = -1074
  · exact roundFraction_within hn hd hdouble hm hbottom hlow hhigh
  · -- only the lowest mantissa has a neighbourhood that reaches into the binade below
    rw [not_or, not_le] at hbottom
    obtain ⟨hbelow, hnotsub⟩ := hbottom
    have hnormal : 2 ^ 52 ≤ m := hdouble.2.2.2.1.resolve_right hnotsub
    have hlowest : m = 2 ^ 52 := by
      by_contra hne
      have hmore : (2 : ℚ) ^ 52 + 1 ≤ m := by
        have : 2 ^ 52 + 1 ≤ m := by omega
        exact_mod_cast this
      have hscaled : ((2 : ℚ) ^ 52 + 1) * 2 ^ e ≤ m * 2 ^ e := mul_le_mul_of_nonneg_right hmore hpow.le
      linarith
    subst hlowest
    push_cast at hleft hnear
    have he := hdouble.2.1
    exact roundFraction_below hn hd (by omega) hdouble.2.2.1 (by linarith) hbelow

end near

theorem ofRat_near {q : ℚ} {m : Nat} {e : Int} (hdouble : (Number.finite false m e).IsDouble)
    (hm : m ≠ 0) (hnear : |q - m * 2 ^ e| * 2 ^ 54 < m * 2 ^ e) : ofRat q = .finite false m e := by
  have hvalue : (0 : ℚ) < m * 2 ^ e := by
    have hm' : (0 : ℚ) < m := by exact_mod_cast Nat.pos_of_ne_zero hm
    positivity
  have hpos : 0 < q := by
    obtain ⟨hleft, -⟩ := abs_le.mp (le_refl |q - m * 2 ^ e|)
    linarith
  obtain ⟨hofRat, -, hfraction⟩ := fraction_of_pos hpos
  rw [hofRat]
  apply roundFraction_near q.den_ne_zero hdouble hm
  rw [hfraction]
  exact hnear

end JsNumber
