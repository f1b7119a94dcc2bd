import Mathlib.Tactic.Ring
import TrustLink.Numeric.Double
import TrustLink.Text.Integer

/-!
# Text — numbers in decimal

`Number.prototype.toString` takes the fewest digits that are rounded back to the number (`shortest`)
and lays them out with a decimal point, with zeros or with an exponent, depending on the magnitude
(`numeral`). Every layout is a JSON number literal and has the value of its digits (`numeral_spec`), so
`JSON.parse` reads a finite number back (`ofLiteral_literal`).
-/

namespace Text

open JsNumber

/-- `s * 10 ^ p` -/
def decimalValue (s : Nat) (p : Int) : ℚ :=
  if 0 ≤ p then (s * 10 ^ p.toNat : Nat) else mkRat s (10 ^ (-p).toNat)

def writeFraction (frac : List Char) : List Char := if frac = [] then [] else '.' :: frac

def writeExponent : Option Int → List Char
  | none => []
  | some x => 'e' :: (if 0 ≤ x then '+' else '-') :: Nat.toDigits 10 x.natAbs

/-- `int [. frac] [e exponent]` -/
def writeDecimal (int frac : List Char) (exponent : Option Int) : List Char :=
  int ++ (writeFraction frac ++ writeExponent exponent)

/-- The layout of `s * 10 ^ p`; the decimal point stands after `n` digits. -/
def numeral (s : Nat) (p : Int) : List Char :=
  let ds := Nat.toDigits 10 s
  let k : Int := ds.length
  let n := p + k
  if k ≤ n ∧ n ≤ 21 then writeDecimal (ds ++ List.replicate (n - k).toNat '0') [] none
  else if 0 < n ∧ n ≤ 21 then writeDecimal (ds.take n.toNat) (ds.drop n.toNat) none
  else if -6 < n ∧ n ≤ 0 then writeDecimal ['0'] (List.replicate (-n).toNat '0' ++ ds) none
  else writeDecimal (ds.take 1) (ds.drop 1) (some (n - 1))

/-! ## Digits

The value of a run of digits, as both readers compute it. -/

/-- The two decimals of `k` digits next to `q`, the nearer one first. -/
def candidates (q : ℚ) (k : Nat) : List (Nat × Int) :=
  let p := floorLog10 q.num.natAbs q.den + 1 - k
  let scaled : ℚ := if 0 ≤ p then q / (10 ^ p.toNat : Nat) else q * (10 ^ (-p).toNat : Nat)
  let low := scaled.floor.toNat
  -- a carry leaves a one
  let normal (s : Nat) : Nat × Int := if s = 10 ^ k then (1, p + k) else (s, p)
  if scaled - low ≤ 1 / 2 then [normal low, normal (low + 1)] else [normal (low + 1), normal low]

/-- The exact digits of `m * 2 ^ e`. -/
def exactDigits (m : Nat) (e : Int) : Nat × Int :=
  if 0 ≤ e then (m * 2 ^ e.toNat, 0) else (m * 5 ^ (-e).toNat, e)

/-- The fewest digits that are rounded to the positive number `m * 2 ^ e`. Seventeen are always
enough; the exact digits stand for the rest of the search. -/
def shortest (m : Nat) (e : Int) : Nat × Int :=
  let q : ℚ := if 0 ≤ e then (m * 2 ^ e.toNat : Nat) else mkRat m (2 ^ (-e).toNat)
  (((List.range 17).flatMap fun k => candidates q (k + 1)).find? fun c =>
    ofRat (decimalValue c.1 c.2) = .finite false m e).getD (exactDigits m e)

/-- `JSON.stringify` of a number. -/
def literal : Number → List Char
  | .finite neg m e =>
    if m = 0 then ['0']
    else
      let digits := numeral (shortest m e).1 (shortest m e).2
      if neg then '-' :: digits else digits
  | _ => ['n', 'u', 'l', 'l']

/-- `JSON.parse` of a number literal. -/
def ofLiteral (cs : List Char) : Option Number :=
  match cs with
  | '-' :: ds => (decimalLiteral ds).map fun q => ofRat (-q)
  | ds => (decimalLiteral ds).map ofRat

/-! ## The value of a layout -/

/-- The value of a run of digits. -/
def runValue (ds : List Char) : Nat := ds.foldl (fun acc c => acc * 10 + digitValue c) 0

theorem digitValue_lt {c : Char} (hc : isDigit c = true) : digitValue c < 10 := by
  rw [isDigit, Bool.and_eq_true, decide_eq_true_eq, decide_eq_true_eq] at hc
  have hhigh : c.toNat ≤ '9'.toNat := hc.2
  rw [digitValue, if_pos hc]
  rw [show '9'.toNat = 57 from rfl] at hhigh
  rw [show '0'.toNat = 48 from rfl]
  omega

/-- The reader accepts every run of digits, for its value. -/
theorem digits_eq_runValue {ds : List Char} (hne : ds ≠ []) (hds : ∀ c ∈ ds, isDigit c = true) :
    digits 10 ds = some (runValue ds) := by
  have hall : ds.all (fun c => digitValue c < 10) = true := by
    rw [List.all_eq_true]
    intro c hc
    simpa using digitValue_lt (hds c hc)
  unfold digits
  rw [if_pos ⟨hne, hall⟩]
  rfl

/-- What stands in front counts for so many more powers of ten. -/
theorem runValue_append (as bs : List Char) :
    runValue (as ++ bs) = runValue as * 10 ^ bs.length + runValue bs := by
  have hfold : ∀ (bs : List Char) (acc : Nat),
      bs.foldl (fun acc c => acc * 10 + digitValue c) acc = acc * 10 ^ bs.length + runValue bs := by
    intro bs
    induction bs with
    | nil =>
      intro acc
      simp [runValue]
    | cons c bs ih =>
      intro acc
      have hcons : runValue (c :: bs) = digitValue c * 10 ^ bs.length + runValue bs := by
        rw [runValue, List.foldl_cons, ih, Nat.zero_mul, Nat.zero_add]
      rw [List.foldl_cons, ih, hcons, List.length_cons]
      ring
  rw [runValue, List.foldl_append, hfold]
  rfl

theorem runValue_zeros (j : Nat) : runValue (List.replicate j '0') = 0 := by
  induction j with
  | zero => rfl
  | succ j ih =>
    rw [List.replicate_succ', runValue_append, ih]
    decide

/-- The digits of a number have its value. -/
theorem runValue_toDigits (n : Nat) : runValue (Nat.toDigits 10 n) = n := by
  have h := digits_eq_runValue (Nat.toDigits_ne_nil (n := n) (b := 10))
    fun c hc => isDigit_of_mem_toDigits hc
  rw [digits_toDigits, Option.some.injEq] at h
  exact h.symm

/-! ### Splitting

The parts of a literal contain no separator themselves. -/

/-- Nothing is split where there is no separator. -/
theorem splitAt_absent {p : Char → Bool} {cs : List Char} (h : ∀ c ∈ cs, p c = false) :
    splitAt p cs = (cs, none) := by
  have htake : cs.takeWhile (fun c => !p c) = cs := by
    rw [List.takeWhile_eq_self_iff]
    intro c hc
    simp [h c hc]
  have hdrop : cs.dropWhile (fun c => !p c) = [] := by
    rw [List.dropWhile_eq_nil_iff]
    intro c hc
    simp [h c hc]
  rw [splitAt, htake, hdrop]

/-- It is split at the first one. -/
theorem splitAt_append {p : Char → Bool} {cs : List Char} (h : ∀ c ∈ cs, p c = false) {d : Char}
    (hd : p d = true) (rest : List Char) : splitAt p (cs ++ d :: rest) = (cs, some rest) := by
  have hcs : ∀ c ∈ cs, (!p c) = true := by
    intro c hc
    simp [h c hc]
  rw [splitAt, List.takeWhile_append_of_pos hcs, List.dropWhile_append_of_pos hcs]
  simp [hd]

theorem isDigit_ne {c d : Char} (hc : isDigit c = true) (hd : isDigit d = false) : c ≠ d := by
  rintro rfl
  rw [hc] at hd
  cases hd

theorem signed_sign (x : Int) (ds : List Char) :
    signed ((if 0 ≤ x then '+' else '-') :: ds) = (decide (x < 0), ds) := by
  split
  · next hx =>
    rw [decide_eq_false (by omega)]
    rfl
  · next hx =>
    rw [decide_eq_true (by omega)]
    rfl

/-- A fraction is made of digits and a point. -/
theorem mem_writeFraction {frac : List Char} (hfrac : ∀ c ∈ frac, isDigit c = true) {c : Char}
    (hc : c ∈ writeFraction frac) : isDigit c = true ∨ c = '.' := by
  unfold writeFraction at hc
  split at hc
  · cases hc
  · rcases List.mem_cons.mp hc with hc | hc
    · exact .inr hc
    · exact .inl (hfrac c hc)

/-- The integer part and the fraction are found again. -/
theorem splitAt_point {int frac : List Char} (hint : ∀ c ∈ int, isDigit c = true) :
    splitAt (· == '.') (int ++ writeFraction frac)
      = (int, if frac = [] then none else some frac) := by
  have habsent : ∀ c ∈ int, (c == '.') = false := by
    intro c hc
    simpa using isDigit_ne (hint c hc) (by decide)
  unfold writeFraction
  split
  · rw [List.append_nil, splitAt_absent habsent]
  · rw [splitAt_append habsent (by decide)]

/-- A decimal has the value of its digits, moved by the point and the exponent. -/
theorem decimalLiteral_write {int frac : List Char} (hne : int ≠ [])
    (hint : ∀ c ∈ int, isDigit c = true) (hfrac : ∀ c ∈ frac, isDigit c = true)
    (exponent : Option Int) :
    decimalLiteral (writeDecimal int frac exponent)
      = some (decimalValue (runValue (int ++ frac)) (exponent.getD 0 - frac.length)) := by
  -- the first split is at the exponent, the second at the point
  have hmantissa : ∀ c ∈ int ++ writeFraction frac, (c == 'e' || c == 'E') = false := by
    intro c hc
    have hcases : isDigit c = true ∨ c = '.' := by
      rcases List.mem_append.mp hc with hc | hc
      · exact .inl (hint c hc)
      · exact mem_writeFraction hfrac hc
    rcases hcases with hdigit | rfl
    · simpa using ⟨isDigit_ne hdigit (by decide), isDigit_ne hdigit (by decide)⟩
    · decide
  -- no point is written where there is no fraction, and none is missed
  have hgetD : (if frac = [] then none else some frac).getD [] = frac := by
    split
    · next h => exact h.symm
    · rfl
  have hdigits : digits 10 (int ++ frac) = some (runValue (int ++ frac)) := by
    apply digits_eq_runValue
    · simp [hne]
    · intro c hc
      rcases List.mem_append.mp hc with hc | hc
      · exact hint c hc
      · exact hfrac c hc
  unfold decimalLiteral writeDecimal
  rw [← List.append_assoc]
  cases exponent with
  | none =>
    rw [writeExponent, List.append_nil, splitAt_absent hmantissa]
    dsimp only
    rw [splitAt_point hint]
    dsimp only
    rw [hgetD, hdigits]
    rfl
  | some x =>
    rw [writeExponent, splitAt_append hmantissa (by decide)]
    dsimp only
    rw [splitAt_point hint]
    dsimp only
    rw [hgetD, hdigits]
    have hpower : (if decide (x < 0) = true then -(x.natAbs : Int) else x.natAbs) = x := by
      simp only [decide_eq_true_eq]
      omega
    rw [signed_sign]
    dsimp only [Option.bind_eq_bind, Option.bind_some]
    rw [digits_toDigits]
    show some (decimalValue _ ((if decide (x < 0) = true then -(x.natAbs : Int) else x.natAbs) - _))
      = _
    rw [hpower]
    rfl

/-! ## Layouts are literals

So that they can stand in JSON. -/

/-- The exponent has a sign and digits. -/
theorem isExponent_write (exponent : Option Int) : isExponent (writeExponent exponent) = true := by
  cases exponent with
  | none => rfl
  | some x =>
    have hskip : skipDigits (Nat.toDigits 10 x.natAbs) = some [] := by
      have h : skipDigits (Nat.toDigits 10 x.natAbs ++ []) = some [] :=
        skipDigits_append Nat.toDigits_ne_nil (fun c hc => isDigit_of_mem_toDigits hc)
          nofun
      rwa [List.append_nil] at h
    rw [writeExponent]
    split
    · show (true && skipDigits (Nat.toDigits 10 x.natAbs) == some []) = true
      rw [hskip]
      rfl
    · show (true && skipDigits (Nat.toDigits 10 x.natAbs) == some []) = true
      rw [hskip]
      rfl

theorem head_writeExponent {exponent : Option Int} {c : Char}
    (hc : c ∈ (writeExponent exponent).head?) : c = 'e' := by
  cases exponent with
  | none => cases hc
  | some x =>
    cases hc
    rfl

/-- The fraction has digits after its point. -/
theorem isFraction_write {frac : List Char} (hfrac : ∀ c ∈ frac, isDigit c = true)
    (exponent : Option Int) :
    isFraction (writeFraction frac ++ writeExponent exponent) = true := by
  unfold writeFraction
  split
  · -- no point: the exponent follows
    have h := isExponent_write exponent
    cases exponent with
    | none => rfl
    | some x => exact h
  · next hne =>
    have hends : ∀ c ∈ (writeExponent exponent).head?, isDigit c = false := by
      intro c hc
      rw [head_writeExponent hc]
      decide
    rw [List.cons_append, isFraction, skipDigits_append hne hfrac hends]
    exact isExponent_write exponent

/-- A layout is a number, with a sign in front or without. -/
theorem isNumber_write {int frac : List Char} (hint : IsRun int)
    (hfrac : ∀ c ∈ frac, isDigit c = true) (exponent : Option Int) :
    isNumber (writeDecimal int frac exponent) = true ∧
      isNumber ('-' :: writeDecimal int frac exponent) = true := by
  apply isNumber_run hint (isFraction_write hfrac exponent)
  -- the characters after the integer part, then the first of them
  · rw [List.all_append, Bool.and_eq_true, List.all_eq_true, List.all_eq_true]
    constructor
    · intro c hc
      rcases mem_writeFraction hfrac hc with hdigit | rfl
      · rw [isNumeric, hdigit, Bool.true_or]
      · decide
    · intro c hc
      cases exponent with
      | none => cases hc
      | some x =>
        rcases List.mem_cons.mp hc with rfl | hc
        · decide
        · rcases List.mem_cons.mp hc with rfl | hc
          · split <;> decide
          · rw [isNumeric, isDigit_of_mem_toDigits hc, Bool.true_or]
  · intro c hc
    unfold writeFraction at hc
    split at hc
    · rw [head_writeExponent hc]
      decide
    · cases hc
      decide

/-! ## Numerals

Each of the four forms of `Number::toString` is a layout of its digits. -/

/-- The front of a run that does not begin with a zero. -/
theorem isRun_take {ds : List Char} (hds : ∀ c ∈ ds, isDigit c = true) (hne : ds ≠ [])
    (hlead : ∀ rest, ds ≠ '0' :: rest) {j : Nat} (hj : j ≠ 0) : IsRun (ds.take j) := by
  refine ⟨by simp [hne, hj], fun c hc => hds c (List.mem_of_mem_take hc), .inr ?_⟩
  intro rest h
  cases ds with
  | nil => exact hne rfl
  | cons c ds =>
    obtain ⟨j, rfl⟩ := Nat.exists_eq_succ_of_ne_zero hj
    rw [List.take_succ_cons, List.cons.injEq] at h
    exact hlead ds (by rw [h.1])

/-- Zeros may follow digits that do not begin with one. -/
theorem isRun_append {ds zeros : List Char} (hds : ∀ c ∈ ds, isDigit c = true) (hne : ds ≠ [])
    (hlead : ∀ rest, ds ≠ '0' :: rest) (hzeros : ∀ c ∈ zeros, isDigit c = true) :
    IsRun (ds ++ zeros) := by
  refine ⟨by simp [hne], ?_, .inr ?_⟩
  · intro c hc
    rcases List.mem_append.mp hc with hc | hc
    · exact hds c hc
    · exact hzeros c hc
  · intro rest h
    cases ds with
    | nil => exact hne rfl
    | cons c ds =>
      rw [List.cons_append, List.cons.injEq] at h
      exact hlead ds (by rw [h.1])

/-- The parts of a layout of `s * 10 ^ p`. -/
structure Layout (s : Nat) (p : Int) (int frac : List Char) (exponent : Option Int) : Prop where
  run : IsRun int
  digits : ∀ c ∈ frac, isDigit c = true
  value : decimalValue (runValue (int ++ frac)) (exponent.getD 0 - frac.length) = decimalValue s p
  /-- The digits after the point, once the exponent has moved it. -/
  places : ((frac.length : Int) - exponent.getD 0).toNat = (-p).toNat

/-- The form depends on where the point comes to stand. -/
theorem numeral_layout {s : Nat} (hs : s ≠ 0) (p : Int) :
    ∃ int frac exponent, numeral s p = writeDecimal int frac exponent ∧
      Layout s p int frac exponent := by
  have hds : ∀ c ∈ Nat.toDigits 10 s, isDigit c = true := fun c hc => isDigit_of_mem_toDigits hc
  have hne : Nat.toDigits 10 s ≠ [] := Nat.toDigits_ne_nil
  have hlead : ∀ rest, Nat.toDigits 10 s ≠ '0' :: rest := fun rest => head_toDigits hs
  have hvalue := runValue_toDigits s
  have hzeros : ∀ j, ∀ c ∈ List.replicate j '0', isDigit c = true := by
    intro j c hc
    rw [List.eq_of_mem_replicate hc]
    decide
  unfold numeral
  dsimp only
  generalize Nat.toDigits 10 s = ds at *
  have hlen : 0 < ds.length := List.length_pos_iff.mpr hne
  split
  · next hn =>
    -- an integer, with zeros for the missing digits
    refine ⟨_, [], none, rfl, isRun_append hds hne hlead (hzeros _), by simp, ?_, ?_⟩
    · rw [List.append_nil, runValue_append, hvalue, runValue_zeros, List.length_replicate]
      obtain ⟨k, rfl⟩ : ∃ k : Nat, p = k := ⟨p.toNat, by omega⟩
      simp [decimalValue]
    · simp only [List.length_nil, Option.getD_none]
      omega
  · split
    · next hn hpoint =>
      -- the point is among the digits
      refine ⟨_, _, _, rfl, isRun_take hds hne hlead (by omega),
        fun c hc => hds c (List.mem_of_mem_drop hc), ?_, ?_⟩
      · rw [List.take_append_drop, hvalue, List.length_drop]
        congr 1
        simp only [Option.getD_none]
        omega
      · rw [List.length_drop]
        simp only [Option.getD_none]
        omega
    · split
      · next hn hpoint hsmall =>
        -- a small fraction: `0.` and zeros before the digits
        refine ⟨['0'], _, _, rfl, isRun_toDigits 0, ?_, ?_, ?_⟩
        · intro c hc
          rcases List.mem_append.mp hc with hc | hc
          · exact hzeros _ c hc
          · exact hds c hc
        · rw [runValue_append, runValue_append, runValue_zeros, hvalue, List.length_append,
            List.length_replicate, show runValue ['0'] = 0 by decide, Nat.zero_mul, Nat.zero_mul,
            Nat.zero_add, Nat.zero_add]
          congr 1
          simp only [Option.getD_none]
          omega
        · rw [List.length_append, List.length_replicate]
          simp only [Option.getD_none]
          omega
      · -- one digit before the point, and an exponent
        refine ⟨_, _, _, rfl, isRun_take hds hne hlead (by decide),
          fun c hc => hds c (List.mem_of_mem_drop hc), ?_, ?_⟩
        · rw [List.take_append_drop, hvalue, List.length_drop]
          congr 1
          simp only [Option.getD_some]
          omega
        · rw [List.length_drop]
          simp only [Option.getD_some]
          omega

/-- The layout of non-zero digits is a literal for their value. -/
theorem numeral_spec {s : Nat} (hs : s ≠ 0) (p : Int) :
    (isNumber (numeral s p) = true ∧ isNumber ('-' :: numeral s p) = true) ∧
      decimalLiteral (numeral s p) = some (decimalValue s p) := by
  obtain ⟨int, frac, exponent, hnumeral, hlayout⟩ := numeral_layout hs p
  rw [hnumeral, decimalLiteral_write hlayout.run.1 hlayout.run.2.1 hlayout.digits, hlayout.value]
  exact ⟨isNumber_write hlayout.run hlayout.digits exponent, rfl⟩

/-- The numeral of a non-negative number: digits that are rounded to it, the last of which is not a
zero, in their layout. -/
def IsNumeral (x : Number) (text : List Char) : Prop :=
  ∃ s p, (s % 10 ≠ 0 ∨ s = 0 ∧ p = 0) ∧ ofRat (decimalValue s p) = x ∧ text = numeral s p

theorem layout_zero : Layout 0 0 ['0'] [] none where
  run := isRun_toDigits 0
  digits := fun _ hc => absurd hc List.not_mem_nil
  value := by decide
  places := rfl

/-- Zero has a layout of its own. -/
theorem exists_layout {s : Nat} {p : Int} (h : s % 10 ≠ 0 ∨ s = 0 ∧ p = 0) :
    ∃ int frac exponent, numeral s p = writeDecimal int frac exponent ∧
      Layout s p int frac exponent := by
  rcases h with hs | ⟨rfl, rfl⟩
  · exact numeral_layout (by omega) p
  · exact ⟨['0'], [], none, by decide, layout_zero⟩

/-- The numeral is read as the value of its digits. -/
theorem decimalLiteral_numeral {s : Nat} {p : Int} (hs : s % 10 ≠ 0 ∨ s = 0 ∧ p = 0) :
    decimalLiteral (numeral s p) = some (decimalValue s p) := by
  obtain ⟨int, frac, exponent, hnumeral, hlayout⟩ := exists_layout hs
  rw [hnumeral, decimalLiteral_write hlayout.run.1 hlayout.run.2.1 hlayout.digits, hlayout.value]

/-! ## Shortest digits

Of the decimals that are read back as the number, the one with the fewest digits. -/

/-- The value of digits and a power of ten. -/
theorem decimalValue_eq (s : Nat) (p : Int) : decimalValue s p = s * (10 : ℚ) ^ p := by
  unfold decimalValue
  split
  · next hp =>
    obtain ⟨k, rfl⟩ := Int.eq_ofNat_of_zero_le hp
    simp
  · next hp =>
    obtain ⟨k, rfl⟩ : ∃ k : Nat, p = -(k : Int) := ⟨(-p).toNat, by omega⟩
    rw [Rat.mkRat_eq_div]
    simp [div_eq_mul_inv]

theorem decimalValue_nonneg (s : Nat) (p : Int) : 0 ≤ decimalValue s p := by
  rw [decimalValue_eq]
  positivity

/-- Every double is a decimal. -/
theorem exactDigits_value (m : Nat) (e : Int) :
    decimalValue (exactDigits m e).1 (exactDigits m e).2 = m * (2 : ℚ) ^ e := by
  rw [decimalValue_eq]
  unfold exactDigits
  split
  · next he =>
    obtain ⟨k, rfl⟩ := Int.eq_ofNat_of_zero_le he
    simp
  · next he =>
    obtain ⟨k, rfl⟩ : ∃ k : Nat, e = -(k : Int) := ⟨(-e).toNat, by omega⟩
    have hten : (10 : ℚ) ^ k = 2 ^ k * 5 ^ k := by
      rw [← mul_pow]
      norm_num
    simp only [neg_neg, Int.toNat_natCast, zpow_neg, zpow_natCast, hten]
    push_cast
    field_simp

/-- Whatever digits are chosen, they are rounded to the number. -/
theorem ofRat_shortest {m : Nat} {e : Int} (hdouble : (Number.finite false m e).IsDouble) :
    ofRat (decimalValue (shortest m e).1 (shortest m e).2) = .finite false m e := by
  unfold shortest
  dsimp only
  generalize hfind : List.find? _ _ = found
  cases found with
  | some c => simpa using List.find?_some hfind
  | none =>
    rw [Option.getD_none, exactDigits_value]
    have hround := ofRat_toRat hdouble
    rw [toRat_finite, Option.map_some, Option.some.injEq] at hround
    exact hround

/-! ## The round trip

What is printed is read as a decimal near the number, which rounds to it. -/

/-- A number that is not zero is not printed as zero. -/
theorem shortest_ne_zero {m : Nat} {e : Int} (hm : m ≠ 0)
    (hdouble : (Number.finite false m e).IsDouble) : (shortest m e).1 ≠ 0 := by
  intro hzero
  have h := ofRat_shortest hdouble
  rw [hzero, decimalValue_eq, Nat.cast_zero, zero_mul] at h
  exact (roundFraction_sign hm h).1 rfl

theorem unsigned_of_isNumber {ds rest : List Char} (h : isNumber ('-' :: ds) = true) :
    ds ≠ '-' :: rest := by
  rintro rfl
  have hsign : isDigit '-' = false := by decide
  simp [isNumber, skipDigits, hsign] at h

/-- What is printed can stand in JSON. -/
theorem isNumber_literal {x : Number} (hx : x.IsDouble) : isNumber (literal x) = true := by
  cases x with
  | nan => exact hx.elim
  | infinity neg => exact hx.elim
  | finite neg m e =>
    rw [literal]
    split
    · decide
    · next hm =>
      have hspec := numeral_spec (shortest_ne_zero hm hx.positive) (shortest m e).2
      dsimp only
      split
      · exact hspec.1.2
      · exact hspec.1.1

/-- A finite number is read back from its literal. -/
theorem ofLiteral_literal {x : Number} (hx : x.IsDouble) : ofLiteral (literal x) = some x := by
  cases x with
  | nan => exact hx.elim
  | infinity neg => exact hx.elim
  | finite neg m e =>
    rw [literal]
    split
    · next hm =>
      subst hm
      -- zero has one representation; the negative one is left out
      have he : e = -1074 := hx.2.2.2.1.resolve_left (by omega)
      rw [he, hx.2.2.2.2 rfl]
      decide
    · next hm =>
      have hspec := numeral_spec (shortest_ne_zero hm hx.positive) (shortest m e).2
      have hround := ofRat_shortest hx.positive
      dsimp only
      cases neg with
      | true =>
        show (decimalLiteral _).map _ = _
        rw [hspec.2, Option.map_some, ofRat_neg hm hround]
      | false =>
        rw [if_neg Bool.false_ne_true, ofLiteral, hspec.2, Option.map_some, hround]
        intro rest
        exact unsigned_of_isNumber hspec.1.2

end Text
