import Mathlib.Data.List.TakeWhile
import Mathlib.Tactic.IntervalCases
import TrustLink.Numeric.JsNumber
import TrustLink.Text.Json

/-!
# Text — integers in decimal

An integer is written without leading zeros, so its text is a JSON number literal (`integerToken`),
and `BigInt` reads it back (`bigInt_integer`). `BigInt` takes more: white space around the number,
the empty text, a plus sign and the three other radices.
-/

namespace Text

open JsNumber

/-! ## Writing -/

/-- `BigInt.prototype.toString`. -/
def integer : Int → List Char
  | .ofNat n => Nat.toDigits 10 n
  | .negSucc n => '-' :: Nat.toDigits 10 (n + 1)

theorem isDigit_of_mem_toDigits {n : Nat} {c : Char} (hc : c ∈ Nat.toDigits 10 n) :
    isDigit c = true :=
  Nat.isDigit_of_mem_toDigits (by decide) (by decide) hc

/-- There is no leading zero. -/
theorem head_toDigits {n : Nat} (hn : n ≠ 0) {rest : List Char} :
    Nat.toDigits 10 n ≠ '0' :: rest := by
  induction n using Nat.strong_induction_on generalizing rest with
  | _ n ih =>
    rcases Nat.lt_or_ge n 10 with hlt | hge
    · rw [Nat.toDigits_of_lt_base hlt]
      interval_cases n <;> simp_all
    · -- the first digit is that of the quotient
      rw [Nat.toDigits_of_base_le (by decide) hge]
      intro h
      cases hq : Nat.toDigits 10 (n / 10) with
      | nil => exact Nat.toDigits_ne_nil hq
      | cons c cs =>
        rw [hq, List.cons_append, List.cons.injEq] at h
        rw [h.1] at hq
        exact ih (n / 10) (by omega) (by omega) hq

/-- A run of digits without a leading zero. -/
def IsRun (ds : List Char) : Prop :=
  ds ≠ [] ∧ (∀ c ∈ ds, isDigit c = true) ∧ (ds = ['0'] ∨ ∀ rest, ds ≠ '0' :: rest)

theorem isRun_toDigits (n : Nat) : IsRun (Nat.toDigits 10 n) := by
  refine ⟨Nat.toDigits_ne_nil, fun c hc => isDigit_of_mem_toDigits hc, ?_⟩
  rcases Nat.eq_zero_or_pos n with rfl | hn
  · exact .inl rfl
  · exact .inr fun rest => head_toDigits (by omega)

theorem skipDigits_append {ds rest : List Char} (hne : ds ≠ []) (hds : ∀ c ∈ ds, isDigit c = true)
    (hrest : ∀ c ∈ rest.head?, isDigit c = false) : skipDigits (ds ++ rest) = some rest := by
  cases ds with
  | nil => exact absurd rfl hne
  | cons c ds =>
    have hdrop : (ds ++ rest).dropWhile isDigit = rest := by
      rw [List.dropWhile_append_of_pos fun c hc => hds c (List.mem_cons_of_mem _ hc)]
      cases rest with
      | nil => rfl
      | cons d rest => rw [List.dropWhile_cons, if_neg (by simp [hrest d rfl])]
    rw [List.cons_append, skipDigits, if_pos (hds c List.mem_cons_self), hdrop]

/-- A run of digits with a fraction or an exponent after it is a literal, with or without a sign. -/
theorem isNumber_run {ds rest : List Char} (hds : IsRun ds) (hrest : isFraction rest = true)
    (hnumeric : rest.all isNumeric = true) (hends : ∀ c ∈ rest.head?, isDigit c = false) :
    isNumber (ds ++ rest) = true ∧ isNumber ('-' :: (ds ++ rest)) = true := by
  obtain ⟨hne, hdigits, hlead⟩ := hds
  have hall : (ds ++ rest).all isNumeric = true := by
    rw [List.all_append, hnumeric, Bool.and_true, List.all_eq_true]
    intro c hc
    rw [isNumeric, hdigits c hc, Bool.true_or]
  have hsign : isNumeric '-' = true := by decide
  have hskip := skipDigits_append hne hdigits hends
  cases ds with
  | nil => exact absurd rfl hne
  | cons c ds =>
    have hminus : c ≠ '-' := by
      rintro rfl
      exact absurd (hdigits '-' List.mem_cons_self) (by decide)
    by_cases hc : c = '0'
    · -- only zero begins with a zero
      subst hc
      have hnil : ds = [] := by
        rcases hlead with hzero | hlead
        · exact (List.cons.inj hzero).2
        · exact absurd rfl (hlead ds)
      subst hnil
      constructor
      · unfold isNumber
        rw [hall]
        exact hrest
      · unfold isNumber
        rw [List.all_cons, hall, hsign]
        exact hrest
    · rw [List.cons_append] at hall hskip ⊢
      constructor
      · unfold isNumber
        rw [hall]
        simp [hskip, hc, hminus, hrest]
      · unfold isNumber
        rw [List.all_cons, hall, hsign]
        simp [hskip, hc, hrest]

theorem isNumber_integer (n : Int) : isNumber (integer n) = true := by
  have hrun : ∀ m : Nat, isNumber (Nat.toDigits 10 m) = true ∧
      isNumber ('-' :: Nat.toDigits 10 m) = true := by
    intro m
    have h : isNumber (Nat.toDigits 10 m ++ []) = true ∧ _ :=
      isNumber_run (isRun_toDigits m) rfl rfl nofun
    rwa [List.append_nil] at h
  cases n with
  | ofNat m => exact (hrun m).1
  | negSucc m => exact (hrun (m + 1)).2

/-- The literal of an integer. -/
def integerToken (n : Int) : NumberToken := ⟨integer n, isNumber_integer n⟩

/-! ## Reading -/

/-- `StringToBigInt`; without a value `BigInt` throws a `SyntaxError`. -/
def bigInt (cs : List Char) : Option Int :=
  match trimChars cs with
  | [] => some 0
  | '0' :: 'x' :: ds | '0' :: 'X' :: ds => (digits 16 ds).map Int.ofNat
  | '0' :: 'o' :: ds | '0' :: 'O' :: ds => (digits 8 ds).map Int.ofNat
  | '0' :: 'b' :: ds | '0' :: 'B' :: ds => (digits 2 ds).map Int.ofNat
  | trimmed =>
    let (neg, ds) := signed trimmed
    (digits 10 ds).map fun n : Nat => if neg then -(n : Int) else (n : Int)

theorem mem_integer {n : Int} {c : Char} (hc : c ∈ integer n) : isDigit c = true ∨ c = '-' := by
  cases n with
  | ofNat n => exact .inl (isDigit_of_mem_toDigits hc)
  | negSucc n =>
    rcases List.mem_cons.mp hc with hminus | hc
    · exact .inr hminus
    · exact .inl (isDigit_of_mem_toDigits hc)

theorem trimChars_integer (n : Int) : trimChars (integer n) = integer n := by
  have hspace : ∀ c ∈ integer n, isWhiteSpace c = false := by
    intro c hc
    rcases mem_integer hc with hdigit | rfl
    · rw [isDigit, Bool.and_eq_true, decide_eq_true_eq, decide_eq_true_eq] at hdigit
      have hlow : '0'.toNat ≤ c.toNat := hdigit.1
      have hhigh : c.toNat ≤ '9'.toNat := hdigit.2
      rw [show '0'.toNat = 48 from rfl] at hlow
      rw [show '9'.toNat = 57 from rfl] at hhigh
      unfold isWhiteSpace
      simp
      omega
    · decide
  have hdrop : ∀ cs : List Char, (∀ c ∈ cs, isWhiteSpace c = false) →
      cs.dropWhile isWhiteSpace = cs := by
    intro cs hcs
    cases cs with
    | nil => rfl
    | cons c cs => rw [List.dropWhile_cons, if_neg (by simp [hcs c List.mem_cons_self])]
  unfold trimChars
  rw [hdrop _ hspace, hdrop _ (fun c hc => hspace c (List.mem_reverse.mp hc)), List.reverse_reverse]

theorem bigInt_integer (n : Int) : bigInt (integer n) = some n := by
  have habsent : ∀ c : Char, isDigit c = false → c ≠ '-' → c ∉ integer n := by
    intro c hdigit hminus hc
    rcases mem_integer hc with h | h
    · rw [h] at hdigit
      cases hdigit
    · exact hminus h
  unfold bigInt
  rw [trimChars_integer]
  -- no letter after the first digit
  split
  next h =>
    cases n with
    | ofNat n => exact absurd h Nat.toDigits_ne_nil
    | negSucc n => cases h
  next h => exact absurd (h ▸ by simp) (habsent 'x' (by decide) (by decide))
  next h => exact absurd (h ▸ by simp) (habsent 'X' (by decide) (by decide))
  next h => exact absurd (h ▸ by simp) (habsent 'o' (by decide) (by decide))
  next h => exact absurd (h ▸ by simp) (habsent 'O' (by decide) (by decide))
  next h => exact absurd (h ▸ by simp) (habsent 'b' (by decide) (by decide))
  next h => exact absurd (h ▸ by simp) (habsent 'B' (by decide) (by decide))
  next =>
    cases n with
    | ofNat n =>
      have hsigned : signed (Nat.toDigits 10 n) = (false, Nat.toDigits 10 n) := by
        have hsign : ∀ c cs, Nat.toDigits 10 n = c :: cs → isDigit c = true := by
          intro c cs h
          exact isDigit_of_mem_toDigits (h ▸ List.mem_cons_self)
        unfold signed
        split
        next h => exact absurd (hsign _ _ h) (by decide)
        next h => exact absurd (hsign _ _ h) (by decide)
        next => rfl
      rw [integer, hsigned]
      dsimp only
      rw [digits_toDigits]
      rfl
    | negSucc n =>
      show (digits 10 (Nat.toDigits 10 (n + 1))).map _ = _
      rw [digits_toDigits]
      rfl

theorem integerToken_injective : Function.Injective integerToken := by
  intro m n h
  have htext : integer m = integer n := congrArg NumberToken.chars h
  have hread := bigInt_integer m
  rw [htext, bigInt_integer n, Option.some.injEq] at hread
  exact hread.symm

end Text
