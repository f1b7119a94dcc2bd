import Mathlib.Tactic.Linarith
import TrustLink.Numeric.JsNumber

/-!
# Numeric — dates as ECMAScript has them

A time is a number of milliseconds since 1970 in UTC. The proleptic Gregorian calendar is computed
in years that begin in March, so that the leap day comes last: `march` finds the year and the day in
it, `ofDays` turns them into a civil date and `toDays` is the way back (`toDays_ofDays`).

The texts are those of `Date.prototype.toISOString`, with its six-digit years outside 0 to 9999, and
of the same format read back by `Date.parse`. `parseISO_toISO` is the round trip for four-digit years.
-/

namespace Calendar

open JsNumber

/-! ## Civil dates -/

structure Civil where
  year : Int
  month : Int
  day : Int
  deriving DecidableEq, Repr

/-- The number of days from 1970-01-01 to the first of March of a year. -/
def daysBefore (y : Int) : Int := 365 * y + y / 4 - y / 100 + y / 400 - 719468

/-- The year, counted from March, and the day in it. -/
def march (z : Int) : Int × Int :=
  let cycle := (z + 719468) / 146097
  let d := (z + 719468) % 146097
  -- the last century of a cycle and the last year of four are one day longer
  let century := min (d / 36524) 3
  let d := d - 36524 * century
  let leap := d / 1461
  let d := d % 1461
  let year := min (d / 365) 3
  (400 * cycle + 100 * century + 4 * leap + year, d - 365 * year)

/-- The date of a day. -/
def ofDays (z : Int) : Civil :=
  let month := (5 * (march z).2 + 2) / 153
  let day := (march z).2 - (153 * month + 2) / 5 + 1
  if month < 10 then ⟨(march z).1, month + 3, day⟩ else ⟨(march z).1 + 1, month - 9, day⟩

/-- The day of a date. -/
def toDays (c : Civil) : Int :=
  if 2 < c.month then daysBefore c.year + (153 * (c.month - 3) + 2) / 5 + c.day - 1
  else daysBefore (c.year - 1) + (153 * (c.month + 9) + 2) / 5 + c.day - 1

theorem march_spec (z : Int) :
    daysBefore (march z).1 + (march z).2 = z ∧ 0 ≤ (march z).2 ∧ (march z).2 ≤ 365 := by
  unfold march
  dsimp only
  have hz := Int.mul_ediv_add_emod (z + 719468) 146097
  have hlow := Int.emod_nonneg (z + 719468) (b := 146097) (by decide)
  have hhigh := Int.emod_lt_of_pos (z + 719468) (b := 146097) (by decide)
  generalize (z + 719468) / 146097 = cycle at *
  generalize (z + 719468) % 146097 = d at *
  -- the last century of a cycle and the last year of four are a day longer: hence the `min`
  obtain ⟨century, hcentury⟩ : ∃ century, century = min (d / 36524) 3 := ⟨_, rfl⟩
  rw [← hcentury]
  obtain ⟨r, hr⟩ : ∃ r, r = d - 36524 * century := ⟨_, rfl⟩
  rw [← hr]
  have hbounds : 0 ≤ century ∧ century ≤ 3 ∧ 0 ≤ r ∧ r ≤ 36524 := by omega
  clear hcentury
  have hr₁ := Int.mul_ediv_add_emod r 1461
  have hlow₁ := Int.emod_nonneg r (b := 1461) (by decide)
  have hhigh₁ := Int.emod_lt_of_pos r (b := 1461) (by decide)
  have hleap : 0 ≤ r / 1461 ∧ r / 1461 ≤ 24 := by omega
  generalize r / 1461 = leap at *
  generalize r % 1461 = t at *
  obtain ⟨year, hyear⟩ : ∃ year, year = min (t / 365) 3 := ⟨_, rfl⟩
  rw [← hyear]
  have hbounds₁ : 0 ≤ year ∧ year ≤ 3 ∧ 0 ≤ t - 365 * year ∧ t - 365 * year ≤ 365 := by omega
  clear hyear
  refine ⟨?_, hbounds₁.2.2⟩
  unfold daysBefore
  have h4 : (400 * cycle + 100 * century + 4 * leap + year) / 4
      = 100 * cycle + 25 * century + leap := by omega
  have h100 : (400 * cycle + 100 * century + 4 * leap + year) / 100 = 4 * cycle + century := by
    omega
  have h400 : (400 * cycle + 100 * century + 4 * leap + year) / 400 = cycle := by omega
  rw [h4, h100, h400]
  omega

theorem toDays_ofDays (z : Int) : toDays (ofDays z) = z := by
  obtain ⟨hz, hlow, hhigh⟩ := march_spec z
  unfold ofDays
  generalize (march z).1 = y at *
  generalize (march z).2 = d at *
  dsimp only
  split
  · unfold toDays
    dsimp only
    rw [if_pos (by omega), show (5 * d + 2) / 153 + 3 - 3 = (5 * d + 2) / 153 by omega]
    omega
  · unfold toDays
    dsimp only
    rw [if_neg (by omega), Int.add_sub_cancel,
      show (5 * d + 2) / 153 - 9 + 9 = (5 * d + 2) / 153 by omega]
    omega

theorem ofDays_injective : Function.Injective ofDays :=
  Function.LeftInverse.injective toDays_ofDays

theorem ofDays_bounds (z : Int) :
    (1 ≤ (ofDays z).month ∧ (ofDays z).month ≤ 12) ∧ 1 ≤ (ofDays z).day ∧ (ofDays z).day ≤ 31 := by
  obtain ⟨-, hlow, hhigh⟩ := march_spec z
  unfold ofDays
  dsimp only
  split
  · dsimp only
    omega
  · dsimp only
    omega

/-- The day of the month of a day. -/
theorem toDays_first (c : Civil) : toDays ⟨c.year, c.month, 1⟩ = toDays c - (c.day - 1) := by
  unfold toDays
  dsimp only
  split <;> omega

/-! ## Digits of fixed width -/

/-- The last `w` decimal digits. -/
def pad : Nat → Nat → List Char
  | 0, _ => []
  | w + 1, n => pad w (n / 10) ++ [Nat.digitChar (n % 10)]

@[simp] theorem length_pad (w n : Nat) : (pad w n).length = w := by
  induction w generalizing n with
  | zero => rfl
  | succ w ih => simp [pad, ih]

theorem digitValue_digitChar {n : Nat} (h : n < 10) : digitValue (Nat.digitChar n) = n := by
  have hall : ∀ d : Fin 10, digitValue (Nat.digitChar d) = d := by decide
  exact hall ⟨n, h⟩

/-- Fixed-width digits are read back as the number. -/
theorem foldl_pad {w n : Nat} (hn : n < 10 ^ w) :
    (pad w n).foldl (fun acc c => acc * 10 + digitValue c) 0 = n := by
  induction w generalizing n with
  | zero =>
    have hzero : n = 0 := by simpa using hn
    rw [hzero]
    rfl
  | succ w ih =>
    have hdiv : n / 10 < 10 ^ w := by
      rw [Nat.pow_succ] at hn
      omega
    rw [pad, List.foldl_append, ih hdiv]
    show n / 10 * 10 + digitValue _ = n
    rw [digitValue_digitChar (Nat.mod_lt _ (by decide))]
    omega

theorem all_pad (w n : Nat) : (pad w n).all (fun c => digitValue c < 10) = true := by
  induction w generalizing n with
  | zero => rfl
  | succ w ih =>
    rw [pad, List.all_append, ih, Bool.true_and, List.all_cons, List.all_nil, Bool.and_true,
      digitValue_digitChar (Nat.mod_lt _ (by decide))]
    exact decide_eq_true (Nat.mod_lt _ (by decide))

theorem digits_pad {w n : Nat} (hw : w ≠ 0) (hn : n < 10 ^ w) : digits 10 (pad w n) = some n := by
  have hne : pad w n ≠ [] := by
    intro hnil
    have hlength := length_pad w n
    rw [hnil] at hlength
    exact hw hlength.symm
  rw [digits, if_pos ⟨hne, all_pad w n⟩, foldl_pad hn]

theorem pad_injective {w m n : Nat} (hw : w ≠ 0) (hm : m < 10 ^ w) (hn : n < 10 ^ w)
    (h : pad w m = pad w n) : m = n := by
  have hdigits := digits_pad hw hm
  rw [h, digits_pad hw hn] at hdigits
  exact (Option.some.inj hdigits).symm

/-- The digits of a number that has as many. -/
theorem toDigits_eq_pad {w n : Nat} (hlow : 10 ^ w ≤ n) (hhigh : n < 10 ^ (w + 1)) :
    Nat.toDigits 10 n = pad (w + 1) n := by
  induction w generalizing n with
  | zero =>
    rw [Nat.toDigits_of_lt_base (by omega)]
    show _ = [] ++ [Nat.digitChar (n % 10)]
    rw [Nat.mod_eq_of_lt (by omega)]
    rfl
  | succ w ih =>
    rw [Nat.pow_succ] at hlow hhigh
    have hpos : 1 ≤ 10 ^ w := Nat.one_le_pow _ _ (by decide)
    rw [Nat.toDigits_of_base_le (by decide) (by omega), ih (by omega) (by omega)]
    rfl

def msPerDay : Int := 86400000

/-- `getDate()`, in UTC -/
def getDate (t : Int) : Int := (ofDays (t / msPerDay)).day

/-- `setDate(date)`, in UTC: the same month and time of day; a date outside the month is in another
one. -/
def setDate (t date : Int) : Int :=
  let c := ofDays (t / msPerDay)
  (toDays ⟨c.year, c.month, 1⟩ + date - 1) * msPerDay + t % msPerDay

theorem setDate_eq (t date : Int) : setDate t date = t + (date - getDate t) * msPerDay := by
  have ht : t / msPerDay * msPerDay + t % msPerDay = t := Int.ediv_mul_add_emod t msPerDay
  unfold setDate getDate
  dsimp only
  rw [toDays_first, toDays_ofDays]
  unfold msPerDay at *
  omega

/-! ## Texts -/

/-- The date of a `toISOString` text. -/
def isoDate (c : Civil) : List Char :=
  (if 0 ≤ c.year ∧ c.year ≤ 9999 then pad 4 c.year.toNat
    else (if c.year < 0 then '-' else '+') :: pad 6 c.year.natAbs) ++
  '-' :: pad 2 c.month.toNat ++ '-' :: pad 2 c.day.toNat

/-- The date of `toLocaleDateString('en-CA')`: the year of its era, without leading zeros. -/
def localeDate (c : Civil) : List Char :=
  Nat.toDigits 10 (if 1 ≤ c.year then c.year else 1 - c.year).toNat ++
  '-' :: pad 2 c.month.toNat ++ '-' :: pad 2 c.day.toNat

/-- The time of a `toISOString` text, for the milliseconds of a day. -/
def isoTime (ms : Nat) : List Char :=
  pad 2 (ms / 3600000) ++ ':' :: pad 2 (ms / 60000 % 60) ++ ':' :: pad 2 (ms / 1000 % 60) ++
    '.' :: pad 3 (ms % 1000)

/-- `new Date(t).toISOString()` -/
def toISO (t : Int) : List Char :=
  isoDate (ofDays (t / msPerDay)) ++ 'T' :: isoTime (t % msPerDay).toNat ++ ['Z']

/-- Read `w` digits and the character that ends them. -/
def field (w : Nat) (c : Char) (cs : List Char) : Option (Nat × List Char) :=
  match cs.drop w with
  | [] => none
  | d :: rest => if d = c then (digits 10 (cs.take w)).map fun n => (n, rest) else none

/-- `Date.parse` of `YYYY-MM-DDTHH:mm:ss.sssZ`. -/
def parseISO (cs : List Char) : Option Int := do
  let (year, cs) ← field 4 '-' cs
  let (month, cs) ← field 2 '-' cs
  let (day, cs) ← field 2 'T' cs
  let (hour, cs) ← field 2 ':' cs
  let (minute, cs) ← field 2 ':' cs
  let (second, cs) ← field 2 '.' cs
  let (ms, cs) ← field 3 'Z' cs
  let date : Civil := ⟨year, month, day⟩
  if cs = [] ∧ ofDays (toDays date) = date ∧ hour < 24 ∧ minute < 60 ∧ second < 60 then
    some (toDays date * msPerDay + (hour * 3600000 + minute * 60000 + second * 1000 + ms : Nat))
  else none

theorem field_pad {w n : Nat} (hw : w ≠ 0) (hn : n < 10 ^ w) (c : Char) (rest : List Char) :
    field w c (pad w n ++ c :: rest) = some (n, rest) := by
  unfold field
  rw [List.take_left' (length_pad w n), List.drop_left' (length_pad w n), digits_pad hw hn]
  exact if_pos rfl

theorem localeDate_eq_isoDate {c : Civil} (hlow : 1000 ≤ c.year) (hhigh : c.year ≤ 9999) :
    localeDate c = isoDate c := by
  have hdigits : Nat.toDigits 10 c.year.toNat = pad 4 c.year.toNat :=
    toDigits_eq_pad (by omega) (by omega)
  unfold localeDate isoDate
  rw [if_pos (by omega), if_pos (by omega), hdigits]

theorem length_isoDate {c : Civil} (hlow : 0 ≤ c.year) (hhigh : c.year ≤ 9999) :
    (isoDate c).length = 10 := by
  unfold isoDate
  rw [if_pos ⟨hlow, hhigh⟩]
  simp

/-- Days of four-digit years have different texts. -/
theorem isoDate_ofDays_inj {z z' : Int} (hlow : 0 ≤ (ofDays z).year)
    (hhigh : (ofDays z).year ≤ 9999) (hlow' : 0 ≤ (ofDays z').year)
    (hhigh' : (ofDays z').year ≤ 9999) (h : isoDate (ofDays z) = isoDate (ofDays z')) : z = z' := by
  apply ofDays_injective
  obtain ⟨hmonth, hday⟩ := ofDays_bounds z
  obtain ⟨hmonth', hday'⟩ := ofDays_bounds z'
  generalize ofDays z = c at *
  generalize ofDays z' = c' at *
  unfold isoDate at h
  rw [if_pos ⟨hlow, hhigh⟩, if_pos ⟨hlow', hhigh'⟩, List.append_assoc, List.append_assoc] at h
  obtain ⟨hyears, hrest⟩ := List.append_inj h (by simp)
  obtain ⟨hmonths, hdays⟩ := List.append_inj hrest (by simp)
  have hyear := pad_injective (by decide) (by omega) (by omega) hyears
  have hmonth₁ := pad_injective (by decide) (by omega) (by omega) (List.cons.inj hmonths).2
  have hday₁ := pad_injective (by decide) (by omega) (by omega) (List.cons.inj hdays).2
  cases c
  cases c'
  simp only [Civil.mk.injEq] at *
  omega

/-- A time of a four-digit year is read back from its text. -/
theorem parseISO_toISO {t : Int} (hlow : 0 ≤ (ofDays (t / msPerDay)).year)
    (hhigh : (ofDays (t / msPerDay)).year ≤ 9999) : parseISO (toISO t) = some t := by
  obtain ⟨hmonth, hday⟩ := ofDays_bounds (t / msPerDay)
  have hround := toDays_ofDays (t / msPerDay)
  have hms : 0 ≤ t % msPerDay ∧ t % msPerDay < 86400000 := by
    unfold msPerDay
    omega
  have ht : t / msPerDay * msPerDay + t % msPerDay = t := Int.ediv_mul_add_emod t msPerDay
  unfold toISO isoDate
  -- from here the date and the time of day are apart; both are natural numbers
  generalize t / msPerDay = z at *
  generalize hdate : ofDays z = date at *
  obtain ⟨ms, hmsNat⟩ : ∃ ms : Nat, t % msPerDay = ms := ⟨(t % msPerDay).toNat, by omega⟩
  rw [hmsNat] at hms ht ⊢
  obtain ⟨year, month, day⟩ := date
  dsimp only at hlow hhigh hmonth hday ⊢
  obtain ⟨year, rfl⟩ : ∃ n : Nat, year = n := ⟨year.toNat, by omega⟩
  obtain ⟨month, rfl⟩ : ∃ n : Nat, month = n := ⟨month.toNat, by omega⟩
  obtain ⟨day, rfl⟩ : ∃ n : Nat, day = n := ⟨day.toNat, by omega⟩
  -- the date read back is checked against the calendar
  have hvalid : ofDays (toDays ⟨year, month, day⟩) = ⟨year, month, day⟩ := by rw [hround, hdate]
  rw [if_pos ⟨hlow, hhigh⟩]
  simp only [isoTime, Int.toNat_natCast, List.append_assoc, List.cons_append]
  unfold parseISO
  rw [field_pad (by decide) (show year < 10 ^ 4 by omega)]
  dsimp only [Option.bind_eq_bind, Option.bind_some]
  rw [field_pad (by decide) (show month < 10 ^ 2 by omega)]
  dsimp only [Option.bind_some]
  rw [field_pad (by decide) (show day < 10 ^ 2 by omega)]
  dsimp only [Option.bind_some]
  rw [field_pad (by decide) (show ms / 3600000 < 10 ^ 2 by omega)]
  dsimp only [Option.bind_some]
  rw [field_pad (by decide) (show ms / 60000 % 60 < 10 ^ 2 by omega)]
  dsimp only [Option.bind_some]
  rw [field_pad (by decide) (show ms / 1000 % 60 < 10 ^ 2 by omega)]
  dsimp only [Option.bind_some]
  rw [field_pad (by decide) (show ms % 1000 < 10 ^ 3 by omega)]
  dsimp only [Option.bind_some]
  rw [if_pos ⟨rfl, hvalid, by omega, by omega, by omega⟩, hround]
  have hsum : ms / 3600000 * 3600000 + ms / 60000 % 60 * 60000 + ms / 1000 % 60 * 1000 + ms % 1000
      = ms := by omega
  rw [hsum, ht]

end Calendar
