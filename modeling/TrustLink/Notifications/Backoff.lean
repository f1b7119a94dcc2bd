import Mathlib.Algebra.Order.Archimedean.Basic
import Mathlib.Algebra.Order.Floor.Ring
import Mathlib.Data.Rat.Floor
import Mathlib.Tactic.Linarith
import Mathlib.Tactic.Ring
import TrustLink.Notifications.RetryQueue

/-!
# TrustLink — the pause before a retry

`computeBackoffDelay` doubles the delay with every attempt and cuts it off at `maxDelayMs`. The
jitter is added to what has been cut off, a quarter of it in either direction, so a pause that has
reached the cap goes beyond it on every draw above one half, but for what the rounding takes away.

* **`backoff_respects_cap_iff`** — for which draws a configuration keeps to its cap at every attempt.
* **`waited_le`** — what the pauses of a job in process come to.
-/

namespace TrustLink

open Effects NotificationRetryQueueService

structure NotificationRetryBackoff where
  attempts : Nat
  delay : ℚ
  maxDelayMs : Option ℚ

def DEFAULT_BACKOFF : NotificationRetryBackoff where
  attempts := 5
  delay := 1000
  maxDelayMs := some (5 * 60 * 1000)

/-- `Math.round`: halves go up. -/
def mathRound (x : ℚ) : ℤ := ⌊x + 1 / 2⌋

/-- `capped`. Without a maximum it is compared with `Infinity`. -/
def cappedDelay (backoff : NotificationRetryBackoff) (attemptNumber : ℤ) : ℚ :=
  let raw := backoff.delay * 2 ^ (attemptNumber - 2).toNat
  match backoff.maxDelayMs with
  | some maxDelayMs => min raw maxDelayMs
  | none => raw

/-- `random` is what `Math.random` draws. -/
def computeBackoffDelay (random : ℚ) (attemptNumber : ℤ) (backoff : NotificationRetryBackoff) : ℤ :=
  if attemptNumber ≤ 1 then 0
  else
    let capped := cappedDelay backoff attemptNumber
    let jitter := capped * (1 / 4) * (random * 2 - 1)
    max 0 (mathRound (capped + jitter))

section delay

variable {backoff : NotificationRetryBackoff} {random : ℚ} {attemptNumber : ℤ} {maxDelayMs : Nat}

theorem computeBackoffDelay_nonneg : 0 ≤ computeBackoffDelay random attemptNumber backoff := by
  unfold computeBackoffDelay
  split
  · exact le_refl 0
  · exact le_max_left _ _

/-- The jitter scales the delay. -/
theorem computeBackoffDelay_retry (hretry : 1 < attemptNumber) :
    computeBackoffDelay random attemptNumber backoff
      = max 0 ⌊cappedDelay backoff attemptNumber * (3 / 4 + random / 2) + 1 / 2⌋ := by
  have hscale : cappedDelay backoff attemptNumber
      + cappedDelay backoff attemptNumber * (1 / 4) * (random * 2 - 1)
      = cappedDelay backoff attemptNumber * (3 / 4 + random / 2) := by ring
  rw [computeBackoffDelay, if_neg (by omega)]
  dsimp only
  rw [hscale]
  rfl

theorem cappedDelay_mono (hdelay : 0 ≤ backoff.delay) {earlier later : ℤ} (h : earlier ≤ later) :
    cappedDelay backoff earlier ≤ cappedDelay backoff later := by
  have hpower : (2 : ℚ) ^ (earlier - 2).toNat ≤ 2 ^ (later - 2).toNat :=
    pow_le_pow_right₀ (by norm_num) (by omega)
  have hraw : backoff.delay * 2 ^ (earlier - 2).toNat ≤ backoff.delay * 2 ^ (later - 2).toNat :=
    mul_le_mul_of_nonneg_left hpower hdelay
  unfold cappedDelay
  dsimp only
  cases backoff.maxDelayMs with
  | none => exact hraw
  | some maxDelayMs => exact min_le_min_right maxDelayMs hraw

theorem cappedDelay_nonneg (hdelay : 0 ≤ backoff.delay)
    (hmax : backoff.maxDelayMs = some (maxDelayMs : ℚ)) :
    0 ≤ cappedDelay backoff attemptNumber := by
  unfold cappedDelay
  rw [hmax]
  exact le_min (by positivity) (Nat.cast_nonneg maxDelayMs)

theorem cappedDelay_le (hmax : backoff.maxDelayMs = some (maxDelayMs : ℚ)) :
    cappedDelay backoff attemptNumber ≤ maxDelayMs := by
  unfold cappedDelay
  rw [hmax]
  exact min_le_right _ _

/-- Doubling reaches every cap. -/
theorem exists_cappedDelay_eq (hdelay : 0 < backoff.delay)
    (hmax : backoff.maxDelayMs = some (maxDelayMs : ℚ)) :
    ∃ attemptNumber : ℤ, 1 < attemptNumber ∧ cappedDelay backoff attemptNumber = maxDelayMs := by
  obtain ⟨n, hn⟩ := pow_unbounded_of_one_lt ((maxDelayMs : ℚ) / backoff.delay) one_lt_two
  refine ⟨n + 2, by omega, ?_⟩
  have hreached : (maxDelayMs : ℚ) ≤ backoff.delay * 2 ^ n := by
    rw [div_lt_iff₀ hdelay] at hn
    linarith
  unfold cappedDelay
  rw [hmax, add_sub_cancel_right, Int.toNat_natCast]
  exact min_eq_right hreached

/-- A pause is within the cap if rounding does not take it over. -/
theorem computeBackoffDelay_le_iff (hretry : 1 < attemptNumber) :
    computeBackoffDelay random attemptNumber backoff ≤ maxDelayMs ↔
      cappedDelay backoff attemptNumber * (3 / 4 + random / 2) < maxDelayMs + 1 / 2 := by
  have hround : ⌊cappedDelay backoff attemptNumber * (3 / 4 + random / 2) + 1 / 2⌋ ≤ (maxDelayMs : ℤ)
      ↔ cappedDelay backoff attemptNumber * (3 / 4 + random / 2) < maxDelayMs + 1 / 2 := by
    rw [← Int.lt_add_one_iff, Int.floor_lt]
    push_cast
    constructor
    · intro h
      linarith
    · intro h
      linarith
  rw [computeBackoffDelay_retry hretry, max_le_iff, hround]
  exact and_iff_right (Int.natCast_nonneg maxDelayMs)

theorem computeBackoffDelay_mono (hdelay : 0 ≤ backoff.delay) (hrandom : 0 ≤ random)
    {earlier later : ℤ} (h : earlier ≤ later) :
    computeBackoffDelay random earlier backoff ≤ computeBackoffDelay random later backoff := by
  by_cases hfirst : earlier ≤ 1
  · -- before the first attempt there is no pause
    rw [computeBackoffDelay, if_pos hfirst]
    exact computeBackoffDelay_nonneg
  · have hfactor : 0 ≤ 3 / 4 + random / 2 := by linarith
    have hscaled : cappedDelay backoff earlier * (3 / 4 + random / 2)
        ≤ cappedDelay backoff later * (3 / 4 + random / 2) :=
      mul_le_mul_of_nonneg_right (cappedDelay_mono hdelay h) hfactor
    rw [computeBackoffDelay_retry (by omega), computeBackoffDelay_retry (by omega)]
    refine max_le_max (le_refl 0) (Int.floor_le_floor ?_)
    linarith

end delay

/-! ## The cap -/

/-- What the cap promises for one draw, whatever the attempt. -/
structure RespectsCap (random : ℚ) (backoff : NotificationRetryBackoff) (maxDelayMs : Nat) : Prop where
  nonneg : ∀ attemptNumber, 0 ≤ computeBackoffDelay random attemptNumber backoff
  capped : ∀ attemptNumber, computeBackoffDelay random attemptNumber backoff ≤ maxDelayMs
  monotone : ∀ earlier later : ℤ, earlier ≤ later →
    computeBackoffDelay random earlier backoff ≤ computeBackoffDelay random later backoff

/-- A configuration keeps to its cap on a draw exactly if it never waits, or the jitter added at the
cap is rounded off. -/
theorem backoff_respects_cap_iff {backoff : NotificationRetryBackoff} {maxDelayMs : Nat} {random : ℚ}
    (hdelay : 0 ≤ backoff.delay) (hmax : backoff.maxDelayMs = some (maxDelayMs : ℚ))
    (hrandom : 0 ≤ random) :
    RespectsCap random backoff maxDelayMs ↔
      backoff.delay = 0 ∨ (maxDelayMs : ℚ) * (2 * random - 1) < 2 := by
  constructor
  · intro h
    by_cases hzero : backoff.delay = 0
    · exact .inl hzero
    · -- the attempt at which the delay is the cap itself
      obtain ⟨attemptNumber, hretry, hcap⟩ :=
        exists_cappedDelay_eq (lt_of_le_of_ne hdelay (Ne.symm hzero)) hmax
      have hwithin := (computeBackoffDelay_le_iff hretry).mp (h.capped attemptNumber)
      rw [hcap] at hwithin
      right
      linarith
  · intro h
    refine ⟨fun _ => computeBackoffDelay_nonneg, ?_, fun _ _ =>
      computeBackoffDelay_mono hdelay hrandom⟩
    intro attemptNumber
    by_cases hfirst : attemptNumber ≤ 1
    · rw [computeBackoffDelay, if_pos hfirst]
      exact Int.natCast_nonneg maxDelayMs
    · rw [computeBackoffDelay_le_iff (by omega)]
      have hfactor : 0 ≤ 3 / 4 + random / 2 := by linarith
      have hpositive : (0 : ℚ) ≤ maxDelayMs := Nat.cast_nonneg maxDelayMs
      rcases h with hzero | hjitter
      · have hnothing : cappedDelay backoff attemptNumber ≤ 0 := by
          unfold cappedDelay
          rw [hmax, hzero, zero_mul]
          exact min_le_left _ _
        have hscaled : cappedDelay backoff attemptNumber * (3 / 4 + random / 2) ≤ 0 :=
          mul_nonpos_of_nonpos_of_nonneg hnothing hfactor
        linarith
      · have hscaled : cappedDelay backoff attemptNumber * (3 / 4 + random / 2)
            ≤ maxDelayMs * (3 / 4 + random / 2) :=
          mul_le_mul_of_nonneg_right (cappedDelay_le hmax) hfactor
        linarith

theorem DEFAULT_BACKOFF_maxDelayMs : DEFAULT_BACKOFF.maxDelayMs = some ((300000 : Nat) : ℚ) := by
  norm_num [DEFAULT_BACKOFF]

/-- The draw the tests pin. -/
theorem backoff_respects_cap_midpoint : RespectsCap (1 / 2) DEFAULT_BACKOFF 300000 := by
  refine (backoff_respects_cap_iff ?_ DEFAULT_BACKOFF_maxDelayMs (by norm_num)).mpr (.inr ?_)
  · norm_num [DEFAULT_BACKOFF]
  · norm_num

/-- On a draw of three quarters the eleventh attempt waits for an eighth more than the cap. -/
theorem jitter_exceeds_cap : DEFAULT_BACKOFF.maxDelayMs = some 300000 ∧
    computeBackoffDelay (3 / 4) 11 DEFAULT_BACKOFF = 337500 ∧
    ¬ RespectsCap (3 / 4) DEFAULT_BACKOFF 300000 := by
  have hdelay : computeBackoffDelay (3 / 4) 11 DEFAULT_BACKOFF = 337500 := by decide +kernel
  refine ⟨by decide +kernel, hdelay, fun h => ?_⟩
  have hcapped := h.capped 11
  rw [hdelay] at hcapped
  omega

/-! ## The pauses of a job -/

/-- A pause lasts as long as it is computed to, from the draw made for it; any other call may be
answered in any way. The state is the time waited. -/
abbrev pausing (backoff : NotificationRetryBackoff) : Machine retrying where
  State := ℤ
  Choice := Except String Unit × ℚ
  handle choice c waited :=
    match c with
    | .sleep attemptNumber => (.ok (), waited + computeBackoffDelay choice.2 attemptNumber backoff)
    | _ => (choice.1, waited)

/-- `Math.random` draws below one. -/
def Draws (choice : Except String Unit × ℚ) : Prop := choice.2 < 1

section pauses

variable {backoff : NotificationRetryBackoff} {maxDelayMs : Nat}
variable {C : RetryQueueConfig} {job : NotificationRetryJobData} {waited : ℤ}

/-- What one pause can come to: a quarter more than the cap, rounded. -/
def longestPause (maxDelayMs : Nat) : ℚ := 5 / 4 * maxDelayMs + 1 / 2

theorem computeBackoffDelay_le_longest (hdelay : 0 ≤ backoff.delay)
    (hmax : backoff.maxDelayMs = some (maxDelayMs : ℚ)) {random : ℚ} (hrandom : random < 1)
    (attemptNumber : ℤ) :
    (computeBackoffDelay random attemptNumber backoff : ℚ) ≤ longestPause maxDelayMs := by
  have hpositive : (0 : ℚ) ≤ maxDelayMs := Nat.cast_nonneg maxDelayMs
  unfold longestPause
  by_cases hfirst : attemptNumber ≤ 1
  · rw [computeBackoffDelay, if_pos hfirst, Int.cast_zero]
    linarith
  · have hcapped : cappedDelay backoff attemptNumber ≤ maxDelayMs := cappedDelay_le hmax
    have hscaled : cappedDelay backoff attemptNumber * (3 / 4 + random / 2)
        ≤ cappedDelay backoff attemptNumber * (5 / 4) :=
      mul_le_mul_of_nonneg_left (by linarith) (cappedDelay_nonneg hdelay hmax)
    have hfloor := Int.floor_le (cappedDelay backoff attemptNumber * (3 / 4 + random / 2) + 1 / 2)
    rw [computeBackoffDelay_retry (by omega), Int.cast_max, max_le_iff, Int.cast_zero]
    constructor
    · linarith
    · linarith

/-- The calls that take no time. -/
def unpaused : RetryCall → Prop
  | .sleep _ => False
  | _ => True

theorem only_stamp {call : String → RetryCall} (h : ∀ id, unpaused (call id)) :
    (stamp C job call).Only unpaused := by
  unfold stamp
  split
  · exact only_pure _
  · exact only_tryCatch (only_perform (h _)) fun _ => only_pure _

theorem only_exhausted {attempts : Nat} {lastError : Option String} :
    (exhausted C job attempts lastError).Only unpaused :=
  only_bind (only_stamp fun _ => trivial) fun _ => only_perform trivial

theorem wp_unpaused {p : Prog retrying Unit} {Q : Except String Unit → ℤ → Prop}
    (hp : p.Only unpaused) (hQ : ∀ r, Q r waited) :
    p.wp ((pausing backoff).protocol Draws) Q waited := by
  refine hp.wp (fun c hc => ⟨trivial, ?_⟩) hQ
  rintro r waited' ⟨choice, -, heq⟩
  cases c with
  | sleep attemptNumber => exact hc.elim
  | _ =>
    cases heq
    rfl

/-- There is a pause between two attempts, and none after the last. -/
theorem wp_pauses (hdelay : 0 ≤ backoff.delay) (hmax : backoff.maxDelayMs = some (maxDelayMs : ℚ))
    (left : Nat) : ∀ {attempt : Nat} {waited : ℤ} {lastError : Option String},
      attempt + left = C.attempts + 1 →
      (attemptFrom C job left attempt lastError).wp ((pausing backoff).protocol Draws)
        (fun _ waited' => (waited' : ℚ) ≤ waited + (left - 1 : Nat) * longestPause maxDelayMs)
        waited := by
  have hlongest : 0 ≤ longestPause maxDelayMs := by
    unfold longestPause
    positivity
  induction left with
  | zero =>
    intro attempt waited lastError _
    rw [attemptFrom]
    refine wp_unpaused only_exhausted fun _ => ?_
    simp
  | succ left ih =>
    intro attempt waited lastError hattempt
    have hmore : (waited : ℚ) ≤ waited + (left : Nat) * longestPause maxDelayMs :=
      le_add_of_nonneg_right (mul_nonneg (Nat.cast_nonneg left) hlongest)
    rw [attemptFrom, wp_andThen]
    refine (wp_machine_perform (M := pausing backoff)).mpr ?_
    rintro ⟨answer, _⟩ _
    cases answer with
    | ok _ => exact wp_unpaused (only_stamp fun _ => trivial) fun _ => hmore
    | error err =>
      refine (wp_bind _ _ _ _).mpr (wp_unpaused (only_stamp fun _ => trivial) fun r => ?_)
      cases r with
      | error _ => exact hmore
      | ok _ =>
        refine wp_if (fun _ => ?_) fun hlast => ?_
        · exact wp_unpaused only_exhausted fun _ => hmore
        · refine (wp_machine_bind (M := pausing backoff)).mpr ?_
          rintro ⟨_, random⟩ hrandom
          refine wp_mono (ih (by omega)) fun _ waited' hwaited => ?_
          have hpause := computeBackoffDelay_le_longest hdelay hmax hrandom (attempt + 1 : Nat)
          -- the attempt that follows has one pause less before it
          obtain ⟨rest, rfl⟩ : ∃ rest, left = rest + 1 := Nat.exists_eq_succ_of_ne_zero (by omega)
          push_cast at hwaited hpause ⊢
          linarith

/-- What the pauses of a job come to: they go beyond the cap by a quarter each. -/
theorem waited_le (hdelay : 0 ≤ backoff.delay) (hmax : backoff.maxDelayMs = some (maxDelayMs : ℚ))
    {env : Nat → Except String Unit × ℚ} (henv : ∀ n, (env n).2 < 1) :
    (((processInProcess C job).exec (pausing backoff) env 0).2 : ℚ)
      ≤ (C.attempts - 1 : Nat) * longestPause maxDelayMs := by
  have hwp : (processInProcess C job).wp ((pausing backoff).protocol Draws)
      (fun _ waited => (waited : ℚ) ≤ (C.attempts - 1 : Nat) * longestPause maxDelayMs) 0 := by
    unfold processInProcess
    apply wp_if
    · intro _
      refine wp_mono (wp_pauses hdelay hmax C.attempts (by omega)) fun _ _ h => ?_
      rwa [Int.cast_zero, zero_add] at h
    · intro _
      rw [wp_pure, Int.cast_zero]
      unfold longestPause
      positivity
  exact exec_of_wp hwp henv

end pauses

/-- Every attempt fails, and every draw is three quarters. -/
theorem waited_le_default :
    (((processInProcess ⟨5, false, fun _ => true⟩
        ⟨.EMAIL, .FUNDED, lampRecord, "a@b.c", none, none⟩).exec
      (pausing DEFAULT_BACKOFF) (fun _ => (.error "down", 3 / 4)) 0).2 : ℚ)
      ≤ (5 - 1 : Nat) * longestPause 300000 :=
  waited_le (by norm_num [DEFAULT_BACKOFF]) DEFAULT_BACKOFF_maxDelayMs fun _ => by norm_num

end TrustLink
