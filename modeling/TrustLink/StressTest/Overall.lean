import Mathlib.Algebra.BigOperators.Group.List.Basic
import Mathlib.Algebra.Order.BigOperators.Group.List
import Mathlib.Algebra.Order.Field.Rat
import Mathlib.Data.Rat.Cast.Order
import Mathlib.Tactic.Linarith
import Mathlib.Tactic.Positivity
import Mathlib.Tactic.Ring

/-!
# TrustLink — the figures of a stress test

`StressTestService` sums up the metrics of each profile (`calculateProfileMetrics`), and then the
profiles (`calculateOverallMetrics`). The duration of the whole test is folded over the profiles by

    (sum, p) => sum + p.metrics.length > 0 ? (last - first) / 1000 : 0

in which the comparison binds weaker than the addition. So the sum is part of the guard and is
otherwise dropped: where no profile runs backwards in time, the fold keeps the duration of the last
profile, and the guard lets a profile without metrics pass whenever the profile before it took some
time (`addDuration_eq`).

* **`calculateOverallMetrics_eq_iff`** — the lists of profiles for which the figures are those with
  the duration meant.
-/

namespace TrustLink

structure PerformanceMetrics where
  timestamp : ℚ
  responseTime : ℚ
  success : Bool
  deriving DecidableEq

/-- What is read of a profile's result later on. A quotient that is not a number is `none`; nothing is
done with an alert but to collect it. -/
structure ProfileResult (Alert : Type) where
  profileIndex : Nat
  totalRequests : Nat
  successfulRequests : Nat
  failedRequests : Nat
  averageResponseTime : Option ℚ
  throughput : Option ℚ
  errorRate : Option ℚ
  metrics : List PerformanceMetrics
  alerts : List Alert
  deriving DecidableEq

structure OverallMetrics where
  totalRequests : Nat := 0
  successfulRequests : Nat := 0
  failedRequests : Nat := 0
  averageResponseTime : ℚ := 0
  overallErrorRate : ℚ := 0
  overallThroughput : ℚ := 0
  deriving DecidableEq

/-- What `calculateOverallMetrics` reads and assigns. -/
structure StressTestResult (Alert : Type) where
  profileResults : List (ProfileResult Alert)
  overallMetrics : OverallMetrics
  alerts : List Alert
  deriving DecidableEq

variable {Alert : Type}

/-- Division by zero gives `NaN` or `Infinity`. -/
def quotient (a b : ℚ) : Option ℚ := if b = 0 then none else some (a / b)

def calculateProfileMetrics (metrics : List PerformanceMetrics) (profileIndex : Nat) (duration : ℚ) :
    ProfileResult Alert :=
  let successful := metrics.filter (·.success)
  let failed := metrics.filter (!·.success)
  { profileIndex
    totalRequests := metrics.length
    successfulRequests := successful.length
    failedRequests := failed.length
    averageResponseTime := quotient (metrics.map (·.responseTime)).sum metrics.length
    throughput := quotient metrics.length duration
    errorRate := (quotient failed.length metrics.length).map (· * 100)
    metrics
    alerts := [] }

/-- `metrics[index].timestamp`. Outside the list there is nothing to read it of. -/
def timestampAt (metrics : List PerformanceMetrics) (index : ℤ) : Except String ℚ :=
  match if index < 0 then none else metrics[index.toNat]? with
  | some metric => .ok metric.timestamp
  | none => .error "Cannot read properties of undefined (reading 'timestamp')"

/-- The function folded over the profiles. -/
def addDuration (sum : ℚ) (p : ProfileResult Alert) : Except String ℚ :=
  if sum + p.metrics.length > 0 then do
    let last ← timestampAt p.metrics (p.metrics.length - 1)
    let first ← timestampAt p.metrics 0
    return (last - first) / 1000
  else return 0

/-- `||` takes the second sum where the first is zero. -/
def totalDuration (profiles : List (ProfileResult Alert)) : Except String ℚ := do
  let sum ← profiles.foldlM addDuration 0
  return if sum = 0 then profiles.foldl (fun sum _ => sum + 60) 0 else sum

/-! ## The other figures of all profiles

The counts and response times are added up as they should be; they are the same whatever the duration
is. -/

structure Totals where
  totalRequests : Nat := 0
  successfulRequests : Nat := 0
  failedRequests : Nat := 0
  totalResponseTime : ℚ := 0
  responseTimeCount : Nat := 0

def Totals.addMetric (t : Totals) (metric : PerformanceMetrics) : Totals :=
  { t with
    totalResponseTime := t.totalResponseTime + metric.responseTime
    responseTimeCount := t.responseTimeCount + 1 }

def Totals.addProfile (t : Totals) (profile : ProfileResult Alert) : Totals :=
  profile.metrics.foldl Totals.addMetric
    { t with
      totalRequests := t.totalRequests + profile.totalRequests
      successfulRequests := t.successfulRequests + profile.successfulRequests
      failedRequests := t.failedRequests + profile.failedRequests }

def totals (profiles : List (ProfileResult Alert)) : Totals := profiles.foldl Totals.addProfile {}

def overall (t : Totals) (totalDuration : ℚ) : OverallMetrics where
  totalRequests := t.totalRequests
  successfulRequests := t.successfulRequests
  failedRequests := t.failedRequests
  averageResponseTime :=
    if t.responseTimeCount > 0 then t.totalResponseTime / t.responseTimeCount else 0
  overallErrorRate := if t.totalRequests > 0 then t.failedRequests / t.totalRequests * 100 else 0
  overallThroughput := if totalDuration > 0 then t.totalRequests / totalDuration else 0

/-- The alerts have been pushed by the time the duration is computed. -/
def calculateOverallMetrics (result : StressTestResult Alert) :
    Except String Unit × StressTestResult Alert :=
  let t := totals result.profileResults
  let result := { result with alerts := result.alerts ++ result.profileResults.flatMap (·.alerts) }
  match totalDuration result.profileResults with
  | .ok totalDuration => (.ok (), { result with overallMetrics := overall t totalDuration })
  | .error e => (.error e, result)

/-! ## What the duration should be, and what it is

Each step of the fold drops the sum, so that the duration of the last profile is left. After a
positive sum the next profile is read even if it has no metrics, which throws. -/

/-- How long a profile took, in seconds; nothing if it has no metrics. -/
def span (p : ProfileResult Alert) : ℚ :=
  match p.metrics.head?, p.metrics.getLast? with
  | some first, some last => (last.timestamp - first.timestamp) / 1000
  | _, _ => 0

/-- The duration that is meant. -/
def intendedDuration (profiles : List (ProfileResult Alert)) : ℚ :=
  let sum := ((profiles.filter (·.metrics ≠ [])).map span).sum
  if sum = 0 then 60 * profiles.length else sum

/-- The figures with the duration that is meant. -/
def intendedResult (result : StressTestResult Alert) : StressTestResult Alert :=
  { result with
    alerts := result.alerts ++ result.profileResults.flatMap (·.alerts)
    overallMetrics := overall (totals result.profileResults) (intendedDuration result.profileResults) }

/-- No profile without metrics comes right after one that took some time. -/
def ReadsInside (profiles : List (ProfileResult Alert)) : Prop :=
  profiles.IsChain fun p q => 0 < span p → q.metrics ≠ []

/-- No profile but the last took any time, or it was the last that took none and all of them took a
minute each on the average, which is what the code falls back to. -/
def LastIsAll (profiles : List (ProfileResult Alert)) : Prop :=
  (∀ p ∈ profiles.dropLast, span p = 0) ∨
    (∀ p ∈ profiles.getLast?, span p = 0) ∧ (profiles.map span).sum = 60 * profiles.length

section duration

variable {profiles : List (ProfileResult Alert)} {p : ProfileResult Alert} {sum : ℚ}

theorem span_of_empty (h : p.metrics = []) : span p = 0 := by
  unfold span
  rw [h]
  rfl

/-- A profile with metrics is read at its two ends. -/
theorem addDuration_of_metrics (h : p.metrics ≠ []) (hsum : 0 ≤ sum) :
    addDuration sum p = .ok (span p) := by
  obtain ⟨first, rest, hmetrics⟩ := List.exists_cons_of_ne_nil h
  have hlength : p.metrics.length = rest.length + 1 := by rw [hmetrics, List.length_cons]
  have hfirst : timestampAt p.metrics 0 = .ok first.timestamp := by
    rw [hmetrics]
    rfl
  have hlast : timestampAt p.metrics (p.metrics.length - 1)
      = .ok ((first :: rest).getLast (List.cons_ne_nil first rest)).timestamp := by
    have hindex : ((p.metrics.length : ℤ) - 1).toNat = p.metrics.length - 1 := by omega
    unfold timestampAt
    rw [if_neg (by omega), hindex, ← List.getLast?_eq_getElem?, hmetrics,
      List.getLast?_eq_some_getLast (List.cons_ne_nil first rest)]
  have hspan : span p = (((first :: rest).getLast (List.cons_ne_nil first rest)).timestamp
      - first.timestamp) / 1000 := by
    unfold span
    rw [hmetrics, List.head?_cons, List.getLast?_eq_some_getLast (List.cons_ne_nil first rest)]
  have hguard : sum + p.metrics.length > 0 := by
    rw [hlength]
    push_cast
    positivity
  unfold addDuration
  rw [if_pos hguard, hlast, hfirst, hspan]
  rfl

/-- One step of the fold: the sum decides whether a profile without metrics is read, and is dropped. -/
theorem addDuration_eq (hsum : 0 ≤ sum) (p : ProfileResult Alert) :
    addDuration sum p = if 0 < sum ∧ p.metrics = [] then
      .error "Cannot read properties of undefined (reading 'timestamp')" else .ok (span p) := by
  by_cases h : p.metrics = []
  · simp only [h, and_true]
    unfold addDuration
    rw [span_of_empty h, h, List.length_nil, Nat.cast_zero, add_zero]
    rfl
  · rw [if_neg (fun hboth => h hboth.2), addDuration_of_metrics h hsum]

/-- The fold after the profile `p`. Induction on the profiles left; each step leaves the duration of
its own profile. -/
theorem foldlM_addDuration (rest : List (ProfileResult Alert)) {d : ℚ} :
    ∀ {p : ProfileResult Alert}, (∀ q ∈ p :: rest, 0 ≤ span q) →
      (rest.foldlM addDuration (span p) = .ok d ↔
        ReadsInside (p :: rest) ∧
          span ((p :: rest).getLast (List.cons_ne_nil p rest)) = d) := by
  induction rest with
  | nil =>
    intro p _
    show Except.ok (span p) = Except.ok d ↔ _
    rw [Except.ok.injEq, List.getLast_singleton, ReadsInside,
      and_iff_right (List.IsChain.singleton p)]
  | cons q rest ih =>
    intro p hspan
    have hp : 0 ≤ span p := hspan p List.mem_cons_self
    rw [List.foldlM_cons, addDuration_eq hp, ReadsInside, List.isChain_cons_cons,
      List.getLast_cons_cons]
    split
    · next hread =>
      refine iff_of_false (fun h => by cases h) ?_
      rintro ⟨⟨hmetrics, -⟩, -⟩
      exact hmetrics hread.1 hread.2
    · next hread =>
      have hmetrics : 0 < span p → q.metrics ≠ [] := fun hpos hempty => hread ⟨hpos, hempty⟩
      rw [and_assoc, and_iff_right hmetrics]
      exact ih fun q' hq' => hspan q' (List.mem_cons_of_mem p hq')

theorem sixty_each (profiles : List (ProfileResult Alert)) : ∀ {sum : ℚ},
    profiles.foldl (fun sum _ => sum + 60) sum = sum + 60 * profiles.length := by
  induction profiles with
  | nil =>
    intro sum
    simp
  | cons p rest ih =>
    intro sum
    rw [List.foldl_cons, ih, List.length_cons]
    push_cast
    ring

/-- A sum of zero seconds is replaced by a minute for each of `count` profiles. -/
def orMinutes (count : Nat) (sum : ℚ) : ℚ := if sum = 0 then 60 * count else sum

/-- What the code computes: the duration of the last profile, or minutes. -/
theorem totalDuration_eq_ok_iff {rest : List (ProfileResult Alert)} {d : ℚ}
    (hspan : ∀ q ∈ p :: rest, 0 ≤ span q) :
    totalDuration (p :: rest) = .ok d ↔
      ReadsInside (p :: rest) ∧
        orMinutes (p :: rest).length (span ((p :: rest).getLast (List.cons_ne_nil p rest))) = d := by
  have hfirst : addDuration 0 p = .ok (span p) := by
    rw [addDuration_eq le_rfl, if_neg fun h => lt_irrefl _ h.1]
  have hfold {sum : ℚ} := foldlM_addDuration rest (d := sum) hspan
  unfold totalDuration orMinutes
  rw [List.foldlM_cons, hfirst, sixty_each, zero_add]
  show (rest.foldlM addDuration (span p) >>= _) = _ ↔ _
  cases hrun : rest.foldlM addDuration (span p) with
  | error e =>
    refine iff_of_false (fun h => by cases h) ?_
    rintro ⟨hinside, -⟩
    have hok := hfold.mpr ⟨hinside, rfl⟩
    rw [hrun] at hok
    cases hok
  | ok sum =>
    obtain ⟨hinside, rfl⟩ := hfold.mp hrun
    show Except.ok (if _ then _ else _) = Except.ok d ↔ _
    rw [Except.ok.injEq, and_iff_right hinside]

/-- A profile without metrics adds nothing. -/
theorem sum_filter_span (profiles : List (ProfileResult Alert)) :
    ((profiles.filter (·.metrics ≠ [])).map span).sum = (profiles.map span).sum := by
  induction profiles with
  | nil => rfl
  | cons p rest ih =>
    by_cases hp : p.metrics = []
    · rw [List.filter_cons_of_neg (by simpa using hp), ih, List.map_cons, List.sum_cons,
        span_of_empty hp, zero_add]
    · rw [List.filter_cons_of_pos (by simpa using hp), List.map_cons, List.map_cons, List.sum_cons,
        List.sum_cons, ih]

theorem intendedDuration_eq : intendedDuration profiles
    = orMinutes profiles.length (profiles.map span).sum := by
  unfold intendedDuration orMinutes
  rw [sum_filter_span]

/-- A sum and a part of it that the minutes make the same. -/
theorem orMinutes_eq_iff {count : Nat} {a b : ℚ} (ha : 0 ≤ a) (hab : a ≤ b) :
    orMinutes count a = orMinutes count b ↔ a = b ∨ a = 0 ∧ b = 60 * count := by
  unfold orMinutes
  rcases eq_or_lt_of_le ha with rfl | hpos
  · rw [if_pos rfl]
    by_cases hb : b = 0
    · simp [hb]
    · rw [if_neg hb]
      simp [eq_comm, hb]
  · rw [if_neg hpos.ne', if_neg (lt_of_lt_of_le hpos hab).ne']
    simp [hpos.ne']

theorem orMinutes_pos {count : Nat} {sum : ℚ} (hcount : 0 < count) (hsum : 0 ≤ sum) :
    0 < orMinutes count sum := by
  unfold orMinutes
  split
  · positivity
  · next hne => exact lt_of_le_of_ne hsum (Ne.symm hne)

/-- The last profile and the others, where none runs backwards. -/
theorem lastIsAll_iff (hne : profiles ≠ []) (hspan : ∀ q ∈ profiles, 0 ≤ span q) :
    LastIsAll profiles ↔
      orMinutes profiles.length (span (profiles.getLast hne)) = intendedDuration profiles := by
  have hsum : (profiles.map span).sum
      = (profiles.dropLast.map span).sum + span (profiles.getLast hne) := by
    conv_lhs => rw [← List.dropLast_append_getLast hne]
    simp
  have hothers : ∀ x ∈ profiles.dropLast.map span, 0 ≤ x := by
    intro x hx
    obtain ⟨q, hq, rfl⟩ := List.mem_map.mp hx
    exact hspan q (List.mem_of_mem_dropLast hq)
  have hle := List.sum_nonneg hothers
  have hzero : (∀ q ∈ profiles.dropLast, span q = 0) ↔ (profiles.dropLast.map span).sum = 0 := by
    constructor
    · intro h
      exact List.sum_eq_zero fun x hx => by
        obtain ⟨q, hq, rfl⟩ := List.mem_map.mp hx
        exact h q hq
    · intro h q hq
      exact List.all_zero_of_le_zero_le_of_sum_eq_zero hothers h (List.mem_map_of_mem hq)
  have hlast : (∀ q ∈ profiles.getLast?, span q = 0) ↔ span (profiles.getLast hne) = 0 := by
    rw [List.getLast?_eq_some_getLast hne]
    simp
  rw [intendedDuration_eq, orMinutes_eq_iff (hspan _ (List.getLast_mem hne)) (by linarith), LastIsAll,
    hzero, hlast]
  refine or_congr ?_ Iff.rfl
  rw [hsum]
  constructor
  · intro h
    rw [h, zero_add]
  · intro h
    linarith

theorem lastIsAll_nil :
    ReadsInside ([] : List (ProfileResult Alert)) ∧ LastIsAll ([] : List (ProfileResult Alert)) :=
  ⟨List.IsChain.nil, .inl nofun⟩

theorem totalDuration_iff (hspan : ∀ p ∈ profiles, 0 ≤ span p) :
    totalDuration profiles = .ok (intendedDuration profiles) ↔
      ReadsInside profiles ∧ LastIsAll profiles := by
  cases profiles with
  | nil =>
    refine iff_of_true ?_ lastIsAll_nil
    simp [totalDuration, intendedDuration]
    rfl
  | cons p rest => rw [totalDuration_eq_ok_iff hspan, lastIsAll_iff (List.cons_ne_nil p rest) hspan]

/-- The duration shows in the throughput unless there was no request. -/
theorem overall_eq_iff {t : Totals} {d d' : ℚ} (hd : 0 < d) (hd' : 0 < d') :
    overall t d = overall t d' ↔ d = d' ∨ t.totalRequests = 0 := by
  unfold overall
  rw [OverallMetrics.mk.injEq, if_pos hd, if_pos hd']
  simp only [true_and]
  rw [div_eq_div_iff hd.ne' hd'.ne']
  constructor
  · intro h
    by_cases ht : t.totalRequests = 0
    · exact .inr ht
    · have hcast : (t.totalRequests : ℚ) ≠ 0 := Nat.cast_ne_zero.mpr ht
      exact .inl (mul_left_cancel₀ hcast h).symm
  · rintro (rfl | h)
    · rfl
    · simp [h]

/-- The figures come out as meant if the duration is computed and gives the same figures. -/
theorem calculateOverallMetrics_eq (result : StressTestResult Alert) :
    calculateOverallMetrics result = (.ok (), intendedResult result) ↔
      ∃ d, totalDuration result.profileResults = .ok d ∧ overall (totals result.profileResults) d
        = overall (totals result.profileResults) (intendedDuration result.profileResults) := by
  unfold calculateOverallMetrics intendedResult
  dsimp only
  cases totalDuration result.profileResults with
  | error e => simp
  | ok d => simp

theorem overall_iff (hspan : ∀ p ∈ profiles, 0 ≤ span p) :
    (∃ d, totalDuration profiles = .ok d ∧
        overall (totals profiles) d = overall (totals profiles) (intendedDuration profiles)) ↔
      ReadsInside profiles ∧ (LastIsAll profiles ∨ (totals profiles).totalRequests = 0) := by
  cases profiles with
  | nil =>
    exact iff_of_true ⟨_, (totalDuration_iff hspan).mpr lastIsAll_nil, rfl⟩
      ⟨lastIsAll_nil.1, .inl lastIsAll_nil.2⟩
  | cons p rest =>
    have hne : p :: rest ≠ [] := List.cons_ne_nil p rest
    have hintended : 0 < intendedDuration (p :: rest) := by
      rw [intendedDuration_eq]
      apply orMinutes_pos (List.length_pos_iff.mpr hne)
      apply List.sum_nonneg
      intro x hx
      obtain ⟨q, hq, rfl⟩ := List.mem_map.mp hx
      exact hspan q hq
    have hlast := orMinutes_pos (List.length_pos_iff.mpr hne) (hspan _ (List.getLast_mem hne))
    rw [lastIsAll_iff hne hspan, ← overall_eq_iff hlast hintended]
    constructor
    · rintro ⟨d, htotal, hfigures⟩
      obtain ⟨hinside, rfl⟩ := (totalDuration_eq_ok_iff hspan).mp htotal
      exact ⟨hinside, hfigures⟩
    · rintro ⟨hinside, hfigures⟩
      exact ⟨_, (totalDuration_eq_ok_iff hspan).mpr ⟨hinside, rfl⟩, hfigures⟩

end duration

/-- Where no profile runs backwards in time, the duration that the requests are divided by is the one
meant exactly if no profile without metrics comes right after one that took some time, and the last
profile took all the time there is. The same goes for the figures, which do not show the duration when
there was no request. -/
theorem calculateOverallMetrics_eq_iff (result : StressTestResult Alert)
    (hspan : ∀ p ∈ result.profileResults, 0 ≤ span p) :
    (totalDuration result.profileResults = .ok (intendedDuration result.profileResults) ↔
      ReadsInside result.profileResults ∧ LastIsAll result.profileResults) ∧
    (calculateOverallMetrics result = (.ok (), intendedResult result) ↔
      ReadsInside result.profileResults ∧
        (LastIsAll result.profileResults ∨ (totals result.profileResults).totalRequests = 0)) := by
  exact ⟨totalDuration_iff hspan, (calculateOverallMetrics_eq result).trans (overall_iff hspan)⟩

/-- A profile of ten requests in ten seconds. -/
def tenSeconds : ProfileResult Unit :=
  calculateProfileMetrics ((List.range 10).map fun n => ⟨n * 10000 / 9, 5, true⟩) 0 10

/-- A profile of one request. -/
def oneRequest : ProfileResult Unit := calculateProfileMetrics [⟨0, 5, true⟩] 0 10

/-- A profile that has no workers. -/
def noWorkers : ProfileResult Unit := calculateProfileMetrics [] 1 10

/-- A test of these profiles, before it is summed up. -/
def testOf (profiles : List (ProfileResult Unit)) : StressTestResult Unit := ⟨profiles, {}, []⟩

/-- A single request takes no time, so that the profile after it is all that counts. -/
theorem calculateOverallMetrics_one_request :
    calculateOverallMetrics (testOf [oneRequest, noWorkers, tenSeconds])
      = (.ok (), intendedResult (testOf [oneRequest, noWorkers, tenSeconds])) := by
  refine (calculateOverallMetrics_eq_iff _ (by decide +kernel)).2.mpr ⟨?_, .inl (.inl ?_)⟩
  · unfold ReadsInside
    decide +kernel
  · decide +kernel

/-- Of two profiles of ten seconds only the second is counted, which doubles the throughput; and after
the first one a profile without metrics is read outside its list. -/
theorem totalDuration_drops_profiles :
    totalDuration [tenSeconds, tenSeconds] = .ok 10 ∧
    intendedDuration [tenSeconds, tenSeconds] = 20 ∧
    (calculateOverallMetrics (testOf [tenSeconds, tenSeconds])).2.overallMetrics.overallThroughput
      = 2 ∧
    (intendedResult (testOf [tenSeconds, tenSeconds])).overallMetrics.overallThroughput = 1 ∧
    (calculateOverallMetrics (testOf [tenSeconds, noWorkers])).1
      = .error "Cannot read properties of undefined (reading 'timestamp')" ∧
    intendedDuration [tenSeconds, noWorkers] = 10 := by
  decide +kernel

end TrustLink
