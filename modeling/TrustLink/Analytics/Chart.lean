import TrustLink.Analytics.Stats
import TrustLink.Store.OrderedMap

/-!
# TrustLink — the daily volume chart

`getDailyVolumeChart` lets the database group the escrows of a window by their local calendar day,
files the groups under the text of the day, and then walks from `startDate` to `endDate` in steps of
a day to fill the gaps. The window begins at a midnight in UTC and the walk goes from one such
midnight to the next; what it looks up is the text of the local day that this midnight falls on.

The time zone is a fixed offset and the server runs in UTC. `chart_conserved_iff` compares the chart
with the window: each entry should count the escrows of its day, and all entries together the escrows
of the window. The walk stops at the last midnight in UTC, so the escrows of a later local day are
lost.
-/

namespace TrustLink

open JsNumber Store Calendar

/-- The local calendar day of a time, for a zone `offset` milliseconds ahead of UTC. -/
def localDay (offset : Int) (t : Time) : Int := (t + offset) / msPerDay

structure DailyVolumeAggRow where
  /-- A `date`, as the driver returns it: the midnight in UTC of the day. -/
  date : Time
  totalVolume : Decimal
  transactionCount : Nat
  completedCount : Nat
  disputedCount : Nat

/-- The `WHERE` of the query. -/
def chartWindow (escrows : List EscrowRow) (vendorAddress : String) (startDate endDate : Time) :
    List EscrowRow :=
  escrows.filter fun row =>
    row.vendorAddress = vendorAddress && startDate ≤ row.createdAt && row.createdAt ≤ endDate

/-- The days that have a group, `ORDER BY 1 ASC`. -/
def groupDays (offset : Int) (window : List EscrowRow) : List Int :=
  ((window.map fun row => localDay offset row.createdAt).dedup).insertionSort (· ≤ ·)

/-- The `SELECT` for the group of one day. -/
def aggregateDay (offset : Int) (window : List EscrowRow) (day : Int) : DailyVolumeAggRow :=
  let rows := group (fun row => localDay offset row.createdAt) window day
  { date := day * msPerDay
    totalVolume := (rows.map (·.amount)).sum
    transactionCount := rows.length
    completedCount := rows.countP fun row => row.state = .COMPLETED ∨ row.state = .RELEASED
    disputedCount := rows.countP fun row => row.state = .DISPUTED }

def aggregateDailyVolume (escrows : List EscrowRow) (vendorAddress : String)
    (startDate endDate : Time) (offset : Int) : List DailyVolumeAggRow :=
  let window := chartWindow escrows vendorAddress startDate endDate
  (groupDays offset window).map (aggregateDay offset window)

/-! ## The service -/

structure DailyVolumeDataDto where
  date : String
  totalVolume : Number
  transactionCount : Nat
  completedCount : Nat
  disputedCount : Nat
  averageTransactionValue : Number
  deriving DecidableEq

structure ChartDataResponse where
  data : List DailyVolumeDataDto
  /-- `period.startDate` and `period.endDate` -/
  period : String × String
  totalVolume : Number
  totalTransactions : Nat
  averageDaily : Number

/-- `value.toISOString().slice(0, 10)` -/
def toDateKey (value : Time) : String := String.ofList ((toISO value).take 10)

/-- `date.toISOString().split('T')[0]` -/
def formatDate (date : Time) : String := String.ofList ((toISO date).takeWhile (· ≠ 'T'))

/-- `date.toLocaleDateString('en-CA', { timeZone })` -/
def formatDateInTimezone (offset : Int) (date : Time) : String :=
  String.ofList (localeDate (ofDays (localDay offset date)))

def toDailyVolume (r : DailyVolumeAggRow) : DailyVolumeDataDto :=
  let totalVolume := ofRat r.totalVolume.toRat
  { date := toDateKey r.date
    totalVolume := totalVolume
    transactionCount := r.transactionCount
    completedCount := r.completedCount
    disputedCount := r.disputedCount
    averageTransactionValue :=
      if r.transactionCount > 0 then divPos totalVolume r.transactionCount else ofRat 0 }

abbrev DailyMap := OrderedMap String DailyVolumeDataDto

/-- `dailyMap.set(dateKey, …)` for every row. -/
def dailyMap (rows : List DailyVolumeAggRow) : DailyMap :=
  rows.foldl (fun m r => m.set (toDailyVolume r).date (toDailyVolume r)) .empty

/-- A day without transactions. -/
def emptyDay (dateKey : String) : DailyVolumeDataDto where
  date := dateKey
  totalVolume := ofRat 0
  transactionCount := 0
  completedCount := 0
  disputedCount := 0
  averageTransactionValue := ofRat 0

/-- The dates that `while (currentDate <= endDate)` goes through, in at most `fuel` turns. -/
def walk (endDate : Time) : Nat → Time → List Time
  | 0, _ => []
  | fuel + 1, currentDate =>
    if currentDate ≤ endDate then
      currentDate :: walk endDate fuel (setDate currentDate (getDate currentDate + 1))
    else []

/-- The loop ends after `walkFuel` turns (`walk_eq`). -/
def walkFuel (startDate endDate : Time) : Nat := ((endDate - startDate) / msPerDay + 1).toNat

def fillDateGaps (dailyMap : DailyMap) (startDate endDate : Time) (offset : Int) :
    List DailyVolumeDataDto :=
  (walk endDate (walkFuel startDate endDate) startDate).map fun currentDate =>
    let dateKey := formatDateInTimezone offset currentDate
    (dailyMap.get dateKey).getD (emptyDay dateKey)

/-- `startDate.setDate(startDate.getDate() - days + 1)`, then `setUTCHours(0, 0, 0, 0)` -/
def chartStart (now : Time) (days : Int) : Time :=
  setDate now (getDate now - days + 1) / msPerDay * msPerDay

/-- `getDailyVolumeChart`. The clock is read twice; `collate` is the order of `localeCompare`. -/
def getDailyVolumeChart (collate : String → String → Bool) (escrows : List EscrowRow)
    (vendorAddress : String) (endDate now : Time) (days : Int := 30) (offset : Int := 0) :
    ChartDataResponse :=
  let startDate := chartStart now days
  let aggregationResult := aggregateDailyVolume escrows vendorAddress startDate endDate offset
  let filledData := fillDateGaps (dailyMap aggregationResult) startDate endDate offset
  let sortedData := filledData.insertionSort fun a b => collate a.date b.date = true
  let totalVolume := sortedData.foldl (fun sum d => add sum d.totalVolume) (ofRat 0)
  { data := sortedData
    period := (formatDate startDate, formatDate endDate)
    totalVolume := totalVolume
    totalTransactions := sortedData.foldl (fun sum d => sum + d.transactionCount) 0
    averageDaily :=
      if sortedData.length > 0 then divPos totalVolume sortedData.length else ofRat 0 }

/-- The text of the local day of an escrow. -/
def dateKeyOf (offset : Int) (row : EscrowRow) : String :=
  toDateKey (localDay offset row.createdAt * msPerDay)

/-- The chart shows the window: every entry counts the escrows of its date, no date is there twice,
and the total is the number of escrows. -/
structure ShowsWindow (offset : Int) (window : List EscrowRow) (chart : ChartDataResponse) : Prop where
  counts : ∀ entry ∈ chart.data,
    entry.transactionCount = (group (dateKeyOf offset) window entry.date).length
  nodup : (chart.data.map (·.date)).Nodup
  total : chart.totalTransactions = window.length

/-- The texts the walk looks up. -/
def walkedKeys (startDate endDate : Time) (offset : Int) : List String :=
  (walk endDate (walkFuel startDate endDate) startDate).map (formatDateInTimezone offset)

/-- The walk finds every escrow's day, under a text that no other day has. -/
structure WalkFits (keys : List String) (offset : Int) (window : List EscrowRow) : Prop where
  nodup : keys.Nodup
  found : ∀ row ∈ window, dateKeyOf offset row ∈ keys
  apart : ∀ row ∈ window, ∀ row' ∈ window, dateKeyOf offset row = dateKeyOf offset row' →
    localDay offset row.createdAt = localDay offset row'.createdAt

/-! ## The walk -/

/-- The walk takes as many turns as it is given, if these are enough for it to end by itself. -/
theorem walk_eq {endDate currentDate : Int} {fuel : Nat}
    (h : walkFuel currentDate endDate ≤ fuel) :
    walk endDate fuel currentDate
      = (List.range (walkFuel currentDate endDate)).map fun j : Nat =>
          currentDate + j * msPerDay := by
  induction fuel generalizing currentDate with
  | zero =>
    rw [Nat.le_zero.mp h]
    rfl
  | succ fuel ih =>
    rw [walk]
    -- in UTC a step of `setDate` is a day of fixed length
    have hnext : setDate currentDate (getDate currentDate + 1) = currentDate + msPerDay := by
      rw [setDate_eq]
      omega
    rw [hnext]
    by_cases hle : (currentDate : Int) ≤ endDate
    · have hturn : walkFuel currentDate endDate
          = walkFuel (currentDate + msPerDay) endDate + 1 := by
        unfold walkFuel msPerDay
        omega
      rw [if_pos hle, ih (by omega), hturn, List.range_succ_eq_map, List.map_cons, List.map_map]
      congr 1
      · simp
      · apply List.map_congr_left
        intro j _
        show currentDate + msPerDay + j * msPerDay = currentDate + (j + 1 : Nat) * msPerDay
        push_cast
        unfold msPerDay
        omega
    · have hzero : walkFuel currentDate endDate = 0 := by
        unfold walkFuel msPerDay
        omega
      rw [if_neg hle, hzero]
      rfl

theorem walkedKeys_eq (startDate endDate offset : Int) :
    walkedKeys startDate endDate offset
      = (List.range (walkFuel startDate endDate)).map fun j : Nat =>
          String.ofList (localeDate (ofDays (localDay offset startDate + j))) := by
  unfold walkedKeys
  rw [walk_eq (le_refl _), List.map_map]
  apply List.map_congr_left
  intro j _
  have hday : localDay offset (startDate + j * msPerDay) = localDay offset startDate + j := by
    unfold localDay msPerDay
    omega
  show String.ofList (localeDate (ofDays (localDay offset (startDate + j * msPerDay)))) = _
  rw [hday]

/-! ## The entries -/

section entries

variable {offset : Int} {window : List EscrowRow} {key : String}

/-- The entry the chart has for a text. -/
def entryAt (offset : Int) (window : List EscrowRow) (key : String) : DailyVolumeDataDto :=
  ((dailyMap ((groupDays offset window).map (aggregateDay offset window))).get key).getD
    (emptyDay key)

theorem mem_groupDays {day : Int} :
    day ∈ groupDays offset window ↔ ∃ row ∈ window, localDay offset row.createdAt = day := by
  unfold groupDays
  rw [List.mem_insertionSort, List.mem_dedup, List.mem_map]

/-- An entry is that of a day with this text, or there is no escrow with this text. -/
theorem entryAt_cases (offset : Int) (window : List EscrowRow) (key : String) :
    (∃ day ∈ groupDays offset window, toDateKey (day * msPerDay) = key ∧
      entryAt offset window key = toDailyVolume (aggregateDay offset window day)) ∨
    ((∀ row ∈ window, dateKeyOf offset row ≠ key) ∧ entryAt offset window key = emptyDay key) := by
  unfold entryAt dailyMap
  rw [List.foldl_map]
  rcases OrderedMap.get_foldl_set
      (fun day => (toDailyVolume (aggregateDay offset window day)).date)
      (fun day => toDailyVolume (aggregateDay offset window day)) (groupDays offset window) .empty key
    with ⟨day, hday, hkey, hget⟩ | ⟨hnone, hget⟩
  · exact .inl ⟨day, hday, hkey, by rw [hget]; rfl⟩
  · refine .inr ⟨?_, by rw [hget]; rfl⟩
    intro row hrow
    exact hnone _ (mem_groupDays.mpr ⟨row, hrow, rfl⟩)

theorem entryAt_date (offset : Int) (window : List EscrowRow) (key : String) :
    (entryAt offset window key).date = key := by
  rcases entryAt_cases offset window key with ⟨day, -, hkey, hentry⟩ | ⟨-, hentry⟩
  · rw [hentry]
    exact hkey
  · rw [hentry]
    rfl

/-- The escrows of a day are among those of its text. -/
theorem group_day_eq {day : Int} (hkey : toDateKey (day * msPerDay) = key) :
    group (fun row => localDay offset row.createdAt) window day
      = (group (dateKeyOf offset) window key).filter fun row =>
          localDay offset row.createdAt = day := by
  unfold group
  rw [List.filter_filter]
  apply List.filter_congr
  intro row _
  by_cases h : localDay offset row.createdAt = day
  · have hrow : dateKeyOf offset row = key := by
      unfold dateKeyOf
      rw [h, hkey]
    simp [h, hrow]
  · simp [h]

/-- An entry counts the escrows of its text exactly if these are all of one day. -/
theorem entryAt_count_iff :
    (entryAt offset window key).transactionCount = (group (dateKeyOf offset) window key).length ↔
    ∀ row ∈ window, ∀ row' ∈ window, dateKeyOf offset row = key → dateKeyOf offset row' = key →
      localDay offset row.createdAt = localDay offset row'.createdAt := by
  have hmem : ∀ {row}, row ∈ group (dateKeyOf offset) window key ↔
      row ∈ window ∧ dateKeyOf offset row = key := by
    intro row
    unfold group
    rw [List.mem_filter, decide_eq_true_eq]
  -- the entry is that of one local day; rows of another day with the same key are not in it
  rcases entryAt_cases offset window key with ⟨day, hday, hkey, hentry⟩ | ⟨hnone, hentry⟩
  · have hcount : (entryAt offset window key).transactionCount
        = ((group (dateKeyOf offset) window key).filter fun row =>
            localDay offset row.createdAt = day).length := by
      rw [hentry, ← group_day_eq hkey]
      rfl
    rw [hcount, List.length_filter_eq_length_iff]
    constructor
    · intro hall row hrow row' hrow' hk hk'
      have h := of_decide_eq_true (hall row (hmem.mpr ⟨hrow, hk⟩))
      have h' := of_decide_eq_true (hall row' (hmem.mpr ⟨hrow', hk'⟩))
      rw [h, h']
    · intro hsame row hrow
      obtain ⟨first, hfirst, rfl⟩ := mem_groupDays.mp hday
      obtain ⟨hrow, hk⟩ := hmem.mp hrow
      exact decide_eq_true (hsame row hrow first hfirst hk hkey)
  · have hempty : group (dateKeyOf offset) window key = [] := by
      unfold group
      rw [List.filter_eq_nil_iff]
      intro row hrow
      rw [decide_eq_true_eq]
      exact hnone row hrow
    rw [hentry, hempty]
    exact ⟨fun _ row hrow _ _ hk => absurd hk (hnone row hrow), fun _ => rfl⟩

end entries

/-! ## The chart and the window -/

section chart

variable (collate : String → String → Bool) (escrows : List EscrowRow) (vendorAddress : String)
  (endDate now : Time) (days offset : Int)

/-- The chart has an entry for each text of the walk, in some order. -/
theorem chart_data_perm :
    (getDailyVolumeChart collate escrows vendorAddress endDate now days offset).data.Perm
      ((walkedKeys (chartStart now days) endDate offset).map (entryAt offset
        (chartWindow escrows vendorAddress (chartStart now days) endDate))) := by
  unfold getDailyVolumeChart
  dsimp only
  refine (List.perm_insertionSort _ _).trans ?_
  unfold walkedKeys
  rw [List.map_map]
  exact List.Perm.refl _

theorem chart_total :
    (getDailyVolumeChart collate escrows vendorAddress endDate now days offset).totalTransactions
      = ((walkedKeys (chartStart now days) endDate offset).map fun key => (entryAt offset
          (chartWindow escrows vendorAddress (chartStart now days) endDate) key).transactionCount).sum
    := by
  have hperm := chart_data_perm collate escrows vendorAddress endDate now days offset
  have hsum := (hperm.map (·.transactionCount)).sum_eq
  rw [List.map_map] at hsum
  refine Eq.trans ?_ hsum
  exact (Lists.foldl_add (fun _ _ => rfl) _ 0).trans (Nat.zero_add _)

theorem conserved_iff_fits :
    ShowsWindow offset (chartWindow escrows vendorAddress (chartStart now days) endDate)
      (getDailyVolumeChart collate escrows vendorAddress endDate now days offset) ↔
    WalkFits (walkedKeys (chartStart now days) endDate offset) offset
      (chartWindow escrows vendorAddress (chartStart now days) endDate) := by
  have hperm := chart_data_perm collate escrows vendorAddress endDate now days offset
  have htotal := chart_total collate escrows vendorAddress endDate now days offset
  generalize getDailyVolumeChart collate escrows vendorAddress endDate now days offset = chart at *
  generalize chartWindow escrows vendorAddress (chartStart now days) endDate = window at *
  generalize walkedKeys (chartStart now days) endDate offset = keys at *
  have hdates : (chart.data.map (·.date)).Perm keys := by
    have h := hperm.map (·.date)
    rw [List.map_map] at h
    have hid : ((·.date) ∘ entryAt offset window : String → String) = id :=
      funext fun key => entryAt_date offset window key
    rwa [hid, List.map_id] at h
  have hcounts : (∀ entry ∈ chart.data,
      entry.transactionCount = (group (dateKeyOf offset) window entry.date).length) ↔
      ∀ key ∈ keys, (entryAt offset window key).transactionCount
        = (group (dateKeyOf offset) window key).length := by
    constructor
    · intro h key hkey
      have hentry := h _ (hperm.mem_iff.mpr (List.mem_map_of_mem hkey))
      rwa [entryAt_date] at hentry
    · intro h entry hentry
      obtain ⟨key, hkey, rfl⟩ := List.mem_map.mp (hperm.mem_iff.mp hentry)
      rw [entryAt_date]
      exact h key hkey
  -- the groups of the walked texts hold the escrows with a walked text
  have hsizes : keys.Nodup → (∀ key ∈ keys, (entryAt offset window key).transactionCount
      = (group (dateKeyOf offset) window key).length) →
      chart.totalTransactions = (window.filter fun row => dateKeyOf offset row ∈ keys).length := by
    intro hnodup h
    rw [htotal, List.map_congr_left h, sum_length_groups _ hnodup]
  constructor
  · intro hc
    have hnodup : keys.Nodup := hdates.nodup_iff.mp hc.nodup
    have hkeys := hcounts.mp hc.counts
    have hfound : ∀ row ∈ window, dateKeyOf offset row ∈ keys := by
      have hlength := (hsizes hnodup hkeys).symm.trans hc.total
      rw [List.length_filter_eq_length_iff] at hlength
      exact fun row hrow => of_decide_eq_true (hlength row hrow)
    refine ⟨hnodup, hfound, ?_⟩
    intro row hrow row' hrow' heq
    exact entryAt_count_iff.mp (hkeys _ (hfound row hrow)) row hrow row' hrow' rfl heq.symm
  · intro hf
    have hkeys : ∀ key ∈ keys, (entryAt offset window key).transactionCount
        = (group (dateKeyOf offset) window key).length := by
      intro key _
      refine entryAt_count_iff.mpr fun row hrow row' hrow' hk hk' => ?_
      exact hf.apart row hrow row' hrow' (hk.trans hk'.symm)
    refine ⟨hcounts.mpr hkeys, hdates.nodup_iff.mpr hf.nodup, ?_⟩
    rw [hsizes hf.nodup hkeys, List.length_filter_eq_length_iff]
    exact fun row hrow => decide_eq_true (hf.found row hrow)

end chart

/-! ## Four-digit years -/

/-- The local days from one time to another are in years that are written with four digits. -/
def FourDigits (offset : Int) (startDate endDate : Time) : Prop :=
  ∀ z, localDay offset startDate ≤ z → z ≤ localDay offset endDate →
    1000 ≤ (ofDays z).year ∧ (ofDays z).year ≤ 9999

theorem toDateKey_eq {z : Int} (h : 1000 ≤ (ofDays z).year ∧ (ofDays z).year ≤ 9999) :
    toDateKey (z * msPerDay) = String.ofList (isoDate (ofDays z)) := by
  have hday : z * msPerDay / msPerDay = z := Int.mul_ediv_cancel z (by decide)
  unfold toDateKey toISO
  rw [hday, List.append_assoc, List.take_left' (length_isoDate (by omega) h.2)]

theorem isoKey_inj {z z' : Int} (h : 1000 ≤ (ofDays z).year ∧ (ofDays z).year ≤ 9999)
    (h' : 1000 ≤ (ofDays z').year ∧ (ofDays z').year ≤ 9999)
    (heq : String.ofList (isoDate (ofDays z)) = String.ofList (isoDate (ofDays z'))) : z = z' :=
  isoDate_ofDays_inj (by omega) h.2 (by omega) h'.2 (String.ofList_injective heq)

section fourDigits

variable {offset startDate endDate : Int} {window : List EscrowRow}

/-- The walk has the texts of the local days from that of the first midnight to that of the last. -/
theorem mem_walkedKeys_iff (hyears : FourDigits offset startDate endDate) {first : Int}
    (hstart : startDate = first * msPerDay) (hle : startDate ≤ endDate) {z : Int}
    (hlow : localDay offset startDate ≤ z) (hhigh : z ≤ localDay offset endDate) :
    toDateKey (z * msPerDay) ∈ walkedKeys startDate endDate offset ↔
      z ≤ localDay offset (endDate / msPerDay * msPerDay) := by
  -- the number of turns, counted in days
  have hturns : (walkFuel startDate endDate : Int)
      = localDay offset (endDate / msPerDay * msPerDay) - localDay offset startDate + 1 := by
    unfold walkFuel localDay msPerDay at *
    omega
  have hlast : localDay offset (endDate / msPerDay * msPerDay) ≤ localDay offset endDate := by
    unfold localDay msPerDay
    omega
  rw [walkedKeys_eq, toDateKey_eq (hyears z hlow hhigh), List.mem_map]
  constructor
  · rintro ⟨j, hj, heq⟩
    rw [List.mem_range] at hj
    have hyear := hyears (localDay offset startDate + j) (by omega) (by omega)
    rw [localeDate_eq_isoDate hyear.1 hyear.2] at heq
    have hz := isoKey_inj hyear (hyears z hlow hhigh) heq
    omega
  · intro hz
    refine ⟨(z - localDay offset startDate).toNat, List.mem_range.mpr (by omega), ?_⟩
    have hday : localDay offset startDate + ((z - localDay offset startDate).toNat : Int) = z := by
      omega
    have hyear := hyears z hlow hhigh
    rw [hday, localeDate_eq_isoDate hyear.1 hyear.2]

theorem walkedKeys_nodup (hyears : FourDigits offset startDate endDate) {first : Int}
    (hstart : startDate = first * msPerDay) : (walkedKeys startDate endDate offset).Nodup := by
  rw [walkedKeys_eq]
  refine List.Nodup.map_on ?_ List.nodup_range
  have hyear : ∀ j ∈ List.range (walkFuel startDate endDate),
      1000 ≤ (ofDays (localDay offset startDate + j)).year ∧
      (ofDays (localDay offset startDate + j)).year ≤ 9999 := by
    intro j hj
    rw [List.mem_range] at hj
    apply hyears
    · omega
    · unfold walkFuel localDay msPerDay at *
      omega
  intro j hj j' hj' heq
  have hy := hyear j hj
  have hy' := hyear j' hj'
  rw [localeDate_eq_isoDate hy.1 hy.2, localeDate_eq_isoDate hy'.1 hy'.2] at heq
  have hsame := isoKey_inj hy hy' heq
  omega

/-- With four-digit years the walk fits unless an escrow was created on a later local day than that
of the last midnight in UTC. -/
theorem fits_iff (hyears : FourDigits offset startDate endDate) (first : Int)
    (hstart : startDate = first * msPerDay)
    (hwindow : ∀ row ∈ window, startDate ≤ row.createdAt ∧ row.createdAt ≤ endDate) :
    WalkFits (walkedKeys startDate endDate offset) offset window ↔
    ∀ row ∈ window,
      localDay offset row.createdAt ≤ localDay offset (endDate / msPerDay * msPerDay) := by
  have hrange : ∀ row ∈ window, startDate ≤ endDate ∧
      localDay offset startDate ≤ localDay offset row.createdAt ∧
      localDay offset row.createdAt ≤ localDay offset endDate := by
    intro row hrow
    have hlow : startDate ≤ row.createdAt := (hwindow row hrow).1
    have hhigh : endDate ≥ row.createdAt := (hwindow row hrow).2
    unfold localDay msPerDay
    omega
  -- a key is walked exactly if its day is not after the day of the last midnight
  have hfound : ∀ row ∈ window, (dateKeyOf offset row ∈ walkedKeys startDate endDate offset ↔
      localDay offset row.createdAt ≤ localDay offset (endDate / msPerDay * msPerDay)) := by
    intro row hrow
    obtain ⟨hle, hlow, hhigh⟩ := hrange row hrow
    exact mem_walkedKeys_iff hyears hstart hle hlow hhigh
  constructor
  · intro hf row hrow
    exact (hfound row hrow).mp (hf.found row hrow)
  · intro hall
    refine ⟨walkedKeys_nodup hyears hstart, fun row hrow => (hfound row hrow).mpr (hall row hrow), ?_⟩
    intro row hrow row' hrow' heq
    have hy := hyears _ (hrange row hrow).2.1 (hrange row hrow).2.2
    have hy' := hyears _ (hrange row' hrow').2.1 (hrange row' hrow').2.2
    unfold dateKeyOf at heq
    rw [toDateKey_eq hy, toDateKey_eq hy'] at heq
    exact isoKey_inj hy hy' heq

end fourDigits

/-- For every vendor, all escrows, every time, every number of days and every offset, the chart shows
the escrows of its window exactly if the walk finds the text of every escrow's local day, once, and
no two of these days share a text. With years of four digits, this is so exactly if no escrow of the
window was created on a local day after that of the last midnight in UTC. -/
theorem chart_conserved_iff (collate : String → String → Bool) (escrows : List EscrowRow)
    (vendorAddress : String) (endDate now : Time) (days offset : Int) :
    (ShowsWindow offset (chartWindow escrows vendorAddress (chartStart now days) endDate)
        (getDailyVolumeChart collate escrows vendorAddress endDate now days offset) ↔
      WalkFits (walkedKeys (chartStart now days) endDate offset) offset
        (chartWindow escrows vendorAddress (chartStart now days) endDate)) ∧
    (FourDigits offset (chartStart now days) endDate →
      (ShowsWindow offset (chartWindow escrows vendorAddress (chartStart now days) endDate)
        (getDailyVolumeChart collate escrows vendorAddress endDate now days offset) ↔
      ∀ row ∈ chartWindow escrows vendorAddress (chartStart now days) endDate,
        localDay offset row.createdAt ≤ localDay offset (endDate / msPerDay * msPerDay))) := by
  have hiff := conserved_iff_fits collate escrows vendorAddress endDate now days offset
  refine ⟨hiff, fun hyears => hiff.trans ?_⟩
  refine fits_iff hyears (setDate now (getDate now - days + 1) / msPerDay) rfl ?_
  intro row hrow
  have hwhere := (List.mem_filter.mp hrow).2
  simp only [Bool.and_eq_true, decide_eq_true_eq] at hwhere
  exact ⟨hwhere.1.2, hwhere.2⟩

/-- The lamp, created on 2026-11-16 at 11:00 in UTC. -/
def Db.novemberLamp : EscrowRow := { Db.lampEscrow .CREATED with createdAt := 1794826800000 }

/-- An hour later, in UTC. -/
theorem chart_conserved_utc :
    let chart := getDailyVolumeChart (fun a b => a ≤ b) [Db.novemberLamp] "vendor" 1794830400000
      1794830400000 7 0
    ShowsWindow 0 (chartWindow [Db.novemberLamp] "vendor" (chartStart 1794830400000 7) 1794830400000)
      chart := by
  refine ((chart_conserved_iff _ [Db.novemberLamp] "vendor" 1794830400000 1794830400000 7 0).2
    ?_).mpr (by decide +kernel)
  -- seven days of November
  have hfirst : localDay 0 (chartStart 1794830400000 7) = 20767 := by decide +kernel
  have hlast : localDay 0 1794830400000 = 20773 := by decide +kernel
  intro z hlow hhigh
  rw [hfirst] at hlow
  rw [hlast] at hhigh
  obtain ⟨j, rfl⟩ : ∃ j : Fin 7, z = 20767 + (j : Nat) :=
    ⟨⟨(z - 20767).toNat, by omega⟩, by dsimp only; omega⟩
  revert j
  decide +kernel

/-- The same in a zone five hours behind UTC: the midnight of the day is on the day before there, and
the escrow of today is neither in an entry nor in the total. -/
theorem chart_loses_today :
    (getDailyVolumeChart (fun a b => a ≤ b) [Db.novemberLamp] "vendor" 1794830400000 1794830400000 7
      (-18000000)).totalTransactions = 0 ∧
    (chartWindow [Db.novemberLamp] "vendor" (chartStart 1794830400000 7) 1794830400000).length
      = 1 := by
  decide +kernel

end TrustLink
