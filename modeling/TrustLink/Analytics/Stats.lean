import Mathlib.Algebra.Order.Monoid.Unbundled.WithTop
import Mathlib.Tactic.Abel
import TrustLink.Model.Prisma
import TrustLink.Numeric.Arithmetic
import TrustLink.Numeric.Calendar
import TrustLink.Store.GroupBy
import TrustLink.Data.Lists

/-!
# TrustLink — a vendor's statistics

`getTransactionStats` does not read the vendor's escrows one by one: the database groups them by
state, and the service adds up a count and a sum for each group. `stats_of_groups` says that this is
the same as going through the rows, for every list of rows and every order of the groups.

A running total is an element of a commutative monoid here (`StatTotals`), so that the loop over the
groups and the loop over the rows are two sums of it: one of `contribution`s of a whole group, one
of `contribution`s of single rows. Decimals are exact, as `decimal.js` keeps them up to its
precision.
-/

namespace TrustLink

open JsNumber Store Calendar

instance : Zero Decimal := ⟨⟨0⟩⟩

/-- `a.plus(b)` -/
instance : Add Decimal := ⟨fun a b => ⟨a.units + b.units⟩⟩

@[simp] theorem Decimal.add_units (a b : Decimal) : (a + b).units = a.units + b.units := rfl

theorem Decimal.ext {a b : Decimal} (h : a.units = b.units) : a = b := by
  cases a
  cases b
  exact congrArg Decimal.mk h

instance : AddCommMonoid Decimal where
  add_assoc a b c := Decimal.ext (add_assoc a.units b.units c.units)
  zero_add a := Decimal.ext (zero_add a.units)
  add_zero a := Decimal.ext (add_zero a.units)
  add_comm a b := Decimal.ext (add_comm a.units b.units)
  nsmul := nsmulRec

/-- A number that is a count, or `NaN` (`⊥`). -/
abbrev Count := WithBot Nat

/-- `_count?: number | { _all?: number }` -/
inductive GroupCount where
  | absent
  | number (n : Nat)
  | object (all : Option Nat)
  deriving DecidableEq

/-- `Number(typeof _count === 'object' ? _count?._all : (_count ?? 0))` -/
def GroupCount.toNumber : GroupCount → Count
  | .absent => (0 : Nat)
  | .number n => n
  | .object (some n) => n
  | .object none => ⊥

/-- One row of `escrow.groupBy({ by: ['state'] })`. -/
structure AnalyticsEscrowStateGroup where
  state : EscrowState
  count : GroupCount
  /-- `_sum?: { amount?: Decimal | null } | null` -/
  sum : Option (Option Decimal)

def decimalZero : Decimal := 0

def decimalAdd (total : Decimal) (value : Option Decimal) : Decimal :=
  match value with
  | none => total
  | some value => total + value

def activeStates : List EscrowState := [.CREATED, .FUNDED, .SHIPPED, .DELIVERED]

/-- The accumulators of `getTransactionStats`. -/
@[ext] structure StatTotals where
  totalVolume : Decimal
  activeVolume : Decimal
  totalTransactions : Count
  activeTransactions : Count
  completedTransactions : Count
  disputedTransactions : Count
  cancelledTransactions : Count

namespace StatTotals

def zero : StatTotals := ⟨decimalZero, decimalZero, 0, 0, 0, 0, 0⟩

/-- One turn of the loop over the groups. -/
def addGroup (t : StatTotals) (group : AnalyticsEscrowStateGroup) : StatTotals :=
  let count := group.count.toNumber
  let sum := group.sum.join
  { totalTransactions := t.totalTransactions + count
    totalVolume := decimalAdd t.totalVolume sum
    activeTransactions :=
      if group.state ∈ activeStates then t.activeTransactions + count else t.activeTransactions
    activeVolume :=
      if group.state ∈ activeStates then decimalAdd t.activeVolume sum else t.activeVolume
    completedTransactions :=
      if group.state = .COMPLETED ∨ group.state = .RELEASED then t.completedTransactions + count
      else t.completedTransactions
    disputedTransactions :=
      if group.state = .DISPUTED then t.disputedTransactions + count else t.disputedTransactions
    cancelledTransactions :=
      if group.state = .CANCELLED then t.cancelledTransactions + count
      else t.cancelledTransactions }

/-- The totals after the loop. -/
def ofGroups (groups : List AnalyticsEscrowStateGroup) : StatTotals := groups.foldl addGroup zero

/-- What a single escrow adds, when the rows are counted one by one. -/
def addRow (t : StatTotals) (row : EscrowRow) : StatTotals where
  totalTransactions := t.totalTransactions + 1
  totalVolume := t.totalVolume + row.amount
  activeTransactions :=
    if row.state ∈ activeStates then t.activeTransactions + 1 else t.activeTransactions
  activeVolume := if row.state ∈ activeStates then t.activeVolume + row.amount else t.activeVolume
  completedTransactions :=
    if row.state = .COMPLETED ∨ row.state = .RELEASED then t.completedTransactions + 1
    else t.completedTransactions
  disputedTransactions :=
    if row.state = .DISPUTED then t.disputedTransactions + 1 else t.disputedTransactions
  cancelledTransactions :=
    if row.state = .CANCELLED then t.cancelledTransactions + 1 else t.cancelledTransactions

/-- The totals row by row. -/
def ofRows (rows : List EscrowRow) : StatTotals := rows.foldl addRow zero

end StatTotals

/-! ## The response -/

structure TransactionStatsDto where
  totalVolume : Number
  activeVolume : Number
  totalTransactions : Count
  activeTransactions : Count
  completedTransactions : Count
  completionRate : Number
  disputedTransactions : Count
  disputeRate : Number
  averageTransactionValue : Number
  cancelledTransactions : Count

structure ChannelMetricsDto where
  emailEnabled : Bool
  smsEnabled : Bool

structure AnalyticsStatsResponse where
  stats : TransactionStatsDto
  channels : ChannelMetricsDto
  lastUpdated : String

def DEFAULT_NOTIFICATION_CHANNELS : List String := ["EMAIL"]

/-- `value.toNumber()` -/
def decimalToNumber (value : ℚ) : Number := ofRat value

/-- `(part / total) * 100` -/
def percentage (part total : Nat) : Number := mulPos (divPos (ofRat part) total) 100

/-- The number of significant digits `decimal.js` keeps. -/
def DECIMAL_PRECISION : Nat := 20

/-- `getTransactionStats`, from the groups, the vendor's channels and the clock. -/
def getTransactionStats (groups : List AnalyticsEscrowStateGroup)
    (notificationChannels : Option (List String)) (now : Time) : AnalyticsStatsResponse :=
  let totals := StatTotals.ofGroups groups
  let stats : TransactionStatsDto :=
    { totalVolume := decimalToNumber totals.totalVolume.toRat
      activeVolume := decimalToNumber totals.activeVolume.toRat
      totalTransactions := totals.totalTransactions
      activeTransactions := totals.activeTransactions
      completedTransactions := totals.completedTransactions
      completionRate := ofRat 0
      disputedTransactions := totals.disputedTransactions
      disputeRate := ofRat 0
      averageTransactionValue := ofRat 0
      cancelledTransactions := totals.cancelledTransactions }
  let rate (part : Count) (total : Nat) : Number :=
    match part with
    | none => .nan
    | some part => percentage part total
  let stats := match stats.totalTransactions with
    -- `NaN > 0` is false
    | none | some 0 => stats
    | some total =>
      { stats with
        completionRate := rate stats.completedTransactions total
        disputeRate := rate stats.disputedTransactions total
        averageTransactionValue :=
          decimalToNumber (significant DECIMAL_PRECISION (totals.totalVolume.toRat / total)) }
  let channels := notificationChannels.getD DEFAULT_NOTIFICATION_CHANNELS
  { stats := stats
    channels := ⟨channels.contains "EMAIL", channels.contains "SMS"⟩
    lastUpdated := String.ofList (toISO now) }

/-! ## Groups and rows -/

/-- The groups the database may return for the rows, in any order: every state once that some row
has, with the number of its rows and their sum; a sum of zero may be absent or null. -/
structure IsGroupBy (rows : List EscrowRow) (groups : List AnalyticsEscrowStateGroup) : Prop where
  nodup : (groups.map (·.state)).Nodup
  cover : ∀ row ∈ rows, row.state ∈ groups.map (·.state)
  count : ∀ g ∈ groups,
    g.count.toNumber = ((group (·.state) rows g.state).length : Count)
  sum : ∀ g ∈ groups,
    g.sum.join.getD 0 = ((group (·.state) rows g.state).map (·.amount)).sum

namespace StatTotals

instance : Zero StatTotals := ⟨zero⟩

instance : Add StatTotals where
  add a b :=
    { totalVolume := a.totalVolume + b.totalVolume
      activeVolume := a.activeVolume + b.activeVolume
      totalTransactions := a.totalTransactions + b.totalTransactions
      activeTransactions := a.activeTransactions + b.activeTransactions
      completedTransactions := a.completedTransactions + b.completedTransactions
      disputedTransactions := a.disputedTransactions + b.disputedTransactions
      cancelledTransactions := a.cancelledTransactions + b.cancelledTransactions }

instance : AddCommMonoid StatTotals where
  add_assoc a b c := StatTotals.ext (add_assoc ..) (add_assoc ..) (add_assoc ..) (add_assoc ..)
    (add_assoc ..) (add_assoc ..) (add_assoc ..)
  zero_add a := StatTotals.ext (zero_add _) (zero_add _) (zero_add _) (zero_add _) (zero_add _)
    (zero_add _) (zero_add _)
  add_zero a := StatTotals.ext (add_zero _) (add_zero _) (add_zero _) (add_zero _) (add_zero _)
    (add_zero _) (add_zero _)
  add_comm a b := StatTotals.ext (add_comm ..) (add_comm ..) (add_comm ..) (add_comm ..)
    (add_comm ..) (add_comm ..) (add_comm ..)
  nsmul := nsmulRec

/-- What `count` escrows of one state, worth `sum` together, add to the totals. -/
def contribution (state : EscrowState) (count : Count) (sum : Decimal) : StatTotals where
  totalVolume := sum
  activeVolume := if state ∈ activeStates then sum else 0
  totalTransactions := count
  activeTransactions := if state ∈ activeStates then count else 0
  completedTransactions := if state = .COMPLETED ∨ state = .RELEASED then count else 0
  disputedTransactions := if state = .DISPUTED then count else 0
  cancelledTransactions := if state = .CANCELLED then count else 0

theorem add_ite {M : Type} [AddCommMonoid M] (p : Prop) [Decidable p] (a b : M) :
    (if p then a + b else a) = a + if p then b else 0 := by
  split
  · rfl
  · exact (add_zero a).symm

theorem decimalAdd_eq (total : Decimal) (value : Option Decimal) :
    decimalAdd total value = total + value.getD 0 := by
  cases value with
  | none => exact (add_zero total).symm
  | some value => rfl

theorem addGroup_eq (t : StatTotals) (g : AnalyticsEscrowStateGroup) :
    t.addGroup g = t + contribution g.state g.count.toNumber (g.sum.join.getD 0) := by
  unfold addGroup
  simp only [decimalAdd_eq]
  exact StatTotals.ext rfl (add_ite ..) rfl (add_ite ..) (add_ite ..) (add_ite ..) (add_ite ..)

theorem addRow_eq (t : StatTotals) (row : EscrowRow) :
    t.addRow row = t + contribution row.state 1 row.amount :=
  StatTotals.ext rfl (add_ite ..) rfl (add_ite ..) (add_ite ..) (add_ite ..) (add_ite ..)

theorem ofGroups_eq (groups : List AnalyticsEscrowStateGroup) :
    ofGroups groups = (groups.map fun g =>
      contribution g.state g.count.toNumber (g.sum.join.getD 0)).sum :=
  (Lists.foldl_add addGroup_eq groups 0).trans (zero_add _)

theorem ofRows_eq (rows : List EscrowRow) :
    ofRows rows = (rows.map fun row => contribution row.state 1 row.amount).sum :=
  (Lists.foldl_add addRow_eq rows 0).trans (zero_add _)

theorem contribution_add (state : EscrowState) (m n : Count) (a b : Decimal) :
    contribution state (m + n) (a + b) = contribution state m a + contribution state n b :=
  StatTotals.ext rfl (ite_add_zero ..) rfl (ite_add_zero ..) (ite_add_zero ..) (ite_add_zero ..)
    (ite_add_zero ..)

theorem contribution_zero (state : EscrowState) : contribution state 0 0 = 0 :=
  StatTotals.ext rfl (ite_self _) rfl (ite_self _) (ite_self _) (ite_self _) (ite_self _)

/-- Rows of one state add what a group of them adds. -/
theorem sum_contribution {state : EscrowState} {rows : List EscrowRow}
    (h : ∀ row ∈ rows, row.state = state) :
    (rows.map fun row => contribution row.state 1 row.amount).sum
      = contribution state (rows.length : Count) (rows.map (·.amount)).sum := by
  induction rows with
  | nil => exact (contribution_zero state).symm
  | cons row rows ih =>
    rw [List.map_cons, List.sum_cons, ih fun r hr => h r (List.mem_cons_of_mem _ hr),
      h row List.mem_cons_self, ← contribution_add, List.map_cons, List.sum_cons, List.length_cons,
      Nat.cast_succ, add_comm (1 : Count)]

theorem ofGroups_eq_ofRows {rows : List EscrowRow} {groups : List AnalyticsEscrowStateGroup}
    (h : IsGroupBy rows groups) : ofGroups groups = ofRows rows := by
  have hgroup : ∀ g ∈ groups, contribution g.state g.count.toNumber (g.sum.join.getD 0)
      = ((group (·.state) rows g.state).map fun row => contribution row.state 1 row.amount).sum := by
    intro g hg
    rw [h.count g hg, h.sum g hg, sum_contribution]
    intro row hrow
    exact of_decide_eq_true (List.mem_filter.mp hrow).2
  rw [ofGroups_eq, ofRows_eq, List.map_congr_left hgroup,
    ← sum_groups (·.state) (fun row : EscrowRow => contribution row.state 1 row.amount) h.nodup
      h.cover, List.map_map]
  rfl

/-- The transactions of the five classes, the refunded ones counted from the rows. -/
def classes (t : StatTotals) (rows : List EscrowRow) : Count :=
  t.activeTransactions + t.completedTransactions + t.disputedTransactions +
    t.cancelledTransactions + ((group (·.state) rows .REFUNDED).length : Count)

/-- A state belongs to exactly one of the classes. -/
theorem classes_single (row : EscrowRow) :
    (contribution row.state 1 row.amount).classes [row] = 1 := by
  obtain ⟨fields, amount⟩ := row
  cases hstate : fields.state <;> simp [classes, contribution, group, activeStates, hstate]

theorem classes_add (a b : StatTotals) (row : EscrowRow) (rows : List EscrowRow) :
    (a + b).classes (row :: rows) = a.classes [row] + b.classes rows := by
  have hrefunded : group (·.state) (row :: rows) .REFUNDED
      = group (·.state) [row] .REFUNDED ++ group (·.state) rows EscrowState.REFUNDED := by
    unfold group
    rw [← List.filter_append]
    rfl
  unfold classes
  rw [hrefunded, List.length_append, Nat.cast_add]
  show a.activeTransactions + b.activeTransactions
      + (a.completedTransactions + b.completedTransactions)
      + (a.disputedTransactions + b.disputedTransactions)
      + (a.cancelledTransactions + b.cancelledTransactions) + (_ + _) = _
  abel

theorem classes_ofRows (rows : List EscrowRow) :
    (ofRows rows).classes rows = (ofRows rows).totalTransactions := by
  rw [ofRows_eq]
  induction rows with
  | nil => rfl
  | cons row rows ih =>
    rw [List.map_cons, List.sum_cons, classes_add, classes_single, ih]
    rfl

end StatTotals

/-- For every list of a vendor's escrows and all groups the database may return for it, in any
order: what the loop over the groups has added up is what the loop over the rows adds up, and the
active, completed, disputed, cancelled and refunded escrows are all of them. -/
theorem stats_of_groups {rows : List EscrowRow} {groups : List AnalyticsEscrowStateGroup}
    (h : IsGroupBy rows groups) :
    StatTotals.ofGroups groups = StatTotals.ofRows rows ∧
    (StatTotals.ofGroups groups).classes rows = (StatTotals.ofGroups groups).totalTransactions := by
  have hsame := StatTotals.ofGroups_eq_ofRows h
  refine ⟨hsame, ?_⟩
  rw [hsame]
  exact StatTotals.classes_ofRows rows

/-- A disputed lamp and two refunded ones. -/
theorem stats_of_groups_lamps :
    let rows := [EscrowState.REFUNDED, .DISPUTED, .REFUNDED].map Db.lampEscrow
    let groups : List AnalyticsEscrowStateGroup :=
      [⟨.DISPUTED, .object (some 1), some (some ⟨1⟩)⟩, ⟨.REFUNDED, .number 2, some (some ⟨2⟩)⟩]
    StatTotals.ofGroups groups = StatTotals.ofRows rows ∧
    (StatTotals.ofGroups groups).classes rows = (StatTotals.ofGroups groups).totalTransactions :=
  stats_of_groups
    { nodup := by decide
      cover := by decide
      count := by decide
      sum := by decide }

end TrustLink
