import TrustLink.Effects.Path
import TrustLink.Model.World

/-!
# TrustLink — the lifecycle of an escrow

What an escrow goes through, without the code: its state and the status of its dispute (`Case`),
the transitions a state may make (`Transition`), what the parties are told on the way
(`announcements`), and what happens to the dispute meanwhile (`DisputeMove`).

A step that enters or leaves `DISPUTED` without touching the dispute is `stray`, and has to be
allowed explicitly: the code makes such steps, and the agreement of the two tables depends on
when it does.

Everything that is said about whole runs later is a fact about the paths of `Step`: the rank
only grows, so nothing is announced twice; a settled dispute stays settled; and where no step is
stray, an open dispute and the state `DISPUTED` go together.
-/

namespace TrustLink

open Effects

/-- How far a state is along the lifecycle. -/
def EscrowState.rank : EscrowState → Nat
  | .CREATED => 0
  | .FUNDED => 1
  | .SHIPPED => 2
  | .DELIVERED => 3
  | .DISPUTED => 4
  | .COMPLETED | .RELEASED | .REFUNDED | .CANCELLED => 5

theorem EscrowState.rank_le (s : EscrowState) : s.rank ≤ 5 := by
  cases s <;> decide

theorem EscrowState.mem_terminal_iff (s : EscrowState) : s ∈ TERMINAL_STATES ↔ s.rank = 5 := by
  cases s <;> decide

theorem EscrowState.not_terminal_of_disputable {s : EscrowState} (h : s ∈ DISPUTABLE_STATES) :
    s ∉ TERMINAL_STATES := by
  cases s <;> first | decide | exact absurd h (by decide)

/-- The transitions of the lifecycle. -/
inductive Transition : EscrowState → EscrowState → Prop
  | fund : Transition .CREATED .FUNDED
  | ship {s : EscrowState} (h : s = .CREATED ∨ s = .FUNDED) : Transition s .SHIPPED
  | deliver : Transition .SHIPPED .DELIVERED
  | dispute {s : EscrowState} (hopen : s ∉ TERMINAL_STATES) (hnew : s ≠ .DISPUTED) :
      Transition s .DISPUTED
  | close {s after : EscrowState} (hopen : s ∉ TERMINAL_STATES) (h : after ∈ TERMINAL_STATES) :
      Transition s after

theorem Transition.rank_lt {before after : EscrowState} (h : Transition before after) :
    before.rank < after.rank := by
  cases h with
  | fund => decide
  | ship h => rcases h with rfl | rfl <;> decide
  | deliver => decide
  | dispute hopen hnew =>
    cases before <;> first | decide | exact absurd rfl hnew | exact absurd (by decide) hopen
  | close hopen h =>
    have hbefore := before.rank_le
    rw [EscrowState.mem_terminal_iff] at hopen h
    omega

/-- Nothing leaves a terminal state. -/
theorem Transition.not_terminal {before after : EscrowState} (h : Transition before after) :
    before ∉ TERMINAL_STATES := by
  have hlt := h.rank_lt
  have hle := after.rank_le
  rw [EscrowState.mem_terminal_iff]
  omega

/-- What may be sent when a state is entered, newest first. -/
def announcements : EscrowState → List (List Notification)
  | .CREATED => []
  | .FUNDED => [[.notifyFunded]]
  | .SHIPPED => [[.notifyShipped]]
  | .DELIVERED => [[], [.notifyDelivered]]
  | .DISPUTED => [[.notifyDisputed], [.notifyDisputedAdmin, .notifyDisputed]]
  | .COMPLETED | .RELEASED => [[.notifyCompleted]]
  | .REFUNDED => [[.notifyRefunded]]
  | .CANCELLED => [[]]

/-- The rank a notification announces; the copy to the admin announces nothing of its own. -/
def Notification.level : Notification → Option Nat
  | .notifyFunded => some 1
  | .notifyShipped => some 2
  | .notifyDelivered => some 3
  | .notifyDisputed => some 4
  | .notifyDisputedAdmin => none
  | .notifyCompleted | .notifyRefunded => some 5

/-- One announcement at most, and at the rank that is entered. -/
theorem announced_once (after : EscrowState) : ∀ notes ∈ announcements after, ∀ l,
    notes.countP (fun n => n.level = some l) ≤ if after.rank = l then 1 else 0 := by
  cases after <;> simp [announcements, List.countP_cons, Notification.level, EscrowState.rank]
  all_goals exact fun l => Nat.le_of_eq (by congr)

/-- The status counts as open. -/
def DisputeStatus.isOpen (status : DisputeStatus) : Bool :=
  status = .OPEN || status = .UNDER_REVIEW

/-- What happens to the dispute of an escrow that goes from `before` to `after`. `stray` steps,
which pass through `DISPUTED` without touching the dispute, are made only where `off` holds. -/
inductive DisputeMove (off : Prop) (before after : EscrowState) :
    Option DisputeStatus → Option DisputeStatus → Prop
  | untouched {d : Option DisputeStatus} (hbefore : before ≠ .DISPUTED) (hafter : after ≠ .DISPUTED) :
      DisputeMove off before after d d
  | raised (hafter : after = .DISPUTED) : DisputeMove off before after none (some .OPEN)
  | settled {d : Option DisputeStatus} (hafter : after ∈ TERMINAL_STATES) :
      DisputeMove off before after d (some .RESOLVED)
  | undisputed {d : Option DisputeStatus} (hafter : after ∈ TERMINAL_STATES)
      (hd : ∀ status ∈ d, status.isOpen = false) : DisputeMove off before after d d
  | stray {d : Option DisputeStatus} (hoff : off) : DisputeMove off before after d d

/-- An escrow as the lifecycle sees it: its state, and the status of its dispute. -/
@[ext]
structure Case where
  state : Option EscrowState
  dispute : Option DisputeStatus
  deriving DecidableEq, Repr

/-- What is seen of a transition: the write, and then what is sent about it. -/
def shown (id : String) (before after : EscrowState) (notes : List Notification) : List Obs :=
  notes.map (.notified · id) ++ [.stateWrite id before after]

inductive Step (off : Prop) (id : String) : Case → List Obs → Case → Prop
  | stay {c : Case} : Step off id c [] c
  | create {d : Option DisputeStatus} : Step off id ⟨none, d⟩ [] ⟨some .CREATED, d⟩
  | move {before after : EscrowState} {d d' : Option DisputeStatus} {notes : List Notification}
      (h : Transition before after) (hnotes : notes ∈ announcements after)
      (hd : DisputeMove off before after d d') :
      Step off id ⟨some before, d⟩ (shown id before after notes) ⟨some after, d'⟩

/-- A whole history of an escrow. -/
abbrev History (off : Prop) (id : String) : Case → List Obs → Case → Prop := Path (Step off id)

theorem DisputeMove.mono {off off' : Prop} {before after : EscrowState}
    {d d' : Option DisputeStatus} (hoff : off → off') (h : DisputeMove off before after d d') :
    DisputeMove off' before after d d' := by
  cases h with
  | untouched hbefore hafter => exact .untouched hbefore hafter
  | raised hafter => exact .raised hafter
  | settled hafter => exact .settled hafter
  | undisputed hafter hd => exact .undisputed hafter hd
  | stray h => exact .stray (hoff h)

theorem History.mono {off off' : Prop} {id : String} {c c' : Case} {seen : List Obs}
    (hoff : off → off') (h : History off id c seen c') : History off' id c seen c' := by
  refine Path.mono ?_ h
  intro s new s' hstep
  cases hstep with
  | stay => exact .stay
  | create => exact .create
  | move ht hnotes hd => exact .move ht hnotes (hd.mono hoff)

/-! ## Progress -/

/-- The rank of a case; an escrow that does not exist yet has made no progress. -/
def Case.rank (c : Case) : Nat := c.state.elim 0 EscrowState.rank

theorem Case.rank_le (c : Case) : c.rank ≤ 5 := by
  obtain ⟨_ | s, d⟩ := c
  · exact Nat.zero_le _
  · exact s.rank_le

section progress

variable {off : Prop} {id : String} {c c' : Case} {seen : List Obs}

theorem Step.rank_le (h : Step off id c seen c') : c.rank ≤ c'.rank := by
  cases h with
  | stay => exact Nat.le_refl _
  | create => exact Nat.zero_le _
  | move h _ _ => exact Nat.le_of_lt h.rank_lt

theorem History.rank_le (h : History off id c seen c') : c.rank ≤ c'.rank :=
  h.preserves (p := fun c' => c.rank ≤ c'.rank)
    (fun _ _ _ hstep hle => Nat.le_trans hle hstep.rank_le) (Nat.le_refl _)

/-- Every write of the state that is seen climbs. -/
def Obs.climbs : Obs → Prop
  | .stateWrite _ before after => before.rank < after.rank
  | .notified _ _ => True

theorem History.climbs (h : History off id c seen c') : ∀ o ∈ seen, o.climbs := by
  refine h.forall_mem ?_
  intro s new s' hstep o ho
  cases hstep with
  | stay => cases ho
  | create => cases ho
  | move ht _ _ =>
    rcases List.mem_append.mp ho with hnote | hwrite
    · obtain ⟨n, _, rfl⟩ := List.mem_map.mp hnote
      trivial
    · rw [List.mem_singleton.mp hwrite]
      exact ht.rank_lt

def Obs.isWrite : Obs → Bool
  | .stateWrite _ _ _ => true
  | .notified _ _ => false

/-- The notification announces the rank `l`. -/
def Obs.announces (l : Nat) : Obs → Bool
  | .stateWrite _ _ _ => false
  | .notified n _ => n.level = some l

theorem shown_writes (before after : EscrowState) (notes : List Notification) :
    (shown id before after notes).countP Obs.isWrite = 1 := by
  have hnotes : (notes.map (Obs.notified · id)).countP Obs.isWrite = 0 := by
    rw [List.countP_map, List.countP_eq_zero]
    exact nofun
  rw [shown, List.countP_append, hnotes]
  rfl

theorem shown_announces (before after : EscrowState) (notes : List Notification) (l : Nat) :
    (shown id before after notes).countP (Obs.announces l)
      = notes.countP (fun n => n.level = some l) := by
  rw [shown, List.countP_append, List.countP_map]
  rfl

/-- Each write climbs at least one rank. -/
theorem History.writes_le (h : History off id c seen c') :
    c.rank + seen.countP Obs.isWrite ≤ c'.rank := by
  refine h.countP_le (f := Case.rank) ?_
  intro s new s' hstep
  cases hstep with
  | stay => exact Nat.le_refl _
  | create => exact Nat.zero_le _
  | move ht _ _ =>
    rw [shown_writes]
    exact ht.rank_lt

/-- A rank is announced when it is entered, and no rank is entered twice. -/
theorem History.announced_le (h : History off id c seen c') (l : Nat) :
    seen.countP (Obs.announces l) ≤ 1 := by
  -- the amount that pays for an announcement: the rank has been reached
  have hpaid := h.countP_le (p := Obs.announces l) (f := fun c => if l ≤ c.rank then 1 else 0) ?_
  · have hbound : (if l ≤ c'.rank then 1 else 0) ≤ 1 := by split <;> omega
    omega
  · intro s new s' hstep
    have hmono := hstep.rank_le
    cases hstep with
    | stay => exact Nat.le_refl _
    | create => exact Nat.le_refl _
    | @move before after _ _ notes ht hnotes _ =>
      rw [shown_announces]
      have hone := announced_once after notes hnotes l
      have hlt := ht.rank_lt
      show (if l ≤ before.rank then 1 else 0) + _ ≤ if l ≤ after.rank then 1 else 0
      by_cases hbefore : l ≤ before.rank
      · rw [if_neg (by omega)] at hone
        rw [if_pos hbefore, if_pos (by omega)]
        omega
      · rw [if_neg hbefore]
        by_cases hafter : after.rank = l
        · rw [if_pos hafter] at hone
          rw [if_pos (by omega)]
          omega
        · rw [if_neg hafter] at hone
          omega

end progress

/-! ## Disputes along a history -/

section disputes

variable {off : Prop} {id : String} {c c' : Case} {seen : List Obs}

/-- A settled dispute stays settled. -/
theorem History.resolved (h : History off id c seen c') (hc : c.dispute = some .RESOLVED) :
    c'.dispute = some .RESOLVED := by
  refine h.preserves (p := fun c => c.dispute = some .RESOLVED) ?_ hc
  intro s new s' hstep hs
  cases hstep with
  | stay => exact hs
  | create => exact hs
  | move _ _ hd =>
    cases hd with
    | untouched _ _ => exact hs
    | raised _ => cases hs
    | settled _ => rfl
    | undisputed _ _ => exact hs
    | stray _ => exact hs

/-- A dispute is open if and only if the state is `DISPUTED`. -/
def Case.Agrees (c : Case) : Prop :=
  (∃ status ∈ c.dispute, status.isOpen = true) ↔ c.state = some .DISPUTED

instance (c : Case) : Decidable c.Agrees :=
  inferInstanceAs (Decidable ((∃ status ∈ c.dispute, _) ↔ _))

/-- Without stray steps, agreement is kept. -/
theorem History.agrees (h : History off id c seen c') (hoff : ¬ off) (hc : c.Agrees) :
    c'.Agrees := by
  refine h.preserves (p := Case.Agrees) ?_ hc
  intro s new s' hstep hs
  cases hstep with
  | stay => exact hs
  | create => exact hs.trans ⟨nofun, nofun⟩
  | move _ _ hd =>
    cases hd with
    | untouched hbefore hafter =>
      exact hs.trans ⟨fun h => absurd (Option.some.inj h) hbefore,
        fun h => absurd (Option.some.inj h) hafter⟩
    | raised hafter =>
      rw [hafter]
      exact Iff.intro (fun _ => rfl) fun _ => ⟨_, rfl, rfl⟩
    | settled hafter =>
      constructor
      · rintro ⟨status, hstatus, hopen⟩
        obtain rfl : DisputeStatus.RESOLVED = status := Option.some.inj hstatus
        cases hopen
      · intro h
        rw [Option.some.inj h] at hafter
        exact absurd hafter (by decide)
    | undisputed hafter hd =>
      constructor
      · rintro ⟨status, hstatus, hopen⟩
        rw [hd status hstatus] at hopen
        cases hopen
      · intro h
        rw [Option.some.inj h] at hafter
        exact absurd hafter (by decide)
    | stray h => exact absurd h hoff

end disputes

end TrustLink
