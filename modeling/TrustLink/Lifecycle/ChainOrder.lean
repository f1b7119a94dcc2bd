import TrustLink.Lifecycle.Retry
import Mathlib.Data.List.MinMax
import Mathlib.Data.Multiset.Basic

/-!
# TrustLink — chain events in any order

Soroban events of one escrow may be delivered more than once and in any order. Each of them asks
for a state (`SorobanChainEvent.target`), and `syncStateFromChain` moves the escrow there if that is
progress: of the stored state and the target it keeps the later one (`EscrowState.later`).

So a run keeps the first of the latest of all of them, Mathlib's `List.argmax` by rank. It does not
depend on the order as long as no two of them are different and equally late, which below the
terminal states cannot happen.
-/

namespace TrustLink

open Effects EscrowService

/-! ## The later of two states -/

/-- The state that is kept: the new one if it is further along. -/
def EscrowState.later (s t : EscrowState) : EscrowState := if s.rank < t.rank then t else s

theorem EscrowState.later_of_lt {s t : EscrowState} (h : s.rank < t.rank) : s.later t = t :=
  if_pos h

theorem EscrowState.later_of_le {s t : EscrowState} (h : t.rank ≤ s.rank) : s.later t = s :=
  if_neg (Nat.not_lt.mpr h)

/-- A run of them is the first of the latest. -/
theorem argmax_later (s : EscrowState) (ts : List EscrowState) :
    (s :: ts).argmax EscrowState.rank = some (ts.foldl EscrowState.later s) := by
  show ts.foldl (List.argAux fun b c => c.rank < b.rank) (some s) = _
  induction ts generalizing s with
  | nil => rfl
  | cons t ts ih =>
    rw [List.foldl_cons, List.foldl_cons, ← ih]
    congr 1
    show (if s.rank < t.rank then some t else some s) = some (if s.rank < t.rank then t else s)
    split
    · rfl
    · rfl

/-- Below the terminal states the rank tells the state. -/
theorem EscrowState.eq_of_rank {s t : EscrowState} (h : s.rank = t.rank) (hs : s ∉ TERMINAL_STATES) :
    s = t := by
  cases s <;> cases t <;> first | rfl | exact absurd h (by decide) | exact absurd (by decide) hs

section latest

variable {s : EscrowState} {ts ts' : List EscrowState}

theorem foldl_later_mem (s : EscrowState) (ts : List EscrowState) :
    ts.foldl EscrowState.later s ∈ s :: ts :=
  List.argmax_mem (argmax_later s ts)

theorem rank_le_foldl_later {t : EscrowState} (h : t ∈ s :: ts) :
    t.rank ≤ (ts.foldl EscrowState.later s).rank :=
  List.le_of_mem_argmax h (argmax_later s ts)

/-- A terminal state on which the others agree is kept. -/
theorem foldl_later_terminal (hs : s ∉ TERMINAL_STATES)
    (hagree : ∀ t ∈ ts, ∀ t' ∈ ts, t ∈ TERMINAL_STATES → t' ∈ TERMINAL_STATES → t = t')
    {t : EscrowState} (ht : t ∈ ts) (hterminal : t ∈ TERMINAL_STATES) :
    ts.foldl EscrowState.later s = t := by
  have hrank := rank_le_foldl_later (s := s) (List.mem_cons_of_mem s ht)
  have hle := (ts.foldl EscrowState.later s).rank_le
  have hlast : ts.foldl EscrowState.later s ∈ TERMINAL_STATES := by
    rw [EscrowState.mem_terminal_iff] at hterminal ⊢
    omega
  rcases List.mem_cons.mp (foldl_later_mem s ts) with heq | hmem
  · rw [heq] at hlast
    exact absurd hlast hs
  · exact hagree _ hmem t ht hlast hterminal

/-- The latest does not depend on the order. -/
theorem foldl_later_congr (hs : s ∉ TERMINAL_STATES) (hmem : ∀ t, t ∈ ts ↔ t ∈ ts')
    (hagree : ∀ t ∈ ts, ∀ t' ∈ ts, t ∈ TERMINAL_STATES → t' ∈ TERMINAL_STATES → t = t') :
    ts.foldl EscrowState.later s = ts'.foldl EscrowState.later s := by
  have hcons : ∀ t, t ∈ s :: ts ↔ t ∈ s :: ts' := by
    intro t
    rw [List.mem_cons, List.mem_cons, hmem t]
  by_cases hterminal : ∃ t ∈ ts, t ∈ TERMINAL_STATES
  · obtain ⟨t, ht, hterminal⟩ := hterminal
    have hagree' : ∀ t ∈ ts', ∀ t' ∈ ts', t ∈ TERMINAL_STATES → t' ∈ TERMINAL_STATES → t = t' := by
      intro t ht t' ht'
      exact hagree t ((hmem t).mpr ht) t' ((hmem t').mpr ht')
    rw [foldl_later_terminal hs hagree ht hterminal,
      foldl_later_terminal hs hagree' ((hmem t).mp ht) hterminal]
  · -- both are among the same states, and equally late
    have hopen : ts.foldl EscrowState.later s ∉ TERMINAL_STATES := by
      intro hlast
      rcases List.mem_cons.mp (foldl_later_mem s ts) with heq | hmem
      · rw [heq] at hlast
        exact hs hlast
      · exact hterminal ⟨_, hmem, hlast⟩
    have hle := rank_le_foldl_later ((hcons _).mp (foldl_later_mem s ts))
    have hge := rank_le_foldl_later ((hcons _).mpr (foldl_later_mem s ts'))
    exact EscrowState.eq_of_rank (Nat.le_antisymm hle hge) hopen

end latest

/-! ## Events

An event takes an escrow to the later of its state and the state it asks for. -/

/-- The state an event asks for; an event of an unknown type asks for none. -/
def SorobanChainEvent.target (event : SorobanChainEvent) : Option EscrowState :=
  match event.eventType with
  | .EscrowFunded => some .FUNDED
  | .EscrowShipped => some .SHIPPED
  | .EscrowCompleted => some .COMPLETED
  | .EscrowCancelled | .EscrowCanceled | .EscrowAutoCancelled => some .CANCELLED
  | .DisputeRaised => some .DISPUTED
  | .DisputeResolved => some (DisputeOp.closed event)
  | .AutoReleased => some .RELEASED
  | .EscrowExpired | .RefundApproved => some .REFUNDED
  | .other _ => none

/-- The switch and the target agree. -/
theorem target_of_goal {event : SorobanChainEvent} {t : EscrowState}
    (h : event.eventType.goal = some t) : event.target = some t := by
  unfold SorobanChainEvent.target
  cases hevent : event.eventType <;> rw [hevent] at h <;> cases h <;> rfl

/-- The state after the event. -/
def SorobanChainEvent.reach (event : SorobanChainEvent) (s : EscrowState) : EscrowState :=
  event.target.elim s s.later

/-- An event takes the escrow to the later of its state and the target. -/
theorem reach_eq {event : SorobanChainEvent} {t : EscrowState} (h : event.target = some t)
    (s : EscrowState) : event.reach s = s.later t := by
  rw [SorobanChainEvent.reach, h]
  rfl

/-- A dispute row is there only while the escrow is disputed, or after it has been closed. -/
def Tame (x : EscrowState × Option DisputeStatus) : Prop :=
  x.2 = none ∨ x.1 ∈ TERMINAL_STATES ∨ (x.1 = .DISPUTED ∧ x.2 ≠ some .RESOLVED)

section step

variable {D : Deployment} {involved : String → Bool} {w₀ w w' : World} {id : String}
  {x : EscrowState × Option DisputeStatus} {event : SorobanChainEvent}

/-- A closed escrow may have any dispute. -/
theorem tame_terminal {t : EscrowState} {d : Option DisputeStatus} (h : t ∈ TERMINAL_STATES) :
    Tame (t, d) := Or.inr (.inl h)

/-- Before the escrow is disputed there is no dispute. -/
theorem Tame.early (hx : Tame x) (h : x.1.rank < 4) : x.2 = none := by
  rcases hx with hnone | hterminal | ⟨hdisputed, _⟩
  · exact hnone
  · rw [EscrowState.mem_terminal_iff] at hterminal
    omega
  · rw [hdisputed] at h
    exact absurd h (by decide)

/-- What a raised dispute leaves is what the event reaches. -/
theorem settled_raised (D : Deployment) (involved : String → Bool) (hx : Tame x)
    (hevent : event.eventType = .DisputeRaised) :
    ∃ d, (DisputeOp.raised event).settled D involved x = (event.reach x.1, d) ∧
      Tame (event.reach x.1, d) := by
  rw [reach_eq (t := .DISPUTED) (by rw [SorobanChainEvent.target, hevent])]
  obtain ⟨s, d⟩ := x
  rcases Nat.lt_or_ge s.rank EscrowState.DISPUTED.rank with hlt | hge
  · obtain rfl : d = none := hx.early hlt
    have hopen : ¬ (s = .DISPUTED ∨ s ∈ TERMINAL_STATES) := by
      cases s <;> first | decide | exact absurd hlt (by decide)
    rw [EscrowState.later_of_lt hlt]
    cases hprisma : D.prisma with
    | false => exact ⟨none, by simp [DisputeOp.settled, DisputeOp.plan, hopen, hprisma], .inl rfl⟩
    | true =>
      refine ⟨some .OPEN, by simp [DisputeOp.settled, DisputeOp.plan, hopen, hprisma], ?_⟩
      exact .inr (.inr ⟨rfl, by decide⟩)
  · have hlate : s = .DISPUTED ∨ s ∈ TERMINAL_STATES := by
      cases s <;> first | decide | exact absurd hge (by decide)
    rw [EscrowState.later_of_le hge]
    exact ⟨d, by simp [DisputeOp.settled, DisputeOp.plan, hlate], hx⟩

/-- So it is with a resolved one. -/
theorem settled_resolved (D : Deployment) (involved : String → Bool) (hx : Tame x)
    (hevent : event.eventType = .DisputeResolved) :
    ∃ d, (DisputeOp.resolved event).settled D involved x = (event.reach x.1, d) ∧
      Tame (event.reach x.1, d) := by
  have hclosed := DisputeOp.closed_terminal event
  rw [reach_eq (t := DisputeOp.closed event) (by rw [SorobanChainEvent.target, hevent])]
  obtain ⟨s, d⟩ := x
  have hrank := (EscrowState.mem_terminal_iff _).mp hclosed
  by_cases hs : s ∈ TERMINAL_STATES
  · have hle : (DisputeOp.closed event).rank ≤ s.rank := by
      rw [hrank, (EscrowState.mem_terminal_iff s).mp hs]
    rw [EscrowState.later_of_le hle]
    exact ⟨d, by simp [DisputeOp.settled, DisputeOp.plan, hs], hx⟩
  · have hlt : s.rank < (DisputeOp.closed event).rank := by
      have hle := s.rank_le
      rw [EscrowState.mem_terminal_iff] at hs
      omega
    rw [EscrowState.later_of_lt hlt]
    by_cases hunwired : D.prisma = false ∨ d = none
    · exact ⟨d, by simp [DisputeOp.settled, DisputeOp.plan, hs, hunwired], tame_terminal hclosed⟩
    · have hunresolved : d ≠ some .RESOLVED := by
        rcases hx with hnone | hterminal | ⟨_, h⟩
        · exact absurd (.inr hnone) hunwired
        · exact absurd hterminal hs
        · exact h
      refine ⟨some .RESOLVED, ?_, tame_terminal hclosed⟩
      simp [DisputeOp.settled, DisputeOp.plan, hs, hunwired, hunresolved]

/-- What one event leaves. -/
def Reached (D : Deployment) (involved : String → Bool) (w₀ : World) (event : SorobanChainEvent)
    (s : EscrowState) (w' : World) : Prop :=
  ∃ d, Tame (event.reach s, d) ∧ Standing D event.escrowId involved w₀ (event.reach s, d) w'

/-- Nothing is done for an event that asks for no later state. -/
theorem reached_skip {t : EscrowState} (htarget : event.target = some t) (hx : Tame x)
    (hlate : t.rank ≤ x.1.rank) (h : Standing D event.escrowId involved w₀ x w) (reason : String) :
    (skip reason).wp (alone (Succeeds w₀))
      (fun _ => Reached D involved w₀ event x.1) w := by
  refine ⟨x.2, ?_⟩
  rw [reach_eq htarget, EscrowState.later_of_le hlate]
  exact ⟨hx, h⟩

/-- An event that asks for a later state is applied. -/
theorem reached_applied {t : EscrowState} {write : App EscrowRecord}
    (hwrite : Mutates D event.escrowId t write) (htarget : event.target = some t)
    (hearly : x.1.rank < t.rank) (hx : Tame x) (h : Standing D event.escrowId involved w₀ x w)
    (n : Option Notification) :
    (applied write n).wp (alone (Succeeds w₀))
      (fun _ => Reached D involved w₀ event x.1) w := by
  apply wp_mono (wp_standing_applied hwrite n h)
  intro _ w' h'
  refine ⟨x.2, ?_⟩
  rw [reach_eq htarget, EscrowState.later_of_lt hearly]
  refine ⟨?_, h'⟩
  by_cases hterminal : t ∈ TERMINAL_STATES
  · exact tame_terminal hterminal
  · -- so early there is no dispute that the new state could fail to show
    have hle := t.rank_le
    rw [EscrowState.mem_terminal_iff] at hterminal
    exact .inl (hx.early (by omega))

/-- The two events about disputes are those of the retried operations, undisturbed. -/
theorem reached_dispute (hx : Tame x) (h : Standing D event.escrowId involved w₀ x w)
    (hevent : event.eventType = .DisputeRaised ∨ event.eventType = .DisputeResolved) :
    (syncStateFromChain D event).wp (alone (Succeeds w₀))
      (fun _ => Reached D involved w₀ event x.1) w := by
  have hreached : ∀ (op : DisputeOp) (w' : World), Ends D op involved w₀ none x w' →
      op.escrowId = event.escrowId →
      (∃ d, op.settled D involved x = (event.reach x.1, d) ∧ Tame (event.reach x.1, d)) →
      Reached D involved w₀ event x.1 w' := by
    rintro op w' hends hid ⟨d, hsettled, htame⟩
    have hstanding := hends.settled
    rw [hsettled, hid] at hstanding
    exact ⟨d, htame, hstanding⟩
  rcases hevent with hevent | hevent
  · have hsame : { event with eventType := .DisputeRaised } = event := by rw [← hevent]
    have hends : (syncStateFromChain D _).wp (alone (Succeeds w₀)) _ w :=
      wp_interrupted_raised h
    rw [hsame] at hends
    exact wp_mono hends fun _ w' hw' => hreached _ w' hw' rfl (settled_raised D involved hx hevent)
  · have hsame : { event with eventType := .DisputeResolved } = event := by rw [← hevent]
    have hends : (syncStateFromChain D _).wp (alone (Succeeds w₀)) _ w :=
      wp_interrupted_resolved h
    rw [hsame] at hends
    exact wp_mono hends fun _ w' hw' =>
      hreached _ w' hw' rfl (settled_resolved D involved hx hevent)

/-- One event: the later of the stored state and its target is kept. -/
theorem wp_reached (hx : Tame x) (h : Standing D event.escrowId involved w₀ x w)
    (hknown : event.target ≠ none) :
    (syncStateFromChain D event).wp (alone (Succeeds w₀))
      (fun _ => Reached D involved w₀ event x.1) w := by
  -- the dispute events write two tables; the others are the rest of the `switch`
  by_cases hdispute : event.eventType = .DisputeRaised ∨ event.eventType = .DisputeResolved
  · exact reached_dispute hx h hdispute
  obtain ⟨row, hrow, hstate, _⟩ := h.row
  unfold syncStateFromChain
  rw [wp_bind]
  refine wp_findById h.coherent (fun _ hr => absurd rfl (point_of_rejects hr).1) fun w₁ hquiet => ?_
  have h₁ := h.quiet hquiet
  rw [hrow]
  show (applyEvent D event (toEscrowRecord row)).wp _ _ _
  have happlies := applies_applyEvent (D := D) event (toEscrowRecord row)
  generalize applyEvent D event (toEscrowRecord row) = p at happlies ⊢
  have hstate : (toEscrowRecord row).state = x.1 := hstate
  cases happlies with
  | late hgoal hlate =>
    rw [hstate] at hlate
    exact reached_skip (target_of_goal hgoal) hx hlate h₁ _
  | unknown hname => exact absurd (by rw [SorobanChainEvent.target, hname]) hknown
  | written hgoal ht hwrite _ =>
    have hearly := ht.rank_lt
    rw [hstate] at hearly
    exact reached_applied hwrite (target_of_goal hgoal) hearly hx h₁ _
  | raised hevent => exact absurd (.inl hevent) hdispute
  | resolved hevent => exact absurd (.inr hevent) hdispute

/-! ## A run of events -/

/-- Deliver events one after the other, each under its own environment. -/
def deliverEvents (D : Deployment) (w : World) (events : List (SorobanChainEvent × (Nat → Choice))) :
    World :=
  runOps D w (events.map fun o => (.syncStateFromChain o.1, o.2))

/-- A run reaches the latest of the targets. Induction on the events. -/
theorem reached_deliverEvents {events : List (SorobanChainEvent × (Nat → Choice))} (hx : Tame x)
    (h : Standing D id involved w₀ x w) (hid : ∀ o ∈ events, o.1.escrowId = id)
    (hknown : ∀ o ∈ events, o.1.target ≠ none) (hsucceeds : ∀ o ∈ events, ∀ n, Succeeds w₀ (o.2 n)) :
    ∃ d, Standing D id involved w₀ ((events.filterMap (·.1.target)).foldl EscrowState.later x.1, d)
      (deliverEvents D w events) := by
  induction events generalizing w x with
  | nil => exact ⟨x.2, h⟩
  | cons o events ih =>
    obtain rfl := hid o List.mem_cons_self
    obtain ⟨t, htarget⟩ := Option.ne_none_iff_exists'.mp (hknown o List.mem_cons_self)
    have hwp : ((Op.syncStateFromChain o.1).prog D).wp (alone (Succeeds w₀))
        (fun _ => Reached D involved w₀ o.1 x.1) w := by
      show (syncStateFromChain D o.1).void.wp _ _ _
      rw [wp_void]
      exact wp_reached hx h (hknown o List.mem_cons_self)
    have hstep : Reached D involved w₀ o.1 x.1 (deliverEvents D w [o]) :=
      exec_of_wp hwp (hsucceeds o List.mem_cons_self)
    obtain ⟨d, htame, hstanding⟩ := hstep
    rw [reach_eq htarget] at htame hstanding
    rw [List.filterMap_cons, htarget, List.foldl_cons]
    exact ih htame hstanding (fun o' ho' => hid o' (List.mem_cons_of_mem o ho'))
      (fun o' ho' => hknown o' (List.mem_cons_of_mem o ho'))
      (fun o' ho' => hsucceeds o' (List.mem_cons_of_mem o ho'))

end step

/-- **Order independence.** Whatever order the known events of an escrow are delivered in, it ends
in one and the same state: their terminal target, if one of them has one, and otherwise the latest
of the stored state and their targets. -/
theorem sync_order_independent (D : Deployment) (w : World) (row : EscrowRow)
    (events : Multiset SorobanChainEvent) (hw : Coherent D w)
    (hrow : w.db.escrows.get row.id = some row) (hopen : row.state ∉ TERMINAL_STATES)
    (hdispute : ∀ d, w.db.disputes.get row.id = some d →
      row.state = .DISPUTED ∧ d.status ≠ .RESOLVED)
    (hid : ∀ e ∈ events, e.escrowId = row.id) (hknown : ∀ e ∈ events, e.target ≠ none)
    (hagree : ∀ e ∈ events, ∀ e' ∈ events, ∀ t ∈ TERMINAL_STATES, ∀ t' ∈ TERMINAL_STATES,
      e.target = some t → e'.target = some t' → t = t') :
    ∃ final : EscrowState,
      (∀ e ∈ events, ∀ t ∈ TERMINAL_STATES, e.target = some t → final = t) ∧
      ((∀ e ∈ events, ∀ t ∈ TERMINAL_STATES, e.target ≠ some t) →
        (final = row.state ∨ ∃ e ∈ events, e.target = some final) ∧
        row.state.rank ≤ final.rank ∧
        ∀ e ∈ events, ∀ t, e.target = some t → t.rank ≤ final.rank) ∧
      ∀ delivered : List (SorobanChainEvent × (Nat → Choice)),
        (delivered.map Prod.fst : Multiset SorobanChainEvent) = events →
        (∀ o ∈ delivered, ∀ n, Succeeds w (o.2 n)) →
        (deliverEvents D w delivered).stateOf row.id = some final := by
  obtain ⟨order, rfl⟩ := Quotient.exists_rep events
  change ∀ e ∈ order, _ at hid hknown hagree
  -- the final state is the latest target, wherever in the order it stands
  let targets := order.filterMap SorobanChainEvent.target
  have hmem : ∀ {e t}, e ∈ order → e.target = some t → t ∈ targets := by
    intro e t he ht
    exact List.mem_filterMap.mpr ⟨e, he, ht⟩
  have hagree : ∀ t ∈ targets, ∀ t' ∈ targets, t ∈ TERMINAL_STATES → t' ∈ TERMINAL_STATES →
      t = t' := by
    intro t ht t' ht' hterminal hterminal'
    obtain ⟨e, he, htarget⟩ := List.mem_filterMap.mp ht
    obtain ⟨e', he', htarget'⟩ := List.mem_filterMap.mp ht'
    exact hagree e he e' he' t hterminal t' hterminal' htarget htarget'
  refine ⟨targets.foldl EscrowState.later row.state, ?_, ?_, ?_⟩
  · intro e he t hterminal htarget
    exact foldl_later_terminal hopen hagree (hmem he htarget) hterminal
  · intro _
    refine ⟨?_, rank_le_foldl_later List.mem_cons_self, ?_⟩
    · rcases List.mem_cons.mp (foldl_later_mem row.state targets) with heq | hlast
      · exact .inl heq
      · obtain ⟨e, he, htarget⟩ := List.mem_filterMap.mp hlast
        exact .inr ⟨e, he, htarget⟩
    · intro e he t htarget
      exact rank_le_foldl_later (List.mem_cons_of_mem _ (hmem he htarget))
  · intro delivered hdelivered hsucceeds
    have hperm : (delivered.map Prod.fst).Perm order := Multiset.coe_eq_coe.mp hdelivered
    have hevent : ∀ o ∈ delivered, o.1 ∈ order := by
      intro o ho
      exact hperm.mem_iff.mp (List.mem_map_of_mem ho)
    have hstart : Standing D row.id (BuyerDisputeService.isInvolved D (toEscrowRecord row)) w
        (stored w row) w :=
      ⟨hw, ⟨row, hrow, rfl, fun _ => rfl⟩, rfl, fun _ => rfl⟩
    -- a run that begins tame stays so: no dispute is on record that the state does not show
    have htame : Tame (stored w row) := by
      cases hd : w.db.disputes.get row.id with
      | none => exact .inl (by rw [stored, hd]; rfl)
      | some d =>
        obtain ⟨hdisputed, hunresolved⟩ := hdispute d hd
        refine .inr (.inr ⟨hdisputed, ?_⟩)
        rw [stored, hd]
        exact fun heq => hunresolved (Option.some.inj heq)
    obtain ⟨d, hend⟩ := reached_deliverEvents htame hstart (fun o ho => hid o.1 (hevent o ho))
      (fun o ho => hknown o.1 (hevent o ho)) hsucceeds
    -- the fold depends on which targets occur, not on their order
    have hsame : (delivered.filterMap (·.1.target)).foldl EscrowState.later row.state
        = targets.foldl EscrowState.later row.state := by
      have hmap : delivered.filterMap (·.1.target)
          = (delivered.map Prod.fst).filterMap SorobanChainEvent.target := by
        rw [List.filterMap_map]
        rfl
      have hperm' := hperm.filterMap SorobanChainEvent.target
      rw [← hmap] at hperm'
      exact (foldl_later_congr hopen (fun t => hperm'.mem_iff.symm) hagree).symm
    have hcase := congrArg Case.state hend.caseOf
    rw [show (stored w row).1 = row.state from rfl, hsame] at hcase
    exact hcase

/-- A dispute that is settled by a refund, delivered in order and backwards. -/
theorem sync_order_independent_refunded :
    let raised : SorobanChainEvent := { eventType := .DisputeRaised, escrowId := "e1" }
    let shipped : SorobanChainEvent := { eventType := .EscrowShipped, escrowId := "e1" }
    let refunded : SorobanChainEvent :=
      { eventType := .DisputeResolved, escrowId := "e1", resolution := some .REFUND }
    let w := World.ofEscrows [Db.lampEscrow .FUNDED]
    (deliverEvents .bare w [(shipped, fun _ => .calm), (raised, fun _ => .calm),
        (refunded, fun _ => .calm)]).stateOf "e1" = some .REFUNDED ∧
      (deliverEvents .bare w [(refunded, fun _ => .calm), (raised, fun _ => .calm),
        (shipped, fun _ => .calm)]).stateOf "e1" = some .REFUNDED := by
  intro raised shipped refunded w
  have hcalm : ∀ events : List SorobanChainEvent,
      ∀ o ∈ events.map fun e => (e, fun _ : Nat => Choice.calm), ∀ n, Succeeds w (o.2 n) := by
    intro events o ho n
    obtain ⟨e, _, rfl⟩ := List.mem_map.mp ho
    exact succeeds_calm rfl
  obtain ⟨final, hterminal, -, hfinal⟩ := sync_order_independent .bare w (Db.lampEscrow .FUNDED)
    ([shipped, raised, refunded] : List SorobanChainEvent) coherent_bare rfl (by decide)
    nofun (by decide) (by decide) (by decide)
  obtain rfl := hterminal refunded (by decide) .REFUNDED (by decide) rfl
  constructor
  · exact hfinal _ rfl (hcalm [shipped, raised, refunded])
  · exact hfinal _ (by decide) (hcalm [refunded, raised, shipped])

end TrustLink
