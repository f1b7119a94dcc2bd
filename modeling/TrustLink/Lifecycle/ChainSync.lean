import TrustLink.Lifecycle.Escrows
import TrustLink.Model.Switch

/-!
# TrustLink — chain events

What `syncStateFromChain` does to an escrow that exists (`Synced`): it follows the lifecycle, it
leaves the event absorbed when it returns, and it skips an event that was absorbed before.

The lifecycle is left in two places only (`SorobanChainEvent.strays`): by an event that closes an
escrow whose dispute is still open, and by the two dispute events where Prisma is not wired in.
-/

namespace TrustLink

open Effects EscrowService

variable {D : Deployment} {w w' : World} {id : String}

/-! ## Disputes -/

/-- The dispute of one escrow, and nothing else, has been given a new status. -/
structure DisputeSet (D : Deployment) (id : String) (status : DisputeStatus) (w w' : World) : Prop
    extends DisputeOnly D id w w' where
  escrows : w'.db.escrows = w.db.escrows
  status : (w'.caseOf id).dispute = some status

theorem disputeSet_put {db : Db} {d : Dispute} (hw : Coherent D w)
    (hescrows : db.escrows = w.db.escrows) (hdisputes : db.disputes = w.db.disputes.put d) :
    DisputeSet D d.escrowId d.status w { w with db := db } where
  toDisputeOnly := disputeOnly_put hw hescrows hdisputes
  escrows := hescrows
  status := by
    show (db.disputes.get d.escrowId).map (·.status) = some d.status
    rw [hdisputes, Store.Table.get_put_self]
    rfl

/-- Settling a stored dispute. -/
theorem wp_resolve {A : Choice → Prop} {d : Dispute} {Q : Except Err Dispute → World → Prop}
    (hw : Coherent D w) (hd : w.db.disputes.get id = some d)
    (hfail : ∀ t e, Rejects A (.disputeUpdate d.id .RESOLVED t) e → Q (.error e) w)
    (h : ∀ r w', DisputeSet D id .RESOLVED w w' → Q (.ok r) w') :
    (DisputeRepository.resolve d.id).wp (alone A) Q w := by
  obtain rfl : d.escrowId = id := w.db.disputes.key_of_get hd
  unfold DisputeRepository.resolve
  refine (wp_machine_bind (M := world)).mpr fun ch _ => ?_
  refine wp_handle_db.mpr fun ch' hch' => ?_
  show Q (handle ch' (.db (.disputeUpdate d.id .RESOLVED ch.now)) w).1
    (handle ch' (.db (.disputeUpdate d.id .RESOLVED ch.now)) w).2
  cases hfault : ch'.fault (.disputeUpdate d.id .RESOLVED ch.now) with
  | some p =>
    simp only [handle, handleDb, hfault]
    exact hfail _ _ ⟨ch', p, hch', hfault, rfl⟩
  | none =>
    rw [handle_disputeUpdate_ok ch' w hfault (w.db.disputes.mem_rows_iff.mpr hd)]
    exact h _ _ (disputeSet_put (d := d.settle .RESOLVED ch.now ch'.now) hw rfl rfl)

/-- Recording a dispute: rejected, or there was none and now it is open. -/
theorem wp_disputeCreate {data : NewDispute} {Q : Except Err Dispute → World → Prop}
    (hw : Coherent D w) (hfail : ∀ e, Q (.error e) w)
    (h : ∀ d w', (w.caseOf data.escrowId).dispute = none →
      DisputeSet D data.escrowId .OPEN w w' → Q (.ok d) w') :
    (db (.disputeCreate data)).wp (alone Reliable) Q w := by
  refine wp_handle_db.mpr fun ch _ => ?_
  rcases handle_disputeCreate ch w data with ⟨e, heq⟩ | ⟨hnone, hfresh, heq⟩
  · rw [heq]
    exact hfail e
  · rw [heq]
    refine h _ _ ?_ (disputeSet_put (d := Db.newDispute data ch.uuid ch.now) hw rfl rfl)
    rw [World.caseOf, hnone]
    rfl

/-! ## Chain events

An event is skipped because it has nothing left to do, or moves the escrow to its goal. -/

/-- The events that close an escrow without looking at its dispute. -/
def ChainEventType.closes : ChainEventType → Bool
  | .EscrowCompleted | .EscrowCancelled | .EscrowCanceled | .EscrowAutoCancelled | .AutoReleased
  | .EscrowExpired | .RefundApproved => true
  | _ => false

/-- The stray step a chain event makes from a state: it closes an escrow whose dispute is open, or
it is about a dispute and there is no dispute table to write to. -/
def SorobanChainEvent.strays (D : Deployment) (event : SorobanChainEvent) (w : World)
    (id : String) : Prop :=
  id = event.escrowId ∧
    ((event.eventType.closes = true ∧ w.stateOf id = some .DISPUTED) ∨
      (D.prisma = false ∧
        (event.eventType = .DisputeRaised ∨ event.eventType = .DisputeResolved)))

/-- The event has nothing left to do for an escrow in this case. -/
def SorobanChainEvent.Absorbed (D : Deployment) (event : SorobanChainEvent) (c : Case) : Prop :=
  match event.eventType with
  | .EscrowFunded => EscrowState.FUNDED.rank ≤ c.rank
  | .EscrowShipped => EscrowState.SHIPPED.rank ≤ c.rank
  | .DisputeRaised => EscrowState.DISPUTED.rank ≤ c.rank
  | .DisputeResolved => 5 ≤ c.rank ∨ (D.prisma = true ∧ c.dispute = some .RESOLVED)
  | .other _ => True
  | _ => 5 ≤ c.rank

/-- What `syncStateFromChain` ensures for an escrow that exists. -/
structure Synced (D : Deployment) (event : SorobanChainEvent) (w : World)
    (r : Except Err SyncResult) (w' : World) : Prop where
  follows : Follows D (event.strays D w) w r w'
  /-- If it returns, the event is absorbed. -/
  absorbed : ∀ result, r = .ok result → event.Absorbed D (w'.caseOf event.escrowId)
  /-- If the event was absorbed before, it is skipped. -/
  skips : event.Absorbed D (w.caseOf event.escrowId) →
    (∃ reason, r = .ok { skipped := true, reason := some reason }) ∧ SameRows w w'

section sync

variable {event : SorobanChainEvent} {row : EscrowRow} {after : EscrowState}
  {n : Option Notification} {write : App EscrowRecord}

/-- An event that asks for a state is absorbed by every later one. -/
theorem absorbed_iff (hgoal : event.eventType.goal = some after) (c : Case) :
    event.Absorbed D c ↔ after.rank ≤ c.rank := by
  unfold SorobanChainEvent.Absorbed
  cases hevent : event.eventType <;> rw [hevent] at hgoal <;> cases hgoal <;> exact Iff.rfl

/-- Disputes are raised and settled by their own events; what goes on from there closes the
escrow. -/
theorem disputeMove_of_goal (hgoal : event.eventType.goal = some after)
    (hrow : w.db.escrows.get event.escrowId = some row) (ht : Transition row.state after)
    {d : Option DisputeStatus} :
    DisputeMove (event.strays D w event.escrowId) row.state after d d := by
  have hafter : after ≠ .DISPUTED ∧ (4 < after.rank → event.eventType.closes = true) := by
    cases hevent : event.eventType <;> rw [hevent] at hgoal <;> cases hgoal <;> decide
  by_cases hdisputed : row.state = .DISPUTED
  · have hrank := ht.rank_lt
    rw [hdisputed] at hrank
    refine .stray ⟨rfl, .inl ⟨hafter.2 hrank, ?_⟩⟩
    rw [World.stateOf, hrow, ← hdisputed]
    rfl
  · exact .untouched hdisputed hafter.1

/-- A mutator sets the state. -/
theorem Mutates.sets (h : Mutates D id after write) : SetsState D id after write := by
  cases h with
  | plain _ h => exact sets_update h
  | dated _ h => exact sets_newDate fun now => sets_update (h now)

/-- An event that is skipped had nothing left to do. -/
theorem synced_skip (hw : Coherent D w) (habsorbed : event.Absorbed D (w.caseOf event.escrowId))
    (reason : String) :
    (skip reason).wp (alone Reliable) (Synced D event w) w where
  follows := hw.follows
  absorbed := fun _ _ => habsorbed
  skips := fun _ => ⟨⟨reason, rfl⟩, rfl, rfl⟩

/-- The write of the state and the notification. -/
theorem wp_applied {Q : Except Err SyncResult → World → Prop} (hset : SetsState D id after write)
    (hw : Coherent D w) (hrow : w.db.escrows.get id = some row)
    (h : ∀ w', Moved D id row.state after (w.caseOf id).dispute n.toList w w' →
      Q (.ok { skipped := false }) w') :
    (applied write n).wp (alone Reliable) Q w := by
  unfold applied
  refine hset.bind hw hrow fun record w₁ hid hmoved => ?_
  cases n with
  | none => exact h w₁ hmoved
  | some n =>
    rw [wp_bind]
    refine wp_sends ?_
    rw [hid]
    exact h _ (hmoved.notified n)

/-- A branch that writes the state after `w₁`, where only the dispute has been written. -/
theorem synced_applied_after {w₁ : World} (hset : SetsState D event.escrowId after write)
    (honly : DisputeOnly D event.escrowId w w₁)
    (hrow : w₁.db.escrows.get event.escrowId = some row) (ht : Transition row.state after)
    (hnotes : n.toList ∈ announcements after)
    (hd : DisputeMove (event.strays D w event.escrowId) row.state after
      (w.caseOf event.escrowId).dispute (w₁.caseOf event.escrowId).dispute)
    (hnew : ¬ event.Absorbed D (w.caseOf event.escrowId))
    (habsorbed : ∀ d, event.Absorbed D ⟨some after, d⟩) :
    (applied write n).wp (alone Reliable) (Synced D event w) w₁ := by
  refine wp_applied hset honly.coherent hrow fun w₂ hwritten => ?_
  have hmoved := Moved.of_disputeOnly honly hwritten
  refine ⟨hmoved.follows ht hnotes hd, ?_, ?_⟩
  · intro _ _
    rw [hmoved.after]
    exact habsorbed _
  · exact fun h => absurd h hnew

/-- A branch that writes the state and nothing else. -/
theorem synced_applied (hset : SetsState D event.escrowId after write) (hw : Coherent D w)
    (hrow : w.db.escrows.get event.escrowId = some row) (ht : Transition row.state after)
    (hnotes : n.toList ∈ announcements after)
    (hd : DisputeMove (event.strays D w event.escrowId) row.state after
      (w.caseOf event.escrowId).dispute (w.caseOf event.escrowId).dispute)
    (hnew : ¬ event.Absorbed D (w.caseOf event.escrowId))
    (habsorbed : ∀ d, event.Absorbed D ⟨some after, d⟩) :
    (applied write n).wp (alone Reliable) (Synced D event w) w :=
  synced_applied_after hset ((Still.refl hw).disputeOnly event.escrowId) hrow ht hnotes hd hnew
    habsorbed

theorem rank_caseOf (hrow : w.db.escrows.get id = some row) : (w.caseOf id).rank = row.state.rank := by
  rw [World.caseOf, World.stateOf, hrow]
  rfl

/-- A branch that advances the escrow, for an event that is absorbed from the new state on. -/
theorem synced_advance (hset : SetsState D event.escrowId after write) (hw : Coherent D w)
    (hrow : w.db.escrows.get event.escrowId = some row) (ht : Transition row.state after)
    (hnotes : n.toList ∈ announcements after)
    (hd : DisputeMove (event.strays D w event.escrowId) row.state after
      (w.caseOf event.escrowId).dispute (w.caseOf event.escrowId).dispute)
    (habsorbed : ∀ c, event.Absorbed D c ↔ after.rank ≤ c.rank) :
    (applied write n).wp (alone Reliable) (Synced D event w) w := by
  refine synced_applied hset hw hrow ht hnotes hd ?_ ?_
  · rw [habsorbed, rank_caseOf hrow]
    exact Nat.not_le.mpr ht.rank_lt
  · intro d
    rw [habsorbed]
    exact Nat.le_refl _

/-- A branch that throws has changed nothing. -/
theorem synced_throw {e : Err} (hs : Still D w w')
    (hnew : ¬ event.Absorbed D (w.caseOf event.escrowId)) : Synced D event w (.error e) w' where
  follows := hs.follows
  absorbed := nofun
  skips := fun h => absurd h hnew

/-- `DisputeRaised` disputes the escrow and opens the row. -/
theorem synced_disputeRaised (hw : Coherent D w)
    (hrow : w.db.escrows.get event.escrowId = some row) (hevent : event.eventType = .DisputeRaised) :
    (onDisputeRaised D event (toEscrowRecord row)).wp (alone Reliable)
      (Synced D event w) w := by
  have hrank := rank_caseOf hrow
  have habsorbed : ∀ c, event.Absorbed D c ↔ EscrowState.DISPUTED.rank ≤ c.rank := by
    intro c
    simp only [SorobanChainEvent.Absorbed, hevent]
  unfold onDisputeRaised
  refine wp_if (fun hdisputed => synced_skip hw ?_ _) fun hdisputed => ?_
  · have hdisputed : row.state = .DISPUTED := hdisputed
    rw [habsorbed, hrank, hdisputed]
  refine wp_if (fun hterminal => synced_skip hw ?_ _) fun hopen => ?_
  · rw [habsorbed, hrank, (EscrowState.mem_terminal_iff row.state).mp hterminal]
    decide
  have ht : Transition row.state .DISPUTED := .dispute hopen hdisputed
  have hnew : ¬ event.Absorbed D (w.caseOf event.escrowId) := by
    rw [habsorbed, hrank]
    exact Nat.not_le.mpr ht.rank_lt
  unfold recordDispute
  rw [wp_bind, wp_ite]
  constructor
  · intro _
    refine (wp_machine_bind (M := world)).mpr fun ch _ => ?_
    refine (wp_bind _ _ _ _).mpr (wp_disputeCreate hw ?_ ?_)
    · exact fun e => synced_throw (Still.refl hw) hnew
    · intro d w₁ hnone hset
      have hnone : (w.caseOf event.escrowId).dispute = none := hnone
      have hset : DisputeSet D event.escrowId .OPEN w w₁ := hset
      -- the dispute has been recorded; now the state follows
      refine synced_applied_after (sets_update rfl) hset.toDisputeOnly (hset.escrows ▸ hrow) ht
        (by decide) ?_ hnew fun d => ?_
      · rw [hnone, hset.status]
        exact .raised rfl
      · rw [habsorbed]
        exact Nat.le_refl _
  · intro hunwired
    have hprisma : D.prisma = false := Bool.eq_false_iff.mpr hunwired
    exact synced_advance (sets_update rfl) hw hrow ht (by decide)
      (.stray ⟨rfl, .inr ⟨hprisma, .inl hevent⟩⟩) habsorbed

/-- `settleDispute` in its outcomes: a call is rejected, or it is one of four cases. -/
theorem wp_settleDispute {A : Choice → Prop} (id : String) {Q : Except Err Bool → World → Prop}
    (hw : Coherent D w) (hread : ∀ e, Rejects A (.disputeFindFirst id none) e → Q (.error e) w)
    (hwrite : ∀ d t e, Rejects A (.disputeUpdate d .RESOLVED t) e → Q (.error e) w)
    (hunwired : D.prisma = false → Q (.ok true) w)
    (hnone : D.prisma = true → (w.caseOf id).dispute = none → Q (.ok true) w)
    (hresolved : D.prisma = true → (w.caseOf id).dispute = some .RESOLVED → Q (.ok false) w)
    (hsettled : ∀ w' status, D.prisma = true → (w.caseOf id).dispute = some status →
      status ≠ .RESOLVED → DisputeSet D id .RESOLVED w w' → Q (.ok true) w') :
    (settleDispute D id).wp (alone A) Q w := by
  unfold settleDispute
  refine wp_if (fun hprisma => ?_) fun h => hunwired (Bool.eq_false_iff.mpr h)
  rw [wp_bind]
  refine wp_findDispute hread ?_
  rw [Db.findDispute_none]
  dsimp only
  cases hd : w.db.disputes.get id with
  | none =>
    refine hnone hprisma ?_
    rw [World.caseOf, hd]
    rfl
  | some d =>
    have hstatus : (w.caseOf id).dispute = some d.status := by
      rw [World.caseOf, hd]
      rfl
    apply wp_if
    · intro h
      exact hresolved hprisma (by rw [hstatus, h])
    · intro h
      rw [wp_bind]
      exact wp_resolve hw hd (fun t => hwrite d.id t)
        fun r w' hset => hsettled w' d.status hprisma hstatus h hset

/-- `DisputeResolved` closes the escrow and settles the row. -/
theorem synced_disputeResolved (hw : Coherent D w)
    (hrow : w.db.escrows.get event.escrowId = some row)
    (hevent : event.eventType = .DisputeResolved) :
    (onDisputeResolved D event (toEscrowRecord row)).wp (alone Reliable)
      (Synced D event w) w := by
  have hrank := rank_caseOf hrow
  have habsorbed : ∀ c, event.Absorbed D c ↔
      5 ≤ c.rank ∨ (D.prisma = true ∧ c.dispute = some .RESOLVED) := by
    intro c
    simp only [SorobanChainEvent.Absorbed, hevent]
  unfold onDisputeResolved
  refine wp_if (fun hterminal => synced_skip hw ?_ _) fun hopen => ?_
  · rw [habsorbed, hrank]
    exact .inl (Nat.le_of_eq ((EscrowState.mem_terminal_iff row.state).mp hterminal).symm)
  have hopen : row.state ∉ TERMINAL_STATES := hopen
  have hrefund : Transition row.state .REFUNDED := .close hopen (by decide)
  have hcomplete : Transition row.state .COMPLETED := .close hopen (by decide)
  -- whatever was done about the dispute, the escrow is closed from there
  have hfinish : ∀ w₁, DisputeOnly D event.escrowId w w₁ → w₁.db.escrows = w.db.escrows →
      (∀ after ∈ TERMINAL_STATES, DisputeMove (event.strays D w event.escrowId) row.state after
        (w.caseOf event.escrowId).dispute (w₁.caseOf event.escrowId).dispute) →
      ¬ event.Absorbed D (w.caseOf event.escrowId) →
      (if event.resolution = some .REFUND then
        applied (EscrowRepository.markRefunded D event.escrowId) (some .notifyRefunded)
      else applied (EscrowRepository.markCompleted D event.escrowId)
        (some .notifyCompleted)).wp (alone Reliable) (Synced D event w) w₁ := by
    intro w₁ honly hescrows hd hnew
    have hrow₁ : w₁.db.escrows.get event.escrowId = some row := hescrows ▸ hrow
    apply wp_if
    · intro _
      refine synced_applied_after (sets_update rfl) honly hrow₁ hrefund (by decide)
        (hd _ (by decide)) hnew fun d => ?_
      exact (habsorbed _).mpr (.inl (Nat.le_refl _))
    · intro _
      refine synced_applied_after (sets_update rfl) honly hrow₁ hcomplete (by decide)
        (hd _ (by decide)) hnew fun d => ?_
      exact (habsorbed _).mpr (.inl (Nat.le_refl _))
  have hhere := (Still.refl hw).disputeOnly event.escrowId
  have hnew : ¬ (D.prisma = true ∧ (w.caseOf event.escrowId).dispute = some .RESOLVED) →
      ¬ event.Absorbed D (w.caseOf event.escrowId) := by
    intro hdispute
    rw [habsorbed, hrank]
    rintro (h | h)
    · exact absurd h (Nat.not_le.mpr hrefund.rank_lt)
    · exact hdispute h
  rw [wp_bind]
  refine wp_settleDispute event.escrowId hw (fun _ hr => absurd hr not_rejects_reliable)
    (fun _ _ _ hr => absurd hr not_rejects_reliable) ?_ ?_ ?_ ?_
  · intro hprisma
    refine wp_if (fun _ => ?_) fun h => absurd rfl h
    refine hfinish w hhere rfl (fun _ _ => .stray ⟨rfl, .inr ⟨hprisma, .inr hevent⟩⟩) (hnew ?_)
    rintro ⟨h, _⟩
    rw [hprisma] at h
    cases h
  · intro _ hnone
    refine wp_if (fun _ => ?_) fun h => absurd rfl h
    refine hfinish w hhere rfl (fun after hafter => .undisputed hafter ?_) (hnew ?_)
    · rw [hnone]
      exact nofun
    · rintro ⟨_, h⟩
      rw [hnone] at h
      cases h
  · intro hprisma hresolved
    refine wp_if nofun fun _ => ?_
    exact synced_skip hw ((habsorbed _).mpr (.inr ⟨hprisma, hresolved⟩)) _
  · intro w₁ status _ hstatus hunresolved hset
    refine wp_if (fun _ => ?_) fun h => absurd rfl h
    refine hfinish w₁ hset.toDisputeOnly hset.escrows (fun after hafter => ?_) (hnew ?_)
    · rw [hset.status]
      exact .settled hafter
    · rintro ⟨_, hresolved⟩
      rw [hstatus] at hresolved
      exact hunresolved (Option.some.inj hresolved)

/-- The whole `switch`. -/
theorem synced_applyEvent (hw : Coherent D w) (hrow : w.db.escrows.get event.escrowId = some row) :
    (applyEvent D event (toEscrowRecord row)).wp (alone Reliable)
      (Synced D event w) w := by
  have happlies := applies_applyEvent (D := D) event (toEscrowRecord row)
  generalize applyEvent D event (toEscrowRecord row) = p at happlies ⊢
  cases happlies with
  | late hgoal hlate =>
    refine synced_skip hw ?_ _
    rw [absorbed_iff hgoal, rank_caseOf hrow]
    exact hlate
  | unknown hname =>
    refine synced_skip hw ?_ _
    simp only [SorobanChainEvent.Absorbed, hname]
  | written hgoal ht hwrite hnotes =>
    exact synced_advance hwrite.sets hw hrow ht hnotes (disputeMove_of_goal hgoal hrow ht)
      (absorbed_iff hgoal)
  | raised hevent => exact synced_disputeRaised hw hrow hevent
  | resolved hevent => exact synced_disputeResolved hw hrow hevent

/-- `syncStateFromChain` on an escrow that exists. -/
theorem synced_syncStateFromChain (hw : Coherent D w)
    (hrow : w.db.escrows.get event.escrowId = some row) :
    (syncStateFromChain D event).wp (alone Reliable) (Synced D event w) w := by
  unfold syncStateFromChain
  rw [wp_bind]
  refine wp_findById hw (fun _ hr => absurd hr not_rejects_reliable) fun w₁ hquiet => ?_
  rw [hrow]
  have hrow₁ : w₁.db.escrows.get event.escrowId = some row := by rw [hquiet.rows.1]; exact hrow
  have hcase := hquiet.still.caseOf event.escrowId
  refine wp_mono (synced_applyEvent hquiet.coherent hrow₁) fun r w₂ h => ⟨?_, h.absorbed, ?_⟩
  · have hstrays : event.strays D w₁ = event.strays D w := by
      funext id
      rw [SorobanChainEvent.strays, hquiet.still.states id]
      rfl
    rw [← hstrays]
    exact ⟨h.follows.1, hquiet.still.evolves.trans h.follows.2⟩
  · intro habsorbed
    obtain ⟨hskipped, hrows⟩ := h.skips (hcase ▸ habsorbed)
    exact ⟨hskipped, hrows.1.trans hquiet.rows.1, hrows.2.trans hquiet.rows.2⟩

/-- A chain event follows the lifecycle, or strays as it says. -/
theorem follows_syncStateFromChain (hw : Coherent D w) :
    (syncStateFromChain D event).wp (alone Reliable)
      (Follows D (event.strays D w) w) w := by
  cases hrow : w.db.escrows.get event.escrowId with
  | some row => exact wp_mono (synced_syncStateFromChain hw hrow) fun _ _ h => h.follows
  | none =>
    refine follows_findById hw fun w' hquiet => ?_
    rw [hquiet.rows.1, hrow]
    exact hquiet.coherent.follows

end sync

end TrustLink
