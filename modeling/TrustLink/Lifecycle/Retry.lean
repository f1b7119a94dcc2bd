import TrustLink.Lifecycle.Runs

/-!
# TrustLink — interrupted dispute operations

`openDispute` and the two dispute events of the chain write a dispute row and then the escrow, in
two calls that are not in a transaction. What happens when one of the calls of such an operation
is rejected and the operation is run again?

The operation is described by its `plan`: the state and the dispute status it is going to leave,
or nothing when its guards stop it. An execution that is interrupted leaves the old pair, the new
pair, or, when the rejected call is the write of the escrow, the old state with the new dispute.
The retry's own guards see that half-done pair and stop it, so the retry makes up for every
interruption but this one.
-/

namespace TrustLink

open Effects EscrowService

/-! ## The operations and their plans

A plan is computed from the guards alone, so that it can be asked for again after an interruption.
-/

/-- The operations that write a dispute and then its escrow. The event type is fixed. -/
inductive DisputeOp where
  | openDispute (escrowId callerAddress : String) (dto : OpenDisputeDto)
  | raised (event : SorobanChainEvent)
  | resolved (event : SorobanChainEvent)

namespace DisputeOp

def escrowId : DisputeOp → String
  | .openDispute escrowId _ _ => escrowId
  | .raised event => event.escrowId
  | .resolved event => event.escrowId

def toOp : DisputeOp → Op
  | .openDispute escrowId callerAddress dto => .openDispute escrowId callerAddress dto
  | .raised event => .syncStateFromChain { event with eventType := .DisputeRaised }
  | .resolved event => .syncStateFromChain { event with eventType := .DisputeResolved }

/-- The state a resolution leads to. -/
def closed (event : SorobanChainEvent) : EscrowState :=
  if event.resolution = some .REFUND then .REFUNDED else .COMPLETED

/-- The state and the dispute status the operation is going to leave, if its guards let it. -/
def plan (D : Deployment) (involved : String → Bool) :
    DisputeOp → EscrowState × Option DisputeStatus → Option (EscrowState × Option DisputeStatus)
  | .openDispute _ callerAddress _, x =>
    if involved callerAddress = true ∧ x.1 ∈ DISPUTABLE_STATES ∧ x.2 = none then
      some (.DISPUTED, some .OPEN)
    else none
  | .raised _, x =>
    if x.1 = .DISPUTED ∨ x.1 ∈ TERMINAL_STATES then none
    else if D.prisma = false then some (.DISPUTED, x.2)
    else if x.2 = none then some (.DISPUTED, some .OPEN)
    else none
  | .resolved event, x =>
    if x.1 ∈ TERMINAL_STATES then none
    else if D.prisma = false ∨ x.2 = none then some (closed event, x.2)
    else if x.2 = some .RESOLVED then none
    else some (closed event, some .RESOLVED)

/-- What one undisturbed execution leaves. -/
def settled (D : Deployment) (involved : String → Bool) (op : DisputeOp)
    (x : EscrowState × Option DisputeStatus) : EscrowState × Option DisputeStatus :=
  (op.plan D involved x).getD x

variable {D : Deployment} {involved : String → Bool} {op : DisputeOp}
  {x t : EscrowState × Option DisputeStatus}

/-- A resolution closes the escrow. -/
theorem closed_terminal (event : SorobanChainEvent) : closed event ∈ TERMINAL_STATES := by
  unfold closed
  split <;> decide

/-- The plans there are. -/
inductive Planned (D : Deployment) :
    DisputeOp → EscrowState × Option DisputeStatus → EscrowState × Option DisputeStatus → Prop
  | opened {escrowId callerAddress : String} {dto : OpenDisputeDto} {s : EscrowState}
      (hs : s ∈ DISPUTABLE_STATES) :
      Planned D (.openDispute escrowId callerAddress dto) (s, none) (.DISPUTED, some .OPEN)
  | recorded {event : SorobanChainEvent} {s : EscrowState} (hprisma : D.prisma = true)
      (hs : s ≠ .DISPUTED) : Planned D (.raised event) (s, none) (.DISPUTED, some .OPEN)
  | moved {event : SorobanChainEvent} {s : EscrowState} {d : Option DisputeStatus}
      (hs : s ≠ .DISPUTED) : Planned D (.raised event) (s, d) (.DISPUTED, d)
  | resolved {event : SorobanChainEvent} {s : EscrowState} {status : DisputeStatus}
      (hprisma : D.prisma = true) (hs : s ∉ TERMINAL_STATES) (hstatus : status ≠ .RESOLVED) :
      Planned D (.resolved event) (s, some status) (closed event, some .RESOLVED)
  | closed {event : SorobanChainEvent} {s : EscrowState} {d : Option DisputeStatus}
      (hs : s ∉ TERMINAL_STATES) : Planned D (.resolved event) (s, d) (closed event, d)

/-- Inversion: each plan is one of these. -/
theorem planned (h : op.plan D involved x = some t) : Planned D op x t := by
  obtain ⟨s, d⟩ := x
  cases op with
  | openDispute escrowId callerAddress dto =>
    simp only [plan] at h
    split at h
    · next hguard =>
      obtain ⟨_, hs, rfl⟩ := hguard
      rw [← Option.some.inj h]
      exact .opened hs
    · cases h
  | raised event =>
    simp only [plan] at h
    split at h
    · cases h
    · next hopen =>
      have hs : s ≠ .DISPUTED := fun hs => hopen (.inl hs)
      split at h
      · rw [← Option.some.inj h]
        exact .moved hs
      · next hprisma =>
        split at h
        · next hnone =>
          rw [← Option.some.inj h, hnone]
          exact .recorded (Bool.not_eq_false _ ▸ hprisma) hs
        · cases h
  | resolved event =>
    simp only [plan] at h
    split at h
    · cases h
    · next hs =>
      split at h
      · rw [← Option.some.inj h]
        exact .closed hs
      · next hwired =>
        have hprisma : D.prisma = true :=
          Bool.not_eq_false _ ▸ fun hprisma => hwired (.inl hprisma)
        split at h
        · cases h
        · next hunresolved =>
          rw [← Option.some.inj h]
          cases d with
          | none => exact absurd (.inr rfl) hwired
          | some status => exact .resolved hprisma hs fun heq => hunresolved (by rw [heq])

/-- Once carried out, the plan is empty. -/
theorem plan_done (h : op.plan D involved x = some t) : op.plan D involved t = none := by
  cases planned h with
  | opened _ => exact if_neg fun hguard => absurd hguard.2.1 (by decide)
  | recorded _ _ => simp [plan]
  | moved _ => simp [plan]
  | resolved _ _ _ => exact if_pos (closed_terminal _)
  | closed _ => exact if_pos (closed_terminal _)

/-- The plan moves the escrow. -/
theorem plan_moves (h : op.plan D involved x = some t) : t.1 ≠ x.1 := by
  intro hsame
  cases planned h with
  | @opened _ _ _ s hs =>
    rw [show s = EscrowState.DISPUTED from hsame.symm] at hs
    exact absurd hs (by decide)
  | recorded _ hs => exact hs hsame.symm
  | moved hs => exact hs hsame.symm
  | @resolved event s status _ hs _ =>
    rw [show s = closed event from hsame.symm] at hs
    exact hs (closed_terminal event)
  | @closed event s d hs =>
    rw [show s = closed event from hsame.symm] at hs
    exact hs (closed_terminal event)

/-- With its dispute written and its escrow not, the plan is empty too. -/
theorem plan_half (h : op.plan D involved x = some t) (hwrites : t.2 ≠ x.2) :
    op.plan D involved (x.1, t.2) = none := by
  cases planned h with
  | opened _ => exact if_neg fun hguard => nomatch hguard.2.2
  | @recorded event s hprisma hs =>
    simp only [plan, hprisma]
    split <;> rfl
  | moved _ => exact absurd rfl hwrites
  | @resolved event s status hprisma hs _ =>
    simp only [plan, hprisma, if_neg hs]
    rfl
  | closed _ => exact absurd rfl hwrites

theorem settled_of_none (h : op.plan D involved x = none) : op.settled D involved x = x := by
  rw [settled, h]
  rfl

theorem settled_of_some (h : op.plan D involved x = some t) : op.settled D involved x = t := by
  rw [settled, h]
  rfl

/-- A second execution has nothing left to do. -/
theorem settled_settled : op.settled D involved (op.settled D involved x) = op.settled D involved x := by
  cases h : op.plan D involved x with
  | none => rw [settled_of_none h, settled_of_none h]
  | some t => rw [settled_of_some h, settled_of_none (plan_done h)]

/-- The operation writes the dispute row of this escrow. -/
def writesDispute (D : Deployment) (w : World) (row : EscrowRow) : DisputeOp → Prop
  | .openDispute escrowId callerAddress _ =>
    BuyerDisputeService.isInvolved D (toEscrowRecord row) callerAddress = true ∧
      row.state ∈ DISPUTABLE_STATES ∧ w.db.disputes.get escrowId = none
  | .raised event =>
    D.prisma = true ∧ row.state ≠ .DISPUTED ∧ w.db.disputes.get event.escrowId = none
  | .resolved event =>
    D.prisma = true ∧ ∃ d, w.db.disputes.get event.escrowId = some d ∧ d.status ≠ .RESOLVED

end DisputeOp

/-! ## Interruptions

One kind of call is rejected, wherever it is made, and no other. -/

/-- The calls of a dispute operation that the database can reject. -/
inductive FaultPoint where
  | escrowRead | disputeRead | disputeWrite | escrowWrite
  deriving DecidableEq, Repr

def DbCall.point : DbCall → Option FaultPoint
  | .escrowFindUnique _ => some .escrowRead
  | .disputeFindFirst _ _ => some .disputeRead
  | .disputeCreate _ => some .disputeWrite
  | .disputeUpdate _ _ _ => some .disputeWrite
  | .escrowUpdate _ _ => some .escrowWrite
  | _ => none

/-- The database rejects the calls at this point and no others. The cache does not fail, and no
generated id is that of a dispute of `w`. -/
structure FailsAt (point : Option FaultPoint) (w : World) (ch : Choice) : Prop where
  fault : ∀ c, ch.fault c ≠ none ↔ point ≠ none ∧ c.point = point
  kept : ch.lost = false
  fresh : ∀ d ∈ w.db.disputes.rows, d.id ≠ ch.uuid

/-- No call is rejected. -/
abbrev Succeeds (w : World) (ch : Choice) : Prop := FailsAt none w ch

section interruption

variable {D : Deployment} {involved : String → Bool} {point : Option FaultPoint} {w₀ w w' : World}
  {id : String} {x : EscrowState × Option DisputeStatus} {α : Type}

/-- What is rejected is the call at this point. -/
theorem point_of_rejects {c : DbCall} {e : Err} (h : Rejects (FailsAt point w₀) c e) :
    point ≠ none ∧ c.point = point := by
  obtain ⟨ch, p, hch, hfault, _⟩ := h
  exact (hch.fault c).mp (by rw [hfault]; exact Option.some_ne_none p)

/-- Where the operations on one escrow stand: the pair they are about, who may act, and which
disputes there are beside. -/
structure Standing (D : Deployment) (id : String) (involved : String → Bool) (w₀ : World)
    (x : EscrowState × Option DisputeStatus) (w : World) : Prop where
  coherent : Coherent D w
  row : ∃ row, w.db.escrows.get id = some row ∧ row.state = x.1 ∧
    ∀ caller, BuyerDisputeService.isInvolved D (toEscrowRecord row) caller = involved caller
  dispute : (w.db.disputes.get id).map (·.status) = x.2
  /-- While the escrow has no dispute, nothing has been inserted. -/
  unrecorded : x.2 = none → w.db.disputes = w₀.db.disputes

/-- The pair is the case of the escrow. -/
theorem Standing.caseOf (h : Standing D id involved w₀ x w) : w.caseOf id = ⟨some x.1, x.2⟩ := by
  obtain ⟨row, hrow, hstate, _⟩ := h.row
  have hs : w.stateOf id = some x.1 := by
    rw [World.stateOf, hrow, ← hstate]
    rfl
  exact Case.ext hs h.dispute

/-- Calls that change no row leave it so. -/
theorem Standing.quiet (h : Standing D id involved w₀ x w) (hquiet : Quiet D w w') :
    Standing D id involved w₀ x w' where
  coherent := hquiet.coherent
  row := by rw [hquiet.rows.1]; exact h.row
  dispute := by rw [hquiet.rows.2]; exact h.dispute
  unrecorded := by rw [hquiet.rows.2]; exact h.unrecorded

/-- The dispute has been written. -/
theorem Standing.set (h : Standing D id involved w₀ x w) {status : DisputeStatus}
    (hset : DisputeSet D id status w w') : Standing D id involved w₀ (x.1, some status) w' where
  coherent := hset.coherent
  row := by rw [hset.escrows]; exact h.row
  dispute := hset.status
  unrecorded := nofun

/-- The escrow has been written. -/
theorem Standing.wrote (h : Standing D id involved w₀ x w) {row : EscrowRow} {data : EscrowData}
    {after : EscrowState} (hrow : w.db.escrows.get id = some row)
    (hdata : data.state = some after) (hwrote : Wrote D row data w w') :
    Standing D id involved w₀ (after, x.2) w' := by
  obtain ⟨row', hrow', _, hinvolved⟩ := h.row
  obtain rfl : row' = row := Option.some.inj (hrow'.symm.trans hrow)
  obtain ⟨now, hescrows⟩ := hwrote.escrows
  refine ⟨hwrote.coherent, ⟨row'.update data now, ?_, ?_, hinvolved⟩, ?_, ?_⟩
  · rw [hescrows, Store.Table.get_put, if_pos]
    exact (get_id hrow).symm
  · rw [EscrowRow.update_state, hdata]
    rfl
  · rw [hwrote.disputes]
    exact h.dispute
  · rw [hwrote.disputes]
    exact h.unrecorded

/-- Notifications change nothing. -/
theorem Standing.notify (h : Standing D id involved w₀ x w) {A : Choice → Prop} (n : Notification)
    (record : EscrowRecord) :
    (TrustLink.notify n record).wp (alone A) (fun _ => Standing D id involved w₀ x) w :=
  (wp_machine_perform (M := world)).mpr fun _ _ =>
    ⟨h.coherent, h.row, h.dispute, h.unrecorded⟩

/-- The write of the escrow, and what follows it: it is rejected if and only if it is the point
of failure. -/
theorem wp_standing_update {data : EscrowData} {after : EscrowState} {f : EscrowRecord → App α}
    (h : Standing D id involved w₀ x w) (hdata : data.state = some after)
    (hf : ∀ record w', Standing D id involved w₀ (after, x.2) w' →
      (f record).wp (alone (FailsAt point w₀)) (fun _ => Standing D id involved w₀ (after, x.2)) w') :
    (EscrowRepository.update D id data >>= f).wp (alone (FailsAt point w₀))
      (fun _ => Standing D id involved w₀
        (if point = some .escrowWrite then x.1 else after, x.2)) w := by
  obtain ⟨row, hrow, _⟩ := h.row
  rw [wp_bind]
  by_cases hpoint : point = some .escrowWrite
  · rw [if_pos hpoint]
    unfold EscrowRepository.update
    rw [wp_bind, wp_handle_db]
    intro ch hch
    have hfault : ch.fault (.escrowUpdate id data) ≠ none :=
      (hch.fault _).mpr ⟨by rw [hpoint]; exact Option.some_ne_none _, hpoint.symm⟩
    obtain ⟨p, hp⟩ := Option.ne_none_iff_exists'.mp hfault
    simp only [handle, handleDb, hp]
    exact h
  · rw [if_neg hpoint]
    refine wp_update (fun ch hch => hch.kept) h.coherent ?_ ?_ ?_
    · exact fun e hr => absurd (point_of_rejects hr).2.symm hpoint
    · intro hmissing
      rw [hrow] at hmissing
      cases hmissing
    · intro row' now w₁ hrow' hwrote
      exact hf _ w₁ (h.wrote hrow' hdata hwrote)

/-- The insertion of a dispute with a fresh id: it fails if the escrow has one, or at its point of
failure. -/
theorem wp_standing_create {data : NewDispute} {Q : Except Err Dispute → World → Prop}
    (h : Standing D data.escrowId involved w₀ x w)
    (hfresh : ∀ ch, FailsAt point w₀ ch → ∀ d ∈ w₀.db.disputes.rows, d.id ≠ data.id.getD ch.uuid)
    (htaken : x.2 ≠ none → ∀ e, Q (.error e) w)
    (hfail : point = some .disputeWrite → ∀ e, Q (.error e) w)
    (hcreated : x.2 = none → ∀ d w',
      Standing D data.escrowId involved w₀ (x.1, some .OPEN) w' → Q (.ok d) w') :
    (db (.disputeCreate data)).wp (alone (FailsAt point w₀)) Q w := by
  rw [wp_handle_db]
  intro ch hch
  by_cases hnone : x.2 = none
  · cases hfault : ch.fault (.disputeCreate data) with
    | some p =>
      simp only [handle, handleDb, hfault]
      have hpoint := (hch.fault (.disputeCreate data)).mp (by rw [hfault]; exact Option.some_ne_none p)
      exact hfail hpoint.2.symm _
    | none =>
      have hunset : w.db.disputes.get data.escrowId = none := by
        have hdispute := h.dispute
        rw [hnone] at hdispute
        exact Option.map_eq_none_iff.mp hdispute
      have hnew : ∀ d' ∈ w.db.disputes.rows, d'.id ≠ (Db.newDispute data ch.uuid ch.now).id := by
        rw [h.unrecorded hnone]
        exact hfresh ch hch
      obtain ⟨row, hrow, _⟩ := h.row
      rw [handle_disputeCreate_ok ch w hfault hunset hnew (by rw [hrow]; exact Option.some_ne_none _)]
      exact hcreated hnone _ _
        (h.set (disputeSet_put (d := Db.newDispute data ch.uuid ch.now) h.coherent rfl rfl))
  · -- the unique index on `escrowId` refuses a second row
    rcases handle_disputeCreate ch w data with ⟨e, heq⟩ | ⟨hunset, _⟩
    · rw [heq]
      exact htaken hnone e
    · have hdispute := h.dispute
      rw [hunset] at hdispute
      exact absurd hdispute.symm hnone

/-! ## One execution

The operations are followed up to the point of failure; the guards they meet are those of the plan.
-/

/-- What an execution leaves: nothing new, or what was planned up to the point of failure. -/
def Ends (D : Deployment) (op : DisputeOp) (involved : String → Bool) (w₀ : World)
    (point : Option FaultPoint) (x : EscrowState × Option DisputeStatus) (w' : World) : Prop :=
  match op.plan D involved x with
  | none => Standing D op.escrowId involved w₀ x w'
  | some t =>
    (Standing D op.escrowId involved w₀ x w' ∧ point ≠ none ∧ point ≠ some .escrowWrite) ∨
      Standing D op.escrowId involved w₀ (if point = some .escrowWrite then x.1 else t.1, t.2) w'

variable {op : DisputeOp} {t : EscrowState × Option DisputeStatus}

/-- Where nothing is planned nothing is done. -/
theorem ends_none (hplan : op.plan D involved x = none)
    (h : Standing D op.escrowId involved w₀ x w') : Ends D op involved w₀ point x w' := by
  unfold Ends
  rw [hplan]
  exact h

/-- A rejection before the writes leaves what was there. -/
theorem ends_early (hpoint : point ≠ none) (hearly : point ≠ some .escrowWrite)
    (h : Standing D op.escrowId involved w₀ x w') : Ends D op involved w₀ point x w' := by
  unfold Ends
  split
  · exact h
  · exact .inl ⟨h, hpoint, hearly⟩

/-- The plan is carried out, except for a write of the escrow that is rejected. -/
theorem ends_planned (hplan : op.plan D involved x = some t)
    (h : Standing D op.escrowId involved w₀ (if point = some .escrowWrite then x.1 else t.1, t.2) w') :
    Ends D op involved w₀ point x w' := by
  unfold Ends
  rw [hplan]
  exact .inr h

/-- A rejected call that is not the write of the escrow. -/
theorem ends_rejected {c : DbCall} {e : Err} (hr : Rejects (FailsAt point w₀) c e)
    (hc : c.point ≠ some .escrowWrite) (h : Standing D op.escrowId involved w₀ x w') :
    Ends D op involved w₀ point x w' := by
  obtain ⟨hpoint, heq⟩ := point_of_rejects hr
  exact ends_early hpoint (heq ▸ hc) h

/-- The dispute is inserted before the escrow is written. -/
theorem wp_interrupted_openDispute {escrowId callerAddress : String} {dto : OpenDisputeDto}
    (h : Standing D escrowId involved w₀ x w) :
    (BuyerDisputeService.openDispute D escrowId callerAddress dto).wp (alone (FailsAt point w₀))
      (fun _ => Ends D (.openDispute escrowId callerAddress dto) involved w₀ point x) w := by
  obtain ⟨row, hrow, hstate, hinvolved⟩ := h.row
  unfold BuyerDisputeService.openDispute BuyerDisputeService.authorise
  rw [wp_bind, wp_bind]
  refine wp_findById h.coherent (fun e hr => ends_rejected hr nofun h) fun w₁ hquiet => ?_
  have h₁ := h.quiet hquiet
  rw [hrow]
  refine wp_if (fun hout => ?_) fun hin => ?_
  · refine ends_none (if_neg fun hguard => ?_) h₁
    rw [hinvolved] at hout
    rw [hout] at hguard
    cases hguard.1
  have hin : involved callerAddress = true := by
    rw [← hinvolved]
    exact Bool.not_eq_false _ ▸ hin
  rw [wp_pure]
  dsimp only
  rw [show (toEscrowRecord row).state = x.1 from hstate]
  refine wp_if (fun hdisputed => ?_) fun _ => ?_
  · refine ends_none (if_neg fun hguard => ?_) h₁
    rw [hdisputed] at hguard
    exact absurd hguard.2.1 (by decide)
  refine wp_if (fun hclosed => ?_) fun hopen => ?_
  · exact ends_none (if_neg fun hguard => hclosed hguard.2.1) h₁
  have hopen : x.1 ∈ DISPUTABLE_STATES := Decidable.not_not.mp hopen
  rw [wp_bind]
  -- the insert is the point of no return: before it nothing is planned, after it the rest is
  refine wp_standing_create h₁ (fun ch hch => hch.fresh) ?_ ?_ ?_
  · exact fun htaken e => ends_none (if_neg fun hguard => htaken hguard.2.2) h₁
  · intro hpoint e
    rw [hpoint]
    exact ends_early (Option.some_ne_none _) (by decide) h₁
  · intro hnone d w₂ h₂
    have hplan : (DisputeOp.openDispute escrowId callerAddress dto).plan D involved x
        = some (.DISPUTED, some .OPEN) := if_pos ⟨hin, hopen, hnone⟩
    refine wp_mono (wp_standing_update h₂ rfl fun record w₃ h₃ => ?_)
      fun _ w' h' => ends_planned hplan h'
    refine wp_seq (h₃.notify _ record) (fun _ _ h₄ => h₄) fun _ w₄ h₄ => ?_
    exact wp_seq (h₄.notify _ record) (fun _ _ h₅ => h₅) fun _ _ h₅ => h₅

/-- So does a mutator of a chain event with what is sent about it. -/
theorem wp_standing_applied {after : EscrowState} {write : App EscrowRecord}
    (hwrite : Mutates D id after write) (n : Option Notification)
    (h : Standing D id involved w₀ x w) :
    (applied write n).wp (alone (FailsAt point w₀)) (fun _ => Standing D id involved w₀
      (if point = some .escrowWrite then x.1 else after, x.2)) w := by
  have hupdate : ∀ data : EscrowData, data.state = some after →
      (applied (EscrowRepository.update D id data) n).wp (alone (FailsAt point w₀))
        (fun _ => Standing D id involved w₀
          (if point = some .escrowWrite then x.1 else after, x.2)) w := by
    intro data hdata
    refine wp_standing_update h hdata fun record w₁ h₁ => ?_
    cases n with
    | none => exact h₁
    | some n => exact wp_seq (h₁.notify n record) (fun _ _ h₂ => h₂) fun _ _ h₂ => h₂
  cases hwrite with
  | plain _ hdata => exact hupdate _ hdata
  | dated _ hdata =>
    -- the clock is read first
    unfold applied
    rw [wp_bind, wp_bind]
    refine (wp_machine_perform (M := world)).mpr fun ch _ => ?_
    have hrest := hupdate _ (hdata ch.now)
    unfold applied at hrest
    rw [wp_bind] at hrest
    exact hrest

/-- A chain event is applied to the escrow as it is stored, unless reading it fails. -/
theorem wp_interrupted_sync (op : DisputeOp) {event : SorobanChainEvent} {row : EscrowRow}
    (hid : op.escrowId = event.escrowId) (h : Standing D op.escrowId involved w₀ x w)
    (hrow : w.db.escrows.get op.escrowId = some row)
    (happly : ∀ w₁, Standing D op.escrowId involved w₀ x w₁ →
      (applyEvent D event (toEscrowRecord row)).wp (alone (FailsAt point w₀))
        (fun _ => Ends D op involved w₀ point x) w₁) :
    (syncStateFromChain D event).wp (alone (FailsAt point w₀))
      (fun _ => Ends D op involved w₀ point x) w := by
  unfold syncStateFromChain
  rw [wp_bind, ← hid]
  refine wp_findById h.coherent (fun e hr => ends_rejected hr nofun h) fun w₁ hquiet => ?_
  rw [hrow]
  exact happly w₁ (h.quiet hquiet)

/-- So it is for the event, if Prisma is wired in. -/
theorem wp_interrupted_raised {event : SorobanChainEvent}
    (h : Standing D event.escrowId involved w₀ x w) :
    (syncStateFromChain D { event with eventType := .DisputeRaised }).wp
      (alone (FailsAt point w₀)) (fun _ => Ends D (.raised event) involved w₀ point x) w := by
  obtain ⟨row, hrow, hstate, _⟩ := h.row
  refine wp_interrupted_sync (.raised event) rfl h hrow fun w₁ h₁ => ?_
  show (onDisputeRaised D _ _).wp _ _ _
  unfold onDisputeRaised
  rw [show (toEscrowRecord row).state = x.1 from hstate]
  refine wp_if (fun hdisputed => ?_) fun hnew => ?_
  · exact ends_none (if_pos (.inl hdisputed)) h₁
  refine wp_if (fun hterminal => ?_) fun hopen => ?_
  · exact ends_none (if_pos (.inr hterminal)) h₁
  have hguard : ¬ (x.1 = .DISPUTED ∨ x.1 ∈ TERMINAL_STATES) := by
    rintro (h | h)
    · exact hnew h
    · exact hopen h
  have hfinish : ∀ (d : Option DisputeStatus) (w₂ : World),
      (DisputeOp.raised event).plan D involved x = some (.DISPUTED, d) →
      Standing D event.escrowId involved w₀ (x.1, d) w₂ →
      (applied (EscrowRepository.updateState D event.escrowId .DISPUTED)
        (some .notifyDisputed)).wp (alone (FailsAt point w₀))
          (fun _ => Ends D (.raised event) involved w₀ point x) w₂ := by
    intro d w₂ hplan h₂
    exact wp_mono (wp_standing_applied (.plain (.state _ (by decide)) rfl) _ h₂)
      fun _ w' h' => ends_planned hplan h'
  rw [wp_bind]
  unfold recordDispute
  refine wp_if (fun hprisma => ?_) fun hunwired => ?_
  · have hwired : ¬ D.prisma = false := by rw [hprisma]; exact Bool.false_ne_true ∘ Eq.symm
    rw [wp_bind]
    -- the id is generated first; any id the environment generates is fresh
    refine (wp_machine_perform (M := world)).mpr fun ch hch => ?_
    refine (wp_bind _ _ _ _).mpr (wp_standing_create h₁ (fun _ _ => hch.fresh) ?_ ?_ ?_)
    · intro htaken e
      refine ends_none ?_ h₁
      simp only [DisputeOp.plan, if_neg hguard, if_neg hwired, if_neg htaken]
    · intro hpoint e
      rw [hpoint]
      exact ends_early (Option.some_ne_none _) (by decide) h₁
    · intro hnone d w₂ h₂
      refine hfinish (some .OPEN) w₂ ?_ h₂
      simp only [DisputeOp.plan, if_neg hguard, if_neg hwired, if_pos hnone]
  · have hprisma : D.prisma = false := Bool.eq_false_iff.mpr hunwired
    refine hfinish x.2 w₁ ?_ h₁
    simp only [DisputeOp.plan, if_neg hguard, if_pos hprisma]

/-- The dispute is settled before the escrow is closed. -/
theorem wp_interrupted_resolved {event : SorobanChainEvent}
    (h : Standing D event.escrowId involved w₀ x w) :
    (syncStateFromChain D { event with eventType := .DisputeResolved }).wp
      (alone (FailsAt point w₀)) (fun _ => Ends D (.resolved event) involved w₀ point x) w := by
  obtain ⟨row, hrow, hstate, _⟩ := h.row
  refine wp_interrupted_sync (.resolved event) rfl h hrow fun w₁ h₁ => ?_
  show (onDisputeResolved D _ _).wp _ _ _
  unfold onDisputeResolved
  rw [show (toEscrowRecord row).state = x.1 from hstate]
  refine wp_if (fun hterminal => ?_) fun hopen => ?_
  · exact ends_none (if_pos hterminal) h₁
  -- both resolutions end in the same way
  have hfinish : ∀ (d : Option DisputeStatus) (w₂ : World),
      (DisputeOp.resolved event).plan D involved x = some (DisputeOp.closed event, d) →
      Standing D event.escrowId involved w₀ (x.1, d) w₂ →
      (if event.resolution = some .REFUND then
        applied (EscrowRepository.markRefunded D event.escrowId) (some .notifyRefunded)
      else applied (EscrowRepository.markCompleted D event.escrowId)
        (some .notifyCompleted)).wp (alone (FailsAt point w₀))
          (fun _ => Ends D (.resolved event) involved w₀ point x) w₂ := by
    intro d w₂ hplan h₂
    unfold DisputeOp.closed at hplan
    refine wp_if (fun hrefund => ?_) fun hrelease => ?_
    · rw [if_pos hrefund] at hplan
      exact wp_mono (wp_standing_applied (.plain (.state _ (by decide)) rfl) _ h₂)
        fun _ w' h' => ends_planned hplan h'
    · rw [if_neg hrelease] at hplan
      exact wp_mono (wp_standing_applied (.plain (.state _ (by decide)) rfl) _ h₂)
        fun _ w' h' => ends_planned hplan h'
  have hx : (w₁.caseOf event.escrowId).dispute = x.2 := h₁.dispute
  rw [wp_bind]
  refine wp_settleDispute event.escrowId h₁.coherent (fun e hr => ends_rejected hr nofun h₁)
    (fun d t e hr => ends_rejected hr nofun h₁) ?_ ?_ ?_ ?_
  · intro hprisma
    refine wp_if (fun _ => hfinish x.2 w₁ ?_ h₁) fun h => absurd rfl h
    simp only [DisputeOp.plan, if_neg hopen, if_pos (Or.inl hprisma)]
  · intro _ hnone
    refine wp_if (fun _ => hfinish x.2 w₁ ?_ h₁) fun h => absurd rfl h
    rw [hx] at hnone
    simp only [DisputeOp.plan, if_neg hopen, if_pos (Or.inr hnone)]
  · intro hprisma hresolved
    refine wp_if nofun fun _ => ends_none ?_ h₁
    rw [hx] at hresolved
    simp [DisputeOp.plan, hprisma, hresolved]
  · intro w₂ status hprisma hstatus hunresolved hset
    refine wp_if (fun _ => ?_) fun h => absurd rfl h
    refine hfinish (some .RESOLVED) w₂ ?_ (h₁.set hset)
    rw [hx] at hstatus
    simp [DisputeOp.plan, if_neg hopen, hprisma, hstatus, hunresolved]

/-- Each of the three operations. -/
theorem wp_interrupted (op : DisputeOp) (h : Standing D op.escrowId involved w₀ x w) :
    (op.toOp.prog D).wp (alone (FailsAt point w₀))
      (fun _ => Ends D op involved w₀ point x) w := by
  have hvoid : ∀ {β : Type} {p : App β},
      p.wp (alone (FailsAt point w₀)) (fun _ => Ends D op involved w₀ point x) w →
      p.void.wp (alone (FailsAt point w₀)) (fun _ => Ends D op involved w₀ point x) w := by
    intro β p hp
    rw [wp_void]
    exact wp_mono hp fun r _ h => by cases r <;> exact h
  cases op with
  | openDispute escrowId callerAddress dto => exact hvoid (wp_interrupted_openDispute h)
  | raised event => exact hvoid (wp_interrupted_raised h)
  | resolved event => exact hvoid (wp_interrupted_resolved h)

end interruption

/-! ## Retries

The second execution starts from what the first has left, and nothing is rejected. -/

section retries

variable {D : Deployment} {involved : String → Bool} {w₀ w w' : World} {op : DisputeOp}
  {x : EscrowState × Option DisputeStatus}

/-- Undisturbed, the plan is carried out. -/
theorem Ends.settled (h : Ends D op involved w₀ none x w') :
    Standing D op.escrowId involved w₀ (op.settled D involved x) w' := by
  unfold Ends at h
  split at h
  · next hplan =>
    rw [DisputeOp.settled_of_none hplan]
    exact h
  · next t hplan =>
    rw [DisputeOp.settled_of_some hplan]
    rcases h with ⟨_, hpoint, _⟩ | h
    · exact absurd rfl hpoint
    · exact h

/-- However often it is repeated, an operation that is not interrupted does its work once. -/
theorem settled_of_retries {retries : List (Nat → Choice)} (h : Standing D op.escrowId involved w₀ x w)
    (hretries : ∀ env ∈ retries, ∀ n, Succeeds w₀ (env n)) (hne : retries ≠ []) :
    Standing D op.escrowId involved w₀ (op.settled D involved x)
      (runOps D w (retries.map fun env => (op.toOp, env))) := by
  induction retries generalizing w x with
  | nil => exact absurd rfl hne
  | cons env retries ih =>
    have hfirst : Standing D op.escrowId involved w₀ (op.settled D involved x)
        (runOps D w [(op.toOp, env)]) :=
      (exec_of_wp (wp_interrupted op h) (hretries env List.mem_cons_self)).settled
    cases retries with
    | nil => exact hfirst
    | cons env' retries =>
      rw [← DisputeOp.settled_settled]
      exact ih hfirst (fun e he => hretries e (List.mem_cons_of_mem env he)) (List.cons_ne_nil _ _)

/-- The pair an operation is about, as it is stored. -/
def stored (w : World) (row : EscrowRow) : EscrowState × Option DisputeStatus :=
  (row.state, (w.db.disputes.get row.id).map (·.status))

/-- The pair to begin with is the stored one. -/
theorem standing_stored (op : DisputeOp) {row : EscrowRow} (hw : Coherent D w)
    (hrow : w.db.escrows.get op.escrowId = some row) :
    Standing D op.escrowId (BuyerDisputeService.isInvolved D (toEscrowRecord row)) w
      (stored w row) w where
  coherent := hw
  row := ⟨row, hrow, rfl, fun _ => rfl⟩
  dispute := by rw [stored, get_id hrow]
  unrecorded := fun _ => rfl

/-- The plan changes the dispute exactly when the operation is one that writes it. -/
theorem writesDispute_iff {row : EscrowRow} (hrow : w.db.escrows.get op.escrowId = some row)
    (hopen : row.state ∉ TERMINAL_STATES) :
    op.writesDispute D w row ↔
      ∃ t, op.plan D (BuyerDisputeService.isInvolved D (toEscrowRecord row)) (stored w row) = some t ∧
        t.2 ≠ (stored w row).2 := by
  have hid := get_id hrow
  constructor
  · intro hwrites
    cases op with
    | openDispute escrowId callerAddress dto =>
      obtain ⟨hinvolved, hdisputable, hnone⟩ := hwrites
      have hd : (stored w row).2 = none := by
        rw [stored, hid]
        exact Option.map_eq_none_iff.mpr hnone
      exact ⟨_, if_pos ⟨hinvolved, hdisputable, hd⟩, by rw [hd]; exact Option.some_ne_none _⟩
    | raised event =>
      obtain ⟨hprisma, hnew, hnone⟩ := hwrites
      have hd : (stored w row).2 = none := by
        rw [stored, hid]
        exact Option.map_eq_none_iff.mpr hnone
      have hguard : ¬ ((stored w row).1 = .DISPUTED ∨ (stored w row).1 ∈ TERMINAL_STATES) := by
        rintro (h | h)
        · exact hnew h
        · exact hopen h
      refine ⟨(.DISPUTED, some .OPEN), ?_, by rw [hd]; exact Option.some_ne_none _⟩
      simp [DisputeOp.plan, if_neg hguard, hprisma, hd]
    | resolved event =>
      obtain ⟨hprisma, d, hget, hunresolved⟩ := hwrites
      have hd : (stored w row).2 = some d.status := by
        rw [stored, hid]
        exact Option.map_eq_some_iff.mpr ⟨d, hget, rfl⟩
      have hguard : (stored w row).1 ∉ TERMINAL_STATES := hopen
      refine ⟨(DisputeOp.closed event, some .RESOLVED), ?_, ?_⟩
      · simp [DisputeOp.plan, if_neg hguard, hprisma, hd, hunresolved]
      · rw [hd]
        exact fun heq => hunresolved (Option.some.inj heq).symm
  · rintro ⟨t, hplan, hwrites⟩
    -- from here the plan alone is looked at; `hs` and `hd` lead back to the tables
    generalize hx : stored w row = x at hplan hwrites
    have hs : row.state = x.1 := congrArg Prod.fst hx
    have hd : (w.db.disputes.get op.escrowId).map (·.status) = x.2 := by
      rw [← hid]
      exact congrArg Prod.snd hx
    cases op with
    | openDispute escrowId callerAddress dto =>
      simp only [DisputeOp.plan] at hplan
      split at hplan
      · next hguard =>
        rw [hguard.2.2] at hd
        exact ⟨hguard.1, hs ▸ hguard.2.1, Option.map_eq_none_iff.mp hd⟩
      · cases hplan
    | raised event =>
      cases DisputeOp.planned hplan with
      | recorded hprisma hnew =>
        exact ⟨hprisma, hs ▸ hnew, Option.map_eq_none_iff.mp hd⟩
      | moved _ => exact absurd rfl hwrites
    | resolved event =>
      cases DisputeOp.planned hplan with
      | resolved hprisma _ hstatus =>
        obtain ⟨d, hget, hd⟩ := Option.map_eq_some_iff.mp hd
        exact ⟨hprisma, d, hget, hd ▸ hstatus⟩
      | closed _ => exact absurd rfl hwrites

/-- **Crash and retry.** A dispute operation on an escrow that is not terminal is interrupted at
one of its database calls and then repeated, once or more. It ends with the state and the dispute
status of a single undisturbed execution unless the rejected call is the write of the escrow and
the operation has just written the dispute. -/
theorem retry_converges_iff (D : Deployment) (w : World) (op : DisputeOp) (row : EscrowRow)
    (point : FaultPoint) (interrupted once : Nat → Choice) (retries : List (Nat → Choice))
    (hw : Coherent D w) (hrow : w.db.escrows.get op.escrowId = some row)
    (hopen : row.state ∉ TERMINAL_STATES) (hinterrupted : ∀ n, FailsAt (some point) w (interrupted n))
    (honce : ∀ n, Succeeds w (once n)) (hretries : ∀ env ∈ retries, ∀ n, Succeeds w (env n))
    (hne : retries ≠ []) :
    (runOps D w ((op.toOp, interrupted) :: retries.map fun env => (op.toOp, env))).caseOf op.escrowId
        = (runOps D w [(op.toOp, once)]).caseOf op.escrowId
      ↔ ¬ (point = .escrowWrite ∧ op.writesDispute D w row) := by
  have hstart := standing_stored op hw hrow
  have hwrites := writesDispute_iff (D := D) hrow hopen
  generalize BuyerDisputeService.isInvolved D (toEscrowRecord row) = involved at hstart hwrites
  generalize stored w row = x at hstart hwrites
  have honce : Standing D op.escrowId involved w (op.settled D involved x)
      (runOps D w [(op.toOp, once)]) :=
    settled_of_retries hstart (by simpa using honce) (List.cons_ne_nil once [])
  have hfirst := exec_of_wp (wp_interrupted op hstart) hinterrupted
  -- whatever pair the interrupted execution leaves, the retries settle it
  have hrest : ∀ y, Standing D op.escrowId involved w y (runOps D w [(op.toOp, interrupted)]) →
      ((runOps D w ((op.toOp, interrupted) :: retries.map fun env => (op.toOp, env))).caseOf op.escrowId
          = (runOps D w [(op.toOp, once)]).caseOf op.escrowId
        ↔ op.settled D involved y = op.settled D involved x) := by
    intro y hy
    rw [runOps_cons, (settled_of_retries hy hretries hne).caseOf, honce.caseOf, Case.mk.injEq,
      Option.some.injEq, ← Prod.ext_iff]
  unfold Ends at hfirst
  cases hplan : op.plan D involved x with
  | none =>
    rw [hplan] at hfirst
    rw [hrest x hfirst, hwrites, hplan]
    exact iff_of_true rfl fun ⟨_, _, h, _⟩ => nomatch h
  | some t =>
    rw [hplan] at hfirst
    rcases hfirst with ⟨hsame, _, hearly⟩ | hstopped
    · rw [hrest x hsame]
      exact iff_of_true rfl fun h => hearly (congrArg some h.1)
    · rw [hrest _ hstopped, hwrites, hplan, DisputeOp.settled_of_some hplan]
      by_cases hpoint : point = .escrowWrite
      · rw [if_pos (congrArg some hpoint)]
        by_cases hsame : t.2 = x.2
        · -- nothing had been written: the retry starts from where the operation started
          have hx : (x.1, t.2) = x := Prod.ext rfl hsame
          rw [hx, DisputeOp.settled_of_some hplan]
          refine iff_of_true rfl ?_
          rintro ⟨_, t', ht', hne'⟩
          rw [← Option.some.inj ht'] at hne'
          exact hne' hsame
        · -- the dispute had been written: the retry is stopped by its guards
          rw [DisputeOp.settled_of_none (DisputeOp.plan_half hplan hsame)]
          refine iff_of_false ?_ fun h => h ⟨hpoint, t, rfl, hsame⟩
          exact fun heq => DisputeOp.plan_moves hplan (congrArg Prod.fst heq).symm
      · rw [if_neg fun h => hpoint (Option.some.inj h)]
        rw [DisputeOp.settled_of_none (DisputeOp.plan_done hplan)]
        exact iff_of_true rfl fun h => hpoint h.1

/-- The calls at one point are rejected. -/
def Choice.failing (point : FaultPoint) : Choice :=
  { Choice.calm with fault := fun c => if c.point = some point then some .unavailable else none }

theorem failsAt_failing {w : World} (point : FaultPoint) (hnone : w.db.disputes = Store.Table.empty) :
    FailsAt (some point) w (.failing point) where
  fault := fun c => by simp [Choice.failing]
  kept := rfl
  fresh := by
    rw [hnone]
    intro _ hd
    cases hd

theorem succeeds_calm {w : World} (hnone : w.db.disputes = Store.Table.empty) :
    Succeeds w .calm where
  fault := fun c => by simp [Choice.calm]
  kept := rfl
  fresh := by
    rw [hnone]
    intro _ hd
    cases hd

/-- A buyer opens a dispute, the insertion of the row fails, and the buyer tries twice more. -/
theorem retry_converges_after_failed_insert :
    let op : DisputeOp := .openDispute "e1" "buyer" ⟨"broken", "", none⟩
    let w := World.ofEscrows [Db.lampEscrow .FUNDED]
    (runOps .bare w [(op.toOp, fun _ => .failing .disputeWrite), (op.toOp, fun _ => .calm),
      (op.toOp, fun _ => .calm)]).caseOf "e1"
      = (runOps .bare w [(op.toOp, fun _ => .calm)]).caseOf "e1" := by
  intro op w
  refine (retry_converges_iff .bare w op (Db.lampEscrow .FUNDED) .disputeWrite
    (fun _ => .failing .disputeWrite) (fun _ => .calm) [fun _ => .calm, fun _ => .calm]
    coherent_bare rfl (by decide) (fun _ => failsAt_failing _ rfl) (fun _ => succeeds_calm rfl)
    ?_ (List.cons_ne_nil _ _)).mpr fun h => nomatch h.1
  intro env henv n
  obtain rfl : env = fun _ => .calm := by simpa using henv
  exact succeeds_calm rfl

/-- The insertion succeeds and the write of the escrow fails: the retry meets its own dispute. -/
theorem retry_blocked_by_own_dispute :
    let op : DisputeOp := .openDispute "e1" "buyer" ⟨"broken", "", none⟩
    let w := World.ofEscrows [Db.lampEscrow .FUNDED]
    (runOps .bare w [(op.toOp, fun _ => .failing .escrowWrite), (op.toOp, fun _ => .calm)]).caseOf "e1"
      = ⟨some .FUNDED, some .OPEN⟩ ∧
    (runOps .bare w [(op.toOp, fun _ => .calm)]).caseOf "e1" = ⟨some .DISPUTED, some .OPEN⟩ := by
  decide +kernel

end retries

end TrustLink
