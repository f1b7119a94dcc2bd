import TrustLink.Concurrency.Session
import TrustLink.Model.Grounds

/-!
# TrustLink — every operation keeps to the session discipline

One lemma for each operation that writes what a session knows (and for each helper it is made of),
by following its calls in order; `Session.accepts` collects them. Almost everywhere nothing is asked
of the end of the program (`Keeps`), so the lemmas compose by `keeps_bind`; the exceptions are the
loops, whose invariants speak of the iterations still to come. The other operations have no grounds
for any of the calls in question (`Model/Grounds.lean`).
-/

namespace TrustLink

open Effects EscrowService StellarWebhookService TrackingPollWorker AutoReleaseWorker
open BuyerDisputeService

namespace Session

section keeps

variable {D : Deployment} {s : Session} {id : String} {α β : Type}

/-- The program keeps to the discipline from here on. -/
abbrev Keeps (s : Session) (p : App α) : Prop := p.wp session.protocol (fun _ _ => True) s

/-- Nothing is asked of what lies between, so programs compose. -/
theorem keeps_bind {p : App α} {f : α → App β} (hp : s.Keeps p)
    (hf : ∀ a (s' : Session), s'.Keeps (f a)) :
    s.Keeps (p >>= f) :=
  wp_seq hp (fun _ _ h => h) fun a s' _ => hf a s'

theorem keeps_tryCatch {p : App α} {h : Err → App α} (hp : s.Keeps p)
    (hh : ∀ e (s' : Session), s'.Keeps (h e)) : s.Keeps (p.tryCatch h) := by
  rw [Keeps, wp_tryCatch]
  refine wp_mono hp fun r s' _ => ?_
  cases r with
  | ok a => trivial
  | error e => exact hh e s'

/-- A call that every session may make. -/
theorem keeps_perform {c : Call} (h : s.ok c) : s.Keeps (Prog.perform (S := backend) c) :=
  ⟨h, fun _ _ _ => trivial⟩

/-- A call that asks nothing of a session and teaches it nothing about the states of escrows. -/
def Neutral (c : Call) : Prop := aboutState c = false ∧ ∀ s : Session, s.ok c

/-- Where no guard stands, nothing is asked and nothing is learnt. -/
theorem neutral_of_unguarded (c : Call) (h : c.unguarded = true) : Neutral c := by
  refine ⟨by unfold aboutState; split <;> trivial, fun s => ?_⟩
  unfold Session.ok
  split <;> trivial

/-- What was read stays read over neutral calls. -/
theorem wp_neutral {p : App α} {Q : Except Err α → Session → Prop} (hp : p.Only Neutral)
    (h : ∀ r s', s'.seen = s.seen → Q r s') : p.wp session.protocol Q s := by
  have hkept : p.wp session.protocol (fun _ s' => s'.seen = s.seen) s := by
    refine hp.wp_invariant (fun c s' hc hs' => ⟨hc.2 s', ?_⟩) rfl
    rintro r s'' ⟨_, rfl⟩
    rw [← hs']
    exact next_seen s' hc.1 r
  exact wp_mono hkept h

/-- An update of an escrow that was read in a state that is not terminal. -/
theorem keeps_update {data : EscrowData} (h : s.Live id) (hclaim : data.autoReleaseSubmittedAt = none) :
    s.Keeps (EscrowRepository.update D id data) :=
  wp_mutator D hclaim (fun _ => h) (fun _ => trivial) fun _ => trivial

theorem keeps_dated {data : Time → EscrowData} (h : s.Live id)
    (hclaim : ∀ t, (data t).autoReleaseSubmittedAt = none) :
    s.Keeps (newDate >>= fun t => EscrowRepository.update D id (data t)) :=
  (wp_bind _ _ _ _).mpr (wp_date fun t => keeps_update h (hclaim t))

/-- An update of columns that no session knows anything about. -/
theorem keeps_update_other {data : EscrowData} (hstate : data.state = none)
    (hclaim : data.autoReleaseSubmittedAt = none) : s.Keeps (EscrowRepository.update D id data) :=
  wp_mutator D hclaim (fun h => by rw [hstate] at h; cases h) (fun _ => trivial) fun _ => trivial

/-! ## Chain events

The state is checked in the record that was read; the calls between that read and the write leave it
read. -/

theorem keeps_applied {write : App EscrowRecord} (n : Option Notification) (hwrite : s.Keeps write) :
    s.Keeps (applied write n) := by
  refine keeps_bind hwrite fun record s' => ?_
  cases n with
  | none => trivial
  | some n => exact wp_notified trivial

/-- A mutator of an escrow that was read in a state that is not terminal. -/
theorem keeps_mutates {after : EscrowState} {write : App EscrowRecord} (h : s.Live id)
    (hwrite : Mutates D id after write) : s.Keeps write := by
  have hclaim : ∀ {data : EscrowData}, data.Written → data.state = some after →
      data.autoReleaseSubmittedAt = none := by
    intro data hdata hstate
    cases hdata <;> first | rfl | cases hstate
  cases hwrite with
  | plain hdata hstate => exact keeps_update h (hclaim hdata hstate)
  | dated hdata hstate => exact keeps_dated h fun now => hclaim (hdata now) (hstate now)

/-- The dispute is recorded between the read and the write. -/
theorem keeps_onDisputeRaised {event : SorobanChainEvent} {escrow : EscrowRecord}
    (hseen : (event.escrowId, escrow.state) ∈ s.seen) :
    s.Keeps (onDisputeRaised D event escrow) := by
  rw [onDisputeRaised]
  refine wp_if (fun _ => trivial) fun _ => wp_if (fun _ => trivial) fun hterm => ?_
  rw [wp_bind]
  refine wp_neutral ((Grounded.only_recordDispute D event).mono neutral_of_unguarded) fun r s' hs' => ?_
  cases r with
  | error e => trivial
  | ok _ => exact keeps_applied _ (keeps_update ⟨_, hterm, hs' ▸ hseen⟩ rfl)

/-- And so it is settled. -/
theorem keeps_onDisputeResolved {event : SorobanChainEvent} {escrow : EscrowRecord}
    (hseen : (event.escrowId, escrow.state) ∈ s.seen) :
    s.Keeps (onDisputeResolved D event escrow) := by
  rw [onDisputeResolved]
  refine wp_if (fun _ => trivial) fun hterm => ?_
  rw [wp_bind]
  refine wp_neutral ((Grounded.only_settleDispute D _).mono neutral_of_unguarded) fun r s' hs' => ?_
  have hlive : s'.Live event.escrowId := ⟨_, hterm, hs' ▸ hseen⟩
  cases r with
  | error e => trivial
  | ok settled =>
    dsimp only
    rw [wp_ite, wp_ite]
    exact ⟨fun _ => ⟨fun _ => keeps_applied _ (keeps_update hlive rfl),
      fun _ => keeps_applied _ (keeps_update hlive rfl)⟩, fun _ => trivial⟩

/-- Each event writes a state only past a guard that excludes the terminal ones. -/
theorem keeps_applyEvent {event : SorobanChainEvent} {escrow : EscrowRecord}
    (hseen : (event.escrowId, escrow.state) ∈ s.seen) :
    s.Keeps (applyEvent D event escrow) := by
  have happlies := applies_applyEvent (D := D) event escrow
  generalize applyEvent D event escrow = p at happlies ⊢
  cases happlies with
  | late => trivial
  | unknown => trivial
  | written _ ht hwrite => exact keeps_applied _ (keeps_mutates ⟨_, ht.not_terminal, hseen⟩ hwrite)
  | raised => exact keeps_onDisputeRaised hseen
  | resolved => exact keeps_onDisputeResolved hseen

theorem keeps_syncStateFromChain (event : SorobanChainEvent) :
    s.Keeps (syncStateFromChain D event) := by
  rw [syncStateFromChain, Keeps, wp_bind]
  exact wp_findById D (fun _ => trivial) trivial fun record s' _ hsaw => keeps_applyEvent hsaw.1

/-! ## Cancellation and shipment

`CREATED` and `FUNDED` are what the guards ask for. -/

theorem keeps_cancelEscrow (caller : String) (isAdmin : Bool) :
    s.Keeps (cancelEscrow D id caller isAdmin) := by
  rw [cancelEscrow, Keeps, wp_bind]
  refine wp_service_findById D (fun _ => trivial) fun record s' _ hsaw => ?_
  refine wp_if (fun _ => trivial) fun _ => wp_if (fun _ => trivial) fun h => ?_
  exact keeps_dated ⟨_, by rw [not_not.mp h]; decide, hsaw.1⟩ fun _ => rfl

/-- The contract is called between the guard and the write. -/
theorem keeps_cancelPendingEscrow (caller : String) (isAdmin : Bool) :
    s.Keeps (cancelPendingEscrow D id caller isAdmin) := by
  rw [cancelPendingEscrow, Keeps, wp_bind]
  refine wp_service_findById D (fun _ => trivial) fun record s' _ hsaw => ?_
  refine wp_if (fun _ => trivial) fun _ => wp_if (fun _ => trivial) fun h => ?_
  have hterm : record.state ∉ TERMINAL_STATES := by rw [not_not.mp h]; decide
  cases record.contractEscrowId with
  | none => exact keeps_dated ⟨_, hterm, hsaw.1⟩ fun _ => rfl
  | some contractEscrowId =>
    rw [wp_bind]
    have honly : (cancelOnChain contractEscrowId caller).Only Neutral :=
      Grounded.only_cancelOnChain ⟨rfl, fun _ => trivial⟩ ⟨rfl, fun _ => trivial⟩
    refine wp_neutral honly fun r s'' hs'' => ?_
    cases r with
    | error e => trivial
    | ok _ => exact keeps_dated ⟨_, hterm, hs'' ▸ hsaw.1⟩ fun _ => rfl

theorem keeps_handleShipment (vendorAddress trackingId : String) (isAdmin : Bool) :
    s.Keeps (handleShipment D id vendorAddress trackingId isAdmin) := by
  rw [Keeps, handleShipment, wp_ite, wp_ite]
  refine ⟨fun _ => trivial, fun _ => ⟨fun _ => trivial, fun _ => ?_⟩⟩
  rw [wp_bind]
  refine wp_service_findById D (fun _ => trivial) fun record s' _ hsaw => ?_
  refine wp_if (fun _ => trivial) fun _ => wp_if (fun _ => trivial) fun h => ?_
  have hlive : s'.Live record.id := ⟨_, by rw [not_not.mp h]; decide, hsaw.2⟩
  split
  · trivial
  · refine keeps_bind (keeps_dated hlive fun _ => rfl) fun shipped s' => ?_
    refine keeps_bind ?_ fun _ s' => keeps_bind (keeps_perform trivial) fun _ _ => trivial
    rw [forgetTracking]
    exact wp_if (fun _ => keeps_perform trivial) fun _ => trivial

/-! ## Disputes

Nothing but a state that can be disputed is disputed, and nothing but a dispute resolved. -/

/-- Who is involved has made the service read the escrow. -/
theorem wp_authorise {caller : String} {Q : Except Err EscrowRecord → Session → Prop}
    (herror : ∀ e s', Q (.error e) s')
    (hok : ∀ record s', s'.Saw id record → Q (.ok record) s') :
    (authorise D id caller).wp session.protocol Q s := by
  rw [authorise, wp_bind]
  refine wp_findById D (fun e => herror e s) (herror _ s) fun record s' _ hsaw => ?_
  exact wp_if (fun _ => herror _ _) fun _ => hok record s' hsaw

theorem keeps_openDispute (caller : String) (dto : OpenDisputeDto) :
    s.Keeps (openDispute D id caller dto) := by
  rw [openDispute, Keeps, wp_bind]
  refine wp_authorise (fun _ _ => trivial) fun record s' hsaw => ?_
  refine wp_if (fun _ => trivial) fun _ => wp_if (fun _ => trivial) fun h => ?_
  have hterm := EscrowState.not_terminal_of_disputable (not_not.mp h)
  rw [wp_bind, DisputeRepository.create, wp_db]
  refine ⟨trivial, ?_⟩
  rintro (e | dispute) s'' ⟨_, rfl⟩
  · trivial
  · have hlive : ({ s' with undisputed := none } : Session).Live id :=
      ⟨record.state, hterm, hsaw.1⟩
    refine keeps_bind (keeps_update hlive rfl) fun disputed s' => ?_
    refine keeps_bind (keeps_perform trivial) fun _ s' => ?_
    exact keeps_bind (keeps_perform trivial) fun _ _ => trivial

/-- What was read as disputed is written after the contract has answered. -/
theorem keeps_resolve (resolution : Resolution) :
    s.Keeps (DisputeService.resolve D id resolution) := by
  unfold DisputeService.resolve
  rw [Keeps, wp_bind]
  refine wp_findById D (fun _ => trivial) trivial fun record s' _ hsaw => ?_
  refine wp_if (fun _ => trivial) fun _ => wp_if (fun _ => trivial) fun h => ?_
  have hterm : record.state ∉ TERMINAL_STATES := by rw [not_not.mp h]; decide
  cases record.contractEscrowId with
  | none => trivial
  | some contractEscrowId =>
    rw [wp_bind, DisputeService.requireAdminAddress]
    cases truthy D.ADMIN_ADDRESS with
    | none => trivial
    | some admin =>
      rw [wp_pure]
      dsimp only
      rw [wp_bind, wp_ext]
      refine ⟨trivial, ?_⟩
      rintro (e | txHash) s'' ⟨_, rfl⟩
      · trivial
      · dsimp only
        rw [wp_bind]
        refine wp_neutral ((Grounded.only_settleOpen id).mono neutral_of_unguarded) fun r s'' hs'' => ?_
        -- what was read as disputed is not terminal, and no call since has written it
        have hlive : s''.Live id := ⟨_, hterm, by rw [hs'']; exact hsaw.1⟩
        cases r with
        | error e => trivial
        | ok _ =>
          cases resolution with
          | RELEASE =>
            refine keeps_bind (keeps_update hlive rfl) fun _ s' => ?_
            exact keeps_bind (keeps_perform trivial) fun _ _ => trivial
          | REFUND =>
            refine keeps_bind (keeps_update hlive rfl) fun _ s' => ?_
            exact keeps_bind (keeps_perform trivial) fun _ _ => trivial

/-! ## Payments

The loop keeps, for the escrows it still has to look at, that they were read as `CREATED`. -/

/-- A funding writes the escrow it is given, or skips it. -/
theorem keeps_fund {dto : StellarWebhookDto} {escrow : EscrowRecord}
    {Q : Except Err PUnit → Session → Prop} (hlive : s.Live escrow.id) (herror : ∀ e s', Q (.error e) s')
    (hskip : Q (.ok ⟨⟩) s)
    (hfunded : Q (.ok ⟨⟩) (s.written escrow.id { state := some .FUNDED })) :
    (fund D dto escrow).wp session.protocol Q s := by
  rw [fund, wp_ite, wp_ite]
  refine ⟨fun _ => hskip, fun _ => ⟨fun _ => hskip, fun _ => ?_⟩⟩
  rw [wp_bind]
  exact wp_mutator D rfl (fun _ => hlive) (fun e => herror e s) fun record => wp_notified hfunded

/-- Escrows read as `CREATED`, each under an id of its own, are funded one after the other. -/
theorem keeps_handlePayment (dto : StellarWebhookDto) :
    s.Keeps (handlePayment D dto) := by
  unfold handlePayment
  split
  · trivial
  · next destination _ =>
    rw [Keeps, wp_bind, EscrowRepository.findByVendor, wp_bind, wp_db]
    refine ⟨trivial, ?_⟩
    rintro (e | rows) s' ⟨hnodup, rfl⟩
    · trivial
    · refine wp_forM (I := fun xs s => (∀ e ∈ xs, s.Live e.id) ∧ (xs.map (·.id)).Nodup)
        ?_ (fun _ _ => trivial) _ _ ⟨?_, ?_⟩
      · rintro escrow xs s ⟨hlive, hdistinct⟩
        obtain ⟨hfresh, hdistinct⟩ := List.nodup_cons.mp hdistinct
        have hrest : ∀ e ∈ xs, s.Live e.id := fun e he => hlive e (List.mem_cons_of_mem _ he)
        refine keeps_fund (hlive escrow List.mem_cons_self) (fun _ _ => trivial)
          ⟨hrest, hdistinct⟩ ⟨fun e he => ?_, hdistinct⟩
        -- the write forgets this escrow only
        obtain ⟨state, hstate, hseen⟩ := hrest e he
        refine ⟨state, hstate, List.mem_filter.mpr ⟨hseen, ?_⟩⟩
        have hne : e.id ≠ escrow.id := fun h => hfresh (List.mem_map.mpr ⟨e, he, h⟩)
        exact decide_eq_true hne
      · intro e he
        obtain ⟨hmem, hcreated⟩ := List.mem_filter.mp he
        have hstate : e.state = .CREATED := of_decide_eq_true hcreated
        obtain ⟨row, hrow, rfl⟩ := List.mem_map.mp hmem
        refine ⟨.CREATED, by decide, List.mem_append_left _ ?_⟩
        exact List.mem_map.mpr ⟨row, hrow, by rw [show row.state = .CREATED from hstate]; rfl⟩
      · have hids : ((rows.map toEscrowRecord).map (·.id)) = rows.map (·.id) := by
          rw [List.map_map]; rfl
        refine List.Nodup.sublist (List.Sublist.map _ List.filter_sublist) ?_
        rw [hids]
        exact hnodup

theorem keeps_processMarked (dto : StellarWebhookDto) :
    s.Keeps (processMarked D dto) := by
  rw [processMarked]
  refine keeps_tryCatch ?_ fun _ _ => keeps_bind (keeps_perform trivial) fun _ _ => trivial
  rw [processEvent]
  exact wp_if (fun _ => keeps_handlePayment dto) fun _ => trivial

theorem keeps_processOnce (dto : StellarWebhookDto) :
    s.Keeps (processOnce D dto) := by
  rw [processOnce]
  refine keeps_bind (keeps_perform trivial) fun duplicate s' => ?_
  refine wp_if (fun _ => trivial) fun _ => ?_
  refine keeps_bind (keeps_perform trivial) fun _ s' => ?_
  exact keeps_bind (keeps_processMarked dto) fun _ _ => trivial

theorem keeps_handleEvent (rawBody : String) (signature : Option String)
    (dto : StellarWebhookDto) :
    s.Keeps (handleEvent D rawBody signature dto) := by
  rw [handleEvent]
  refine keeps_bind ?_ fun _ s' => keeps_bind (keeps_processOnce dto) fun _ _ => trivial
  unfold verifySignature
  split
  · trivial
  · split
    · trivial
    · rw [Keeps, wp_ite]
      exact ⟨fun _ => trivial, fun _ => trivial⟩

/-! ## The workers

The delivery is recorded under a claim of its own; the rest is about the auto-release claim. -/

/-- Whoever gets the claim has read the escrow as `SHIPPED` -/
theorem wp_claimDelivery {Q : Except Err (Option EscrowRecord) → Session → Prop}
    (herror : ∀ e s', Q (.error e) s') (hnone : ∀ s', Q (.ok none) s')
    (hclaimed : ∀ record s', s'.Live id → Q (.ok (some record)) s') :
    (EscrowRepository.claimDelivery D id).wp session.protocol Q s := by
  rw [EscrowRepository.claimDelivery, wp_bind, wp_db]
  refine ⟨trivial, ?_⟩
  rintro r s' ⟨_, rfl⟩
  match r with
  | .error e => exact herror _ _
  | .ok none => exact hnone _
  | .ok (some row) =>
    refine wp_if (fun _ => hnone _) fun h => ?_
    have hshipped : row.state = .SHIPPED := not_not.mp fun hne => h (.inl hne)
    have hlive : (s.saw id row.toEscrowFields).Live id :=
      ⟨row.state, by rw [hshipped]; decide, List.mem_cons_self⟩
    rw [wp_bind]
    refine wp_date fun t => ?_
    dsimp only
    rw [wp_bind]
    exact wp_mutator D rfl nofun (fun _ => herror _ _)
      fun record => hclaimed record _ hlive

/-- Under the claim the escrow may be marked delivered. -/
theorem keeps_recordClaimed {escrow : EscrowRecord} {contractEscrowId : Nat}
    (hlive : s.Live escrow.id) :
    s.Keeps (recordClaimed D escrow contractEscrowId) := by
  rw [recordClaimed, Keeps, wp_bind, TrackingPollWorker.requireAdminAddress]
  cases truthy D.ADMIN_ADDRESS with
  | none => trivial
  | some admin =>
    rw [wp_pure]
    dsimp only
    rw [wp_bind, wp_ext]
    refine ⟨trivial, ?_⟩
    rintro (e | txHash) s' ⟨_, rfl⟩
    · trivial
    · dsimp only
      rw [wp_bind]
      refine wp_date fun t => keeps_bind ?_ fun updated s' => ?_
      · exact keeps_update hlive rfl
      · rw [notifyDelivered]
        exact wp_if (fun _ => keeps_perform trivial) fun _ => trivial

theorem keeps_deliver (escrow : EscrowRecord) :
    s.Keeps (TrackingPollWorker.deliver D escrow) := by
  unfold TrackingPollWorker.deliver
  split
  · refine keeps_bind (keeps_perform trivial) fun status s' => ?_
    refine wp_if (fun _ => trivial) fun _ => ?_
    rw [wp_bind]
    refine wp_claimDelivery (fun _ _ => trivial) (fun _ => trivial) fun record s' hlive => ?_
    refine keeps_tryCatch (keeps_recordClaimed hlive) fun _ s' => ?_
    refine keeps_bind ?_ fun _ _ => trivial
    exact keeps_update_other rfl rfl
  · trivial

theorem keeps_processShipment (escrow : EscrowRecord) :
    s.Keeps (processShipment D escrow) := by
  rw [processShipment, Keeps, wp_tryFinally]
  refine wp_mono (keeps_deliver escrow) fun r s' _ => ?_
  rw [wp_void, EscrowRepository.markTrackingChecked, wp_bind]
  refine wp_date fun t => ?_
  exact wp_mutator D rfl nofun (fun _ => trivial) fun _ => trivial

/-- The execution is still at the same piece of work: its window and what was due. -/
def SameWork (s s' : Session) : Prop := s'.window = s.window ∧ s'.due = s.due

/-- The claim is made after the dispute was looked for, and is held if a row was written. -/
theorem wp_markAutoReleaseSubmitting {Q : Except Err (Option EscrowRecord) → Session → Prop}
    (hundisputed : s.undisputed = some id) (hdue : ∀ cutoff ∈ s.window, (id, cutoff) ∈ s.due)
    (herror : ∀ e s', s.SameWork s' → Q (.error e) s')
    (hnone : ∀ s', s.SameWork s' → Q (.ok none) s')
    (hclaimed : ∀ record s', s.SameWork s' → s'.claim = .held id → Q (.ok (some record)) s') :
    (EscrowRepository.markAutoReleaseSubmitting D id).wp session.protocol Q s := by
  rw [EscrowRepository.markAutoReleaseSubmitting, wp_bind]
  refine wp_date fun t => ?_
  dsimp only
  rw [wp_bind, wp_db]
  refine ⟨⟨hundisputed, hdue⟩, ?_⟩
  rintro r s' ⟨_, rfl⟩
  match r with
  | .error e => exact herror _ _ ⟨rfl, rfl⟩
  | .ok 0 => exact hnone _ ⟨rfl, rfl⟩
  | .ok (n + 1) =>
    dsimp only
    rw [if_neg (Nat.succ_ne_zero n), wp_bind]
    refine wp_findById D (fun e => herror e _ ⟨rfl, rfl⟩) ?_ fun record s' hext _ => ?_
    · dsimp only
      rw [wp_bind]
      exact wp_invalidate D (hnone _ ⟨rfl, rfl⟩)
    · dsimp only
      rw [wp_bind]
      exact wp_invalidate D (hclaimed record s' ⟨hext.window, hext.due⟩ hext.claim)

/-- A failed submission leaves the claim to be given up; a failed record write too, and there the
submission had been accepted. -/
theorem wp_submitClaimed {escrow : EscrowRecord} {contractEscrowId : Nat}
    {Q : Except Err Bool → Session → Prop} (hheld : s.claim = .held escrow.id)
    (herror : ∀ e s', s.SameWork s' → (s'.claim = .held escrow.id ∨ s'.claim = .accepted escrow.id) →
      Q (.error e) s')
    (hok : ∀ s', s.SameWork s' → Q (.ok true) s') :
    (submitClaimed D escrow contractEscrowId).wp session.protocol Q s := by
  rw [submitClaimed, wp_bind, requireAutoReleaseSource]
  cases truthy D.AUTO_RELEASE_SOURCE_ADDRESS with
  | none => exact herror _ _ ⟨rfl, rfl⟩ (.inl hheld)
  | some source =>
    rw [wp_pure]
    dsimp only
    rw [wp_bind, wp_ext]
    refine ⟨⟨escrow.id, hheld⟩, ?_⟩
    rintro (e | txHash) s' ⟨_, rfl⟩
    · exact herror _ _ ⟨rfl, rfl⟩ (.inl hheld)
    · have haccepted : session.next s (.ext (.submitAutoRelease contractEscrowId source)) (.ok txHash) =
          { s with claim := .accepted escrow.id } := by
        simp only [session, next, hheld, Claim.accept]
      dsimp only
      rw [wp_bind, haccepted, EscrowRepository.recordAutoReleaseSubmission, wp_bind]
      refine wp_date fun t => ?_
      refine wp_update D ⟨nofun, rfl⟩ (fun e => ?_) fun record => ?_
      · exact herror _ _ ⟨rfl, rfl⟩ (.inr rfl)
      · exact hok _ ⟨rfl, rfl⟩

/-- Whatever becomes of the claim, what was due stays due for the next escrow. -/
theorem keeps_processEscrow (escrow : EscrowRecord)
    (hdue : ∀ cutoff ∈ s.window, (escrow.id, cutoff) ∈ s.due) :
    (processEscrow D escrow).wp session.protocol (fun _ s' => s.SameWork s') s := by
  rw [processEscrow, wp_bind, DisputeRepository.findByEscrow, wp_db]
  refine ⟨trivial, ?_⟩
  rintro r s' ⟨_, rfl⟩
  match r with
  | .error e => exact ⟨rfl, rfl⟩
  | .ok (some dispute) => exact ⟨rfl, rfl⟩
  | .ok none =>
    refine wp_if (fun _ => ⟨rfl, rfl⟩) fun _ => ?_
    cases escrow.contractEscrowId with
    | none => exact ⟨rfl, rfl⟩
    | some contractEscrowId =>
      dsimp only
      rw [wp_bind]
      refine wp_markAutoReleaseSubmitting rfl hdue (fun _ _ h => h) (fun _ h => h)
        fun record s' hwork hheld => ?_
      dsimp only
      rw [wp_tryCatch]
      refine wp_submitClaimed hheld (fun e s'' hwork' hclaim => ?_) fun s'' hwork' => ?_
      · have hsame : s.SameWork s'' :=
          ⟨hwork'.1.trans hwork.1, hwork'.2.trans hwork.2⟩
        dsimp only
        rw [wp_bind]
        exact wp_update D ⟨nofun, hclaim⟩ (fun _ => hsame) fun _ => hsame
      · exact ⟨hwork'.1.trans hwork.1, hwork'.2.trans hwork.2⟩

/-- What the query returned is due by the cutoff of the cycle. -/
theorem keeps_runCycle (referenceTime : Time)
    (hwindow : s.window = some (EscrowRepository.autoReleaseCutoff referenceTime)) :
    s.Keeps (runCycle D referenceTime) := by
  rw [runCycle]
  refine keeps_tryCatch ?_ fun _ _ => trivial
  rw [Keeps, wp_bind, EscrowRepository.findAutoReleaseEligible, wp_bind, wp_db]
  refine ⟨trivial, ?_⟩
  rintro (e | rows) s' ⟨_, rfl⟩
  · trivial
  · refine wp_forM
      (I := fun xs s => ∀ e ∈ xs, ∀ cutoff ∈ s.window, (e.id, cutoff) ∈ s.due) ?_
      (fun _ _ => trivial) _ _ ?_
    · intro escrow xs s hdue
      rw [wp_tryCatch, wp_void]
      refine wp_mono (keeps_processEscrow escrow (hdue escrow List.mem_cons_self))
        fun r s' hwork => ?_
      have hrest : ∀ e ∈ xs, ∀ cutoff ∈ s'.window, (e.id, cutoff) ∈ s'.due := by
        intro e he
        rw [hwork.1, hwork.2]
        exact hdue e (List.mem_cons_of_mem _ he)
      cases r <;> exact hrest
    · intro e he cutoff hcutoff
      obtain ⟨row, hrow, rfl⟩ := List.mem_map.mp he
      have hcut : cutoff = EscrowRepository.autoReleaseCutoff referenceTime := by
        have : some cutoff = some (EscrowRepository.autoReleaseCutoff referenceTime) :=
          hcutoff.symm.trans hwindow
        exact Option.some.inj this
      rw [hcut]
      exact List.mem_map.mpr ⟨row, hrow, rfl⟩

end keeps

/-! ## Every operation

Creation, the reads and a new contact write no state and touch no claim, so that nothing is asked of
them: `Grounds` has nothing else for them. -/

/-- The operations that write no state and touch no claim. -/
def plain : Op → Bool
  | .createEscrow _ _ | .createIdempotent _ _ _ | .findById _ | .getTracking _
  | .updateBuyerContact _ _ | .getDispute _ _ => true
  | _ => false

/-- There are no grounds on which they could write a state or claim a release. -/
theorem ok_of_plain {D : Deployment} {op : Op} {past : Trail} {c : Call} (hop : plain op = true)
    (h : op.Ok D past c) (s : Session) : s.ok c := by
  have hpayment : op.payment = none := by cases op <;> first | rfl | cases hop
  have hdue : ∀ past' record, ¬op.Due past' record := by
    intro past' record h
    cases op <;> first | exact h | cases hop
  unfold Session.ok
  split
  · obtain ⟨earlier, _, hgrounds⟩ := h
    cases hgrounds with
    | contact => exact ⟨nofun, trivial⟩
    | funded hpaid => rw [hpayment] at hpaid; cases hpaid
    | releaseRecorded _ h => exact (hdue _ _ h).elim
    | releaseGivenUp h => exact (hdue _ _ h).elim
    | _ => cases hop
  · exact (hdue _ _ h.choose_spec.1).elim
  · exact (hdue _ _ h.choose_spec.1).elim
  · trivial

/-- So they keep to the discipline by what they are known to call. -/
theorem accepts_plain (D : Deployment) {op : Op} (hop : plain op = true) :
    session.Accepts (Op.prog D) op :=
  (only_of_history (fun _ _ h => ok_of_plain hop h) (Grounded.prog D op)).wp_invariant
    (I := fun _ => True) (fun _ s hc _ => ⟨hc s, fun _ _ _ => trivial⟩) trivial

/-- Every operation of the backend keeps to the session discipline. -/
theorem accepts (D : Deployment) (op : Op) : session.Accepts (Op.prog D) op := by
  have hvoid : ∀ {α : Type} (p : App α) (s : Session), s.Keeps p → s.Keeps p.void :=
    fun p s h => (wp_void p _ s).mpr h
  cases op with
  | cancelEscrow id caller isAdmin => exact hvoid _ _ (keeps_cancelEscrow caller isAdmin)
  | cancelPendingEscrow id caller isAdmin =>
    exact hvoid _ _ (keeps_cancelPendingEscrow caller isAdmin)
  | handleShipment id vendorAddress trackingId isAdmin =>
    -- as a variable, so that nothing evaluates its guards
    simp only [Monitor.Accepts, Op.prog]
    generalize hp : handleShipment D id vendorAddress trackingId isAdmin = p
    have haccepts := @keeps_handleShipment D (session.init (.handleShipment id vendorAddress
      trackingId isAdmin)) id vendorAddress trackingId isAdmin
    rw [hp] at haccepts
    exact hvoid _ _ haccepts
  | syncStateFromChain event => exact hvoid _ _ (keeps_syncStateFromChain event)
  | openDispute id caller dto => exact hvoid _ _ (keeps_openDispute caller dto)
  | resolve id resolution => exact hvoid _ _ (keeps_resolve resolution)
  | handleEvent rawBody signature dto => exact hvoid _ _ (keeps_handleEvent rawBody signature dto)
  | processOperationDto dto =>
    exact hvoid _ _ (keeps_bind (keeps_processOnce dto) fun _ _ => trivial)
  | handlePayment dto => exact keeps_handlePayment dto
  | processShipment snapshot => exact keeps_processShipment snapshot
  | processEscrow snapshot =>
    have hnone : ∀ cutoff ∈ (none : Option Time), (snapshot.id, cutoff) ∈ ([] : List (String × Time)) :=
      nofun
    exact hvoid _ _ (wp_mono (keeps_processEscrow snapshot hnone) fun _ _ _ => trivial)
  | autoReleaseCycle referenceTime => exact keeps_runCycle referenceTime rfl
  | _ => exact accepts_plain D rfl

end Session

end TrustLink
