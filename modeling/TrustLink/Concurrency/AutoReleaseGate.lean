import TrustLink.Concurrency.AutoReleaseClaim

/-!
# TrustLink — the auto-release gate

An auto-release cycle decides on three reads: the snapshot of `findAutoReleaseEligible` (the
escrow is `DELIVERED`, and was delivered long enough ago), the dispute lookup (there is none),
and the claim, which re-checks the claim column only. Between the three anything may happen, so
`claimed_while_disputed`: a dispute opened after the lookup does not stop the claim.

The gate is as good as the reads are fresh. `claim_gated` is the check-then-act rule
(`Effects/Reliance.lean`) with two facts, "due by this cutoff" and "undisputed", both justifying
the claim: in every run in which no call falsifies one of them while another execution has read
it and may still claim the escrow, the claim finds a delivered, due, undisputed escrow.
-/

namespace TrustLink

open Effects

/-- What a claim is justified by. -/
inductive GateFact where
  | due (id : String) (cutoff : Time)
  | undisputed (id : String)

namespace GateFact

def id : GateFact → String
  | .due id _ => id
  | .undisputed id => id

/-- The escrow is `DELIVERED`, and was delivered by the cutoff; it has no dispute. -/
def Holds : GateFact → World → Prop
  | .due id cutoff, w => ∃ row t, w.db.escrows.get id = some row ∧ row.state = .DELIVERED ∧
      row.deliveredAt = some t ∧ t ≤ cutoff
  | .undisputed id, w => w.db.disputes.get id = none

def Known (v : Session) : GateFact → Prop
  | .due id cutoff => (id, cutoff) ∈ v.due
  | .undisputed id => v.undisputed = some id

def Justifies (f : GateFact) (c : Call) : Prop := Claims f.id c

end GateFact

/-- No call makes an escrow undue, or disputed, while another execution has read the contrary and
may still claim the escrow. -/
def NoGateRace : Backend → Move world Op → Prop :=
  session.Undisturbed GateFact.Known GateFact.Justifies GateFact.Holds (fun _ _ _ => True)

/-! ## One call: what is due -/

/-- The call writes a column that being due depends on. -/
def WritesDue (id : String) (c : Call) : Prop :=
  ∃ data, c = .db (.escrowUpdate id data) ∧ (data.state.isSome || data.deliveredAt.isSome) = true

theorem due_handle {ch : Choice} {c : Call} {w : World} {id : String} {cutoff : Time}
    (hquiet : ¬ WritesDue id c) (h : (GateFact.due id cutoff).Holds w) :
    (GateFact.due id cutoff).Holds (handle ch c w).2 := by
  obtain ⟨row, t, hrow, hstate, hdelivered, hcutoff⟩ := h
  have hchange := handle_escrow ch w c id
  show ∃ row t, (handle ch c w).2.db.escrows.get id = some row ∧ row.state = .DELIVERED ∧
    row.deliveredAt = some t ∧ t ≤ cutoff
  generalize (handle ch c w).2.db.escrows.get id = after at hchange ⊢
  cases hchange with
  | same => exact ⟨row, t, hrow, hstate, hdelivered, hcutoff⟩
  | updated data row' hc hrow' =>
    obtain rfl : row = row' := Option.some.inj (hrow.symm.trans hrow')
    have hnone : data.state = none ∧ data.deliveredAt = none := by
      have hoff : ¬ (data.state.isSome || data.deliveredAt.isSome) = true :=
        fun hwrites => hquiet ⟨data, hc, hwrites⟩
      simpa using hoff
    refine ⟨_, t, rfl, ?_, ?_, hcutoff⟩
    · rw [EscrowRow.update_state, hnone.1]
      exact hstate
    · rw [EscrowRow.update_deliveredAt, hnone.2]
      exact hdelivered
  | claimed t' row' hc hrow' hfree =>
    obtain rfl : row = row' := Option.some.inj (hrow.symm.trans hrow')
    exact ⟨_, t, rfl, hstate, hdelivered, hcutoff⟩
  | created dto vendorAddress hc hnone =>
    rw [hrow] at hnone
    cases hnone

theorem holds_of_eligible {w : World} {cutoff : Time} {row : EscrowRow}
    (h : row ∈ w.db.findAutoReleaseEligible cutoff) : (GateFact.due row.id cutoff).Holds w := by
  obtain ⟨hrow, helig⟩ := Db.mem_findAutoReleaseEligible h
  simp only [Db.autoReleaseEligible, Bool.and_eq_true, decide_eq_true_eq] at helig
  obtain ⟨⟨⟨⟨hstate, hdelivered⟩, _⟩, _⟩, _⟩ := helig
  cases hat : row.deliveredAt with
  | none =>
    rw [hat] at hdelivered
    cases hdelivered
  | some t =>
    rw [hat] at hdelivered
    exact ⟨row, t, hrow, hstate, hat, of_decide_eq_true hdelivered⟩

/-- What is newly known to be due has just been queried, and is. After an accepted write of the
escrow nothing is known of it. -/
theorem due_reads {v : Session} {c : Call} {w : World} {ch : Choice} {id : String} {cutoff : Time}
    (h : (id, cutoff) ∈ (v.next c (handle ch c w).1).due) :
    (GateFact.due id cutoff).Holds (handle ch c w).2 ∨
      ((id, cutoff) ∈ v.due ∧ ((GateFact.due id cutoff).Holds w →
        (GateFact.due id cutoff).Holds (handle ch c w).2)) := by
  by_cases habout : Session.aboutDue c
  · cases c with
    | db c =>
      cases c with
      | escrowFindAutoReleaseEligible cutoff' =>
        simp only [handle, handleDb, Db.exec] at h ⊢
        cases hfault : ch.fault (.escrowFindAutoReleaseEligible cutoff') with
        | some e =>
          rw [hfault] at h
          exact .inr ⟨h, fun hw => hw⟩
        | none =>
          rw [hfault] at h
          obtain ⟨row, hmem, heq⟩ := List.mem_map.mp h
          cases heq
          exact .inl (holds_of_eligible hmem)
      | escrowUpdate id' data =>
        rcases handle_escrowUpdate ch w id' data with ⟨e, heq⟩ | ⟨_, row, _, heq⟩
        · rw [heq] at h ⊢
          exact .inr ⟨h, fun hw => hw⟩
        · by_cases hwrites : WritesDue id (.db (.escrowUpdate id' data))
          · -- the write has removed the escrow from what is known to be due
            obtain ⟨data', hc, hsome⟩ := hwrites
            cases hc
            rw [heq] at h
            simp only [Session.next, Session.written, hsome, if_true] at h
            exact absurd rfl (of_decide_eq_true (List.mem_filter.mp h).2)
          · refine .inr ⟨?_, due_handle hwrites⟩
            rw [heq] at h
            simp only [Session.next, Session.written] at h
            split at h
            · exact List.mem_of_mem_filter h
            · exact h
      | _ => cases habout
    | _ => cases habout
  · rw [Session.next_due v (Bool.eq_false_iff.mpr habout)] at h
    refine .inr ⟨h, due_handle ?_⟩
    rintro ⟨data, rfl, _⟩
    exact habout rfl

/-! ## One call: disputes -/

theorem undisputed_reads {v : Session} {c : Call} {w : World} {ch : Choice} {id : String}
    (h : (v.next c (handle ch c w).1).undisputed = some id) :
    (GateFact.undisputed id).Holds (handle ch c w).2 ∨
      (v.undisputed = some id ∧ ((GateFact.undisputed id).Holds w →
        (GateFact.undisputed id).Holds (handle ch c w).2)) := by
  by_cases habout : Session.aboutDispute c
  · cases c with
    | db c =>
      cases c with
      | disputeFindFirst escrowId statuses =>
        simp only [handle, handleDb, Db.exec] at h ⊢
        cases hfault : ch.fault (.disputeFindFirst escrowId statuses) with
        | some e =>
          rw [hfault] at h
          cases statuses <;> exact .inr ⟨h, fun hw => hw⟩
        | none =>
          rw [hfault] at h
          cases statuses with
          | some statuses => exact .inr ⟨h, fun hw => hw⟩
          | none =>
            cases hfound : w.db.disputes.get escrowId with
            | some d =>
              have hresult : w.db.findDispute escrowId none = some d := by
                rw [Db.findDispute, hfound]; rfl
              rw [hresult] at h
              exact .inr ⟨h, fun hw => hw⟩
            | none =>
              have hresult : w.db.findDispute escrowId none = none := by
                rw [Db.findDispute, hfound]; rfl
              rw [hresult] at h
              -- the only answer that teaches something: no dispute of any status
              obtain rfl : escrowId = id := Option.some.inj h
              exact .inl hfound
      | disputeCreate data =>
        rcases handle_disputeCreate ch w data with ⟨e, heq⟩ | ⟨_, _, heq⟩
        · rw [heq] at h ⊢
          exact .inr ⟨h, fun hw => hw⟩
        · rw [heq] at h
          cases h
      | _ => cases habout
    | _ => cases habout
  · rw [Session.next_undisputed v (Bool.eq_false_iff.mpr habout)] at h
    refine .inr ⟨h, fun hw => ?_⟩
    have hw : w.db.disputes.get id = none := hw
    have hchange := handle_dispute ch w c id
    show (handle ch c w).2.db.disputes.get id = none
    generalize (handle ch c w).2.db.disputes.get id = after at hchange ⊢
    cases hchange with
    | same => exact hw
    -- only an insert could end what is known, and an insert is about disputes
    | created data hc _ _ =>
      subst hc
      exact absurd rfl habout
    | settled status t d hc hd =>
      rw [hw] at hd
      cases hd

/-! ## Whole runs -/

theorem gate_run (D : Deployment) (w : World) (ms : List (Move world Op))
    (hrun : AlwaysMeets D NoGateRace w ms) :
    session.Obeyed (interleave D w ms) ∧
      session.Sound (M := world) GateFact.Known GateFact.Justifies GateFact.Holds
        (interleave D w ms) := by
  have hinit : ∀ op f, ¬ GateFact.Known (Session.start op) f := by
    intro op f
    cases op <;> cases f <;> exact nofun
  have hread : ∀ (v : Session) c w ch (f : GateFact), f.Known (v.next c (handle ch c w).1) →
      f.Holds (handle ch c w).2 ∨ (f.Known v ∧ (f.Holds w → f.Holds (handle ch c w).2)) := by
    intro v c w ch f h
    cases f with
    | due id cutoff => exact due_reads h
    | undisputed id => exact undisputed_reads h
  obtain ⟨hobeyed, hsound, _⟩ := Monitor.sound_run (M := world) (J := fun _ => True)
    (Session.accepts D) hinit (fun _ c w ch => session_answered c w ch)
    (fun v c w ch _ _ => hread v c w ch) (fun _ _ _ _ _ _ _ => trivial) ms ⟨w, []⟩ hrun
    (session.obeyed_nil (M := world) w) ⟨Monitor.sound_nil (M := world) w, trivial⟩
  exact ⟨hobeyed, hsound⟩

/-- The window of an execution is the one it was started with. -/
theorem view_window (t : Thread backend Op) :
    (session.view t).window = (Session.start t.label).window := by
  obtain ⟨label, past, rest⟩ := t
  induction past with
  | nil => rfl
  | cons e past ih => exact (Session.next_window _ e.call e.resp).trans ih

/-- In every run without gate races: when a cycle's claim is made, the escrow is `DELIVERED`, it
was delivered at least the window before the cycle's reference time, and it has no dispute. -/
theorem claim_gated (D : Deployment) (w : World) (ms : List (Move world Op))
    (hrun : AlwaysMeets D NoGateRace w ms) (i : Nat) (t : Thread backend Op) (referenceTime : Time)
    (ht : (interleave D w ms).threads[i]? = some t)
    (hlabel : t.label = .autoReleaseCycle referenceTime) (id : String) (now : Time)
    (k : Except Err Nat → App Unit)
    (hcall : t.rest = .call (.db (.escrowUpdateManyUnsubmitted id now)) k) :
    (∃ row deliveredAt, (interleave D w ms).state.db.escrows.get id = some row ∧
      row.state = .DELIVERED ∧ row.deliveredAt = some deliveredAt ∧
      deliveredAt +
        EscrowRepository.AUTO_RELEASE_WINDOW_HOURS * EscrowRepository.MILLISECONDS_PER_HOUR
          ≤ referenceTime) ∧
    (interleave D w ms).state.db.disputes.get id = none := by
  obtain ⟨hobeyed, hsound⟩ := gate_run D w ms hrun
  have hmem := List.mem_of_getElem? ht
  have hwp := hobeyed t hmem
  rw [hcall] at hwp
  obtain ⟨hundisputed, hdue⟩ : (session.view t).undisputed = some id ∧
    ∀ cutoff ∈ (session.view t).window, (id, cutoff) ∈ (session.view t).due := hwp.1
  have hwindow : (session.view t).window
      = some (EscrowRepository.autoReleaseCutoff referenceTime) := by
    rw [view_window, hlabel]
    rfl
  have hdue := hdue _ hwindow
  constructor
  · have hholds := Monitor.holds_of_head hsound hmem hcall
      (f := .due id (EscrowRepository.autoReleaseCutoff referenceTime)) hdue ⟨now, rfl⟩
    obtain ⟨row, deliveredAt, hrow, hstate, hat, hcutoff⟩ := hholds
    exact ⟨row, deliveredAt, hrow, hstate, hat, Int.add_le_of_le_sub_right hcutoff⟩
  · exact Monitor.holds_of_head hsound hmem hcall (f := .undisputed id) hundisputed ⟨now, rfl⟩

open AutoReleaseWorker in
/-- Two cycles, one after the other: the first claims, submits in vain and gives up the claim, the
second is about to claim. -/
def cyclesInTurn : List (Move world Op) :=
  .spawn (.autoReleaseCycle dueTime) :: List.replicate 8 (.step 0 .calm) ++
    .spawn (.autoReleaseCycle dueTime) :: List.replicate 3 (.step 1 .calm)

open AutoReleaseWorker in
theorem claim_gated_in_turn :
    (∃ row deliveredAt, (interleave .bare (World.ofEscrows [dueLamp])
        cyclesInTurn).state.db.escrows.get "e1" = some row ∧
      row.state = .DELIVERED ∧ row.deliveredAt = some deliveredAt ∧
      deliveredAt +
        EscrowRepository.AUTO_RELEASE_WINDOW_HOURS * EscrowRepository.MILLISECONDS_PER_HOUR
          ≤ dueTime) ∧
    (interleave .bare (World.ofEscrows [dueLamp]) cyclesInTurn).state.db.disputes.get "e1" = none := by
  have hturn : AlwaysMeets .bare Pool.InTurn (World.ofEscrows [dueLamp]) cyclesInTurn := by
    decide +kernel
  exact claim_gated .bare (World.ofEscrows [dueLamp]) cyclesInTurn
    (hturn.mono fun _ _ => Monitor.undisturbed_in_turn fun _ _ _ => trivial) 1 _ dueTime rfl rfl "e1"
    0 _ rfl

open AutoReleaseWorker in
/-- The race: the buyer opens a dispute after the cycle has looked for one. The claim succeeds on
an escrow that is `DISPUTED` and has a dispute. -/
theorem claimed_while_disputed :
    ∃ (w : World) (ms : List (Move world Op)) (t : Thread backend Op) (k : _),
      (interleave .bare w ms).threads[0]? = some t ∧ t.label = .autoReleaseCycle dueTime ∧
      t.rest = .call (.db (.escrowUpdateManyUnsubmitted "e1" 0)) k ∧
      (handle .calm (.db (.escrowUpdateManyUnsubmitted "e1" 0)) (interleave .bare w ms).state).1
        = .ok 1 ∧
      (interleave .bare w ms).state.stateOf "e1" = some .DISPUTED ∧
      ((interleave .bare w ms).state.db.disputes.get "e1").isSome :=
  ⟨World.ofEscrows [dueLamp],
    [.spawn (.autoReleaseCycle dueTime), .step 0 .calm, .step 0 .calm, .step 0 .calm,
      .spawn (.openDispute "e1" "buyer" ⟨"broken", "it does not shine", none⟩),
      .step 1 .calm, .step 1 .calm, .step 1 .calm],
    _, _, rfl, rfl, rfl, rfl, by decide, by decide⟩

end TrustLink
