import TrustLink.Model.Frame
import TrustLink.Model.Workers

/-!
# TrustLink — a worker gives its claim back

Both workers claim an escrow in the database before they call the contract, and clear the claim in
the `catch` of the block that makes the call. A claim that is set and not cleared is a leak: the
escrow is never looked at again. So everything between the claiming write and the `try` matters.

For a delivery there is nothing between the two but an eviction, which cannot fail. For an
auto-release there is a read: `markAutoReleaseSubmitting` reads the record back through the cache,
and if that read is rejected the worker never enters its `try`.

The executions are those of one worker alone, under an environment that may reject any of its
calls. The observer notes the three things the statement is about (`ClaimNote`).
-/

namespace TrustLink

open Effects TrackingPollWorker AutoReleaseWorker

/-- When the escrow was claimed for auto-release. -/
def World.releaseClaim (w : World) (id : String) : Option Time :=
  (w.db.escrows.get id).bind (·.autoReleaseSubmittedAt)

/-- When the escrow was claimed for delivery. -/
def World.deliveryClaim (w : World) (id : String) : Option Time :=
  (w.db.escrows.get id).bind (·.deliveryRecordedAt)

inductive ClaimNote where
  /-- `submitAutoRelease` or `recordDelivery` has succeeded. -/
  | contractCalled
  /-- The compensating clear was rejected. -/
  | clearRejected
  /-- A `findUnique` was rejected. -/
  | readRejected
  deriving DecidableEq, Repr

/-- The update is one of the two compensating clears. -/
def EscrowData.clears (data : EscrowData) : Bool :=
  data.autoReleaseSubmittedAt = some none || data.deliveryRecordedAt = some none

def claimNote : (c : Call) → Except Err c.Resp → List ClaimNote
  | .ext (.submitAutoRelease _ _), .ok _ => [.contractCalled]
  | .ext (.recordDelivery _ _), .ok _ => [.contractCalled]
  | .db (.escrowUpdate _ data), .error _ => if data.clears then [.clearRejected] else []
  | .db (.escrowFindUnique _), .error _ => [.readRejected]
  | _, _ => []

/-- A worker alone, observed. -/
abbrev observedWorld : Machine backend := world.noting claimNote

namespace ClaimReturn

/-! ## Rules

One rule for the calls that neither write a row nor are noted, one for updates, one for the read
through the cache. -/

section rules

variable {D : Deployment} {w : World} {notes : List ClaimNote} {α : Type}

/-- Any choice the environment can make. -/
abbrev watched : Protocol backend (World × List ClaimNote) := observedWorld.protocol fun _ => True

theorem wp_noted {c : Call} {Q : Except Err c.Resp → World × List ClaimNote → Prop}
    (h : ∀ ch, Q (handle ch c w).1 ((handle ch c w).2, claimNote c (handle ch c w).1 ++ notes)) :
    (Prog.perform (S := backend) c).wp watched Q (w, notes) :=
  (wp_machine_perform (M := observedWorld)).mpr fun ch _ => h ch

theorem wp_unnoted {c : Call} {Q : Except Err c.Resp → World × List ClaimNote → Prop}
    (hwrites : c.writesRows = false) (hnote : ∀ r, claimNote c r = [])
    (h : ∀ r w', w'.db.escrows = w.db.escrows → Q r (w', notes)) :
    (Prog.perform (S := backend) c).wp watched Q (w, notes) := by
  apply wp_noted
  intro ch
  rw [hnote, List.nil_append]
  exact h _ _ (handle_sameRows ch w c hwrites).1

/-- The cache never rejects. -/
theorem wp_cache_unnoted {c : CacheCall} {Q : Except Err c.Resp → World × List ClaimNote → Prop}
    (h : ∀ a w', w'.db.escrows = w.db.escrows → Q (.ok a) (w', notes)) :
    (cache c).wp watched Q (w, notes) := by
  apply wp_noted
  intro ch
  exact h _ _ rfl

theorem wp_date_unnoted {Q : Except Err Time → World × List ClaimNote → Prop}
    (h : ∀ now, Q (.ok now) (w, notes)) : newDate.wp watched Q (w, notes) := by
  apply wp_noted
  intro ch
  exact h _

theorem wp_invalidate_unnoted {id : String} {Q : Except Err Unit → World × List ClaimNote → Prop}
    (h : ∀ w', w'.db.escrows = w.db.escrows → Q (.ok ()) (w', notes)) :
    (EscrowRepository.invalidate D id).wp watched Q (w, notes) := by
  unfold EscrowRepository.invalidate
  apply wp_if
  · intro _
    exact wp_cache_unnoted fun _ => h
  · intro _
    exact h w rfl

/-- An update is rejected and leaves the row alone, or replaces it. -/
theorem wp_update_noted {id : String} {data : EscrowData}
    {Q : Except Err EscrowRecord → World × List ClaimNote → Prop}
    (hfail : ∀ e, Q (.error e) (w, (if data.clears then [ClaimNote.clearRejected] else []) ++ notes))
    (hok : ∀ row now w', w.db.escrows.get id = some row →
      w'.db.escrows = (w.db.escrows.put (row.update data now)) →
      Q (.ok (toEscrowRecord (row.update data now))) (w', notes)) :
    (EscrowRepository.update D id data).wp watched Q (w, notes) := by
  unfold EscrowRepository.update
  rw [wp_bind]
  apply wp_noted
  intro ch
  rcases handle_escrowUpdate ch w id data with ⟨e, heq⟩ | ⟨_, row, hrow, heq⟩
  · rw [heq]
    exact hfail e
  · rw [heq]
    dsimp only
    rw [wp_bind]
    apply wp_invalidate_unnoted
    intro w' hsame
    exact hok row ch.now w' hrow hsame

/-- The read of an escrow that is stored: it finds a record, or a rejected `findUnique` is noted. -/
theorem wp_findById_noted {id : String} {row : EscrowRow}
    {Q : Except Err (Option EscrowRecord) → World × List ClaimNote → Prop}
    (hrow : w.db.escrows.get id = some row)
    (hfail : ∀ e w', w'.db.escrows = w.db.escrows → Q (.error e) (w', .readRejected :: notes))
    (hok : ∀ record w', w'.db.escrows = w.db.escrows → Q (.ok (some record)) (w', notes)) :
    (EscrowRepository.findById D id).wp watched Q (w, notes) := by
  -- behind the cache, in a world with the same rows
  have hmiss : ∀ w₁ : World, w₁.db.escrows = w.db.escrows →
      (EscrowRepository.findStored D id).wp watched Q (w₁, notes) := by
    intro w₁ hsame
    unfold EscrowRepository.findStored
    rw [wp_bind]
    apply wp_noted
    intro ch
    rcases handle_findUnique ch w₁ id with ⟨e, heq⟩ | heq
    · rw [heq]
      exact hfail e w₁ hsame
    · rw [heq, hsame, hrow]
      dsimp only
      unfold EscrowRepository.remember
      rw [wp_bind, wp_ite]
      constructor
      · intro _
        apply wp_cache_unnoted
        intro _ w₂ hsame₂
        exact hok _ w₂ (hsame₂.trans hsame)
      · intro _
        exact hok _ w₁ hsame
  rw [EscrowRepository.findById_eq, wp_bind]
  unfold EscrowRepository.cached
  apply wp_if
  · intro _
    apply wp_cache_unnoted
    intro cached w₁ hsame
    cases cached with
    | some record => exact hok record w₁ hsame
    | none => exact hmiss w₁ hsame
  · intro _
    exact hmiss w rfl

/-- What has been noted stays noted. -/
theorem wp_still_noted {n : ClaimNote} {s : World × List ClaimNote} (p : App α) (hn : n ∈ s.2) :
    p.wp watched (fun _ s' => n ∈ s'.2) s := by
  apply (only_any p).wp_invariant (I := fun s' : World × List ClaimNote => n ∈ s'.2) _ hn
  intro c s₁ _ hn₁
  refine ⟨trivial, ?_⟩
  rintro r s₂ ⟨ch, _, heq⟩
  have hnotes : s₂.2 = claimNote c (handle ch c s₁.1).1 ++ s₁.2 := by
    rw [← congrArg (fun a => a.2.2) heq]
  rw [hnotes]
  exact List.mem_append_right _ hn₁

/-! ## The compensated block -/

/-- The block has made its contract call, or it has failed before it changed a row. -/
def CalledOrFailed (w : World) (notes : List ClaimNote) (r : Except Err α)
    (s : World × List ClaimNote) : Prop :=
  .contractCalled ∈ s.2 ∨ ((∃ e, r = .error e) ∧ s = (w, notes))

/-- The contract call, and whatever comes after it. -/
theorem wp_contractCall {c : ExtCall} {f : c.Resp → App α}
    (hcall : ∀ r, claimNote (.ext c) r = match r with
      | .ok _ => [.contractCalled]
      | .error _ => []) :
    (ext c >>= f).wp watched (CalledOrFailed w notes) (w, notes) := by
  rw [wp_bind]
  apply wp_noted
  intro ch
  have hanswer : handle ch (.ext c) w = (ch.reply c, w) := rfl
  rw [hcall, hanswer]
  cases ch.reply c with
  | error e => exact .inr ⟨⟨e, rfl⟩, rfl⟩
  | ok a =>
    have hnoted : ClaimNote.contractCalled ∈ ClaimNote.contractCalled :: notes :=
      List.mem_cons_self
    apply wp_mono (wp_still_noted (s := (w, _)) (f a) hnoted)
    intro r s hs
    exact .inl hs

/-- A block whose failure is compensated by an update of the claimed row. -/
theorem wp_compensated {body : App α} {id : String} {data : EscrowData}
    {Q : Except Err α → World × List ClaimNote → Prop} (hclears : data.clears = true)
    (hbody : body.wp watched (CalledOrFailed w notes) (w, notes))
    (hcalled : ∀ r s, .contractCalled ∈ s.2 → Q r s)
    (hrejected : ∀ r s, .clearRejected ∈ s.2 → Q r s)
    (hcleared : ∀ e row now w', w.db.escrows.get id = some row →
      w'.db.escrows = w.db.escrows.put (row.update data now) → Q (.error e) (w', notes)) :
    (Prog.tryCatch body fun err => do
      let _ ← EscrowRepository.update D id data
      throw err).wp watched Q (w, notes) := by
  rw [wp_tryCatch]
  apply wp_mono hbody
  intro r s hs
  rcases hs with hnoted | ⟨⟨e, rfl⟩, rfl⟩
  · -- the contract was called: the statement asks for nothing more
    cases r with
    | ok a => exact hcalled _ _ hnoted
    | error e =>
      apply wp_mono (wp_still_noted _ hnoted)
      intro r s' hs'
      exact hcalled r s' hs'
  · dsimp only
    rw [wp_bind]
    apply wp_update_noted
    · intro e'
      apply hrejected
      rw [if_pos hclears]
      exact List.mem_cons_self
    · intro row now w' hrow hafter
      exact hcleared e row now w' hrow hafter

end rules

/-! ## Auto-release -/

section release

variable {D : Deployment} {w : World} {escrow : EscrowRecord}

theorem releaseClaim_update {w w' : World} {row : EscrowRow} {data : EscrowData} {now : Time}
    {id : String} (hrow : w.db.escrows.get id = some row)
    (h : w'.db.escrows = w.db.escrows.put (row.update data now)) :
    w'.releaseClaim id = data.autoReleaseSubmittedAt.getD row.autoReleaseSubmittedAt := by
  rw [World.releaseClaim, h, Store.Table.get_put, EscrowRow.update_id, get_id hrow, if_pos rfl]
  rfl

theorem wp_submitClaimed {notes : List ClaimNote} (contractEscrowId : Nat) :
    (submitClaimed D escrow contractEscrowId).wp watched (CalledOrFailed w notes)
      (w, notes) := by
  unfold submitClaimed requireAutoReleaseSource
  rw [wp_bind]
  split
  · exact .inr ⟨⟨_, rfl⟩, rfl⟩
  · exact wp_contractCall fun r => by cases r <;> rfl

/-- The claim of the escrow is back, unless the read after the claim was rejected. -/
def ReleaseReturned (w : World) (id : String) (s : World × List ClaimNote) : Prop :=
  w.releaseClaim id = none → .contractCalled ∉ s.2 → .clearRejected ∉ s.2 →
    (s.1.releaseClaim id = none ↔ .readRejected ∉ s.2)

theorem releaseReturned_untouched {id : String} {w' : World} (h : w'.db.escrows = w.db.escrows) :
    ReleaseReturned w id (w', []) := by
  intro hfree _ _
  rw [World.releaseClaim, h]
  exact ⟨fun _ => List.not_mem_nil, fun _ => hfree⟩

/-- The claim is not won and no row has changed; or it is won, and then the record is read back,
unless that read is rejected. -/
theorem wp_markAutoReleaseSubmitting {id : String} {notes : List ClaimNote}
    {Q : Except Err (Option EscrowRecord) → World × List ClaimNote → Prop}
    (hlost : Q (.ok none) (w, notes)) (hfail : ∀ e, Q (.error e) (w, notes))
    (hleak : ∀ e t w', w'.releaseClaim id = some t → Q (.error e) (w', .readRejected :: notes))
    (hwon : ∀ record w', Q (.ok (some record)) (w', notes)) :
    (EscrowRepository.markAutoReleaseSubmitting D id).wp watched Q (w, notes) := by
  unfold EscrowRepository.markAutoReleaseSubmitting
  rw [wp_bind]
  apply wp_date_unnoted
  intro now
  dsimp only
  rw [wp_bind]
  apply wp_noted
  intro ch
  rcases handle_unsubmitted ch w id now with ⟨e, heq⟩ | heq | ⟨row, hrow, _, heq⟩
  · rw [heq]
    exact hfail e
  · rw [heq]
    exact hlost
  · rw [heq]
    have hstored : (w.db.putEscrow (row.update (claimData now) ch.now)).escrows.get id =
        some (row.update (claimData now) ch.now) := by
      rw [putEscrow_get, EscrowRow.update_id, get_id hrow, if_pos rfl]
    show (EscrowRepository.findById D id >>= fun result =>
      EscrowRepository.invalidate D id >>= fun _ => pure result).wp watched Q (_, notes)
    rw [wp_bind]
    apply wp_findById_noted hstored
    -- the claim is written and the read after it is rejected: nobody will return it
    · intro e w₁ hsame
      apply hleak e now w₁
      rw [World.releaseClaim, hsame]
      exact congrArg (fun stored => Option.bind stored (·.autoReleaseSubmittedAt)) hstored
    · intro record w₁ _
      dsimp only
      rw [wp_bind]
      apply wp_invalidate_unnoted
      intro w₂ _
      exact hwon record w₂

theorem wp_processEscrow (D : Deployment) (escrow : EscrowRecord) (w : World) :
    (processEscrow D escrow).wp watched
      (fun _ s => ReleaseReturned w escrow.id s) (w, []) := by
  unfold processEscrow
  rw [wp_bind]
  apply wp_unnoted rfl (fun r => by cases r <;> rfl)
  intro found w₁ hsame
  match found with
  | .error e => exact releaseReturned_untouched hsame
  | .ok (some dispute) => exact releaseReturned_untouched hsame
  | .ok none =>
    refine wp_if (fun _ => releaseReturned_untouched hsame) fun _ => ?_
    cases escrow.contractEscrowId with
    | none => exact releaseReturned_untouched hsame
    | some contractEscrowId =>
      dsimp only
      rw [wp_bind]
      apply wp_markAutoReleaseSubmitting
      · exact releaseReturned_untouched hsame
      · exact fun e => releaseReturned_untouched hsame
      · -- the leak: the read is rejected, and nothing clears the claim
        intro e t w₂ hclaim _ _ _
        rw [hclaim]
        constructor
        · exact nofun
        · exact fun h => absurd List.mem_cons_self h
      · intro record w₂
        apply wp_compensated rfl (wp_submitClaimed contractEscrowId)
        · exact fun r s hcalled _ hnot => absurd hcalled hnot
        · exact fun r s hrejected _ _ hnot => absurd hrejected hnot
        · intro e row now w₃ hrow hafter _ _ _
          rw [releaseClaim_update hrow hafter]
          exact ⟨fun _ => List.not_mem_nil, fun _ => rfl⟩

end release

/-! ## Delivery -/

section delivery

variable {D : Deployment} {w : World} {escrow : EscrowRecord}

theorem deliveryClaim_update {w w' : World} {row : EscrowRow} {data : EscrowData} {now : Time}
    {id : String} (hrow : w.db.escrows.get id = some row)
    (h : w'.db.escrows = w.db.escrows.put (row.update data now)) :
    w'.deliveryClaim id = data.deliveryRecordedAt.getD row.deliveryRecordedAt := by
  rw [World.deliveryClaim, h, Store.Table.get_put, EscrowRow.update_id, get_id hrow, if_pos rfl]
  rfl

theorem wp_recordClaimed {notes : List ClaimNote} (contractEscrowId : Nat) :
    (recordClaimed D escrow contractEscrowId).wp watched
      (CalledOrFailed w notes) (w, notes) := by
  unfold recordClaimed TrackingPollWorker.requireAdminAddress
  rw [wp_bind]
  split
  · exact .inr ⟨⟨_, rfl⟩, rfl⟩
  · exact wp_contractCall fun r => by cases r <;> rfl

/-- The claim of the escrow is back. -/
def DeliveryReturned (id : String) (s : World × List ClaimNote) : Prop :=
  .contractCalled ∉ s.2 → .clearRejected ∉ s.2 → s.1.deliveryClaim id = none

/-- The claim is not won and no row has changed, or it is won. -/
theorem wp_claimDelivery {id : String}
    {Q : Except Err (Option EscrowRecord) → World × List ClaimNote → Prop}
    (hlost : Q (.ok none) (w, [])) (hfail : ∀ e notes, Q (.error e) (w, notes))
    (hwon : ∀ record w', Q (.ok (some record)) (w', [])) :
    (EscrowRepository.claimDelivery D id).wp watched Q (w, []) := by
  unfold EscrowRepository.claimDelivery
  rw [wp_bind]
  apply wp_noted
  intro ch
  rcases handle_findUnique ch w id with ⟨e, heq⟩ | heq
  · rw [heq]
    exact hfail e _
  · rw [heq]
    cases w.db.escrows.get id with
    | none => exact hlost
    | some row =>
      refine wp_if (fun _ => hlost) fun _ => ?_
      rw [wp_bind]
      apply wp_date_unnoted
      intro now
      dsimp only
      rw [wp_bind]
      apply wp_update_noted
      · exact fun e => hfail e _
      · exact fun row₁ now₁ w₁ _ _ => hwon _ w₁

theorem wp_deliver (hfree : w.deliveryClaim escrow.id = none) :
    (TrackingPollWorker.deliver D escrow).wp watched (fun _ s => DeliveryReturned escrow.id s)
      (w, []) := by
  have huntouched : ∀ (w' : World) (notes : List ClaimNote), w'.db.escrows = w.db.escrows →
      DeliveryReturned escrow.id (w', notes) := by
    intro w' notes hsame _ _
    rw [World.deliveryClaim, hsame]
    exact hfree
  unfold TrackingPollWorker.deliver
  split
  · rw [wp_bind]
    apply wp_unnoted rfl (fun r => by cases r <;> rfl)
    intro status w₁ hsame
    cases status with
    | error e => exact huntouched w₁ _ hsame
    | ok status =>
      refine wp_if (fun _ => huntouched w₁ _ hsame) fun _ => ?_
      rw [wp_bind]
      apply wp_claimDelivery
      · exact huntouched w₁ _ hsame
      · exact fun e notes => huntouched w₁ notes hsame
      · intro record w₂
        apply wp_compensated rfl (wp_recordClaimed _)
        · exact fun r s hcalled hnot => absurd hcalled hnot
        · exact fun r s hrejected _ hnot => absurd hrejected hnot
        · intro e row now w₃ hrow hafter _ _
          rw [deliveryClaim_update hrow hafter]
          rfl
  · exact huntouched w _ rfl

theorem wp_processShipment (D : Deployment) (escrow : EscrowRecord) (w : World)
    (hfree : w.deliveryClaim escrow.id = none) :
    (processShipment D escrow).wp watched
      (fun _ s => DeliveryReturned escrow.id s) (w, []) := by
  unfold processShipment EscrowRepository.markTrackingChecked
  rw [wp_tryFinally]
  apply wp_mono (wp_deliver hfree)
  intro r s hreturned
  obtain ⟨w₁, notes⟩ := s
  -- `finally` writes another column of the row
  rw [wp_void, wp_bind]
  apply wp_date_unnoted
  intro now
  apply wp_update_noted
  · exact fun e => hreturned
  · intro row now₁ w₂ hrow hafter hcalled hcleared
    have hbefore := hreturned hcalled hcleared
    rw [World.deliveryClaim, hrow, Option.bind_some] at hbefore
    rw [deliveryClaim_update hrow hafter]
    exact hbefore

end delivery

end ClaimReturn

/-! ## Executions -/

/-- The world after `processEscrow` has run alone, and what was noted. -/
def releaseRun (D : Deployment) (escrow : EscrowRecord) (w : World) (env : Nat → Choice) :
    World × List ClaimNote :=
  ((processEscrow D escrow).exec observedWorld env (w, [])).2

/-- The world after `processShipment` has run alone, and what was noted. -/
def deliveryRun (D : Deployment) (escrow : EscrowRecord) (w : World) (env : Nat → Choice) :
    World × List ClaimNote :=
  ((processShipment D escrow).exec observedWorld env (w, [])).2

/-- A worker that settles without its contract call having succeeded, and whose compensating clear
was not rejected, leaves no claim behind: for a delivery always, for an auto-release exactly when
the read after the claim was not rejected. Any of the other calls may have been. -/
theorem claim_returned_iff (D : Deployment) (escrow : EscrowRecord) (w : World)
    (env : Nat → Choice) :
    (w.releaseClaim escrow.id = none →
      .contractCalled ∉ (releaseRun D escrow w env).2 →
      .clearRejected ∉ (releaseRun D escrow w env).2 →
      ((releaseRun D escrow w env).1.releaseClaim escrow.id = none ↔
        .readRejected ∉ (releaseRun D escrow w env).2)) ∧
    (w.deliveryClaim escrow.id = none →
      .contractCalled ∉ (deliveryRun D escrow w env).2 →
      .clearRejected ∉ (deliveryRun D escrow w env).2 →
      (deliveryRun D escrow w env).1.deliveryClaim escrow.id = none) := by
  constructor
  · exact exec_of_wp_any (M := observedWorld) (ClaimReturn.wp_processEscrow D escrow w) env
  · intro hfree
    have hwp := ClaimReturn.wp_processShipment D escrow w hfree
    exact exec_of_wp_any (M := observedWorld) hwp env

/-- A shipped lamp the contract knows. -/
def parcelLamp : EscrowRow :=
  { Db.lampEscrow .SHIPPED with trackingId := some "TRK-1", contractEscrowId := some 7 }

/-- The carrier reports the delivery; the contract rejects every call. -/
def Choice.parcelArrived : Choice :=
  { Choice.calm with
    reply := fun
      | .getStatus _ => .ok ⟨.DELIVERED, none, none, []⟩
      | _ => .error (.error "no answer") }

/-- Both workers win their claim, fail to reach the contract and give the claim back. -/
theorem claim_returned_unreachable :
    (releaseRun .bare (toEscrowRecord dueLamp)
        (World.ofEscrows [dueLamp]) fun _ => .calm).1.releaseClaim "e1" = none ∧
      (deliveryRun .bare (toEscrowRecord parcelLamp) (World.ofEscrows [parcelLamp])
        fun _ => .parcelArrived).1.deliveryClaim "e1" = none := by
  constructor
  · have hiff := (claim_returned_iff .bare (toEscrowRecord dueLamp)
      (World.ofEscrows [dueLamp]) fun _ => .calm).1
    exact (hiff (by decide +kernel) (by decide +kernel) (by decide +kernel)).mpr
      (by decide +kernel)
  · exact (claim_returned_iff .bare (toEscrowRecord parcelLamp) (World.ofEscrows [parcelLamp])
      fun _ => .parcelArrived).2 (by decide +kernel) (by decide +kernel) (by decide +kernel)

/-- One call is rejected, the fourth of `processEscrow`: the read after the claim. The worker
settles without having called the contract, and the claim stays. -/
theorem claim_leaked :
    let env : Nat → Choice := fun n =>
      if n = 3 then { Choice.calm with fault := fun _ => some .unavailable } else .calm
    let w := World.ofEscrows [dueLamp]
    let run := releaseRun .bare (toEscrowRecord dueLamp) w env
    w.releaseClaim "e1" = none ∧ run.2 = [.readRejected] ∧ run.1.releaseClaim "e1" = some 0 := by
  decide +kernel

end TrustLink
