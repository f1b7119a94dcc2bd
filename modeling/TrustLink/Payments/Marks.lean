import TrustLink.Effects.Lock
import TrustLink.Model.Frame
import TrustLink.Payments.Delivery

/-!
# TrustLink — the mark of an operation

Before an operation is processed its id is inserted into the processed table, and the insertion is
what lets a delivery in: a second one is refused by the unique index. The mark is a lock
(`Effects/Lock.lean`), owned from the insertion on; it is given up only by the delete that follows
a failure, and kept for good by a delivery that has succeeded.

Two statements rest on it. At most one delivery of an operation is between its mark and its end,
and at most one succeeds; what was rolled back can be processed again. And a stored id has an
owner, so as long as the roll-back is never rejected and no process stops while it owns a mark, an
id that is stored and not being processed has been processed.
-/

namespace TrustLink

open Effects StellarWebhookService

def Marked (operationId : String) (w : World) : Prop :=
  operationId ∈ w.db.processedWebhookEvents

instance (operationId : String) (w : World) : Decidable (Marked operationId w) :=
  inferInstanceAs (Decidable (operationId ∈ w.db.processedWebhookEvents))

/-! ## The processed table is a lock

`MarkStep` says what one call of a delivery can do to the table and to the mark of the delivery.
Everything below is a case split over it. -/

/-- The delivery owns the mark of the operation. -/
def Visit.Owns (v : Visit) (operationId : String) : Prop :=
  v.dto.id = operationId ∧ (v.phase = .marked ∨ v.phase = .leftBehind)

/-- What a call may do, with the table and the phase after it. -/
inductive MarkStep (ch : Choice) (w : World) (c : Call) (v : Visit) : Finset String → Phase → Prop
  | created (hphase : v.phase = .unmarked) (hfree : ¬ Marked v.dto.id w) :
    MarkStep ch w c v (insert v.dto.id w.db.processedWebhookEvents) .marked
  | deleted (hphase : v.phase = .marked) :
    MarkStep ch w c v (w.db.processedWebhookEvents.erase v.dto.id) .rolledBack
  | rejected (hphase : v.phase = .marked) (hc : c = .db (.processedDelete v.dto.id))
    (e : Err) (hrejected : handle ch (.db (.processedDelete v.dto.id)) w = (.error e, w)) :
    MarkStep ch w c v w.db.processedWebhookEvents .leftBehind
  | kept : MarkStep ch w c v w.db.processedWebhookEvents v.phase

section step

variable {D : Deployment} {v : Visit} {c : Call} {w : World} {ch : Choice} {operationId : String}

theorem Visit.next_phase (r : Except Err c.Resp) (h : c.writesProcessed = false) :
    (v.next D c r).phase = v.phase := by
  unfold Visit.next
  split <;> first | rfl | cases h

theorem markStep_of_ok (D : Deployment) (ch : Choice) (w : World) (hok : v.ok c) :
    MarkStep ch w c v (handle ch c w).2.db.processedWebhookEvents
      (v.next D c (handle ch c w).1).phase := by
  by_cases hwrites : c.writesProcessed
  · cases c with
    | db c =>
      cases c with
      | processedCreate operationId =>
        obtain ⟨rfl, hphase⟩ := hok
        rcases handle_processedCreate ch w v.dto.id with ⟨e, heq⟩ | ⟨hfree, heq⟩
        · rw [heq]
          exact .kept
        · rw [heq]
          exact .created hphase hfree
      | processedDelete operationId =>
        obtain ⟨rfl, hphase, _⟩ := hok
        rcases handle_processedDelete ch w v.dto.id with ⟨e, heq⟩ | heq
        · rw [heq]
          exact .rejected hphase rfl e heq
        · rw [heq]
          exact .deleted hphase
      | _ => cases hwrites
    | _ => cases hwrites
  · have hwrites : c.writesProcessed = false := Bool.eq_false_iff.mpr hwrites
    rw [handle_sameProcessed ch w c hwrites, Visit.next_phase _ hwrites]
    exact .kept

/-- A call of a delivery keeps the discipline of a lock. -/
theorem lockStep_visit (hok : v.ok c) (hheld : v.Owns operationId → Marked operationId w) :
    (visit D).LockStep (M := world) Visit.Owns Marked v c w ch operationId := by
  have hstep : MarkStep ch w c v _ _ := markStep_of_ok D ch w hok
  have hdto := Visit.next_dto D v c (handle ch c w).1
  constructor
  · rintro ⟨hid, hphase⟩
    have hid : v.dto.id = operationId := by
      rw [← hdto]
      exact hid
    subst hid
    show v.dto.id ∈ (handle ch c w).2.db.processedWebhookEvents ∧ _
    have hphase : (v.next D c (handle ch c w).1).phase = .marked ∨
      (v.next D c (handle ch c w).1).phase = .leftBehind := hphase
    generalize (handle ch c w).2.db.processedWebhookEvents = table,
      (v.next D c (handle ch c w).1).phase = phase at hstep hphase ⊢
    cases hstep with
    | created _ hfree => exact ⟨Finset.mem_insert_self _ _, .inr hfree⟩
    | deleted => rcases hphase with h | h <;> cases h
    | rejected hbefore => exact ⟨hheld ⟨rfl, .inl hbefore⟩, .inl ⟨rfl, .inl hbefore⟩⟩
    | kept => exact ⟨hheld ⟨rfl, hphase⟩, .inl ⟨rfl, hphase⟩⟩
  · intro hlocked
    show operationId ∈ (handle ch c w).2.db.processedWebhookEvents ∨ v.Owns operationId ∧
      ¬ (v.next D c (handle ch c w).1).Owns operationId
    rw [Visit.Owns, Visit.Owns, hdto]
    generalize (handle ch c w).2.db.processedWebhookEvents = table,
      (v.next D c (handle ch c w).1).phase = phase at hstep ⊢
    cases hstep with
    | created => exact .inl (Finset.mem_insert_of_mem hlocked)
    | deleted hphase =>
      by_cases hid : operationId = v.dto.id
      · subst hid
        refine .inr ⟨⟨rfl, .inl hphase⟩, ?_⟩
        rintro ⟨_, h | h⟩ <;> cases h
      · exact .inl (Finset.mem_erase.mpr ⟨hid, hlocked⟩)
    | rejected => exact .inl hlocked
    | kept => exact .inl hlocked

end step

/-! ## Whole runs

A mark that is new since the start has an owner: a delivery that is at work or has completed. -/

/-- The roll-back a move is, if it is one. -/
def rollback? (P : Webhooks) : Move world Delivery → Option (String × Choice)
  | .spawn _ => none
  | .step i ch =>
    match P.threads[i]? with
    | some ⟨_, _, .call (.db (.processedDelete operationId)) _⟩ => some (operationId, ch)
    | _ => none

/-- `unmarkProcessed` is not rejected. -/
def RollsBack (P : Webhooks) (mv : Move world Delivery) : Prop :=
  ∀ rollback ∈ rollback? P mv, rollback.2.fault (.processedDelete rollback.1) = none

instance (P : Webhooks) (mv : Move world Delivery) : Decidable (RollsBack P mv) :=
  inferInstanceAs (Decidable (∀ rollback ∈ rollback? P mv, _))

/-- The table and the deliveries, since the table was that of `w₀`. -/
structure MarkInv (D : Deployment) (w₀ : World) (P : Webhooks) : Prop where
  exclusive : (visit D).Exclusive (M := world) Visit.Owns Marked P
  /-- A mark has an owner, or was there before. -/
  owned : ∀ operationId, Marked operationId P.state →
    Marked operationId w₀ ∨ ∃ t ∈ P.threads, ((visit D).view t).Owns operationId
  /-- What was marked before is never processed. -/
  old : ∀ operationId, Marked operationId w₀ →
    (visit D).Sealed (M := world) Visit.Owns Marked operationId P ∧
      ∀ t ∈ P.threads, ((visit D).view t).dto.id = operationId →
        ((visit D).view t).phase ≠ .rolledBack
  /-- No roll-back has been rejected. -/
  answered : ∀ t ∈ P.threads, ((visit D).view t).phase ≠ .leftBehind

section run

variable {D : Deployment} {w₀ : World} {P : Webhooks} {i : Nat} {ch : Choice}
  {t : Thread backend Delivery} {c : Call} {k : Except Err c.Resp → App Unit}

theorem rollsBack_fault {operationId : String} (hK : RollsBack P (.step i ch))
    (ht : P.threads[i]? = some t) (hr : t.rest = .call c k)
    (hc : c = .db (.processedDelete operationId)) :
    ch.fault (.processedDelete operationId) = none := by
  subst hc
  obtain ⟨label, past, rest⟩ := t
  have hr : rest = .call (.db (.processedDelete operationId)) k := hr
  subst hr
  refine hK (operationId, ch) ?_
  simp only [rollback?, ht]
  rfl

/-- The roll-back of an owner succeeds: its mark is there. -/
theorem answered_advance (hK : RollsBack P (.step i ch)) (hI : MarkInv D w₀ P)
    (ht : P.threads[i]? = some t) (hr : t.rest = .call c k) (hok : ((visit D).view t).ok c) :
    (((visit D).view t).next D c (handle ch c P.state).1).phase ≠ .leftBehind := by
  have hmem := List.mem_of_getElem? ht
  have hstep := markStep_of_ok D ch P.state hok
  intro hphase
  generalize (((visit D).view t).next D c (handle ch c P.state).1).phase = phase at hstep hphase
  generalize (handle ch c P.state).2.db.processedWebhookEvents = table at hstep
  cases hstep with
  | created => cases hphase
  | deleted => cases hphase
  | rejected hbefore hc e hrejected =>
    have hfault := rollsBack_fault hK ht hr hc
    have hmarked : ((visit D).view t).dto.id ∈ P.state.db.processedWebhookEvents :=
      hI.exclusive.locked t hmem _ ⟨rfl, .inl hbefore⟩
    simp only [handle, handleDb, hfault, Db.exec, if_pos hmarked] at hrejected
    cases hrejected
  | kept => exact hI.answered t hmem hphase

/-- A mark that stands after a call has an owner then, or is old. -/
theorem owned_advance {operationId : String} (hI : MarkInv D w₀ P) (ht : P.threads[i]? = some t)
    (hok : ((visit D).view t).ok c) (hmarked : Marked operationId (handle ch c P.state).2) :
    Marked operationId w₀ ∨
      ∃ t' ∈ (P.advance i t c k ch).threads, ((visit D).view t').Owns operationId := by
  -- the mark was there before the call, and the call is not one that gives it up
  have hkept : Marked operationId P.state →
      (((visit D).view t).Owns operationId →
        (((visit D).view t).next D c (handle ch c P.state).1).Owns operationId) →
      Marked operationId w₀ ∨
        ∃ t' ∈ (P.advance i t c k ch).threads, ((visit D).view t').Owns operationId := by
    intro hbefore hmover
    rcases hI.owned operationId hbefore with hold | hown
    · exact .inl hold
    · exact .inr (Pool.exists_advance ht hmover hown)
  have hstep := markStep_of_ok D ch P.state hok
  have hdto := Visit.next_dto D ((visit D).view t) c (handle ch c P.state).1
  unfold Marked at hmarked
  generalize hphase : (((visit D).view t).next D c (handle ch c P.state).1).phase = phase at hstep
  generalize (handle ch c P.state).2.db.processedWebhookEvents = table at hstep hmarked
  cases hstep with
  | created hbefore hfree =>
    by_cases hid : operationId = ((visit D).view t).dto.id
    · -- the mover has just made this mark
      refine .inr ⟨_, Pool.mover_mem ht, ?_, .inl hphase⟩
      exact (congrArg _ hdto).trans hid.symm
    · refine hkept (Finset.mem_of_mem_insert_of_ne hmarked hid) fun hown => ?_
      exact absurd hown.1.symm hid
  | deleted =>
    have hne := Finset.ne_of_mem_erase hmarked
    refine hkept (Finset.mem_of_mem_erase hmarked) fun hown => ?_
    exact absurd hown.1.symm hne
  | rejected =>
    exact hkept hmarked fun hown => ⟨(congrArg _ hdto).trans hown.1, .inr hphase⟩
  | kept =>
    refine hkept hmarked fun hown => ⟨(congrArg _ hdto).trans hown.1, ?_⟩
    rw [hphase]
    exact hown.2

/-- One call keeps the invariant. -/
theorem markInv_advance (hK : RollsBack P (.step i ch)) (hI : MarkInv D w₀ P)
    (ht : P.threads[i]? = some t) (hr : t.rest = .call c k) (hok : ((visit D).view t).ok c) :
    MarkInv D w₀ (P.advance i t c k ch) := by
  have hmem := List.mem_of_getElem? ht
  have hlock : ∀ operationId, (visit D).LockStep (M := world) Visit.Owns Marked ((visit D).view t) c
      P.state ch operationId := by
    intro operationId
    exact lockStep_visit hok (hI.exclusive.locked t hmem operationId)
  refine ⟨Monitor.exclusive_advance hlock ht hI.exclusive, ?_, ?_, ?_⟩
  · intro operationId hmarked
    exact owned_advance hI ht hok hmarked
  · intro operationId hold
    obtain ⟨hsealed, hnever⟩ := hI.old operationId hold
    refine ⟨Monitor.sealed_advance (hlock operationId) ht hsealed, ?_⟩
    intro t' ht' hid hphase
    rcases Pool.mem_advance ht' with rfl | hother
    · -- only an owner can have rolled back, and nobody owns this mark
      have hid : ((visit D).view t).dto.id = operationId := by
        rw [← Visit.next_dto D ((visit D).view t) c (handle ch c P.state).1]
        exact hid
      have hphase : (((visit D).view t).next D c (handle ch c P.state).1).phase = .rolledBack :=
        hphase
      have hstep := markStep_of_ok D ch P.state hok
      generalize (((visit D).view t).next D c (handle ch c P.state).1).phase = phase
        at hstep hphase
      generalize (handle ch c P.state).2.db.processedWebhookEvents = table at hstep
      cases hstep with
      | created => cases hphase
      | deleted hbefore => exact hsealed.2 t hmem ⟨hid, .inl hbefore⟩
      | rejected => cases hphase
      | kept => exact hnever t hmem hid hphase
    · exact hnever t' hother hid hphase
  · intro t' ht'
    rcases Pool.mem_advance ht' with rfl | hother
    · exact answered_advance hK hI ht hr hok
    · exact hI.answered t' hother

/-- A new delivery owns nothing, so it disturbs nothing. -/
theorem markInv_spawn (hI : MarkInv D w₀ P) (l : Delivery) :
    MarkInv D w₀ { P with threads := P.threads ++ [⟨l, [], l.prog D⟩] } := by
  have hnew : ∀ operationId, ¬ ((visit D).init l).Owns operationId := by
    rintro operationId ⟨_, hphase | hphase⟩ <;> cases hphase
  -- what holds of the new delivery and of the old ones holds of all
  have hall : ∀ {p : Thread backend Delivery → Prop}, p ⟨l, [], l.prog D⟩ →
      (∀ t ∈ P.threads, p t) → ∀ t ∈ P.threads ++ [⟨l, [], l.prog D⟩], p t := by
    intro p hp hold t ht
    rcases List.mem_append.mp ht with ht | ht
    · exact hold t ht
    · rw [List.mem_singleton.mp ht]
      exact hp
  refine ⟨Monitor.exclusive_spawn hnew hI.exclusive, ?_, ?_, hall nofun hI.answered⟩
  · intro operationId hmarked
    rcases hI.owned operationId hmarked with hold | ⟨t, ht, hown⟩
    · exact .inl hold
    · exact .inr ⟨t, List.mem_append_left _ ht, hown⟩
  · intro operationId hold
    obtain ⟨⟨hlocked, hnobody⟩, hnever⟩ := hI.old operationId hold
    exact ⟨⟨hlocked, hall (hnew operationId) hnobody⟩, hall (fun _ => nofun) hnever⟩

/-- Every run whose roll-backs succeed. -/
theorem markInv_run (D : Deployment) (w : World) (ms : List (Move world Delivery))
    (hadm : Pool.Admissible (Delivery.prog D) RollsBack ⟨w, []⟩ ms) :
    (visit D).Settles (fun _ => Visit.Ended) (deliver D w ms) ∧ MarkInv D w (deliver D w ms) := by
  refine (visit D).run_settles (γ := Unit) (fun _ _ => []) (I := fun _ => MarkInv D w) ?_ ?_ ?_ ms
    ⟨w, []⟩ [] hadm ((visit D).settles_nil (M := world) w) ?_
  · intro P mv _ _ hI
    exact hI
  · intro P l _ _ hI
    exact ⟨Visit.wp_delivery D l, markInv_spawn hI l⟩
  · intro P i ch t c k _ hK hI _ ht hr hok
    exact ⟨Visit.answered_handle ch c P.state, markInv_advance hK hI ht hr hok⟩
  · exact ⟨Monitor.exclusive_nil (M := world) w, fun _ h => .inl h,
      fun _ h => ⟨⟨h, nofun⟩, nofun⟩, nofun⟩

end run

/-! ## At most once -/

/-- `processEvent` has been entered by this delivery, and not been rolled back. -/
def Entered (D : Deployment) (operationId : String) (t : Thread backend Delivery) : Prop :=
  t.label.operationId = operationId ∧ ((visit D).view t).phase = .marked

/-- This delivery is between its mark and its end: `processEvent` runs, or is being rolled back. -/
def Processing (D : Deployment) (operationId : String) (t : Thread backend Delivery) : Prop :=
  Entered D operationId t ∧ t.outcome = none

/-- `processEvent` of this delivery has returned. -/
def Completed (D : Deployment) (operationId : String) (t : Thread backend Delivery) : Prop :=
  Entered D operationId t ∧ t.outcome = some (.ok ())

/-- `processEvent` of this delivery has failed, and its mark has been deleted. -/
def RolledBack (D : Deployment) (operationId : String) (t : Thread backend Delivery) : Prop :=
  t.label.operationId = operationId ∧ ((visit D).view t).phase = .rolledBack

instance (D : Deployment) (operationId : String) (t : Thread backend Delivery) :
    Decidable (Entered D operationId t) :=
  inferInstanceAs (Decidable (_ ∧ _))

instance (D : Deployment) (operationId : String) (t : Thread backend Delivery) :
    Decidable (Processing D operationId t) :=
  inferInstanceAs (Decidable (_ ∧ _))

instance (D : Deployment) (operationId : String) (t : Thread backend Delivery) :
    Decidable (Completed D operationId t) :=
  inferInstanceAs (Decidable (_ ∧ _))

instance (D : Deployment) (operationId : String) (t : Thread backend Delivery) :
    Decidable (RolledBack D operationId t) :=
  inferInstanceAs (Decidable (_ ∧ _))

/-- The signature of a delivery, if it needs one, is right. -/
def Delivery.authentic (D : Deployment) : Delivery → Prop
  | .handleEvent rawBody signature _ =>
    verifySignature D rawBody signature = pure ()
  | .processOperationDto _ => True

theorem Entered.owns {D : Deployment} {operationId : String} {t : Thread backend Delivery}
    (h : Entered D operationId t) : ((visit D).view t).Owns operationId := by
  refine ⟨?_, .inl h.2⟩
  rw [view_dto]
  exact h.1

/-- An owner is in flight or has completed: it cannot have ended with an error. -/
theorem owner_cases {D : Deployment} {w : World} {P : Webhooks}
    (hsettles : (visit D).Settles (fun _ => Visit.Ended) P) (hI : MarkInv D w P)
    {operationId : String} {t : Thread backend Delivery} (ht : t ∈ P.threads)
    (hown : ((visit D).view t).Owns operationId) :
    Processing D operationId t ∨ Completed D operationId t := by
  have hmarked : ((visit D).view t).phase = .marked := hown.2.resolve_right (hI.answered t ht)
  have hentered : Entered D operationId t := by
    refine ⟨?_, hmarked⟩
    rw [Delivery.operationId, ← view_dto D]
    exact hown.1
  cases houtcome : t.outcome with
  | none => exact .inl ⟨hentered, houtcome⟩
  | some r =>
    have hok := hsettles.outcome ht houtcome hmarked
    cases r with
    | error e => cases hok
    | ok _ => exact .inr ⟨hentered, houtcome⟩

/-- The first two calls of a delivery of an operation that is not marked. -/
theorem enters (D : Deployment) (P : Webhooks) (l : Delivery) (hauthentic : l.authentic D)
    {ch₁ ch₂ : Choice} (hread : ch₁.fault (.processedFindUnique l.operationId) = none)
    (hwrite : ch₂.fault (.processedCreate l.operationId) = none)
    (hfree : ¬ Marked l.operationId P.state) :
    ∃ t, (Pool.run (Delivery.prog D) P [.spawn l, .step P.threads.length ch₁,
        .step P.threads.length ch₂]).threads[P.threads.length]? = some t ∧
      Entered D l.operationId t := by
  -- the look-up comes first, and after a negative answer the mark
  obtain ⟨k, k', hprog, hnext⟩ : ∃ k k', l.prog D
        = .call (.db (.processedFindUnique l.operationId)) k ∧
      k (.ok false) = .call (.db (.processedCreate l.operationId)) k' := by
    cases l with
    | handleEvent rawBody signature dto =>
      show ∃ k k', (StellarWebhookService.handleEvent D rawBody signature dto).void = _ ∧ _
      unfold StellarWebhookService.handleEvent
      rw [show verifySignature D rawBody signature = pure () from hauthentic]
      exact ⟨_, _, rfl, rfl⟩
    | processOperationDto dto => exact ⟨_, _, rfl, rfl⟩
  have hfree : l.operationId ∉ P.state.db.processedWebhookEvents := hfree
  have hfind : handle ch₁ (.db (.processedFindUnique l.operationId)) P.state
      = (.ok false, P.state) := by
    simp only [handle, handleDb, hread, Db.exec, decide_eq_false hfree]
    rfl
  obtain ⟨w', hmark⟩ : ∃ w', handle ch₂ (.db (.processedCreate l.operationId)) P.state
      = (.ok (), w') := by
    simp only [handle, handleDb, hwrite, Db.exec, if_neg hfree]
    exact ⟨_, rfl⟩
  have hspawn : Pool.next (Delivery.prog D) P (.spawn l) = ⟨P.state, P.threads ++ [⟨l, [],
      .call (.db (.processedFindUnique l.operationId)) k⟩]⟩ := by
    rw [← hprog]
    rfl
  have hrun : Pool.run (Delivery.prog D) P [.spawn l, .step P.threads.length ch₁,
      .step P.threads.length ch₂] = ⟨w', P.threads ++ [⟨l,
        [⟨.db (.processedCreate l.operationId), .ok ()⟩,
          ⟨.db (.processedFindUnique l.operationId), .ok false⟩], k' (.ok ())⟩]⟩ := by
    simp only [Pool.run, List.foldl_cons, List.foldl_nil]
    rw [hspawn, Pool.next_last (M := world) hfind, hnext, Pool.next_last (M := world) hmark]
  rw [hrun]
  exact ⟨_, List.getElem?_concat_length, rfl, rfl⟩

/-- **At most once.** In every interleaving of deliveries in which no roll-back is rejected: at most
one delivery of an operation is in flight, at most one completes, and once a failed one has been
rolled back and none is in flight or has completed, the next delivery processes the operation. -/
theorem webhook_at_most_once (D : Deployment) (w : World) (ms : List (Move world Delivery))
    (hadm : Pool.Admissible (Delivery.prog D) RollsBack ⟨w, []⟩ ms) (operationId : String) :
    (∀ (i j : Nat) t t', (deliver D w ms).threads[i]? = some t →
      (deliver D w ms).threads[j]? = some t' →
      Processing D operationId t → Processing D operationId t' → i = j) ∧
    (∀ (i j : Nat) t t', (deliver D w ms).threads[i]? = some t →
      (deliver D w ms).threads[j]? = some t' →
      Completed D operationId t → Completed D operationId t' → i = j) ∧
    ((∃ t ∈ (deliver D w ms).threads, RolledBack D operationId t) →
      (∀ t ∈ (deliver D w ms).threads, ¬ Processing D operationId t ∧ ¬ Completed D operationId t) →
      ∀ (l : Delivery) (ch₁ ch₂ : Choice), l.operationId = operationId → l.authentic D →
        ch₁.fault (.processedFindUnique operationId) = none →
        ch₂.fault (.processedCreate operationId) = none →
        ∃ t, (Pool.run (Delivery.prog D) (deliver D w ms)
            [.spawn l, .step (deliver D w ms).threads.length ch₁,
              .step (deliver D w ms).threads.length ch₂]).threads[
                (deliver D w ms).threads.length]? = some t ∧
          Entered D operationId t) := by
  obtain ⟨hsettles, hI⟩ := markInv_run D w ms hadm
  generalize deliver D w ms = P at hsettles hI ⊢
  refine ⟨?_, ?_, ?_⟩
  · intro i j t t' hi hj hflight hflight'
    exact hI.exclusive.unique i j t t' operationId hi hj hflight.1.owns hflight'.1.owns
  · intro i j t t' hi hj hcompleted hcompleted'
    exact hI.exclusive.unique i j t t' operationId hi hj hcompleted.1.owns
      hcompleted'.1.owns
  · rintro ⟨t₀, ht₀, hrolled⟩ hnobody l ch₁ ch₂ rfl hauthentic hread hwrite
    -- a mark that stands is old or has an owner; a roll back excludes the one, `hnobody` the other
    have hfree : ¬ Marked l.operationId P.state := by
      intro hmarked
      rcases hI.owned _ hmarked with hold | ⟨t, ht, hown⟩
      · exact (hI.old _ hold).2 t₀ ht₀ (by rw [view_dto]; exact hrolled.1) hrolled.2
      · rcases owner_cases hsettles hI ht hown with hflight | hcompleted
        · exact (hnobody t ht).1 hflight
        · exact (hnobody t ht).2 hcompleted
    exact enters D P l hauthentic hread hwrite hfree

def Choice.unavailable : Choice := { Choice.calm with fault := fun _ => some .unavailable }

/-- The vendor's escrows cannot be read, the payment is rolled back, and its redelivery is
processed. -/
theorem webhook_at_most_once_retried :
    let l : Delivery := .processOperationDto lampPayment
    let ms : List (Move world Delivery) :=
      [.spawn l, .step 0 .calm, .step 0 .calm, .step 0 .unavailable, .step 0 .calm]
    let w := World.ofEscrows []
    (∃ t ∈ (deliver .bare w ms).threads, RolledBack .bare "p1" t) ∧
      ∃ t, (Pool.run (Delivery.prog .bare) (deliver .bare w ms)
        [.spawn l, .step 1 .calm, .step 1 .calm]).threads[1]? = some t ∧
        Entered .bare "p1" t := by
  intro l ms w
  have hrolled : ∃ t ∈ (deliver .bare w ms).threads, RolledBack .bare "p1" t := by decide +kernel
  refine ⟨hrolled, ?_⟩
  exact (webhook_at_most_once .bare w ms (by decide +kernel) "p1").2.2 hrolled (by decide +kernel)
    l .calm .calm rfl trivial rfl rfl

/-! ## Nothing is lost -/

/-- **Nothing is lost.** In every run in which no roll-back is rejected and no process stops while
it owns the mark of the operation (`stopped` are the executions that will not go on): an operation
whose id is stored and that nobody is processing has been processed. -/
theorem stored_operation_completed (D : Deployment) (w : World) (ms : List (Move world Delivery))
    (hadm : Pool.Admissible (Delivery.prog D) RollsBack ⟨w, []⟩ ms) (stopped : Nat → Prop)
    (operationId : String) (hnew : ¬ Marked operationId w)
    (hstopped : ∀ i t, (deliver D w ms).threads[i]? = some t → stopped i →
      ¬ Processing D operationId t)
    (hstored : Marked operationId (deliver D w ms).state)
    (hidle : ∀ i t, (deliver D w ms).threads[i]? = some t → t.label.operationId = operationId →
      t.outcome = none → stopped i) :
    ∃ t ∈ (deliver D w ms).threads, Completed D operationId t := by
  obtain ⟨hsettles, hI⟩ := markInv_run D w ms hadm
  rcases hI.owned operationId hstored with hold | ⟨t, ht, hown⟩
  · exact absurd hold hnew
  · rcases owner_cases hsettles hI ht hown with hflight | hcompleted
    · -- its execution goes on, so it cannot be idle
      obtain ⟨i, hi⟩ := List.mem_iff_getElem?.mp ht
      exact absurd hflight (hstopped i t hi (hidle i t hi hflight.1.1 hflight.2))
    · exact ⟨t, ht, hcompleted⟩

/-- An operation that is not a payment, processed while another process stops before its mark. -/
theorem stored_operation_completed_once :
    let l : Delivery := .processOperationDto { lampPayment with kind := "other" }
    let ms : List (Move world Delivery) :=
      [.spawn l, .spawn l, .step 0 .calm, .step 1 .calm, .step 0 .calm]
    let P := deliver .bare (World.ofEscrows []) ms
    Marked "p1" P.state ∧ ∃ t ∈ P.threads, Completed .bare "p1" t := by
  intro l ms P
  have hstored : Marked "p1" P.state := by decide +kernel
  refine ⟨hstored, ?_⟩
  have hlength : P.threads.length = 2 := by decide +kernel
  have hfirst : ∀ t ∈ P.threads[0]?, t.outcome ≠ none := by decide +kernel
  have hsecond : ∀ t ∈ P.threads[1]?, ¬ Processing .bare "p1" t := by decide +kernel
  refine stored_operation_completed .bare (World.ofEscrows []) ms (by decide +kernel) (fun i => i = 1)
    "p1" (by decide +kernel) ?_ hstored ?_
  · rintro i t ht rfl
    exact hsecond t ht
  · intro i t ht _ hunsettled
    have hi : i < P.threads.length := (List.getElem?_eq_some_iff.mp ht).1
    by_contra hne
    obtain rfl : i = 0 := by omega
    exact hfirst t ht hunsettled

/-- The process stops right after the mark, or the roll-back is rejected. Either way the id is
stored, nobody is processing the operation, nobody has, and its redelivery is skipped. -/
theorem operation_lost :
    let l : Delivery := .processOperationDto lampPayment
    let stopped := deliver .bare (World.ofEscrows [])
      [.spawn l, .step 0 .calm, .step 0 .calm, .spawn l, .step 1 .calm]
    let rejected := deliver .bare (World.ofEscrows [])
      [.spawn l, .step 0 .calm, .step 0 .calm, .step 0 .unavailable, .step 0 .unavailable,
        .spawn l, .step 1 .calm]
    (Marked "p1" stopped.state ∧ (∀ t ∈ stopped.threads, ¬ Completed .bare "p1" t) ∧
      stopped.threads.map (·.outcome) = [none, some (.ok ())]) ∧
    Marked "p1" rejected.state ∧ (∀ t ∈ rejected.threads, ¬ Completed .bare "p1" t) ∧
      ∀ t ∈ rejected.threads, t.outcome ≠ none := by
  decide +kernel

end TrustLink
