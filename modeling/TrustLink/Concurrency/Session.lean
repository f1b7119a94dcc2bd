import TrustLink.Effects.Reliance
import TrustLink.Model.Operations

/-!
# TrustLink — what an execution has learnt

The writers of the backend check a record they have read and then write by id. What entitles
them to the write is in their own history: the states they read, the snapshot they work from,
the dispute they did not find, the claim they won. `Session` is that history, reduced to what
later calls depend on; `session` is the monitor that keeps it.

`Session.ok` is the discipline: a state is written only to an escrow that was read in a state
that is not terminal, a release is claimed only after a dispute was looked for and not found,
and is submitted, recorded and given up only under a claim. That every operation keeps to it
is `Session.accepts` (`Concurrency/Discipline.lean`); what follows for interleaved runs is in
the modules after that.

This module ends with the rules for the repositories (`wp_findById`, `wp_update`,
`wp_mutator`), which is all the proofs about operations go through.
-/

namespace TrustLink

open Effects

/-- How far an execution has come with an auto-release claim. -/
inductive Claim where
  | free
  | held (id : String)
  /-- The submission made under the claim was accepted. -/
  | accepted (id : String)
  deriving DecidableEq, Repr

def Claim.accept : Claim → Claim
  | .held id => .accepted id
  | claim => claim

/-- What an execution has learnt from its calls and may act on. -/
structure Session where
  /-- The delivery cutoff an auto-release cycle works with. -/
  window : Option Time := none
  /-- States read, of escrows whose state it has not written since. -/
  seen : List (String × EscrowState) := []
  /-- Escrows that were due, with the cutoff they were due by. -/
  due : List (String × Time) := []
  /-- The escrow last found to have no dispute. -/
  undisputed : Option String := none
  claim : Claim := .free

namespace Session

def start : Op → Session
  | .autoReleaseCycle referenceTime =>
    { window := some (EscrowRepository.autoReleaseCutoff referenceTime) }
  | _ => {}

/-- Nothing has been read at the start. -/
theorem start_seen (op : Op) : (start op).seen = [] := by
  cases op <;> rfl

/-- Nothing is claimed at the start. -/
theorem start_claim (op : Op) : (start op).claim = .free := by
  cases op <;> rfl

/-- An escrow was read: under the id that was asked for, and under the one the answer carries. -/
def saw (s : Session) (id : String) (escrow : EscrowFields) : Session :=
  { s with seen := (id, escrow.state) :: (escrow.id, escrow.state) :: s.seen }

/-- A successful update. What was known of the columns it writes is no longer known, and a write
of the claim column ends the claim. -/
def written (s : Session) (id : String) (data : EscrowData) : Session :=
  { s with
    seen := if data.state.isSome then s.seen.filter (·.1 ≠ id) else s.seen
    due := if data.state.isSome || data.deliveredAt.isSome then s.due.filter (·.1 ≠ id) else s.due
    claim := if data.autoReleaseSubmittedAt.isSome then .free else s.claim }

def next (s : Session) : (c : Call) → Except Err c.Resp → Session
  | .cache (.getEscrow id), .ok (some record) => s.saw id record.toEscrowFields
  | .db (.escrowFindUnique id), .ok (some row) => s.saw id row.toEscrowFields
  | .db (.escrowFindByVendor _ _), .ok rows =>
    { s with seen := rows.map (fun row => (row.id, row.state)) ++ s.seen }
  | .db (.escrowFindAutoReleaseEligible cutoff), .ok rows =>
    { s with due := rows.map fun row => (row.id, cutoff) }
  | .db (.disputeFindFirst id none), .ok none => { s with undisputed := some id }
  | .db (.disputeCreate _), .ok _ => { s with undisputed := none }
  | .db (.escrowUpdate id data), .ok _ => s.written id data
  | .db (.escrowUpdateManyUnsubmitted id _), .ok (_ + 1) => { s with claim := .held id }
  | .db (.escrowUpdateManyUnsubmitted _ _), _ => { s with claim := .free }
  | .ext (.submitAutoRelease _ _), .ok _ => { s with claim := s.claim.accept }
  | _, _ => s

/-- The calls that change what is known of escrow states. -/
def aboutState : Call → Bool
  | .cache (.getEscrow _) => true
  | .db (.escrowFindUnique _) => true
  | .db (.escrowFindByVendor _ _) => true
  | .db (.escrowUpdate _ _) => true
  | _ => false

/-- Other calls teach nothing about states. -/
theorem next_seen (s : Session) {c : Call} (h : aboutState c = false) (r : Except Err c.Resp) :
    (s.next c r).seen = s.seen := by
  unfold next
  split
  all_goals first | rfl | cases h

/-- The calls that change the claim. -/
def aboutClaim : Call → Bool
  | .db (.escrowUpdate _ _) => true
  | .db (.escrowUpdateManyUnsubmitted _ _) => true
  | .ext (.submitAutoRelease _ _) => true
  | _ => false

/-- Other calls leave the claim. -/
theorem next_claim (s : Session) {c : Call} (h : aboutClaim c = false) (r : Except Err c.Resp) :
    (s.next c r).claim = s.claim := by
  unfold next
  split
  all_goals first | rfl | cases h

/-- The cutoff of a cycle is fixed. -/
theorem next_window (s : Session) (c : Call) (r : Except Err c.Resp) :
    (s.next c r).window = s.window := by
  unfold next
  split <;> rfl

/-- The calls that change what is known to be due. -/
def aboutDue : Call → Bool
  | .db (.escrowFindAutoReleaseEligible _) => true
  | .db (.escrowUpdate _ _) => true
  | _ => false

/-- Other calls leave what is due. -/
theorem next_due (s : Session) {c : Call} (h : aboutDue c = false) (r : Except Err c.Resp) :
    (s.next c r).due = s.due := by
  unfold next
  split
  all_goals first | rfl | cases h

/-- The calls that change what is known of disputes. -/
def aboutDispute : Call → Bool
  | .db (.disputeFindFirst _ _) => true
  | .db (.disputeCreate _) => true
  | _ => false

/-- Other calls teach nothing about disputes. -/
theorem next_undisputed (s : Session) {c : Call} (h : aboutDispute c = false)
    (r : Except Err c.Resp) : (s.next c r).undisputed = s.undisputed := by
  unfold next
  split
  all_goals first | rfl | cases h

/-- The calls an execution may make. -/
def ok (s : Session) : Call → Prop
  | .db (.escrowUpdate id data) =>
    (data.state.isSome → ∃ state ∉ TERMINAL_STATES, (id, state) ∈ s.seen) ∧
    match data.autoReleaseSubmittedAt with
    | none => True
    | some (some _) => s.claim = .accepted id
    | some none => s.claim = .held id ∨ s.claim = .accepted id
  | .db (.escrowUpdateManyUnsubmitted id _) =>
    s.undisputed = some id ∧ ∀ cutoff ∈ s.window, (id, cutoff) ∈ s.due
  | .ext (.submitAutoRelease _ _) => ∃ id, s.claim = .held id
  | _ => True

/-- What the world promises about its answers: only the database and the outside can reject, and
a query returns a row once. -/
def answered : (c : Call) → Except Err c.Resp → Prop
  | .db (.escrowFindByVendor _ _), .ok rows => (rows.map (·.id)).Nodup
  | .db _, _ => True
  | .ext _, _ => True
  | _, r => ∃ a, r = .ok a

end Session

def session : Monitor backend Op Session where
  init := Session.start
  next := Session.next
  ok := Session.ok
  ans _ := Session.answered

/-- The world keeps its promise. -/
theorem session_answered (c : Call) (w : World) (ch : Choice) :
    Session.answered c (handle ch c w).1 := by
  cases c with
  | db c =>
    cases c with
    | escrowFindByVendor vendorAddress take =>
      simp only [handle, handleDb, Db.exec]
      split
      · trivial
      · exact w.db.findByVendor_ids_nodup ch.tie vendorAddress take
    | _ => trivial
  | ext c => trivial
  | cache c => exact ⟨_, rfl⟩
  | notify n escrow => exact ⟨_, rfl⟩
  | newDate => exact ⟨_, rfl⟩
  | randomUUID => exact ⟨_, rfl⟩

namespace Session

/-- `s'` has learnt more than `s`, and is otherwise the same. -/
structure Extends (s s' : Session) : Prop where
  window : s'.window = s.window
  seen : s.seen ⊆ s'.seen
  due : s'.due = s.due
  undisputed : s'.undisputed = s.undisputed
  claim : s'.claim = s.claim

/-- To read is to learn, and nothing else. -/
theorem extends_saw (s : Session) (id : String) (escrow : EscrowFields) :
    s.Extends (s.saw id escrow) :=
  ⟨rfl, fun _ hp => List.mem_cons_of_mem _ (List.mem_cons_of_mem _ hp), rfl, rfl, rfl⟩

/-- The escrow was read, under either id, in the state it has. -/
def Saw (s : Session) (id : String) (escrow : EscrowRecord) : Prop :=
  (id, escrow.state) ∈ s.seen ∧ (escrow.id, escrow.state) ∈ s.seen

/-- What is read counts under both ids. -/
theorem saw_saw (s : Session) (id : String) (escrow : EscrowRecord) :
    (s.saw id escrow.toEscrowFields).Saw id escrow :=
  ⟨List.mem_cons_self, List.mem_cons_of_mem _ List.mem_cons_self⟩

variable (D : Deployment)

/-- A hit counts as a read. -/
theorem wp_cached {id : String} {Q : Except Err (Option EscrowRecord) → Session → Prop} {s : Session}
    (hnone : Q (.ok none) s)
    (hsome : ∀ record, Q (.ok (some record)) (s.saw id record.toEscrowFields)) :
    (EscrowRepository.cached D id).wp session.protocol Q s := by
  rw [EscrowRepository.cached, wp_ite]
  refine ⟨fun _ => ⟨trivial, ?_⟩, fun _ => hnone⟩
  rintro r s' ⟨⟨a, rfl⟩, rfl⟩
  cases a with
  | none => exact hnone
  | some record => exact hsome record

theorem wp_remember {id : String} {record : EscrowRecord} {Q : Except Err Unit → Session → Prop}
    {s : Session} (h : Q (.ok ()) s) :
    (EscrowRepository.remember D id record).wp session.protocol Q s := by
  rw [EscrowRepository.remember, wp_ite]
  refine ⟨fun _ => ⟨trivial, ?_⟩, fun _ => h⟩
  rintro r s' ⟨⟨_, rfl⟩, rfl⟩
  exact h

theorem wp_invalidate {id : String} {Q : Except Err Unit → Session → Prop} {s : Session}
    (h : Q (.ok ()) s) : (EscrowRepository.invalidate D id).wp session.protocol Q s := by
  rw [EscrowRepository.invalidate, wp_ite]
  refine ⟨fun _ => ⟨trivial, ?_⟩, fun _ => h⟩
  rintro r s' ⟨⟨_, rfl⟩, rfl⟩
  exact h

/-- Whatever is found was read, in the cache or in the table. -/
theorem wp_findById {id : String} {Q : Except Err (Option EscrowRecord) → Session → Prop}
    {s : Session} (herror : ∀ e, Q (.error e) s) (hnone : Q (.ok none) s)
    (hsome : ∀ record s', s.Extends s' → s'.Saw id record → Q (.ok (some record)) s') :
    (EscrowRepository.findById D id).wp session.protocol Q s := by
  rw [EscrowRepository.findById, wp_bind]
  unfold EscrowRepository.findStored
  refine wp_cached D ?_ fun record => hsome record _ (extends_saw s _ _) (saw_saw s id record)
  dsimp only
  rw [wp_bind, wp_db]
  refine ⟨trivial, ?_⟩
  rintro r s' ⟨_, rfl⟩
  cases r with
  | error e => exact herror e
  | ok found =>
    cases found with
    | none => exact hnone
    | some row =>
      dsimp only
      rw [wp_bind]
      exact wp_remember D
        (hsome (toEscrowRecord row) _ (extends_saw s _ _) (saw_saw s id (toEscrowRecord row)))

/-- An update that is allowed is known to have been made. -/
theorem wp_update {id : String} {data : EscrowData} {Q : Except Err EscrowRecord → Session → Prop}
    {s : Session} (hok : s.ok (.db (.escrowUpdate id data))) (herror : ∀ e, Q (.error e) s)
    (hdone : ∀ record, Q (.ok record) (s.written id data)) :
    (EscrowRepository.update D id data).wp session.protocol Q s := by
  rw [EscrowRepository.update, wp_bind, wp_db]
  refine ⟨hok, ?_⟩
  rintro r s' ⟨_, rfl⟩
  match r with
  | .error e => exact herror e
  | .ok row =>
    dsimp only
    rw [wp_bind]
    exact wp_invalidate D (hdone _)

/-- The service rejects instead of finding nothing. -/
theorem wp_service_findById {id : String} {Q : Except Err EscrowRecord → Session → Prop}
    {s : Session} (herror : ∀ e, Q (.error e) s)
    (hok : ∀ record s', s.Extends s' → s'.Saw id record → Q (.ok record) s') :
    (EscrowService.findById D id).wp session.protocol Q s := by
  rw [EscrowService.findById, wp_tryCatch, wp_bind]
  apply wp_findById D
  · -- whatever was thrown, the handler throws
    intro e
    cases e <;> exact herror _
  · exact herror _
  · intro record s' hext hseen
    exact hok record s' hext hseen

/-- The clock teaches a session nothing. -/
theorem wp_date {Q : Except Err Time → Session → Prop} {s : Session} (h : ∀ t, Q (.ok t) s) :
    newDate.wp session.protocol Q s := by
  refine ⟨trivial, ?_⟩
  rintro r s' ⟨⟨t, rfl⟩, rfl⟩
  exact h t

/-- So it is with a notification. -/
theorem wp_notified {n : Notification} {escrow : EscrowRecord}
    {Q : Except Err Unit → Session → Prop} {s : Session} (h : Q (.ok ()) s) :
    (notify n escrow).wp session.protocol Q s := by
  refine ⟨trivial, ?_⟩
  rintro r s' ⟨⟨_, rfl⟩, rfl⟩
  exact h

/-- The escrow was read in a state that is not terminal. -/
def Live (s : Session) (id : String) : Prop :=
  ∃ state ∉ TERMINAL_STATES, (id, state) ∈ s.seen

/-! ## Mutators

One lemma for all that do not touch the claim column: what they need, and that nothing is
asked of the session afterwards but that it has not learnt anything new. -/

theorem wp_mutator {id : String} {data : EscrowData} {Q : Except Err EscrowRecord → Session → Prop}
    {s : Session} (hclaim : data.autoReleaseSubmittedAt = none)
    (hlive : data.state.isSome → s.Live id) (herror : ∀ e, Q (.error e) s)
    (hdone : ∀ record, Q (.ok record) (s.written id data)) :
    (EscrowRepository.update D id data).wp session.protocol Q s := by
  refine wp_update D ⟨hlive, ?_⟩ herror hdone
  rw [hclaim]
  trivial

end Session

end TrustLink
