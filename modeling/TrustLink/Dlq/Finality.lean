import TrustLink.Dlq.Model
import TrustLink.Effects.Lock

/-!
# TrustLink — dead-letter outcomes are final

A replay takes the record with a conditional write, and its last write is unconditional: by id,
whatever the status has become. So the status `REPLAYING` is a lock, held from the claim to that
write. But it is a lock with a time-out: once the claim is stale, a second replay or an abandonment
may take the record from a replay whose callback is still running, and then the late write of the
first one falls on a record that was abandoned, or replayed, long ago.

`replaying` is the monitor of one execution: the times it has read, and whether it has the claim.
Where no claim is taken from an execution that is still running, an execution that has the claim
finds the record `REPLAYING` (`leaseStep_replaying`, `claims_run`), and nothing writes a record that
is `REPLAYED` or `ABANDONED` (`outcome_final`).
-/

namespace TrustLink

open Effects

/-! ## The monitor

An execution looks its record up, reads the clock, claims the record and writes the outcome. -/

/-- Where an execution stands with the claim of its record, and since when it has it. -/
inductive ReplayPhase where
  /-- It has not got the claim, or has nothing more to do with it. -/
  | idle
  | claimed (since : Time)
  | failed (since : Time)
  | succeeded (since : Time)
  /-- The claim is released, and the failed attempt is still to be counted. -/
  | released
  deriving DecidableEq, Repr

/-- Since when the claim is held, if it is. -/
def ReplayPhase.since : ReplayPhase → Option Time
  | .claimed t | .failed t | .succeeded t => some t
  | _ => none

structure Replaying where
  id : String
  /-- The execution is a replay. -/
  replays : Bool
  /-- The times the execution has read. -/
  readings : List Time := []
  phase : ReplayPhase := .idle

namespace Replaying

def answered (v : Replaying) {record : FailedTransaction} :
    Except Err (DlqCall.replayFn record).Resp → ReplayPhase
  | .ok _ =>
    match v.phase with
    | .claimed t => .succeeded t
    | phase => phase
  | .error _ =>
    match v.phase with
    | .claimed t => .failed t
    | phase => phase

/-- After a conditional write that has matched: a claim, if it was one. -/
def won (v : Replaying) (data : FailedTransactionData) (t : Time) : Replaying :=
  if data.status = some .REPLAYING then { v with phase := .claimed t } else v

/-- An execution ends with an error of the database, and with a record that is not there. -/
def next (v : Replaying) : (c : DlqCall) → Except Err c.Resp → Replaying
  | .dateNow, .ok t => { v with readings := t :: v.readings }
  | .updateManyClaimable _ _ data, .ok result =>
    if result.count = 0 then v else v.won data result.executedAt
  | .findUnique _, .ok (some _) => v
  | .findUnique _, _ => { v with phase := .idle }
  | .replayFn _, r => { v with phase := v.answered r }
  | .update _ data, .ok _ =>
    { v with phase := if data.status = some .PENDING_REVIEW then .released else .idle }
  | .update _ _, .error _ => { v with phase := .idle }
  | _, _ => v

/-- The writes by id that an execution may make. -/
def mayUpdate (v : Replaying) (data : FailedTransactionData) : Prop :=
  match data.status with
  | some .REPLAYED => (∃ t, v.phase = .succeeded t) ∧ data.attempts = 0
  | some .PENDING_REVIEW => (∃ t, v.phase = .failed t) ∧ data.attempts = 0
  | none => (v.phase = .idle ∧ data.attempts = 0) ∨
      (v.phase = .released ∧ v.replays = true ∧ data.attempts = 1)
  | _ => False

def ok (v : Replaying) : DlqCall → Prop
  | .updateManyClaimable id staleBefore data => id = v.id ∧ v.phase = .idle ∧ data.attempts = 0 ∧
      (data.status = some .REPLAYING ∨ data.status = some .ABANDONED) ∧
      ∃ t ∈ v.readings, staleBefore = some (t - REPLAYING_STALE_THRESHOLD_MS)
  | .update id data => id = v.id ∧ v.mayUpdate data
  | .replayFn _ => v.replays = true ∧ ∃ t, v.phase = .claimed t
  | .findUnique id => id = v.id ∧ (v.phase = .idle ∨ ∃ t, v.phase = .claimed t)
  | .dateNow => True

/-- The clock can always be read. -/
def answer : (c : DlqCall) → Except Err c.Resp → Prop
  | .dateNow, r => ∃ t, r = .ok t
  | _, _ => True

/-- The execution has the claim of the record. -/
def Holds (v : Replaying) (id : String) : Prop := v.id = id ∧ v.phase.since.isSome = true

instance (v : Replaying) (id : String) : Decidable (v.Holds id) :=
  inferInstanceAs (Decidable (_ ∧ _))

end Replaying

def replaying : Monitor dlq DlqOp Replaying where
  init l := { id := l.id, replays := l.replays }
  next := Replaying.next
  ok := Replaying.ok
  ans _ := Replaying.answer

/-! ## The programs keep to it

Each operation of the service, from its first call to its last. -/

namespace Replaying

section programs

open FailedTransactionRepository

variable {v : Replaying} {id : String}

theorem wp_dlqCall {c : DlqCall} {Q : Except Err c.Resp → Replaying → Prop} (hok : v.ok c)
    (h : ∀ r, Replaying.answer c r → Q r (v.next c r)) :
    (dlqCall c).wp replaying.protocol Q v := by
  refine ⟨hok, ?_⟩
  rintro r v' ⟨hanswer, rfl⟩
  exact h r hanswer

theorem wp_dateNow {Q : Except Err Time → Replaying → Prop}
    (h : ∀ t, Q (.ok t) { v with readings := t :: v.readings }) :
    (dlqCall .dateNow).wp replaying.protocol Q v := by
  apply wp_dlqCall
  · exact trivial
  · intro r hanswer
    obtain ⟨t, rfl⟩ := hanswer
    exact h t

/-- A record is looked up: an execution that does not find it ends, without the claim. -/
theorem wp_findById {v' : Replaying} {Q : Except Err (Option FailedTransaction) → Replaying → Prop}
    (hok : v.ok (.findUnique id)) (hend : { v with phase := .idle } = v')
    (hfail : ∀ e, Q (.error e) v')
    (hnone : Q (.ok none) v') (hsome : ∀ record, Q (.ok (some record)) v) :
    (findById id).wp replaying.protocol Q v := by
  apply wp_dlqCall
  · exact hok
  · intro r _
    cases r with
    | error e =>
      show Q (.error e) { v with phase := .idle }
      rw [hend]
      exact hfail e
    | ok found =>
      cases found with
      | none =>
        show Q (.ok none) { v with phase := .idle }
        rw [hend]
        exact hnone
      | some record => exact hsome record

theorem wp_requireRecord {Q : Except Err FailedTransaction → Replaying → Prop} (hid : id = v.id)
    (hidle : v.phase = .idle) (hfail : ∀ e, Q (.error e) v) (h : ∀ record, Q (.ok record) v) :
    (DlqService.requireRecord id).wp replaying.protocol Q v := by
  have hsame : { v with phase := .idle } = v := by rw [← hidle]
  unfold DlqService.requireRecord DlqService.get
  rw [wp_bind]
  exact wp_findById ⟨hid, .inl hidle⟩ hsame hfail (hfail _) h

/-- The conditional write: rejected, without effect, or it has matched. The record is read back,
and an execution that cannot read it ends. -/
theorem wp_updateClaimable {staleBefore : Option Time} {data : FailedTransactionData}
    {Q : Except Err (Option FailedTransaction) → Replaying → Prop}
    (hok : v.ok (.updateManyClaimable id staleBefore data)) (hfail : ∀ e, Q (.error e) v)
    (hnone : Q (.ok none) v) (hsome : ∀ record t, Q (.ok (some record)) (v.won data t)) :
    (updateClaimable id staleBefore data).wp replaying.protocol Q v := by
  have hidle : v.phase = .idle := hok.2.1
  unfold updateClaimable
  rw [wp_bind]
  apply wp_dlqCall hok
  intro r _
  cases r with
  | error e => exact hfail e
  | ok result =>
    show (if result.count = 0 then pure none else findById id : Dlq _).wp replaying.protocol Q
      (if result.count = 0 then v else v.won data result.executedAt)
    by_cases hcount : result.count = 0
    · rw [if_pos hcount, if_pos hcount]
      exact hnone
    · rw [if_neg hcount, if_neg hcount]
      -- the claim is forgotten with the record
      have hend : { v.won data result.executedAt with phase := .idle } = v := by
        unfold Replaying.won
        split <;> rw [← hidle]
      have hread : (v.won data result.executedAt).ok (.findUnique id) := by
        unfold Replaying.won
        split
        · exact ⟨hok.1, .inr ⟨_, rfl⟩⟩
        · exact ⟨hok.1, .inl hidle⟩
      exact wp_findById hread hend hfail hnone fun record => hsome record result.executedAt

/-- The callback and what follows it, from a claim. -/
theorem wp_attempt {readings : List Time} {since : Time} {claimed : FailedTransaction} :
    (DlqService.attempt id claimed >>= fun txHash =>
      FailedTransactionRepository.markReplayed id txHash).wp replaying.protocol
        (fun _ v => v.phase = .idle) ⟨id, true, readings, .claimed since⟩ := by
  unfold DlqService.attempt releaseClaim incrementAttempts
  rw [wp_bind, wp_tryCatch]
  apply wp_dlqCall
  · exact ⟨rfl, since, rfl⟩
  intro r _
  cases r with
  | error err =>
    -- the claim is released, then the attempt is counted
    dsimp only
    rw [wp_bind]
    apply wp_dlqCall
    · exact ⟨rfl, ⟨since, rfl⟩, rfl⟩
    intro released _
    cases released with
    | error e => rfl
    | ok row =>
      dsimp only
      rw [wp_bind]
      apply wp_dlqCall
      · exact ⟨rfl, .inr ⟨rfl, rfl, rfl⟩⟩
      intro counted _
      cases counted <;> rfl
  | ok txHash =>
    show (FailedTransactionRepository.markReplayed id txHash).wp replaying.protocol _
      ⟨id, true, readings, .succeeded since⟩
    unfold FailedTransactionRepository.markReplayed
    rw [wp_bind]
    apply wp_dateNow
    intro now
    apply wp_dlqCall
    · exact ⟨rfl, ⟨since, rfl⟩, rfl⟩
    intro replayed _
    cases replayed <;> rfl

/-- How every operation begins: the record is looked up, then the clock is read. -/
theorem wp_opening {replays : Bool} {rest : FailedTransaction → Time → Dlq FailedTransaction}
    (h : ∀ record t, (rest record t).wp replaying.protocol (fun _ v => v.phase = .idle)
      ⟨id, replays, [t], .idle⟩) :
    (DlqService.requireRecord id >>= fun record => dlqCall .dateNow >>= rest record).wp
      replaying.protocol (fun _ v => v.phase = .idle) ⟨id, replays, [], .idle⟩ := by
  rw [wp_bind]
  apply wp_requireRecord rfl rfl (fun _ => rfl)
  intro record
  dsimp only
  rw [wp_bind]
  apply wp_dateNow
  intro t
  exact h record t

theorem wp_replay :
    (DlqService.replay id).wp replaying.protocol (fun _ v => v.phase = .idle)
      ⟨id, true, [], .idle⟩ := by
  unfold DlqService.replay
  apply wp_opening
  intro record t
  refine wp_if (fun _ => rfl) fun _ => ?_
  rw [wp_bind]
  apply wp_updateClaimable
  · exact ⟨rfl, rfl, rfl, .inl rfl, t, List.mem_cons_self, rfl⟩
  · exact fun _ => rfl
  · rfl
  · intro claimed since
    exact wp_attempt

theorem wp_abandon :
    (DlqService.abandon id).wp replaying.protocol (fun _ v => v.phase = .idle)
      ⟨id, false, [], .idle⟩ := by
  unfold DlqService.abandon markAbandoned
  apply wp_opening
  intro record t
  refine wp_if (fun _ => rfl) fun _ => ?_
  rw [wp_bind, wp_bind]
  apply wp_dateNow
  intro reviewed
  apply wp_updateClaimable
  · exact ⟨rfl, rfl, rfl, .inr rfl, t, List.mem_cons_of_mem _ List.mem_cons_self, rfl⟩
  · exact fun _ => rfl
  · rfl
  · exact fun _ _ => rfl

theorem wp_markReviewed :
    (DlqService.markReviewed id).wp replaying.protocol (fun _ v => v.phase = .idle)
      ⟨id, false, [], .idle⟩ := by
  unfold DlqService.markReviewed FailedTransactionRepository.markReviewed
  apply wp_opening
  intro record t
  apply wp_dlqCall
  · exact ⟨rfl, .inl ⟨rfl, rfl⟩⟩
  intro r _
  cases r <;> rfl

/-- Every execution keeps to the monitor, and has nothing to do with the claim when it ends. -/
theorem wp_dlqOp (l : DlqOp) :
    l.prog.wp replaying.protocol (fun _ v => v.phase = .idle) (replaying.init l) := by
  cases l with
  | replay id => exact (wp_void _ _ _).mpr wp_replay
  | abandon id => exact (wp_void _ _ _).mpr wp_abandon
  | markReviewed id => exact (wp_void _ _ _).mpr wp_markReviewed

end programs

/-! ## The status is a lease

`REPLAYING` is gained by a conditional write, and lost by the holder or by a take-over. -/

section lease

variable {v : Replaying} {c : DlqCall}

/-- What an execution is about never changes. -/
theorem next_fixed (v : Replaying) (c : DlqCall) (r : Except Err c.Resp) :
    (v.next c r).id = v.id ∧ (v.next c r).replays = v.replays := by
  unfold next
  split
  · exact ⟨rfl, rfl⟩
  · split
    · exact ⟨rfl, rfl⟩
    · unfold won
      split <;> exact ⟨rfl, rfl⟩
  all_goals exact ⟨rfl, rfl⟩

theorem next_id (v : Replaying) (c : DlqCall) (r : Except Err c.Resp) : (v.next c r).id = v.id :=
  (v.next_fixed c r).1

/-- Only a conditional write brings a claim; the other calls keep it or end it. -/
theorem since_next {r : Except Err c.Resp} {since : Time} (h : since ∈ (v.next c r).phase.since)
    (hc : ∀ id' staleBefore data, c ≠ .updateManyClaimable id' staleBefore data) :
    since ∈ v.phase.since := by
  match c, r with
  | .dateNow, .ok t => exact h
  | .dateNow, .error e => exact h
  | .findUnique _, .ok (some _) => exact h
  | .findUnique _, .ok none => cases h
  | .findUnique _, .error e => cases h
  | .replayFn _, .ok txHash =>
    cases hphase : v.phase <;> simp_all [next, answered, ReplayPhase.since]
  | .replayFn _, .error e =>
    cases hphase : v.phase <;> simp_all [next, answered, ReplayPhase.since]
  | .update _ data, .ok row =>
    simp only [next] at h
    split at h <;> cases h
  | .update _ _, .error e => cases h
  | .updateManyClaimable id' staleBefore data, _ => exact absurd rfl (hc id' staleBefore data)

theorem holds_next {r : Except Err c.Resp} {id : String} (h : (v.next c r).Holds id)
    (hc : ∀ id' staleBefore data, c ≠ .updateManyClaimable id' staleBefore data) : v.Holds id := by
  obtain ⟨hid, hsome⟩ := h
  obtain ⟨since, hsince⟩ := Option.isSome_iff_exists.mp hsome
  have hbefore : v.phase.since = some since := since_next hsince hc
  rw [v.next_id] at hid
  exact ⟨hid, by rw [hbefore]; rfl⟩

end lease

end Replaying

/-- The record is being replayed, as the table has it. -/
def BeingReplayed (id : String) (s : DlqState) : Prop :=
  ∃ row, s.table.get id = some row ∧ row.status = .REPLAYING

/-- The call is a conditional write that matches a record that is being replayed. -/
def TakesOver (id : String) (c : DlqCall) (s : DlqState) : Prop :=
  ∃ staleBefore data row, c = .updateManyClaimable id staleBefore data ∧
    s.table.get id = some row ∧ row.status = .REPLAYING ∧ row.claimable staleBefore = true

/-- What a conditional write finds: a record under review, or one it takes over. -/
theorem claimable_cases {s : DlqState} {id : String} {staleBefore : Option Time}
    {row : FailedTransaction} (data : FailedTransactionData) (hrow : s.table.get id = some row)
    (hclaimable : row.claimable staleBefore = true) :
    row.status = .PENDING_REVIEW ∨ TakesOver id (.updateManyClaimable id staleBefore data) s := by
  have hstatus : row.status = .PENDING_REVIEW ∨ row.status = .REPLAYING := by
    unfold FailedTransaction.claimable at hclaimable
    cases staleBefore with
    | none => exact .inl (by simpa using hclaimable)
    | some t =>
      rw [Bool.or_eq_true, Option.elim_some, Bool.and_eq_true] at hclaimable
      rcases hclaimable with hpending | ⟨hreplaying, _⟩
      · exact .inl (of_decide_eq_true hpending)
      · exact .inr (of_decide_eq_true hreplaying)
  rcases hstatus with hpending | hreplaying
  · exact .inl hpending
  · exact .inr ⟨staleBefore, data, row, rfl, hrow, hreplaying, hclaimable⟩

/-- A write by id that changes the status of the record is made by whoever has the claim. -/
theorem Replaying.mayUpdate_cases {v : Replaying} {data : FailedTransactionData}
    (h : v.mayUpdate data) : data.status = none ∨ v.Holds v.id := by
  unfold Replaying.mayUpdate at h
  split at h
  · next hstatus =>
    obtain ⟨⟨t, hphase⟩, _⟩ := h
    exact .inr ⟨rfl, by rw [hphase]; rfl⟩
  · next hstatus =>
    obtain ⟨⟨t, hphase⟩, _⟩ := h
    exact .inr ⟨rfl, by rw [hphase]; rfl⟩
  · next hstatus => exact .inl hstatus
  · exact False.elim h

section lease

variable {v : Replaying} {c : DlqCall} {s : DlqState} {ch : DlqChoice} {id : String}

/-- Whoever comes to have the claim has just made it, on a record that was under review or stale. -/
theorem gain_replaying (hok : v.ok c) (hheld : v.Holds id → BeingReplayed id s)
    (hgained : (v.next c (handleDlq ch c s).1).Holds id) :
    BeingReplayed id (handleDlq ch c s).2 ∧
      (v.Holds id ∨ ¬ BeingReplayed id s ∨ TakesOver id c s) := by
  cases c with
  | updateManyClaimable id' staleBefore data =>
    obtain ⟨rfl, hidle, _, hstatus, _⟩ := hok
    have hfree : ¬ v.Holds id := by
      rintro ⟨_, hsince⟩
      rw [hidle] at hsince
      cases hsince
    rcases handleDlq_updateMany ch s v.id staleBefore data with
      ⟨e, heq⟩ | heq | ⟨row, hrow, hclaimable, heq⟩
    · rw [heq] at hgained
      exact absurd hgained hfree
    · rw [heq] at hgained
      exact absurd hgained hfree
    · rw [heq] at hgained ⊢
      rcases hstatus with hclaim | habandon
      · obtain rfl : v.id = id := by
          have hid := hgained.1
          rw [v.next_id] at hid
          exact hid
        constructor
        · refine ⟨row.update data ch.now, ?_, ?_⟩
          · rw [DlqState.put, Store.Table.get_put, FailedTransaction.update_id,
              s.table.key_of_get hrow, if_pos rfl]
          · rw [FailedTransaction.update_status, hclaim]
            rfl
        · rcases claimable_cases data hrow hclaimable with hpending | htakes
          · refine .inr (.inl ?_)
            rintro ⟨row', hrow', hreplaying⟩
            rw [hrow] at hrow'
            cases hrow'
            rw [hpending] at hreplaying
            cases hreplaying
          · exact .inr (.inr htakes)
      · -- an abandonment brings no claim
        have hnext : v.next (.updateManyClaimable v.id staleBefore data) (.ok ⟨1, ch.now⟩) = v := by
          show v.won data ch.now = v
          rw [Replaying.won, habandon, if_neg (by decide)]
        rw [hnext] at hgained
        exact absurd hgained hfree
  | update id' data =>
    -- after a write by id nobody has the claim
    exfalso
    obtain ⟨_, hsince⟩ := hgained
    rcases handleDlq_update ch s id' data with ⟨e, heq⟩ | ⟨row, hrow, heq⟩
    · rw [heq] at hsince
      cases hsince
    · rw [heq] at hsince
      simp only [Replaying.next] at hsince
      split at hsince <;> cases hsince
  | findUnique id' =>
    have hbefore := Replaying.holds_next hgained (by intro _ _ _ hc; cases hc)
    obtain ⟨row, hrow, hstatus⟩ := hheld hbefore
    refine ⟨⟨row, ?_, hstatus⟩, .inl hbefore⟩
    simp only [handleDlq]
    split <;> exact hrow
  | replayFn record =>
    have hbefore := Replaying.holds_next hgained (by intro _ _ _ hc; cases hc)
    exact ⟨hheld hbefore, .inl hbefore⟩
  | dateNow =>
    have hbefore := Replaying.holds_next hgained (by intro _ _ _ hc; cases hc)
    exact ⟨hheld hbefore, .inl hbefore⟩

/-- A record stops being replayed by a write of whoever has the claim, or by a take-over. -/
theorem keep_replaying (hok : v.ok c) (hbefore : BeingReplayed id s) :
    BeingReplayed id (handleDlq ch c s).2 ∨ v.Holds id ∨ TakesOver id c s := by
  obtain ⟨row, hrow, hreplaying⟩ := hbefore
  generalize hafter : (handleDlq ch c s).2.table.get id = after
  have hchange : RecordChange ch s c id after := by
    rw [← hafter]
    exact handleDlq_record ch s c id
  cases hchange with
  | same => exact .inl ⟨row, hafter.trans hrow, hreplaying⟩
  | updated data row' hc hrow' =>
    subst hc
    rw [hrow] at hrow'
    cases hrow'
    obtain ⟨rfl, hmay⟩ := hok
    rcases Replaying.mayUpdate_cases hmay with hnone | hholds
    · refine .inl ⟨row.update data ch.now, hafter, ?_⟩
      rw [FailedTransaction.update_status, hnone]
      exact hreplaying
    · exact .inr (.inl hholds)
  | matched staleBefore data row' hc hrow' hclaimable =>
    rw [hrow] at hrow'
    cases hrow'
    exact .inr (.inr ⟨staleBefore, data, row, hc, hrow, hreplaying, hclaimable⟩)

/-- The status `REPLAYING` is a lease of the record. -/
theorem leaseStep_replaying (hok : v.ok c) (hheld : v.Holds id → BeingReplayed id s) :
    replaying.LeaseStep (M := deadLetters) Replaying.Holds BeingReplayed TakesOver v c s ch id where
  gain := gain_replaying hok hheld
  keep := keep_replaying hok

end lease

/-! ## Runs

Where no running execution is overtaken, the lease is a lock, and closed records stay closed. -/

/-- The claim of a record that is being replayed is taken by a move: by which execution, of which
record. -/
def takenOver (P : Desk) : Move deadLetters DlqOp → Option (Nat × String)
  | .spawn _ => none
  | .step i _ =>
    match P.threads[i]? with
    | some ⟨_, _, .call (.updateManyClaimable id staleBefore _) _⟩ =>
      match P.state.table.get id with
      | some row =>
        if row.status = .REPLAYING ∧ row.claimable staleBefore = true then some (i, id) else none
      | none => none
    | _ => none

/-- A stale claim is taken over or abandoned only when the execution that made it is not running any
more: no other execution has the claim and has still to write the outcome. -/
def NoneOverrun (P : Desk) (m : Move deadLetters DlqOp) : Prop :=
  ∀ taken ∈ takenOver P m, ∀ t ∈ P.threads.zipIdx, t.2 ≠ taken.1 →
    ¬ (replaying.view t.1).Holds taken.2

instance (P : Desk) (m : Move deadLetters DlqOp) : Decidable (NoneOverrun P m) :=
  inferInstanceAs (Decidable (∀ taken ∈ takenOver P m, _))

theorem notTakenOver_of_noneOverrun {P : Desk} {m : Move deadLetters DlqOp}
    (h : NoneOverrun P m) : replaying.NotTakenOver Replaying.Holds TakesOver P m := by
  cases m with
  | spawn l => exact trivial
  | step i ch =>
    intro t c k ht hr id htakes j t' hne ht'
    obtain ⟨staleBefore, data, row, rfl, hrow, hreplaying, hclaimable⟩ := htakes
    have htaken : takenOver P (.step i ch) = some (i, id) := by
      obtain ⟨label, past, rest⟩ := t
      cases hr
      simp only [takenOver, ht, hrow]
      rw [if_pos ⟨hreplaying, hclaimable⟩]
    have hmem : (t', j) ∈ P.threads.zipIdx := List.mem_zipIdx_iff_getElem?.mpr ht'
    exact h (i, id) htaken (t', j) hmem hne

theorem Replaying.answer_handle (ch : DlqChoice) (c : DlqCall) (s : DlqState) :
    Replaying.answer c (handleDlq ch c s).1 := by
  cases c with
  | dateNow => exact ⟨ch.now, rfl⟩
  | _ => trivial

/-- The claim is with one execution at most, and its record is being replayed. -/
abbrev ReplayClaims (P : Desk) : Prop := replaying.Exclusive Replaying.Holds BeingReplayed P

/-- A record that is replayed or abandoned. -/
def FailedTransaction.closed (row : FailedTransaction) : Prop :=
  row.status = .REPLAYED ∨ row.status = .ABANDONED

/-- A closed record is written by nobody who keeps to the monitor: the writes by id that change a
status are made with the claim, and the conditional ones do not match. -/
theorem closed_handle {v : Replaying} {c : DlqCall} {s : DlqState} {id : String}
    {row : FailedTransaction} (ch : DlqChoice) (hok : v.ok c)
    (hheld : v.Holds v.id → BeingReplayed v.id s)
    (hrow : s.table.get id = some row) (hclosed : row.closed) :
    ∃ row', (handleDlq ch c s).2.table.get id = some row' ∧ row'.status = row.status := by
  have hopen : row.status ≠ .REPLAYING ∧ row.status ≠ .PENDING_REVIEW := by
    rcases hclosed with h | h <;> rw [h] <;> decide
  generalize hafter : (handleDlq ch c s).2.table.get id = after
  have hchange : RecordChange ch s c id after := by
    rw [← hafter]
    exact handleDlq_record ch s c id
  cases hchange with
  | same => exact ⟨row, hrow, rfl⟩
  | updated data row' hc hrow' =>
    subst hc
    rw [hrow] at hrow'
    cases hrow'
    obtain ⟨rfl, hmay⟩ := hok
    refine ⟨_, rfl, ?_⟩
    -- an update with a status comes from a holder, and a closed record has none
    rcases Replaying.mayUpdate_cases hmay with hnone | hholds
    · rw [FailedTransaction.update_status, hnone]
      rfl
    · obtain ⟨row', hrow', hreplaying⟩ := hheld hholds
      rw [hrow] at hrow'
      cases hrow'
      exact absurd hreplaying hopen.1
  | matched staleBefore data row' hc hrow' hclaimable =>
    rw [hrow] at hrow'
    cases hrow'
    rcases claimable_cases data hrow hclaimable with hpending | htakes
    · exact absurd hpending hopen.2
    · obtain ⟨_, _, row', _, hrow', hreplaying, _⟩ := htakes
      rw [hrow] at hrow'
      cases hrow'
      exact absurd hreplaying hopen.1

/-- Along a run in which no claim is taken from a running execution, the claims are exclusive, and
with them is kept what the calls of a claimant and of the others keep of the table. -/
theorem claims_run {J : DlqState → Prop} (P : Desk) (ms : List (Move deadLetters DlqOp))
    (hJ : ∀ v c s ch, Replaying.ok v c → (∀ id, v.Holds id → BeingReplayed id s) → J s →
      J (handleDlq ch c s).2)
    (hrun : Pool.Admissible DlqOp.prog NoneOverrun P ms) (hobeyed : replaying.Obeyed P)
    (hclaims : ReplayClaims P) (hP : J P.state) :
    replaying.Obeyed (Pool.run DlqOp.prog P ms) ∧ ReplayClaims (Pool.run DlqOp.prog P ms) ∧
      J (Pool.run DlqOp.prog P ms).state := by
  apply replaying.run_invariant (K := NoneOverrun) (I := fun P => ReplayClaims P ∧ J P.state) _ _ ms P
    hrun hobeyed ⟨hclaims, hP⟩
  · intro P l _ hI
    refine ⟨wp_mono (Replaying.wp_dlqOp l) fun _ _ _ => trivial, ?_, hI.2⟩
    apply Monitor.exclusive_spawn _ hI.1
    rintro id ⟨_, hsince⟩
    cases hsince
  · intro P i ch t c k hfree hI _ ht hr hok
    have hheld : ∀ id, (replaying.view t).Holds id → BeingReplayed id P.state :=
      hI.1.locked t (List.mem_of_getElem? ht)
    refine ⟨Replaying.answer_handle ch c P.state, ?_, hJ _ c P.state ch hok hheld hI.2⟩
    exact Monitor.exclusive_advance_lease (fun id => leaseStep_replaying hok (hheld id))
      (notTakenOver_of_noneOverrun hfree) ht hr hI.1

/-- In every run in which no claim is taken from an execution that is still running, a record that
is `REPLAYED` or `ABANDONED` stays so. -/
theorem outcome_final (s : DlqState) (ms ms' : List (Move deadLetters DlqOp))
    (hrun : Pool.Admissible DlqOp.prog NoneOverrun ⟨s, []⟩ (ms ++ ms')) (id : String)
    (row : FailedTransaction) (hrow : (runDesk s ms).state.table.get id = some row)
    (hfinal : row.status = .REPLAYED ∨ row.status = .ABANDONED) :
    ∃ row', (runDesk s (ms ++ ms')).state.table.get id = some row' ∧
      row'.status = row.status := by
  obtain ⟨hrun₁, hrun₂⟩ := Pool.admissible_append.mp hrun
  -- the claims are exclusive where the run is split
  obtain ⟨hobeyed, hclaims, _⟩ := claims_run (J := fun _ => True) ⟨s, []⟩ ms
    (fun _ _ _ _ _ _ _ => trivial) hrun₁ (replaying.obeyed_nil (M := deadLetters) s)
    (Monitor.exclusive_nil (M := deadLetters) s) trivial
  -- from there on the status is kept
  have hend := claims_run (J := fun s => ∃ row', s.table.get id = some row' ∧
      row'.status = row.status) (runDesk s ms) ms' ?_ hrun₂ hobeyed hclaims ⟨row, hrow, rfl⟩
  · rw [runDesk, Pool.run_append]
    exact hend.2.2
  · intro v c s₁ ch hok hheld hkept
    obtain ⟨row₁, hrow₁, hstatus₁⟩ := hkept
    have hclosed₁ : row₁.closed := by
      unfold FailedTransaction.closed
      rw [hstatus₁]
      exact hfinal
    obtain ⟨row₂, hrow₂, hstatus₂⟩ := closed_handle ch hok (hheld _) hrow₁ hclosed₁
    exact ⟨row₂, hrow₂, hstatus₂.trans hstatus₁⟩

/-- A dead letter under review since time zero. -/
def deadLetter : FailedTransaction where
  id := "d1"
  operation := "submitAutoRelease"
  escrowId := some "e1"
  errorMessage := "timeout"
  attempts := 1
  status := .PENDING_REVIEW
  lastReplayTxHash := none
  createdAt := 0
  updatedAt := 0
  reviewedAt := none
  replayedAt := none

def DlqState.one : DlqState := ⟨Store.Table.empty.put deadLetter, 0⟩

/-- Nothing is rejected at this time, and a callback that is answered now has succeeded. -/
def DlqChoice.serving (now : Time) : DlqChoice := ⟨now, none, fun _ => .ok "hash"⟩

/-- The letter is abandoned; a replay comes too late and is refused. -/
theorem abandoned_stays :
    let abandoning : List (Move deadLetters DlqOp) :=
      .spawn (.abandon "d1") :: List.replicate 5 (.step 0 (.serving 1))
    let replaying : List (Move deadLetters DlqOp) :=
      .spawn (.replay "d1") :: List.replicate 5 (.step 1 (.serving 2))
    ∃ row row', (runDesk .one abandoning).state.table.get "d1" = some row ∧
      row.status = .ABANDONED ∧
      (runDesk .one (abandoning ++ replaying)).state.table.get "d1" = some row' ∧
      row'.status = row.status := by
  intro abandoning replaying
  let row : FailedTransaction :=
    { deadLetter with status := .ABANDONED, reviewedAt := some 1, updatedAt := 1 }
  have hrow : (runDesk .one abandoning).state.table.get "d1" = some row := by decide +kernel
  obtain ⟨row', hrow', hstatus⟩ := outcome_final .one abandoning replaying (by decide +kernel) "d1"
    row hrow (.inr rfl)
  exact ⟨row, row', hrow, rfl, hrow', hstatus⟩

/-- A callback runs for more than five minutes. Meanwhile its claim goes stale and the letter is
abandoned; then the callback succeeds and the letter is `REPLAYED` after all. -/
theorem abandoned_then_replayed :
    let ms : List (Move deadLetters DlqOp) :=
      .spawn (.replay "d1") :: List.replicate 4 (.step 0 (.serving 0)) ++
        .spawn (.abandon "d1") :: List.replicate 5 (.step 1 (.serving REPLAYING_STALE_THRESHOLD_MS))
    let ms' : List (Move deadLetters DlqOp) :=
      List.replicate 3 (.step 0 (.serving (REPLAYING_STALE_THRESHOLD_MS + 1)))
    ((runDesk .one ms).state.table.get "d1").map (·.status) = some .ABANDONED ∧
      ((runDesk .one (ms ++ ms')).state.table.get "d1").map (·.status) = some .REPLAYED := by
  decide +kernel

end TrustLink
