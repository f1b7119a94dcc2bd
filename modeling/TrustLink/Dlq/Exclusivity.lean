import TrustLink.Dlq.Finality

/-!
# TrustLink — replays are exclusive, and every failure is counted

The claim of a replay has a time-out, measured on `updatedAt`, which every write moves. What makes
it exclude a second replay is time: an execution that takes a record over has read the clock and
found the record older than the threshold, and a record that somebody has claimed is at least as
young as that claim. So as long as every replay writes its outcome within the threshold, nobody
takes anything from anybody (`notTakenOver_of_timely`), whatever else is written in between.

The attempts of a record need no exclusion. A failed callback is counted by an increment, a few
calls later; until then it is owed (`Replaying.Owes`). What is counted and what is owed add up to
the initial value and the failures at every moment (`accounted_handle`).
-/

namespace TrustLink

open Effects

/-- One clock for all calls, no rejected database call, and no step at a time by which a replay of
the record should have written its outcome: each does so within the threshold of its claim. -/
def Timely (id : String) (P : Desk) : Move deadLetters DlqOp → Prop
  | .spawn _ => True
  | .step _ ch => P.state.clock ≤ ch.now ∧ ch.fault = none ∧
      ∀ t ∈ P.threads, (replaying.view t).id = id → ∀ since ∈ (replaying.view t).phase.since,
        ch.now < since + REPLAYING_STALE_THRESHOLD_MS

instance (id : String) (P : Desk) (m : Move deadLetters DlqOp) : Decidable (Timely id P m) := by
  cases m with
  | spawn l => exact inferInstanceAs (Decidable True)
  | step i ch => exact inferInstanceAs (Decidable (_ ∧ _))

/-- Execution `i` waits for the callback of a replay of the record. -/
def CallbackInFlight (P : Desk) (i : Nat) (id : String) : Prop :=
  ∃ t record k, P.threads[i]? = some t ∧ t.label.id = id ∧ t.rest = .call (.replayFn record) k

/-- The callback that a move answers with an error, if it is one for the record. -/
def callbackFailed (id : String) (P : Desk) : Move deadLetters DlqOp → List FailedTransaction
  | .spawn _ => []
  | .step i ch =>
    match P.threads[i]? with
    | some ⟨label, _, .call (.replayFn record) _⟩ =>
      match ch.reply record with
      | .error _ => if label.id = id then [record] else []
      | .ok _ => []
    | _ => []

/-- How many callbacks for the record have failed in a run. -/
def failedCallbacks (id : String) (s : DlqState) (ms : List (Move deadLetters DlqOp)) : Nat :=
  (Pool.observe DlqOp.prog (callbackFailed id) ⟨s, []⟩ ms).length

theorem view_label (t : Thread dlq DlqOp) :
    (replaying.view t).id = t.label.id ∧ (replaying.view t).replays = t.label.replays := by
  obtain ⟨label, past, rest⟩ := t
  induction past with
  | nil => exact ⟨rfl, rfl⟩
  | cons e past ih =>
    have hfixed := (replaying.view (L := DlqOp) ⟨label, past, rest⟩).next_fixed e.call e.resp
    exact ⟨hfixed.1.trans ih.1, hfixed.2.trans ih.2⟩

/-! ## Time

A claim is as old as the write that made it, and a take-over is later than the threshold after that.
So replays that finish in time are not overtaken. -/

section time

variable {v : Replaying} {c : DlqCall} {s : DlqState} {ch : DlqChoice} {id : String}

/-- What an execution reads from the clock is the time of the call. -/
theorem next_readings {t : Time} (h : t ∈ (v.next c (handleDlq ch c s).1).readings) :
    t ∈ v.readings ∨ t = ch.now := by
  cases c with
  | dateNow =>
    rcases List.mem_cons.mp h with rfl | hold
    · exact .inr rfl
    · exact .inl hold
  | replayFn record => exact .inl h
  | findUnique id' =>
    left
    simp only [Replaying.next] at h
    split at h <;> first | exact h | contradiction
  | update id' data =>
    left
    simp only [Replaying.next] at h
    split at h <;> first | exact h | contradiction
  | updateManyClaimable id' staleBefore data =>
    left
    rcases handleDlq_updateMany ch s id' staleBefore data with
      ⟨e, heq⟩ | heq | ⟨row, hrow, hclaimable, heq⟩
    · rw [heq] at h
      exact h
    · rw [heq] at h
      exact h
    · rw [heq] at h
      have h : t ∈ (v.won data ch.now).readings := h
      unfold Replaying.won at h
      split at h <;> exact h

/-- The claim is as old as it was, or it has just been made, by a write. -/
theorem next_since {since : Time} (hok : v.ok c)
    (h : since ∈ (v.next c (handleDlq ch c s).1).phase.since) :
    since ∈ v.phase.since ∨ (since = ch.now ∧
      ∃ row, (handleDlq ch c s).2.table.get v.id = some row ∧ row.updatedAt = ch.now) := by
  cases c with
  | updateManyClaimable id' staleBefore data =>
    obtain ⟨rfl, _⟩ := hok
    rcases handleDlq_updateMany ch s v.id staleBefore data with
      ⟨e, heq⟩ | heq | ⟨row, hrow, hclaimable, heq⟩
    · rw [heq] at h
      exact .inl h
    · rw [heq] at h
      exact .inl h
    · rw [heq] at h ⊢
      have hwon : since ∈ (v.won data ch.now).phase.since := h
      unfold Replaying.won at hwon
      split at hwon
      · right
        have hnow : since = ch.now := (Option.some.inj hwon).symm
        refine ⟨hnow, row.update data ch.now, ?_, rfl⟩
        simp [DlqState.put, Store.Table.get_put, s.table.key_of_get hrow]
      · exact .inl hwon
  | _ =>
    -- the other calls bring no claim, and do not move one
    left
    apply Replaying.since_next h
    intro _ _ _ hc
    cases hc

/-- The record is as old as it was, or it has just been written. -/
theorem updatedAt_handle {row : FailedTransaction} (c : DlqCall) (ch : DlqChoice)
    (hrow : s.table.get id = some row) :
    ∃ row', (handleDlq ch c s).2.table.get id = some row' ∧
      (row'.updatedAt = row.updatedAt ∨ row'.updatedAt = ch.now) := by
  generalize hafter : (handleDlq ch c s).2.table.get id = after
  have hchange : RecordChange ch s c id after := by
    rw [← hafter]
    exact handleDlq_record ch s c id
  cases hchange with
  | same => exact ⟨row, hrow, .inl rfl⟩
  | updated data row' hc hrow' => exact ⟨_, rfl, .inr rfl⟩
  | matched staleBefore data row' hc hrow' hclaimable => exact ⟨_, rfl, .inr rfl⟩

/-- Who takes a record over has read a time that is past the threshold of its last write. -/
theorem takesOver_late (hok : v.ok c) (htakes : TakesOver id c s) :
    ∃ row, s.table.get id = some row ∧
      ∃ t ∈ v.readings, row.updatedAt + REPLAYING_STALE_THRESHOLD_MS ≤ t := by
  obtain ⟨staleBefore, data, row, rfl, hrow, hreplaying, hclaimable⟩ := htakes
  obtain ⟨_, _, _, _, t, ht, rfl⟩ := hok
  have hstale : row.updatedAt ≤ t - REPLAYING_STALE_THRESHOLD_MS := by
    simpa [FailedTransaction.claimable, hreplaying] using hclaimable
  refine ⟨row, hrow, t, ht, ?_⟩
  exact Int.add_le_of_le_sub_right hstale

end time

/-- The claims of one record in time: exclusive, none older than the last write of the record, and
nobody ahead of the clock. -/
structure TimedClaims (id : String) (P : Desk) : Prop where
  exclusive : replaying.Exclusive (fun v (_ : Unit) => v.Holds id) (fun _ => BeingReplayed id) P
  readings : ∀ t ∈ P.threads, ∀ r ∈ (replaying.view t).readings, r ≤ P.state.clock
  fresh : ∀ t ∈ P.threads, (replaying.view t).id = id → ∀ since ∈ (replaying.view t).phase.since,
    since ≤ P.state.clock ∧
      ∃ row, P.state.table.get id = some row ∧ since ≤ row.updatedAt

theorem timedClaims_nil (id : String) (s : DlqState) : TimedClaims id ⟨s, []⟩ where
  exclusive := Monitor.exclusive_nil (M := deadLetters) s
  readings := nofun
  fresh := nofun

theorem timedClaims_spawn {id : String} {P : Desk} (l : DlqOp) (h : TimedClaims id P) :
    TimedClaims id { P with threads := P.threads ++ [⟨l, [], l.prog⟩] } where
  exclusive := by
    apply Monitor.exclusive_spawn _ h.exclusive
    intro _ hholds
    cases hholds.2
  readings := by
    intro t ht r hr
    rcases Pool.mem_spawn ht with hold | rfl
    · exact h.readings t hold r hr
    · cases hr
  fresh := by
    intro t ht hid since hsince
    rcases Pool.mem_spawn ht with hold | rfl
    · exact h.fresh t hold hid since hsince
    · cases hsince

section timed

variable {id : String} {P : Desk} {i : Nat} {ch : DlqChoice} {t : Thread dlq DlqOp} {c : DlqCall}
  {k : Except Err c.Resp → Prog dlq Unit}

/-- In time, nothing is taken over: the record would have to be older than a claim that is younger
than the threshold. -/
theorem notTakenOver_of_timely (htimely : Timely id P (.step i ch))
    (h : TimedClaims id P) (ht : P.threads[i]? = some t) (hok : (replaying.view t).ok c)
    (htakes : TakesOver id c P.state) (t' : Thread dlq DlqOp) (ht' : t' ∈ P.threads) :
    ¬ (replaying.view t').Holds id := by
  intro hholds
  obtain ⟨hid, hsome⟩ := hholds
  obtain ⟨since, hsince⟩ := Option.isSome_iff_exists.mp hsome
  obtain ⟨hclock, _, hwithin⟩ := htimely
  obtain ⟨row, hrow, reading, hreading, hlate⟩ := takesOver_late hok htakes
  obtain ⟨_, row', hrow', hyoung⟩ := h.fresh t' ht' hid since hsince
  rw [hrow] at hrow'
  cases hrow'
  have hcycle : ch.now < ch.now := calc
    ch.now < since + REPLAYING_STALE_THRESHOLD_MS := hwithin t' ht' hid since hsince
    _ ≤ row.updatedAt + REPLAYING_STALE_THRESHOLD_MS := Int.add_le_add_right hyoung _
    _ ≤ reading := hlate
    _ ≤ P.state.clock := h.readings t (List.mem_of_getElem? ht) reading hreading
    _ ≤ ch.now := hclock
  exact Int.lt_irrefl _ hcycle

theorem timedClaims_advance (htimely : Timely id P (.step i ch)) (h : TimedClaims id P)
    (ht : P.threads[i]? = some t) (hr : t.rest = .call c k) (hok : (replaying.view t).ok c) :
    TimedClaims id (P.advance i t c k ch) := by
  have hmem : t ∈ P.threads := List.mem_of_getElem? ht
  have hclock : P.state.clock ≤ ch.now := htimely.1
  have hnow : (P.advance i t c k ch).state.clock = ch.now := handleDlq_clock ch P.state c
  constructor
  · -- nobody is overrun, so the claims stay exclusive
    have hstep : ∀ _ : Unit, replaying.LeaseStep (M := deadLetters) (fun v _ => v.Holds id)
        (fun _ => BeingReplayed id) (fun _ => TakesOver id) (replaying.view t) c P.state ch () := by
      intro _
      have hlease : replaying.LeaseStep (M := deadLetters) Replaying.Holds BeingReplayed TakesOver
          (replaying.view t) c P.state ch id :=
        leaseStep_replaying hok (h.exclusive.locked t hmem ())
      exact ⟨hlease.gain, hlease.keep⟩
    apply Monitor.exclusive_advance_lease hstep _ ht hr h.exclusive
    intro t₀ c₀ k₀ ht₀ hr₀ _ htakes j t' _ ht'
    obtain rfl : t = t₀ := Option.some.inj (ht.symm.trans ht₀)
    cases hr.symm.trans hr₀
    exact notTakenOver_of_timely htimely h ht hok htakes t' (List.mem_of_getElem? ht')
  · intro t' ht' r hr'
    rw [hnow]
    rcases Pool.mem_advance ht' with rfl | hold
    · rcases next_readings hr' with hbefore | rfl
      · exact Int.le_trans (h.readings t hmem r hbefore) hclock
      · exact Int.le_refl _
    · exact Int.le_trans (h.readings t' hold r hr') hclock
  · -- a write makes the record younger, and time makes the claims older
    have hkept : ∀ since, (since ≤ P.state.clock ∧
        ∃ row, P.state.table.get id = some row ∧ since ≤ row.updatedAt) →
        since ≤ ch.now ∧ ∃ row, (handleDlq ch c P.state).2.table.get id = some row ∧
          since ≤ row.updatedAt := by
      rintro since ⟨hpast, row, hrow, hyoung⟩
      have hearlier : since ≤ ch.now := Int.le_trans hpast hclock
      obtain ⟨row', hrow', hage⟩ := updatedAt_handle c ch hrow
      refine ⟨hearlier, row', hrow', ?_⟩
      rcases hage with hsame | hwritten
      · rw [hsame]
        exact hyoung
      · rw [hwritten]
        exact hearlier
    intro t' ht' hid since hsince
    rw [hnow]
    rcases Pool.mem_advance ht' with rfl | hold
    · have hid₀ : (replaying.view t).id = id := by
        rw [← hid]
        exact ((replaying.view t).next_id c _).symm
      rcases next_since hok hsince with hbefore | ⟨rfl, row, hrow, hwritten⟩
      · exact hkept since (h.fresh t hmem hid₀ since hbefore)
      · rw [hid₀] at hrow
        exact ⟨Int.le_refl _, row, hrow, Int.le_of_eq hwritten.symm⟩
    · exact hkept since (h.fresh t' hold hid since hsince)

end timed

/-! ## Attempts

A failed callback is owed to the record until its attempt is counted. What is counted and what is
owed add up to the failures. -/

/-- The callback has failed, and the attempt is not counted yet. -/
def ReplayPhase.owes : ReplayPhase → Bool
  | .failed _ | .released => true
  | _ => false

/-- The execution is a replay that owes its record an attempt. -/
def Replaying.owing (v : Replaying) : Bool := v.replays && v.phase.owes

/-- The execution owes the record `id` an attempt. -/
def Replaying.Owes (v : Replaying) (id : String) : Bool := v.id == id && v.owing

/-- What a failing callback adds to the account of the record `id`. -/
def Replaying.failure (v : Replaying) (id : String) (ch : DlqChoice) : DlqCall → Nat
  | .replayFn record =>
    match ch.reply record with
    | .error _ => if v.id = id then 1 else 0
    | .ok _ => 0
  | _ => 0

section accounts

variable {v : Replaying} {c : DlqCall} {s : DlqState} {ch : DlqChoice} {id : String}
  {row : FailedTransaction}

/-- What an execution owes to a record is owed to its own record. -/
theorem owes_other (hid : v.id ≠ id) : v.Owes id = false := by
  simp [Replaying.Owes, hid]

theorem failure_other (hid : v.id ≠ id) : v.failure id ch c = 0 := by
  unfold Replaying.failure
  split
  · split
    · exact if_neg hid
    · rfl
  · rfl

/-- The calls of an execution leave the other records alone. -/
theorem other_record (hok : v.ok c) (hid : v.id ≠ id) :
    (handleDlq ch c s).2.table.get id = s.table.get id := by
  generalize hafter : (handleDlq ch c s).2.table.get id = after
  have hchange : RecordChange ch s c id after := by
    rw [← hafter]
    exact handleDlq_record ch s c id
  cases hchange with
  | same => rfl
  | updated data row hc hrow =>
    subst hc
    exact absurd hok.1.symm hid
  | matched staleBefore data row hc hrow hclaimable =>
    subst hc
    exact absurd hok.1.symm hid

/-- The account of the caller's own record. -/
theorem accounted_own (hok : v.ok c) (hfault : ch.fault = none)
    (hrow : s.table.get v.id = some row) :
    ∃ row', (handleDlq ch c s).2.table.get v.id = some row' ∧
      row'.attempts + (if (v.next c (handleDlq ch c s).1).owing then 1 else 0) =
        row.attempts + (if v.owing then 1 else 0) + v.failure v.id ch c := by
  have hkey : row.id = v.id := s.table.key_of_get hrow
  cases c with
  | dateNow => exact ⟨row, hrow, rfl⟩
  | findUnique id' =>
    obtain ⟨rfl, hphase⟩ := hok
    refine ⟨row, ?_, ?_⟩
    · simp [handleDlq, hfault, hrow]
    · simp [handleDlq, hfault, hrow, Replaying.next, Replaying.failure]
  | updateManyClaimable id' staleBefore data =>
    obtain ⟨rfl, hidle, hattempts, _⟩ := hok
    rcases handleDlq_updateMany ch s v.id staleBefore data with
      ⟨e, heq⟩ | heq | ⟨row', hrow', hclaimable, heq⟩
    · rw [heq]
      exact ⟨row, hrow, rfl⟩
    · rw [heq]
      exact ⟨row, hrow, rfl⟩
    · rw [hrow] at hrow'
      cases hrow'
      rw [heq]
      refine ⟨row.update data ch.now, ?_, ?_⟩
      · simp [DlqState.put, Store.Table.get_put, hkey]
      · -- a claim that has just been made owes nothing yet
        have hwon : (v.won data ch.now).owing = v.owing := by
          unfold Replaying.won
          split
          · simp [Replaying.owing, ReplayPhase.owes, hidle]
          · rfl
        show (row.update data ch.now).attempts +
          (if (v.won data ch.now).owing then 1 else 0) = _
        rw [hwon, FailedTransaction.update_attempts, hattempts]
        rfl
  | replayFn record =>
    obtain ⟨hreplays, t, hphase⟩ := hok
    refine ⟨row, hrow, ?_⟩
    show row.attempts +
      (if (v.next (.replayFn record) (ch.reply record)).owing then 1 else 0) = _
    cases hreply : ch.reply record <;>
      simp [Replaying.next, Replaying.answered, Replaying.failure, Replaying.owing, ReplayPhase.owes,
        hreplays, hphase, hreply]
  | update id' data =>
    obtain ⟨rfl, hmay⟩ := hok
    have heq : handleDlq ch (.update v.id data) s =
        (.ok (row.update data ch.now), s.put (row.update data ch.now) ch.now) := by
      simp [handleDlq, hfault, hrow]
    rw [heq]
    refine ⟨row.update data ch.now, ?_, ?_⟩
    · simp [DlqState.put, Store.Table.get_put, hkey]
    · unfold Replaying.mayUpdate at hmay
      split at hmay
      · next hstatus =>
        obtain ⟨⟨t, hphase⟩, hattempts⟩ := hmay
        simp [Replaying.next, Replaying.failure, Replaying.owing, ReplayPhase.owes, hstatus, hphase,
          hattempts]
      · next hstatus =>
        obtain ⟨⟨t, hphase⟩, hattempts⟩ := hmay
        simp [Replaying.next, Replaying.failure, Replaying.owing, ReplayPhase.owes, hstatus, hphase,
          hattempts]
      · next hstatus =>
        -- a review counts nothing, the increment counts what is owed
        rcases hmay with ⟨hphase, hattempts⟩ | ⟨hphase, hreplays, hattempts⟩
        · simp [Replaying.next, Replaying.failure, Replaying.owing, ReplayPhase.owes, hstatus,
            hphase, hattempts]
        · simp [Replaying.next, Replaying.failure, Replaying.owing, ReplayPhase.owes, hstatus,
            hphase, hreplays, hattempts]
      · exact False.elim hmay

/-- Along every call, the attempts of the record and what the caller owes it grow by the failure of
its callback. -/
theorem accounted_handle (hok : v.ok c) (hfault : ch.fault = none)
    (hrow : s.table.get id = some row) :
    ∃ row', (handleDlq ch c s).2.table.get id = some row' ∧
      row'.attempts + (if (v.next c (handleDlq ch c s).1).Owes id then 1 else 0) =
        row.attempts + (if v.Owes id then 1 else 0) + v.failure id ch c := by
  by_cases hid : v.id = id
  · subst hid
    obtain ⟨row', hrow', haccount⟩ := accounted_own hok hfault hrow
    refine ⟨row', hrow', ?_⟩
    simp only [Replaying.Owes, v.next_id, beq_self_eq_true, Bool.true_and]
    exact haccount
  · refine ⟨row, ?_, ?_⟩
    · rw [other_record hok hid]
      exact hrow
    · have hnext : (v.next c (handleDlq ch c s).1).id ≠ id := by
        rw [v.next_id]
        exact hid
      simp [owes_other hid, owes_other hnext, failure_other hid]

end accounts

/-- The number of executions that owe the record an attempt. -/
def Desk.owed (P : Desk) (id : String) : Nat :=
  P.threads.countP fun t => (replaying.view t).Owes id

/-- What is counted and what is owed, against the initial value and the failures seen. -/
def Accounted (id : String) (initial : Nat) (failures : List FailedTransaction) (P : Desk) : Prop :=
  ∃ row, P.state.table.get id = some row ∧
    row.attempts + Desk.owed P id = initial + failures.length

section accounted

variable {id : String} {initial : Nat} {seen : List FailedTransaction} {P : Desk} {i : Nat}
  {ch : DlqChoice} {t : Thread dlq DlqOp} {c : DlqCall} {k : Except Err c.Resp → Prog dlq Unit}

/-- A move that does nothing answers no callback. -/
theorem callbackFailed_idle {m : Move deadLetters DlqOp} (h : Pool.next DlqOp.prog P m = P) :
    callbackFailed id P m = [] := by
  cases m with
  | spawn l => rfl
  | step i ch =>
    simp only [callbackFailed]
    split
    · next label past record k ht =>
      exact absurd h (Pool.next_ne ht rfl)
    · rfl

theorem length_callbackFailed (ht : P.threads[i]? = some t) (hr : t.rest = .call c k) :
    (callbackFailed id P (.step i ch)).length = (replaying.view t).failure id ch c := by
  have hlabel := (view_label t).1
  obtain ⟨label, past, rest⟩ := t
  obtain rfl : rest = .call c k := hr
  simp only [callbackFailed, ht]
  cases c with
  | replayFn record =>
    simp only [Replaying.failure, hlabel]
    cases ch.reply record with
    | error e =>
      simp only
      split <;> rfl
    | ok txHash => rfl
  | _ => rfl

theorem accounted_spawn (l : DlqOp) (h : Accounted id initial seen P) :
    Accounted id initial seen { P with threads := P.threads ++ [⟨l, [], l.prog⟩] } := by
  obtain ⟨row, hrow, haccount⟩ := h
  refine ⟨row, hrow, ?_⟩
  have howed : Desk.owed { P with threads := P.threads ++ [⟨l, [], l.prog⟩] } id =
      Desk.owed P id := by
    unfold Desk.owed
    rw [List.countP_append]
    simp [replaying, Replaying.Owes, Replaying.owing, ReplayPhase.owes]
  rw [howed]
  exact haccount

theorem accounted_advance (hfault : ch.fault = none) (ht : P.threads[i]? = some t)
    (hr : t.rest = .call c k) (hok : (replaying.view t).ok c) (h : Accounted id initial seen P) :
    Accounted id initial (seen ++ callbackFailed id P (.step i ch)) (P.advance i t c k ch) := by
  obtain ⟨row, hrow, haccount⟩ := h
  obtain ⟨row', hrow', hcall⟩ := accounted_handle hok hfault hrow
  refine ⟨row', hrow', ?_⟩
  have howed : Desk.owed (P.advance i t c k ch) id + _ = Desk.owed P id + _ :=
    Pool.countP_advance (fun t => (replaying.view t).Owes id) ht
  rw [List.length_append, length_callbackFailed ht hr]
  simp only [Monitor.view_cons _ _ _ _ _ t.rest] at howed
  have hview : replaying.view ⟨t.label, t.past, t.rest⟩ = replaying.view t := rfl
  rw [hview] at howed
  change _ + _ = _ + (if ((replaying.view t).next c _).Owes id then 1 else 0) at howed
  omega

end accounted

/-- Replays of a record that all write their outcome in time: its callbacks are never in flight
twice, and when no replay of it is in progress every failed callback is counted. -/
theorem replays_exclusive_counted (s : DlqState) (ms : List (Move deadLetters DlqOp)) (id : String)
    (row : FailedTransaction) (hrow : s.table.get id = some row)
    (hrun : Pool.Admissible DlqOp.prog (Timely id) ⟨s, []⟩ ms) :
    (∀ i j, CallbackInFlight (runDesk s ms) i id → CallbackInFlight (runDesk s ms) j id → i = j) ∧
      ((∀ t ∈ (runDesk s ms).threads, t.label = .replay id → t.outcome.isSome = true) →
        ∃ row', (runDesk s ms).state.table.get id = some row' ∧
          row'.attempts = row.attempts + failedCallbacks id s ms) := by
  have hend := replaying.run_settles (Q := fun _ _ v => v.phase = .idle) (K := Timely id)
    (callbackFailed id) (I := fun seen P => TimedClaims id P ∧ Accounted id row.attempts seen P)
    ?_ ?_ ?_ ms ⟨s, []⟩ [] hrun (replaying.settles_nil (M := deadLetters) s)
    ⟨timedClaims_nil id s, row, hrow, rfl⟩
  · obtain ⟨hsettles, htimed, row', hrow', haccount⟩ := hend
    constructor
    · -- a callback is in flight only where the claim is held
      have hholds : ∀ i, CallbackInFlight (runDesk s ms) i id → ∃ t,
          (runDesk s ms).threads[i]? = some t ∧ (replaying.view t).Holds id := by
        rintro i ⟨t, record, k, ht, hlabel, hrest⟩
        have hwp := hsettles t (List.mem_of_getElem? ht)
        rw [hrest] at hwp
        obtain ⟨_, since, hphase⟩ := hwp.1
        refine ⟨t, ht, (view_label t).1.trans hlabel, ?_⟩
        rw [hphase]
        rfl
      intro i j hi hj
      obtain ⟨t, ht, hheld⟩ := hholds i hi
      obtain ⟨t', ht', hheld'⟩ := hholds j hj
      exact htimed.exclusive.unique i j t t' () ht ht' hheld hheld'
    · intro hsettled
      -- only a replay of the record could owe it anything, and they have all settled
      have howed : Desk.owed (runDesk s ms) id = 0 := by
        apply List.countP_eq_zero.mpr
        intro t ht howes
        obtain ⟨hid, hreplays⟩ := view_label t
        simp only [Replaying.Owes, Replaying.owing, hid, hreplays, Bool.and_eq_true,
          beq_iff_eq] at howes
        obtain ⟨hlabelled, hreplay, hphase⟩ := howes
        have hlabel : t.label = .replay id := by
          cases hl : t.label <;> simp_all [DlqOp.id, DlqOp.replays]
        obtain ⟨r, hr⟩ := Option.isSome_iff_exists.mp (hsettled t ht hlabel)
        rw [hsettles.outcome ht hr] at hphase
        cases hphase
      refine ⟨row', hrow', ?_⟩
      have hall : row'.attempts + Desk.owed (runDesk s ms) id =
        row.attempts + failedCallbacks id s ms := haccount
      omega
  · intro P m seen hidle hI
    rw [callbackFailed_idle hidle, List.append_nil]
    exact hI
  · intro P l seen _ hI
    refine ⟨Replaying.wp_dlqOp l, timedClaims_spawn l hI.1, ?_⟩
    show Accounted id row.attempts (seen ++ []) _
    rw [List.append_nil]
    exact accounted_spawn l hI.2
  · intro P i ch t c k seen htimely hI _ ht hr hok
    exact ⟨Replaying.answer_handle ch c P.state, timedClaims_advance htimely hI.1 ht hr hok,
      accounted_advance htimely.2.1 ht hr hok hI.2⟩

/-- A callback that is answered now has failed. -/
def DlqChoice.refusing (now : Time) : DlqChoice := ⟨now, none, fun _ => .error (.error "timeout")⟩

/-- Two replays at once: the second one is refused, the callback of the first one fails, and the
failure is counted. -/
theorem failed_replay_counted :
    let ms : List (Move deadLetters DlqOp) :=
      .spawn (.replay "d1") :: .spawn (.replay "d1") :: .step 1 (.serving 1) ::
        List.replicate 4 (.step 0 (.serving 2)) ++ List.replicate 2 (.step 1 (.serving 3)) ++
        List.replicate 3 (.step 0 (.refusing 4))
    failedCallbacks "d1" .one ms = 1 ∧
      ∃ row, (runDesk .one ms).state.table.get "d1" = some row ∧
        row.attempts = deadLetter.attempts + 1 := by
  intro ms
  have hfailed : failedCallbacks "d1" .one ms = 1 := by decide +kernel
  have hsettled : ∀ t ∈ (runDesk .one ms).threads, t.label = .replay "d1" →
      t.outcome.isSome = true := by decide +kernel
  obtain ⟨row, hrow, hattempts⟩ := (replays_exclusive_counted .one ms "d1" deadLetter
    (by decide +kernel) (by decide +kernel)).2 hsettled
  rw [hfailed] at hattempts
  exact ⟨hfailed, row, hrow, hattempts⟩

end TrustLink
