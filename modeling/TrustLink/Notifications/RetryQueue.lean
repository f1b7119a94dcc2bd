import TrustLink.Notifications.Dispatch

/-!
# TrustLink — the two back ends of the retry queue

`NotificationRetryQueueService` runs a job in process when there is no Redis, and hands it to BullMQ
when there is. In process it is one loop that counts attempts from one. With BullMQ it is a worker
that is called once per attempt and sees how many attempts have failed so far, and a handler that is
called after each failure and sees this one counted as well.

`deliveryLog` is what a job leaves behind either way: the calls of the dispatcher, of the repository
and of the dead-letter recorder, in order. Both back ends are shown to make these calls
(`wp_attemptFrom`, `wp_bullMQ`), so they agree.
-/

namespace TrustLink

open Effects

structure NotificationRetryJobData where
  channel : NotificationChannel
  type : NotificationType
  escrow : EscrowRecord
  recipientAddress : String
  requestId : Option String
  notificationId : Option String
  deriving DecidableEq

/-- Without `failedAt`, which is the clock's. -/
structure NotificationDeadLetterRecord where
  channel : NotificationChannel
  type : NotificationType
  escrowId : String
  recipientAddress : String
  attemptsExhausted : Nat
  lastError : String
  requestId : Option String
  deriving DecidableEq

/-- A call may be rejected with an `Error`, which is its message. What is done with a dead-letter
record is the same for both back ends. -/
inductive RetryCall where
  | dispatch (job : NotificationRetryJobData)
  | markSent (id : String) (retryCount : Nat)
  | markAttemptFailed (id : String) (retryCount : Nat) (lastError : String)
  | markFailed (id : String)
  | recordDeadLetter (entry : NotificationDeadLetterRecord)
  /-- The pause before an attempt. -/
  | sleep (attemptNumber : Nat)
  deriving DecidableEq

abbrev retrying : Sig := ⟨RetryCall, fun _ => Unit, String⟩

/-- What the service is set up with: `backoff.attempts`, whether there is a repository, and the
channels that have a dispatcher. -/
structure RetryQueueConfig where
  attempts : Nat
  notifications : Bool
  dispatchers : NotificationChannel → Bool

namespace NotificationRetryQueueService

variable (C : RetryQueueConfig) (job : NotificationRetryJobData)

/-- The row that is kept up to date, if there is one. -/
def trackedId : Option String :=
  if C.notifications then truthy job.notificationId else none

/-- A call of the repository for the row; a rejection is logged. -/
def stamp (call : String → RetryCall) : Prog retrying Unit :=
  match trackedId C job with
  | none => pure ()
  | some id => Prog.tryCatch (Prog.perform (S := retrying) (call id)) fun _ => pure ()

def deadLetterRecord (attemptsExhausted : Nat) (lastError : Option String) :
    NotificationDeadLetterRecord where
  channel := job.channel
  type := job.type
  escrowId := job.escrow.id
  recipientAddress := job.recipientAddress
  attemptsExhausted := attemptsExhausted
  lastError := lastError.getD "unknown error"
  requestId := job.requestId

/-- No attempt is left. -/
def exhausted (attemptsExhausted : Nat) (lastError : Option String) : Prog retrying Unit := do
  stamp C job .markFailed
  Prog.perform (S := retrying) (.recordDeadLetter (deadLetterRecord job attemptsExhausted lastError))

/-- `for (let attempt = 1; attempt <= attempts; attempt++)`, with `left` iterations left. -/
def attemptFrom : (left attempt : Nat) → (lastError : Option String) → Prog retrying Unit
  | 0, _, lastError => exhausted C job C.attempts lastError
  | left + 1, attempt, _ =>
    (Prog.perform (S := retrying) (.dispatch job)).andThen fun
      | .ok _ => stamp C job (.markSent · (attempt - 1))
      | .error err => do
        stamp C job (.markAttemptFailed · attempt err)
        if C.attempts ≤ attempt then exhausted C job C.attempts (some err)
        else do
          Prog.perform (S := retrying) (.sleep (attempt + 1))
          attemptFrom left (attempt + 1) (some err)

def processInProcess : Prog retrying Unit :=
  if C.dispatchers job.channel then attemptFrom C job C.attempts 1 none
  -- a job without a dispatcher is dropped
  else pure ()

/-- The worker. -/
def processor (attemptsMade : Nat) : Prog retrying Unit :=
  if C.dispatchers job.channel then
    (Prog.perform (S := retrying) (.dispatch job)).andThen fun
      | .ok _ => stamp C job (.markSent · attemptsMade)
      | .error err => do
        stamp C job (.markAttemptFailed · (attemptsMade + 1) err)
        throw err
  else throw s!"No dispatcher registered for channel {job.channel.name}"

/-- The handler of `failed`. The job was added with `attempts` as its option. -/
def onFailed (attemptsMade : Nat) (error : String) : Prog retrying Unit :=
  if attemptsMade < C.attempts then pure () else exhausted C job attemptsMade (some error)

/-- BullMQ itself, with `left` attempts left: a failed job is counted, reported to the handler, which
nothing waits for, and run again until its attempts are used up. -/
def bullMQ : (left attemptsMade : Nat) → Prog retrying Unit
  | 0, _ => pure ()
  | left + 1, attemptsMade =>
    (processor C job attemptsMade).andThen fun
      | .ok _ => pure ()
      | .error error => do
        Prog.tryCatch (onFailed C job (attemptsMade + 1) error) fun _ => pure ()
        if attemptsMade + 1 < C.attempts then bullMQ left (attemptsMade + 1) else pure ()

def processWithBullMQ : Prog retrying Unit := bullMQ C job C.attempts 0

end NotificationRetryQueueService

open NotificationRetryQueueService

/-! ## What a job leaves behind -/

structure RetryState where
  /-- The calls of the dispatcher so far. -/
  dispatched : Nat
  /-- The calls made, but for the pauses. -/
  log : List RetryCall

/-- The dispatcher's calls are answered by `outcome` in turn; any other call may be rejected. -/
abbrev retryMachine (outcome : Nat → Except String Unit) : Machine retrying where
  State := RetryState
  Choice := Option String
  handle rejection c s :=
    match c with
    | .dispatch job => (outcome s.dispatched, ⟨s.dispatched + 1, s.log ++ [.dispatch job]⟩)
    | .sleep _ => (.ok (), s)
    | c => (rejection.elim (.ok ()) .error, { s with log := s.log ++ [c] })

section log

variable (C : RetryQueueConfig) (job : NotificationRetryJobData) (outcome : Nat → Except String Unit)

def stamps (call : String → RetryCall) : List RetryCall := (trackedId C job).toList.map call

/-- The calls for a job of which `made` attempts have failed and `left` are left. -/
def deliveryLog : (left made : Nat) → List RetryCall
  | 0, _ => []
  | left + 1, made =>
    .dispatch job :: match outcome made with
      | .ok _ => stamps C job (.markSent · made)
      | .error error =>
        stamps C job (.markAttemptFailed · (made + 1) error) ++
          if left = 0 then
            stamps C job .markFailed ++
              [.recordDeadLetter (deadLetterRecord job (made + 1) (some error))]
          else deliveryLog left (made + 1)

variable {C job outcome} {s : RetryState}

abbrev anyAnswer (outcome : Nat → Except String Unit) : Protocol retrying RetryState :=
  (retryMachine outcome).protocol fun _ => True

/-- A repository call leaves its entry and never fails. -/
theorem wp_stamp {call : String → RetryCall} {Q : Except String Unit → RetryState → Prop}
    (hcall : ∀ id rejection s, (retryMachine outcome).handle rejection (call id) s
      = (rejection.elim (.ok ()) .error, { s with log := s.log ++ [call id] }))
    (h : Q (.ok ()) { s with log := s.log ++ stamps C job call }) :
    (stamp C job call).wp (anyAnswer outcome) Q s := by
  unfold stamp
  unfold stamps at h
  cases hid : trackedId C job with
  | none =>
    rw [hid] at h
    simp only [Option.toList_none, List.map_nil, List.append_nil] at h
    exact h
  | some id =>
    rw [hid] at h
    dsimp only
    rw [wp_tryCatch]
    refine (wp_machine_perform (M := retryMachine outcome)).mpr ?_
    intro rejection _
    rw [hcall]
    cases rejection with
    | none => exact h
    | some e => exact h

/-- The entries of a job whose attempts are used up. -/
theorem wp_exhausted {attempts : Nat} {lastError : Option String} {log : List RetryCall}
    (h : log = s.log ++ (stamps C job .markFailed ++
      [.recordDeadLetter (deadLetterRecord job attempts lastError)])) :
    (exhausted C job attempts lastError).wp (anyAnswer outcome) (fun _ s' => s'.log = log) s := by
  unfold exhausted
  rw [wp_bind]
  apply wp_stamp (fun _ _ _ => rfl)
  refine (wp_machine_perform (M := retryMachine outcome)).mpr ?_
  intro rejection _
  rw [h, ← List.append_assoc]

/-- One attempt, which both back ends make: the call of the dispatcher, and the entry for its outcome
before what follows a failure. -/
theorem wp_attempted {made : Nat} {next : String → Prog retrying Unit}
    {Q : Except String Unit → RetryState → Prop} (hmade : s.dispatched = made)
    (hsent : outcome made = .ok () → Q (.ok ())
      ⟨made + 1, s.log ++ .dispatch job :: stamps C job (.markSent · made)⟩)
    (hfailed : ∀ error, outcome made = .error error → (next error).wp (anyAnswer outcome) Q
      ⟨made + 1, s.log ++ .dispatch job :: stamps C job (.markAttemptFailed · (made + 1) error)⟩) :
    ((Prog.perform (S := retrying) (.dispatch job)).andThen fun
      | .ok _ => stamp C job (.markSent · made)
      | .error err => do
        stamp C job (.markAttemptFailed · (made + 1) err)
        next err).wp (anyAnswer outcome) Q s := by
  subst hmade
  rw [wp_andThen]
  refine (wp_machine_perform (M := retryMachine outcome)).mpr fun rejection _ => ?_
  have hanswer : (retryMachine outcome).handle rejection (.dispatch job) s
      = (outcome s.dispatched, ⟨s.dispatched + 1, s.log ++ [.dispatch job]⟩) := rfl
  rw [hanswer]
  cases hout : outcome s.dispatched with
  | ok _ =>
    apply wp_stamp (fun _ _ _ => rfl)
    rw [List.append_assoc]
    exact hsent hout
  | error error =>
    dsimp only
    rw [wp_bind]
    apply wp_stamp (fun _ _ _ => rfl)
    rw [List.append_assoc]
    exact hfailed error hout

/-- The loop, at its attempt number `made + 1`. -/
theorem wp_attemptFrom (left : Nat) :
    ∀ {made : Nat} {s : RetryState} {lastError : Option String} {log : List RetryCall},
      0 < left → made + left = C.attempts → s.dispatched = made →
      log = s.log ++ deliveryLog C job outcome left made →
      (attemptFrom C job left (made + 1) lastError).wp (anyAnswer outcome)
        (fun _ s' => s'.log = log) s := by
  induction left with
  | zero =>
    intro made s lastError log hpos
    omega
  | succ left ih =>
    intro made s lastError log _ hattempts hmade hlog
    rw [deliveryLog] at hlog
    rw [attemptFrom, Nat.add_sub_cancel]
    refine wp_attempted hmade (fun hout => ?_) fun error hout => ?_
    · rw [hlog, hout]
    · rw [hout] at hlog
      dsimp only at hlog
      apply wp_if
      · -- the last attempt
        intro hlast
        have hleft : left = 0 := by omega
        have hcount : C.attempts = made + 1 := by omega
        apply wp_exhausted
        rw [hlog, if_pos hleft, hcount]
        simp only [List.append_assoc, List.cons_append]
      · intro hmore
        refine (wp_machine_bind (M := retryMachine outcome)).mpr ?_
        intro _ _
        have hleft : left ≠ 0 := by omega
        apply ih (by omega) (by omega)
        · rfl
        · rw [hlog, if_neg hleft]
          simp only [List.append_assoc, List.cons_append]

/-- The worker with its handler, after `made` failures. -/
theorem wp_bullMQ (hdispatcher : C.dispatchers job.channel = true) (left : Nat) :
    ∀ {made : Nat} {s : RetryState} {log : List RetryCall},
      made + left = C.attempts → s.dispatched = made →
      log = s.log ++ deliveryLog C job outcome left made →
      (bullMQ C job left made).wp (anyAnswer outcome) (fun _ s' => s'.log = log) s := by
  induction left with
  | zero =>
    intro made s log _ _ hlog
    rw [hlog]
    exact (List.append_nil _).symm
  | succ left ih =>
    intro made s log hattempts hmade hlog
    rw [deliveryLog] at hlog
    rw [bullMQ, wp_andThen, processor, if_pos hdispatcher]
    refine wp_attempted hmade (fun hout => ?_) fun error hout => ?_
    · show _ = log
      rw [hlog, hout]
    · rw [hout] at hlog
      dsimp only at hlog
      show Prog.wp _ (Prog.bind _ _) _ _
      by_cases hmore : made + 1 < C.attempts
      · -- the handler waits for the last failure
        have hleft : left ≠ 0 := by omega
        rw [onFailed, if_pos hmore, if_pos hmore]
        apply ih (by omega)
        · rfl
        · rw [hlog, if_neg hleft]
          simp only [List.append_assoc, List.cons_append]
      · have hleft : left = 0 := by omega
        rw [onFailed, if_neg hmore, if_neg hmore]
        refine (wp_bind _ _ _ _).mpr ((wp_tryCatch _ _ _ _).mpr ?_)
        have hend : log = s.log ++ .dispatch job ::
            stamps C job (.markAttemptFailed · (made + 1) error) ++
            (stamps C job .markFailed ++
              [.recordDeadLetter (deadLetterRecord job (made + 1) (some error))]) := by
          rw [hlog, if_pos hleft]
          simp only [List.append_assoc, List.cons_append]
        refine wp_mono (wp_exhausted hend) ?_
        intro r s' hs'
        cases r with
        | ok _ => exact hs'
        | error _ => exact hs'

end log

/-- For every job with a dispatcher, every number of attempts and every sequence of outcomes, the two
back ends make the same calls of the dispatcher and of the repository, in the same order and with the
same arguments, and record the same dead letter. -/
theorem back_ends_agree (C : RetryQueueConfig) (job : NotificationRetryJobData)
    (hdispatcher : C.dispatchers job.channel = true) (hattempts : 1 ≤ C.attempts)
    (outcome : Nat → Except String Unit) (env env' : Nat → Option String) :
    ((processInProcess C job).exec (retryMachine outcome) env ⟨0, []⟩).2.log
      = ((processWithBullMQ C job).exec (retryMachine outcome) env' ⟨0, []⟩).2.log := by
  have hloop : ((processInProcess C job).exec (retryMachine outcome) env ⟨0, []⟩).2.log
      = deliveryLog C job outcome C.attempts 0 := by
    have hwp : (processInProcess C job).wp (anyAnswer outcome)
        (fun _ s' => s'.log = deliveryLog C job outcome C.attempts 0) ⟨0, []⟩ := by
      rw [processInProcess, if_pos hdispatcher]
      exact wp_attemptFrom C.attempts hattempts (Nat.zero_add _) rfl rfl
    exact exec_of_wp_any hwp env
  have hbull : ((processWithBullMQ C job).exec (retryMachine outcome) env' ⟨0, []⟩).2.log
      = deliveryLog C job outcome C.attempts 0 := by
    have hwp : (processWithBullMQ C job).wp (anyAnswer outcome)
        (fun _ s' => s'.log = deliveryLog C job outcome C.attempts 0) ⟨0, []⟩ :=
      wp_bullMQ hdispatcher C.attempts (Nat.zero_add _) rfl rfl
    exact exec_of_wp_any hwp env'
  rw [hloop, hbull]

/-- Two attempts, both of which fail. -/
theorem back_ends_agree_two_failures :
    let C : RetryQueueConfig := ⟨2, true, fun _ => true⟩
    let job : NotificationRetryJobData :=
      ⟨.EMAIL, .FUNDED, lampRecord, "a@b.c", some "r1", some "n1"⟩
    let outcome : Nat → Except String Unit := fun n => .error (if n = 0 then "first" else "second")
    let log := ((processInProcess C job).exec (retryMachine outcome) (fun _ => none) ⟨0, []⟩).2.log
    log = [.dispatch job, .markAttemptFailed "n1" 1 "first", .dispatch job,
      .markAttemptFailed "n1" 2 "second", .markFailed "n1",
      .recordDeadLetter (deadLetterRecord job 2 (some "second"))] ∧
    log = ((processWithBullMQ C job).exec (retryMachine outcome) (fun _ => none) ⟨0, []⟩).2.log := by
  intro C job outcome log
  exact ⟨by decide +kernel, back_ends_agree C job rfl (by decide) outcome _ _⟩

end TrustLink
