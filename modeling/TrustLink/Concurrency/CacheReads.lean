import TrustLink.Effects.Returns
import TrustLink.Model.Frame
import TrustLink.Model.Repositories

/-!
# TrustLink — reads through the cache

`findById` answers from the cache; on a miss it reads the row and then puts the record into the
cache. Every mutator writes the row and then evicts the record. A reader that has missed may
therefore put a record into the cache that a mutator has meanwhile replaced *and evicted*:
`stale_read_after_update` is such a run, and the old record stays there for everybody else.

`cached_reads_move_forward` says that nothing else goes wrong. In every run in which no record is
evicted while an older one is about to be put into the cache (`EvictsCurrent`), a `findById` that is
started after a mutator has returned answers a version of the row that the table had at or after
that mutator's write.

A version is a point of the run, not a counter: the versions since the write are what the row was
after one of the moves from the write on. From the mutator's eviction on, whatever is cached, about
to be cached or read by a newcomer is one of them (`UpToDate`).
-/

namespace TrustLink

open Effects EscrowRepository

/-! ## The calls on the repository -/

/-- `findById` and the mutators, of one escrow. -/
inductive RepoOp where
  | findById
  | updateState (state : EscrowState)
  | updateTracking (trackingId : String)
  | markShipped (trackingId : String)
  | markTrackingChecked
  | markCompleted
  | markRefunded
  | markDelivered (deliveredAt : Time)
  | recordAutoReleaseSubmission (txHash : String)
  | markCancelled
  | clearAutoReleaseSubmitting
  | markAutoReleased (txHash : String)
  | clearDeliveryClaim
  | saveBuyerContact (encryptedEmail encryptedPhone : Option String)
  | markAutoReleaseSubmitting
  | claimDelivery
  deriving DecidableEq

@[reducible] def RepoOp.Result : RepoOp → Type
  | .findById | .markAutoReleaseSubmitting | .claimDelivery => Option EscrowRecord
  | _ => EscrowRecord

def RepoOp.body (D : Deployment) (id : String) : (op : RepoOp) → App op.Result
  | .findById => EscrowRepository.findById D id
  | .updateState state => EscrowRepository.updateState D id state
  | .updateTracking trackingId => EscrowRepository.updateTracking D id trackingId
  | .markShipped trackingId => EscrowRepository.markShipped D id trackingId
  | .markTrackingChecked => EscrowRepository.markTrackingChecked D id
  | .markCompleted => EscrowRepository.markCompleted D id
  | .markRefunded => EscrowRepository.markRefunded D id
  | .markDelivered deliveredAt => EscrowRepository.markDelivered D id deliveredAt
  | .recordAutoReleaseSubmission txHash =>
    EscrowRepository.recordAutoReleaseSubmission D id txHash
  | .markCancelled => EscrowRepository.markCancelled D id
  | .clearAutoReleaseSubmitting => EscrowRepository.clearAutoReleaseSubmitting D id
  | .markAutoReleased txHash => EscrowRepository.markAutoReleased D id txHash
  | .clearDeliveryClaim => EscrowRepository.clearDeliveryClaim D id
  | .saveBuyerContact email phone => EscrowRepository.saveBuyerContact D id email phone
  | .markAutoReleaseSubmitting => EscrowRepository.markAutoReleaseSubmitting D id
  | .claimDelivery => EscrowRepository.claimDelivery D id

abbrev Repository := Pool world RepoOp

/-- The calls `ms` on the escrow `id`, interleaved, from the world `w`. -/
def repositoryRun (D : Deployment) (id : String) (w : World) (ms : List (Move world RepoOp)) :
    Repository :=
  Pool.run (fun op => (op.body D id).void) ⟨w, []⟩ ms

/-- The call was answered, and has written the row of the escrow. -/
def wroteRow (id : String) : (c : Call) → Except Err c.Resp → Bool
  | .db (.escrowUpdate id' _), .ok _ => id' = id
  | .db (.escrowUpdateManyUnsubmitted id' _), .ok count => id' = id && count ≠ 0
  | _, _ => false

/-- The call that thread `i` waits for writes the row, under the choice `ch`. -/
def writesRow (id : String) (P : Repository) (i : Nat) (ch : Choice) : Bool :=
  match (P.threads[i]?).bind Thread.inFlight with
  | none => false
  | some c => wroteRow id c (handle ch c P.state).1

/-- Writes to the cache and evictions succeed. A miss is no failure: records expire. -/
def CacheSucceeds : Move world RepoOp → Prop
  | .spawn _ => True
  | .step _ ch => ch.lost = false

/-- The call in flight puts a record into the cache that is not the current one. -/
def putsStale (id : String) (w : World) : Option Call → Bool
  | some (.cache (.setEscrow id' record)) => id' = id && w.version id ≠ some record
  | _ => false

/-- If the record is evicted, nobody is about to put an older one into the cache. -/
def EvictsCurrent (id : String) (P : Repository) : Move world RepoOp → Prop
  | .spawn _ => True
  | .step i _ => (P.threads[i]?).bind Thread.inFlight = some (.cache (.delEscrow id)) →
    ∀ t ∈ P.threads, putsStale id P.state t.inFlight = false

instance (m : Move world RepoOp) : Decidable (CacheSucceeds m) := by
  cases m <;> unfold CacheSucceeds <;> infer_instance

instance (id : String) (P : Repository) (m : Move world RepoOp) :
    Decidable (EvictsCurrent id P m) := by
  cases m <;> unfold EvictsCurrent <;> infer_instance

/-! ## What a call on the repository does

A write leaves the cache stale until the eviction that follows it in the same call. -/

structure Reading where
  /-- What it has last read of the escrow, from the cache or from the table. -/
  value : Option (Option EscrowRecord)
  /-- The record it has read from the table in its last call. -/
  fresh : Option EscrowRecord
  /-- It has written the row and not yet evicted the record. -/
  owes : Bool

namespace Reading

def next (id : String) (v : Reading) : (c : Call) → Except Err c.Resp → Reading
  | .cache (.getEscrow _), .ok (some record) => ⟨some (some record), none, v.owes⟩
  | .db (.escrowFindUnique _), .ok row =>
    ⟨some (row.map toEscrowRecord), row.map toEscrowRecord, v.owes⟩
  | .cache (.delEscrow _), _ => ⟨v.value, none, false⟩
  | c, r => ⟨v.value, none, v.owes || wroteRow id c r⟩

/-- All calls are about this escrow, and what is put into the cache has just been read. -/
def ok (id : String) (v : Reading) : Call → Prop
  | .cache (.setEscrow id' record) => id' = id ∧ v.fresh = some record
  | .cache (.getEscrow id') | .cache (.delEscrow id') => id' = id
  | .db (.escrowFindUnique id') => id' = id
  | _ => True

/-- What returns has evicted the record it has written; `findById` returns what it has read. -/
def Promised : (op : RepoOp) → Except Err op.Result → Reading → Prop
  | .findById, r, v => ∀ value, r = .ok value → v.owes = false ∧ v.value = some value
  | _, r, v => ∀ a, r = .ok a → v.owes = false

end Reading

def reading (id : String) : Monitor backend RepoOp Reading where
  init _ := ⟨none, none, false⟩
  next := Reading.next id
  ok := Reading.ok id
  ans _ _ _ := True

section programs

variable {D : Deployment} {id : String} {v : Reading}

/-- What is found in the cache is what was stored there. -/
theorem reading_cached :
    (cached D id).wp (reading id).protocol (fun r v' => v'.owes = v.owes ∧
      ∀ record, r = .ok (some record) → v'.value = some (some record)) v := by
  unfold cached
  refine wp_if (fun _ => ?_) fun _ => ⟨rfl, fun _ h => nomatch h⟩
  apply Monitor.wp_perform
  · rfl
  · intro r _
    match r with
    | .error e => exact ⟨Bool.or_false _, fun _ h => nomatch h⟩
    | .ok none => exact ⟨Bool.or_false _, fun _ h => nomatch h⟩
    | .ok (some record) => exact ⟨rfl, fun _ h => by cases h; rfl⟩

/-- The value that is returned was found in the cache or in the table. -/
theorem reading_findById :
    (findById D id).wp (reading id).protocol (fun r v' => v'.owes = v.owes ∧
      ∀ value, r = .ok value → v'.value = some value) v := by
  unfold findById
  rw [wp_bind]
  refine wp_mono reading_cached ?_
  rintro r v' ⟨howes, hhit⟩
  match r with
  | .error e => exact ⟨howes, fun _ h => nomatch h⟩
  | .ok (some record) =>
    refine ⟨howes, ?_⟩
    rintro value ⟨⟩
    exact hhit record rfl
  | .ok none =>
    show (findStored D id).wp _ _ _
    unfold findStored
    rw [wp_bind]
    apply Monitor.wp_perform
    · rfl
    · intro r _
      match r with
      | .error e =>
        refine ⟨?_, fun _ h => nomatch h⟩
        show (v'.owes || false) = v.owes
        rw [Bool.or_false, howes]
      | .ok none =>
        refine ⟨howes, ?_⟩
        rintro value ⟨⟩
        rfl
      | .ok (some row) =>
        dsimp only
        -- a row read from the table is written back to the cache, which must not change the value
        unfold remember
        rw [wp_bind, wp_ite]
        refine ⟨fun _ => ?_, fun _ => ⟨howes, ?_⟩⟩
        · apply Monitor.wp_perform
          · exact ⟨rfl, rfl⟩
          · intro r _
            have howes' : (v'.owes || false) = v.owes := by rw [Bool.or_false, howes]
            cases r with
            | error e => exact ⟨howes', fun _ h => nomatch h⟩
            | ok _ =>
              refine ⟨howes', ?_⟩
              rintro value ⟨⟩
              rfl
        · rintro value ⟨⟩
          rfl

/-- The eviction pays what was owed. -/
theorem reading_invalidate (hcache : D.cache = true) :
    (invalidate D id).wp (reading id).protocol (fun _ v' => v'.owes = false) v := by
  unfold invalidate
  rw [if_pos hcache]
  apply Monitor.wp_perform
  · rfl
  · exact fun _ _ => rfl

/-- A program that evicts the record and then returns. -/
theorem reading_evict {α : Type} (hcache : D.cache = true) (a : α) :
    (do invalidate D id; pure a : App α).wp (reading id).protocol
      (fun r v' => ∀ a, r = .ok a → v'.owes = false) v :=
  wp_seq (reading_invalidate hcache) (fun _ _ _ _ h => nomatch h) fun _ _ howes _ _ => howes

/-- An update that returns has evicted. -/
theorem reading_update (hcache : D.cache = true) (data : EscrowData) :
    (update D id data).wp (reading id).protocol
      (fun r v' => ∀ a, r = .ok a → v'.owes = false) v := by
  unfold update
  rw [wp_bind]
  apply Monitor.wp_perform
  · trivial
  · intro r _
    cases r with
    | error e => exact fun _ h => nomatch h
    | ok row => exact reading_evict hcache _

/-- The clock is asked first. -/
theorem reading_newDate {α : Type} {p : Time → App α} {Q : Except Err α → Reading → Prop}
    (herror : ∀ e v, Q (.error e) v)
    (h : ∀ t v', v'.owes = v.owes → (p t).wp (reading id).protocol Q v') :
    (newDate >>= p).wp (reading id).protocol Q v := by
  rw [wp_bind]
  apply Monitor.wp_perform
  · trivial
  · intro r _
    cases r with
    | error e => exact herror e _
    | ok t => exact h t _ (Bool.or_false _)

/-- So has a claim of a release. -/
theorem reading_markAutoReleaseSubmitting (hcache : D.cache = true) (howes : v.owes = false) :
    (markAutoReleaseSubmitting D id).wp (reading id).protocol
      (fun r v' => ∀ a, r = .ok a → v'.owes = false) v := by
  unfold markAutoReleaseSubmitting
  refine reading_newDate (fun _ _ _ h => nomatch h) fun t v' hv' => ?_
  rw [wp_bind]
  apply Monitor.wp_perform
  · trivial
  · intro r _
    cases r with
    | error e => exact fun _ h => nomatch h
    | ok count =>
      apply wp_if
      · -- nothing was written, and nothing is owed
        intro hcount _ _
        show (v'.owes || (decide (id = id) && decide (count ≠ 0))) = false
        simp [hv', howes, hcount]
      · intro _
        refine wp_seq reading_findById (fun _ _ _ _ h => nomatch h) ?_
        intro result v' _
        exact reading_evict hcache _

/-- And one of a delivery. -/
theorem reading_claimDelivery (hcache : D.cache = true) (howes : v.owes = false) :
    (claimDelivery D id).wp (reading id).protocol
      (fun r v' => ∀ a, r = .ok a → v'.owes = false) v := by
  unfold claimDelivery
  rw [wp_bind]
  apply Monitor.wp_perform
  · rfl
  · intro r _
    match r with
    | .error e => exact fun _ h => nomatch h
    | .ok none => exact fun _ _ => howes
    | .ok (some escrow) =>
      refine wp_if (fun _ _ _ => howes) fun _ => ?_
      refine reading_newDate (fun _ _ _ h => nomatch h) fun t v' hv' => ?_
      refine wp_seq (reading_update hcache _) (fun _ _ _ _ h => nomatch h) ?_
      intro result v'' hdone _ _
      exact hdone result rfl

/-- Each call on the repository keeps its promise. -/
theorem reading_body (hcache : D.cache = true) (op : RepoOp) :
    (op.body D id).wp (reading id).protocol (Reading.Promised op) ((reading id).init op) := by
  cases op with
  | findById => exact wp_mono reading_findById fun _ _ h value hr => ⟨h.1, h.2 value hr⟩
  | markShipped trackingId =>
    exact reading_newDate (fun _ _ _ h => nomatch h) fun _ _ _ => reading_update hcache _
  | markTrackingChecked =>
    exact reading_newDate (fun _ _ _ h => nomatch h) fun _ _ _ => reading_update hcache _
  | recordAutoReleaseSubmission txHash =>
    exact reading_newDate (fun _ _ _ h => nomatch h) fun _ _ _ => reading_update hcache _
  | markCancelled =>
    exact reading_newDate (fun _ _ _ h => nomatch h) fun _ _ _ => reading_update hcache _
  | markAutoReleaseSubmitting => exact reading_markAutoReleaseSubmitting hcache rfl
  | claimDelivery => exact reading_claimDelivery hcache rfl
  | _ => exact reading_update hcache _

theorem Reading.Promised.evicted {op : RepoOp} {a : op.Result} (h : Promised op (.ok a) v) :
    v.owes = false := by
  cases op with
  | findById => exact (h a rfl).1
  | _ => exact h a rfl

end programs

/-! ## One call -/

section calls

variable {id : String} {v : Reading} {c : Call} {ch : Choice} {w : World}

/-- What a call on the repository learns from one of its calls. -/
inductive ReadStep (id : String) (v : Reading) : (c : Call) → Except Err c.Resp → Reading → Prop
  | hit (id' : String) (record : EscrowRecord) :
      ReadStep id v (.cache (.getEscrow id')) (.ok (some record)) ⟨some (some record), none, v.owes⟩
  | row (id' : String) (row : Option EscrowRow) :
      ReadStep id v (.db (.escrowFindUnique id')) (.ok row)
        ⟨some (row.map toEscrowRecord), row.map toEscrowRecord, v.owes⟩
  | evicted (id' : String) (r : Except Err Unit) :
      ReadStep id v (.cache (.delEscrow id')) r ⟨v.value, none, false⟩
  | other (c : Call) (r : Except Err c.Resp) :
      ReadStep id v c r ⟨v.value, none, v.owes || wroteRow id c r⟩

/-- The ways in which one answer changes what is known. -/
theorem readStep (id : String) (v : Reading) (c : Call) (r : Except Err c.Resp) :
    ReadStep id v c r (v.next id c r) := by
  unfold Reading.next
  split
  · exact .hit _ _
  · exact .row _ _
  · exact .evicted _ _
  · exact .other _ _

/-- A write owes an eviction. -/
theorem owes_of_wrote {r : Except Err c.Resp} (h : wroteRow id c r = true) :
    (v.next id c r).owes = true := by
  have hstep := readStep id v c r
  generalize v.next id c r = v' at hstep ⊢
  cases hstep with
  | hit id' record => cases h
  | row id' row => cases h
  | evicted id' r => cases h
  | other c r =>
    show (v.owes || wroteRow id c r) = true
    rw [h, Bool.or_true]

/-- Only an eviction pays it. -/
theorem evicts_of_owes {r : Except Err c.Resp} (howes : v.owes = true)
    (h : (v.next id c r).owes ≠ true) : ∃ id', c = .cache (.delEscrow id') := by
  have hstep := readStep id v c r
  generalize v.next id c r = v' at hstep h
  cases hstep with
  | hit id' record => exact absurd howes h
  | row id' row => exact absurd howes h
  | evicted id' r => exact ⟨id', rfl⟩
  | other c r =>
    have hkept : (v.owes || wroteRow id c r) = true := by rw [howes, Bool.true_or]
    exact absurd hkept h

/-- What is read from the table is the current version. -/
theorem version_of_find {id' : String} {row : Option EscrowRow}
    (h : (handle ch (.db (.escrowFindUnique id')) w).1 = .ok row) :
    w.version id' = row.map toEscrowRecord := by
  rcases handle_findUnique ch w id' with ⟨e, heq⟩ | heq
  · rw [heq] at h
    cases h
  · rw [heq] at h
    cases h
    rfl

/-- What has just been read from the table is its version. -/
theorem fresh_next {record : EscrowRecord} (hok : v.ok id c)
    (h : (v.next id c (handle ch c w).1).fresh = some record) : w.version id = some record := by
  have hstep := readStep id v c (handle ch c w).1
  generalize v.next id c (handle ch c w).1 = v' at hstep h
  generalize hr : (handle ch c w).1 = r at hstep
  cases hstep with
  | hit id' record => cases h
  | evicted id' r => cases h
  | other c r => cases h
  | row id' row =>
    obtain rfl : id' = id := hok
    rw [version_of_find hr]
    exact h

/-- What is read was read before, is cached, or is the current version. -/
theorem value_next {value : Option EscrowRecord} (hok : v.ok id c)
    (h : (v.next id c (handle ch c w).1).value = some value) :
    v.value = some value ∨ (∃ record, value = some record ∧ w.cache.escrow id = some record) ∨
      w.version id = value := by
  have hstep := readStep id v c (handle ch c w).1
  generalize v.next id c (handle ch c w).1 = v' at hstep h
  generalize hr : (handle ch c w).1 = r at hstep
  cases hstep with
  | evicted id' r => exact .inl h
  | other c r => exact .inl h
  | row id' row =>
    obtain rfl : id' = id := hok
    rw [version_of_find hr]
    exact .inr (.inr (Option.some.inj h))
  | hit id' record =>
    obtain rfl : id' = id := hok
    refine .inr (.inl ⟨record, (Option.some.inj h).symm, ?_⟩)
    have hread : (if ch.miss then none else w.cache.escrow id') = some record := Except.ok.inj hr
    split at hread
    · cases hread
    · exact hread

end calls

/-! ## From the eviction on

Whoever reads later reads the version that was written, or a later one. -/

/-- Whatever is cached, is about to be cached, or was read by a thread from the `n`th on, is one of
the versions `V`. -/
structure UpToDate (id : String) (V : Option EscrowRecord → Prop) (n : Nat) (P : Repository) :
    Prop where
  cached : ∀ record, P.state.cache.escrow id = some record → V (some record)
  put : ∀ t ∈ P.threads, ∀ record, t.inFlight = some (.cache (.setEscrow id record)) →
    V (some record)
  read : ∀ j t value, n ≤ j → P.threads[j]? = some t → ((reading id).view t).value = some value →
    V value

section runs

variable {D : Deployment} {id : String} {V : Option EscrowRecord → Prop} {n : Nat} {P : Repository}

/-- The calls on the repository do as they promise in every run. -/
theorem repository_returns (hcache : D.cache = true) (id : String) (w : World)
    (ms : List (Move world RepoOp)) :
    (reading id).Returns (RepoOp.body D id) Reading.Promised (repositoryRun D id w ms) := by
  have hrun := (reading id).run_returns (γ := Unit) (K := fun _ _ => True) (M := world)
    (RepoOp.body D id) Reading.Promised (fun _ _ => []) (I := fun _ _ => True)
    (reading_body hcache) (fun _ _ _ _ _ => trivial) (fun _ _ _ _ _ => trivial)
    (fun _ _ _ _ _ _ _ _ _ _ _ _ _ => ⟨trivial, trivial⟩) ms ⟨w, []⟩ []
    (Pool.admissible_of_forall (fun _ _ => trivial) ms) (Monitor.returns_nil (M := world) w) trivial
  exact hrun.1

/-- A call that begins now knows nothing yet. -/
theorem upToDate_spawn (h : UpToDate id V n P) {op : RepoOp} (prog : RepoOp → App Unit)
    (hobeyed : (reading id).Obeyed { P with threads := P.threads ++ [⟨op, [], prog op⟩] }) :
    UpToDate id V n { P with threads := P.threads ++ [⟨op, [], prog op⟩] } where
  cached := h.cached
  put := by
    intro t ht record hput
    rcases Pool.mem_spawn ht with hold | rfl
    · exact h.put t hold record hput
    · -- the newcomer has read nothing yet
      have hfresh := (hobeyed.inFlight ht hput).2
      cases hfresh
  read := by
    intro j t value hj ht hvalue
    rcases Pool.spawn_threads_cases ht with hold | ⟨_, rfl⟩
    · exact h.read j t value hj hold hvalue
    · cases hvalue

/-- One step of one thread; its own reads are judged by `ReadStep` -/
theorem upToDate_advance (h : UpToDate id V n P) {i : Nat} {ch : Choice}
    {t : Thread backend RepoOp} {c : Call} {k : Except Err c.Resp → App Unit}
    (hV : V (P.state.version id)) (hok : ((reading id).view t).ok id c)
    (hobeyed' : (reading id).Obeyed (P.advance i t c k ch)) (ht : P.threads[i]? = some t)
    (hr : t.rest = .call c k) : UpToDate id V n (P.advance i t c k ch) where
  cached := by
    intro record hcached
    rcases cached_handle hcached with rfl | hbefore
    · exact h.put t (List.mem_of_getElem? ht) record (Thread.inFlight_of_rest hr)
    · exact h.cached record hbefore
  put := by
    intro t' ht' record hput
    have hfresh := (hobeyed'.inFlight ht' hput).2
    rcases Pool.mem_advance ht' with rfl | hold
    · -- what the mover is about to put, it has just read
      rw [Monitor.view_cons (q := t.rest)] at hfresh
      rw [← fresh_next hok hfresh]
      exact hV
    · exact h.put t' hold record hput
  read := by
    intro j t' value hj ht' hvalue
    rcases Pool.advance_threads_cases ht' with ⟨rfl, rfl⟩ | ⟨_, hold⟩
    · rw [Monitor.view_cons (q := t.rest)] at hvalue
      rcases value_next hok hvalue with
        hbefore | ⟨record, rfl, hcached⟩ | hcurrent
      · exact h.read j t value hj ht hbefore
      · exact h.cached record hcached
      · rw [← hcurrent]
        exact hV
    · exact h.read j t' value hj hold hvalue

/-- While the row only takes versions of `V`, everything stays up to date. -/
theorem upToDate_run (hcache : D.cache = true) {ms : List (Move world RepoOp)}
    (hV : Pool.Admissible (fun op => (op.body D id).void)
      (fun (P : Repository) _ => V (P.state.version id)) P ms)
    (hreturns : (reading id).Returns (RepoOp.body D id) Reading.Promised P)
    (h : UpToDate id V n P) :
    UpToDate id V n (Pool.run (fun op => (op.body D id).void) P ms) := by
  have hrun := (reading id).run_returns (γ := Unit) (M := world)
    (K := fun (P : Repository) _ => V (P.state.version id)) (RepoOp.body D id) Reading.Promised
    (fun _ _ => []) (I := fun _ P =>
      (reading id).Returns (RepoOp.body D id) Reading.Promised P ∧ UpToDate id V n P)
    (reading_body hcache) ?_ ?_ ?_ ms P [] hV hreturns ⟨hreturns, h⟩
  · exact hrun.2.2
  · intro P mv seen _ hboth
    exact hboth
  · intro P op seen _ hboth
    have hspawned := Monitor.returns_spawn hboth.1 (reading_body hcache op)
    exact ⟨hspawned, upToDate_spawn hboth.2 (fun op => (op.body D id).void) hspawned.obeyed⟩
  · intro P i ch t c k seen hV hboth hreturns ht hr hok
    have hnext : (reading id).Returns (RepoOp.body D id) Reading.Promised (P.advance i t c k ch) :=
      Monitor.returns_advance hreturns ht hr trivial
    exact ⟨trivial, hnext, upToDate_advance hboth.2 hV hok hnext.obeyed ht hr⟩

/-- Right after an eviction that overtakes nobody. -/
theorem upToDate_evict {i : Nat} {ch : Choice} {t : Thread backend RepoOp}
    {k : Except Err Unit → App Unit} (hV : V (P.state.version id)) (hlost : ch.lost = false)
    (hcurrent : ∀ t ∈ P.threads, putsStale id P.state t.inFlight = false)
    (hobeyed : (reading id).Obeyed (P.advance i t (.cache (.delEscrow id)) k ch)) :
    UpToDate id V P.threads.length (P.advance i t (.cache (.delEscrow id)) k ch) where
  cached := by
    intro record hcached
    have hcached : (handle ch (.cache (.delEscrow id)) P.state).2.cache.escrow id = some record :=
      hcached
    rw [cached_delEscrow, if_pos ⟨hlost, rfl⟩] at hcached
    cases hcached
  put := by
    intro t' ht' record hput
    rcases Pool.mem_advance ht' with rfl | hold
    · -- whoever has just evicted has read nothing
      have hfresh := (hobeyed.inFlight ht' hput).2
      cases hfresh
    · have hstale := hcurrent t' hold
      rw [hput] at hstale
      have hversion : P.state.version id = some record := by simpa [putsStale] using hstale
      rw [← hversion]
      exact hV
  read := by
    intro j t' value hj ht' _
    -- there is no such thread yet
    have hlt := (List.getElem?_eq_some_iff.mp ht').1
    rw [Pool.advance, List.length_set] at hlt
    omega

/-- The thread has written the row and not evicted the record. -/
def Owing (id : String) (i : Nat) (P : Repository) : Prop :=
  ∃ t, P.threads[i]? = some t ∧ ((reading id).view t).owes = true

/-- A thread stops owing an eviction when it evicts. -/
theorem owing_ends {prog : RepoOp → App Unit} {i : Nat} {mv : Move world RepoOp}
    (hobeyed : (reading id).Obeyed P) (h : Owing id i P)
    (hend : ¬ Owing id i (Pool.next prog P mv)) :
    ∃ ch t k, mv = .step i ch ∧ P.threads[i]? = some t ∧
      t.rest = .call (.cache (.delEscrow id)) k ∧
      Pool.next prog P mv = P.advance i t (.cache (.delEscrow id)) k ch := by
  obtain ⟨t, ht, howes⟩ := h
  rcases Pool.next_cases prog P mv with
    hsame | ⟨op, _, hnext⟩ | ⟨j, ch, u, c, k, hmv, hu, hr, hnext⟩
  · rw [hsame] at hend
    exact absurd ⟨t, ht, howes⟩ hend
  · rw [hnext] at hend
    refine absurd ⟨t, ?_, howes⟩ hend
    show (P.threads ++ _)[i]? = some t
    rw [List.getElem?_append_left (List.getElem?_eq_some_iff.mp ht).1]
    exact ht
  · by_cases hij : i = j
    · subst hij
      obtain rfl : t = u := Option.some.inj (ht.symm.trans hu)
      have hstop : (((reading id).view t).next id c (handle ch c P.state).1).owes ≠ true := by
        intro hstill
        rw [hnext] at hend
        refine hend ⟨_, List.getElem?_set_self (List.getElem?_eq_some_iff.mp ht).1, hstill⟩
      obtain ⟨id', rfl⟩ := evicts_of_owes howes hstop
      obtain rfl : id' = id :=
        hobeyed.inFlight (List.mem_of_getElem? ht) (Thread.inFlight_of_rest hr)
      exact ⟨ch, t, k, hmv, ht, hr, hnext⟩
    · rw [hnext] at hend
      refine absurd ⟨t, ?_, howes⟩ hend
      show (P.threads.set j _)[i]? = some t
      rw [List.getElem?_set_ne (Ne.symm hij)]
      exact ht

/-- A call on the repository that has returned owes no eviction. -/
theorem not_owing_of_returned {i : Nat} {t : Thread backend RepoOp}
    (hreturns : (reading id).Returns (RepoOp.body D id) Reading.Promised P)
    (ht : P.threads[i]? = some t) (hdone : t.outcome = some (.ok ())) : ¬ Owing id i P := by
  rintro ⟨t', ht', howes⟩
  obtain rfl : t = t' := Option.some.inj (ht.symm.trans ht')
  obtain ⟨r, hr, hok⟩ := hreturns.settled (List.mem_of_getElem? ht) hdone
  cases r with
  | error e => cases hok
  | ok a =>
    have hevicted := (hreturns.returned (List.mem_of_getElem? ht) hr).evicted
    rw [howes] at hevicted
    cases hevicted

/-- The writer owes an eviction right after its write. -/
theorem owing_of_writes {prog : RepoOp → App Unit} {i : Nat} {ch : Choice}
    (h : writesRow id P i ch = true) : Owing id i (Pool.next prog P (.step i ch)) := by
  unfold writesRow at h
  split at h
  · cases h
  · next c hc =>
    obtain ⟨t, ht, hcall⟩ := Option.bind_eq_some_iff.mp hc
    unfold Thread.inFlight at hcall
    split at hcall
    · cases hcall
    · next c' k hr =>
      cases hcall
      rw [Pool.next_step prog ch ht hr]
      exact ⟨_, List.getElem?_set_self (List.getElem?_eq_some_iff.mp ht).1, owes_of_wrote h⟩

/-- From an eviction that overtakes nobody to the end of a run, where `V` has all the versions from
the eviction on. -/
theorem upToDate_since (hcache : D.cache = true) {w : World} {xs ys : List (Move world RepoOp)}
    {i : Nat} {ch : Choice} {t : Thread backend RepoOp} {k : Except Err Unit → App Unit}
    (hV : ∀ c rest, Move.step i ch :: ys = c ++ rest →
      V ((repositoryRun D id w (xs ++ c)).state.version id))
    (ht : (repositoryRun D id w xs).threads[i]? = some t)
    (hr : t.rest = .call (.cache (.delEscrow id)) k) (hlost : ch.lost = false)
    (hcurrent : ∀ t ∈ (repositoryRun D id w xs).threads,
      putsStale id (repositoryRun D id w xs).state t.inFlight = false) :
    UpToDate id V (repositoryRun D id w xs).threads.length
      (repositoryRun D id w (xs ++ .step i ch :: ys)) := by
  have hnext : repositoryRun D id w (xs ++ [.step i ch]) =
      (repositoryRun D id w xs).advance i t (.cache (.delEscrow id)) k ch := by
    rw [repositoryRun, Pool.run_append]
    exact Pool.next_step (fun op => (op.body D id).void) ch ht hr
  have hreturns := repository_returns hcache id w (xs ++ [.step i ch])
  have hevicted : UpToDate id V (repositoryRun D id w xs).threads.length
      (repositoryRun D id w (xs ++ [.step i ch])) := by
    have hfirst := hV [] (.step i ch :: ys) rfl
    rw [List.append_nil] at hfirst
    rw [hnext] at hreturns ⊢
    exact upToDate_evict hfirst hlost hcurrent hreturns.obeyed
  -- and then along the rest of the run
  have hrest : repositoryRun D id w (xs ++ .step i ch :: ys) =
      Pool.run (fun op => (op.body D id).void) (repositoryRun D id w (xs ++ [.step i ch])) ys := by
    rw [List.append_cons, repositoryRun, Pool.run_append]
    rfl
  rw [hrest]
  refine upToDate_run hcache (Pool.admissible_of_split ?_) hreturns hevicted
  intro c m rest hys
  have hlater := hV (.step i ch :: c) (m :: rest) (by rw [hys, List.cons_append])
  rw [List.append_cons, repositoryRun, Pool.run_append] at hlater
  exact hlater

/-- A `findById` that is started after a mutator has returned answers a version of the row that is
not older than what the mutator wrote: the row was so after the write or after some later move. -/
theorem cached_reads_move_forward (hcache : D.cache = true) (w : World)
    (a b ms : List (Move world RepoOp)) (i j : Nat) (ch : Choice) (t u : Thread backend RepoOp)
    (value : Option EscrowRecord)
    (hsucceeds : ∀ m ∈ a ++ .step i ch :: (b ++ ms), CacheSucceeds m)
    (hadm : Pool.Admissible (fun op => (op.body D id).void) (EvictsCurrent id) ⟨w, []⟩
      (a ++ .step i ch :: (b ++ ms)))
    (hwrites : writesRow id (repositoryRun D id w a) i ch = true)
    (ht : (repositoryRun D id w (a ++ .step i ch :: b)).threads[i]? = some t)
    (hdone : t.outcome = some (.ok ()))
    (hlater : (repositoryRun D id w (a ++ .step i ch :: b)).threads.length ≤ j)
    (hu : (repositoryRun D id w (a ++ .step i ch :: (b ++ ms))).threads[j]? = some u)
    (hlabel : u.label = .findById)
    (hread : u.returned (EscrowRepository.findById D id) = some (.ok value)) :
    ∃ c rest, b ++ ms = c ++ rest ∧
      value = (repositoryRun D id w (a ++ .step i ch :: c)).state.version id := by
  have hsplit : ∀ c, repositoryRun D id w (a ++ .step i ch :: c) =
      Pool.run (fun op => (op.body D id).void)
        (Pool.next (fun op => (op.body D id).void) (repositoryRun D id w a) (.step i ch)) c :=
    fun c => Pool.run_append a (.step i ch :: c)
  -- between its write and its return the mutator evicts the record
  have hnot := not_owing_of_returned (repository_returns hcache id w _) ht hdone
  rw [hsplit] at hnot
  obtain ⟨before, mv, after, rfl, howing, hend⟩ := Pool.run_ends (owing_of_writes hwrites) hnot
  rw [← hsplit] at howing hend
  have hbefore := repository_returns hcache id w (a ++ .step i ch :: before)
  obtain ⟨ch', t', k, rfl, ht', hr, hnext⟩ := owing_ends hbefore.obeyed howing hend
  -- from there on everything is up to date with the versions since the write
  have hmoves : a ++ .step i ch :: (before ++ .step i ch' :: after ++ ms) =
      (a ++ .step i ch :: before) ++ .step i ch' :: (after ++ ms) := by simp
  rw [hmoves] at hadm hsucceeds hu
  have hlost : ch'.lost = false := hsucceeds (.step i ch') (by simp)
  have hcurrent := (Pool.admissible_append.mp hadm).2.1
    (by rw [← repositoryRun, ht']; exact Thread.inFlight_of_rest hr)
  have hversions : ∀ c rest, .step i ch' :: (after ++ ms) = c ++ rest →
      ∃ c' rest', before ++ .step i ch' :: after ++ ms = c' ++ rest' ∧
        (repositoryRun D id w (a ++ .step i ch :: before ++ c)).state.version id =
          (repositoryRun D id w (a ++ .step i ch :: c')).state.version id := by
    intro c rest hc
    refine ⟨before ++ c, rest, ?_, ?_⟩
    · rw [List.append_assoc, List.append_assoc, ← hc, List.cons_append]
    · rw [List.append_assoc, List.cons_append]
  have hsince := upToDate_since (V := fun value =>
    ∃ c rest, before ++ .step i ch' :: after ++ ms = c ++ rest ∧
      value = (repositoryRun D id w (a ++ .step i ch :: c)).state.version id) hcache hversions ht'
    hr hlost hcurrent
  -- the reader was started later still
  have hstarted : (repositoryRun D id w (a ++ .step i ch :: before)).threads.length ≤ j := by
    refine Nat.le_trans ?_ hlater
    rw [← List.cons_append, ← List.append_assoc]
    rw [repositoryRun, repositoryRun, Pool.run_append (a ++ .step i ch :: before)]
    exact Pool.length_threads_run _
  have hreturns := repository_returns hcache id w
    (a ++ .step i ch :: before ++ .step i ch' :: (after ++ ms))
  obtain ⟨label, past, left⟩ := u
  obtain rfl : label = .findById := hlabel
  have hvalue := hreturns.returned (List.mem_of_getElem? hu) hread
  exact hsince.read j _ value hstarted hu (hvalue value rfl).2

end runs

/-- A reader starts, misses, reads the row and fills the cache. -/
def readAfterReturn : List (Move world RepoOp) :=
  [.spawn .findById, .step 1 .calm, .step 1 .calm, .step 1 .calm]

/-- The read that follows an update misses, and fills the cache. -/
theorem read_after_funding :
    ∃ c rest, [.step 0 .calm] ++ readAfterReturn = c ++ rest ∧
      some (toEscrowRecord (Db.lampEscrow .FUNDED)) =
        (repositoryRun .cached "e1" (World.ofEscrows [Db.lampEscrow .CREATED])
          ([.spawn (.updateState .FUNDED)] ++ .step 0 .calm :: c)).state.version "e1" := by
  have hmutator : ((repositoryRun .cached "e1" (World.ofEscrows [Db.lampEscrow .CREATED])
      ([.spawn (.updateState .FUNDED)] ++ .step 0 .calm :: [.step 0 .calm])).threads[0]?).bind
        Thread.outcome = some (.ok ()) := by decide +kernel
  obtain ⟨t, ht, hdone⟩ := Option.bind_eq_some_iff.mp hmutator
  have hreader : ((repositoryRun .cached "e1" (World.ofEscrows [Db.lampEscrow .CREATED])
      ([.spawn (.updateState .FUNDED)] ++ .step 0 .calm :: ([.step 0 .calm] ++
        readAfterReturn))).threads[1]?).bind
        (fun u => if u.label = .findById then u.returned (findById .cached "e1") else none) =
          some (.ok (some (toEscrowRecord (Db.lampEscrow .FUNDED)))) := by decide +kernel
  obtain ⟨u, hu, hread⟩ := Option.bind_eq_some_iff.mp hreader
  split at hread
  · next hlabel =>
    exact cached_reads_move_forward rfl (World.ofEscrows [Db.lampEscrow .CREATED])
      [.spawn (.updateState .FUNDED)] [.step 0 .calm] readAfterReturn 0 1 .calm t u
      (some (toEscrowRecord (Db.lampEscrow .FUNDED))) (by decide +kernel) (by decide +kernel)
      (by decide +kernel) ht hdone (by decide +kernel) hu hlabel hread
  · cases hread

/-- A reader misses and reads the row, and a mutator starts. -/
def missThenMutator : List (Move world RepoOp) :=
  [.spawn .findById, .step 0 .calm, .step 0 .calm, .spawn (.updateState .FUNDED)]

/-- The mutator, which has written the row, evicts the record. -/
def evicts : List (Move world RepoOp) := [.step 1 .calm]

/-- The reader puts what it has read into the cache, and another one reads. -/
def putThenRead : List (Move world RepoOp) := [.step 0 .calm, .spawn .findById, .step 2 .calm]

/-- A reader misses and reads the row; the row is updated and the record evicted; the reader puts
the old record into the cache. Whoever reads now gets a version the row no longer has. -/
theorem stale_read_after_update :
    let run := repositoryRun .cached "e1" (World.ofEscrows [Db.lampEscrow .CREATED])
    let returned := run (missThenMutator ++ .step 1 .calm :: evicts)
    let read := run (missThenMutator ++ .step 1 .calm :: (evicts ++ putThenRead))
    (∀ m ∈ missThenMutator ++ .step 1 .calm :: (evicts ++ putThenRead), CacheSucceeds m) ∧
    writesRow "e1" (run missThenMutator) 1 .calm = true ∧
    (returned.threads[1]?).bind Thread.outcome = some (.ok ()) ∧
    returned.threads.length ≤ 2 ∧
    (read.threads[2]?).map Thread.label = some .findById ∧
    (read.threads[2]?).bind (Thread.returned · (findById .cached "e1")) =
      some (.ok (some (toEscrowRecord (Db.lampEscrow .CREATED)))) ∧
    ∀ c rest, evicts ++ putThenRead = c ++ rest →
      (run (missThenMutator ++ .step 1 .calm :: c)).state.version "e1" ≠
        some (toEscrowRecord (Db.lampEscrow .CREATED)) := by
  refine ⟨by decide +kernel, by decide +kernel, by decide +kernel, by decide +kernel,
    by decide +kernel, by decide +kernel, ?_⟩
  have hversions : ∀ c ∈ (evicts ++ putThenRead).inits,
      (repositoryRun .cached "e1" (World.ofEscrows [Db.lampEscrow .CREATED])
        (missThenMutator ++ .step 1 .calm :: c)).state.version "e1" ≠
        some (toEscrowRecord (Db.lampEscrow .CREATED)) := by decide +kernel
  intro c rest hc
  exact hversions c ((List.mem_inits _ _).mpr ⟨rest, hc.symm⟩)

end TrustLink
