import Mathlib.Algebra.Order.Monoid.Unbundled.WithTop
import Mathlib.Data.List.Nodup
import Mathlib.Data.Rat.Floor
import TrustLink.Model.Records
import TrustLink.Data.Lists

/-!
# TrustLink — a batch with bounded concurrency

`TrackingPollWorker.runWithConcurrency` starts a few runners over one list. A runner takes the next
item through an index that all of them share, awaits the worker's call for it, logs a failure, and
calls itself again until the list is exhausted; `Promise.all` waits for the runners.

JavaScript runs such code to its next `await` without interruption, so a batch is a machine with
four kinds of events (`BatchEvent`): the array's `map` starts one more runner, a call settles, a
runner is resumed after its call has settled, and the returned promise resolves. Which call settles
when, and how, is the environment's choice.

Everything about a run follows from `Batch.Inv`, kept by every event, and from `Batch.remaining`,
which every event lowers by one.
-/

namespace TrustLink

/-! ## The machine -/

/-- A runner between two of its awaits. -/
inductive Runner (T : Type) where
  /-- It awaits the call for the item at this position. -/
  | awaiting (item : T) (position : Nat)
  /-- The call has settled and the runner is to be resumed. -/
  | settled (item : T) (outcome : Except Err Unit)
  | returned

def Runner.isReturned {T : Type} : Runner T → Bool
  | .returned => true
  | _ => false

structure Batch (T : Type) where
  /-- The shared variable. -/
  index : Nat
  runners : List (Runner T)
  /-- The calls of the worker, in their order: the item and its position in the list. -/
  called : List (T × Nat)
  /-- The positions whose calls have settled. -/
  settled : List Nat
  /-- `tracking_poll.escrow_failed`: the item's id and the error. -/
  log : List (String × Err)
  resolved : Bool

inductive BatchEvent where
  | start
  | settle (runner : Nat) (outcome : Except Err Unit)
  | resume (runner : Nat)
  | resolve

/-- The length that `Array.from` makes of `Math.min(concurrency, items.length)`. The top element is
`Infinity`. -/
def runnerCount (concurrency : WithTop ℚ) (length : Nat) : Nat :=
  match concurrency with
  | none => length
  | some c => ⌊min c length⌋.toNat

namespace Batch

variable {T : Type}

def empty : Batch T := ⟨0, [], [], [], [], false⟩

/-- One call of `next`, up to its first `await`. -/
def next (items : List T) (s : Batch T) : Runner T × Batch T :=
  if h : s.index < items.length then
    (.awaiting items[s.index] s.index,
      { s with index := s.index + 1, called := s.called ++ [(items[s.index], s.index)] })
  else (.returned, s)

def logFailure (id : T → String) (item : T) (s : Batch T) : Except Err Unit → Batch T
  | .ok _ => s
  | .error error => { s with log := s.log ++ [(id item, error)] }

variable (id : T → String) (items : List T) (concurrency : WithTop ℚ)

def step (s : Batch T) : BatchEvent → Option (Batch T)
  | .start =>
    if s.runners.length < runnerCount concurrency items.length then
      let (runner, s') := s.next items
      some { s' with runners := s.runners ++ [runner] }
    else none
  | .settle k outcome =>
    match s.runners[k]? with
    | some (.awaiting item position) =>
      some { s with
        runners := s.runners.set k (.settled item outcome)
        settled := s.settled ++ [position] }
    | _ => none
  | .resume k =>
    -- the code that starts the runners is not interrupted
    if s.runners.length = runnerCount concurrency items.length then
      match s.runners[k]? with
      | some (.settled item outcome) =>
        let (runner, s') := (s.logFailure id item outcome).next items
        some { s' with runners := s.runners.set k runner }
      | _ => none
    else none
  | .resolve =>
    if s.runners.length = runnerCount concurrency items.length ∧ s.resolved = false ∧
        s.runners.all Runner.isReturned then
      some { s with resolved := true }
    else none

/-- A run of the batch under a sequence of events. -/
def runWithConcurrency (events : List BatchEvent) : Option (Batch T) :=
  events.foldlM (step id items concurrency) empty

/-- The calls that have been made and have not settled. -/
def unsettled (s : Batch T) : List (T × Nat) :=
  s.called.filter fun call => call.2 ∉ s.settled

end Batch

/-! ## What an event can do

A step is one of the moves below; the invariant and the measure are read off them. -/

/-- No more runners than the concurrency and the items allow. -/
theorem runnerCount_le {concurrency : WithTop ℚ} (hc : 1 ≤ concurrency) (n : Nat) :
    (runnerCount concurrency n : WithTop ℚ) ≤ min concurrency n := by
  cases concurrency with
  | top => simp [runnerCount]
  | coe c =>
    have hc' : (1 : ℚ) ≤ c := WithTop.coe_le_coe.mp hc
    have hmin : 0 ≤ min c (n : ℚ) := le_min (by linarith) (Nat.cast_nonneg n)
    have hfloor : ((⌊min c (n : ℚ)⌋.toNat : Int) : ℚ) ≤ min c n := by
      rw [Int.toNat_of_nonneg (Int.floor_nonneg.mpr hmin)]
      exact Int.floor_le _
    have hcast : ((⌊min c (n : ℚ)⌋.toNat : ℚ) : WithTop ℚ) ≤ ((min c n : ℚ) : WithTop ℚ) :=
      WithTop.coe_le_coe.mpr (by exact_mod_cast hfloor)
    exact hcast

/-- With a concurrency of at least one, a list that is not empty has a runner. -/
theorem runnerCount_pos {concurrency : WithTop ℚ} (hc : 1 ≤ concurrency) {n : Nat} (hn : 0 < n) :
    0 < runnerCount concurrency n := by
  cases concurrency with
  | top => exact hn
  | coe c =>
    have hc' : (1 : ℚ) ≤ c := WithTop.coe_le_coe.mp hc
    have hn' : (1 : ℚ) ≤ n := by exact_mod_cast hn
    have hfloor : 1 ≤ ⌊min c (n : ℚ)⌋ := Int.le_floor.mpr (by exact_mod_cast le_min hc' hn')
    show 0 < ⌊min c (n : ℚ)⌋.toNat
    omega

namespace Batch

variable {T : Type} {id : T → String} {items : List T} {concurrency : WithTop ℚ} {s s' : Batch T}

/-- The runner that takes its next turn is a new one, or one whose call has settled. -/
def Turn (old : List (Runner T)) : Prop :=
  old = [] ∨ ∃ item outcome, old = [.settled item outcome]

/-- The events, by what they change. A turn of a runner ends in a new call or in its return. -/
inductive Moves (items : List T) (m : Nat) (s : Batch T) : BatchEvent → Batch T → Prop where
  | settled {l₁ l₂ : List (Runner T)} {item : T} {k position : Nat} (outcome : Except Err Unit)
      (hk : s.runners[k]? = some (.awaiting item position))
      (hrunners : s.runners = l₁ ++ [.awaiting item position] ++ l₂) :
      Moves items m s (.settle k outcome) { s with
        runners := l₁ ++ .settled item outcome :: l₂
        settled := s.settled ++ [position] }
  | called {e : BatchEvent} {l₁ old l₂ : List (Runner T)} (hrunners : s.runners = l₁ ++ old ++ l₂)
      (hturn : Turn old) (hroom : l₁.length + l₂.length < m) (log : List (String × Err))
      (hindex : s.index < items.length) :
      Moves items m s e { s with
        index := s.index + 1
        runners := l₁ ++ .awaiting items[s.index] s.index :: l₂
        called := s.called ++ [(items[s.index], s.index)]
        log := log }
  | returned {e : BatchEvent} {l₁ old l₂ : List (Runner T)} (hrunners : s.runners = l₁ ++ old ++ l₂)
      (hturn : Turn old) (hroom : l₁.length + l₂.length < m) (log : List (String × Err))
      (hindex : items.length ≤ s.index) :
      Moves items m s e { s with runners := l₁ ++ .returned :: l₂, log := log }
  | resolved (hcount : s.runners.length = m) (hopen : s.resolved = false)
      (hreturned : ∀ r ∈ s.runners, r.isReturned = true) :
      Moves items m s .resolve { s with resolved := true }

/-- A turn of a runner: what `next` does with the state the failure was logged in. -/
theorem moves_next {m : Nat} {e : BatchEvent} {l₁ old l₂ : List (Runner T)}
    (hrunners : s.runners = l₁ ++ old ++ l₂) (hturn : Turn old)
    (hroom : l₁.length + l₂.length < m) (log : List (String × Err)) :
    Moves items m s e
      { (next items { s with log := log }).2 with
        runners := l₁ ++ (next items { s with log := log }).1 :: l₂ } := by
  unfold next
  split
  · next hindex => exact .called hrunners hturn hroom log hindex
  · next hindex => exact .returned hrunners hturn hroom log (Nat.le_of_not_lt hindex)

variable (id s) in
theorem logFailure_eq (item : T) (outcome : Except Err Unit) :
    ∃ log, s.logFailure id item outcome = { s with log := log } := by
  cases outcome with
  | ok _ => exact ⟨s.log, rfl⟩
  | error e => exact ⟨_, rfl⟩

theorem moves_of_step {e : BatchEvent} (h : s.step id items concurrency e = some s') :
    Moves items (runnerCount concurrency items.length) s e s' := by
  cases e with
  | start =>
    simp only [step] at h
    split at h
    · next hroom =>
      cases h
      have hrunners : s.runners = s.runners ++ [] ++ [] := by simp
      exact moves_next hrunners (.inl rfl) hroom s.log
    · cases h
  | settle k outcome =>
    simp only [step] at h
    split at h
    · next item position hk =>
      cases h
      obtain ⟨l₁, l₂, hrunners, hset⟩ := Lists.set_around hk
      rw [hset]
      exact .settled outcome hk (hrunners.trans (List.append_cons ..))
    · cases h
  | resume k =>
    simp only [step] at h
    split at h
    · next hcount =>
      split at h
      · next item outcome hk =>
        cases h
        obtain ⟨l₁, l₂, hrunners, hset⟩ := Lists.set_around hk
        obtain ⟨log, hlog⟩ := logFailure_eq id s item outcome
        have hturn : s.runners = l₁ ++ [.settled item outcome] ++ l₂ :=
          hrunners.trans (List.append_cons ..)
        -- the runner that resumes gives up its place, so there is room for what it becomes
        have hroom : l₁.length + l₂.length < runnerCount concurrency items.length := by
          simp [hturn] at hcount
          omega
        rw [hset, hlog]
        exact moves_next hturn (.inr ⟨item, outcome, rfl⟩) hroom log
      · cases h
    · cases h
  | resolve =>
    simp only [step] at h
    split at h
    · next hall =>
      cases h
      exact .resolved hall.1 hall.2.1 (List.all_eq_true.mp hall.2.2)
    · cases h

/-- A call settles by the event that says so. -/
theorem Moves.settled_cases {m : Nat} {e : BatchEvent} (h : Moves items m s e s') :
    s'.settled = s.settled ∨ ∃ k outcome item position, e = .settle k outcome ∧
      s.runners[k]? = some (.awaiting item position) ∧ s'.settled = s.settled ++ [position] := by
  cases h with
  | settled outcome hk hrunners => exact .inr ⟨_, outcome, _, _, rfl, hk, rfl⟩
  | called hrunners hturn hroom log hindex => exact .inl rfl
  | returned hrunners hturn hroom log hindex => exact .inl rfl
  | resolved hcount hopen hreturned => exact .inl rfl

/-! ## The invariant

The items before the cursor have been called, once each; what is still to come is counted. -/

end Batch

/-- The position a runner waits for. -/
def Runner.waiting {T : Type} : Runner T → List Nat
  | .awaiting _ position => [position]
  | _ => []

/-- The events a runner has to go through before it takes its next turn. -/
def Runner.pending {T : Type} : Runner T → Nat
  | .awaiting _ _ => 2
  | .settled _ _ => 1
  | .returned => 0

namespace Batch

variable {T : Type} {id : T → String} {items : List T} {concurrency : WithTop ℚ} {s s' : Batch T}
  {m : Nat}

structure Inv (items : List T) (m : Nat) (s : Batch T) : Prop where
  called : s.called = items.zipIdx.take s.index
  index : s.index ≤ items.length
  runners : s.runners.length ≤ m
  /-- A call has settled, or a runner waits for it. -/
  positions : (s.called.map Prod.snd).Perm (s.settled ++ s.runners.flatMap Runner.waiting)
  /-- A runner returns only when there is nothing left. -/
  returned : ∀ r ∈ s.runners, r.isReturned = true → items.length ≤ s.index
  resolved : s.resolved = true →
    s.runners.length = m ∧ ∀ r ∈ s.runners, r.isReturned = true

/-- The events that are still to come. -/
def remaining (items : List T) (m : Nat) (s : Batch T) : Nat :=
  2 * (items.length - s.index) + (s.runners.map Runner.pending).sum + (m - s.runners.length)
    + (if s.resolved then 0 else 1)

theorem inv_empty : Inv items m (empty : Batch T) where
  called := rfl
  index := Nat.zero_le _
  runners := Nat.zero_le _
  positions := List.Perm.nil
  returned := by
    intro r hr
    cases hr
  resolved := by
    intro h
    cases h

/-- While a runner is to be resumed or started, the batch has not resolved. -/
theorem Inv.open_of_turn (h : Inv items m s) {l₁ old l₂ : List (Runner T)}
    (hrunners : s.runners = l₁ ++ old ++ l₂) (hturn : Turn old)
    (hroom : l₁.length + l₂.length < m) : s.resolved = false := by
  by_contra hresolved
  obtain ⟨hcount, hall⟩ := h.resolved (Bool.eq_true_of_not_eq_false hresolved)
  rcases hturn with rfl | ⟨item, outcome, rfl⟩
  · simp [hrunners] at hcount
    omega
  · have hmem := hall (.settled item outcome) (by simp [hrunners])
    cases hmem

theorem Turn.waiting {old : List (Runner T)} (h : Turn old) : old.flatMap Runner.waiting = [] := by
  rcases h with rfl | ⟨item, outcome, rfl⟩
  · rfl
  · rfl

/-- A runner that has returned is not the one that the event was about. -/
theorem mem_of_returned {l₁ old l₂ : List (Runner T)} {r r' : Runner T}
    (hr : r ∈ l₁ ++ r' :: l₂) (hreturned : r.isReturned = true) (hr' : r'.isReturned = false) :
    r ∈ l₁ ++ old ++ l₂ := by
  rcases List.mem_append.mp hr with hleft | hright
  · exact List.mem_append_left _ (List.mem_append_left _ hleft)
  · rcases List.mem_cons.mp hright with rfl | hright
    · cases hr'.symm.trans hreturned
    · exact List.mem_append_right _ hright

theorem Inv.moves {e : BatchEvent} (h : Inv items m s) (hmove : Moves items m s e s') :
    Inv items m s' := by
  cases hmove with
  | @settled l₁ l₂ item k position outcome hk hrunners =>
    have hopen : s.resolved = false := by
      by_contra hresolved
      have hmem := (h.resolved (Bool.eq_true_of_not_eq_false hresolved)).2
        (.awaiting item position) (by simp [hrunners])
      cases hmem
    refine ⟨h.called, h.index, ?_, ?_, ?_, ?_⟩
    · have hlength := h.runners
      simpa [hrunners] using hlength
    · -- the position goes from the runner to the settled ones
      have hpositions := h.positions
      simp only [hrunners, List.flatMap_append, List.flatMap_cons, Runner.waiting,
        List.singleton_append, List.nil_append, List.append_assoc]
        at hpositions ⊢
      exact hpositions.trans (List.perm_middle.append_left s.settled)
    · intro r hr hreturned
      apply h.returned r _ hreturned
      rw [hrunners]
      exact mem_of_returned hr hreturned rfl
    · intro hresolved
      cases hopen.symm.trans hresolved
  | @called e l₁ old l₂ hrunners hturn hroom log hindex =>
    have hopen := h.open_of_turn hrunners hturn hroom
    refine ⟨?_, hindex, ?_, ?_, ?_, ?_⟩
    · show s.called ++ _ = _
      rw [h.called, Lists.zipIdx_take_succ hindex]
    · show (l₁ ++ _ :: l₂).length ≤ m
      simp
      omega
    · -- the new position is waited for
      have hpositions := h.positions
      simp only [hrunners, List.flatMap_append, hturn.waiting, List.append_nil] at hpositions
      simp only [List.map_append, List.map_cons, List.map_nil, List.flatMap_append,
        List.flatMap_cons, Runner.waiting, List.singleton_append]
      refine (hpositions.append_right [s.index]).trans ?_
      rw [List.append_assoc]
      refine List.Perm.append_left s.settled ?_
      exact (List.perm_append_singleton _ _).trans List.perm_middle.symm
    · intro r hr hreturned
      have hn : items.length ≤ s.index := by
        apply h.returned r _ hreturned
        rw [hrunners]
        exact mem_of_returned hr hreturned rfl
      show items.length ≤ s.index + 1
      omega
    · intro hresolved
      cases hopen.symm.trans hresolved
  | @returned e l₁ old l₂ hrunners hturn hroom log hindex =>
    have hopen := h.open_of_turn hrunners hturn hroom
    refine ⟨h.called, h.index, ?_, ?_, fun _ _ _ => hindex, ?_⟩
    · show (l₁ ++ _ :: l₂).length ≤ m
      simp
      omega
    · have hpositions := h.positions
      simp only [hrunners, List.flatMap_append, hturn.waiting, List.append_nil] at hpositions
      simp only [List.flatMap_append, List.flatMap_cons, Runner.waiting, List.nil_append]
      exact hpositions
    · intro hresolved
      cases hopen.symm.trans hresolved
  | resolved hcount hopen hreturned =>
    exact ⟨h.called, h.index, h.runners, h.positions, h.returned, fun _ => ⟨hcount, hreturned⟩⟩

theorem Moves.remaining {e : BatchEvent} (hmove : Moves items m s e s') :
    s'.remaining items m + 1 = s.remaining items m := by
  cases hmove with
  | settled outcome hk hrunners =>
    simp [Batch.remaining, hrunners, Runner.pending]
    omega
  | called hrunners hturn hroom log hindex =>
    rcases hturn with rfl | ⟨item, outcome, rfl⟩
    · simp [Batch.remaining, hrunners, Runner.pending]
      omega
    · simp [Batch.remaining, hrunners, Runner.pending]
      omega
  | returned hrunners hturn hroom log hindex =>
    rcases hturn with rfl | ⟨item, outcome, rfl⟩
    · simp [Batch.remaining, hrunners, Runner.pending]
      omega
    · simp [Batch.remaining, hrunners, Runner.pending]
      omega
  | resolved hcount hopen hreturned =>
    simp [Batch.remaining, hopen]

/-! ## Runs -/

theorem inv_foldlM (events : List BatchEvent) :
    ∀ {s}, Inv items (runnerCount concurrency items.length) s →
      events.foldlM (step id items concurrency) s = some s' →
      Inv items (runnerCount concurrency items.length) s' ∧
        events.length + s'.remaining items (runnerCount concurrency items.length)
          = s.remaining items (runnerCount concurrency items.length) := by
  induction events with
  | nil =>
    intro s h hrun
    cases hrun
    exact ⟨h, Nat.zero_add _⟩
  | cons e events ih =>
    intro s h hrun
    obtain ⟨s₁, hstep, hrest⟩ := Option.bind_eq_some_iff.mp hrun
    have hmove := moves_of_step hstep
    obtain ⟨h', hlength⟩ := ih (h.moves hmove) hrest
    have hlower := hmove.remaining
    refine ⟨h', ?_⟩
    rw [List.length_cons]
    omega

/-- Until the batch has resolved, something can happen. -/
theorem Inv.progress (h : Inv items (runnerCount concurrency items.length) s)
    (hopen : s.resolved = false) : ∃ e s', s.step id items concurrency e = some s' := by
  rcases Nat.lt_or_eq_of_le h.runners with hroom | hcount
  · exact ⟨.start, _, if_pos hroom⟩
  · by_cases hall : s.runners.all Runner.isReturned = true
    · exact ⟨.resolve, _, if_pos ⟨hcount, hopen, hall⟩⟩
    · -- a runner that has not returned waits for its call, or for being resumed
      rw [List.all_eq_true] at hall
      push Not at hall
      obtain ⟨r, hr, hbusy⟩ := hall
      obtain ⟨k, hk⟩ := List.mem_iff_getElem?.mp hr
      cases r with
      | awaiting item position =>
        refine ⟨.settle k (.ok ()), ?_⟩
        simp only [step, hk]
        exact ⟨_, rfl⟩
      | settled item outcome =>
        refine ⟨.resume k, ?_⟩
        simp only [step, hk, if_pos hcount]
        exact ⟨_, rfl⟩
      | returned => exact absurd rfl hbusy

theorem length_waiting_le (runners : List (Runner T)) :
    (runners.flatMap Runner.waiting).length ≤ runners.length := by
  induction runners with
  | nil => exact Nat.le_refl 0
  | cons r runners ih =>
    have hr : r.waiting.length ≤ 1 := by
      cases r with
      | awaiting item position => exact Nat.le_refl 1
      | settled item outcome => exact Nat.zero_le 1
      | returned => exact Nat.zero_le 1
    rw [List.flatMap_cons, List.length_append, List.length_cons]
    omega

/-- The calls that have not settled are those the runners wait for. -/
theorem Inv.unsettled (h : Inv items m s) :
    (s.unsettled.map Prod.snd).Perm (s.runners.flatMap Runner.waiting) := by
  have hnodup : (s.called.map Prod.snd).Nodup := by
    rw [h.called, List.map_take, List.zipIdx_map_snd]
    exact List.Nodup.sublist (List.take_sublist _ _) (List.nodup_range' _)
  have hsplit := h.positions.nodup_iff.mp hnodup
  have hfilter : s.unsettled.map Prod.snd
      = (s.called.map Prod.snd).filter fun position => position ∉ s.settled := by
    rw [Batch.unsettled, List.filter_map]
    rfl
  have hsettled : s.settled.filter (fun position => position ∉ s.settled) = [] := by
    simp
  have hwaiting : (s.runners.flatMap Runner.waiting).filter
      (fun position => position ∉ s.settled) = s.runners.flatMap Runner.waiting := by
    rw [List.filter_eq_self]
    intro position hposition
    have hnot : position ∉ s.settled :=
      fun hmem => (List.nodup_append.mp hsplit).2.2 position hmem position hposition rfl
    simpa using hnot
  rw [hfilter]
  refine (h.positions.filter _).trans ?_
  rw [List.filter_append, hsettled, hwaiting, List.nil_append]

/-- When the batch has resolved, the list is exhausted and no runner waits. -/
theorem Inv.finished (h : Inv items m s) (hm : 0 < items.length → 0 < m)
    (hresolved : s.resolved = true) :
    s.index = items.length ∧ s.runners.flatMap Runner.waiting = [] := by
  obtain ⟨hcount, hall⟩ := h.resolved hresolved
  constructor
  · have hindex := h.index
    cases hrunners : s.runners with
    | nil =>
      -- without runners there were no items
      rw [hrunners] at hcount
      simp at hcount
      omega
    | cons r runners =>
      have hr : r ∈ s.runners := by simp [hrunners]
      have hn := h.returned r hr (hall r hr)
      omega
  · rw [List.flatMap_eq_nil_iff]
    intro r hr
    have hreturned := hall r hr
    cases r with
    | awaiting item position => cases hreturned
    | settled item outcome => rfl
    | returned => rfl

/-- So every call has settled. -/
theorem Inv.mem_settled (h : Inv items m s) (hm : 0 < items.length → 0 < m)
    (hresolved : s.resolved = true) {position : Nat} (hposition : position < items.length) :
    position ∈ s.settled := by
  obtain ⟨hindex, hwaiting⟩ := h.finished hm hresolved
  have hperm := h.positions
  rw [hwaiting, List.append_nil, h.called, hindex, List.map_take, List.zipIdx_map_snd] at hperm
  rw [← hperm.mem_iff, List.take_of_length_le (by simp)]
  simpa using hposition

end Batch

/-- Whatever the calls do, and in whatever order they settle: the items are called in the order of
the list and no position twice; no more than `min(concurrency, items.length)` calls are unsettled;
when the batch has resolved, every position has been called and every call has settled. A batch that
has not resolved can go on, and none goes on for ever. -/
theorem runWithConcurrency_exactly_once {T : Type} (id : T → String) (items : List T)
    {concurrency : WithTop ℚ} (hc : 1 ≤ concurrency) {events : List BatchEvent} {s : Batch T}
    (hrun : Batch.runWithConcurrency id items concurrency events = some s) :
    s.called = items.zipIdx.take s.called.length ∧
    (s.unsettled.length : WithTop ℚ) ≤ min concurrency items.length ∧
    (s.resolved = true → s.called = items.zipIdx ∧ s.unsettled = []) ∧
    (s.resolved = false → ∃ e s', s.step id items concurrency e = some s') ∧
    events.length ≤ 2 * items.length + runnerCount concurrency items.length + 1 := by
  obtain ⟨h, hlength⟩ := Batch.inv_foldlM events Batch.inv_empty hrun
  refine ⟨?_, ?_, ?_, h.progress, ?_⟩
  · have hcalled : s.called.length = s.index := by
      rw [h.called, List.length_take, List.length_zipIdx]
      exact Nat.min_eq_left h.index
    rw [hcalled]
    exact h.called
  -- an unsettled call is a runner that waits, and there are no more runners than that
  · have hunsettled : s.unsettled.length = (s.runners.flatMap Runner.waiting).length := by
      rw [← h.unsettled.length_eq, List.length_map]
    have hle : s.unsettled.length ≤ runnerCount concurrency items.length := by
      rw [hunsettled]
      exact (Batch.length_waiting_le s.runners).trans h.runners
    calc (s.unsettled.length : WithTop ℚ)
        ≤ (runnerCount concurrency items.length : WithTop ℚ) := by exact_mod_cast hle
      _ ≤ min concurrency items.length := runnerCount_le hc items.length
  · intro hresolved
    obtain ⟨hindex, hwaiting⟩ := h.finished (runnerCount_pos hc) hresolved
    constructor
    · rw [h.called, hindex, List.take_of_length_le (by rw [List.length_zipIdx])]
    · have hperm := h.unsettled
      rw [hwaiting, List.perm_nil, List.map_eq_nil_iff] at hperm
      exact hperm
  -- the measure that every event lowers is at the bound when the batch begins
  · have hempty : (Batch.empty : Batch T).remaining items (runnerCount concurrency items.length)
        = 2 * items.length + runnerCount concurrency items.length + 1 := rfl
    omega

/-- Three items, two at a time. The second call settles first, the first one fails. -/
theorem runWithConcurrency_exactly_once_three :
    let events := [BatchEvent.start, .start, .settle 1 (.ok ()), .resume 1,
      .settle 0 (.error (.error "no answer")), .resume 0, .settle 1 (.ok ()), .resume 1, .resolve]
    ∃ s : Batch String,
      Batch.runWithConcurrency (fun id => id) ["a", "b", "c"] (2 : ℚ) events = some s ∧
      s.log = [("a", .error "no answer")] ∧ s.called = ["a", "b", "c"].zipIdx ∧
      s.unsettled = [] := by
  intro events
  have hrun : ∃ s : Batch String,
      Batch.runWithConcurrency (fun id => id) ["a", "b", "c"] (2 : ℚ) events = some s ∧
      s.log = [("a", .error "no answer")] ∧ s.resolved = true := ⟨_, rfl, rfl, rfl⟩
  obtain ⟨s, hrun, hlog, hresolved⟩ := hrun
  have hc : (1 : WithTop ℚ) ≤ (2 : ℚ) := by exact_mod_cast (by norm_num : (1 : ℚ) ≤ 2)
  have hfacts := runWithConcurrency_exactly_once (fun id => id) ["a", "b", "c"] hc hrun
  obtain ⟨-, -, hfinished, -, -⟩ := hfacts
  exact ⟨s, hrun, hlog, hfinished hresolved⟩

end TrustLink
