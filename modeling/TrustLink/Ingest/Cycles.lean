import TrustLink.Ingest.Chain

/-!
# TrustLink — what one poll can do

The poller seen from outside, one poll after the other: which page it was given, for which events it
called `syncStateFromChain`, and what it left in the store and in its memory. `EventStep`,
`BatchStep`, `FetchStep` and `PollStep` say everything an event, a batch and a poll can leave,
whatever the environment `A` may choose; `pollStep_cycle` says that a poll does one of these things.
What holds over many polls is then proved from the constructors, without the programs: that no event
is skipped, that events are applied in order, and that none of them holds up the others for long.
-/

namespace TrustLink

open Effects JsNumber Store SorobanPollerService CursorService

/-! ## Watching the poller

The notes are taken by the machine, call by call; the programs know nothing of them. -/

inductive IngestNote where
  | fetched (events : List SorobanRpcEvent)
  /-- `syncStateFromChain` was called for the event; `before` is the journal at the call. -/
  | attempted (source : SorobanRpcEvent) (before : List IngestObs) (failed : Bool)
  deriving DecidableEq

def ingestNote (w : IngestWorld) : (c : IngestCall) → Except Err c.Resp → List IngestNote
  | .getEvents _ _, .ok events => [.fetched (events.getD [])]
  | .syncStateFromChain source _, .ok _ => [.attempted source w.journal false]
  | .syncStateFromChain source _, .error _ => [.attempted source w.journal true]
  | _, _ => []

/-- The network, with the notes of the poll. -/
abbrev watched (E : ContractEvents) : Machine ingestion := (network E).watching ingestNote

/-- One poll, seen from outside. -/
structure PollCycle where
  before : IngestWorld
  after : IngestWorld
  notes : List IngestNote

def pollCycle (E : ContractEvents) (C : IngestConfig) (w : IngestWorld) (env : Nat → IngestChoice) :
    PollCycle :=
  let s := ((poll C).exec (watched E) env (w, [])).2
  ⟨w, s.1, s.2⟩

/-- The polls of one process. -/
def pollCycles (E : ContractEvents) (C : IngestConfig) :
    IngestWorld → List (Nat → IngestChoice) → List PollCycle
  | _, [] => []
  | w, env :: polls => pollCycle E C w env :: pollCycles E C (pollCycle E C w env).after polls

/-- The notes of all of them, newest first. -/
def allNotes (E : ContractEvents) (C : IngestConfig) :
    IngestWorld → List (Nat → IngestChoice) → List IngestNote
  | _, [] => []
  | w, env :: polls =>
    allNotes E C (pollCycle E C w env).after polls ++ (pollCycle E C w env).notes

/-- One poll after the other. The environment of each poll makes its choices. -/
def runPolls (E : ContractEvents) (C : IngestConfig) (w : IngestWorld)
    (polls : List (Nat → IngestChoice)) : IngestWorld :=
  polls.foldl (fun w env => ((poll C).exec (network E) env w).2) w

/-- Taking notes does not change what is done. -/
theorem pollCycle_after (E : ContractEvents) (C : IngestConfig) (w : IngestWorld)
    (env : Nat → IngestChoice) :
    (pollCycle E C w env).after = ((poll C).exec (network E) env w).2 :=
  exec_watching (M := network E) (poll C) env w []

/-! ## The shape of a poll

Between two writes only time passes (`Later`), so each constructor names the writes in order and
leaves the rest to it. -/

/-- The same world, perhaps with more ledgers closed. -/
structure Later (w w' : IngestWorld) : Prop where
  cursors : w'.cursors = w.cursors
  counts : w'.syncRetryCounts = w.syncRetryCounts
  journal : w'.journal = w.journal
  latest : w.latest ≤ w'.latest

theorem Later.refl {w : IngestWorld} : Later w w := ⟨rfl, rfl, rfl, Nat.le_refl _⟩

theorem Later.trans {w w₁ w' : IngestWorld} (h : Later w w₁) (h' : Later w₁ w') : Later w w' where
  cursors := h'.cursors.trans h.cursors
  counts := h'.counts.trans h.counts
  journal := h'.journal.trans h.journal
  latest := Nat.le_trans h.latest h'.latest

/-- The failed attempts that the process remembers. -/
def IngestWorld.failedAttempts (w : IngestWorld) (id : String) : Nat :=
  (w.syncRetryCounts id).getD 0

/-- A cursor is stored for the poller. -/
def IngestWorld.store (w : IngestWorld) (cursor : String) : IngestWorld :=
  { w with
    cursors := Function.update w.cursors DEFAULT_KEY (some cursor)
    journal := .stored DEFAULT_KEY cursor :: w.journal }

/-- What `CursorService` leaves: the cursor is stored, or the rejection of the write is swallowed. -/
def Stores (A : IngestChoice → Prop) (w : IngestWorld) (cursor : String) (w' : IngestWorld) : Prop :=
  Later (w.store cursor) w' ∨
    (Later w w' ∧ ∃ ch value, A ch ∧ ch.fault (.cursorUpsert DEFAULT_KEY value) ≠ none)

/-- What `CursorService` returns: a cursor that cannot be read looks like one that was never
stored. -/
def IngestWorld.read (w : IngestWorld) (ch : IngestChoice) : Option String :=
  match ch.fault (.cursorFindById DEFAULT_KEY) with
  | none => w.cursors DEFAULT_KEY
  | some _ => none

/-- A dead letter for the event: stored, or lost because the queue has rejected it. -/
def Lettered (A : IngestChoice → Prop) (raw : SorobanRpcEvent) (journal journal' : List IngestObs) :
    Prop :=
  (∃ input : DeadLetter, input.ledgerFeedback = raw.feedback ∧
    journal' = .enqueued input :: journal) ∨
  (journal' = journal ∧ ∃ ch input, A ch ∧ ch.fault (.enqueue input) ≠ none)

/-- The event can be thrown back before `syncStateFromChain` is called: it cannot be parsed, the
complaint about its id cannot be written down, or the lookup of its id is rejected. -/
def Refusable (C : IngestConfig) (A : IngestChoice → Prop) (raw : SorobanRpcEvent) : Prop :=
  ∃ ch, A ch ∧ (ch.fault (.parseEvent raw) ≠ none ∨ ∃ parsed, ch.parsed raw = some parsed ∧
    match toContractEscrowId (parsed.data.field "escrow_id") with
    | none => ∃ e, C.stringify ((parsed.data.field "escrow_id").orElse .null) = .error e
    | some id => ∃ ch', A ch' ∧ ch'.fault (.findIdByContractEscrowId id) ≠ none)

/-- What the processing of one event can leave. -/
inductive EventStep (C : IngestConfig) (A : IngestChoice → Prop) (raw : SorobanRpcEvent)
    (w : IngestWorld) : Except Err Unit → IngestWorld → List IngestNote → Prop
  | refused {e : Err} {w' : IngestWorld} (hrefusable : Refusable C A raw)
      (hw : Later w w') : EventStep C A raw w (.error e) w' []
  | lettered {journal : List IngestObs} {w' : IngestWorld}
      (hletter : Lettered A raw w.journal journal)
      (hw : Later { w with journal := journal } w') : EventStep C A raw w (.ok ()) w' []
  | synced {w' : IngestWorld}
      (hw : Later
        { w with
          syncRetryCounts := Function.update w.syncRetryCounts raw.id none
          journal := .synced raw :: w.journal } w') :
      EventStep C A raw w (.ok ()) w' [.attempted raw w.journal false]
  | retried {e : Err} {w' : IngestWorld}
      (hcount : w.failedAttempts raw.id + 1 < MAX_SYNC_RETRIES)
      (hw : Later
        { w with
          syncRetryCounts := Function.update w.syncRetryCounts raw.id
            (some (w.failedAttempts raw.id + 1)) } w') :
      EventStep C A raw w (.error e) w' [.attempted raw w.journal true]
  | exhausted {journal : List IngestObs} {w' : IngestWorld}
      (hcount : MAX_SYNC_RETRIES ≤ w.failedAttempts raw.id + 1)
      (hletter : Lettered A raw w.journal journal)
      (hw : Later
        { w with
          syncRetryCounts := Function.update w.syncRetryCounts raw.id none
          journal := journal } w') :
      EventStep C A raw w (.ok ()) w' [.attempted raw w.journal true]

/-- What a batch can leave, and the events it has dealt with. It stops at one that throws. -/
inductive BatchStep (C : IngestConfig) (A : IngestChoice → Prop) : List SorobanRpcEvent →
    IngestWorld → List SorobanRpcEvent → IngestWorld → List IngestNote → Prop
  | done {w : IngestWorld} : BatchStep C A [] w [] w []
  | stopped {raw : SorobanRpcEvent} {rest : List SorobanRpcEvent} {w w' : IngestWorld} {e : Err}
      {notes : List IngestNote} (hevent : EventStep C A raw w (.error e) w' notes) :
      BatchStep C A (raw :: rest) w [] w' notes
  | next {raw : SorobanRpcEvent} {rest handled : List SorobanRpcEvent} {w w₁ w' : IngestWorld}
      {notes notes' : List IngestNote} (hevent : EventStep C A raw w (.ok ()) w₁ notes)
      (hrest : BatchStep C A rest w₁ handled w' notes') :
      BatchStep C A (raw :: rest) w (raw :: handled) w' (notes' ++ notes)

/-- What a poll can leave once it has its cursor. -/
inductive FetchStep (E : ContractEvents) (C : IngestConfig) (A : IngestChoice → Prop)
    (cursor : String) (w : IngestWorld) : IngestWorld → List IngestNote → Prop
  | unanswered {w' : IngestWorld} (hw : Later w w') : FetchStep E C A cursor w w' []
  | quiet {m : Mark String} {w₁ w' : IngestWorld} (hmark : (eventsFrom cursor).mark = some m)
      (hw₁ : Later w w₁) (hpage : E.feed.page w₁.latest 100 m = []) (hw : Later w₁ w') :
      FetchStep E C A cursor w w' [.fetched []]
  | rewound {m : Mark String} {w₁ w₂ w' : IngestWorld} {ch : IngestChoice}
      (hmark : (eventsFrom cursor).mark = some m) (hw₁ : Later w w₁)
      (hpage : E.feed.page w₁.latest 100 m = []) (hch : A ch) (hw₂ : Later w₁ w₂)
      (hlatest : w₂.latest = w₁.latest + ch.closed .getLatestLedger)
      (hw : Stores A w₂ (ledgerCursor (marginLedger w₂.latest)) w') :
      FetchStep E C A cursor w w' [.fetched []]
  | stopped {m : Mark String} {w₁ w' : IngestWorld} {page : List SorobanRpcEvent}
      {notes : List IngestNote} (hmark : (eventsFrom cursor).mark = some m) (hw₁ : Later w w₁)
      (hpage : E.feed.page w₁.latest 100 m = page) (hbatch : BatchStep C A page w₁ [] w' notes) :
      FetchStep E C A cursor w w' (notes ++ [.fetched page])
  | advanced {m : Mark String} {w₁ w₂ w' : IngestWorld} {page handled : List SorobanRpcEvent}
      {e : SorobanRpcEvent} {notes : List IngestNote}
      (hmark : (eventsFrom cursor).mark = some m) (hw₁ : Later w w₁)
      (hpage : E.feed.page w₁.latest 100 m = page)
      (hbatch : BatchStep C A page w₁ handled w₂ notes) (hlast : handled.getLast? = some e)
      (hw : Stores A w₂ e.pagingToken w') :
      FetchStep E C A cursor w w' (notes ++ [.fetched page])

/-- What a poll can leave that has read `read` for its cursor. -/
inductive PollStep (E : ContractEvents) (C : IngestConfig) (A : IngestChoice → Prop)
    (read : Option String) (w : IngestWorld) : IngestWorld → List IngestNote → Prop
  | nothing {w' : IngestWorld} (hw : Later w w') : PollStep E C A read w w' []
  | resumed {cursor : String} {w₁ w' : IngestWorld} {notes : List IngestNote}
      (hread : truthy read = some cursor) (hw₁ : Later w w₁)
      (hfetch : FetchStep E C A cursor w₁ w' notes) : PollStep E C A read w w' notes
  | started {ledger : Nat} {w₁ w₂ w' : IngestWorld} {notes : List IngestNote}
      (hread : truthy read = none) (hw₁ : Later w w₁) (hw₂ : Stores A w₁ (ledgerCursor ledger) w₂)
      (hfetch : FetchStep E C A (ledgerCursor ledger) w₂ w' notes) : PollStep E C A read w w' notes

/-! ## A poll does one of these things

The programs are walked through once, from the calls up: a dead letter, an event, a batch, a fetch,
a poll. -/

section programs

variable {E : ContractEvents} {C : IngestConfig} {A : IngestChoice → Prop} {w₀ w : IngestWorld}
  {notes : List IngestNote} {raw : SorobanRpcEvent}

abbrev watching (E : ContractEvents) (A : IngestChoice → Prop) :
    Protocol ingestion (IngestWorld × List IngestNote) :=
  (watched E).protocol A

/-- The world when a call is answered. -/
def IngestWorld.at (w : IngestWorld) (ch : IngestChoice) (c : IngestCall) : IngestWorld :=
  { w with latest := w.latest + ch.closed c }

/-- A call lets time pass. -/
theorem Later.at (h : Later w₀ w) (ch : IngestChoice) (c : IngestCall) : Later w₀ (w.at ch c) :=
  ⟨h.cursors, h.counts, h.journal, Nat.le_trans h.latest (Nat.le_add_right _ _)⟩

/-- A call that can be rejected. -/
theorem wp_fallible {c : IngestCall}
    {Q : Except Err c.Resp → IngestWorld × List IngestNote → Prop} (hc : c.inMemory = false)
    (hfail : ∀ ch e, A ch → ch.fault c = some e →
      Q (.error e) (w.at ch c, ingestNote w c (.error e) ++ notes))
    (h : ∀ ch, A ch → ch.fault c = none → Q (c.answer E ch (w.at ch c)).1
      ((c.answer E ch (w.at ch c)).2, ingestNote w c (c.answer E ch (w.at ch c)).1 ++ notes)) :
    (call c).wp (watching E A) Q (w, notes) := by
  apply (wp_machine_perform (M := watched E)).mpr
  intro ch hch
  cases hfault : ch.fault c with
  | some e =>
    have hanswer : handleIngest E ch c w = (.error e, w.at ch c) := by
      simp [handleIngest, hc, hfault, IngestWorld.at]
    simp only [hanswer]
    exact hfail ch e hch hfault
  | none =>
    have hanswer : handleIngest E ch c w = c.answer E ch (w.at ch c) := by
      simp [handleIngest, hc, hfault, IngestWorld.at]
    simp only [hanswer]
    exact h ch hch hfault

/-- A call to the memory of the process. -/
theorem wp_inMemory {c : IngestCall}
    {Q : Except Err c.Resp → IngestWorld × List IngestNote → Prop} (hc : c.inMemory = true)
    (h : ∀ ch, Q (c.answer E ch (w.at ch c)).1
      ((c.answer E ch (w.at ch c)).2, ingestNote w c (c.answer E ch (w.at ch c)).1 ++ notes)) :
    (call c).wp (watching E A) Q (w, notes) := by
  apply (wp_machine_perform (M := watched E)).mpr
  intro ch _
  have hanswer : handleIngest E ch c w = c.answer E ch (w.at ch c) := by
    simp [handleIngest, hc, IngestWorld.at]
  simp only [hanswer]
  exact h ch

/-- A rejection by the queue is swallowed. -/
theorem wp_deadLetter (escrowId : Option String) (reason : String) :
    (SorobanPollerService.deadLetter raw escrowId reason).wp (watching E A)
      (fun r s => r = .ok () ∧ s.2 = notes ∧
        ∃ journal, Lettered A raw w.journal journal ∧ Later { w with journal := journal } s.1)
      (w, notes) := by
  unfold SorobanPollerService.deadLetter
  rw [wp_tryCatch]
  apply wp_fallible rfl
  · intro ch e hch hfault
    have hrejected : ∃ ch input, A ch ∧ ch.fault (.enqueue input) ≠ none :=
      ⟨ch, _, hch, by rw [hfault]; exact Option.some_ne_none e⟩
    exact ⟨rfl, rfl, w.journal, .inr ⟨rfl, hrejected⟩, Later.refl.at ch _⟩
  · intro ch _ _
    exact ⟨rfl, rfl, _, .inl ⟨_, rfl, rfl⟩, rfl, rfl, rfl, Nat.le_add_right _ _⟩

/-- The call has failed: the attempt is counted, and at the last one the event is given up. -/
theorem wp_onSyncFailed (hlater : Later w₀ w) (eventType escrowId : String) (err : Err) :
    (onSyncFailed C raw eventType escrowId err).wp (watching E A)
      (fun r s => s.2 = notes ∧
        EventStep C A raw w₀ r s.1 [.attempted raw w₀.journal true]) (w, notes) := by
  unfold onSyncFailed
  rw [wp_bind]
  apply wp_inMemory rfl
  intro ch
  have hread : ((w.at ch (.getRetryCount raw.id)).syncRetryCounts raw.id).getD 0 =
      w₀.failedAttempts raw.id := by
    rw [IngestWorld.failedAttempts, ← hlater.counts]
    rfl
  have hlater₁ := hlater.at ch (.getRetryCount raw.id)
  show (call (.setRetryCount raw.id
    (((w.at ch (.getRetryCount raw.id)).syncRetryCounts raw.id).getD 0 + 1)) >>= _).wp _ _
    (w.at ch (.getRetryCount raw.id), notes)
  rw [hread]
  generalize w.at ch (.getRetryCount raw.id) = w₁ at hlater₁
  rw [wp_bind]
  apply wp_inMemory rfl
  intro ch'
  have hlater₂ := hlater₁.at ch' (.setRetryCount raw.id (w₀.failedAttempts raw.id + 1))
  generalize w₁.at ch' (.setRetryCount raw.id (w₀.failedAttempts raw.id + 1)) = w₂ at hlater₂
  dsimp only [IngestCall.answer]
  apply wp_if
  · intro hmax
    rw [wp_bind]
    apply wp_inMemory rfl
    intro ch''
    have hlater₃ := hlater₂.at ch'' (.deleteRetryCount raw.id)
    apply wp_mono (wp_deadLetter _ _)
    rintro r s ⟨rfl, hnotes, journal, hletter, hw⟩
    have hletter₀ : Lettered A raw w₀.journal journal := by
      rw [← hlater₃.journal]
      exact hletter
    refine ⟨hnotes, .exhausted hmax hletter₀ ?_⟩
    -- the count was set and then deleted
    have hcounts : s.1.syncRetryCounts = Function.update w₀.syncRetryCounts raw.id none := by
      rw [hw.counts, ← hlater₃.counts]
      exact Function.update_idem _ _ _
    exact ⟨hw.cursors.trans hlater₃.cursors, hcounts, hw.journal,
      Nat.le_trans hlater₃.latest hw.latest⟩
  · intro hless
    refine ⟨rfl, .retried (Nat.not_le.mp hless) ?_⟩
    have hcounts : Function.update w₂.syncRetryCounts raw.id
          (some (w₀.failedAttempts raw.id + 1)) =
        Function.update w₀.syncRetryCounts raw.id (some (w₀.failedAttempts raw.id + 1)) := by
      rw [hlater₂.counts]
    exact ⟨hlater₂.cursors, hcounts, hlater₂.journal, hlater₂.latest⟩

/-- What a program leaves, with its notes in front of the old ones. -/
def Leaves {α : Type} (Q : Except Err α → IngestWorld → List IngestNote → Prop)
    (notes : List IngestNote) (r : Except Err α) (s : IngestWorld × List IngestNote) : Prop :=
  ∃ new, s.2 = new ++ notes ∧ Q r s.1 new

/-- The state is applied and the counter deleted, or the attempt is counted. -/
theorem wp_syncEvent (hlater : Later w₀ w) (eventType escrowId : String) (data : Native) :
    (syncEvent C raw eventType escrowId data).wp (watching E A)
      (Leaves (EventStep C A raw w₀) notes) (w, notes) := by
  unfold syncEvent
  rw [wp_tryCatch, wp_bind]
  apply wp_fallible rfl
  · intro ch e _ _
    apply wp_mono (wp_onSyncFailed (hlater.at ch _) eventType escrowId e)
    rintro r s ⟨hnotes, hstep⟩
    refine ⟨_, ?_, hstep⟩
    rw [hnotes, ← hlater.journal]
    rfl
  · intro ch _ _
    apply wp_inMemory rfl
    intro ch'
    refine ⟨[.attempted raw w₀.journal false], ?_, .synced ?_⟩
    · rw [← hlater.journal]
      rfl
    · have hlater' := hlater.at ch (.syncStateFromChain raw
        (chainEvent C raw eventType escrowId data))
      have hcounts : Function.update w.syncRetryCounts raw.id none =
          Function.update w₀.syncRetryCounts raw.id none := by
        rw [hlater.counts]
      have hjournal : IngestObs.synced raw :: w.journal = .synced raw :: w₀.journal := by
        rw [hlater.journal]
      exact ⟨hlater.cursors, hcounts, hjournal,
        Nat.le_trans hlater'.latest (Nat.le_add_right _ _)⟩

/-- A dead letter ends the processing of an event. -/
theorem wp_lettered (hlater : Later w₀ w) (escrowId : Option String) (reason : String) :
    (SorobanPollerService.deadLetter raw escrowId reason).wp (watching E A)
      (Leaves (EventStep C A raw w₀) notes) (w, notes) := by
  apply wp_mono (wp_deadLetter escrowId reason)
  rintro r s ⟨rfl, hnotes, journal, hletter, hw⟩
  rw [hlater.journal] at hletter
  refine ⟨[], hnotes, .lettered hletter ?_⟩
  exact ⟨hw.cursors.trans hlater.cursors, hw.counts.trans hlater.counts, hw.journal,
    Nat.le_trans hlater.latest hw.latest⟩

/-- An event can be given up or thrown back on the way to `syncStateFromChain` -/
theorem wp_processEvent :
    (processEvent C raw).wp (watching E A)
      (Leaves (EventStep C A raw w) notes) (w, notes) := by
  unfold processEvent
  rw [wp_bind]
  apply wp_fallible rfl
  · intro ch e hch hfault
    have hrejected : ch.fault (.parseEvent raw) ≠ none := by
      rw [hfault]
      exact Option.some_ne_none e
    exact ⟨[], rfl, .refused ⟨ch, hch, .inl hrejected⟩ (Later.refl.at ch _)⟩
  intro ch hch _
  have hlater := (Later.refl (w := w)).at ch (.parseEvent raw)
  dsimp only [IngestCall.answer]
  cases hparsed : ch.parsed raw with
  | none => exact wp_lettered hlater _ _
  | some parsed =>
    dsimp only
    split
    · cases hid : toContractEscrowId (parsed.data.field "escrow_id") with
      | none =>
        dsimp only
        cases hgot : C.stringify ((parsed.data.field "escrow_id").orElse .null) with
        | error e =>
          -- `JSON.stringify` itself may throw, on the id it was going to complain about
          have hrefusable : Refusable C A raw := by
            refine ⟨ch, hch, .inr ⟨parsed, hparsed, ?_⟩⟩
            simp only [hid]
            exact ⟨e, hgot⟩
          exact ⟨[], rfl, .refused hrefusable hlater⟩
        | ok got => exact wp_lettered hlater _ _
      | some id =>
        dsimp only
        rw [wp_bind]
        apply wp_fallible rfl
        · intro ch' e hch' hfault
          have hrejected : ch'.fault (.findIdByContractEscrowId id) ≠ none := by
            rw [hfault]
            exact Option.some_ne_none e
          have hrefusable : Refusable C A raw := by
            refine ⟨ch, hch, .inr ⟨parsed, hparsed, ?_⟩⟩
            simp only [hid]
            exact ⟨ch', hch', hrejected⟩
          exact ⟨[], rfl, .refused hrefusable (hlater.at ch' _)⟩
        · intro ch' _ _
          have hlater' := hlater.at ch' (.findIdByContractEscrowId id)
          dsimp only [IngestCall.answer]
          split
          · exact wp_lettered hlater' _ _
          · exact wp_syncEvent hlater' _ _ _
    · exact wp_lettered hlater _ _

/-- The batch returns the token of the last event it has dealt with. -/
theorem wp_batchStep (events : List SorobanRpcEvent) (lastPagingToken : Option String)
    (w : IngestWorld) (notes : List IngestNote) :
    (processBatch C events lastPagingToken).wp (watching E A)
      (Leaves (fun r w' new => ∃ handled, BatchStep C A events w handled w' new ∧
        r = .ok ((handled.getLast?.map (·.pagingToken)).or lastPagingToken)) notes) (w, notes) := by
  induction events generalizing lastPagingToken w notes with
  | nil => exact ⟨[], rfl, [], .done, rfl⟩
  | cons raw events ih =>
    unfold processBatch
    rw [wp_andThen]
    apply wp_mono wp_processEvent
    rintro r ⟨w₁, notes₁⟩ ⟨new, hnotes, hevent⟩
    cases r with
    | error e => exact ⟨new, hnotes, [], .stopped hevent, rfl⟩
    | ok _ =>
      apply wp_mono (ih (some raw.pagingToken) w₁ notes₁)
      rintro r ⟨w₂, notes₂⟩ ⟨new', hnotes', handled, hrest, rfl⟩
      refine ⟨new' ++ new, ?_, raw :: handled, .next hevent hrest, ?_⟩
      · show notes₂ = _
        rw [show notes₂ = _ from hnotes', show notes₁ = _ from hnotes, List.append_assoc]
      · cases handled with
        | nil => rfl
        | cons e handled =>
          rw [List.getLast?_cons_cons, List.getLast?_cons]
          rfl

/-- The poller is not told that a write was rejected. -/
theorem wp_store (cursor : String) :
    (CursorService.set cursor DEFAULT_KEY).wp (watching E A)
      (fun r s => r = .ok () ∧ s.2 = notes ∧ Stores A w cursor s.1) (w, notes) := by
  unfold CursorService.set
  rw [wp_tryCatch]
  apply wp_fallible rfl
  · intro ch e hch hfault
    have hrejected : ch.fault (.cursorUpsert DEFAULT_KEY cursor) ≠ none := by
      rw [hfault]
      exact Option.some_ne_none e
    exact ⟨rfl, rfl, .inr ⟨Later.refl.at ch _, ch, cursor, hch, hrejected⟩⟩
  · intro ch _ _
    exact ⟨rfl, rfl, .inl ⟨rfl, rfl, rfl, Nat.le_add_right _ _⟩⟩

/-- The latest ledger is read, or it is not. -/
theorem wp_latestLedger {Q : Except Err Nat → IngestWorld × List IngestNote → Prop}
    (hfail : ∀ e w', Later w w' → Q (.error e) (w', notes))
    (h : ∀ ch w', A ch → Later w w' → w'.latest = w.latest + ch.closed .getLatestLedger →
      Q (.ok w'.latest) (w', notes)) :
    getLatestLedger.wp (watching E A) Q (w, notes) := by
  unfold getLatestLedger
  rw [wp_bind]
  apply wp_fallible rfl
  · intro ch e _ _
    exact hfail e _ (Later.refl.at ch _)
  · intro ch hch _
    exact h ch _ hch (Later.refl.at ch _) rfl

/-- An empty page: the cursor goes back to the margin if the latest ledger is known. -/
theorem wp_quietStep {m : Mark String} {cursor : String}
    (hmark : (eventsFrom cursor).mark = some m) (hlater : Later w₀ w)
    (hpage : E.feed.page w.latest 100 m = []) :
    advanceQuiet.wp (watching E A)
      (fun _ s => s.2 = notes ∧ FetchStep E C A cursor w₀ s.1 [.fetched []]) (w, notes) := by
  unfold advanceQuiet
  rw [wp_bind, wp_tryCatch, wp_bind]
  apply wp_latestLedger
  · intro e w' hw
    exact ⟨rfl, .quiet hmark hlater hpage hw⟩
  · intro ch w' hch hw hlatest
    show (if w'.latest = 0 then _ else _ : Ingest Unit).wp _ _ _
    apply wp_if
    · intro _
      exact ⟨rfl, .quiet hmark hlater hpage hw⟩
    · intro _
      apply wp_mono (wp_store _)
      rintro r s ⟨_, hnotes, hstored⟩
      exact ⟨hnotes, .rewound hmark hlater hpage hch hw hlatest hstored⟩

/-- A batch deals with its events from the front. -/
theorem BatchStep.handled_subset {events handled : List SorobanRpcEvent} {w w' : IngestWorld}
    {notes : List IngestNote} (h : BatchStep C A events w handled w' notes) :
    ∃ rest, events = handled ++ rest := by
  induction h with
  | done => exact ⟨[], rfl⟩
  | stopped _ => exact ⟨_, rfl⟩
  | next _ _ ih =>
    obtain ⟨rest, hrest⟩ := ih
    exact ⟨rest, by rw [hrest]; rfl⟩

/-- A poll that has its cursor. -/
theorem wp_fetchStep (cursor : String) :
    (pollFrom C cursor).wp (watching E A)
      (Leaves (fun _ => FetchStep E C A cursor w) notes) (w, notes) := by
  unfold pollFrom fetchEvents
  rw [wp_bind, wp_bind]
  apply wp_fallible rfl
  · intro ch e _ _
    exact ⟨[], rfl, .unanswered (Later.refl.at ch _)⟩
  intro ch _ _
  have hlater := (Later.refl (w := w)).at ch (.getEvents (eventsFrom cursor) 100)
  generalize w.at ch (.getEvents (eventsFrom cursor) 100) = w₁ at hlater
  cases hmark : (eventsFrom cursor).mark with
  | none =>
    simp only [IngestCall.answer, hmark]
    exact ⟨[], rfl, .unanswered hlater⟩
  | some m =>
    simp only [IngestCall.answer, hmark]
    cases hpage : E.feed.page w₁.latest 100 m with
    | nil =>
      apply wp_mono (wp_quietStep (C := C) hmark hlater hpage)
      rintro r s ⟨hnotes, hstep⟩
      exact ⟨[.fetched []], hnotes, hstep⟩
    | cons raw rest =>
      show (processBatch C (raw :: rest) none >>= _).wp _ _
        (w₁, .fetched (raw :: rest) :: notes)
      rw [wp_bind]
      apply wp_mono (wp_batchStep (raw :: rest) none w₁ _)
      rintro r ⟨w₂, notes₂⟩ ⟨new, hnotes, handled, hbatch, rfl⟩
      have hnotes' : notes₂ = (new ++ [.fetched (raw :: rest)]) ++ notes := by
        rw [List.append_assoc]
        exact hnotes
      cases hlast : handled.getLast? with
      | none =>
        obtain rfl : handled = [] := List.getLast?_eq_none_iff.mp hlast
        exact ⟨_, hnotes', .stopped hmark hlater hpage hbatch⟩
      | some e =>
        -- what was handled is an initial part of the page, so its last event has a token
        have he : e ∈ E.feed.page w₁.latest 100 m := by
          obtain ⟨after, hsplit⟩ := hbatch.handled_subset
          rw [hpage, hsplit]
          exact List.mem_append_left _ (List.mem_of_getLast? hlast)
        show (storeLast (some e.pagingToken)).wp _ _ _
        unfold storeLast
        rw [pagingToken_truthy he]
        apply wp_mono (wp_store _)
        rintro r s ⟨_, hs, hstored⟩
        exact ⟨_, hs.trans hnotes', .advanced hmark hlater hpage hbatch hlast hstored⟩

/-- The configured ledger, or one behind the latest. -/
theorem wp_startLedger {Q : Except Err Nat → IngestWorld × List IngestNote → Prop}
    (h : ∀ r w', Later w w' → Q r (w', notes)) :
    (resolveStartLedger C).wp (watching E A) Q (w, notes) := by
  have hlatest : (do
      let latest ← getLatestLedger
      pure (marginLedger latest) : Ingest Nat).wp (watching E A) Q
        (w, notes) := by
    rw [wp_bind]
    apply wp_latestLedger
    · intro e w' hw
      exact h _ w' hw
    · intro ch w' _ hw _
      exact h _ w' hw
  unfold resolveStartLedger
  cases C.SOROBAN_START_LEDGER with
  | none => exact hlatest
  | some configured =>
    show (if configured ≠ 0 then _ else _ : Ingest Nat).wp _ _ _
    exact wp_if (fun _ => h _ w Later.refl) fun _ => hlatest

/-- What a poll does once the stored cursor has been read. -/
def pollWith (C : IngestConfig) (read : Option String) : Ingest Unit :=
  Prog.tryCatch
    ((match truthy read with
      | some cursor => pure cursor
      | none => startCursor C) >>= pollFrom C)
    fun _ => pure ()

/-- A poll that has read its cursor. -/
theorem wp_pollWith {read : Option String} (hlater : Later w₀ w) :
    (pollWith C read).wp (watching E A)
      (Leaves (fun _ => PollStep E C A read w₀) notes) (w, notes) := by
  unfold pollWith
  -- what is thrown is only logged
  rw [wp_tryCatch]
  refine wp_mono (Q := Leaves (fun _ => PollStep E C A read w₀) notes) ?_ fun r s hs => ?_
  · rw [wp_bind]
    cases hread : truthy read with
    | some cursor =>
      apply wp_mono (wp_fetchStep cursor)
      rintro r s ⟨new, hnotes, hfetch⟩
      exact ⟨new, hnotes, .resumed hread hlater hfetch⟩
    | none =>
      -- the start ledger is asked for and becomes the cursor
      show (startCursor C).wp _ _ _
      unfold startCursor
      rw [wp_bind]
      apply wp_startLedger
      intro r w₁ hw₁
      cases r with
      | error e => exact ⟨[], rfl, .nothing (hlater.trans hw₁)⟩
      | ok ledger =>
        dsimp only
        rw [wp_bind]
        apply wp_mono (wp_store _)
        rintro r ⟨w₂, notes₂⟩ ⟨rfl, rfl, hw₂⟩
        apply wp_mono (wp_fetchStep (ledgerCursor ledger))
        rintro r s ⟨new, hnotes, hfetch⟩
        exact ⟨new, hnotes, .started hread (hlater.trans hw₁) hw₂ hfetch⟩
  · cases r with
    | ok _ => exact hs
    | error _ => exact hs

end programs

/-- The choices of an environment. -/
def Chosen (env : Nat → IngestChoice) (ch : IngestChoice) : Prop := ∃ n, ch = env n

variable {E : ContractEvents} {C : IngestConfig} {w : IngestWorld} {env : Nat → IngestChoice}

/-- The first call of a poll reads its cursor. -/
theorem exec_poll : (poll C).exec (watched E) env (w, []) =
    (pollWith C (w.read (env 0))).exec (watched E) (fun n => env (n + 1))
      (w.at (env 0) (.cursorFindById DEFAULT_KEY), []) := by
  have hpoll : poll C = Prog.call (S := ingestion) (.cursorFindById DEFAULT_KEY) fun
      | .ok stored => pollWith C stored
      | .error _ => pollWith C none := by
    show Prog.call _ _ = Prog.call _ _
    congr 1
    funext r
    cases r with
    | ok stored => rfl
    | error e => rfl
  have hanswer := handleIngest_read (E := E) (w := w) (env 0) DEFAULT_KEY
  rw [hpoll, Prog.exec, IngestWorld.read]
  cases hfault : (env 0).fault (.cursorFindById DEFAULT_KEY) with
  | none =>
    rw [hfault] at hanswer
    simp only [hanswer]
    rfl
  | some e =>
    rw [hfault] at hanswer
    simp only [hanswer]
    rfl

/-- Every poll of a process takes one of the steps. -/
theorem pollStep_cycle (E : ContractEvents) (C : IngestConfig) (w : IngestWorld)
    (env : Nat → IngestChoice) : PollStep E C (Chosen env) (w.read (env 0)) w
      (pollCycle E C w env).after (pollCycle E C w env).notes := by
  have hwp : (pollWith C (w.read (env 0))).wp (watching E (Chosen env))
      (Leaves (fun _ => PollStep E C (Chosen env) (w.read (env 0)) w) [])
      (w.at (env 0) (.cursorFindById DEFAULT_KEY), []) := wp_pollWith (Later.refl.at _ _)
  obtain ⟨new, hnotes, hstep⟩ := exec_of_wp (M := watched E) hwp fun n => ⟨n + 1, rfl⟩
  rw [List.append_nil] at hnotes
  rw [← hnotes] at hstep
  unfold pollCycle
  rw [exec_poll]
  exact hstep

/-- Cursors are read and written without failure. -/
structure CursorsKept (ch : IngestChoice) : Prop where
  read : ∀ id, ch.fault (.cursorFindById id) = none
  write : ∀ id value, ch.fault (.cursorUpsert id value) = none

/-- Then a poll starts from what is stored. -/
theorem pollStep_kept (hkept : ∀ n, CursorsKept (env n)) :
    PollStep E C (Chosen env) (w.cursors DEFAULT_KEY) w (pollCycle E C w env).after
      (pollCycle E C w env).notes := by
  have hread : w.read (env 0) = w.cursors DEFAULT_KEY := by
    rw [IngestWorld.read, (hkept 0).read]
  rw [← hread]
  exact pollStep_cycle E C w env

/-- An environment that keeps cursors does so in each of its choices. -/
theorem kept_of_chosen (hkept : ∀ n, CursorsKept (env n)) :
    ∀ ch, Chosen env ch → CursorsKept ch := by
  rintro ch ⟨n, rfl⟩
  exact hkept n

/-- And what it stores is stored. -/
theorem Stores.kept {A : IngestChoice → Prop} {cursor : String} {w' : IngestWorld}
    (hkept : ∀ ch, A ch → CursorsKept ch) (h : Stores A w cursor w') :
    Later (w.store cursor) w' := by
  rcases h with hw | ⟨_, ch, value, hch, hfault⟩
  · exact hw
  · exact absurd ((hkept ch hch).write _ _) hfault

end TrustLink
