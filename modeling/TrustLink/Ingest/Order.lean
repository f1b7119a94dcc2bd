import TrustLink.Ingest.Poller

/-!
# TrustLink — events are applied in order

`syncStateFromChain` is called for an event only when everything before it has been dealt with, and
an event that keeps failing is given up after `MAX_SYNC_RETRIES` attempts. Both come from one
invariant (`Orderly`): what is dealt with are the events from the first cursor up to the position of
the poller; the only event that may have failed and not been dealt with is the one at that position,
it is visible, and the retry counter has all of its failures. So it stays the next event to be
processed until it is dealt with: the contract cannot look quiet meanwhile, and nothing else touches
its counter, not even an event with the same id.
-/

namespace TrustLink

open Effects JsNumber Store SorobanPollerService CursorService

/-! ## What is counted

A failure counts until its event has been dealt with: after that the poller may be rewound and try
the event again. -/

instance (e : SorobanRpcEvent) (o : IngestObs) : Decidable (o.handles e) :=
  match o with
  | .stored _ _ => inferInstanceAs (Decidable False)
  | .synced source => inferInstanceAs (Decidable (source = e))
  | .enqueued input => inferInstanceAs (Decidable (input.ledgerFeedback = e.feedback))

instance (journal : List IngestObs) (e : SorobanRpcEvent) : Decidable (Handled journal e) :=
  inferInstanceAs (Decidable (∃ o ∈ journal, o.handles e))

/-- A failed attempt at an event that has not been dealt with. -/
def IngestNote.fails (e : SorobanRpcEvent) : IngestNote → Bool
  | .attempted source before failed => source = e && failed && !decide (Handled before e)
  | .fetched _ => false

/-- The failures of an event before it is dealt with for the first time. -/
def failures (e : SorobanRpcEvent) (notes : List IngestNote) : Nat :=
  notes.countP (IngestNote.fails e)

/-- The call was made in order: everything from the first cursor up to the event had been dealt
with. -/
def IngestNote.InOrder (E : ContractEvents) (found : Option String) : IngestNote → Prop
  | .attempted source before _ => ∃ first, firstCursor found before = some first ∧
      ∀ i j e, E.events[i]? = some source → E.pos first ≤ j → j < i → E.events[j]? = some e →
        Handled before e
  | .fetched _ => True

/-- The network the statement relies on: cursors are kept, dead letters are stored, and the margin
is larger than what closes while the poller asks for the latest ledger. -/
structure Supported (ch : IngestChoice) : Prop extends CursorsKept ch, Dependable ch

/-! ## The invariant

One event at most is waiting, and it is the next one. -/

/-- The poller is at the position `q`. -/
structure Orderly (E : ContractEvents) (found : Option String) (q : Nat) (w : IngestWorld)
    (seen : List IngestNote) : Prop where
  started : ∃ first, firstCursor found w.journal = some first
  dealt : Dealt E found q w
  /-- An event that has failed and is not dealt with is next. -/
  waiting : ∀ i e, E.events[i]? = some e → ¬ Handled w.journal e → 0 < failures e seen →
    i = q ∧ e.ledger ≤ w.latest ∧ failures e seen ≤ w.failedAttempts e.id
  remembered : ∀ id, w.failedAttempts id < MAX_SYNC_RETRIES
  bounded : ∀ e, failures e seen ≤ MAX_SYNC_RETRIES
  ordered : ∀ note ∈ seen, note.InOrder E found

section orderly

variable {E : ContractEvents} {C : IngestConfig} {A : IngestChoice → Prop} {found : Option String}
  {q : Nat} {w w' : IngestWorld} {seen : List IngestNote} {raw : SorobanRpcEvent}

theorem Later.failedAttempts (h : Later w w') (id : String) :
    w'.failedAttempts id = w.failedAttempts id := by
  unfold IngestWorld.failedAttempts
  rw [h.counts]

/-- The failures of the next event are all remembered. -/
theorem Orderly.failures_le (h : Orderly E found q w seen) (hraw : E.events[q]? = some raw)
    (hunhandled : ¬ Handled w.journal raw) : failures raw seen ≤ w.failedAttempts raw.id := by
  rcases Nat.eq_zero_or_pos (failures raw seen) with hzero | hpos
  · omega
  · exact (h.waiting q raw hraw hunhandled hpos).2.2

/-- A call for the next event is in order. -/
theorem Orderly.inOrder (h : Orderly E found q w seen) (hraw : E.events[q]? = some raw)
    (failed : Bool) : (IngestNote.attempted raw w.journal failed).InOrder E found := by
  obtain ⟨first, hfirst⟩ := h.started
  refine ⟨first, hfirst, ?_⟩
  intro i j e hi hle hlt hj
  obtain rfl : i = q := position_unique hi hraw
  exact h.dealt first hfirst j e hle hlt hj

/-- A page is no failure. -/
@[simp] theorem failures_fetched (e : SorobanRpcEvent) (page : List SorobanRpcEvent) :
    failures e (.fetched page :: seen) = failures e seen :=
  List.countP_cons_of_neg Bool.false_ne_true

/-- An attempt counts for its own event, while that has not been dealt with. -/
theorem failures_attempted (raw : SorobanRpcEvent) (seen : List IngestNote)
    (before : List IngestObs) (failed : Bool) :
    failures raw (.attempted raw before failed :: seen) ≤
      failures raw seen + if Handled before raw then 0 else 1 := by
  unfold failures
  rw [List.countP_cons]
  by_cases hhandled : Handled before raw
  · simp [IngestNote.fails, hhandled]
  · simp only [if_neg hhandled]
    split <;> omega

/-- The notes of an event concern no other one. -/
theorem EventStep.failures_other {r : Except Err Unit} {notes : List IngestNote}
    {e : SorobanRpcEvent} (h : EventStep C A raw w r w' notes) (hne : raw ≠ e) :
    failures e (notes ++ seen) = failures e seen := by
  have hattempt : ∀ before failed,
      failures e (.attempted raw before failed :: seen) = failures e seen := by
    intro before failed
    apply List.countP_cons_of_neg
    simp [IngestNote.fails, hne]
  cases h with
  | refused _ _ => rfl
  | lettered _ _ => rfl
  | synced _ => exact hattempt _ _
  | retried _ _ => exact hattempt _ _
  | exhausted _ _ _ => exact hattempt _ _

/-- The counter never reaches the limit: at the limit the event is given up. -/
theorem EventStep.remembered {r : Except Err Unit} {notes : List IngestNote}
    (h : EventStep C A raw w r w' notes) (hw : ∀ id, w.failedAttempts id < MAX_SYNC_RETRIES)
    (id : String) : w'.failedAttempts id < MAX_SYNC_RETRIES := by
  have hbefore := hw id
  cases h with
  | refused _ hlater => exact hlater.failedAttempts id ▸ hbefore
  | lettered _ hlater => exact hlater.failedAttempts id ▸ hbefore
  | synced hlater =>
    rw [hlater.failedAttempts]
    by_cases hid : id = raw.id
    · simp [IngestWorld.failedAttempts, hid, MAX_SYNC_RETRIES]
    · simpa [IngestWorld.failedAttempts, hid] using hbefore
  | retried hcount hlater =>
    rw [hlater.failedAttempts]
    by_cases hid : id = raw.id
    · simpa [IngestWorld.failedAttempts, hid] using hcount
    · simpa [IngestWorld.failedAttempts, hid] using hbefore
  | exhausted _ _ hlater =>
    rw [hlater.failedAttempts]
    by_cases hid : id = raw.id
    · simp [IngestWorld.failedAttempts, hid, MAX_SYNC_RETRIES]
    · simpa [IngestWorld.failedAttempts, hid] using hbefore

/-- What is so after an event whether it was dealt with or not. -/
theorem Orderly.event (h : Orderly E found q w seen) (hraw : E.events[q]? = some raw)
    {r : Except Err Unit} {notes : List IngestNote} (hevent : EventStep C A raw w r w' notes) :
    (∀ e, failures e (notes ++ seen) ≤ MAX_SYNC_RETRIES) ∧
      ∀ note ∈ notes ++ seen, note.InOrder E found := by
  -- one more failure is at most one more than what is remembered
  have hattempt : ∀ failed, failures raw (.attempted raw w.journal failed :: seen) ≤
      MAX_SYNC_RETRIES := by
    intro failed
    have hmore := failures_attempted raw seen w.journal failed
    by_cases hhandled : Handled w.journal raw
    · have hbefore := h.bounded raw
      rw [if_pos hhandled] at hmore
      omega
    · have hle := h.failures_le hraw hhandled
      have hlt := h.remembered raw.id
      rw [if_neg hhandled] at hmore
      omega
  have hordered : ∀ failed, ∀ note ∈ .attempted raw w.journal failed :: seen,
      note.InOrder E found := by
    intro failed note hnote
    rcases List.mem_cons.mp hnote with rfl | hold
    · exact h.inOrder hraw failed
    · exact h.ordered note hold
  constructor
  · intro e
    by_cases hne : raw = e
    · subst hne
      cases hevent with
      | refused _ _ => exact h.bounded raw
      | lettered _ _ => exact h.bounded raw
      | synced _ => exact hattempt _
      | retried _ _ => exact hattempt _
      | exhausted _ _ _ => exact hattempt _
    · rw [hevent.failures_other hne]
      exact h.bounded e
  · cases hevent with
    | refused _ _ => exact h.ordered
    | lettered _ _ => exact h.ordered
    | synced _ => exact hordered _
    | retried _ _ => exact hordered _
    | exhausted _ _ _ => exact hordered _

/-- An event that is dealt with waits no more. -/
theorem Orderly.passed (hA : ∀ ch, A ch → Supported ch) (h : Orderly E found q w seen)
    (hraw : E.events[q]? = some raw) {notes : List IngestNote}
    (hevent : EventStep C A raw w (.ok ()) w' notes) :
    Orderly E found (q + 1) w' (notes ++ seen) := by
  have hgrown := hevent.grown
  have hhandled := hevent.handled fun ch hch => (hA ch hch).toDependable
  obtain ⟨hbounded, hordered⟩ := h.event hraw hevent
  refine ⟨?_, h.dealt.next hgrown hraw hhandled, ?_, hevent.remembered h.remembered, hbounded,
    hordered⟩
  · rw [hgrown.firstCursor_eq]
    exact h.started
  · -- nobody waits: it could only be this event
    intro i e he hunhandled hpos
    exfalso
    have hne : raw ≠ e := by
      rintro rfl
      exact hunhandled hhandled
    rw [hevent.failures_other hne] at hpos
    have hwaiting := h.waiting i e he (fun hold => hunhandled (hgrown.handled hold)) hpos
    rw [hwaiting.1, hraw] at he
    exact hne (Option.some.inj he)

/-- An event that is thrown back is the one that waits. -/
theorem Orderly.kept (h : Orderly E found q w seen) (hraw : E.events[q]? = some raw)
    (hvisible : raw.ledger ≤ w.latest) {e : Err} {notes : List IngestNote}
    (hevent : EventStep C A raw w (.error e) w' notes) :
    Orderly E found q w' (notes ++ seen) := by
  have hgrown := hevent.grown
  obtain ⟨hbounded, hordered⟩ := h.event hraw hevent
  refine ⟨?_, h.dealt.grown hgrown, ?_, hevent.remembered h.remembered, hbounded, hordered⟩
  · rw [hgrown.firstCursor_eq]
    exact h.started
  · intro i e' he' hunhandled hpos
    have hbefore : ¬ Handled w.journal e' := fun hold => hunhandled (hgrown.handled hold)
    by_cases hne : raw = e'
    · -- the event waits for the next poll
      subst hne
      have hle := h.failures_le hraw hbefore
      refine ⟨position_unique he' hraw, Nat.le_trans hvisible hevent.frame.2, ?_⟩
      cases hevent with
      | refused _ hw =>
        rw [hw.failedAttempts]
        exact hle
      | retried hcount hw =>
        have hmore := failures_attempted raw seen w.journal true
        rw [if_neg hbefore] at hmore
        rw [hw.failedAttempts]
        have hcounted : ({ w with
            syncRetryCounts := Function.update w.syncRetryCounts raw.id
              (some (w.failedAttempts raw.id + 1)) } : IngestWorld).failedAttempts raw.id =
            w.failedAttempts raw.id + 1 := by
          simp [IngestWorld.failedAttempts]
        rw [hcounted]
        exact Nat.le_trans hmore (Nat.add_le_add_right hle 1)
    · exfalso
      rw [hevent.failures_other hne] at hpos
      have hwaiting := h.waiting i e' he' hbefore hpos
      rw [hwaiting.1, hraw] at he'
      exact hne (Option.some.inj he')

/-- The invariant is one of the position. -/
theorem orderly_position (hA : ∀ ch, A ch → Supported ch) :
    PositionInvariant E C A (Orderly E found) where
  later := by
    intro q w w' seen h hw
    refine ⟨?_, h.dealt.grown hw.grown, ?_, ?_, h.bounded, h.ordered⟩
    · rw [hw.journal]
      exact h.started
    · intro i e he hunhandled hpos
      rw [hw.handled] at hunhandled
      obtain ⟨hi, hvisible, hle⟩ := h.waiting i e he hunhandled hpos
      refine ⟨hi, Nat.le_trans hvisible hw.latest, ?_⟩
      rw [hw.failedAttempts]
      exact hle
    · intro id
      rw [hw.failedAttempts]
      exact h.remembered id
  fetched := by
    intro q w seen page h
    refine ⟨h.started, h.dealt, ?_, h.remembered, ?_, ?_⟩
    · intro i e he hunhandled hpos
      rw [failures_fetched] at hpos ⊢
      exact h.waiting i e he hunhandled hpos
    · intro e
      rw [failures_fetched]
      exact h.bounded e
    · intro note hnote
      rcases List.mem_cons.mp hnote with rfl | hold
      · trivial
      · exact h.ordered note hold
  stored := by
    intro cursor w seen h
    refine ⟨?_, h.dealt.store, ?_, h.remembered, h.bounded, h.ordered⟩
    · obtain ⟨first, hfirst⟩ := h.started
      refine ⟨first, firstCursor_stored.trans ?_⟩
      rw [hfirst]
      rfl
    -- storing a cursor adds a line to the journal and takes none away
    · intro i e he hunhandled hpos
      exact h.waiting i e he (fun hold => hunhandled (hold.append [_])) hpos
  passed := fun h hraw _ hevent => h.passed hA hraw hevent
  kept := fun h hraw hvisible hevent => h.kept hraw hvisible hevent

/-- A quiet poll goes back to a ledger whose events are dealt with, and nobody waits: an event that
does would have been on the page. -/
theorem orderly_rewound (C : IngestConfig) (hA : ∀ ch, A ch → Supported ch) :
    RewindsSafely E A (Orderly E found) w seen := by
  intro cursor m w₁ w₂ ch hmark hpage hch hlater hlatest _ _ h
  have hpos := pos_of_mark (E := E) hmark
  have hback := pos_margin_le hmark hpage hlatest (hA ch hch).margin
  have hnobody : ∀ (i : Nat) e, E.events[i]? = some e → ¬ Handled w₁.journal e →
      ¬ 0 < failures e seen := by
    intro i e he hunhandled hwaits
    obtain ⟨rfl, hvisible, _⟩ := h.waiting i e he hunhandled hwaits
    have hmem : e ∈ E.feed.page w₁.latest 100 m :=
      Feed.mem_page he (by omega) (by omega) hvisible
    rw [hpage] at hmem
    cases hmem
  have hrewound : Orderly E found
      (E.pos (ledgerCursor (marginLedger w₂.latest))) w₁ seen := by
    refine ⟨h.started, ?_, ?_, h.remembered, h.bounded, h.ordered⟩
    · intro first hfirst i e hle hlt he
      exact h.dealt first hfirst i e hle (Nat.lt_of_lt_of_le hlt hback) he
    · intro i e he hunhandled hwaits
      exact absurd hwaits (hnobody i e he hunhandled)
  have hI : PositionInvariant E C A (Orderly E found) := orderly_position hA
  exact hI.fetched [] (hI.stored (hI.later hrewound hlater))

end orderly

/-- Before the first poll of a process. -/
theorem orderly_start {E : ContractEvents} {w : IngestWorld} (hjournal : w.journal = [])
    (hcounts : ∀ id, w.syncRetryCounts id = none) :
    Resting E (Orderly E (truthy (w.cursors DEFAULT_KEY))) w [] := by
  have hremembered : ∀ id, w.failedAttempts id < MAX_SYNC_RETRIES := by
    intro id
    simp [IngestWorld.failedAttempts, hcounts, MAX_SYNC_RETRIES]
  -- nothing lies between the first cursor and itself
  have hstart : ∀ cursor w', w'.syncRetryCounts = w.syncRetryCounts →
      firstCursor (truthy (w.cursors DEFAULT_KEY)) w'.journal = some cursor →
      Orderly E (truthy (w.cursors DEFAULT_KEY)) (E.pos cursor) w' [] := by
    intro cursor w' hsame hfirst
    refine ⟨⟨cursor, hfirst⟩, ?_, ?_, ?_, ?_, ?_⟩
    · intro first hfirst' i e hle hlt _
      obtain rfl : cursor = first := Option.some.inj (hfirst.symm.trans hfirst')
      omega
    · intro i e _ _ hpos
      exact absurd hpos (Nat.lt_irrefl 0)
    · intro id
      unfold IngestWorld.failedAttempts
      rw [hsame]
      exact hremembered id
    · intro e
      exact Nat.zero_le _
    · intro note hnote
      cases hnote
  constructor
  · intro cursor hcursor
    apply hstart cursor w rfl
    rw [hcursor, hjournal]
    rfl
  · intro hnone ledger
    apply hstart (ledgerCursor ledger) (w.store (ledgerCursor ledger)) rfl
    rw [hnone]
    show firstCursor none (.stored DEFAULT_KEY _ :: w.journal) = _
    rw [firstCursor_stored, hjournal]
    rfl

/-- In every run of one process `syncStateFromChain` is called in order, and no event fails more
than `MAX_SYNC_RETRIES` times before it is dealt with. -/
theorem sync_ordered_and_bounded (E : ContractEvents) (C : IngestConfig) (w : IngestWorld)
    (hjournal : w.journal = []) (hcounts : ∀ id, w.syncRetryCounts id = none)
    (polls : List (Nat → IngestChoice)) (hpolls : ∀ env ∈ polls, ∀ n, Supported (env n)) :
    (∀ note ∈ allNotes E C w polls,
      note.InOrder E (truthy (w.cursors DEFAULT_KEY))) ∧
    ∀ e, failures e (allNotes E C w polls) ≤ MAX_SYNC_RETRIES := by
  have hsupported : ∀ env ∈ polls, ∀ ch, Chosen env ch → Supported ch := by
    rintro env henv ch ⟨n, rfl⟩
    exact hpolls env henv n
  have hend := resting_run (K := fun _ => True)
    (fun env henv n => (hpolls env henv n).toCursorsKept)
    (fun env henv => orderly_position (C := C) (hsupported env henv))
    (fun _ _ env henv _ _ => orderly_rewound C (hsupported env henv)) (fun _ _ => trivial)
    (orderly_start (E := E) hjournal hcounts)
  rw [List.append_nil] at hend
  -- whether a cursor is stored at the end or not
  obtain ⟨q, w', hI⟩ : ∃ q w', Orderly E (truthy (w.cursors DEFAULT_KEY)) q w'
      (allNotes E C w polls) := by
    cases hstored : truthy ((runPolls E C w polls).cursors DEFAULT_KEY) with
    | some cursor => exact ⟨_, _, hend.stored cursor hstored⟩
    | none => exact ⟨_, _, hend.unstored hstored 0⟩
  exact ⟨hI.ordered, hI.bounded⟩

/-- The event is decoded, belongs to an escrow, and its state cannot be applied. -/
def IngestChoice.failingSync : IngestChoice where
  closed _ := 0
  fault
    | .syncStateFromChain _ _ => some (.error "unavailable")
    | _ => none
  parsed _ := some
    { topics := [.string "Escrow", .string "Funded"]
      data := .object [("escrow_id", .bigint 7)] }
  escrowId _ := some "e1"
  result _ := { skipped := true, reason := none }
  operations _ := none

/-- Only `syncStateFromChain` is rejected. -/
theorem supported_failingSync : Supported .failingSync where
  read _ := rfl
  write _ _ := rfl
  enqueue _ := rfl
  margin := by decide

/-- An event that always fails: it is tried five times and no more, and every time in order. -/
theorem failing_event_bounded :
    let E := ContractEvents.one 15
    let notes := allNotes E .unset (.fresh 20 none) (List.replicate 7 fun _ => .failingSync)
    failures (.sample 15) notes = 5 ∧ failures (.sample 15) notes ≤ MAX_SYNC_RETRIES ∧
      ∀ note ∈ notes, note.InOrder E none := by
  intro E notes
  have hbound := sync_ordered_and_bounded E .unset (.fresh 20 none) rfl (fun _ => rfl)
    (List.replicate 7 fun _ => .failingSync) (by
      intro env henv n
      rw [List.eq_of_mem_replicate henv]
      exact supported_failingSync)
  exact ⟨by decide +kernel, hbound.2 _, hbound.1⟩

end TrustLink
