import TrustLink.Ingest.Poller

/-!
# TrustLink — what wedges the poller, and what it does twice

An event that fails in `syncStateFromChain` is counted and given up after `MAX_SYNC_RETRIES`
attempts. Two things escape the counter. An event that is thrown back earlier, because the lookup of
its escrow id is rejected, is not counted at all and is fetched again for ever. And a poll that
finds the contract quiet goes back to the margin, whichever events have been dealt with there: they
are fetched again, fail again from a counter that starts at zero, and get another dead letter.

`event_never_wedged` and `letters_le_one` are what remains: an event that is not thrown back early
holds up fewer than `MAX_SYNC_RETRIES` polls, and an event gets one dead letter, as long as the
poller is never taken back in front of it.
-/

namespace TrustLink

open Effects JsNumber Store SorobanPollerService CursorService

/-- A ledger before the margin is behind the poller once it is rewound. -/
theorem lt_pos_margin {E : ContractEvents} {i latest latest' : Nat} {e : SorobanRpcEvent}
    (he : E.events[i]? = some e) (hbefore : e.ledger < marginLedger latest)
    (hle : latest ≤ latest') :
    i < E.pos (ledgerCursor (marginLedger latest')) := by
  rw [pos_ledgerCursor]
  apply Feed.lt_pos_atStamp (F := E.feed) he
  apply Nat.lt_of_lt_of_le hbefore
  unfold marginLedger
  omega

/-! ## Dead letters

A letter is written where the position moves on, so that an event behind the position has one at
most; only a rewind can bring it in front again. -/

def IngestObs.isLetter (e : SorobanRpcEvent) : IngestObs → Bool
  | .enqueued input => input.ledgerFeedback = e.feedback
  | _ => false

/-- The dead letters of an event. -/
def letters (e : SorobanRpcEvent) (journal : List IngestObs) : Nat :=
  journal.countP (IngestObs.isLetter e)

/-- The poll does not find the contract quiet while an event with a dead letter is within the margin
of the latest ledger. -/
def LettersBehind (E : ContractEvents) (c : PollCycle) : Prop :=
  .fetched [] ∈ c.notes → ∀ e ∈ E.events, 0 < letters e c.before.journal →
    e.ledger < marginLedger c.before.latest

instance (E : ContractEvents) (c : PollCycle) : Decidable (LettersBehind E c) :=
  inferInstanceAs (Decidable (_ → ∀ e ∈ E.events, _))

/-- The poller is at the position `q`: an event with a dead letter is before it, and has one. -/
def LetteredOnce (E : ContractEvents) (q : Nat) (w : IngestWorld) (_ : List IngestNote) : Prop :=
  ∀ i e, E.events[i]? = some e →
    letters e w.journal ≤ 1 ∧ (0 < letters e w.journal → i < q)

section letters

variable {E : ContractEvents} {C : IngestConfig} {A : IngestChoice → Prop} {q : Nat}
  {w w' : IngestWorld} {seen notes : List IngestNote} {raw : SorobanRpcEvent}

/-- A letter for one event is none for another. -/
theorem feedback_ne {i : Nat} {e : SorobanRpcEvent} (hraw : E.events[q]? = some raw)
    (he : E.events[i]? = some e) (hne : i ≠ q) : raw.feedback ≠ e.feedback := by
  intro hsame
  have htoken : raw.pagingToken = e.pagingToken := congrArg LedgerFeedback.pagingToken hsame
  have hpos : q + 1 = i + 1 := by
    rw [← pos_pagingToken hraw, ← pos_pagingToken he, htoken]
  omega

/-- The next event gets its letter. -/
theorem LetteredOnce.lettered (h : LetteredOnce E q w seen) (hraw : E.events[q]? = some raw)
    {journal : List IngestObs} (hletter : Lettered A raw w.journal journal) (i : Nat)
    (e : SorobanRpcEvent) (he : E.events[i]? = some e) :
    letters e journal ≤ 1 ∧ (0 < letters e journal → i < q + 1) := by
  obtain ⟨hone, hbehind⟩ := h i e he
  rcases hletter with ⟨input, hinput, rfl⟩ | ⟨rfl, _⟩
  · unfold letters at *
    rw [List.countP_cons]
    by_cases hi : i = q
    · subst hi
      rw [hraw] at he
      cases he
      have hnone : ¬ 0 < w.journal.countP (IngestObs.isLetter raw) := fun hpos => by
        have := hbehind hpos
        omega
      split <;> omega
    · have hother : IngestObs.isLetter e (.enqueued input) = false := by
        simp [IngestObs.isLetter, hinput, feedback_ne hraw he hi]
      rw [hother]
      simp only [Bool.false_eq_true, if_false, Nat.add_zero]
      exact ⟨hone, fun hpos => by have := hbehind hpos; omega⟩
  · exact ⟨hone, fun hpos => by have := hbehind hpos; omega⟩

/-- A letter and a step of the position go together. -/
theorem letteredOnce_position : PositionInvariant E C A (LetteredOnce E) where
  later := by
    intro q w w' seen h hw i e he
    rw [hw.journal]
    exact h i e he
  fetched := fun _ h => h
  stored := by
    intro cursor w seen h i e he
    have hstored : letters e (w.store cursor).journal = letters e w.journal :=
      List.countP_cons_of_neg Bool.false_ne_true
    rw [hstored]
    exact h i e he
  passed := by
    intro q raw w w' notes seen h hraw _ hevent i e he
    cases hevent with
    | lettered hletter hw =>
      rw [hw.journal]
      exact h.lettered hraw hletter i e he
    | synced hw =>
      have hsame : letters e (.synced raw :: w.journal) = letters e w.journal :=
        List.countP_cons_of_neg Bool.false_ne_true
      rw [hw.journal, hsame]
      obtain ⟨hone, hbehind⟩ := h i e he
      exact ⟨hone, fun hpos => Nat.lt_succ_of_lt (hbehind hpos)⟩
    | exhausted _ hletter hw =>
      rw [hw.journal]
      exact h.lettered hraw hletter i e he
  kept := by
    intro q raw w w' e' notes seen h _ _ hevent i e he
    cases hevent with
    | refused _ hw =>
      rw [hw.journal]
      exact h i e he
    | retried _ hw =>
      rw [hw.journal]
      exact h i e he

/-- A quiet poll is taken back, but not in front of an event with a dead letter. -/
theorem letteredOnce_rewound
    (hbehind : ∀ e ∈ E.events, 0 < letters e w.journal →
      e.ledger < marginLedger w.latest) :
    RewindsSafely E A (LetteredOnce E) w seen := by
  intro cursor m w₁ w₂ ch _ _ _ hlater hlatest hle hletters h i e he
  have hjournal : letters e (w₂.store (ledgerCursor
      (marginLedger w₂.latest))).journal = letters e w₁.journal := by
    rw [← hlater.journal]
    exact List.countP_cons_of_neg Bool.false_ne_true
  rw [hjournal]
  refine ⟨(h i e he).1, fun hpos => ?_⟩
  -- the letter was there when the poll started
  obtain ⟨o, ho, hletter⟩ := List.countP_pos_iff.mp hpos
  cases o with
  | enqueued input =>
    have hbefore : 0 < letters e w.journal :=
      List.countP_pos_iff.mpr ⟨_, hletters input ho, hletter⟩
    exact lt_pos_margin he (hbehind e (List.mem_of_getElem? he) hbefore)
      (Nat.le_trans hle hlater.latest)
  | stored id cursorValue => cases hletter
  | synced source => cases hletter

end letters

/-- In every run of one process in which no poll finds the contract quiet while an event with a dead
letter is within the margin, an event gets at most one. -/
theorem letters_le_one (E : ContractEvents) (C : IngestConfig) (w : IngestWorld)
    (hjournal : w.journal = []) (polls : List (Nat → IngestChoice))
    (hkept : ∀ env ∈ polls, ∀ n, CursorsKept (env n))
    (hbehind : ∀ c ∈ pollCycles E C w polls, LettersBehind E c) (e : SorobanRpcEvent)
    (he : e ∈ E.events) : letters e (runPolls E C w polls).journal ≤ 1 := by
  have hstart : Resting E (LetteredOnce E) w [] := by
    constructor
    · intro cursor _ i e _
      rw [hjournal]
      exact ⟨Nat.zero_le 1, fun hpos => absurd hpos (Nat.lt_irrefl 0)⟩
    · intro _ ledger i e _
      have hnone : letters e (w.store (ledgerCursor ledger)).journal = 0 := by
        show letters e (.stored DEFAULT_KEY _ :: w.journal) = 0
        rw [hjournal]
        rfl
      rw [hnone]
      exact ⟨Nat.zero_le 1, fun hpos => absurd hpos (Nat.lt_irrefl 0)⟩
  have hend := resting_run hkept (fun env _ => letteredOnce_position) (fun w seen env _ hK hquiet =>
    letteredOnce_rewound (hK (by rw [hquiet]; exact List.mem_singleton_self _))) hbehind hstart
  obtain ⟨i, hi⟩ := List.mem_iff_getElem?.mp he
  cases hstored : truthy ((runPolls E C w polls).cursors DEFAULT_KEY) with
  | some cursor => exact (hend.stored cursor hstored i e hi).1
  | none =>
    have hone := (hend.unstored hstored 0 i e hi).1
    have hsame : letters e ((runPolls E C w polls).store (ledgerCursor 0)).journal =
        letters e (runPolls E C w polls).journal :=
      List.countP_cons_of_neg Bool.false_ne_true
    rw [hsame] at hone
    exact hone

theorem cursorsKept_rejecting : CursorsKept (.rejecting fun _ => false) where
  read _ := rfl
  write _ _ := rfl

/-- The event cannot be parsed and gets a letter; when the contract is found quiet the event is far
behind, and it is not fetched again. -/
theorem letters_le_one_far :
    let E := ContractEvents.one 15
    let polls : List (Nat → IngestChoice) := List.replicate 3 fun _ => .rejecting fun _ => false
    let w := IngestWorld.fresh 100 (some "ledger:1")
    (runPolls E .unset w polls).cursors DEFAULT_KEY = some "ledger:90" ∧
      letters (.sample 15) (runPolls E .unset w polls).journal ≤ 1 := by
  intro E polls w
  refine ⟨by decide +kernel, ?_⟩
  apply letters_le_one E .unset w rfl polls
  · intro env henv n
    rw [List.eq_of_mem_replicate henv]
    exact cursorsKept_rejecting
  · decide +kernel
  · exact List.mem_singleton_self _

/-- Nothing fails. The event cannot be parsed and gets a letter, the contract is quiet for one poll,
and in the next the event is fetched again and gets another one. -/
theorem lettered_twice :
    let E := ContractEvents.one 15
    let polls : List (Nat → IngestChoice) := List.replicate 3 fun _ => .rejecting fun _ => false
    letters (.sample 15) (runPolls E .unset (.fresh 20 none) polls).journal = 2 := by
  decide +kernel

/-! ## Wedged polls

A poll is wedged by the event at the position, and each wedged poll is one more failure in its
counter. -/

/-- The stored cursor is past the event at `i`. -/
def IngestWorld.past (E : ContractEvents) (i : Nat) (w : IngestWorld) : Bool :=
  match truthy (w.cursors DEFAULT_KEY) with
  | some cursor => decide (i < E.pos cursor)
  | none => false

/-- The page that was returned starts with the event. -/
def IngestNote.startsWith (e : SorobanRpcEvent) : IngestNote → Bool
  | .fetched (first :: _) => first = e
  | _ => false

/-- The event, which is at `i`, was returned first, and the stored cursor is still not past it. -/
def heldUp (E : ContractEvents) (i : Nat) (e : SorobanRpcEvent) (notes : List IngestNote)
    (w : IngestWorld) : Bool :=
  notes.any (IngestNote.startsWith e) && !w.past E i

/-- How many polls of a run an event has held up. -/
def wedgedPolls (E : ContractEvents) (C : IngestConfig) (w : IngestWorld)
    (polls : List (Nat → IngestChoice)) (i : Nat) (e : SorobanRpcEvent) : Nat :=
  (pollCycles E C w polls).countP fun c => heldUp E i e c.notes c.after

/-- The poll does not find the contract quiet while the event, which it is past, is within the
margin of the latest ledger. -/
def StaysBehind (E : ContractEvents) (i : Nat) (e : SorobanRpcEvent) (c : PollCycle) : Prop :=
  c.before.past E i = true → .fetched [] ∈ c.notes →
    e.ledger < marginLedger c.before.latest

instance (E : ContractEvents) (i : Nat) (e : SorobanRpcEvent) (c : PollCycle) :
    Decidable (StaysBehind E i e c) :=
  inferInstanceAs (Decidable (_ → _ → _))

/-- After `n` wedged polls: as long as the poller is not past the event, the event is next, it is
visible, and the process remembers at least `n` failures of it. -/
structure Held (E : ContractEvents) (i : Nat) (e : SorobanRpcEvent) (n : Nat) (w : IngestWorld) :
    Prop where
  few : n < MAX_SYNC_RETRIES
  next : 0 < n → w.past E i = false →
    (∃ cursor, truthy (w.cursors DEFAULT_KEY) = some cursor ∧ E.pos cursor = i) ∧
      e.ledger ≤ w.latest ∧ n ≤ w.failedAttempts e.id

section held

variable {E : ContractEvents} {C : IngestConfig} {A : IngestChoice → Prop} {i n : Nat}
  {e : SorobanRpcEvent} {w w' : IngestWorld} {notes : List IngestNote} {cursor : String}

/-- The position of the cursor that is stored decides it. -/
theorem past_of_stored (h : truthy (w.cursors DEFAULT_KEY) = some cursor) :
    w.past E i = decide (i < E.pos cursor) := by
  unfold IngestWorld.past
  rw [h]

/-- Neither the cursor nor the counter changes while time passes. -/
theorem Held.later (h : Held E i e n w) (hw : Later w w') : Held E i e n w' := by
  refine ⟨h.few, fun hpos hnot => ?_⟩
  have hsame : w.past E i = false := by
    unfold IngestWorld.past at hnot ⊢
    rw [hw.stored_eq] at hnot
    exact hnot
  obtain ⟨hstored, hvisible, hcount⟩ := h.next hpos hsame
  refine ⟨?_, Nat.le_trans hvisible hw.latest, ?_⟩
  · rw [hw.stored_eq]
    exact hstored
  · unfold IngestWorld.failedAttempts at *
    rw [hw.counts]
    exact hcount

/-- The notes of events are no pages. -/
theorem BatchStep.not_startsWith {page handled : List SorobanRpcEvent}
    (h : BatchStep C A page w handled w' notes) : notes.any (IngestNote.startsWith e) = false := by
  have hevent : ∀ {raw w r w' notes}, EventStep C A raw w r w' notes →
      notes.any (IngestNote.startsWith e) = false := by
    intro raw w r w' notes hevent
    cases hevent <;> rfl
  induction h with
  | done => rfl
  | stopped hstep => exact hevent hstep
  | next hstep _ ih => rw [List.any_append, ih, hevent hstep]; rfl

/-- The one page of a poll is the one it has fetched. -/
theorem BatchStep.startsWith_page {page handled : List SorobanRpcEvent}
    (h : BatchStep C A page w handled w' notes) :
    (notes ++ [IngestNote.fetched page]).any (IngestNote.startsWith e) =
      IngestNote.startsWith e (.fetched page) := by
  rw [List.any_append, h.not_startsWith]
  exact Bool.or_false _

/-- A poll that is stopped at the first event of its page: the event is thrown back and counted, or
it is another one. -/
theorem Held.stopped {page : List SorobanRpcEvent} (he : E.events[i]? = some e)
    (hready : ¬ Refusable C A e)
    (hstored : truthy (w.cursors DEFAULT_KEY) = some cursor)
    (haligned : Aligned E (E.pos cursor) w.latest page)
    (hbatch : BatchStep C A page w [] w' notes) (h : Held E i e n w) :
    Held E i e (n + if heldUp E i e (notes ++ [.fetched page]) w' then 1 else 0) w' := by
  have hpast : w'.past E i = decide (i < E.pos cursor) := by
    apply past_of_stored
    rw [hbatch.cursors_eq]
    exact hstored
  have hbefore : w.past E i = decide (i < E.pos cursor) := past_of_stored hstored
  have hnotes := hbatch.startsWith_page (e := e)
  cases hbatch with
  | done => exact h
  | @stopped raw rest _ _ err notes hevent =>
    obtain ⟨hraw, hvisible⟩ := haligned.head
    have hheld : heldUp E i e (notes ++ [.fetched (raw :: rest)]) w' =
        (decide (raw = e) && !decide (i < E.pos cursor)) := by
      unfold heldUp
      rw [hnotes, hpast]
      rfl
    rw [hheld]
    by_cases hsame : raw = e
    · subst hsame
      have hpos : E.pos cursor = i := position_unique hraw he
      have hnot : w.past E i = false := by
        rw [hbefore, hpos]
        exact decide_eq_false (Nat.lt_irrefl i)
      have hremembered : n ≤ w.failedAttempts raw.id := by
        rcases Nat.eq_zero_or_pos n with hzero | hmany
        · omega
        · exact (h.next hmany hnot).2.2
      cases hevent with
      | refused hrefusable _ => exact absurd hrefusable hready
      | retried hcount hw =>
        have hcounted : w'.failedAttempts raw.id = w.failedAttempts raw.id + 1 := by
          simp [IngestWorld.failedAttempts, hw.counts]
        have hone : (if (decide (raw = raw) && !decide (i < E.pos cursor)) = true then 1 else 0) =
            1 := by
          simp [hpos]
        rw [hone]
        refine ⟨by omega, fun _ _ => ⟨⟨cursor, ?_, hpos⟩, ?_, by omega⟩⟩
        · rw [show w'.cursors = w.cursors from hw.cursors]
          exact hstored
        · exact Nat.le_trans hvisible hw.latest
    · -- another event is next, so this one has not held up anything, or is passed
      have hnone : (if (decide (raw = e) && !decide (i < E.pos cursor)) = true then 1 else 0) =
          0 := by
        simp [hsame]
      rw [hnone]
      refine ⟨h.few, fun hmany hnot => ?_⟩
      exfalso
      rw [hpast, ← hbefore] at hnot
      obtain ⟨⟨cursor', hcursor', hpos⟩, _⟩ := h.next hmany hnot
      rw [hstored] at hcursor'
      cases hcursor'
      rw [hpos, he] at hraw
      exact hsame (Option.some.inj hraw).symm

/-- A poll that has dealt with the first event of its page, at least: it is past the event, or the
event has not held up anything. -/
theorem Held.advanced {page handled : List SorobanRpcEvent} {last : SorobanRpcEvent}
    {w₁ : IngestWorld} (he : E.events[i]? = some e)
    (hstored : truthy (w.cursors DEFAULT_KEY) = some cursor)
    (haligned : Aligned E (E.pos cursor) w.latest page)
    (hbatch : BatchStep C A page w handled w₁ notes) (hlast : handled.getLast? = some last)
    (hw : Later (w₁.store last.pagingToken) w') (h : Held E i e n w) :
    Held E i e (n + if heldUp E i e (notes ++ [.fetched page]) w' then 1 else 0) w' := by
  have hpos := hbatch.pos_last haligned hlast
  have hlength : 0 < handled.length := by
    rcases List.eq_nil_or_concat handled with rfl | ⟨before, x, rfl⟩
    · cases hlast
    · simp
  have hpast : w'.past E i = decide (i < E.pos cursor + handled.length) := by
    rw [← hpos]
    apply past_of_stored
    rw [hw.stored_eq]
    exact truthy_store (hbatch.token_ne haligned hlast)
  have hbefore : w.past E i = decide (i < E.pos cursor) := past_of_stored hstored
  have hnone : heldUp E i e (notes ++ [.fetched page]) w' = false := by
    unfold heldUp
    rw [hbatch.startsWith_page, hpast]
    cases page with
    | nil => rfl
    | cons raw rest =>
      by_cases hsame : raw = e
      · subst hsame
        have hhere : E.pos cursor = i := position_unique haligned.head.1 he
        have hlt : i < E.pos cursor + handled.length := by omega
        simp [hlt]
      · simp [IngestNote.startsWith, hsame]
  rw [hnone]
  refine ⟨h.few, fun hmany hnot => ?_⟩
  -- the event would have been the first of the page
  exfalso
  rw [hpast] at hnot
  have hle := of_decide_eq_false hnot
  have hnot' : w.past E i = false := by
    rw [hbefore]
    exact decide_eq_false (by omega)
  obtain ⟨⟨cursor', hcursor', hhere⟩, _⟩ := h.next hmany hnot'
  rw [hstored] at hcursor'
  cases hcursor'
  omega

/-- One fetch, with what it adds to the count. -/
theorem Held.fetch (hkept : ∀ ch, A ch → CursorsKept ch) (he : E.events[i]? = some e)
    (hready : ¬ Refusable C A e)
    (hstored : truthy (w.cursors DEFAULT_KEY) = some cursor)
    (hfetch : FetchStep E C A cursor w w' notes)
    (hbehind : 0 < n → w.past E i = true → .fetched [] ∈ notes →
      e.ledger < marginLedger w.latest) (h : Held E i e n w) :
    Held E i e (n + if heldUp E i e notes w' then 1 else 0) w' := by
  cases hfetch with
  | unanswered hw => exact h.later hw
  | quiet _ hw₁ _ hw => exact h.later (hw₁.trans hw)
  | @rewound m w₁ w₂ _ ch hmark hw₁ hpage _ hw₂ _ hw =>
    have hw := hw.kept hkept
    refine ⟨h.few, fun hpos hnot => ?_⟩
    exfalso
    cases hpast : w.past E i with
    | true =>
      -- it is still past the event
      have hlt := lt_pos_margin he (hbehind hpos hpast (List.mem_singleton_self _))
        (Nat.le_trans hw₁.latest hw₂.latest)
      rw [past_of_stored (hw.stored_eq ▸ truthy_store (ledgerCursor_ne _))] at hnot
      exact of_decide_eq_false hnot hlt
    | false =>
      -- the event would have been on the page
      obtain ⟨⟨cursor', hcursor', hnext⟩, hvisible, _⟩ := h.next hpos hpast
      rw [hstored] at hcursor'
      cases hcursor'
      have hmem : e ∈ E.feed.page w₁.latest 100 m := by
        have hmarked := pos_of_mark (E := E) hmark
        exact Feed.mem_page he (by omega) (by omega) (Nat.le_trans hvisible hw₁.latest)
      rw [hpage] at hmem
      cases hmem
  | stopped hmark hw₁ hpage hbatch =>
    exact (h.later hw₁).stopped he hready (hw₁.stored_eq ▸ hstored) (aligned_page hmark hpage)
      hbatch
  | advanced hmark hw₁ hpage hbatch hlast hw =>
    exact (h.later hw₁).advanced he (hw₁.stored_eq ▸ hstored) (aligned_page hmark hpage) hbatch
      hlast (hw.kept hkept)

/-- One poll. Where nothing usable is stored, the event cannot have held up anything. -/
theorem Held.poll (hkept : ∀ ch, A ch → CursorsKept ch) (he : E.events[i]? = some e)
    (hready : ¬ Refusable C A e) (hstep : PollStep E C A (w.cursors DEFAULT_KEY) w w' notes)
    (hbehind : w.past E i = true → .fetched [] ∈ notes →
      e.ledger < marginLedger w.latest) (h : Held E i e n w) :
    Held E i e (n + if heldUp E i e notes w' then 1 else 0) w' := by
  cases hstep with
  | nothing hw => exact h.later hw
  | @resumed cursor w₁ _ _ hstored hw₁ hfetch =>
    have hstored₁ : truthy (w₁.cursors DEFAULT_KEY) = some cursor :=
      hw₁.stored_eq ▸ hstored
    apply (h.later hw₁).fetch hkept he hready hstored₁ hfetch
    intro _ hpast hquiet
    rw [past_of_stored hstored₁, ← past_of_stored hstored] at hpast
    have hledger := hbehind hpast hquiet
    have hlatest := hw₁.latest
    unfold marginLedger at *
    omega
  | started hstored hw₁ hw₂ hfetch =>
    have hnot : w.past E i = false := by
      unfold IngestWorld.past
      rw [hstored]
    obtain rfl : n = 0 := by
      rcases Nat.eq_zero_or_pos n with hzero | hmany
      · exact hzero
      · obtain ⟨⟨cursor, hcursor, _⟩, _⟩ := h.next hmany hnot
        rw [hstored] at hcursor
        cases hcursor
    have hfirst : ∀ w₂, Held E i e 0 w₂ :=
      fun w₂ => ⟨by decide, fun hmany => absurd hmany (Nat.lt_irrefl 0)⟩
    have hw₂ := hw₂.kept hkept
    apply (hfirst _).fetch hkept he hready (hw₂.stored_eq ▸ truthy_store (ledgerCursor_ne _)) hfetch
    intro hmany
    exact absurd hmany (Nat.lt_irrefl 0)

/-- A whole run, by induction over its polls. -/
theorem held_run (he : E.events[i]? = some e) {polls : List (Nat → IngestChoice)}
    (hkept : ∀ env ∈ polls, ∀ n, CursorsKept (env n))
    (hready : ∀ env ∈ polls, ¬ Refusable C (Chosen env) e)
    (hbehind : ∀ c ∈ pollCycles E C w polls, StaysBehind E i e c) (h : Held E i e n w) :
    n + wedgedPolls E C w polls i e < MAX_SYNC_RETRIES := by
  induction polls generalizing w n with
  | nil => exact h.few
  | cons env polls ih =>
    have hfirst : env ∈ env :: polls := List.mem_cons_self
    have hafter : Held E i e (n + if heldUp E i e (pollCycle E C w env).notes
        (pollCycle E C w env).after then 1 else 0) (pollCycle E C w env).after :=
      h.poll (kept_of_chosen (hkept env hfirst)) he (hready env hfirst)
        (pollStep_kept (hkept env hfirst))
        (hbehind (pollCycle E C w env) List.mem_cons_self)
    have hrest := ih (fun env' h => hkept env' (List.mem_cons_of_mem _ h))
      (fun env' h => hready env' (List.mem_cons_of_mem _ h))
      (fun c hc => hbehind c (List.mem_cons_of_mem _ hc)) hafter
    have hcount : wedgedPolls E C w (env :: polls) i e =
        wedgedPolls E C (pollCycle E C w env).after polls i e +
          if heldUp E i e (pollCycle E C w env).notes (pollCycle E C w env).after then 1 else 0 :=
      List.countP_cons
    rw [hcount]
    omega

end held

/-- In every run of one process in which the event is not thrown back before it is applied, and the
poller is not taken back in front of it, the event holds up fewer than `MAX_SYNC_RETRIES` polls. -/
theorem event_never_wedged (E : ContractEvents) (C : IngestConfig) (w : IngestWorld)
    (polls : List (Nat → IngestChoice)) (hkept : ∀ env ∈ polls, ∀ n, CursorsKept (env n))
    (i : Nat) (e : SorobanRpcEvent) (he : E.events[i]? = some e)
    (hready : ∀ env ∈ polls, ¬ Refusable C (Chosen env) e)
    (hbehind : ∀ c ∈ pollCycles E C w polls, StaysBehind E i e c) :
    wedgedPolls E C w polls i e < MAX_SYNC_RETRIES := by
  have hstart : Held E i e 0 w := ⟨by decide, fun hmany => absurd hmany (Nat.lt_irrefl 0)⟩
  have hend := held_run he hkept hready hbehind hstart
  omega

/-- The event is decoded, and the calls in `fault` are rejected. -/
def IngestChoice.decoding (fault : IngestCall → Bool) : IngestChoice :=
  { IngestChoice.rejecting fault with
    parsed := fun _ => some
      { topics := [.string "Escrow", .string "Funded"]
        data := .object [("escrow_id", .bigint (2 ^ 64 - 1))] }
    escrowId := fun _ => some "e1" }

def IngestCall.appliesState : IngestCall → Bool
  | .syncStateFromChain _ _ => true
  | _ => false

def IngestCall.looksUpEscrow : IngestCall → Bool
  | .findIdByContractEscrowId _ => true
  | _ => false

/-- Its state cannot be applied: the event holds up four polls, then it is given up. -/
theorem failing_event_passed :
    let E := ContractEvents.one 15
    let polls : List (Nat → IngestChoice) :=
      List.replicate 6 fun _ => .decoding IngestCall.appliesState
    let w := IngestWorld.fresh 100 (some "ledger:1")
    wedgedPolls E .unset w polls 0 (.sample 15) = 4 ∧
      wedgedPolls E .unset w polls 0 (.sample 15) < MAX_SYNC_RETRIES := by
  intro E polls w
  refine ⟨by decide +kernel, ?_⟩
  apply event_never_wedged E .unset w polls
  · intro env henv n
    rw [List.eq_of_mem_replicate henv]
    exact ⟨fun _ => rfl, fun _ _ => rfl⟩
  · rfl
  · rintro env henv ⟨ch, ⟨n, rfl⟩, hrefused⟩
    rw [List.eq_of_mem_replicate henv] at hrefused
    rcases hrefused with hparse | ⟨parsed, hparsed, hlookup⟩
    · exact hparse rfl
    · cases hparsed
      obtain ⟨ch', ⟨n', rfl⟩, hfault⟩ := hlookup
      exact hfault rfl
  · decide +kernel

/-- The lookup of its escrow id is rejected, because the id does not fit the column: the event is
thrown back in every poll. -/
theorem event_wedged :
    let E := ContractEvents.one 15
    let polls : List (Nat → IngestChoice) :=
      List.replicate 6 fun _ => .decoding IngestCall.looksUpEscrow
    wedgedPolls E .unset (.fresh 20 none) polls 0 (.sample 15) = 6 := by
  decide +kernel

end TrustLink
