import TrustLink.Ingest.Cycles

/-!
# TrustLink — the poller moves through the events

Whatever kind of cursor is stored, it is a position among the contract's events, and a poll moves
that position: forward by the events it has dealt with, and back to the margin when the contract is
quiet. `PositionInvariant` is what a fact about the position, the world and the notes has to satisfy
to be kept by a poll; where the poller is rewound the statement at hand has to say why
(`PollStep.resting`).
-/

namespace TrustLink

open Effects JsNumber Store SorobanPollerService CursorService

variable {E : ContractEvents} {C : IngestConfig} {A : IngestChoice → Prop}

/-- Events are told apart by their tokens. -/
theorem position_unique {i j : Nat} {e : SorobanRpcEvent} (hi : E.events[i]? = some e)
    (hj : E.events[j]? = some e) : i = j := by
  have hsame : i + 1 = j + 1 := (pos_pagingToken hi).symm.trans (pos_pagingToken hj)
  omega

/-- The events of the page are those from the position `q` on, and they are visible. -/
def Aligned (E : ContractEvents) (q latest : Nat) (page : List SorobanRpcEvent) : Prop :=
  ∀ k e, page[k]? = some e → E.events[q + k]? = some e ∧ e.ledger ≤ latest

/-- A page starts where its cursor points. -/
theorem aligned_page {cursor : String} {m : Mark String} {now : Nat} {page : List SorobanRpcEvent}
    (hmark : (eventsFrom cursor).mark = some m) (hpage : E.feed.page now 100 m = page) :
    Aligned E (E.pos cursor) now page := by
  intro k e he
  rw [← hpage] at he
  rw [pos_of_mark hmark]
  exact Feed.page_get he

section aligned

variable {q latest : Nat} {raw : SorobanRpcEvent} {rest : List SorobanRpcEvent}

theorem Aligned.head (h : Aligned E q latest (raw :: rest)) :
    E.events[q]? = some raw ∧ raw.ledger ≤ latest := by
  have hfirst := h 0 raw rfl
  rw [Nat.add_zero] at hfirst
  exact hfirst

/-- The rest of the page, which is still visible later. -/
theorem Aligned.tail {latest' : Nat} (h : Aligned E q latest (raw :: rest))
    (hle : latest ≤ latest') : Aligned E (q + 1) latest' rest := by
  intro k e he
  obtain ⟨hevent, hvisible⟩ := h (k + 1) e he
  refine ⟨?_, Nat.le_trans hvisible hle⟩
  rw [Nat.add_assoc, Nat.add_comm 1 k]
  exact hevent

end aligned

/-- While an event is processed no cursor is stored, and time does not go back. -/
theorem EventStep.frame {raw : SorobanRpcEvent} {w w' : IngestWorld} {r : Except Err Unit}
    {notes : List IngestNote} (h : EventStep C A raw w r w' notes) :
    w'.cursors = w.cursors ∧ w.latest ≤ w'.latest := by
  cases h with
  | refused _ hw => exact ⟨hw.cursors, hw.latest⟩
  | lettered _ hw => exact ⟨hw.cursors, hw.latest⟩
  | synced hw => exact ⟨hw.cursors, hw.latest⟩
  | retried _ hw => exact ⟨hw.cursors, hw.latest⟩
  | exhausted _ _ hw => exact ⟨hw.cursors, hw.latest⟩

/-- Neither does a batch. -/
theorem BatchStep.cursors_eq {page handled : List SorobanRpcEvent} {w w' : IngestWorld}
    {notes : List IngestNote} (h : BatchStep C A page w handled w' notes) :
    w'.cursors = w.cursors := by
  induction h with
  | done => rfl
  | stopped hevent => exact hevent.frame.1
  | next hevent _ ih => exact ih.trans hevent.frame.1

/-! ## Invariants of the position

The position belongs to no variable of the program. It is that of the stored cursor between two
polls, and within a batch it runs ahead of it. -/

/-- The ledger that a quiet poll goes back to is not behind what the empty page has shown, if fewer
ledgers than the margin have closed since. -/
theorem pos_margin_le {cursor : String} {m : Mark String} {seen latest closed : Nat}
    (hmark : (eventsFrom cursor).mark = some m) (hpage : E.feed.page seen 100 m = [])
    (hlatest : latest = seen + closed) (hmargin : closed < START_LEDGER_MARGIN) :
    E.pos (ledgerCursor (marginLedger latest)) ≤ E.pos cursor := by
  have hledger : marginLedger latest ≤ seen + 1 := by
    unfold marginLedger START_LEDGER_MARGIN at *
    omega
  rw [pos_ledgerCursor, pos_of_mark hmark]
  exact Nat.le_trans (Feed.pos_atStamp_mono hledger) (Feed.page_nil (by omega) hpage)

/-- A fact about the position, the world and the notes that single steps keep. -/
structure PositionInvariant (E : ContractEvents) (C : IngestConfig) (A : IngestChoice → Prop)
    (I : Nat → IngestWorld → List IngestNote → Prop) : Prop where
  later : ∀ {q w w' seen}, I q w seen → Later w w' → I q w' seen
  fetched : ∀ {q w seen} page, I q w seen → I q w (.fetched page :: seen)
  stored : ∀ {cursor w seen}, I (E.pos cursor) w seen → I (E.pos cursor) (w.store cursor) seen
  /-- An event is dealt with. -/
  passed : ∀ {q raw w w' notes seen}, I q w seen → E.events[q]? = some raw → raw.ledger ≤ w.latest →
    EventStep C A raw w (.ok ()) w' notes → I (q + 1) w' (notes ++ seen)
  /-- An event is thrown back. -/
  kept : ∀ {q raw w w' e notes seen}, I q w seen → E.events[q]? = some raw → raw.ledger ≤ w.latest →
    EventStep C A raw w (.error e) w' notes → I q w' (notes ++ seen)

variable {I : Nat → IngestWorld → List IngestNote → Prop} {w w' : IngestWorld}
  {notes seen : List IngestNote}

/-- The position moves by the events that were dealt with. -/
theorem BatchStep.position (hI : PositionInvariant E C A I) {page handled : List SorobanRpcEvent}
    (h : BatchStep C A page w handled w' notes) {q : Nat} (haligned : Aligned E q w.latest page)
    (hw : I q w seen) : I (q + handled.length) w' (notes ++ seen) := by
  induction h generalizing q seen with
  | done => exact hw
  | stopped hevent =>
    obtain ⟨hraw, hvisible⟩ := haligned.head
    exact hI.kept hw hraw hvisible hevent
  | next hevent _ ih =>
    obtain ⟨hraw, hvisible⟩ := haligned.head
    have hnext := ih (haligned.tail hevent.frame.2) (hI.passed hw hraw hvisible hevent)
    rw [List.append_assoc, List.length_cons, Nat.add_comm _ 1, ← Nat.add_assoc]
    exact hnext

/-- Behind the last event that was dealt with. -/
theorem BatchStep.pos_last {page handled : List SorobanRpcEvent} {e : SorobanRpcEvent} {q : Nat}
    (h : BatchStep C A page w handled w' notes) (haligned : Aligned E q w.latest page)
    (hlast : handled.getLast? = some e) : E.pos e.pagingToken = q + handled.length := by
  obtain ⟨rest, rfl⟩ := h.handled_subset
  obtain ⟨before, rfl⟩ := List.getLast?_eq_some_iff.mp hlast
  have hplace : ((before ++ [e]) ++ rest)[before.length]? = some e := by simp
  rw [pos_pagingToken (haligned before.length e hplace).1, List.length_append]
  rfl

/-- Its token is a cursor. -/
theorem BatchStep.token_ne {page handled : List SorobanRpcEvent} {e : SorobanRpcEvent} {q : Nat}
    (h : BatchStep C A page w handled w' notes) (haligned : Aligned E q w.latest page)
    (hlast : handled.getLast? = some e) : e.pagingToken ≠ "" := by
  obtain ⟨rest, rfl⟩ := h.handled_subset
  have hmem : e ∈ handled ++ rest := List.mem_append_left rest (List.mem_of_getLast? hlast)
  obtain ⟨k, hk⟩ := List.mem_iff_getElem?.mp hmem
  exact (E.plain e (List.mem_of_getElem? (haligned k e hk).1)).2

/-- Between two polls: the fact holds at the stored position, and where no cursor is stored it would
hold at any start ledger. -/
structure Resting (E : ContractEvents) (I : Nat → IngestWorld → List IngestNote → Prop)
    (w : IngestWorld) (seen : List IngestNote) : Prop where
  stored : ∀ cursor, truthy (w.cursors DEFAULT_KEY) = some cursor →
    I (E.pos cursor) w seen
  unstored : truthy (w.cursors DEFAULT_KEY) = none → ∀ ledger,
    I (E.pos (ledgerCursor ledger)) (w.store (ledgerCursor ledger)) seen

/-- What has to be shown where a quiet poll, which started in `w`, is rewound. -/
def RewindsSafely (E : ContractEvents) (A : IngestChoice → Prop)
    (I : Nat → IngestWorld → List IngestNote → Prop) (w : IngestWorld) (seen : List IngestNote) :
    Prop :=
  ∀ cursor m w₁ w₂ ch, (eventsFrom cursor).mark = some m → E.feed.page w₁.latest 100 m = [] →
    A ch → Later w₁ w₂ → w₂.latest = w₁.latest + ch.closed .getLatestLedger →
    w.latest ≤ w₁.latest → (∀ input, .enqueued input ∈ w₁.journal → .enqueued input ∈ w.journal) →
    I (E.pos cursor) w₁ seen →
    I (E.pos (ledgerCursor (marginLedger w₂.latest)))
      (w₂.store (ledgerCursor (marginLedger w₂.latest))) (.fetched [] :: seen)

@[simp] theorem truthy_store {cursor : String} (hne : cursor ≠ "") :
    truthy ((w.store cursor).cursors DEFAULT_KEY) = some cursor := by
  simp [IngestWorld.store, truthy, hne]

theorem Later.stored_eq (h : Later w w') : w'.cursors DEFAULT_KEY =
    w.cursors DEFAULT_KEY := by
  rw [h.cursors]

/-- Time may pass before or after a write. -/
theorem Later.store {cursor : String} (h : Later w w') :
    Later (w.store cursor) (w'.store cursor) := by
  constructor
  · show Function.update w'.cursors _ _ = Function.update w.cursors _ _
    rw [h.cursors]
  · exact h.counts
  · show _ :: w'.journal = _ :: w.journal
    rw [h.journal]
  · exact h.latest

/-- The position of the cursor that is stored in the end. -/
theorem FetchStep.position (hkept : ∀ ch, A ch → CursorsKept ch) (hI : PositionInvariant E C A I)
    {cursor : String} (h : FetchStep E C A cursor w w' notes)
    (hstored : truthy (w.cursors DEFAULT_KEY) = some cursor)
    (hw : I (E.pos cursor) w seen)
    (hrewound : notes = [.fetched []] → RewindsSafely E A I w seen) :
    ∃ cursor', truthy (w'.cursors DEFAULT_KEY) = some cursor' ∧
      I (E.pos cursor') w' (notes ++ seen) := by
  cases h with
  | unanswered hw' => exact ⟨cursor, hw'.stored_eq ▸ hstored, hI.later hw hw'⟩
  | quiet hmark hw₁ hpage hw' =>
    have hlater := hw₁.trans hw'
    exact ⟨cursor, hlater.stored_eq ▸ hstored, hI.fetched [] (hI.later hw hlater)⟩
  | rewound hmark hw₁ hpage hch hw₂ hlatest hw' =>
    have hw' := hw'.kept hkept
    refine ⟨_, hw'.stored_eq ▸ truthy_store (ledgerCursor_ne _), ?_⟩
    apply hI.later _ hw'
    apply hrewound rfl cursor _ _ _ _ hmark hpage hch hw₂ hlatest hw₁.latest
    · intro input hinput
      rw [hw₁.journal] at hinput
      exact hinput
    · exact hI.later hw hw₁
  | stopped hmark hw₁ hpage hbatch =>
    refine ⟨cursor, ?_, ?_⟩
    · rw [hbatch.cursors_eq, hw₁.cursors]
      exact hstored
    · rw [List.append_assoc]
      exact hbatch.position hI (aligned_page hmark hpage) (hI.fetched _ (hI.later hw hw₁))
  -- the cursor becomes the last handled event, which is where the batch has come to
  | @advanced _ _ _ _ page _ e _ hmark hw₁ hpage hbatch hlast hw' =>
    have hw' := hw'.kept hkept
    have haligned := aligned_page hmark hpage
    have hpos := hbatch.pos_last haligned hlast
    have hdone := hbatch.position hI haligned (hI.fetched page (hI.later hw hw₁))
    rw [← hpos] at hdone
    refine ⟨e.pagingToken, hw'.stored_eq ▸ truthy_store (hbatch.token_ne haligned hlast), ?_⟩
    rw [List.append_assoc]
    exact hI.later (hI.stored hdone) hw'

/-- What a poll keeps. -/
theorem PollStep.resting (hkept : ∀ ch, A ch → CursorsKept ch) (hI : PositionInvariant E C A I)
    (h : PollStep E C A (w.cursors DEFAULT_KEY) w w' notes) (hw : Resting E I w seen)
    (hrewound : notes = [.fetched []] → RewindsSafely E A I w seen) :
    Resting E I w' (notes ++ seen) := by
  -- after a fetch some cursor is stored
  have hfetched : (∃ cursor, truthy (w'.cursors DEFAULT_KEY) = some cursor ∧
      I (E.pos cursor) w' (notes ++ seen)) → Resting E I w' (notes ++ seen) := by
    rintro ⟨cursor, hcursor, hpos⟩
    constructor
    · intro cursor' hcursor'
      rw [hcursor] at hcursor'
      cases hcursor'
      exact hpos
    · intro hnone
      rw [hcursor] at hnone
      cases hnone
  cases h with
  | nothing hw' =>
    constructor
    · intro cursor hcursor
      rw [hw'.stored_eq] at hcursor
      exact hI.later (hw.stored cursor hcursor) hw'
    · intro hnone ledger
      rw [hw'.stored_eq] at hnone
      exact hI.later (hw.unstored hnone ledger) hw'.store
  | resumed hstored hw₁ hfetch =>
    apply hfetched
    apply hfetch.position hkept hI (hw₁.stored_eq ▸ hstored) (hI.later (hw.stored _ hstored) hw₁)
    intro hnotes cursor m w₂ w₃ ch hmark hpage hch hlater hlatest hle hletters
    apply hrewound hnotes cursor m w₂ w₃ ch hmark hpage hch hlater hlatest
      (Nat.le_trans hw₁.latest hle)
    intro input hinput
    rw [← hw₁.journal]
    exact hletters input hinput
  | started hstored hw₁ hw₂ hfetch =>
    apply hfetched
    have hw₂ := hw₂.kept hkept
    have hlater := hw₁.store.trans hw₂
    apply hfetch.position hkept hI (hw₂.stored_eq ▸ truthy_store (ledgerCursor_ne _))
      (hI.later (hw.unstored hstored _) hlater)
    intro hnotes cursor m w₃ w₄ ch hmark hpage hch hlater' hlatest hle hletters
    apply hrewound hnotes cursor m w₃ w₄ ch hmark hpage hch hlater' hlatest
      (Nat.le_trans hlater.latest hle)
    intro input hinput
    have hmem := hletters input hinput
    rw [hlater.journal] at hmem
    rcases List.mem_cons.mp hmem with hstore | hold
    · cases hstore
    · exact hold

/-- What a whole run keeps. `K` is what is asked of each poll, for the case that it is rewound. -/
theorem resting_run {K : PollCycle → Prop} {polls : List (Nat → IngestChoice)}
    (hkept : ∀ env ∈ polls, ∀ n, CursorsKept (env n))
    (hI : ∀ env ∈ polls, PositionInvariant E C (Chosen env) I)
    (hrewound : ∀ w seen, ∀ env ∈ polls, K (pollCycle E C w env) →
      (pollCycle E C w env).notes = [.fetched []] → RewindsSafely E (Chosen env) I w seen)
    (hK : ∀ c ∈ pollCycles E C w polls, K c) (hw : Resting E I w seen) :
    Resting E I (runPolls E C w polls) (allNotes E C w polls ++ seen) := by
  induction polls generalizing w seen with
  | nil => exact hw
  | cons env polls ih =>
    have hfirst : env ∈ env :: polls := List.mem_cons_self
    have hstep := pollStep_kept (E := E) (C := C) (w := w) (hkept env hfirst)
    have hafter := hstep.resting (kept_of_chosen (hkept env hfirst)) (hI env hfirst) hw
      (hrewound w seen env hfirst (hK _ List.mem_cons_self))
    have hrest := ih (fun env' h => hkept env' (List.mem_cons_of_mem _ h))
      (fun env' h => hI env' (List.mem_cons_of_mem _ h))
      (fun w' seen' env' h => hrewound w' seen' env' (List.mem_cons_of_mem _ h))
      (fun c hc => hK c (List.mem_cons_of_mem _ hc)) hafter
    have hnotes : allNotes E C w (env :: polls) ++ seen =
        allNotes E C (pollCycle E C w env).after polls ++ ((pollCycle E C w env).notes ++ seen) :=
      List.append_assoc _ _ _
    have hworld : runPolls E C w (env :: polls) =
        runPolls E C (pollCycle E C w env).after polls := by
      rw [pollCycle_after]
      rfl
    rw [hnotes, hworld]
    exact hrest

end TrustLink
