import TrustLink.Ingest.Positions

/-!
# TrustLink — the poller's cursor

Does the stored cursor ever move past an event that nobody has dealt with? An event is dealt with
when `syncStateFromChain` has returned for it or a dead letter has been stored for it.

`CursorInv` is the invariant: the events between the first stored cursor and the current one, and
between the first one and any that was stored on the way, have all been dealt with by then. A step
keeps it, because a cursor is stored only in three places: behind the last event of the batch
that was dealt with, at a ledger that is not behind what the last fetch has shown to be empty, and
at a start ledger when nothing was stored. The last is where `CursorService` deceives it: a cursor
that could not be read looks like one that was never stored.
-/

namespace TrustLink

open Effects JsNumber Store SorobanPollerService CursorService

/-! ## What has been dealt with

Read off the journal, which is written only by calls that were answered. It grows at its front, so
what has been dealt with stays so. -/

/-- The cursors that were stored for the poller. -/
def IngestObs.pollerCursor? : IngestObs → Option String
  | .stored id cursorValue => if id = DEFAULT_KEY then some cursorValue else none
  | _ => none

def IngestObs.handles (e : SorobanRpcEvent) : IngestObs → Prop
  | .stored _ _ => False
  | .synced source => source = e
  | .enqueued input => input.ledgerFeedback = e.feedback

def Handled (journal : List IngestObs) (e : SorobanRpcEvent) : Prop :=
  ∃ o ∈ journal, o.handles e

/-- The events from one cursor to another have been dealt with. -/
def Covered (E : ContractEvents) (journal : List IngestObs) (first cursor : String) : Prop :=
  ∀ i e, E.pos first ≤ i → i < E.pos cursor → E.events[i]? = some e → Handled journal e

/-- The first cursor ever stored: the one found at the start, or the oldest in the journal. -/
def firstCursor (found : Option String) (journal : List IngestObs) : Option String :=
  found.or (journal.filterMap IngestObs.pollerCursor?).getLast?

variable {E : ContractEvents} {found : Option String} {journal new : List IngestObs}
  {e : SorobanRpcEvent} {first cursor : String}

/-- What has been dealt with stays so. -/
theorem Handled.append (h : Handled journal e) (new : List IngestObs) : Handled (new ++ journal) e := by
  obtain ⟨o, ho, hhandles⟩ := h
  exact ⟨o, List.mem_append_right new ho, hhandles⟩

theorem Covered.append (h : Covered E journal first cursor) (new : List IngestObs) :
    Covered E (new ++ journal) first cursor :=
  fun i e hfirst hcursor he => (h i e hfirst hcursor he).append new

/-- Nothing lies between a cursor and itself. -/
theorem covered_self : Covered E journal cursor cursor :=
  fun _ _ hfirst hcursor _ => absurd hcursor (Nat.not_lt.mpr hfirst)

/-- The empty string is the token of no event, so it is a cursor behind all of them. -/
theorem lt_pos_empty {i : Nat} (he : E.events[i]? = some e) : i < E.pos "" := by
  have hpos : E.pos "" = (E.events.map (·.pagingToken)).idxOf "" + 1 := rfl
  have habsent : "" ∉ E.events.map (·.pagingToken) := by
    intro hmem
    obtain ⟨e', he', htoken⟩ := List.mem_map.mp hmem
    exact (E.plain e' he').2 htoken
  have hi : i < E.events.length := (List.getElem?_eq_some_iff.mp he).1
  rw [hpos, List.idxOf_of_notMem habsent, List.length_map]
  omega

/-- Only a stored cursor can become the first one. -/
theorem firstCursor_append (hnew : ∀ o ∈ new, o.pollerCursor? = none) :
    firstCursor found (new ++ journal) = firstCursor found journal := by
  have hnone : new.filterMap IngestObs.pollerCursor? = [] := List.filterMap_eq_nil_iff.mpr hnew
  rw [firstCursor, List.filterMap_append, hnone, List.nil_append]
  rfl

/-- What was first stays first; otherwise it is the new one. -/
theorem firstCursor_stored : firstCursor found (.stored DEFAULT_KEY cursor :: journal)
    = (firstCursor found journal).or (some cursor) := by
  have hcons : (IngestObs.stored DEFAULT_KEY cursor :: journal).filterMap
      IngestObs.pollerCursor? = cursor :: journal.filterMap IngestObs.pollerCursor? := rfl
  unfold firstCursor
  rw [hcons]
  cases found with
  | some f => rfl
  | none =>
    rw [Option.none_or, Option.none_or]
    cases hrest : journal.filterMap IngestObs.pollerCursor? with
    | nil => rfl
    | cons a rest => rw [List.getLast?_cons_cons, List.getLast?_cons]; rfl

/-! ## The invariant

Cursors are judged by what the journal said when they were stored. `Grown` is the case where none is
stored, `CursorInv.store` the one where one is. -/

/-- `found` is the cursor the process found stored when it started. -/
structure CursorInv (E : ContractEvents) (found : Option String) (w : IngestWorld) : Prop where
  /-- What is stored now is covered. -/
  covered : ∀ cursor, w.cursors DEFAULT_KEY = some cursor →
    ∃ first, firstCursor found w.journal = some first ∧ Covered E w.journal first cursor
  /-- So was every cursor when it was stored. -/
  always : ∀ newer cursor older,
    w.journal = newer ++ .stored DEFAULT_KEY cursor :: older →
    ∃ first, firstCursor found w.journal = some first ∧ Covered E older first cursor
  /-- An empty cursor can only have been found. -/
  nonempty : w.cursors DEFAULT_KEY = some "" → firstCursor found w.journal = some ""
  /-- Nothing is lost: once a cursor has been stored, there is one. -/
  stored : w.cursors DEFAULT_KEY = none → firstCursor found w.journal = none

/-- The events from the first cursor up to the position `q` have been dealt with, so that a cursor
at this position may be stored. -/
def Dealt (E : ContractEvents) (found : Option String) (q : Nat) (w : IngestWorld) : Prop :=
  ∀ first, firstCursor found w.journal = some first →
    ∀ i e, E.pos first ≤ i → i < q → E.events[i]? = some e → Handled w.journal e

/-- Nothing was stored for the poller; the journal may have grown. -/
structure Grown (w w' : IngestWorld) : Prop where
  cursors : w'.cursors = w.cursors
  journal : ∃ new, w'.journal = new ++ w.journal ∧ ∀ o ∈ new, o.pollerCursor? = none

variable {w w' w'' : IngestWorld} {q : Nat}

theorem Grown.refl : Grown w w := ⟨rfl, [], rfl, nofun⟩

theorem Grown.trans (h : Grown w w') (h' : Grown w' w'') : Grown w w'' := by
  obtain ⟨new, hjournal, hnew⟩ := h.journal
  obtain ⟨new', hjournal', hnew'⟩ := h'.journal
  refine ⟨h'.cursors.trans h.cursors, new' ++ new, by rw [hjournal', hjournal, List.append_assoc], ?_⟩
  intro o ho
  rcases List.mem_append.mp ho with ho | ho
  · exact hnew' o ho
  · exact hnew o ho

/-- So the first cursor is still the first one. -/
theorem Grown.firstCursor_eq (h : Grown w w') :
    firstCursor found w'.journal = firstCursor found w.journal := by
  obtain ⟨new, hjournal, hnew⟩ := h.journal
  rw [hjournal, firstCursor_append hnew]

theorem Grown.handled (h : Grown w w') (he : Handled w.journal e) : Handled w'.journal e := by
  obtain ⟨new, hjournal, _⟩ := h.journal
  rw [hjournal]
  exact he.append new

/-- A stored cursor in a grown journal is an old one. -/
theorem stored_of_append {newer older : List IngestObs} (hnew : ∀ o ∈ new, o.pollerCursor? = none)
    (h : new ++ journal = newer ++ .stored DEFAULT_KEY cursor :: older) :
    ∃ newer', journal = newer' ++ .stored DEFAULT_KEY cursor :: older := by
  rcases List.append_eq_append_iff.mp h with ⟨extra, _, hjournal⟩ | ⟨extra, hextra, hjournal⟩
  · exact ⟨extra, hjournal⟩
  · cases extra with
    | nil => exact ⟨[], hjournal.symm⟩
    | cons o extra =>
      have ho : o = .stored DEFAULT_KEY cursor := (List.cons.inj hjournal).1.symm
      have hmem : o ∈ new := by rw [hextra]; exact List.mem_append_right _ List.mem_cons_self
      have hnone := hnew o hmem
      rw [ho] at hnone
      cases hnone

/-- Where no cursor is stored there is nothing new to judge. -/
theorem CursorInv.grown (hI : CursorInv E found w) (h : Grown w w') : CursorInv E found w' where
  covered := by
    intro cursor hstored
    rw [h.cursors] at hstored
    obtain ⟨first, hfirst, hcovered⟩ := hI.covered cursor hstored
    exact ⟨first, h.firstCursor_eq.trans hfirst,
      fun i e hle hlt he => h.handled (hcovered i e hle hlt he)⟩
  always := by
    intro newer cursor older hsplit
    obtain ⟨new, hjournal, hnew⟩ := h.journal
    rw [hjournal] at hsplit
    obtain ⟨newer', hsplit'⟩ := stored_of_append hnew hsplit
    obtain ⟨first, hfirst, hcovered⟩ := hI.always newer' cursor older hsplit'
    exact ⟨first, h.firstCursor_eq.trans hfirst, hcovered⟩
  nonempty := by
    intro hempty
    rw [h.cursors] at hempty
    exact h.firstCursor_eq.trans (hI.nonempty hempty)
  stored := by
    intro hnone
    rw [h.cursors] at hnone
    exact h.firstCursor_eq.trans (hI.stored hnone)

/-- A cursor may be stored when everything before it has been dealt with. -/
theorem CursorInv.store (hI : CursorInv E found w) (hne : cursor ≠ "")
    (hdealt : Dealt E found (E.pos cursor) w) : CursorInv E found (w.store cursor) := by
  have hjournal : (w.store cursor).journal = .stored DEFAULT_KEY cursor :: w.journal := rfl
  have hfirst : firstCursor found (w.store cursor).journal =
      (firstCursor found w.journal).or (some cursor) := firstCursor_stored
  have hhere : ∃ first, firstCursor found (w.store cursor).journal = some first ∧
      Covered E w.journal first cursor := by
    cases hold : firstCursor found w.journal with
    | none => exact ⟨cursor, by rw [hfirst, hold]; rfl, covered_self⟩
    | some first => exact ⟨first, by rw [hfirst, hold]; rfl, hdealt first hold⟩
  have hself : (w.store cursor).cursors DEFAULT_KEY = some cursor := by
    simp [IngestWorld.store]
  refine ⟨?_, ?_, ?_, ?_⟩
  · intro cursor' hstored
    obtain rfl : cursor = cursor' := Option.some.inj (hself.symm.trans hstored)
    obtain ⟨first, hf, hc⟩ := hhere
    refine ⟨first, hf, ?_⟩
    rw [hjournal]
    exact hc.append [_]
  · intro newer cursor' older hsplit
    rw [hjournal] at hsplit
    -- the cursor just stored, or one that was stored before it
    cases newer with
    | nil =>
      obtain ⟨hobs, rfl⟩ := List.cons.inj hsplit
      obtain ⟨-, rfl⟩ := IngestObs.stored.inj hobs
      exact hhere
    | cons o newer =>
      obtain ⟨-, hrest⟩ := List.cons.inj hsplit
      obtain ⟨first, hf, hc⟩ := hI.always newer cursor' older hrest
      exact ⟨first, by rw [hfirst, hf]; rfl, hc⟩
  · intro hempty
    rw [hself] at hempty
    exact absurd (Option.some.inj hempty) hne
  · intro hnone
    rw [hself] at hnone
    cases hnone

/-! ## What the steps leave

While a batch is processed the journal only grows, and an event that is not thrown back has been
dealt with. So the position up to which everything has been dealt with moves with the batch. -/

/-- The network the poller relies on: dead letters are stored, and fewer than the margin's ledgers
close while it is asked for the latest one. -/
structure Dependable (ch : IngestChoice) : Prop where
  enqueue : ∀ input, ch.fault (.enqueue input) = none
  margin : ch.closed .getLatestLedger < START_LEDGER_MARGIN

section steps

variable {A : IngestChoice → Prop} {C : IngestConfig} {raw : SorobanRpcEvent}
  {notes : List IngestNote}

/-- Ledgers that close leave no line in the journal. -/
theorem Later.grown (h : Later w w') : Grown w w' := ⟨h.cursors, [], h.journal, nofun⟩

theorem Later.handled (h : Later w w') : Handled w'.journal e ↔ Handled w.journal e := by
  rw [h.journal]

/-- No event stores a cursor. -/
theorem EventStep.grown {r : Except Err Unit} (h : EventStep C A raw w r w' notes) :
    Grown w w' := by
  -- a dead letter is no cursor
  have hletter : ∀ journal, Lettered A raw w.journal journal →
      ∃ new, journal = new ++ w.journal ∧ ∀ o ∈ new, o.pollerCursor? = none := by
    rintro journal (⟨input, _, rfl⟩ | ⟨rfl, _⟩)
    · exact ⟨[.enqueued input], rfl, fun o ho => by rw [List.mem_singleton.mp ho]; rfl⟩
    · exact ⟨[], rfl, nofun⟩
  cases h with
  | refused _ hw => exact ⟨hw.cursors, [], hw.journal, nofun⟩
  | lettered hl hw =>
    obtain ⟨new, rfl, hnew⟩ := hletter _ hl
    exact ⟨hw.cursors, new, hw.journal, hnew⟩
  | synced hw =>
    exact ⟨hw.cursors, [.synced raw], hw.journal,
      fun o ho => by rw [List.mem_singleton.mp ho]; rfl⟩
  | retried _ hw => exact ⟨hw.cursors, [], hw.journal, nofun⟩
  | exhausted _ hl hw =>
    obtain ⟨new, rfl, hnew⟩ := hletter _ hl
    exact ⟨hw.cursors, new, hw.journal, hnew⟩

/-- Where dead letters are stored, an event that is not thrown back is dealt with. -/
theorem EventStep.handled (hA : ∀ ch, A ch → Dependable ch)
    (h : EventStep C A raw w (.ok ()) w' notes) : Handled w'.journal raw := by
  have hletter : ∀ journal, Lettered A raw w.journal journal → Handled journal raw := by
    rintro journal (⟨input, hinput, rfl⟩ | ⟨_, ch, input, hch, hfault⟩)
    · exact ⟨_, List.mem_cons_self, hinput⟩
    · exact absurd ((hA ch hch).enqueue input) hfault
  cases h with
  | lettered hl hw =>
    rw [hw.handled]
    exact hletter _ hl
  | synced hw =>
    rw [hw.handled]
    exact ⟨_, List.mem_cons_self, rfl⟩
  | exhausted _ hl hw =>
    rw [hw.handled]
    exact hletter _ hl

/-- Nor does a batch. -/
theorem BatchStep.grown {page handled : List SorobanRpcEvent}
    (h : BatchStep C A page w handled w' notes) : Grown w w' := by
  induction h with
  | done => exact Grown.refl
  | stopped hevent => exact hevent.grown
  | next hevent _ ih => exact hevent.grown.trans ih

/-- Where no cursor is stored the first one is still the same. -/
theorem Dealt.grown (h : Dealt E found q w) (hgrown : Grown w w') : Dealt E found q w' := by
  intro first hfirst i e hle hlt he
  rw [hgrown.firstCursor_eq] at hfirst
  exact hgrown.handled (h first hfirst i e hle hlt he)

/-- The next event has been dealt with too. -/
theorem Dealt.next (h : Dealt E found q w) (hgrown : Grown w w') (hraw : E.events[q]? = some raw)
    (hhandled : Handled w'.journal raw) : Dealt E found (q + 1) w' := by
  intro first hfirst i e hle hlt he
  rcases Nat.lt_or_ge i q with hbefore | hhere
  · exact h.grown hgrown first hfirst i e hle hbefore he
  · obtain rfl : i = q := by omega
    obtain rfl : raw = e := Option.some.inj (hraw.symm.trans he)
    exact hhandled

/-- A first cursor has nothing before it, and any other changes neither end. -/
theorem Dealt.store (h : Dealt E found (E.pos cursor) w) :
    Dealt E found (E.pos cursor) (w.store cursor) := by
  intro first hfirst i e hle hlt he
  have hstored : (firstCursor found w.journal).or (some cursor) = some first :=
    firstCursor_stored.symm.trans hfirst
  cases hold : firstCursor found w.journal with
  | none =>
    -- the first cursor is the one just stored
    rw [hold] at hstored
    cases hstored
    omega
  | some first' =>
    rw [hold] at hstored
    cases hstored
    exact (h first hold i e hle hlt he).append [_]

/-- The position moves with the batch. -/
theorem dealt_position (hA : ∀ ch, A ch → Dependable ch) :
    PositionInvariant E C A fun q w _ => Dealt E found q w where
  later h hw := h.grown hw.grown
  fetched _ h := h
  stored h := h.store
  passed h hraw _ hevent := h.next hevent.grown hraw (hevent.handled hA)
  kept h _ _ hevent := h.grown hevent.grown

/-! ## A poll

Each cursor that is stored is at a position up to which everything has been dealt with. -/

/-- Whether the write is accepted or swallowed. -/
theorem CursorInv.stores (hI : CursorInv E found w) (hne : cursor ≠ "")
    (hdealt : Dealt E found (E.pos cursor) w) (h : Stores A w cursor w') :
    CursorInv E found w' ∧ Dealt E found (E.pos cursor) w' := by
  rcases h with hw | ⟨hw, _⟩
  · exact ⟨(hI.store hne hdealt).grown hw.grown, hdealt.store.grown hw.grown⟩
  · exact ⟨hI.grown hw.grown, hdealt.grown hw.grown⟩

/-- The two places where a fetch stores a cursor: at the margin, and behind the last event of the
batch. -/
theorem FetchStep.cursorInv (hA : ∀ ch, A ch → Dependable ch) (hI : CursorInv E found w)
    (hdealt : Dealt E found (E.pos cursor) w) (h : FetchStep E C A cursor w w' notes) :
    CursorInv E found w' := by
  cases h with
  | unanswered hw => exact hI.grown hw.grown
  | quiet _ hw₁ _ hw => exact hI.grown (hw₁.trans hw).grown
  | rewound hmark hw₁ hpage hch hw₂ hlatest hw =>
    have hgrown := (hw₁.trans hw₂).grown
    have hback := pos_margin_le hmark hpage hlatest (hA _ hch).margin
    refine ((hI.grown hgrown).stores (ledgerCursor_ne _) ?_ hw).1
    intro first hfirst i e hle hlt he
    exact hdealt.grown hgrown first hfirst i e hle (Nat.lt_of_lt_of_le hlt hback) he
  | stopped _ hw₁ _ hbatch => exact hI.grown (hw₁.grown.trans hbatch.grown)
  | @advanced _ _ w₂ _ _ handled e _ hmark hw₁ hpage hbatch hlast hw =>
    have haligned := aligned_page hmark hpage
    have hdone : Dealt E found (E.pos cursor + handled.length) w₂ := by
      apply hbatch.position (dealt_position hA) haligned (hdealt.grown hw₁.grown)
      exact []
    rw [← hbatch.pos_last haligned hlast] at hdone
    exact ((hI.grown (hw₁.grown.trans hbatch.grown)).stores (hbatch.token_ne haligned hlast) hdone
      hw).1

/-- What is stored has everything dealt with before it. -/
theorem CursorInv.dealt (hI : CursorInv E found w)
    (hstored : truthy (w.cursors DEFAULT_KEY) = some cursor) :
    Dealt E found (E.pos cursor) w := by
  intro first hfirst
  obtain ⟨first', hfirst', hcovered⟩ := hI.covered cursor (truthy_eq_some hstored)
  obtain rfl : first' = first := Option.some.inj (hfirst'.symm.trans hfirst)
  exact hcovered

/-- Where nothing usable is stored any cursor will do: either none was ever stored, or an empty one
was found. -/
theorem CursorInv.dealt_unstored (hI : CursorInv E found w)
    (hunstored : truthy (w.cursors DEFAULT_KEY) = none) : Dealt E found q w := by
  intro first hfirst i e hle _ he
  cases hcursor : w.cursors DEFAULT_KEY with
  | none =>
    rw [hI.stored hcursor] at hfirst
    cases hfirst
  | some value =>
    obtain rfl : value = "" := by
      rw [hcursor, truthy] at hunstored
      by_contra hne
      rw [if_neg hne] at hunstored
      cases hunstored
    obtain rfl : "" = first := Option.some.inj ((hI.nonempty hcursor).symm.trans hfirst)
    exact absurd hle (Nat.not_le.mpr (lt_pos_empty he))

/-- The third place is the start ledger. -/
theorem PollStep.cursorInv (hA : ∀ ch, A ch → Dependable ch) (hI : CursorInv E found w)
    (h : PollStep E C A (w.cursors DEFAULT_KEY) w w' notes) : CursorInv E found w' := by
  cases h with
  | nothing hw => exact hI.grown hw.grown
  | resumed hread hw₁ hfetch =>
    exact hfetch.cursorInv hA (hI.grown hw₁.grown) ((hI.dealt hread).grown hw₁.grown)
  | started hread hw₁ hw₂ hfetch =>
    obtain ⟨hI₂, hdealt₂⟩ := (hI.grown hw₁.grown).stores (ledgerCursor_ne _)
      ((hI.dealt_unstored hread).grown hw₁.grown) hw₂
    exact hfetch.cursorInv hA hI₂ hdealt₂

end steps

/-! ## A run

What is left is the read at the start of a poll: where it is answered, the poll has read what is
stored. -/

/-- Every poll that starts with a stored cursor can read it. -/
def ReadsCursor (E : ContractEvents) (C : IngestConfig) :
    IngestWorld → List (Nat → IngestChoice) → Prop
  | _, [] => True
  | w, env :: polls =>
    (w.cursors DEFAULT_KEY ≠ none →
      (env 0).fault (.cursorFindById DEFAULT_KEY) = none) ∧
    ReadsCursor E C ((poll C).exec (network E) env w).2 polls

variable {C : IngestConfig}

/-- One poll. -/
theorem cursorInv_poll {env : Nat → IngestChoice} (hI : CursorInv E found w)
    (henv : ∀ n, Dependable (env n))
    (hread : w.cursors DEFAULT_KEY ≠ none →
      (env 0).fault (.cursorFindById DEFAULT_KEY) = none) :
    CursorInv E found ((poll C).exec (network E) env w).2 := by
  -- a rejected read is taken for an empty store, which it has to be
  have hstored : w.read (env 0) = w.cursors DEFAULT_KEY := by
    rw [IngestWorld.read]
    cases hfault : (env 0).fault (.cursorFindById DEFAULT_KEY) with
    | none => rfl
    | some e =>
      by_contra hne
      rw [hread (Ne.symm hne)] at hfault
      cases hfault
  have hstep := pollStep_cycle E C w env
  rw [hstored] at hstep
  rw [← pollCycle_after]
  apply hstep.cursorInv _ hI
  rintro ch ⟨n, rfl⟩
  exact henv n

/-- A whole run. -/
theorem cursorInv_runPolls {polls : List (Nat → IngestChoice)} (hI : CursorInv E found w)
    (hpolls : ∀ env ∈ polls, ∀ n, Dependable (env n)) (hread : ReadsCursor E C w polls) :
    CursorInv E found (runPolls E C w polls) := by
  induction polls generalizing w with
  | nil => exact hI
  | cons env polls ih =>
    have henv := hpolls env List.mem_cons_self
    have hI₁ := cursorInv_poll (C := C) hI henv hread.1
    exact ih hI₁ (fun env' henv' => hpolls env' (List.mem_cons_of_mem _ henv')) hread.2

/-- At the start of a process: its first cursor is the one it finds. -/
theorem cursorInv_start (hjournal : w.journal = []) :
    CursorInv E (w.cursors DEFAULT_KEY) w := by
  have hfirst : firstCursor (w.cursors DEFAULT_KEY) w.journal
      = w.cursors DEFAULT_KEY := by
    rw [hjournal]
    exact Option.or_none
  refine ⟨?_, ?_, ?_, ?_⟩
  · intro cursor hcursor
    exact ⟨cursor, hfirst.trans hcursor, covered_self⟩
  · intro newer cursor older hsplit
    rw [hjournal] at hsplit
    exact absurd hsplit.symm (by simp)
  · exact hfirst.trans
  · exact hfirst.trans

/-- Whenever a cursor is stored, every event between the first cursor and this one has been dealt
with. -/
theorem cursor_never_skips (E : ContractEvents) (C : IngestConfig) (w : IngestWorld)
    (hjournal : w.journal = []) (polls : List (Nat → IngestChoice))
    (hpolls : ∀ env ∈ polls, ∀ n, Dependable (env n)) (hread : ReadsCursor E C w polls)
    {newer older : List IngestObs} {cursor : String}
    (hsplit : (runPolls E C w polls).journal
      = newer ++ .stored DEFAULT_KEY cursor :: older) :
    ∃ first, firstCursor (w.cursors DEFAULT_KEY) (runPolls E C w polls).journal
      = some first ∧ Covered E older first cursor := by
  have hI := cursorInv_runPolls (C := C) (cursorInv_start (E := E) hjournal) hpolls hread
  exact hI.always newer cursor older hsplit

/-- One event, emitted at the given ledger. -/
def ContractEvents.one (ledger : Nat) : ContractEvents where
  events := [.sample ledger]
  sorted := List.pairwise_singleton _ _
  tokens_nodup := List.nodup_singleton _
  plain := by
    intro e he
    rw [List.mem_singleton.mp he]
    show isLedgerCursor "t" = false ∧ "t" ≠ ""
    decide

def IngestWorld.fresh (latest : Nat) (cursor : Option String) : IngestWorld where
  cursors _ := cursor
  syncRetryCounts _ := none
  latest := latest
  journal := []

/-- No ledger closes, the event is not parsed, and the calls in `fault` are rejected. -/
def IngestChoice.rejecting (fault : IngestCall → Bool) : IngestChoice where
  closed _ := 0
  fault c := if fault c then some (.error "unavailable") else none
  parsed _ := none
  escrowId _ := none
  result _ := { skipped := true, reason := none }
  operations _ := none

def IngestCall.readsCursor : IngestCall → Bool
  | .cursorFindById _ => true
  | _ => false

/-- Such a network is dependable if it rejects no dead letter. -/
theorem dependable_rejecting {fault : IngestCall → Bool} (h : ∀ input, fault (.enqueue input) = false) :
    Dependable (.rejecting fault) where
  enqueue input := by simp [IngestChoice.rejecting, h]
  margin := by simp [IngestChoice.rejecting, START_LEDGER_MARGIN]

/-- The first poll starts ten ledgers back and deals with the event; the second finds the contract
quiet and goes back to the margin. -/
theorem cursor_never_skips_one :
    let E := ContractEvents.one 15
    let polls : List (Nat → IngestChoice) :=
      [fun _ => .rejecting IngestCall.readsCursor, fun _ => .rejecting fun _ => false]
    let journal := (runPolls E .unset (.fresh 20 none) polls).journal
    journal.filterMap IngestObs.pollerCursor? = ["ledger:10", "t", "ledger:10"] ∧
      ∃ first, firstCursor none journal = some first ∧ Covered E (journal.drop 2) first "t" := by
  intro E polls journal
  have hstored : journal.filterMap IngestObs.pollerCursor? = ["ledger:10", "t", "ledger:10"] := by
    decide +kernel
  refine ⟨hstored, ?_⟩
  apply cursor_never_skips E .unset (.fresh 20 none) rfl polls
  · intro env henv n
    rcases List.mem_cons.mp henv with rfl | henv
    · exact dependable_rejecting fun _ => rfl
    · rw [List.mem_singleton.mp henv]
      exact dependable_rejecting fun _ => rfl
  · exact ⟨fun h => absurd rfl h, fun _ => rfl, trivial⟩
  · show journal = [.stored DEFAULT_KEY "ledger:10"] ++ _ :: journal.drop 2
    decide +kernel

/-- The cursor is at ledger 1 and cannot be read, so the poll starts ten ledgers back from the
latest: the event of ledger 5 is never fetched. -/
theorem cursor_skips_when_unreadable :
    let E := ContractEvents.one 5
    let w := IngestWorld.fresh 100 (some "ledger:1")
    let env : Nat → IngestChoice := fun _ => .rejecting IngestCall.readsCursor
    (∀ n, Dependable (env n)) ∧
      (runPolls E .unset w [env]).journal =
        [.stored DEFAULT_KEY "ledger:90",
          .stored DEFAULT_KEY "ledger:90"] ∧
      (runPolls E .unset w [env]).cursors DEFAULT_KEY = some "ledger:90" ∧
      ¬ Covered E (runPolls E .unset w [env]).journal "ledger:1" "ledger:90" := by
  intro E w env
  have hjournal : (runPolls E .unset w [env]).journal =
      [.stored DEFAULT_KEY "ledger:90",
        .stored DEFAULT_KEY "ledger:90"] := by decide +kernel
  refine ⟨fun _ => dependable_rejecting fun _ => rfl, hjournal, by decide +kernel, ?_⟩
  intro hcovered
  rw [hjournal] at hcovered
  obtain ⟨o, ho, hhandles⟩ := hcovered 0 _ (by decide +kernel) (by decide +kernel) rfl
  simp only [List.mem_cons, List.not_mem_nil, or_false, or_self] at ho
  rw [ho] at hhandles
  exact hhandles

end TrustLink
