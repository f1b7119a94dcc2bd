import TrustLink.Ingest.Poller

/-!
# TrustLink — the replay cursor

At startup `EventReplayService` fetches a page of Horizon operations behind its cursor, hands them
one by one to `processOperationDto` and stores the cursor of the last one. A call that throws leaves
its operation unprocessed; whether a later startup fetches it again depends only on where the cursor
is then.

`exec_onModuleInit` says where that is. An operation that threw is behind the new cursor exactly when
the cursor could be stored, so storing it is what loses the operation.
-/

namespace TrustLink

open Effects Store EventReplayService CursorService

variable {C : IngestConfig} {E : ContractEvents}

/-! ## Horizon

Its list of operations is a feed in which nothing is hidden. -/

/-- The operations Horizon lists, oldest first. -/
structure HorizonOperations (C : IngestConfig) where
  records : List OperationRecord
  tokens_nodup : (records.map (cursorOf C)).Nodup
  nonempty : ∀ record ∈ records, cursorOf C record ≠ ""

namespace HorizonOperations

variable (H : HorizonOperations C)

/-- All of them are visible. -/
def feed : Feed OperationRecord String where
  items := H.records
  stamp _ := 0
  token := cursorOf C
  sorted := List.pairwise_of_forall fun _ _ => Nat.le_refl _
  tokens_nodup := H.tokens_nodup

/-- Without a cursor the list is read from its start. -/
def mark (cursor : Option String) : Mark String :=
  match truthy cursor with
  | some token => .afterToken token
  | none => .atStamp 0

/-- How many operations are at or before a cursor. -/
def pos (cursor : Option String) : Nat := H.feed.pos (mark cursor)

def page (cursor : Option String) : List OperationRecord := H.feed.page 0 200 (mark cursor)

variable {H}

theorem page_length (cursor : Option String) : (H.page cursor).length ≤ 200 := by
  unfold page Feed.page
  rw [List.length_take]
  omega

/-- Without a cursor nothing has been passed. -/
theorem pos_none : H.pos none = 0 := by
  show (H.records.takeWhile fun _ => decide (0 < 0)).length = 0
  cases H.records with
  | nil => rfl
  | cons record records => rfl

/-- The `k`-th operation of a page. -/
theorem page_get {cursor : Option String} {k : Nat} {record : OperationRecord}
    (h : (H.page cursor)[k]? = some record) : H.records[H.pos cursor + k]? = some record :=
  (Feed.page_get h).1

/-- The cursor of a record is behind it. -/
theorem pos_cursorOf {i : Nat} {record : OperationRecord} (h : H.records[i]? = some record) :
    H.pos (some (cursorOf C record)) = i + 1 := by
  have hne := H.nonempty record (List.mem_of_getElem? h)
  have hmark : mark (some (cursorOf C record))
      = .afterToken (cursorOf C record) := by
    rw [mark, truthy, if_neg hne]
  rw [pos, hmark]
  exact Feed.pos_after_token (F := H.feed) h

end HorizonOperations

/-! ## A startup

Its calls are the cursor read, the request, one `processOperationDto` for each record of the page
and, if there is one, the cursor write. -/

section startup

variable (C) (w : IngestWorld) (env : Nat → IngestChoice)

/-- The cursor the startup sees. -/
def readCursor : Option String :=
  match (env 0).fault (.cursorFindById EVENT_REPLAY_KEY) with
  | none => w.cursors EVENT_REPLAY_KEY
  | some _ => none

/-- The records it is given. -/
def fetched : List OperationRecord :=
  let url := operationsUrl C (readCursor w env)
  match (env 1).fault (.getOperations url) with
  | none => ((env 1).operations url).getD []
  | some _ => []

/-- The `processOperationDto` call for the `k`-th record is rejected. -/
def Threw (k : Nat) : Prop :=
  ∃ record, (fetched C w env)[k]? = some record ∧
    (env (k + 2)).fault (.processOperationDto (toDto record)) ≠ none

/-- There is a cursor to store and the write is accepted. -/
def Persists : Prop :=
  ∃ lastRec, (fetched C w env).getLast? = some lastRec ∧
    (env ((fetched C w env).length + 2)).fault
      (.cursorUpsert EVENT_REPLAY_KEY (cursorOf C lastRec)) = none

end startup

variable {w : IngestWorld} {env : Nat → IngestChoice}

/-- A replay makes one call for each record and goes on whatever it is answered. -/
theorem exec_replay (records : List OperationRecord) (env : Nat → IngestChoice) (w : IngestWorld) :
    (EventReplayService.replay records).calls (network E) env w = records.length ∧
      ∃ latest, (EventReplayService.replay records).exec (network E) env w
        = (.ok (), { w with latest := latest }) := by
  induction records generalizing env w with
  | nil => exact ⟨rfl, w.latest, rfl⟩
  | cons record records ih =>
    let c : IngestCall := .processOperationDto (toDto record)
    let w₁ : IngestWorld := { w with latest := w.latest + (env 0).closed c }
    have heq : EventReplayService.replay (record :: records)
        = Prog.call (S := ingestion) c fun _ => EventReplayService.replay records := by
      show Prog.call _ _ = Prog.call _ _
      congr 1
      funext r
      cases r with
      | ok _ => rfl
      | error _ => rfl
    have hworld : (handleIngest E (env 0) c w).2 = w₁ := by
      unfold handleIngest
      cases hfault : (env 0).fault c with
      | none => simp [c, IngestCall.inMemory, IngestCall.answer, w₁]
      | some e => simp [c, IngestCall.inMemory, w₁]
    obtain ⟨hcalls, latest, hexec⟩ := ih (fun n => env (n + 1)) w₁
    rw [heq]
    constructor
    · show (EventReplayService.replay records).calls (network E) _ (handleIngest E (env 0) c w).2 + 1
        = _
      rw [hworld, hcalls, List.length_cons]
    · refine ⟨latest, ?_⟩
      show (EventReplayService.replay records).exec (network E) _ (handleIngest E (env 0) c w).2 = _
      rw [hworld, hexec]

/-- The last call of a startup. -/
theorem exec_set (value key : String) (env : Nat → IngestChoice) (w : IngestWorld) :
    ((CursorService.set value key).exec (network E) env w).2.cursors =
      match (env 0).fault (.cursorUpsert key value) with
      | none => Function.update w.cursors key (some value)
      | some _ => w.cursors := by
  rw [CursorService.set, exec_logged]
  show (handleIngest E (env 0) (.cursorUpsert key value) w).2.cursors = _
  unfold handleIngest
  cases hfault : (env 0).fault (.cursorUpsert key value) with
  | none => simp [IngestCall.inMemory, IngestCall.answer]
  | some e => simp [IngestCall.inMemory]

/-- The first call of a startup. -/
theorem exec_get (env : Nat → IngestChoice) (w : IngestWorld) :
    (CursorService.get EVENT_REPLAY_KEY).calls (network E) env w = 1 ∧
      ∃ latest, (CursorService.get EVENT_REPLAY_KEY).exec (network E) env w
        = (.ok (readCursor w env), { w with latest := latest }) := by
  have hread := handleIngest_read (E := E) (w := w) (env 0) EVENT_REPLAY_KEY
  have heq : CursorService.get EVENT_REPLAY_KEY
      = Prog.call (S := ingestion) (.cursorFindById EVENT_REPLAY_KEY) fun
        | .ok stored => .done (.ok stored)
        | .error _ => .done (.ok none) := by
    show Prog.call _ _ = Prog.call _ _
    congr 1
    funext r
    cases r with
    | ok _ => rfl
    | error _ => rfl
  rw [heq]
  unfold Prog.calls Prog.exec readCursor
  cases hfault : (env 0).fault (.cursorFindById EVENT_REPLAY_KEY) with
  | none =>
    rw [hfault] at hread
    simp only [hread]
    exact ⟨rfl, _, rfl⟩
  | some e =>
    rw [hfault] at hread
    simp only [hread]
    exact ⟨rfl, _, rfl⟩

/-- The second one. -/
theorem exec_getOperations (url : String) (env : Nat → IngestChoice) (w : IngestWorld) :
    ∃ latest, (call (.getOperations url)).exec (network E) env w =
      (match (env 0).fault (.getOperations url) with
        | none => .ok ((env 0).operations url)
        | some e => .error e, { w with latest := latest }) := by
  refine ⟨w.latest + (env 0).closed (.getOperations url), ?_⟩
  show handleIngest E (env 0) (.getOperations url) w = _
  unfold handleIngest
  cases hfault : (env 0).fault (.getOperations url) with
  | none => simp [IngestCall.inMemory, IngestCall.answer]
  | some e => simp [IngestCall.inMemory]

/-- What a startup leaves: the cursor of the last record, if it could be stored. -/
theorem exec_onModuleInit :
    ((onModuleInit C).exec (network E) env w).2.cursors =
      match (fetched C w env).getLast? with
      | none => w.cursors
      | some lastRec =>
        let token := cursorOf C lastRec
        match (env ((fetched C w env).length + 2)).fault
            (.cursorUpsert EVENT_REPLAY_KEY token) with
        | none => Function.update w.cursors EVENT_REPLAY_KEY (some token)
        | some _ => w.cursors := by
  unfold onModuleInit
  rw [exec_logged]
  obtain ⟨hcalls, latest, hget⟩ := exec_get (E := E) env w
  rw [exec_bind_ok hget, hcalls]
  obtain ⟨latest₂, hops⟩ := exec_getOperations (E := E)
    (operationsUrl C (readCursor w env)) (fun n => env (n + 1))
    { w with latest := latest }
  rw [Nat.zero_add] at hops
  cases hfault : (env 1).fault
      (.getOperations (operationsUrl C (readCursor w env))) with
  -- the fetch failed and was logged; no cursor is written
  | some e =>
    have hnil : fetched C w env = [] := by
      unfold fetched
      simp only [hfault]
    rw [hfault] at hops
    rw [exec_bind_error hops, hnil]
    rfl
  | none =>
    have hrecords : fetched C w env
        = ((env 1).operations (operationsUrl C (readCursor w env))).getD [] := by
      unfold fetched
      simp only [hfault]
    rw [hfault] at hops
    rw [exec_bind_ok hops, hrecords]
    generalize ((env 1).operations (operationsUrl C (readCursor w env))).getD []
      = records
    obtain ⟨hcalls₃, latest₃, hreplay⟩ := exec_replay (E := E) records
      (fun n => env (n + 1 + 1)) { w with latest := latest₂ }
    show ((EventReplayService.replay records >>= fun _ =>
      persistCursor C records).exec (network E)
        (fun n => env (n + 1 + 1)) { w with latest := latest₂ }).2.cursors = _
    rw [exec_bind_ok hreplay, hcalls₃, persistCursor]
    cases hlast : records.getLast? with
    | none => rfl
    | some lastRec =>
      dsimp only
      rw [exec_set, Nat.zero_add]

/-! ## What can be fetched again

The operations behind the cursor that the next startup reads. -/

section resumable

variable (C) (E) (H : HorizonOperations C) (w : IngestWorld) (env : Nat → IngestChoice)

/-- The cursor stored when the startup is over. -/
def cursorAfter : Option String :=
  ((onModuleInit C).exec (network E) env w).2.cursors
    EVENT_REPLAY_KEY

/-- Horizon answers with the page behind the cursor it is sent. -/
def Serves : Prop :=
  fetched C w env ≠ [] → fetched C w env = H.page (readCursor w env)

/-- An operation whose call threw is behind the stored cursor and on the next page. -/
def Resumable : Prop :=
  ∀ k record, (fetched C w env)[k]? = some record → Threw C w env k →
    H.pos (cursorAfter C E w env) ≤ H.pos (readCursor w env) + k ∧
      record ∈ H.page (cursorAfter C E w env)

end resumable

variable {H : HorizonOperations C}

/-- The stored cursor is behind the whole page, whatever was thrown. -/
theorem cursorAfter_persists (hserves : Serves C H w env) (h : Persists C w env) :
    H.pos (cursorAfter C E w env) = H.pos (readCursor w env) + (fetched C w env).length := by
  obtain ⟨lastRec, hlast, hfault⟩ := h
  have hafter : cursorAfter C E w env = some (cursorOf C lastRec) := by
    rw [cursorAfter, exec_onModuleInit, hlast]
    simp only [hfault]
    rw [Function.update_self]
  have hne : fetched C w env ≠ [] := by
    intro hnil
    rw [hnil] at hlast
    cases hlast
  have hlength : 0 < (fetched C w env).length := List.length_pos_iff.mpr hne
  have hget : (H.page (readCursor w env))[(fetched C w env).length - 1]? = some lastRec := by
    rw [← hserves hne, ← List.getLast?_eq_getElem?]
    exact hlast
  rw [hafter, HorizonOperations.pos_cursorOf (HorizonOperations.page_get hget)]
  omega

/-- Otherwise the next startup begins where this one did. -/
theorem cursorAfter_kept (h : ¬ Persists C w env) :
    cursorAfter C E w env = w.cursors EVENT_REPLAY_KEY := by
  rw [cursorAfter, exec_onModuleInit]
  cases hlast : (fetched C w env).getLast? with
  | none => rfl
  | some lastRec =>
    cases hfault : (env ((fetched C w env).length + 2)).fault
        (.cursorUpsert EVENT_REPLAY_KEY (cursorOf C lastRec)) with
    | none => exact absurd ⟨lastRec, hlast, hfault⟩ h
    | some e => simp only [hfault]

/-- A failed operation is fetched again exactly when the cursor was not stored (and, where the
stored cursor could not be read, is before the operation). -/
theorem replay_resumable_iff (E : ContractEvents) (H : HorizonOperations C) (w : IngestWorld)
    (env : Nat → IngestChoice) (hserves : Serves C H w env) :
    Resumable C E H w env ↔
      ∀ k, Threw C w env k → ¬ Persists C w env ∧
        H.pos (w.cursors EVENT_REPLAY_KEY) ≤ H.pos (readCursor w env) + k := by
  constructor
  · intro hresumable k hthrew
    obtain ⟨record, hrecord, hfault⟩ := hthrew
    have hk : k < (fetched C w env).length := (List.getElem?_eq_some_iff.mp hrecord).1
    have hpos := (hresumable k record hrecord ⟨record, hrecord, hfault⟩).1
    have hkept : ¬ Persists C w env := by
      intro hpersists
      rw [cursorAfter_persists hserves hpersists] at hpos
      omega
    rw [cursorAfter_kept hkept] at hpos
    exact ⟨hkept, hpos⟩
  · intro hcond k record hrecord hthrew
    obtain ⟨hkept, hpos⟩ := hcond k hthrew
    rw [cursorAfter_kept hkept]
    refine ⟨hpos, ?_⟩
    have hk : k < (fetched C w env).length := (List.getElem?_eq_some_iff.mp hrecord).1
    have hne : fetched C w env ≠ [] := by
      intro hnil
      rw [hnil] at hrecord
      cases hrecord
    rw [hserves hne] at hrecord hk
    have hlimit := HorizonOperations.page_length (H := H) (readCursor w env)
    -- a page that starts earlier reaches the operation too: it is among the first two hundred
    have hstart : H.pos (readCursor w env)
        ≤ H.pos (w.cursors EVENT_REPLAY_KEY) := by
      unfold readCursor
      cases (env 0).fault (.cursorFindById EVENT_REPLAY_KEY) with
      | none => exact Nat.le_refl _
      | some e =>
        rw [show H.pos (match (some e : Option Err) with
          | none => w.cursors EVENT_REPLAY_KEY
          | some _ => none) = 0 from HorizonOperations.pos_none]
        omega
    have hreach : H.pos (readCursor w env) + k
        < H.pos (w.cursors EVENT_REPLAY_KEY) + 200 := by omega
    exact Feed.mem_page (F := H.feed) (HorizonOperations.page_get hrecord) hpos hreach
      (Nat.le_refl 0)

/-- Two payments; the call for the first one throws. -/
def OperationRecord.sample (token : String) : OperationRecord :=
  [("id", .string token), ("type", .string "payment"), ("paging_token", .string token)]

def HorizonOperations.two : HorizonOperations .unset where
  records := [.sample "1", .sample "2"]
  tokens_nodup := by decide
  nonempty := by
    intro record hrecord
    simp only [List.mem_cons, List.not_mem_nil, or_false] at hrecord
    rcases hrecord with rfl | rfl
    · decide
    · decide

/-- The environment of a startup that is given both; `rejected` says which calls fail. -/
def startupWith (rejected : Nat → Bool) (n : Nat) : IngestChoice :=
  { IngestChoice.rejecting fun _ => rejected n with
    operations := fun _ => some [.sample "1", .sample "2"] }

/-- The cursor write fails too, and both operations are on the next page. -/
theorem replay_resumable_unwritten :
    let w := IngestWorld.fresh 1 none
    let env := startupWith fun n => n = 2 || n = 4
    Threw .unset w env 0 ∧ Resumable .unset (.one 1) .two w env := by
  intro w env
  have hserves : Serves .unset .two w env := fun _ => rfl
  have hthrew : Threw .unset w env 0 := ⟨.sample "1", rfl, by decide⟩
  refine ⟨hthrew, (replay_resumable_iff (.one 1) .two w env hserves).mpr ?_⟩
  intro k _
  constructor
  · rintro ⟨lastRec, hlast, hfault⟩
    cases hlast
    exact absurd hfault (by decide)
  · rw [show w.cursors EVENT_REPLAY_KEY = none from rfl,
      HorizonOperations.pos_none]
    omega

/-- The cursor is stored behind the second operation, and the first is not fetched again. -/
theorem replay_skips_failed :
    let w := IngestWorld.fresh 1 none
    let env := startupWith fun n => n = 2
    Serves .unset .two w env ∧ Threw .unset w env 0 ∧
      cursorAfter .unset (.one 1) w env = some "2" ∧
      HorizonOperations.two.page (some "2") = [] ∧ ¬ Resumable .unset (.one 1) .two w env := by
  intro w env
  have hthrew : Threw .unset w env 0 := ⟨.sample "1", rfl, by decide⟩
  refine ⟨fun _ => rfl, hthrew, by decide +kernel, rfl, ?_⟩
  intro hresumable
  have hpos := (hresumable 0 (.sample "1") rfl hthrew).1
  exact absurd hpos (by decide +kernel)

end TrustLink
