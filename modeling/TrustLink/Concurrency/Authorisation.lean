import TrustLink.Model.Grounds
import TrustLink.Model.Frame

/-!
# TrustLink — nobody moves an escrow who may not

The guards of the services compare the caller with a *record*: a copy of the row that may come out
of the cache, and that may be stale by the time of the write. So a guard that holds of the record
says something about the row only because certain columns never change once the row exists, and
because a cached record is a copy of the row it is cached under. Both are shown here for every
interleaving: `deal` is the part of a row no call changes, and `Vouched` says that what an execution
has been answered about an escrow is still its deal.

* **`writes_authorised`** — whoever changes the state of an escrow was allowed to, judged by the
  stored row.
* **`notifications_truthful`** — whatever the parties are told has been written by the execution that
  tells them, and the record they are told about is theirs.
* **`transactions_authorised`** — every transaction the backend asks the contract service for is
  about the contract of an escrow whose operation it belongs to.
* **`chain_backed`** — what the database reports of the chain was answered by the contract service to
  the execution that writes it, or was synchronised from an event about the escrow.
* **`contacts_encrypted`** — a contact column only ever holds what the cipher has answered.
-/

namespace TrustLink

open Effects

/-! ## The deal

Who the parties are and what is sold: the columns that no update names. -/

/-- What an escrow is about. No call changes it. -/
structure Deal where
  id : String
  contractEscrowId : Option Nat
  itemRef : String
  currency : String
  buyerAddress : String
  vendorAddress : String
  deriving DecidableEq, Repr

def EscrowFields.deal (escrow : EscrowFields) : Deal where
  id := escrow.id
  contractEscrowId := escrow.contractEscrowId
  itemRef := escrow.itemRef
  currency := escrow.currency
  buyerAddress := escrow.buyerAddress
  vendorAddress := escrow.vendorAddress

def World.deal (w : World) (id : String) : Option Deal :=
  (w.db.escrows.get id).map (·.deal)

/-- The deal of a stored row. -/
theorem World.deal_of_get {w : World} {id : String} {row : EscrowRow}
    (h : w.db.escrows.get id = some row) : w.deal id = some row.deal := by
  rw [World.deal, h]
  rfl

theorem World.deal_id {w : World} {id : String} {d : Deal} (h : w.deal id = some d) :
    d.id = id := by
  obtain ⟨row, hrow, rfl⟩ := Option.map_eq_some_iff.mp h
  exact get_id hrow

/-- A row that is there stays, and is about the same deal. -/
theorem deal_handle (ch : Choice) (c : Call) {w : World} {id : String} {d : Deal}
    (h : w.deal id = some d) : (handle ch c w).2.deal id = some d := by
  obtain ⟨row, hrow, rfl⟩ := Option.map_eq_some_iff.mp h
  have hchange := handle_escrow ch w c id
  rw [World.deal]
  generalize (handle ch c w).2.db.escrows.get id = after at hchange ⊢
  cases hchange with
  | same => exact h
  | updated data row' hc hrow' =>
    rw [hrow] at hrow'
    cases hrow'
    rfl
  | claimed t row' hc hrow' hfree =>
    rw [hrow] at hrow'
    cases hrow'
    rfl
  | created dto vendorAddress hc hnone =>
    rw [hnone] at hrow
    cases hrow

/-! ## What has been answered

An answer that showed an escrow showed its deal, and the deal is still the same. -/

/-- What the answer says about an escrow is its deal, and an update has set the state it was to
set. -/
def Vouched (w : World) : Event backend → Prop
  | ⟨.cache (.getEscrow id), .ok (some record)⟩ => w.deal id = some record.deal
  | ⟨.db (.escrowFindUnique id), .ok (some row)⟩ => w.deal id = some row.deal
  | ⟨.db (.escrowFindByVendor vendorAddress _), .ok rows⟩ =>
    ∀ row ∈ rows, w.deal row.id = some row.deal ∧ row.vendorAddress = vendorAddress
  | ⟨.db (.escrowFindAutoReleaseEligible _), .ok rows⟩ => ∀ row ∈ rows, w.deal row.id = some row.deal
  | ⟨.db (.escrowUpdate id data), .ok row⟩ =>
    w.deal id = some row.deal ∧ ∀ state ∈ data.state, row.state = state
  | _ => True

/-- No call changes the deal an event has shown. -/
theorem Vouched.handle {w : World} {e : Event backend} (ch : Choice) (c : Call)
    (h : Vouched w e) : Vouched (handle ch c w).2 e := by
  unfold Vouched at h ⊢
  split
  · exact deal_handle ch c h
  · exact deal_handle ch c h
  · exact fun row hrow => ⟨deal_handle ch c (h row hrow).1, (h row hrow).2⟩
  · exact fun row hrow => deal_handle ch c (h row hrow)
  · exact ⟨deal_handle ch c h.1, h.2⟩
  · trivial

/-- Every cached record is about the deal of the row it is cached under. -/
def CacheVouched (w : World) : Prop :=
  ∀ id record, w.cache.escrow id = some record → w.deal id = some record.deal

/-- A call is answered truthfully. -/
theorem vouched_answer (ch : Choice) (c : Call) {w : World} (hcache : CacheVouched w) :
    Vouched (handle ch c w).2 ⟨c, (handle ch c w).1⟩ := by
  cases c with
  | cache c =>
    cases c with
    | getEscrow id =>
      simp only [handle, Cache.handle]
      cases hmiss : ch.miss with
      | true => trivial
      | false =>
        cases hrecord : w.cache.escrow id with
        | none => trivial
        | some record => exact hcache id record hrecord
    | _ => trivial
  | db c =>
    cases c with
    | escrowFindUnique id =>
      rcases handle_findUnique ch w id with ⟨e, heq⟩ | heq
      · rw [heq]; trivial
      · rw [heq]
        cases hrow : w.db.escrows.get id with
        | none => trivial
        | some row => exact World.deal_of_get hrow
    | escrowFindByVendor vendorAddress take =>
      rcases handle_findByVendor ch w vendorAddress take with ⟨e, heq⟩ | heq
      · rw [heq]; trivial
      · rw [heq]
        intro row hrow
        obtain ⟨hget, hvendor⟩ := Db.mem_findByVendor hrow
        exact ⟨World.deal_of_get hget, hvendor⟩
    | escrowFindAutoReleaseEligible cutoff =>
      simp only [handle, handleDb]
      cases ch.fault (.escrowFindAutoReleaseEligible cutoff) with
      | some e => trivial
      | none =>
        intro row hrow
        exact World.deal_of_get (Db.mem_findAutoReleaseEligible hrow).1
    | escrowUpdate id data =>
      rcases handle_escrowUpdate ch w id data with ⟨e, heq⟩ | ⟨_, row, hrow, heq⟩
      · rw [heq]; trivial
      · have hdeal := deal_handle ch (.db (.escrowUpdate id data)) (World.deal_of_get hrow)
        rw [heq] at hdeal ⊢
        refine ⟨hdeal, fun state hset => ?_⟩
        change data.state.getD row.state = state
        rw [Option.mem_def.mp hset, Option.getD_some]
    | _ => trivial
  | _ => trivial

/-- A record is put into the cache only by who has fetched it. -/
theorem CacheVouched.handle {w : World} (hcache : CacheVouched w) (ch : Choice) (c : Call)
    {past : Trail} {op : Op} {D : Deployment} (hok : op.Ok D past c)
    (hpast : ∀ e ∈ past, Vouched w e) : CacheVouched (handle ch c w).2 := by
  intro id record hrecord
  apply deal_handle
  rcases cached_handle hrecord with rfl | hold
  · obtain ⟨row, hrow, rfl⟩ := hok
    exact hpast _ hrow
  · exact hcache id record hold

/-! ## Interleaved runs

The grounds of a write speak of what was read. In a run, what was read is the deal of the row that
is written. -/

/-- Everything that is cached or has been answered is about the deals there are. -/
structure AllVouched (P : Backend) : Prop where
  cache : CacheVouched P.state
  past : ∀ t ∈ P.threads, ∀ e ∈ t.past, Vouched P.state e

/-- So it is along every interleaving. -/
theorem allVouched_run (D : Deployment) {w : World} (hw : CacheVouched w)
    (ms : List (Move world Op)) : AllVouched (interleave D w ms) := by
  refine ((Monitor.history (Op.Ok D)).run_invariant (M := world) (K := fun _ _ => True)
    (I := AllVouched) ?_ ?_ ms ⟨w, []⟩ (Pool.admissible_of_forall (fun _ _ => trivial) ms)
    (Monitor.obeyed_nil (M := world) _ w) ⟨hw, fun _ h => nomatch h⟩).2
  · intro P op _ hI
    refine ⟨Monitor.history_wp (Grounded.prog D op), hI.cache, ?_⟩
    intro t ht
    rcases Pool.mem_spawn ht with hold | rfl
    · exact hI.past t hold
    · exact fun _ h => nomatch h
  · intro P i ch t c k _ hI _ ht _ hok
    rw [Monitor.view_history] at hok
    have hmem := List.mem_of_getElem? ht
    refine ⟨trivial, hI.cache.handle ch c hok (hI.past t hmem), ?_⟩
    intro t' ht' e he
    -- the new answer is truthful; the old ones were, and nothing they say has changed
    rcases Pool.mem_past_advance ht ht' he with ⟨t'', ht'', he''⟩ | rfl
    · exact (hI.past t'' ht'' e he'').handle ch c
    · exact vouched_answer ch c hI.cache

/-- What was read under an id is the deal of the escrow. -/
theorem AllVouched.read {P : Backend} (hP : AllVouched P) {t : Thread backend Op} (ht : t ∈ P.threads)
    {past : Trail} (hpast : past ⊆ t.past) {id : String} {record : EscrowRecord}
    (h : past.Read id record) : P.state.deal id = some record.deal := by
  rcases h with hcached | ⟨row, hrow, rfl⟩
  · exact hP.past t ht _ (hpast hcached)
  · exact hP.past t ht _ (hpast hrow)

/-- A release is due for the record that was handed over, or for a row the cycle has found, which is
about its escrow's deal. -/
theorem AllVouched.due {P : Backend} (hP : AllVouched P) {t : Thread backend Op} (ht : t ∈ P.threads)
    {past : Trail} (hpast : past ⊆ t.past) {op : Op} {record : EscrowRecord}
    (h : op.Due past record) : op = .processEscrow record ∨ ∃ referenceTime rows row,
      op = .autoReleaseCycle referenceTime ∧ past.Found referenceTime rows ∧ row ∈ rows ∧
        record = toEscrowRecord row ∧ P.state.deal row.id = some row.deal := by
  cases op with
  | processEscrow snapshot =>
    cases h
    exact .inl rfl
  | autoReleaseCycle referenceTime =>
    obtain ⟨rows, row, hfound, hrow, hrecord⟩ := h
    exact .inr ⟨referenceTime, rows, row, rfl, hfound, hrow, hrecord,
      hP.past t ht _ (hpast hfound) row hrow⟩
  | _ => exact h.elim

/-- The state of this escrow may be changed on behalf of the operation: by its parties, the admin,
a payment to the vendor that is signed if it comes from outside, an event of its own contract, or the
worker that was given it. -/
def Op.MayMove (D : Deployment) (row : EscrowRow) : Op → Prop
  | .cancelEscrow id callerAddress isAdmin
  | .cancelPendingEscrow id callerAddress isAdmin => row.id = id ∧
      (isAdmin = true ∨ row.vendorAddress = callerAddress ∨ row.buyerAddress = callerAddress)
  | .handleShipment id vendorAddress _ isAdmin => row.id = id ∧
      (isAdmin = true ∨ row.vendorAddress = vendorAddress)
  | .openDispute id callerAddress _ => row.id = id ∧
      (D.ADMIN_ADDRESS = some callerAddress ∨ row.buyerAddress = callerAddress ∨
        row.vendorAddress = callerAddress)
  | .resolve id _ => row.id = id
  | .syncStateFromChain event => row.id = event.escrowId
  | .handleEvent rawBody signature dto => (Op.handleEvent rawBody signature dto).Authentic D ∧
      truthy dto.to_ = some row.vendorAddress
  | .processOperationDto dto | .handlePayment dto => truthy dto.to_ = some row.vendorAddress
  | .processShipment snapshot => row.id = snapshot.id
  | _ => False

/-- The guard of a cancellation, as a proposition. -/
theorem mayCancel_iff {escrow : EscrowRecord} {callerAddress : String} {isAdmin : Bool} :
    EscrowService.mayCancel escrow callerAddress isAdmin = true ↔ isAdmin = true ∨
      escrow.vendorAddress = callerAddress ∨ escrow.buyerAddress = callerAddress := by
  simp only [EscrowService.mayCancel, Bool.or_eq_true, decide_eq_true_eq, or_assoc]

/-- The guard of a dispute. -/
theorem isInvolved_iff {D : Deployment} {escrow : EscrowRecord} {callerAddress : String} :
    BuyerDisputeService.isInvolved D escrow callerAddress = true ↔
      D.ADMIN_ADDRESS = some callerAddress ∨ escrow.buyerAddress = callerAddress ∨
        escrow.vendorAddress = callerAddress := by
  simp only [BuyerDisputeService.isInvolved, Bool.or_eq_true, decide_eq_true_eq, or_assoc]

theorem EscrowFields.deal_vendor {a b : EscrowFields} (h : a.deal = b.deal) :
    a.vendorAddress = b.vendorAddress := congrArg Deal.vendorAddress h

theorem EscrowFields.deal_buyer {a b : EscrowFields} (h : a.deal = b.deal) :
    a.buyerAddress = b.buyerAddress := congrArg Deal.buyerAddress h

/-- The accepted updates of a history: the id, the columns, the row afterwards. -/
def Trail.writes (past : Trail) : List (String × EscrowData × EscrowRow) :=
  past.filterMap fun e => match e with
    | ⟨.db (.escrowUpdate id data), .ok row⟩ => some (id, data, row)
    | _ => none

/-- The writes of a history are its accepted updates. -/
theorem Trail.mem_writes {past : Trail} {id : String} {data : EscrowData} {row : EscrowRow} :
    (id, data, row) ∈ past.writes ↔
      (⟨.db (.escrowUpdate id data), .ok row⟩ : Event backend) ∈ past := by
  refine ⟨fun h => ?_, fun h => List.mem_filterMap.mpr ⟨_, h, rfl⟩⟩
  obtain ⟨e, he, heq⟩ := List.mem_filterMap.mp h
  split at heq
  · cases heq
    exact he
  · cases heq

section justified

variable (D : Deployment) (w : World) (ms : List (Move world Op)) {t : Thread backend Op}
  (ht : t ∈ (interleave D w ms).threads)
include ht

/-- The grounds on which a thread has made a call stand in the history before it. -/
theorem justified_call {e : Event backend} {later earlier : Trail}
    (hpast : t.past = later ++ e :: earlier) :
    earlier ⊆ t.past ∧ t.label.Ok D earlier e.call := by
  have hjust := Pool.run_justified (M := world) (Grounded.prog D) ms w t ht
  rw [hpast] at hjust ⊢
  exact ⟨fun e he => List.mem_append_right _ (List.mem_cons_of_mem _ he), hjust.of_split⟩

/-- Every call of a thread had its grounds when it was made. -/
theorem justified_event {e : Event backend} (he : e ∈ t.past) :
    ∃ earlier : Trail, earlier ⊆ t.past ∧ t.label.Ok D earlier e.call := by
  obtain ⟨later, earlier, hpast⟩ := List.append_of_mem he
  exact ⟨earlier, justified_call D w ms ht hpast⟩

/-- For an update these are the grounds of the write. -/
theorem justified_update {id : String} {data : EscrowData} {row : EscrowRow}
    (hevent : (⟨.db (.escrowUpdate id data), .ok row⟩ : Event backend) ∈ t.past) :
    ∃ earlier : Trail, earlier ⊆ t.past ∧ Grounds D earlier t.label id data := by
  obtain ⟨past, hpast, earlier, hearlier, hgrounds⟩ := justified_event D w ms ht hevent
  exact ⟨earlier, List.Subset.trans hearlier hpast, hgrounds⟩

end justified

/-- Who had grounds to write a state may move the escrow, judged by the row that was written. -/
theorem AllVouched.mayMove {D : Deployment} {P : Backend} (hP : AllVouched P) {t : Thread backend Op}
    (ht : t ∈ P.threads) {id : String} {data : EscrowData} {row : EscrowRow}
    (hevent : (⟨.db (.escrowUpdate id data), .ok row⟩ : Event backend) ∈ t.past)
    (hstate : data.state ≠ none) {earlier : Trail} (hearlier : earlier ⊆ t.past)
    (hgrounds : Grounds D earlier t.label id data) : t.label.MayMove D row := by
  have hrow : P.state.deal id = some row.deal := (hP.past t ht _ hevent).1
  have hid : row.id = id := World.deal_id hrow
  -- what the guard has looked at is about this row
  have hread : ∀ {record : EscrowRecord}, Trail.Read earlier id record →
      record.deal = row.deal := by
    intro record h
    exact Option.some.inj ((hP.read ht hearlier h).symm.trans hrow)
  generalize t.label = op at hgrounds ⊢
  cases hgrounds with
  | cancelled now h hmay | cancelledPending now h hmay =>
    rw [mayCancel_iff, EscrowFields.deal_vendor (hread h), EscrowFields.deal_buyer (hread h)] at hmay
    exact ⟨hid, hmay⟩
  | @shipped id₀ _ _ _ record now h hmay =>
    -- the write is by the id of the record, which is the id it was read under
    have hsame : record.id = id₀ := World.deal_id (hP.read ht hearlier h)
    rw [hsame] at hread hid
    rw [EscrowFields.deal_vendor (hread h)] at hmay
    exact ⟨hid, hmay⟩
  | contact _ _ => exact (hstate rfl).elim
  | synced _ => exact hid
  | disputed h hinvolved =>
    rw [isInvolved_iff, EscrowFields.deal_vendor (hread h), EscrowFields.deal_buyer (hread h)]
      at hinvolved
    exact ⟨hid, hinvolved⟩
  | resolved _ _ _ _ => exact hid
  | @funded op dto destination take rows row' hop hauthentic hdestination hfound hmem =>
    obtain ⟨hdeal, hvendor⟩ := hP.past t ht _ (hearlier hfound) row' hmem
    have hsame : row'.deal = row.deal := Option.some.inj (hdeal.symm.trans hrow)
    rw [← hvendor, EscrowFields.deal_vendor hsame] at hdestination
    cases op with
    | handleEvent rawBody signature dto' =>
      cases hop
      exact ⟨hauthentic, hdestination⟩
    | processOperationDto dto' | handlePayment dto' =>
      cases hop
      exact hdestination
    | _ => cases hop
  | delivered _ _ _ _ => exact hid
  | _ => exact (hstate rfl).elim

/-- In every interleaved run, an accepted write of an escrow's state was made by an operation that
may make it, judged by the row it has written. -/
theorem writes_authorised (D : Deployment) {w : World} (hw : CacheVouched w)
    (ms : List (Move world Op)) {t : Thread backend Op} (ht : t ∈ (interleave D w ms).threads)
    {id : String} {data : EscrowData} {row : EscrowRow}
    (hwritten : (id, data, row) ∈ Trail.writes t.past) (hstate : data.state ≠ none) :
    t.label.MayMove D row := by
  have hevent := Trail.mem_writes.mp hwritten
  obtain ⟨earlier, hearlier, hgrounds⟩ := justified_update D w ms ht hevent
  exact (allVouched_run D hw ms).mayMove ht hevent hstate hearlier hgrounds

/-- A world whose cache is empty. -/
theorem cacheVouched_ofEscrows (rows : List EscrowRow) : CacheVouched (World.ofEscrows rows) :=
  fun _ _ h => nomatch h

/-- The vendor cancels a funded lamp. -/
def vendorCancels : List (Move world Op) :=
  .spawn (.cancelEscrow "e1" "vendor" false) :: List.replicate 3 (.step 0 .calm)

def cancellingThread : Thread backend Op :=
  (interleave .bare (World.ofEscrows [Db.lampEscrow .FUNDED]) vendorCancels).threads.get
    ⟨0, by decide +kernel⟩

theorem writes_authorised_vendor :
    (Op.cancelEscrow "e1" "vendor" false).MayMove .bare
      { Db.lampEscrow .CANCELLED with cancelledAt := some 0 } :=
  have hwritten : ("e1", { state := some .CANCELLED, cancelledAt := some (some 0) },
      { Db.lampEscrow .CANCELLED with cancelledAt := some 0 }) ∈
        Trail.writes cancellingThread.past := by
    decide +kernel
  writes_authorised .bare (cacheVouched_ofEscrows [Db.lampEscrow .FUNDED]) vendorCancels
    (List.get_mem _ _) hwritten (by decide)

/-! ## Notifications -/

/-- In every interleaved run, a notification about a state is asked for only by an execution that
has itself written this state with an accepted update it was allowed to make; the record it carries
is the row this update has left, so it names the state that is announced and the parties of the
escrow. -/
theorem notifications_truthful (D : Deployment) {w : World} (hw : CacheVouched w)
    (ms : List (Move world Op)) {t : Thread backend Op} (ht : t ∈ (interleave D w ms).threads)
    {n : Notification} {record : EscrowRecord}
    (hsent : Call.notify n record ∈ t.past.map Event.call) :
    record.state ∈ n.states ∧
      (interleave D w ms).state.deal record.id = some record.deal ∧
      ∃ id data row, (id, data, row) ∈ Trail.writes t.past ∧ toEscrowRecord row = record ∧
        data.state = some record.state ∧ t.label.MayMove D row := by
  have hP := allVouched_run D hw ms
  obtain ⟨e, he, hcall⟩ := List.mem_map.mp hsent
  obtain ⟨earlier, hearlier, hok⟩ := justified_event D w ms ht he
  rw [hcall] at hok
  obtain ⟨state, hstate, id, data, row, hwritten, hset, rfl⟩ := hok
  have hevent := hearlier hwritten
  obtain ⟨hdeal, hrow⟩ := hP.past t ht _ hevent
  have hsame : (toEscrowRecord row).state = state := hrow state hset
  obtain ⟨before, hbefore, hgrounds⟩ := justified_update D w ms ht hevent
  have hmay := hP.mayMove ht hevent (by rw [hset]; nofun) hbefore hgrounds
  refine ⟨hsame ▸ hstate, ?_, id, data, row, Trail.mem_writes.mpr hevent, rfl, hsame ▸ hset, hmay⟩
  have hid : (toEscrowRecord row).id = id := World.deal_id hdeal
  rw [hid]
  exact hdeal

/-- The vendor ships a funded lamp. -/
def vendorShips : List (Move world Op) :=
  .spawn (.handleShipment "e1" "vendor" "TRK" false) :: List.replicate 4 (.step 0 .calm)

def shippingThread : Thread backend Op :=
  (interleave .bare (World.ofEscrows [Db.lampEscrow .FUNDED]) vendorShips).threads.get
    ⟨0, by decide +kernel⟩

def lampShipped : EscrowRecord :=
  toEscrowRecord { Db.lampEscrow .SHIPPED with trackingId := some "TRK", shippedAt := some 0 }

theorem notifications_truthful_shipped :
    (interleave .bare (World.ofEscrows [Db.lampEscrow .FUNDED]) vendorShips).state.deal "e1" =
      some lampShipped.deal :=
  have hsent : Call.notify .notifyShipped lampShipped ∈ shippingThread.past.map Event.call := by
    decide +kernel
  (notifications_truthful .bare (cacheVouched_ofEscrows [Db.lampEscrow .FUNDED]) vendorShips
    (List.get_mem _ _) hsent).2.1

/-! ## Transactions -/

/-- The transaction belongs to the operation: it is about the contract of the escrow the operation
is for, and the operation is one of somebody who may ask for it. The two workers that are handed a
record work for the contract that stands in it; a cycle works for those of the rows that its own query
has returned. -/
def Op.MaySubmit (D : Deployment) (w : World) (past : Trail) (op : Op) : ExtCall → Prop
  | .cancelEscrowOnChain k callerAddress => ∃ id isAdmin d,
      op = .cancelPendingEscrow id callerAddress isAdmin ∧ w.deal id = some d ∧
      d.contractEscrowId = some k ∧
      (isAdmin = true ∨ d.vendorAddress = callerAddress ∨ d.buyerAddress = callerAddress)
  | .resolveDispute k resolution admin => ∃ id d, op = .resolve id resolution ∧
      w.deal id = some d ∧ d.contractEscrowId = some k ∧ D.ADMIN_ADDRESS = some admin
  | .recordDelivery k admin => ∃ snapshot, op = .processShipment snapshot ∧
      snapshot.contractEscrowId = some k ∧ D.ADMIN_ADDRESS = some admin
  | .submitAutoRelease k source => D.AUTO_RELEASE_SOURCE_ADDRESS = some source ∧
      ((∃ snapshot, op = .processEscrow snapshot ∧ snapshot.contractEscrowId = some k) ∨
        ∃ referenceTime rows row, op = .autoReleaseCycle referenceTime ∧
          past.Found referenceTime rows ∧ row ∈ rows ∧ w.deal row.id = some row.deal ∧
          row.contractEscrowId = some k)
  | _ => True

/-- In every interleaved run, whatever the contract service is asked to submit, resolved or not, is
asked for by an operation that may. -/
theorem transactions_authorised (D : Deployment) {w : World} (hw : CacheVouched w)
    (ms : List (Move world Op)) {t : Thread backend Op} (ht : t ∈ (interleave D w ms).threads)
    {c : ExtCall} (hasked : Call.ext c ∈ t.past.map Event.call) :
    t.label.MaySubmit D (interleave D w ms).state t.past c := by
  have hP := allVouched_run D hw ms
  obtain ⟨e, he, hcall⟩ := List.mem_map.mp hasked
  obtain ⟨earlier, hearlier, hok⟩ := justified_event D w ms ht he
  rw [hcall] at hok
  cases c with
  | cancelEscrowOnChain k callerAddress =>
    obtain ⟨id, isAdmin, record, hop, hread, hmay, hk⟩ := hok
    exact ⟨id, isAdmin, record.deal, hop, hP.read ht hearlier hread, hk, mayCancel_iff.mp hmay⟩
  | resolveDispute k resolution admin =>
    obtain ⟨id, record, hop, hread, hk, hadmin⟩ := hok
    exact ⟨id, record.deal, hop, hP.read ht hearlier hread, hk, truthy_eq_some hadmin⟩
  | recordDelivery k admin =>
    obtain ⟨snapshot, hop, hk, hadmin⟩ := hok
    exact ⟨snapshot, hop, hk, truthy_eq_some hadmin⟩
  | submitAutoRelease k source =>
    obtain ⟨record, hdue, hk, hsource⟩ := hok
    refine ⟨truthy_eq_some hsource, ?_⟩
    rcases hP.due ht hearlier hdue with hop | ⟨time, rows, row, hop, hfound, hrow, rfl, hdeal⟩
    · exact .inl ⟨record, hop, hk⟩
    · exact .inr ⟨time, rows, row, hop, hearlier hfound, hrow, hdeal, hk⟩
  | _ => trivial

/-- A disputed lamp whose resolution the contract does not answer. -/
def adminResolves : List (Move world Op) :=
  .spawn (.resolve "e1" .RELEASE) :: List.replicate 2 (.step 0 .calm)

def linkedDispute : World :=
  World.ofEscrows [{ Db.lampEscrow .DISPUTED with contractEscrowId := some 7 }]

def resolvingThread : Thread backend Op :=
  (interleave .bare linkedDispute adminResolves).threads.get ⟨0, by decide +kernel⟩

theorem transactions_authorised_resolve :
    (Op.resolve "e1" .RELEASE).MaySubmit .bare (interleave .bare linkedDispute adminResolves).state
      resolvingThread.past (.resolveDispute 7 .RELEASE "admin") :=
  transactions_authorised .bare (cacheVouched_ofEscrows _) adminResolves (t := resolvingThread)
    (List.get_mem _ _) (by decide +kernel)

/-! ## What the database says about the chain -/

/-- The update reports an outcome of the chain: a resolution, a delivery, a release, or the hash of a
release. -/
def EscrowData.ReportsChain (data : EscrowData) : Prop :=
  data.state ∈ [some .COMPLETED, some .REFUNDED, some .DELIVERED, some .RELEASED] ∨
    data.autoReleaseTxHash.join ≠ none

/-- What the update reports, the contract service has answered. The two workers that are handed a
record have asked about the contract that stands in this snapshot, a resolution and a cycle about the
contract of the row that is written. An event of the chain is taken for what it says, and for its own
escrow only; nobody else reports anything. -/
def Op.Backed (D : Deployment) (w : World) (past : Trail) (id : String) (data : EscrowData) :
    Op → Prop
  | .resolve escrowId resolution => id = escrowId ∧ ∃ d k admin txHash, w.deal id = some d ∧
      d.contractEscrowId = some k ∧ D.ADMIN_ADDRESS = some admin ∧
      data.state = some resolution.state ∧ past.Answered (.resolveDispute k resolution admin) txHash
  | .processShipment snapshot => id = snapshot.id ∧ ∃ k admin txHash,
      snapshot.contractEscrowId = some k ∧ D.ADMIN_ADDRESS = some admin ∧
      data.state = some .DELIVERED ∧ past.Answered (.recordDelivery k admin) txHash
  | .processEscrow snapshot => id = snapshot.id ∧ ∃ k source txHash,
      snapshot.contractEscrowId = some k ∧ D.AUTO_RELEASE_SOURCE_ADDRESS = some source ∧
      data.autoReleaseTxHash = some (some txHash) ∧
      past.Answered (.submitAutoRelease k source) txHash
  | .autoReleaseCycle _ => ∃ d k source txHash, w.deal id = some d ∧ d.contractEscrowId = some k ∧
      D.AUTO_RELEASE_SOURCE_ADDRESS = some source ∧
      data.autoReleaseTxHash = some (some txHash) ∧
      past.Answered (.submitAutoRelease k source) txHash
  | .syncStateFromChain event => id = event.escrowId
  | _ => False

/-- In every interleaved run, an accepted update that reports an outcome of the chain was made by an
execution that the contract service has answered before, or by the synchronisation of an event about
this escrow. -/
theorem chain_backed (D : Deployment) {w : World} (hw : CacheVouched w) (ms : List (Move world Op))
    {t : Thread backend Op} (ht : t ∈ (interleave D w ms).threads) {id : String}
    {data : EscrowData} {row : EscrowRow} {later earlier : Trail}
    (hpast : t.past = later ++ ⟨.db (.escrowUpdate id data), .ok row⟩ :: earlier)
    (hreports : data.ReportsChain) :
    t.label.Backed D (interleave D w ms).state earlier id data := by
  have hP := allVouched_run D hw ms
  obtain ⟨hsub, before, hbefore, hgrounds⟩ := justified_call D w ms ht hpast
  have hseen : before ⊆ t.past := List.Subset.trans hbefore hsub
  generalize t.label = op at hgrounds ⊢
  cases hgrounds with
  | @resolved id resolution record k admin txHash hread hk hadmin hresolved =>
    exact ⟨rfl, record.deal, k, admin, txHash, hP.read ht hseen hread, hk, truthy_eq_some hadmin, rfl,
      hbefore hresolved⟩
  | @delivered snapshot k admin txHash now hk hadmin hrecorded =>
    exact ⟨rfl, k, admin, txHash, hk, truthy_eq_some hadmin, rfl, hbefore hrecorded⟩
  | @releaseRecorded op record k source txHash now hdue hk hsource hsubmitted =>
    have hanswered := hbefore hsubmitted
    rcases hP.due ht hseen hdue with rfl | ⟨time, rows, row', rfl, -, -, rfl, hdeal⟩
    · exact ⟨rfl, k, source, txHash, hk, truthy_eq_some hsource, rfl, hanswered⟩
    · exact ⟨row'.deal, k, source, txHash, hdeal, hk, truthy_eq_some hsource, rfl, hanswered⟩
  | synced _ => rfl
  | _ =>
    -- the other updates set a state that is not final, or none
    rcases hreports with h | h
    · simp at h
    · exact absurd rfl h

/-- The contract confirms the resolution, and the lamp is marked as completed. -/
def contractResolves : List (Move world Op) :=
  .spawn (.resolve "e1" .RELEASE) :: List.replicate 4 (.step 0
    { Choice.calm with
      reply := fun
        | .resolveDispute _ _ _ => .ok "tx"
        | _ => .error (.error "no answer") })

def resolvedThread : Thread backend Op :=
  (interleave .bare linkedDispute contractResolves).threads.get ⟨0, by decide +kernel⟩

theorem chain_backed_resolve : ∃ earlier, (Op.resolve "e1" .RELEASE).Backed .bare
    (interleave .bare linkedDispute contractResolves).state earlier "e1"
    { state := some .COMPLETED } := by
  have hwritten : ("e1", { state := some .COMPLETED },
      { Db.lampEscrow .COMPLETED with contractEscrowId := some 7 }) ∈
        Trail.writes resolvedThread.past := by
    decide +kernel
  obtain ⟨later, earlier, hpast⟩ := List.append_of_mem (Trail.mem_writes.mp hwritten)
  exact ⟨earlier, chain_backed .bare (cacheVouched_ofEscrows _) contractResolves
    (t := resolvedThread) (List.get_mem _ _) hpast (.inl List.mem_cons_self)⟩

/-! ## Contacts -/

/-- The contact texts a row holds. -/
def EscrowFields.contacts (escrow : EscrowFields) : List String :=
  escrow.buyerContactEmail.toList ++ escrow.buyerContactPhone.toList

/-- The contact texts an update sets. -/
def EscrowData.contacts (data : EscrowData) : List String :=
  data.buyerContactEmail.join.toList ++ data.buyerContactPhone.join.toList

/-- An update brings its own texts or leaves the old ones. -/
theorem mem_contacts_update {row : EscrowRow} {data : EscrowData} {now : Time} {text : String}
    (h : text ∈ (row.update data now).contacts) : text ∈ data.contacts ∨ text ∈ row.contacts := by
  have hcolumn : ∀ (new : Option (Option String)) (old : Option String),
      text ∈ (new.getD old).toList → text ∈ new.join.toList ∨ text ∈ old.toList := by
    intro new old h
    cases new with
    | none => exact .inr h
    | some value => exact .inl h
  rcases List.mem_append.mp h with hemail | hphone
  · rcases hcolumn _ _ hemail with h | h
    · exact .inl (List.mem_append_left _ h)
    · exact .inr (List.mem_append_left _ h)
  · rcases hcolumn _ _ hphone with h | h
    · exact .inl (List.mem_append_right _ h)
    · exact .inr (List.mem_append_right _ h)

/-- A text that is stored is what the cipher answered for a field of this request. -/
def Op.Sealed (past : Trail) (id text : String) (op : Op) : Prop :=
  ∃ dto plaintext, op = .updateBuyerContact id dto ∧
    (truthy dto.email = some plaintext ∨ truthy dto.phone = some plaintext) ∧
    past.Answered (.encryptContact plaintext) text

/-- What has been encrypted once has been encrypted. -/
theorem Op.Sealed.mono {past past' : Trail} {id text : String} {op : Op}
    (h : op.Sealed past id text) (hsub : past ⊆ past') : op.Sealed past' id text := by
  obtain ⟨dto, plaintext, hop, hfield, hanswered⟩ := h
  exact ⟨dto, plaintext, hop, hfield, hsub hanswered⟩

/-- The grounds of a write with a contact text are that it was encrypted. -/
theorem Grounds.sealed {D : Deployment} {past : Trail} {op : Op} {id text : String}
    {data : EscrowData} (h : Grounds D past op id data) (htext : text ∈ data.contacts) :
    op.Sealed past id text := by
  cases h with
  | @contact id dto email phone hemail hphone =>
    rcases List.mem_append.mp htext with h | h
    · rcases hemail with ⟨-, rfl⟩ | ⟨plaintext, ciphertext, hvalue, rfl, hanswered⟩
      · cases h
      · rw [List.mem_singleton.mp h]
        exact ⟨dto, plaintext, rfl, .inl hvalue, hanswered⟩
    · rcases hphone with ⟨-, rfl⟩ | ⟨plaintext, ciphertext, hvalue, rfl, hanswered⟩
      · cases h
      · rw [List.mem_singleton.mp h]
        exact ⟨dto, plaintext, rfl, .inr hvalue, hanswered⟩
  | synced hdata => cases hdata <;> cases htext
  | _ => cases htext

/-- Every contact text of a row was there at the start, or some request has sealed it. -/
def ContactsSealed (w : World) (P : Backend) : Prop :=
  ∀ id row, P.state.db.escrows.get id = some row → ∀ text ∈ row.contacts,
    (∃ row₀, w.db.escrows.get id = some row₀ ∧ text ∈ row₀.contacts) ∨
      ∃ t ∈ P.threads, t.label.Sealed t.past id text

/-- One call of one thread. -/
theorem contactsSealed_step {D : Deployment} {w : World} {P : Backend} {i : Nat} {ch : Choice}
    {t : Thread backend Op} {c : Call} {k : Except Err c.Resp → App Unit}
    (hI : ContactsSealed w P) (ht : P.threads[i]? = some t) (hok : t.label.Ok D t.past c) :
    ContactsSealed w (P.advance i t c k ch) := by
  -- a request that has sealed a text still has
  have hold : ∀ id text, (∃ t ∈ P.threads, t.label.Sealed t.past id text) →
      ∃ t' ∈ (P.advance i t c k ch).threads, t'.label.Sealed t'.past id text := fun id text =>
    Pool.exists_advance ht fun hsealed => hsealed.mono (List.subset_cons_self _ _)
  have hkept : ∀ id row text, P.state.db.escrows.get id = some row → text ∈ row.contacts →
      (∃ row₀, w.db.escrows.get id = some row₀ ∧ text ∈ row₀.contacts) ∨
        ∃ t' ∈ (P.advance i t c k ch).threads, t'.label.Sealed t'.past id text :=
    fun id row text hrow htext => (hI id row hrow text htext).imp_right (hold id text)
  intro id row hrow text htext
  have hchange := handle_escrow ch P.state c id
  change (handle ch c P.state).2.db.escrows.get id = some row at hrow
  generalize (handle ch c P.state).2.db.escrows.get id = after at hchange hrow
  cases hchange with
  | same => exact hkept id row text hrow htext
  | updated data row' hc hrow' =>
    cases hrow
    rcases mem_contacts_update htext with hnew | hthere
    · subst hc
      obtain ⟨earlier, hearlier, hgrounds⟩ := hok
      have hsealed := (hgrounds.sealed hnew).mono hearlier
      exact .inr ⟨_, Pool.mover_mem ht, hsealed.mono (List.subset_cons_self _ _)⟩
    · exact hkept id row' text hrow' hthere
  | claimed submittedAt row' hc hrow' hfree =>
    cases hrow
    exact hkept id row' text hrow' htext
  | created dto vendorAddress hc hnone =>
    cases hrow
    cases htext

/-- In every interleaved run, a contact text that a row holds and did not hold at the start is the
cipher's answer for a field of a request on this escrow: no operation ever stores a contact as it
was sent. -/
theorem contacts_encrypted (D : Deployment) (w : World) (ms : List (Move world Op)) :
    ContactsSealed w (interleave D w ms) := by
  refine ((Monitor.history (Op.Ok D)).run_invariant (M := world) (K := fun _ _ => True)
    (I := ContactsSealed w) ?_ ?_ ms ⟨w, []⟩ (Pool.admissible_of_forall (fun _ _ => trivial) ms)
    (Monitor.obeyed_nil (M := world) _ w) ?_).2
  · intro P op _ hI
    refine ⟨Monitor.history_wp (Grounded.prog D op), ?_⟩
    intro id row hrow text htext
    refine (hI id row hrow text htext).imp_right ?_
    rintro ⟨t, ht, hsealed⟩
    exact ⟨t, List.mem_append_left _ ht, hsealed⟩
  · intro P i ch t c k _ hI _ ht _ hok
    rw [Monitor.view_history] at hok
    exact ⟨trivial, contactsSealed_step hI ht hok⟩
  · exact fun id row hrow text htext => .inl ⟨row, hrow, htext⟩

end TrustLink
