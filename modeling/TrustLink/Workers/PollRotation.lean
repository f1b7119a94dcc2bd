import Mathlib.Algebra.BigOperators.Group.Finset.Basic
import TrustLink.Data.Lists
import TrustLink.Store.Rotation
import TrustLink.Workers.PollCycle

/-!
# TrustLink — the tracking poll takes turns

An escrow that stays eligible and is not selected is only passed over for escrows that come before
it, and each of those is behind it once it has been checked. So cycles can go by only at the expense
of the escrows that were ahead at the beginning, or have become eligible since
(`tracking_poll_rotation`).

The account of the waiting escrow is a `Store.Ledger`; `Waits` ties it to a state of the poll. What
makes the account right is that nothing but the `finally` of `processShipment` moves a key
(`keepsTimes_of_makes`, `call_times`), and that no call of the batch settles before it has done so
(`checking_processShipment`).
-/

namespace TrustLink

open Effects Store

/-! ## What a call does to the keys -/

section calls

variable {w : World} {ch : Choice} {c : Call} {id : String}

/-- A time of check is written where the call says so. Times of creation are never written. -/
theorem handle_times {row row' : EscrowRow} (hrow : w.db.escrows.get id = some row)
    (hrow' : (handle ch c w).2.db.escrows.get id = some row') :
    row'.createdAt = row.createdAt ∧
      (row'.trackingCheckedAt = row.trackingCheckedAt ∨
        ∃ data t, c = .db (.escrowUpdate id data) ∧ data.trackingCheckedAt = some t ∧
          row'.trackingCheckedAt = t) := by
  have hchange := handle_escrow ch w c id
  rw [hrow'] at hchange
  generalize hafter : some row' = after at hchange
  cases hchange with
  | same =>
    cases hrow.symm.trans hafter.symm
    exact ⟨rfl, .inl rfl⟩
  | updated data row₁ hc hrow₁ =>
    cases hafter
    cases hrow.symm.trans hrow₁
    refine ⟨rfl, ?_⟩
    cases hdata : data.trackingCheckedAt with
    | none =>
      left
      simp only [EscrowRow.update, hdata, Option.getD_none]
    | some t =>
      refine .inr ⟨data, t, hc, hdata, ?_⟩
      simp only [EscrowRow.update, hdata, Option.getD_some]
  | claimed t row₁ hc hrow₁ hfree =>
    cases hafter
    cases hrow.symm.trans hrow₁
    exact ⟨rfl, .inl rfl⟩
  | created dto vendorAddress hc hnone => cases hrow.symm.trans hnone

theorem EscrowData.Written.trackingCheckedAt {data : EscrowData} (h : data.Written) :
    data.trackingCheckedAt = none := by
  cases h with
  | _ => rfl

/-- The other operations leave the times of checks alone. -/
theorem keepsTimes_of_makes {op : Op} (hop : ∀ snapshot, op ≠ .processShipment snapshot)
    (hmakes : op.Makes c) : KeepsTimes w (handle ch c w).2 := by
  intro y row row' hrow hrow'
  obtain ⟨hcreated, hsame | ⟨data, t, hc, hdata, -⟩⟩ := handle_times hrow hrow'
  · exact ⟨hsame, hcreated⟩
  · rw [hc] at hmakes
    rcases hmakes with hwritten | ⟨_, _, _, -, rfl⟩ | ⟨snapshot, _, heq, -⟩
    · cases hdata.symm.trans hwritten.trackingCheckedAt
    · cases hdata
    · exact absurd heq (hop snapshot)

/-- The call writes the time of check of the escrow. -/
def Call.checks (id : String) : Call → Bool
  | .db (.escrowUpdate id' data) => id' = id && data.trackingCheckedAt.isSome
  | _ => false

/-- Processing a shipment moves no key but its own, and that one to a time that was written. -/
theorem call_times {item : EscrowRecord} (hmakes : (Op.processShipment item).Makes c)
    {row row' : EscrowRow} (hrow : w.db.escrows.get id = some row)
    (hrow' : (handle ch c w).2.db.escrows.get id = some row') :
    pollKey row' = pollKey row ∨ id = item.id ∧
      ∃ data t, c = .db (.escrowUpdate id data) ∧ data.trackingCheckedAt = some (some t) ∧
        row'.trackingCheckedAt = some t := by
  obtain ⟨hcreated, hsame | ⟨data, t, hc, hdata, ht⟩⟩ := handle_times hrow hrow'
  · left
    unfold pollKey
    rw [hsame, hcreated]
  · right
    rw [hc] at hmakes
    rcases hmakes with hwritten | ⟨_, _, _, heq, -⟩ | ⟨snapshot, checkedAt, heq, hid, rfl⟩
    · cases hdata.symm.trans hwritten.trackingCheckedAt
    · cases heq
    · cases heq
      cases hdata
      exact ⟨hid, _, checkedAt, hc, rfl, ht⟩

/-- A check that is accepted has written the time. -/
theorem call_checks {item : EscrowRecord} (hmakes : (Op.processShipment item).Makes c)
    (hchecks : c.checks id = true) (hok : (∃ d, c = .db d) → ∃ r, (handle ch c w).1 = .ok r)
    {row' : EscrowRow} (hrow' : (handle ch c w).2.db.escrows.get id = some row') :
    ∃ data t, c = .db (.escrowUpdate id data) ∧ data.trackingCheckedAt = some (some t) ∧
      row'.trackingCheckedAt = some t := by
  unfold Call.checks at hchecks
  split at hchecks
  · next id' data =>
    rw [Bool.and_eq_true, decide_eq_true_eq] at hchecks
    obtain ⟨rfl, hsome⟩ := hchecks
    obtain ⟨r, hr⟩ := hok ⟨_, rfl⟩
    rcases handle_escrowUpdate ch w id' data with ⟨e, heq⟩ | ⟨-, row, hrow, heq⟩
    · rw [heq] at hr
      cases hr
    · rcases hmakes with hwritten | ⟨_, _, _, hcontact, -⟩ | ⟨_, checkedAt, -, -, rfl⟩
      · rw [hwritten.trackingCheckedAt] at hsome
        cases hsome
      · cases hcontact
      · rw [heq] at hrow'
        have hget : (w.updated row { trackingCheckedAt := some (some checkedAt) }
            ch.now).db.escrows.get id'
            = some (row.update { trackingCheckedAt := some (some checkedAt) } ch.now) := by
          show (w.db.putEscrow _).escrows.get id' = _
          rw [putEscrow_get, EscrowRow.update_id, get_id hrow, if_pos rfl]
        cases hget.symm.trans hrow'
        exact ⟨_, checkedAt, rfl, rfl, rfl⟩
  · cases hchecks

end calls

/-! ## A shipment that is processed has been checked -/

/-- What is remembered of a program that processes a shipment: whether it has written the time of
check. Its database calls succeed, and the clock always answers. -/
def checking (item : EscrowRecord) : Protocol backend Bool where
  ok _ c := (Op.processShipment item).Makes c
  step checked c r checked' :=
    ((∃ d, c = .db d) ∨ c = .newDate → ∃ v, r = .ok v) ∧
      checked' = (checked || c.checks item.id)

/-- What is left of processing the shipment: it will have written the time when it settles. -/
def Checking (item : EscrowRecord) (checked : Bool) (p : App Unit) : Prop :=
  p.wp (checking item) (fun _ checked' => checked' = true) checked

/-- The `finally` runs whatever the rest has come to. -/
theorem checking_processShipment (D : Deployment) (item : EscrowRecord) :
    Checking item false (TrackingPollWorker.processShipment D item) := by
  unfold Checking TrackingPollWorker.processShipment
  rw [wp_tryFinally]
  have hdeliver : (TrackingPollWorker.deliver D item).wp (checking item) (fun _ _ => True) false :=
    Writes.only_deliver.wp_invariant (fun c _ hc _ => ⟨hc, fun _ _ _ => trivial⟩) trivial
  -- the `finally`: it runs whatever `deliver` came to, and its update is what checks the escrow
  refine wp_mono hdeliver ?_
  intro r checked _
  rw [wp_void]
  unfold EscrowRepository.markTrackingChecked EscrowRepository.update
  rw [wp_bind, wp_newDate]
  refine ⟨trivial, ?_⟩
  rintro now checked₁ ⟨hnow, -⟩
  obtain ⟨checkedAt, rfl⟩ := hnow (.inr rfl)
  dsimp only
  rw [wp_bind, wp_db]
  refine ⟨.inr (.inr ⟨item, checkedAt, rfl, rfl, rfl⟩), ?_⟩
  rintro answer checked₂ ⟨hdb, hchecked⟩
  obtain ⟨row, rfl⟩ := hdb (.inl ⟨_, rfl⟩)
  have hwritten : checked₂ = true := by
    rw [hchecked]
    simp [Call.checks]
  dsimp only
  unfold EscrowRepository.invalidate
  rw [wp_bind, wp_ite]
  constructor
  · intro _
    rw [wp_cache]
    refine ⟨trivial, ?_⟩
    rintro evicted checked₃ ⟨-, hchecked₃⟩
    have hkept : checked₃ = true := by rw [hchecked₃, hwritten]; rfl
    cases evicted with
    | ok _ => exact hkept
    | error _ => exact hkept
  · intro _
    exact hwritten

/-! ## The account of an escrow that waits

The escrows ahead of it are counted in a ledger: who is checked goes behind, and who joins ahead has
become eligible. -/

/-- A time that is later than every check at the beginning puts an escrow behind those that were
there. -/
theorem LaterThanChecks.notAfter {w : World} {t : Time} (h : LaterThanChecks w t) {id : String}
    {row row' : EscrowRow} (hrow : w.db.escrows.get id = some row)
    (hrow' : row'.trackingCheckedAt = some t) :
    (pollKey row').notAfter (pollKey row) = false := by
  simp only [PollKey.notAfter, pollKey, hrow']
  cases hchecked : row.trackingCheckedAt with
  | none => rfl
  | some t' =>
    have hlt : t' < t := h id row t' hrow hchecked
    have hnot : ¬t < t' := not_lt_of_gt hlt
    have hne : t ≠ t' := ne_of_gt hlt
    simp [hnot, hne]

/-- The key of an escrow stays, or is one of those that move, and moves behind this one. -/
def KeysMove (key : PollKey) (moves : String → Prop) (w w' : World) : Prop :=
  ∀ y row row', w.db.escrows.get y = some row → w'.db.escrows.get y = some row' →
    pollKey row' = pollKey row ∨ moves y ∧ (pollKey row').notAfter key = false

theorem KeepsTimes.keysMove {w w' : World} (h : KeepsTimes w w') (key : PollKey) :
    KeysMove key (fun _ => False) w w' := by
  intro y row row' hrow hrow'
  obtain ⟨hchecked, hcreated⟩ := h y row row' hrow hrow'
  left
  unfold pollKey
  rw [hchecked, hcreated]

theorem KeepsTimes.refl (w : World) : KeepsTimes w w := by
  intro y row row' hrow hrow'
  cases hrow.symm.trans hrow'
  exact ⟨rfl, rfl⟩

/-- Who gets ahead has become eligible. -/
theorem KeysMove.upTo_subset {s s' : TrackingState} {key : PollKey} {moves : String → Prop}
    (h : KeysMove key moves s.world s'.world) (x : String) :
    s'.upTo key x ⊆ s.upTo key x ∪ (s'.eligible \ s.eligible) := by
  intro y hy
  obtain ⟨row', hrow', heligible', hkey', hne⟩ := TrackingState.mem_upTo.mp hy
  rw [Finset.mem_union, Finset.mem_sdiff]
  by_cases hbefore : y ∈ s.eligible
  · left
    obtain ⟨row, hrow, heligible⟩ := TrackingState.mem_eligible.mp hbefore
    rcases h y row row' hrow hrow' with hsame | ⟨-, hbehind⟩
    · rw [hsame] at hkey'
      exact TrackingState.mem_upTo.mpr ⟨row, hrow, heligible, hkey', hne⟩
    · cases hbehind.symm.trans hkey'
  · exact .inr ⟨TrackingState.mem_eligible.mpr ⟨row', hrow', heligible'⟩, hbefore⟩

section account

variable (limits : TrackingLimits) (x : String) (key : PollKey)

/-- The escrow is in the table, under this key. -/
def HasKey (w : World) : Prop :=
  ∃ row, w.db.escrows.get x = some row ∧ pollKey row = key

/-- A cycle that has selected others, and has still to check the pending ones. -/
structure Passes (pending : Finset String) (b : TrackingBatch) : Prop where
  start : HasKey x key b.start
  inv : Batch.Inv b.shipments (runnerCount limits.concurrency b.shipments.length) b.batch
  others : ∀ item ∈ b.shipments, item.id ≠ x
  length : b.programs.length = b.shipments.length
  programs : ∀ (i : Nat) item p, b.shipments[i]? = some item → b.programs[i]? = some p →
    ∃ checked, Checking item checked p ∧ (item.id ∈ pending → checked = false)
  done : ∀ i ∈ b.batch.settled, ∃ outcome, b.programs[i]? = some (.done outcome)
  selected : ∀ y ∈ pending, ∃ item ∈ b.shipments, item.id = y

def InPhase (pending : Finset String) : TrackingPhase → Prop
  | .idle => pending = ∅
  | .querying start => pending = ∅ ∧ HasKey x key start
  | .processing b => Passes limits x key pending b

/-- The account of the escrow in a state of the poll. -/
structure Waits (p joined : Nat) (s : TrackingState) (l : Ledger String) : Prop where
  covered : l.Covered p
  joined : l.joined = joined
  ahead : l.ahead = s.upTo key x
  hasKey : HasKey x key s.world
  count : l.served + l.pending.card = limits.batchSize * s.selections.length
  phase : InPhase limits x key l.pending s.phase

variable {limits x key} {p a : Nat} {s s' : TrackingState} {l : Ledger String}

/-- An escrow that does not move keeps its key as long as it is there. -/
theorem HasKey.of_keysMove {moves : String → Prop} (h : HasKey x key s.world)
    (hkeys : KeysMove key moves s.world s'.world) (hstays : ¬moves x) (hx : x ∈ s'.eligible) :
    HasKey x key s'.world := by
  obtain ⟨row, hrow, hkey⟩ := h
  obtain ⟨row', hrow', -⟩ := TrackingState.mem_eligible.mp hx
  rcases hkeys x row row' hrow hrow' with hsame | ⟨hmoves, -⟩
  · exact ⟨row', hrow', hsame.trans hkey⟩
  · exact absurd hmoves hstays

/-- Nothing that is pending is checked in the step. -/
theorem Waits.drift {moves : String → Prop} (h : Waits limits x key p a s l)
    (hkeys : KeysMove key moves s.world s'.world) (hstays : ¬moves x) (hx : x ∈ s'.eligible)
    (hselections : s'.selections = s.selections)
    (hphase : InPhase limits x key l.pending s'.phase) :
    ∃ l', Waits limits x key p (a + (s'.eligible \ s.eligible).card) s' l' := by
  have hahead : s'.upTo key x ⊆ l.ahead ∪ (s'.eligible \ s.eligible) := by
    rw [h.ahead]
    exact hkeys.upTo_subset x
  refine ⟨_, (Ledger.Step.drift hahead).covered h.covered, ?_, rfl,
    h.hasKey.of_keysMove hkeys hstays hx, ?_, hphase⟩
  · show l.joined + _ = _
    rw [h.joined]
  · rw [hselections]
    exact h.count

/-- A pending escrow is checked in the step, and is behind then. -/
theorem Waits.serve {moves : String → Prop} {y : String} (h : Waits limits x key p a s l)
    (hkeys : KeysMove key moves s.world s'.world) (hstays : ¬moves x) (hx : x ∈ s'.eligible)
    (hselections : s'.selections = s.selections) (hy : y ∈ l.pending)
    (hbehind : ∀ row', s'.world.db.escrows.get y = some row' →
      (pollKey row').notAfter key = false)
    (hphase : InPhase limits x key (l.pending.erase y) s'.phase) :
    ∃ l', Waits limits x key p (a + (s'.eligible \ s.eligible).card) s' l' := by
  have hahead : s'.upTo key x ⊆ l.ahead ∪ (s'.eligible \ s.eligible) := by
    rw [h.ahead]
    exact hkeys.upTo_subset x
  have hleft : y ∉ s'.upTo key x := by
    intro hmem
    obtain ⟨row', hrow', -, hle, -⟩ := TrackingState.mem_upTo.mp hmem
    cases (hbehind row' hrow').symm.trans hle
  refine ⟨_, (Ledger.Step.serve hy hahead hleft).covered h.covered, ?_, rfl,
    h.hasKey.of_keysMove hkeys hstays hx, ?_, hphase⟩
  · show l.joined + _ = _
    rw [h.joined]
  · show l.served + 1 + (l.pending.erase y).card = _
    have hcount := h.count
    have hpos := Finset.card_pos.mpr ⟨y, hy⟩
    rw [Finset.card_erase_of_mem hy, hselections]
    omega

/-- A cycle selects a full batch of escrows that are ahead. -/
theorem Waits.selected_ahead (h : Waits limits x key p a s l) {rows : List EscrowRow}
    (hrows : FindShippedWithTracking s.settings limits.batchSize s.world.db rows)
    (hx : x ∈ s.eligible) (hnot : ∀ row ∈ rows, row.id ≠ x) :
    (rows.map (·.id)).toFinset ⊆ l.ahead ∧
      (rows.map (·.id)).toFinset.card = limits.batchSize := by
  obtain ⟨all, hperm, hsorted, rfl⟩ := hrows
  obtain ⟨row, hrow, hkey⟩ := h.hasKey
  obtain ⟨row', hrow', heligible⟩ := TrackingState.mem_eligible.mp hx
  cases hrow.symm.trans hrow'
  have hmem : ∀ row, row ∈ all ↔ s.world.db.escrows.get row.id = some row ∧
      shippedWithTracking s.settings row = true := by
    intro row
    rw [hperm.mem_iff, List.mem_filter, s.world.db.escrows.mem_rows_iff]
  have hid : row.id = x := get_id hrow
  have hwaiting : row ∈ all := (hmem row).mpr ⟨by rw [hid]; exact hrow, heligible⟩
  -- the waiting escrow is in the sorted list and not taken, so the batch is full without it
  have hpassed : row ∉ all.take limits.batchSize := fun htaken => hnot row htaken hid
  obtain ⟨hfull, hbefore⟩ := Lists.take_of_notMem hsorted hwaiting hpassed
  constructor
  · intro y hy
    obtain ⟨other, hother, rfl⟩ := List.mem_map.mp (List.mem_toFinset.mp hy)
    obtain ⟨hget, hshipped⟩ := (hmem other).mp (List.mem_of_mem_take hother)
    rw [h.ahead, TrackingState.mem_upTo]
    refine ⟨other, hget, hshipped, ?_, hnot other hother⟩
    rw [← hkey]
    exact hbefore other hother
  · have hnodup : (all.map (·.id)).Nodup := by
      rw [(hperm.map (·.id)).nodup_iff]
      exact List.Nodup.sublist (List.filter_sublist.map _) s.world.db.escrows.rows_keys_nodup
    rw [List.toFinset_card_of_nodup, List.length_map, hfull]
    exact List.Nodup.sublist ((List.take_sublist _ _).map _) hnodup

/-! ## Steps

Each step of the poll keeps the account, and a cycle takes a full batch off it. -/

variable {b : TrackingBatch} {pending : Finset String}

/-- A cycle that has just made its selection. -/
theorem passes_of_query (D : Deployment) {start : World} (hstart : HasKey x key start)
    {rows : List EscrowRow} (hnot : ∀ row ∈ rows, row.id ≠ x) :
    Passes limits x key (rows.map (·.id)).toFinset
      { start
        shipments := rows.map toEscrowRecord
        batch := .empty
        programs := (rows.map toEscrowRecord).map (TrackingPollWorker.processShipment D) } where
  start := hstart
  inv := Batch.inv_empty
  others := by
    intro item hitem
    obtain ⟨row, hrow, rfl⟩ := List.mem_map.mp hitem
    exact hnot row hrow
  length := List.length_map ..
  programs := by
    intro i item p hitem hp
    have hprogram : p = TrackingPollWorker.processShipment D item := by
      rw [List.getElem?_map, hitem] at hp
      exact (Option.some.inj hp).symm
    rw [hprogram]
    exact ⟨false, checking_processShipment D item, fun _ => rfl⟩
  done := by
    intro i hi
    cases hi
  selected := by
    intro y hy
    obtain ⟨row, hrow, rfl⟩ := List.mem_map.mp (List.mem_toFinset.mp hy)
    exact ⟨toEscrowRecord row, List.mem_map_of_mem hrow, rfl⟩

theorem Passes.step_batch (h : Passes limits x key pending b) {e : BatchEvent}
    {batch : Batch EscrowRecord}
    (hsettle : ∀ k outcome, e = .settle k outcome → ∃ item position,
      b.batch.runners[k]? = some (.awaiting item position) ∧
      b.programs[position]? = some (.done outcome))
    (hstep : b.batch.step (·.id) b.shipments limits.concurrency e = some batch) :
    Passes limits x key pending { b with batch := batch } where
  start := h.start
  inv := h.inv.moves (Batch.moves_of_step hstep)
  others := h.others
  length := h.length
  programs := h.programs
  done := by
    intro i hi
    rcases (Batch.moves_of_step hstep).settled_cases with
      hsame | ⟨k, outcome, item, position, he, hk, hsettled⟩
    · exact h.done i (hsame ▸ hi)
    · obtain ⟨item', position', hk', hdone⟩ := hsettle k outcome he
      cases hk.symm.trans hk'
      rw [show ({ b with batch := batch } : TrackingBatch).batch.settled = _ from hsettled] at hi
      rcases List.mem_append.mp hi with hi | hi
      · exact h.done i hi
      · rw [List.mem_singleton.mp hi]
        exact ⟨outcome, hdone⟩
  selected := h.selected

/-- A call of a program. If it writes the time of check, the shipment is not pending any more. -/
theorem Passes.step_call (h : Passes limits x key pending b) {position : Nat} {c : Call}
    {rest : Except Err c.Resp → App Unit} {w : World} {ch : Choice}
    (hprogram : b.programs[position]? = some (.call c rest)) (hsucceeds : c.Succeeds b.start w ch) :
    ∃ item ∈ b.shipments, (Op.processShipment item).Makes c ∧
      Passes limits x key (if c.checks item.id then pending.erase item.id else pending)
        { b with programs := b.programs.set position (rest (handle ch c w).1) } := by
  have hposition : position < b.shipments.length := by
    rw [← h.length]
    exact (List.getElem?_eq_some_iff.mp hprogram).1
  obtain ⟨item, hitem⟩ : ∃ item, b.shipments[position]? = some item :=
    ⟨_, List.getElem?_eq_getElem hposition⟩
  obtain ⟨checked, ⟨hmakes, hrest⟩, hpending⟩ := h.programs position item _ hitem hprogram
  have hanswer : (∃ d, c = .db d) ∨ c = .newDate → ∃ v, (handle ch c w).1 = .ok v := by
    rintro (hdb | rfl)
    · exact hsucceeds.ok hdb
    · exact ⟨ch.now, rfl⟩
  have hnext : Checking item (checked || c.checks item.id) (rest (handle ch c w).1) :=
    hrest _ _ ⟨hanswer, rfl⟩
  have hsub : (if c.checks item.id then pending.erase item.id else pending) ⊆ pending := by
    split
    · exact Finset.erase_subset _ _
    · exact Finset.Subset.refl _
  refine ⟨item, List.mem_of_getElem? hitem, hmakes, h.start, h.inv, h.others, ?_, ?_, ?_, ?_⟩
  · exact List.length_set.trans h.length
  · intro i item' p hitem' hp
    by_cases hi : position = i
    · -- the program that has made the call
      subst hi
      cases hitem.symm.trans hitem'
      rw [List.getElem?_set_self (by rw [h.length]; exact hposition)] at hp
      cases hp
      refine ⟨_, hnext, ?_⟩
      intro hstill
      cases hchecks : c.checks item.id with
      | true =>
        rw [hchecks, if_pos rfl] at hstill
        exact absurd hstill (Finset.notMem_erase _ _)
      | false =>
        rw [hpending (hsub hstill)]
        rfl
    · rw [List.getElem?_set_ne hi] at hp
      obtain ⟨checked', hchecking, hpending'⟩ := h.programs i item' p hitem' hp
      exact ⟨checked', hchecking, fun hstill => hpending' (hsub hstill)⟩
  · intro i hi
    obtain ⟨outcome, hdone⟩ := h.done i hi
    have hne : position ≠ i := by
      rintro rfl
      cases hprogram.symm.trans hdone
    exact ⟨outcome, (List.getElem?_set_ne hne).trans hdone⟩
  · intro y hy
    exact h.selected y (hsub hy)

/-- When the batch has resolved, nothing is pending. -/
theorem Passes.finished (h : Passes limits x key pending b) (hresolved : b.batch.resolved = true) :
    pending = ∅ := by
  rw [Finset.eq_empty_iff_forall_notMem]
  intro y hy
  obtain ⟨item, hitem, rfl⟩ := h.selected y hy
  obtain ⟨i, hi⟩ := List.mem_iff_getElem?.mp hitem
  have hsettled : i ∈ b.batch.settled := by
    apply h.inv.mem_settled (runnerCount_pos limits.one_le_concurrency) hresolved
    exact (List.getElem?_eq_some_iff.mp hi).1
  obtain ⟨outcome, hdone⟩ := h.done i hsettled
  obtain ⟨checked, hchecking, hpending⟩ := h.programs i item _ hi hdone
  have hchecked : checked = true := hchecking
  cases (hpending hy).symm.trans hchecked

section

variable {item : EscrowRecord} {c : Call} {w : World} {ch : Choice}

/-- The time that a call of the batch writes is behind the escrow that waits. -/
theorem Passes.behind (h : Passes limits x key pending b) (hsucceeds : c.Succeeds b.start w ch)
    {y : String} {data : EscrowData} {t : Time} (hc : c = .db (.escrowUpdate y data))
    (hdata : data.trackingCheckedAt = some (some t)) {row' : EscrowRow}
    (ht : row'.trackingCheckedAt = some t) : (pollKey row').notAfter key = false := by
  obtain ⟨row, hrow, hkey⟩ := h.start
  rw [← hkey]
  exact (hsucceeds.later y data t hc hdata).notAfter hrow ht

theorem Passes.keysMove (h : Passes limits x key pending b) (hsucceeds : c.Succeeds b.start w ch)
    (hmakes : (Op.processShipment item).Makes c) :
    KeysMove key (· = item.id) w (handle ch c w).2 := by
  intro y row row' hrow hrow'
  rcases call_times hmakes hrow hrow' with hsame | ⟨hy, data, t, hc, hdata, ht⟩
  · exact .inl hsame
  · exact .inr ⟨hy, h.behind hsucceeds hc hdata ht⟩

end

/-- A call of the batch: the keys of others stay, and the one that is checked goes behind. -/
theorem Waits.step_call (h : Waits limits x key p a s l) (hphase : s.phase = .processing b)
    {position : Nat} {c : Call} {rest : Except Err c.Resp → App Unit} {ch : Choice}
    (hprogram : b.programs[position]? = some (.call c rest))
    (hsucceeds : c.Succeeds b.start s.world ch)
    (hs' : s' = { s with
      world := (handle ch c s.world).2
      phase := .processing
        { b with programs := b.programs.set position (rest (handle ch c s.world).1) } })
    (hx : x ∈ s'.eligible) :
    ∃ l', Waits limits x key p (a + (s'.eligible \ s.eligible).card) s' l' := by
  have hpasses : Passes limits x key l.pending b := by
    have hinphase := h.phase
    rw [hphase] at hinphase
    exact hinphase
  obtain ⟨item, hitem, hmakes, hnext⟩ := hpasses.step_call hprogram hsucceeds
  have hworld : s'.world = (handle ch c s.world).2 := by rw [hs']
  have hselections : s'.selections = s.selections := by rw [hs']
  have hstays : ¬x = item.id := fun hid => hpasses.others item hitem hid.symm
  have hkeys : KeysMove key (· = item.id) s.world s'.world := by
    rw [hworld]
    exact hpasses.keysMove hsucceeds hmakes
  -- the call serves an escrow once: when it first checks one that was selected and is pending
  by_cases hserves : c.checks item.id = true ∧ item.id ∈ l.pending
  · obtain ⟨hchecks, hpending⟩ := hserves
    refine h.serve hkeys hstays hx hselections hpending ?_ ?_
    · intro row' hrow'
      rw [hworld] at hrow'
      obtain ⟨data, t, hc, hdata, ht⟩ := call_checks hmakes hchecks hsucceeds.ok hrow'
      exact hpasses.behind hsucceeds hc hdata ht
    · rw [if_pos hchecks] at hnext
      rw [hs']
      exact hnext
  · refine h.drift hkeys hstays hx hselections ?_
    have hsame : (if c.checks item.id then l.pending.erase item.id else l.pending) = l.pending := by
      split
      · next hchecks => exact Finset.erase_eq_of_notMem fun hmem => hserves ⟨hchecks, hmem⟩
      · rfl
    rw [hsame] at hnext
    rw [hs']
    exact hnext

theorem Waits.step (h : Waits limits x key p a s l) {D : Deployment}
    (hstep : TrackingStep D limits s s') (hx : x ∈ s.eligible) (hx' : x ∈ s'.eligible)
    (hnot : ∀ shipments ∈ s'.selections, ∀ item ∈ shipments, item.id ≠ x) :
    ∃ l', Waits limits x key p (a + (s'.eligible \ s.eligible).card) s' l' := by
  have hphase := h.phase
  have hstill : KeysMove key (fun _ => False) s.world s.world :=
    (KeepsTimes.refl s.world).keysMove key
  cases hstep with
  | operation op c ch hop hmakes =>
    have hkeeps : KeepsTimes s.world (handle ch c s.world).2 := keepsTimes_of_makes hop hmakes
    exact h.drift (hkeeps.keysMove key) not_false hx' rfl hphase
  | outside w settings hkeeps => exact h.drift (hkeeps.keysMove key) not_false hx' rfl hphase
  | begin hidle =>
    rw [hidle] at hphase
    exact h.drift hstill not_false hx' rfl ⟨hphase, h.hasKey⟩
  | query start rows hquerying hrows =>
    rw [hquerying] at hphase
    obtain ⟨hpending, hstart⟩ := hphase
    have hothers : ∀ row ∈ rows, row.id ≠ x := by
      intro row hrow
      exact hnot _ (List.mem_append_right _ List.mem_cons_self) _ (List.mem_map_of_mem hrow)
    obtain ⟨hbatch, hcard⟩ := h.selected_ahead hrows hx hothers
    refine ⟨_, (Ledger.Step.take hpending hbatch).covered h.covered, ?_, h.ahead, h.hasKey, ?_,
      passes_of_query D hstart hothers⟩
    · -- nothing has changed that the query looks at
      show l.joined = a + (s.eligible \ s.eligible).card
      rw [h.joined, Finset.sdiff_self, Finset.card_empty, Nat.add_zero]
    · have hcount := h.count
      rw [hpending, Finset.card_empty, Nat.add_zero] at hcount
      show l.served + _ = _ * (s.selections ++ [_]).length
      rw [hcard, hcount, List.length_append, List.length_singleton, Nat.mul_add, Nat.mul_one]
  | batch b e batch hprocessing hsettle hstep =>
    rw [hprocessing] at hphase
    exact h.drift hstill not_false hx' rfl (Passes.step_batch hphase hsettle hstep)
  | call b k position item c rest ch hprocessing hrunner hprogram hsucceeds =>
    exact h.step_call hprocessing hprogram hsucceeds rfl hx'
  | finish b hprocessing hresolved =>
    rw [hprocessing] at hphase
    exact h.drift hstill not_false hx' rfl (Passes.finished hphase hresolved)

/-- The selections of a run only grow. -/
theorem TrackingStep.selections {D : Deployment} (h : TrackingStep D limits s s') :
    ∀ shipments ∈ s.selections, shipments ∈ s'.selections := by
  intro shipments hmem
  cases h with
  | query start rows hquerying hrows => exact List.mem_append_left _ hmem
  | operation | outside | begin | batch | call | finish => exact hmem

end account

/-- In a run of the poll that begins and ends between two cycles, an escrow that stays eligible and
is selected by none of the cycles has seen no more turns of others than there were escrows ahead of
it at the beginning, and escrows that have become eligible since. -/
theorem tracking_poll_rotation (D : Deployment) (limits : TrackingLimits)
    {run : Nat → TrackingState} {n : Nat}
    (hsteps : ∀ i < n, TrackingStep D limits (run i) (run (i + 1)))
    (hbegin : (run 0).phase = .idle) (hfirst : (run 0).selections = [])
    (hend : (run n).phase = .idle) {x : String} (heligible : ∀ i ≤ n, x ∈ (run i).eligible)
    (hnot : ∀ shipments ∈ (run n).selections, ∀ item ∈ shipments, item.id ≠ x) :
    limits.batchSize * (run n).selections.length
      ≤ ((run 0).ahead x).card
        + ∑ i ∈ Finset.range n, ((run (i + 1)).eligible \ (run i).eligible).card := by
  obtain ⟨row, hrow, -⟩ := TrackingState.mem_eligible.mp (heligible 0 (Nat.zero_le n))
  have hahead : (run 0).ahead x = (run 0).upTo (pollKey row) x := by
    unfold TrackingState.ahead
    rw [hrow]
  -- what is selected in the end bounds what was selected on the way
  have hrun : ∀ i ≤ n, (∀ shipments ∈ (run i).selections, ∀ item ∈ shipments, item.id ≠ x) →
      ∃ l, Waits limits x (pollKey row) ((run 0).ahead x).card
        (∑ j ∈ Finset.range i, ((run (j + 1)).eligible \ (run j).eligible).card) (run i) l := by
    intro i
    induction i with
    | zero =>
      intro _ _
      refine ⟨⟨(run 0).upTo (pollKey row) x, ∅, 0, 0⟩, ?_, rfl, rfl, ⟨row, hrow, rfl⟩, ?_, ?_⟩
      · show ((run 0).upTo (pollKey row) x ∪ ∅).card + 0 ≤ ((run 0).ahead x).card + 0
        rw [Finset.union_empty, hahead]
      · rw [hfirst]
        rfl
      · rw [hbegin]
        rfl
    | succ i ih =>
      intro hi hnot'
      have hstep := hsteps i hi
      obtain ⟨l, hwaits⟩ := ih (Nat.le_of_lt hi) fun shipments hmem =>
        hnot' shipments (hstep.selections shipments hmem)
      rw [Finset.sum_range_succ]
      exact hwaits.step hstep (heligible i (Nat.le_of_lt hi)) (heligible (i + 1) hi) hnot'
  obtain ⟨l, hwaits⟩ := hrun n (Nat.le_refl n) hnot
  have hphase := hwaits.phase
  rw [hend] at hphase
  have hpending : l.pending = ∅ := hphase
  have hcovered : (l.ahead ∪ l.pending).card + l.served ≤ _ + l.joined := hwaits.covered
  have hcount := hwaits.count
  have hjoined := hwaits.joined
  rw [hpending, Finset.card_empty, Nat.add_zero] at hcount
  omega

section instances

/-- A parcel that can be tracked and has not been checked. -/
def parcel (id : String) (createdAt : Time) : EscrowRow :=
  { Db.lampEscrow .SHIPPED with
    id := id, createdAt := createdAt, trackingId := some "T1", contractEscrowId := some 7 }

def twoParcels : World := World.ofEscrows [parcel "e1" 0, parcel "e2" 1]

/-- The concurrency of the source, with a batch of one. -/
def onePerCycle : TrackingLimits := { TRACKING_POLL with batchSize := 1 }

/-- Nothing fails but the carrier, and the clock is at ten. -/
def Choice.atTen : Choice := { Choice.calm with now := 10 }

def checkFirst : Call := .db (.escrowUpdate "e1" { trackingCheckedAt := some (some 10) })

/-- A program after its next call. -/
def afterCall : App Unit → App Unit
  | .call c rest => rest (handle .atTen c twoParcels).1
  | .done r => .done r

/-- The cycle that selects the first parcel, after some events of its batch and some calls. -/
def firstCycle (events : List BatchEvent) (calls : Nat) : TrackingBatch where
  start := twoParcels
  shipments := [toEscrowRecord (parcel "e1" 0)]
  batch := (Batch.runWithConcurrency (·.id) [toEscrowRecord (parcel "e1" 0)]
    onePerCycle.concurrency events).getD .empty
  programs := [afterCall^[calls]
    (TrackingPollWorker.processShipment .bare (toEscrowRecord (parcel "e1" 0)))]

/-- The events of its batch. -/
def firstEvents : List BatchEvent :=
  [.start, .settle 0 (.error (.error "no answer")), .resume 0, .resolve]

/-- The first parcel is selected and checked, although the carrier does not answer. -/
def oneCycle (i : Nat) : TrackingState where
  world := if i < 6 then twoParcels else (handle .atTen checkFirst twoParcels).2
  settings _ := none
  phase :=
    if i = 0 then .idle
    else if i = 1 then .querying twoParcels
    else if i < 10 then
      .processing (firstCycle
        (firstEvents.take (if i < 3 then 0 else if i < 7 then 1 else i - 5)) (min (i - 3) 3))
    else .idle
  selections := if i < 2 then [] else [[toEscrowRecord (parcel "e1" 0)]]

theorem succeeds_checkFirst : checkFirst.Succeeds twoParcels twoParcels .atTen where
  ok := fun _ => ⟨_, rfl⟩
  later := by
    intro _ _ _ _ _ id row t' hrow ht'
    have hnever : ∀ row ∈ twoParcels.db.escrows.rows, row.trackingCheckedAt = none := by
      decide +kernel
    have hid : row.id = id := get_id hrow
    have hmem : row ∈ twoParcels.db.escrows.rows := by
      rw [Table.mem_rows_iff, hid]
      exact hrow
    cases (hnever row hmem).symm.trans ht'

theorem succeeds_of_not_db {start w : World} {ch : Choice} {c : Call} (h : ∀ d, c ≠ .db d) :
    c.Succeeds start w ch where
  ok := by
    rintro ⟨d, hd⟩
    exact absurd hd (h d)
  later := by
    intro _ _ _ hc
    exact absurd hc (h _)

theorem oneCycle_steps :
    ∀ i < 10, TrackingStep .bare onePerCycle (oneCycle i) (oneCycle (i + 1)) := by
  intro i hi
  have hask : ∀ d, Call.ext (.getStatus "T1") ≠ .db d := by
    intro d h
    cases h
  have hdate : ∀ d, Call.newDate ≠ .db d := by
    intro d h
    cases h
  interval_cases i
  · exact .begin rfl
  · refine .query twoParcels [parcel "e1" 0] rfl ⟨[parcel "e1" 0, parcel "e2" 1], ?_, ?_, rfl⟩
    · decide +kernel
    · decide +kernel
  · exact .batch (firstCycle [] 0) .start _ rfl (fun _ _ he => by cases he) rfl
  · exact .call (firstCycle (firstEvents.take 1) 0) 0 0 _ _ _ .atTen rfl rfl rfl
      (succeeds_of_not_db hask)
  · exact .call (firstCycle (firstEvents.take 1) 1) 0 0 _ _ _ .atTen rfl rfl rfl
      (succeeds_of_not_db hdate)
  · exact .call (firstCycle (firstEvents.take 1) 2) 0 0 _ _ _ .atTen rfl rfl rfl
      succeeds_checkFirst
  · exact .batch (firstCycle (firstEvents.take 1) 3) (.settle 0 (.error (.error "no answer"))) _ rfl
      (fun _ _ he => by cases he; exact ⟨_, _, rfl, rfl⟩) rfl
  · exact .batch (firstCycle (firstEvents.take 2) 3) (.resume 0) _ rfl
      (fun _ _ he => by cases he) rfl
  · exact .batch (firstCycle (firstEvents.take 3) 3) .resolve _ rfl (fun _ _ he => by cases he) rfl
  · exact .finish (firstCycle firstEvents 3) rfl rfl

/-- The second parcel waits for one cycle. -/
theorem tracking_poll_rotation_two :
    (oneCycle 10).selections.length = 1 ∧
    onePerCycle.batchSize * (oneCycle 10).selections.length
      ≤ ((oneCycle 0).ahead "e2").card
        + ∑ i ∈ Finset.range 10, ((oneCycle (i + 1)).eligible \ (oneCycle i).eligible).card := by
  refine ⟨rfl, tracking_poll_rotation .bare onePerCycle oneCycle_steps rfl rfl rfl ?_ ?_⟩
  · decide +kernel
  · decide +kernel

end instances

end TrustLink
