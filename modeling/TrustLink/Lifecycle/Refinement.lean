import TrustLink.Lifecycle.Abstract
import TrustLink.Lifecycle.Sequential

/-!
# TrustLink — the services follow the lifecycle

The refinement between the two layers. `World.caseOf` reads an escrow's case off the tables;
`Evolves` says that between two worlds every escrow went through a history of the lifecycle, and
that the journal is what these histories show. `Follows` is what an operation ensures when it runs
alone from a coherent world.

Most of what an operation does leaves every case alone (`Keeps`, closed under everything a program
is built from), and the rest is one move: a mutator sets the state (`SetsState`), before it a
dispute may have been written, after it the parties are told (`Moved`).
-/

namespace TrustLink

open Effects

/-- The case of an escrow, as stored. -/
def World.caseOf (w : World) (id : String) : Case :=
  ⟨w.stateOf id, (w.db.disputes.get id).map (·.status)⟩

/-- Every escrow went through a history, and the journal shows it. -/
def Evolves (off : String → Prop) (w w' : World) : Prop :=
  ∃ seen, w'.journal = seen ++ w.journal ∧ ∀ id,
    History (off id) id (w.caseOf id) (seen.filter (·.escrowId = id)) (w'.caseOf id)

/-- What an operation ensures, however it settles. -/
def Follows (D : Deployment) (off : String → Prop) (w : World) {α : Type} (_ : Except Err α)
    (w' : World) : Prop :=
  Coherent D w' ∧ Evolves off w w'

variable {D : Deployment} {off : String → Prop} {w w' w'' : World} {α : Type}
  {r : Except Err α} {id : String}

/-- Histories are joined end to end. -/
theorem Evolves.trans (h : Evolves off w w') (h' : Evolves off w' w'') : Evolves off w w'' := by
  obtain ⟨seen, hjournal, hhistory⟩ := h
  obtain ⟨seen', hjournal', hhistory'⟩ := h'
  refine ⟨seen' ++ seen, ?_, fun id => ?_⟩
  · rw [hjournal', hjournal, List.append_assoc]
  · rw [List.filter_append]
    exact (hhistory id).trans (hhistory' id)

/-- Where more stray steps are allowed there are more histories. -/
theorem Evolves.mono {off' : String → Prop} (hoff : ∀ id, off id → off' id)
    (h : Evolves off w w') : Evolves off' w w' := by
  obtain ⟨seen, hjournal, hhistory⟩ := h
  exact ⟨seen, hjournal, fun id => (hhistory id).mono (hoff id)⟩

/-! ## Nothing happens

Reads, notes and the cache leave every case where it is. -/

/-- Nothing has happened that a lifecycle can see. Other columns of an escrow may be new. -/
structure Still (D : Deployment) (w w' : World) : Prop where
  coherent : Coherent D w'
  states : ∀ id, w'.stateOf id = w.stateOf id
  disputes : w'.db.disputes = w.db.disputes
  journal : w'.journal = w.journal

/-- Calls that change no row leave the cases alone. -/
theorem Quiet.still (h : Quiet D w w') : Still D w w' where
  coherent := h.coherent
  states := fun id => by rw [World.stateOf, h.rows.1]; rfl
  disputes := h.rows.2
  journal := h.journal

theorem Still.caseOf (h : Still D w w') (id : String) : w'.caseOf id = w.caseOf id := by
  rw [World.caseOf, h.states, h.disputes]
  rfl

/-- To stay is to evolve. -/
theorem Still.evolves (h : Still D w w') : Evolves off w w' := by
  refine ⟨[], by rw [h.journal]; rfl, fun id => ?_⟩
  rw [h.caseOf]
  exact Effects.Path.refl

/-- What leaves the cases alone follows the lifecycle, whatever it answers. -/
theorem Still.follows (h : Still D w w') : Follows D off w r w' := ⟨h.coherent, h.evolves⟩

/-- Which is a history without a step. -/
theorem Quiet.follows (h : Quiet D w w') : Follows D off w r w' := h.still.follows

/-- So does what does nothing. -/
theorem Coherent.follows (h : Coherent D w) : Follows D off w r w := (Quiet.refl h).follows

/-- After nothing has happened, the operation may be judged from there. -/
theorem follows_after {p : App α} (hs : Still D w w')
    (h : p.wp (alone Reliable) (Follows D off w') w') :
    p.wp (alone Reliable) (Follows D off w) w' :=
  wp_mono h fun _ _ h => ⟨h.1, hs.evolves.trans h.2⟩

/-! ## One move

An operation moves one escrow, in one transition, with the dispute and the notifications that go
with it. The lemmas say what may come before and after the write without adding a move. -/

/-- Nothing has happened but, possibly, to the dispute of one escrow. -/
structure DisputeOnly (D : Deployment) (id : String) (w w' : World) : Prop where
  coherent : Coherent D w'
  states : ∀ id', w'.stateOf id' = w.stateOf id'
  others : ∀ id', id' ≠ id → w'.db.disputes.get id' = w.db.disputes.get id'
  journal : w'.journal = w.journal

/-- One dispute has been written. -/
theorem disputeOnly_put {db : Db} {d : Dispute} (hw : Coherent D w)
    (hescrows : db.escrows = w.db.escrows) (hdisputes : db.disputes = w.db.disputes.put d) :
    DisputeOnly D d.escrowId w { w with db := db } where
  coherent := by
    intro hD id' record hcached
    rw [show ({ w with db := db } : World).db.escrows = w.db.escrows from hescrows]
    exact hw hD id' record hcached
  states := fun id' => by
    rw [World.stateOf, show ({ w with db := db } : World).db.escrows = w.db.escrows from hescrows]
    rfl
  others := fun id' hne => by
    rw [show ({ w with db := db } : World).db.disputes = w.db.disputes.put d from hdisputes]
    exact w.db.disputes.get_put_ne hne
  journal := rfl

theorem Still.disputeOnly (h : Still D w w') (id : String) : DisputeOnly D id w w' where
  coherent := h.coherent
  states := h.states
  others := fun id' _ => by rw [h.disputes]
  journal := h.journal

/-- The escrow has gone from one state to another and this has been announced; `d` is the dispute
it is left with. -/
structure Moved (D : Deployment) (id : String) (before after : EscrowState)
    (d : Option DisputeStatus) (notes : List Notification) (w w' : World) : Prop where
  coherent : Coherent D w'
  journal : w'.journal = shown id before after notes ++ w.journal
  before : w.stateOf id = some before
  after : w'.caseOf id = ⟨some after, d⟩
  others : ∀ id', id' ≠ id → w'.caseOf id' = w.caseOf id'

section moved

variable {before after : EscrowState} {d : Option DisputeStatus} {notes : List Notification}

/-- The dispute may be written first. -/
theorem Moved.of_disputeOnly (h : DisputeOnly D id w w') (hm : Moved D id before after d notes w' w'') :
    Moved D id before after d notes w w'' where
  coherent := hm.coherent
  journal := by rw [hm.journal, h.journal]
  before := by rw [← h.states id]; exact hm.before
  after := hm.after
  others := fun id' hne => by
    rw [hm.others id' hne, World.caseOf, World.caseOf, h.states id', h.others id' hne]

/-- What follows the move leaves it as it is. -/
theorem Moved.still (hm : Moved D id before after d notes w w') (h : Still D w' w'') :
    Moved D id before after d notes w w'' where
  coherent := h.coherent
  journal := by rw [h.journal, hm.journal]
  before := hm.before
  after := by rw [h.caseOf, hm.after]
  others := fun id' hne => by rw [h.caseOf, hm.others id' hne]

/-- And may tell the parties. -/
theorem Moved.notified (hm : Moved D id before after d notes w w') (n : Notification) :
    Moved D id before after d (n :: notes) w { w' with journal := .notified n id :: w'.journal } where
  coherent := hm.coherent
  journal := by
    show _ :: w'.journal = _
    rw [hm.journal]
    rfl
  before := hm.before
  after := hm.after
  others := hm.others

/-- What is shown of one escrow says nothing about another. -/
theorem filter_shown (id' : String) : (shown id before after notes).filter (·.escrowId = id') =
    if id' = id then shown id before after notes else [] := by
  have hall : ∀ o ∈ shown id before after notes, o.escrowId = id := by
    intro o ho
    rcases List.mem_append.mp ho with hnote | hwrite
    · obtain ⟨n, _, rfl⟩ := List.mem_map.mp hnote
      rfl
    · rw [List.mem_singleton.mp hwrite]
      rfl
  split
  · next hid =>
    rw [List.filter_eq_self]
    exact fun o ho => decide_eq_true ((hall o ho).trans hid.symm)
  · next hid =>
    rw [List.filter_eq_nil_iff]
    exact fun o ho h => hid ((of_decide_eq_true h).symm.trans (hall o ho))

/-- A move that the lifecycle allows. -/
theorem Moved.follows (hm : Moved D id before after d notes w w') (ht : Transition before after)
    (hnotes : notes ∈ announcements after)
    (hd : DisputeMove (off id) before after (w.caseOf id).dispute d) : Follows D off w r w' := by
  refine ⟨hm.coherent, shown id before after notes, hm.journal, fun id' => ?_⟩
  rw [filter_shown]
  split
  · next hid =>
    subst hid
    have hbefore : w.caseOf id' = ⟨some before, (w.caseOf id').dispute⟩ :=
      Case.ext hm.before rfl
    rw [hm.after, hbefore]
    exact Path.single (Step.move ht hnotes hd)
  · next hid =>
    rw [hm.others id' hid]
    exact Effects.Path.refl

/-! ## Updates

An accepted update, and the case it leaves. -/

variable {row : EscrowRow} {data : EscrowData}

/-- The state that is written is the state that is there. -/
theorem Wrote.stateOf (h : Wrote D row data w w') (id' : String) :
    w'.stateOf id' = if id' = row.id then some (data.state.getD row.state) else w.stateOf id' := by
  obtain ⟨now, hescrows⟩ := h.escrows
  rw [World.stateOf, hescrows, Store.Table.get_put, EscrowRow.update_id]
  split
  · rfl
  · rfl

/-- An update of the state is a move of that escrow. -/
theorem Wrote.moved (h : Wrote D row data w w') (hrow : w.db.escrows.get id = some row)
    (hafter : data.state = some after) :
    Moved D id row.state after (w.caseOf id).dispute [] w w' := by
  obtain rfl := get_id hrow
  refine ⟨h.coherent, ?_, ?_, ?_, fun id' hne => ?_⟩
  · rw [h.journal]
    simp only [observed, hafter, hrow]
    rfl
  · rw [World.stateOf, hrow]
    rfl
  · rw [World.caseOf, h.stateOf, if_pos rfl, hafter, h.disputes]
    rfl
  · rw [World.caseOf, h.stateOf, if_neg hne, h.disputes]
    rfl

/-- An update that does not write the state. -/
theorem Wrote.still (h : Wrote D row data w w') (hrow : w.db.escrows.get id = some row)
    (hnone : data.state = none) : Still D w w' := by
  obtain rfl := get_id hrow
  refine ⟨h.coherent, fun id' => ?_, h.disputes, ?_⟩
  · rw [h.stateOf, hnone]
    split
    · next hid =>
      rw [hid, World.stateOf, hrow]
      rfl
    · rfl
  · rw [h.journal]
    simp only [observed, hnone]
    rfl

end moved

/-! ## Programs that leave every case alone

They compose, and follow the lifecycle whatever they return. -/

def Keeps (D : Deployment) (p : App α) : Prop :=
  ∀ w, Coherent D w → p.wp (alone Reliable) (fun _ w' => Still D w w') w

theorem Still.refl (hw : Coherent D w) : Still D w w := (Quiet.refl hw).still

theorem Still.trans (h : Still D w w') (h' : Still D w' w'') : Still D w w'' where
  coherent := h'.coherent
  states := fun id => (h'.states id).trans (h.states id)
  disputes := h'.disputes.trans h.disputes
  journal := h'.journal.trans h.journal

/-- An escrow is still there, in the state it was in. -/
theorem Still.row_of (h : Still D w w') {row : EscrowRow} (hrow : w.db.escrows.get id = some row) :
    ∃ row', w'.db.escrows.get id = some row' ∧ row'.state = row.state := by
  have hstate := h.states id
  unfold World.stateOf at hstate
  rw [hrow, Option.map_some] at hstate
  exact Option.map_eq_some_iff.mp hstate

section keeps

variable {β : Type} {p : App α}

theorem keeps_done (r : Except Err α) : Keeps D (Prog.done r) := fun _ hw => Still.refl hw

theorem keeps_pure (a : α) : Keeps D (pure a : App α) := keeps_done _

theorem keeps_throw (e : Err) : Keeps D (throw e : App α) := keeps_done _

/-- In sequence, whatever the first part has returned. -/
theorem keeps_andThen {f : Except Err α → App β} (hp : Keeps D p) (hf : ∀ r, Keeps D (f r)) :
    Keeps D (p.andThen f) := by
  intro w hw
  rw [wp_andThen]
  refine wp_mono (hp w hw) fun r w' hstill => ?_
  exact wp_mono (hf r w' hstill.coherent) fun _ _ h => hstill.trans h

theorem keeps_bind {f : α → App β} (hp : Keeps D p) (hf : ∀ a, Keeps D (f a)) :
    Keeps D (p >>= f) :=
  keeps_andThen hp fun
    | .ok a => hf a
    | .error _ => keeps_done _

theorem keeps_tryCatch {f : Err → App α} (hp : Keeps D p) (hf : ∀ e, Keeps D (f e)) :
    Keeps D (p.tryCatch f) :=
  keeps_andThen hp fun
    | .ok _ => keeps_done _
    | .error e => hf e

theorem keeps_void (hp : Keeps D p) : Keeps D p.void := keeps_andThen hp fun _ => keeps_done _

theorem keeps_ite {b : Prop} [Decidable b] {q : App α} (hp : b → Keeps D p) (hq : ¬ b → Keeps D q) :
    Keeps D (if b then p else q) := by
  split
  · exact hp ‹_›
  · exact hq ‹_›

/-- By induction on the list. -/
theorem keeps_forM {f : α → App PUnit} (hf : ∀ a, Keeps D (f a)) (xs : List α) :
    Keeps D (forM xs f) := by
  induction xs with
  | nil => exact keeps_pure _
  | cons x xs ih => exact keeps_bind (hf x) fun _ => ih

/-- A call that touches neither rows nor disputes. -/
theorem keeps_quiet {c : Call} (hc : c.quiet = true) : Keeps D (Prog.perform (S := backend) c) :=
  fun _ hw => wp_quiet hc hw fun _ _ h => h.still

/-- A lookup may fill the cache, from the table. -/
theorem keeps_findById (id : String) : Keeps D (EscrowRepository.findById D id) := fun _ hw =>
  wp_findById hw (fun _ hr => absurd hr not_rejects_reliable) fun _ h => h.still

/-- An update that does not write the state. -/
theorem keeps_update {id : String} {data : EscrowData} (hnone : data.state = none) :
    Keeps D (EscrowRepository.update D id data) := fun _ hw =>
  wp_update (fun _ hch => hch.2) hw (fun _ hr => absurd hr not_rejects_reliable)
    (fun _ => Still.refl hw) fun _ _ _ hrow hwrote => hwrote.still hrow hnone

/-- They follow the lifecycle without a move. -/
theorem Keeps.follows (hp : Keeps D p) (hw : Coherent D w) :
    p.wp (alone Reliable) (Follows D off w) w :=
  wp_mono (hp w hw) fun _ _ h => h.follows

/-- What keeps every case may come first. -/
theorem Keeps.bind_follows {f : α → App β} (hp : Keeps D p) (hw : Coherent D w)
    (hf : ∀ a w', Still D w w' → (f a).wp (alone Reliable) (Follows D off w') w') :
    (p >>= f).wp (alone Reliable) (Follows D off w) w := by
  refine wp_seq (hp w hw) (fun _ _ hstill => hstill.follows) ?_
  intro a w' hstill
  exact follows_after hstill (hf a w' hstill)

/-- What keeps every case may come last, whatever the outcome was. -/
theorem follows_andThen_keeps {f : Except Err α → App β}
    (hp : p.wp (alone Reliable) (Follows D off w) w) (hf : ∀ r, Keeps D (f r)) :
    (p.andThen f).wp (alone Reliable) (Follows D off w) w := by
  rw [wp_andThen]
  refine wp_mono hp fun r w' hfollows => ?_
  exact wp_mono (hf r w' hfollows.1) fun _ _ hstill =>
    ⟨hstill.coherent, hfollows.2.trans hstill.evolves⟩

/-- An error handler that leaves the cases alone adds no move. -/
theorem follows_tryCatch {f : Err → App α} (hp : p.wp (alone Reliable) (Follows D off w) w)
    (hf : ∀ e, Keeps D (f e)) : (p.tryCatch f).wp (alone Reliable) (Follows D off w) w :=
  follows_andThen_keeps hp fun
    | .ok _ => keeps_done _
    | .error e => hf e

theorem follows_void (hp : p.wp (alone Reliable) (Follows D off w) w) :
    p.void.wp (alone Reliable) (Follows D off w) w :=
  follows_andThen_keeps hp fun _ => keeps_done _

/-- Nor does what is done at last. -/
theorem follows_tryFinally {fin : App Unit} (hp : p.wp (alone Reliable) (Follows D off w) w)
    (hfin : Keeps D fin) : (p.tryFinally fin).wp (alone Reliable) (Follows D off w) w := by
  refine follows_andThen_keeps hp fun r => keeps_andThen hfin fun r' => ?_
  cases r' <;> exact keeps_done _

end keeps

/-! ## Mutators that set the state

Each is an update of the state, after it was dated or not. -/

/-- The mutator sets the state of the escrow, if there is one, and returns its record. -/
def SetsState (D : Deployment) (id : String) (after : EscrowState) (p : App EscrowRecord) : Prop :=
  ∀ w row, Coherent D w → w.db.escrows.get id = some row →
    p.wp (alone Reliable) (fun r w' => ∃ record, r = .ok record ∧ record.id = id ∧
      Moved D id row.state after (w.caseOf id).dispute [] w w') w

/-- An update that names a state sets it. -/
theorem sets_update {data : EscrowData} {after : EscrowState} (hafter : data.state = some after) :
    SetsState D id after (EscrowRepository.update D id data) := by
  intro w row hw hrow
  refine wp_update (fun _ hch => hch.2) hw (fun _ hr => absurd hr not_rejects_reliable) ?_ ?_
  · intro hnone
    rw [hrow] at hnone
    cases hnone
  · intro row' now w' hrow' hwrote
    obtain rfl : row = row' := Option.some.inj (hrow.symm.trans hrow')
    exact ⟨_, rfl, (get_id hrow : row.id = id), hwrote.moved hrow hafter⟩

/-- The clock may be read first. -/
theorem sets_newDate {after : EscrowState} {f : Time → App EscrowRecord}
    (h : ∀ now, SetsState D id after (f now)) : SetsState D id after (newDate >>= f) := by
  intro w row hw hrow
  refine (wp_machine_bind (M := world)).mpr fun ch _ => ?_
  exact h ch.now w row hw hrow

/-- The rest of the program goes on from the move. -/
theorem SetsState.bind {β : Type} {after : EscrowState} {p : App EscrowRecord} {row : EscrowRow}
    {f : EscrowRecord → App β} {Q : Except Err β → World → Prop} (h : SetsState D id after p)
    (hw : Coherent D w) (hrow : w.db.escrows.get id = some row)
    (hf : ∀ record w', record.id = id →
      Moved D id row.state after (w.caseOf id).dispute [] w w' → (f record).wp (alone Reliable) Q w') :
    (p >>= f).wp (alone Reliable) Q w := by
  rw [wp_bind]
  refine wp_mono (h w row hw hrow) ?_
  rintro r w' ⟨record, rfl, hid, hmoved⟩
  exact hf record w' hid hmoved

/-- A mutator that is the whole of the move. -/
theorem SetsState.follows {after : EscrowState} {p : App EscrowRecord} {row : EscrowRow}
    (h : SetsState D id after p) (hw : Coherent D w) (hrow : w.db.escrows.get id = some row)
    (ht : Transition row.state after) (hsilent : [] ∈ announcements after)
    (hd : DisputeMove (off id) row.state after (w.caseOf id).dispute (w.caseOf id).dispute) :
    p.wp (alone Reliable) (Follows D off w) w := by
  refine wp_mono (h w row hw hrow) ?_
  rintro r w' ⟨record, _, _, hmoved⟩
  exact hmoved.follows ht hsilent hd

/-- The move, and then what is sent about it. -/
theorem wp_sends {record : EscrowRecord} {n : Notification} {Q : Except Err Unit → World → Prop}
    (h : Q (.ok ()) { w with journal := .notified n record.id :: w.journal }) :
    (notify n record).wp (alone Reliable) Q w :=
  (wp_machine_perform (M := world)).mpr fun _ _ => h

end TrustLink
