import TrustLink.Model.Operations
import TrustLink.Model.Frame

/-!
# TrustLink — running alone, through the cache

An operation that runs alone still decides on records that may come from the cache. What makes
that harmless is `Coherent`: a cached record is the stored row. Every mutator breaks it between
its update and its eviction and restores it before it returns, provided the eviction is not lost.

`alone A` is the protocol of running alone under choices in `A`. The rules below are what the
proofs about whole operations use: `wp_quiet` for the calls that change nothing a lifecycle can
see, `wp_findById` (a read through a coherent cache is a read of the table), and `wp_update`.
Database calls may be rejected; a rule asks what happens then.
-/

namespace TrustLink

open Effects

/-- The protocol of running alone under choices in `A`. -/
abbrev alone (A : Choice → Prop) : Protocol backend World := world.protocol A

/-- No database call is rejected from outside, and no cache write is lost. Entries may expire, and
the carrier and the contract answer as they like. -/
def Reliable (ch : Choice) : Prop :=
  (∀ c, ch.fault c = none) ∧ ch.lost = false

/-- A cached record is the stored row. -/
def Coherent (D : Deployment) (w : World) : Prop :=
  D.cache = true → ∀ id record, w.cache.escrow id = some record →
    ∃ row, w.db.escrows.get id = some row ∧ record = toEscrowRecord row

/-- Nothing has happened to an escrow or a dispute, and the cache is still coherent. -/
structure Quiet (D : Deployment) (w w' : World) : Prop where
  coherent : Coherent D w'
  rows : SameRows w w'
  journal : w'.journal = w.journal

variable {D : Deployment} {A : Choice → Prop} {w w' w'' : World} {α : Type}

theorem Quiet.refl (hw : Coherent D w) : Quiet D w w := ⟨hw, ⟨rfl, rfl⟩, rfl⟩

/-! ## Calls -/

/-- Calls that change neither rows nor the journal, and put no record into the cache. -/
def Call.quiet : Call → Bool
  | .cache (.setEscrow _ _) => false
  | .notify _ _ => false
  | c => !c.writesRows

/-- A database call that writes no row leaves the journal alone. -/
theorem handleDb_journal (ch : Choice) (c : DbCall) (w : World)
    (h : (Call.db c).writesRows = false) : (handleDb ch c w).2.journal = w.journal := by
  unfold handleDb
  split
  · rfl
  · split
    · rfl
    · cases c <;> first | rfl | cases h

theorem handle_quiet {ch : Choice} {c : Call} (hw : Coherent D w) (hc : c.quiet = true) :
    Quiet D w (handle ch c w).2 := by
  have hwrites : c.writesRows = false := by
    cases c with
    | db c => simpa [Call.quiet] using hc
    | _ => rfl
  have hrows := handle_sameRows ch w c hwrites
  have hjournal : (handle ch c w).2.journal = w.journal := by
    cases c with
    | db c => exact handleDb_journal ch c w hwrites
    | notify n escrow => cases hc
    | _ => rfl
  refine ⟨fun hD id record hcached => ?_, hrows, hjournal⟩
  rw [hrows.1]
  -- what is cached was cached before: no quiet call puts a record into the cache
  rcases cached_handle hcached with rfl | hbefore
  · cases hc
  · exact hw hD id record hbefore

/-- A quiet call, whatever it is answered. -/
theorem wp_quiet {c : Call} {Q : Except Err c.Resp → World → Prop} (hc : c.quiet = true)
    (hw : Coherent D w) (h : ∀ r w', Quiet D w w' → Q r w') :
    (Prog.perform (S := backend) c).wp (alone A) Q w :=
  (wp_machine_perform (M := world)).mpr fun _ _ => h _ _ (handle_quiet hw hc)

theorem wp_handle_db {c : DbCall} {Q : Except Err c.Resp → World → Prop} :
    (db c).wp (alone A) Q w ↔ ∀ ch, A ch → Q (handle ch (.db c) w).1 (handle ch (.db c) w).2 :=
  wp_machine_perform (M := world)

theorem wp_handle_cache {c : CacheCall} {Q : Except Err c.Resp → World → Prop} :
    (cache c).wp (alone A) Q w ↔
      ∀ ch, A ch → Q (handle ch (.cache c) w).1 (handle ch (.cache c) w).2 :=
  wp_machine_perform (M := world)

/-- The database may reject the call with this error. -/
def Rejects (A : Choice → Prop) (c : DbCall) (e : Err) : Prop :=
  ∃ ch p, A ch ∧ ch.fault c = some p ∧ e = .prisma p

theorem not_rejects (hA : ∀ ch, A ch → ∀ c, ch.fault c = none) {c : DbCall} {e : Err} :
    ¬ Rejects A c e := by
  rintro ⟨ch, p, hch, hfault, _⟩
  rw [hA ch hch c] at hfault
  cases hfault

theorem not_rejects_reliable {c : DbCall} {e : Err} : ¬ Rejects Reliable c e :=
  not_rejects fun _ hch => hch.1

/-! ## Reads -/

/-- A call that only reads: rejected, or answered from the tables. -/
theorem wp_read {c : DbCall} {answer : (String → Nat) → c.Resp}
    (hexec : ∀ now fresh tie, Db.exec now fresh tie c w.db = (.ok (answer tie), w.db))
    (hobserved : observed w.db c = []) {Q : Except Err c.Resp → World → Prop}
    (hfail : ∀ e, Rejects A c e → Q (.error e) w) (h : ∀ tie, Q (.ok (answer tie)) w) :
    (db c).wp (alone A) Q w := by
  rw [wp_handle_db]
  intro ch hch
  simp only [handle, handleDb]
  cases hfault : ch.fault c with
  | some p => exact hfail _ ⟨ch, p, hch, hfault, rfl⟩
  | none =>
    simp only [hexec, hobserved, List.nil_append]
    exact h ch.tie

theorem wp_findUnique {id : String} {Q : Except Err (Option EscrowRow) → World → Prop}
    (hfail : ∀ e, Rejects A (.escrowFindUnique id) e → Q (.error e) w)
    (h : Q (.ok (w.db.escrows.get id)) w) : (db (.escrowFindUnique id)).wp (alone A) Q w :=
  wp_read (fun _ _ _ => rfl) rfl hfail fun _ => h

theorem wp_findDispute {escrowId : String} {statuses : Option (List DisputeStatus)}
    {Q : Except Err (Option Dispute) → World → Prop}
    (hfail : ∀ e, Rejects A (.disputeFindFirst escrowId statuses) e → Q (.error e) w)
    (h : Q (.ok (w.db.findDispute escrowId statuses)) w) :
    (db (.disputeFindFirst escrowId statuses)).wp (alone A) Q w :=
  wp_read (fun _ _ _ => rfl) rfl hfail fun _ => h

/-- Without a cached record the row is read, and remembered where there is a cache. -/
theorem wp_findStored {id : String} {Q : Except Err (Option EscrowRecord) → World → Prop}
    (hfail : ∀ e, Rejects A (.escrowFindUnique id) e → Q (.error e) w)
    (hnone : w.db.escrows.get id = none → Q (.ok none) w)
    (hread : ∀ row, w.db.escrows.get id = some row → Q (.ok (some (toEscrowRecord row))) w)
    (hremembered : ∀ row ch, w.db.escrows.get id = some row → A ch →
      Q (.ok (some (toEscrowRecord row)))
        (handle ch (.cache (.setEscrow id (toEscrowRecord row))) w).2) :
    (EscrowRepository.findStored D id).wp (alone A) Q w := by
  unfold EscrowRepository.findStored
  rw [wp_bind]
  apply wp_findUnique hfail
  dsimp only
  cases hrow : w.db.escrows.get id with
  | none => exact hnone hrow
  | some row =>
    unfold EscrowRepository.remember
    rw [wp_bind, wp_ite]
    constructor
    · intro _
      rw [wp_handle_cache]
      intro ch hch
      exact hremembered row ch hrow hch
    · intro _
      exact hread row hrow

/-- A cached record is returned as it is, unless it has expired. -/
theorem wp_findById_of {id : String} {Q : Except Err (Option EscrowRecord) → World → Prop}
    (hcached : ∀ ch record, D.cache = true → A ch → ch.miss = false →
      w.cache.escrow id = some record → Q (.ok (some record)) w)
    (hmiss : (EscrowRepository.findStored D id).wp (alone A) Q w) :
    (EscrowRepository.findById D id).wp (alone A) Q w := by
  rw [EscrowRepository.findById_eq, wp_bind]
  unfold EscrowRepository.cached
  apply wp_if
  · intro hcache
    rw [wp_handle_cache]
    intro ch hch
    simp only [handle, Cache.handle]
    cases hexpired : ch.miss with
    | true => exact hmiss
    | false =>
      rw [if_neg Bool.false_ne_true]
      cases hentry : w.cache.escrow id with
      | none => exact hmiss
      | some record => exact hcached ch record hcache hch hexpired hentry
  · intro _
    exact hmiss

/-- A read through a coherent cache is a read of the table. -/
theorem wp_findById {id : String} {Q : Except Err (Option EscrowRecord) → World → Prop}
    (hw : Coherent D w) (hfail : ∀ e, Rejects A (.escrowFindUnique id) e → Q (.error e) w)
    (h : ∀ w', Quiet D w w' → Q (.ok ((w.db.escrows.get id).map toEscrowRecord)) w') :
    (EscrowRepository.findById D id).wp (alone A) Q w := by
  have hhere := h w (Quiet.refl hw)
  apply wp_findById_of
  · intro ch record hcache _ _ hentry
    obtain ⟨row, hrow, rfl⟩ := hw hcache id record hentry
    rw [hrow] at hhere
    exact hhere
  apply wp_findStored hfail
  · intro hrow
    rw [hrow] at hhere
    exact hhere
  · intro row hrow
    rw [hrow] at hhere
    exact hhere
  · intro row ch hrow _
    -- the record that is remembered is the one of the row
    have hquiet : Quiet D w (handle ch (.cache (.setEscrow id (toEscrowRecord row))) w).2 := by
      refine ⟨fun hD id' record hcached => ?_, ⟨rfl, rfl⟩, rfl⟩
      rw [cached_setEscrow] at hcached
      split at hcached
      · next hnew =>
        rw [hnew.2]
        exact ⟨row, hrow, (Option.some.inj hcached).symm⟩
      · exact hw hD id' record hcached
    have hdone := h _ hquiet
    rw [hrow] at hdone
    exact hdone

/-! ## Writes -/

/-- An update of `row` has been written, and its record evicted. -/
structure Wrote (D : Deployment) (row : EscrowRow) (data : EscrowData) (w w' : World) : Prop where
  coherent : Coherent D w'
  escrows : ∃ now, w'.db.escrows = w.db.escrows.put (row.update data now)
  disputes : w'.db.disputes = w.db.disputes
  journal : w'.journal = observed w.db (.escrowUpdate row.id data) ++ w.journal

/-- A cached record is the stored row, but for the record of one escrow. -/
def CoherentBut (D : Deployment) (id : String) (w : World) : Prop :=
  D.cache = true → ∀ id' record, id' ≠ id → w.cache.escrow id' = some record →
    ∃ row, w.db.escrows.get id' = some row ∧ record = toEscrowRecord row

/-- Writing an escrow may leave its own cached record behind, and no other. -/
theorem coherentBut_put {journal : List Obs} (hw : Coherent D w) (row : EscrowRow) :
    CoherentBut D row.id { w with db := w.db.putEscrow row, journal := journal } := by
  intro hD id' record hne hcached
  obtain ⟨row', hrow', hrecord⟩ := hw hD id' record hcached
  refine ⟨row', ?_, hrecord⟩
  show (w.db.putEscrow row).escrows.get id' = some row'
  rw [putEscrow_get, if_neg hne]
  exact hrow'

/-- The eviction after a write. -/
theorem wp_evict {id : String} {Q : Except Err Unit → World → Prop}
    (hA : ∀ ch, A ch → ch.lost = false) (hw : CoherentBut D id w)
    (h : ∀ w', Coherent D w' → w'.db = w.db → w'.journal = w.journal → Q (.ok ()) w') :
    (EscrowRepository.invalidate D id).wp (alone A) Q w := by
  unfold EscrowRepository.invalidate
  apply wp_if
  · intro _
    rw [wp_handle_cache]
    intro ch hch
    refine h _ (fun hD id' record hcached => ?_) rfl rfl
    rw [cached_delEscrow] at hcached
    split at hcached
    · cases hcached
    · next hkept =>
      exact hw hD id' record (fun hid => hkept ⟨hA ch hch, hid⟩) hcached
  · intro hD
    exact h w (fun hD' => absurd hD' hD) rfl rfl

theorem wp_update {id : String} {data : EscrowData} {Q : Except Err EscrowRecord → World → Prop}
    (hA : ∀ ch, A ch → ch.lost = false) (hw : Coherent D w)
    (hfail : ∀ e, Rejects A (.escrowUpdate id data) e → Q (.error e) w)
    (hmissing : w.db.escrows.get id = none → Q (.error (.prisma .recordNotFound)) w)
    (h : ∀ row now w', w.db.escrows.get id = some row → Wrote D row data w w' →
      Q (.ok (toEscrowRecord (row.update data now))) w') :
    (EscrowRepository.update D id data).wp (alone A) Q w := by
  unfold EscrowRepository.update
  rw [wp_bind, wp_handle_db]
  intro ch hch
  cases hfault : ch.fault (.escrowUpdate id data) with
  | some p =>
    simp only [handle, handleDb, hfault]
    exact hfail _ ⟨ch, p, hch, hfault, rfl⟩
  | none =>
    cases hrow : w.db.escrows.get id with
    | none =>
      simp only [handle, handleDb, hfault, Db.exec, Db.updateEscrow, hrow]
      exact hmissing hrow
    | some row =>
      rw [handle_escrowUpdate_ok ch w hfault hrow]
      have hbut : CoherentBut D id (w.updated row data ch.now) := by
        rw [← get_id hrow]
        exact coherentBut_put hw (row.update data ch.now)
      refine (wp_bind _ _ _ _).mpr (wp_evict hA hbut ?_)
      intro w' hcoherent hdb hjournal
      refine h row ch.now w' hrow ⟨hcoherent, ⟨ch.now, ?_⟩, ?_, hjournal⟩
      · rw [hdb]; rfl
      · rw [hdb]; rfl

/-- Reading an escrow whose cached record may be stale: the answer is anything, and nothing but
that record has changed. -/
theorem wp_findById_stale {id : String} {Q : Except Err (Option EscrowRecord) → World → Prop}
    (hw : CoherentBut D id w)
    (hfail : ∀ e, Rejects A (.escrowFindUnique id) e → Q (.error e) w)
    (h : ∀ record w', CoherentBut D id w' → w'.db = w.db → w'.journal = w.journal →
      Q (.ok record) w') :
    (EscrowRepository.findById D id).wp (alone A) Q w := by
  have hhere : ∀ record, Q (.ok record) w := fun record => h record w hw rfl rfl
  apply wp_findById_of
  · intro _ record _ _ _ _
    exact hhere (some record)
  apply wp_findStored hfail
  · intro _
    exact hhere none
  · intro row _
    exact hhere (some (toEscrowRecord row))
  · intro row ch _ _
    refine h _ _ (fun hD id' record hne hcached => ?_) rfl rfl
    rw [cached_setEscrow] at hcached
    split at hcached
    · next hnew => exact absurd hnew.2 hne
    · exact hw hD id' record hne hcached

end TrustLink
