import TrustLink.Effects.Returns
import TrustLink.Model.EscrowService
import TrustLink.Model.Frame

/-!
# TrustLink — what an idempotent creation does

The executions of `createIdempotent` with one key, call by call. An execution looks the key up; on a
miss it checks the body, looks for an escrow of the item, makes sure of the vendor's profile, draws
an id, inserts the row and stores the result under the key. `creation` reads how far an execution
has come from its calls, and `creation_step` says what one call that succeeds can do to the tables
and to the key.

The fact about the database that matters: what has been rejected stays rejected. A body that is
invalid or whose item is taken is `Hopeless`, and no execution makes it less so.
-/

namespace TrustLink

open Effects EscrowService

/-! ## The executions of one key -/

abbrev Creations := Pool world CreateEscrowDto

/-- Executions with one key and one vendor, any bodies, interleaved. -/
def creationRun (D : Deployment) (key vendor : String) (w : World)
    (ms : List (Move world CreateEscrowDto)) : Creations :=
  Pool.run (fun dto => (createIdempotent D key dto vendor).void) ⟨w, []⟩ ms

/-- The escrow a call has created, with the body it was created from. -/
def createdBy : (c : Call) → Except Err c.Resp → List (CreateEscrowDto × EscrowRow)
  | .db (.escrowCreate _ dto _), .ok row => [(dto, row)]
  | _, _ => []

def creations (P : Creations) : Move world CreateEscrowDto → List (CreateEscrowDto × EscrowRow)
  | .spawn _ => []
  | .step i ch =>
    match P.threads[i]? with
    | none => []
    | some t =>
      match t.rest with
      | .done _ => []
      | .call c _ => createdBy c (handle ch c P.state).1

/-- The escrows created in a run, oldest first. -/
def createdIn (D : Deployment) (key vendor : String) (w : World)
    (ms : List (Move world CreateEscrowDto)) : List (CreateEscrowDto × EscrowRow) :=
  Pool.observe (fun dto => (createIdempotent D key dto vendor).void) creations ⟨w, []⟩ ms

/-- The database and the cache do not fail, nothing expires, and a random id is not that of an
existing escrow. -/
def CallSucceeds (w : World) (ch : Choice) : Call → Prop
  | .db (.escrowCreate id dto vendor) =>
    ch.fault (.escrowCreate id dto vendor) = none ∧ w.db.escrows.get id = none
  | .db c => ch.fault c = none
  | .cache _ => ch.miss = false ∧ ch.lost = false
  | _ => True

def AllSucceed (P : Creations) : Move world CreateEscrowDto → Prop
  | .spawn _ => True
  | .step i ch => ∀ c ∈ (P.threads[i]?).bind Thread.inFlight, CallSucceeds P.state ch c

/-- The execution has looked its key up and has not settled. -/
def underWay (t : Thread backend CreateEscrowDto) : Bool := !t.past.isEmpty && t.inFlight.isSome

/-- The key is looked up only while no execution is under way. -/
def OneAtATime (cacheKey : String) (P : Creations) : Move world CreateEscrowDto → Prop
  | .spawn _ => True
  | .step i _ => (P.threads[i]?).bind Thread.inFlight = some (.cache (.getIdempotency cacheKey)) →
    ∀ t ∈ P.threads, underWay t = false

instance (w : World) (ch : Choice) (c : Call) : Decidable (CallSucceeds w ch c) := by
  unfold CallSucceeds
  split <;> infer_instance

instance (P : Creations) (m : Move world CreateEscrowDto) : Decidable (AllSucceed P m) := by
  cases m <;> unfold AllSucceed <;> infer_instance

instance (cacheKey : String) (P : Creations) (m : Move world CreateEscrowDto) :
    Decidable (OneAtATime cacheKey P m) := by
  cases m <;> unfold OneAtATime <;> infer_instance

/-! ## What is rejected stays rejected -/

/-- The body is rejected before anything is asked. -/
def Invalid (vendor : String) (dto : CreateEscrowDto) : Prop :=
  dto.amount.units ≤ 0 ∨ dto.buyerAddress = vendor

instance (vendor : String) (dto : CreateEscrowDto) : Decidable (Invalid vendor dto) := by
  unfold Invalid
  infer_instance

/-- The vendor has an escrow for the item. -/
def Taken (vendor itemRef : String) (db : Db) : Prop :=
  ∃ row ∈ db.escrows.rows, row.vendorAddress = vendor ∧ row.itemRef = itemRef

/-- No escrow can be created from the body. -/
def Hopeless (D : Deployment) (vendor : String) (db : Db) (dto : CreateEscrowDto) : Prop :=
  Invalid vendor dto ∨ Taken vendor dto.itemRef db ∨
    (D.prisma = false ∧ db.vendorProfiles.get vendor = none)

/-- Escrows and profiles are added, and profiles only by a service that has the database. -/
structure Grows (D : Deployment) (vendor : String) (db db' : Db) : Prop where
  taken : ∀ itemRef, Taken vendor itemRef db → Taken vendor itemRef db'
  profile : db'.vendorProfiles.get vendor = none → db.vendorProfiles.get vendor = none
  noProfile : D.prisma = false → db.vendorProfiles.get vendor = none →
    db'.vendorProfiles.get vendor = none

section database

variable {D : Deployment} {vendor : String} {db db' : Db} {dto : CreateEscrowDto}

theorem Grows.refl : Grows D vendor db db := ⟨fun _ h => h, fun h => h, fun _ h => h⟩

theorem Grows.hopeless (h : Grows D vendor db db') (hopeless : Hopeless D vendor db dto) :
    Hopeless D vendor db' dto := by
  rcases hopeless with hinvalid | htaken | ⟨hprisma, hnone⟩
  · exact .inl hinvalid
  · exact .inr (.inl (h.taken _ htaken))
  · exact .inr (.inr ⟨hprisma, h.noProfile hprisma hnone⟩)

theorem grows_putEscrow {row : EscrowRow} (hnew : db.escrows.get row.id = none) :
    Grows D vendor db (db.putEscrow row) where
  taken := by
    rintro itemRef ⟨old, hold, hmatch⟩
    refine ⟨old, ?_, hmatch⟩
    rw [Store.Table.mem_rows_iff] at hold ⊢
    rw [putEscrow_get, if_neg]
    · exact hold
    · intro hid
      rw [hid, hnew] at hold
      cases hold
  profile h := h
  noProfile _ h := h

theorem taken_iff {itemRef : String} :
    db.escrows.rows.any (fun r => r.vendorAddress = vendor && r.itemRef = itemRef) = true ↔
      Taken vendor itemRef db := by
  simp [Taken]

end database

/-! ## What an execution has reached

The monitor of one execution: the lookup, the checks, the row and the stored answer. -/

inductive CreationPhase where
  | fresh
  /-- The key has been used. -/
  | answered (entry : IdempotencyCacheEntry)
  | missed
  /-- The vendor's profile is there. -/
  | ready
  | created (row : EscrowRow)
  | stored (row : EscrowRow)
  | failed

structure Creation where
  dto : CreateEscrowDto
  phase : CreationPhase

namespace Creation

variable (D : Deployment) (vendor cacheKey : String)

/-- What an accepted call means for the execution. -/
def learn (v : Creation) : (c : Call) → c.Resp → CreationPhase
  | .cache (.getIdempotency _), some entry => .answered entry
  | .cache (.getIdempotency _), none => if Invalid vendor v.dto then .failed else .missed
  | .db (.escrowFindFirst _ _), some _ => .failed
  | .db (.vendorProfileUpsert _), _ => .ready
  | .db (.escrowCreate _ _ _), row => .created row
  | .cache (.setIdempotency _ _), _ =>
    match v.phase with
    | .created row => .stored row
    | phase => phase
  | _, _ => v.phase

def next (v : Creation) (c : Call) : Except Err c.Resp → Creation
  | .error _ => ⟨v.dto, .failed⟩
  | .ok a => ⟨v.dto, v.learn vendor c a⟩

def ok (v : Creation) : Call → Prop
  | .cache (.getIdempotency cacheKey') => cacheKey' = cacheKey ∧ v.phase = .fresh
  | .db (.escrowFindFirst vendor' itemRef) =>
    vendor' = vendor ∧ itemRef = v.dto.itemRef ∧ v.phase = .missed
  | .db (.vendorProfileUpsert profile) =>
    profile.address = vendor ∧ D.prisma = true ∧ v.phase = .missed
  | .randomUUID => v.phase = .missed ∨ v.phase = .ready
  | .db (.escrowCreate _ dto vendor') =>
    dto = v.dto ∧ vendor' = vendor ∧ ¬ Invalid vendor dto ∧
      (v.phase = .ready ∨ (v.phase = .missed ∧ D.prisma = false))
  | .cache (.setIdempotency cacheKey' entry) =>
    cacheKey' = cacheKey ∧ ∃ row, v.phase = .created row ∧
      entry = ⟨hashRequestBody D v.dto, toEscrowRecord row⟩
  | _ => False

/-- What is returned at the end. -/
def Promised (dto : CreateEscrowDto) (r : Except Err EscrowRecord) (v : Creation) : Prop :=
  match v.phase with
  | .answered entry =>
    if entry.requestHash = hashRequestBody D dto then r = .ok entry.result else ∃ e, r = .error e
  | .stored row => r = .ok (toEscrowRecord row)
  | .failed => ∃ e, r = .error e
  | _ => False

end Creation

def creation (D : Deployment) (cacheKey vendor : String) : Monitor backend CreateEscrowDto Creation
    where
  init dto := ⟨dto, .fresh⟩
  next := Creation.next vendor
  ok := Creation.ok D vendor cacheKey
  ans _ _ _ := True

section programs

variable {D : Deployment} {key cacheKey vendor : String} {dto : CreateEscrowDto}

/-- What `createEscrow` leaves: an escrow that has still to be stored, or nothing. -/
def Creation.Left (dto : CreateEscrowDto) : Except Err EscrowRecord → Creation → Prop
  | .ok record, v => ∃ row, v = ⟨dto, .created row⟩ ∧ record = toEscrowRecord row
  | .error _, v => v = ⟨dto, .failed⟩

theorem creation_create {phase : CreationPhase} (hvalid : ¬ Invalid vendor dto)
    (hphase : phase = .ready ∨ (phase = .missed ∧ D.prisma = false)) :
    (EscrowRepository.create dto vendor).wp (creation D cacheKey vendor).protocol
      (Creation.Left dto) ⟨dto, phase⟩ := by
  unfold EscrowRepository.create
  rw [wp_bind]
  apply Monitor.wp_perform
  · show phase = .missed ∨ phase = .ready
    exact hphase.symm.imp_left fun h => h.1
  · intro r _
    cases r with
    | error e => exact rfl
    | ok id =>
      dsimp only
      rw [wp_bind]
      apply Monitor.wp_perform
      · exact ⟨rfl, rfl, hvalid, hphase⟩
      · intro r _
        cases r with
        | error e => exact rfl
        | ok row => exact ⟨row, rfl, rfl⟩

theorem creation_createEscrow :
    (createEscrow D dto vendor).wp (creation D cacheKey vendor).protocol (Creation.Left dto)
      ⟨dto, if Invalid vendor dto then .failed else .missed⟩ := by
  unfold createEscrow
  rw [wp_ite, wp_ite]
  refine ⟨fun hamount => ?_, fun hamount => ⟨fun hbuyer => ?_, fun hbuyer => ?_⟩⟩
  · rw [if_pos (show Invalid vendor dto from Or.inl hamount)]
    exact rfl
  · rw [if_pos (show Invalid vendor dto from Or.inr hbuyer)]
    exact rfl
  · have hvalid : ¬ Invalid vendor dto := fun h => h.elim hamount hbuyer
    rw [if_neg hvalid, EscrowRepository.findByVendorAndItem, wp_bind, wp_bind]
    apply Monitor.wp_perform
    · exact ⟨rfl, rfl, rfl⟩
    · intro r _
      match r with
      | .error e => exact rfl
      | .ok (some row) => exact rfl
      | .ok none =>
        show Prog.wp _ (do ensureVendorProfile D vendor; EscrowRepository.create dto vendor) _ _
        unfold ensureVendorProfile
        rw [wp_bind, wp_ite]
        constructor
        · intro hprisma
          apply Monitor.wp_perform
          · exact ⟨rfl, hprisma, rfl⟩
          · intro r _
            cases r with
            | error e => exact rfl
            | ok _ => exact creation_create hvalid (.inl rfl)
        · intro hprisma
          have hprisma : D.prisma = false := Bool.eq_false_iff.mpr hprisma
          exact creation_create hvalid (.inr ⟨rfl, hprisma⟩)

theorem creation_body (hcache : D.cache = true) (dto : CreateEscrowDto) :
    (createIdempotent D key dto vendor).wp
      (creation D (idempotencyCacheKey key vendor) vendor).protocol (Creation.Promised D dto)
      ((creation D (idempotencyCacheKey key vendor) vendor).init dto) := by
  unfold createIdempotent createIdempotentOf cachedResult
  dsimp only
  rw [if_pos hcache, wp_bind]
  apply Monitor.wp_perform
  · exact ⟨rfl, rfl⟩
  · intro r _
    match r with
    | .error e => exact ⟨e, rfl⟩
    -- an entry answers the request or refuses it, by the hash; nothing is created
    | .ok (some entry) =>
      apply wp_if
      · intro hdiffers
        have hdiffers : entry.requestHash ≠ hashRequestBody D dto := hdiffers
        show if _ then _ else _
        rw [if_neg hdiffers]
        exact ⟨_, rfl⟩
      · intro hsame
        have hsame : entry.requestHash = hashRequestBody D dto := Decidable.not_not.mp hsame
        show if _ then _ else _
        rw [if_pos hsame]
    | .ok none =>
      dsimp only
      refine wp_seq creation_createEscrow ?_ ?_
      · intro e v hleft
        rw [show v = ⟨dto, .failed⟩ from hleft]
        exact ⟨e, rfl⟩
      · rintro record v ⟨row, rfl, rfl⟩
        unfold rememberResult
        rw [if_pos hcache, wp_bind]
        apply Monitor.wp_perform
        · exact ⟨rfl, row, rfl, rfl⟩
        · intro r _
          cases r with
          | error e => exact ⟨e, rfl⟩
          | ok _ => exact rfl

end programs

/-! ## One call -/

/-- What an execution does in one call that succeeds: what it leaves, what it has reached, and what
it has created. -/
inductive CreationStep (D : Deployment) (vendor cacheKey : String) (w : World) (v : Creation) :
    World → CreationPhase → List (CreateEscrowDto × EscrowRow) → Prop
  | hit {entry : IdempotencyCacheEntry} (hphase : v.phase = .fresh)
      (hentry : w.cache.idempotency cacheKey = some entry) :
      CreationStep D vendor cacheKey w v w (.answered entry) []
  | miss (hphase : v.phase = .fresh) (hentry : w.cache.idempotency cacheKey = none) :
      CreationStep D vendor cacheKey w v w (if Invalid vendor v.dto then .failed else .missed) []
  | refused (hphase : v.phase = .missed ∨ v.phase = .ready)
      (hopeless : Hopeless D vendor w.db v.dto) : CreationStep D vendor cacheKey w v w .failed []
  | passed (hphase : v.phase = .missed ∨ v.phase = .ready) :
      CreationStep D vendor cacheKey w v w v.phase []
  | ensured {w' : World} (hphase : v.phase = .missed) (hcache : w'.cache = w.cache)
      (hgrows : Grows D vendor w.db w'.db) (hprofile : w'.db.vendorProfiles.get vendor ≠ none) :
      CreationStep D vendor cacheKey w v w' .ready []
  | created {w' : World} {row : EscrowRow} (hphase : v.phase = .missed ∨ v.phase = .ready)
      (hcan : ¬ Hopeless D vendor w.db v.dto) (hcache : w'.cache = w.cache)
      (hgrows : Grows D vendor w.db w'.db) :
      CreationStep D vendor cacheKey w v w' (.created row) [(v.dto, row)]
  | stored {w' : World} {row : EscrowRow} (hphase : v.phase = .created row) (hdb : w'.db = w.db)
      (hentry : w'.cache.idempotency cacheKey =
        some ⟨hashRequestBody D v.dto, toEscrowRecord row⟩) :
      CreationStep D vendor cacheKey w v w' (.stored row) []

section calls

variable {D : Deployment} {vendor cacheKey : String} {w : World} {v : Creation} {ch : Choice}

/-- What `findFirst` finds takes the item. -/
theorem taken_of_findFirst {now : Time} {fresh : String} {tie : String → Nat} {itemRef : String}
    {row : EscrowRow} {db : Db}
    (h : Db.exec now fresh tie (.escrowFindFirst vendor itemRef) db = (.ok (some row), db)) :
    Taken vendor itemRef db := by
  have hmem := List.mem_of_head? (Except.ok.inj (congrArg Prod.fst h))
  rw [List.mem_insertionSort, List.mem_filter] at hmem
  exact ⟨row, hmem.1, by simpa using hmem.2⟩

/-- The insert is refused for good, or there is a new escrow. -/
theorem creation_step_create {id : String} (hvalid : ¬ Invalid vendor v.dto)
    (hphase : v.phase = .ready ∨ (v.phase = .missed ∧ D.prisma = false))
    (hready : v.phase = .ready → w.db.vendorProfiles.get vendor ≠ none)
    (hfault : ch.fault (.escrowCreate id v.dto vendor) = none)
    (hfresh : w.db.escrows.get id = none) :
    CreationStep D vendor cacheKey w v (handle ch (.db (.escrowCreate id v.dto vendor)) w).2
      (v.next vendor _ (handle ch (.db (.escrowCreate id v.dto vendor)) w).1).phase
      (createdBy _ (handle ch (.db (.escrowCreate id v.dto vendor)) w).1) := by
  have hactive : v.phase = .missed ∨ v.phase = .ready := hphase.symm.imp_left fun h => h.1
  have hid : ¬ (w.db.escrows.get id).isSome = true := by
    rw [hfresh]
    exact Bool.false_ne_true
  by_cases htaken : Taken vendor v.dto.itemRef w.db
  · have hexec : Db.exec ch.now ch.uuid ch.tie (.escrowCreate id v.dto vendor) w.db =
        (.error .uniqueConstraint, w.db) := if_pos (.inr (taken_iff.mpr htaken))
    rw [handle_db_error hfault hexec]
    exact .refused hactive (.inr (.inl htaken))
  · have hfree : ¬ ((w.db.escrows.get id).isSome = true ∨ w.db.escrows.rows.any (fun r =>
        r.vendorAddress = vendor && r.itemRef = v.dto.itemRef) = true) :=
      fun h => h.elim hid fun h => htaken (taken_iff.mp h)
    cases hprofile : w.db.vendorProfiles.get vendor with
    | none =>
      have hexec : Db.exec ch.now ch.uuid ch.tie (.escrowCreate id v.dto vendor) w.db =
          (.error .foreignKey, w.db) := by
        simp only [Db.exec, Db.createEscrow, if_neg hfree, hprofile, Option.isNone_none, if_true]
      rw [handle_db_error hfault hexec]
      -- then the service has no database to add a profile to
      refine .refused hactive (.inr (.inr ⟨?_, hprofile⟩))
      rcases hphase with hphase | ⟨_, hprisma⟩
      · exact absurd hprofile (hready hphase)
      · exact hprisma
    | some profile =>
      have hexec : Db.exec ch.now ch.uuid ch.tie (.escrowCreate id v.dto vendor) w.db =
          (.ok (Db.newEscrow id v.dto vendor ch.now),
            w.db.putEscrow (Db.newEscrow id v.dto vendor ch.now)) := by
        simp only [Db.exec, Db.createEscrow, if_neg hfree, hprofile, Option.isNone_some,
          Bool.false_eq_true, if_false]
      rw [handle_db_ok hfault hexec]
      refine .created hactive ?_ rfl (grows_putEscrow hfresh)
      rintro (hinvalid | htaken' | ⟨_, hnone⟩)
      · exact hvalid hinvalid
      · exact htaken htaken'
      · rw [hprofile] at hnone
        cases hnone

/-- The profile is there, whoever has added it. -/
theorem grows_upsert {profile : VendorProfile} (db : Db) (hprisma : D.prisma = true) :
    let db' := if (db.vendorProfiles.get profile.address).isSome then db
      else { db with vendorProfiles := db.vendorProfiles.put profile }
    Grows D profile.address db db' ∧ db'.vendorProfiles.get profile.address ≠ none := by
  dsimp only
  split
  · next hsome => exact ⟨Grows.refl, Option.isSome_iff_ne_none.mp hsome⟩
  · next hnone =>
    have hput : (db.vendorProfiles.put profile).get profile.address = some profile :=
      db.vendorProfiles.get_put_self profile
    refine ⟨⟨fun _ h => h, ?_, ?_⟩, ?_⟩
    · intro h
      rw [hput] at h
      cases h
    · intro hfalse
      rw [hprisma] at hfalse
      cases hfalse
    · show (db.vendorProfiles.put profile).get profile.address ≠ none
      rw [hput]
      exact Option.some_ne_none _

theorem creation_step {c : Call} (hok : v.ok D vendor cacheKey c)
    (hsucceeds : CallSucceeds w ch c)
    (hready : v.phase = .ready → w.db.vendorProfiles.get vendor ≠ none) :
    CreationStep D vendor cacheKey w v (handle ch c w).2
      (v.next vendor c (handle ch c w).1).phase (createdBy c (handle ch c w).1) := by
  cases c with
  | randomUUID => exact .passed hok
  | cache c =>
    cases c with
    | getIdempotency cacheKey' =>
      obtain ⟨rfl, hphase⟩ := hok
      have hread : (handle ch (.cache (.getIdempotency cacheKey')) w).1 =
          .ok (w.cache.idempotency cacheKey') := by
        simp only [handle, Cache.handle, hsucceeds.1]
        rfl
      rw [hread]
      cases hentry : w.cache.idempotency cacheKey' with
      | some entry => exact .hit hphase hentry
      | none => exact .miss hphase hentry
    | setIdempotency cacheKey' entry =>
      obtain ⟨rfl, row, hphase, rfl⟩ := hok
      have hstored : (v.next vendor _ (handle ch (.cache (.setIdempotency cacheKey'
          ⟨hashRequestBody D v.dto, toEscrowRecord row⟩)) w).1).phase = .stored row := by
        simp only [handle, Creation.next, Creation.learn, hphase]
      rw [hstored]
      refine .stored hphase rfl ?_
      simp only [handle, Cache.handle, hsucceeds.2]
      exact Function.update_self _ _ _
    | _ => exact hok.elim
  | db c =>
    cases c with
    | escrowFindFirst vendor' itemRef =>
      obtain ⟨rfl, rfl, hphase⟩ := hok
      obtain ⟨found, hexec⟩ : ∃ found, Db.exec ch.now ch.uuid ch.tie
          (.escrowFindFirst vendor' v.dto.itemRef) w.db = (.ok found, w.db) := ⟨_, rfl⟩
      rw [handle_db_ok hsucceeds hexec]
      cases found with
      -- an item already listed refuses the body for good
      | some row =>
        exact .refused (.inl hphase) (.inr (.inl (taken_of_findFirst hexec)))
      | none => exact .passed (.inl hphase)
    | vendorProfileUpsert profile =>
      obtain ⟨rfl, hprisma, hphase⟩ := hok
      obtain ⟨hgrows, hprofile⟩ := grows_upsert w.db hprisma
      rw [handle_db_ok hsucceeds rfl]
      exact .ensured hphase rfl hgrows hprofile
    | escrowCreate id dto vendor' =>
      obtain ⟨rfl, rfl, hvalid, hphase⟩ := hok
      exact creation_step_create hvalid hphase hready hsucceeds.1 hsucceeds.2
    | _ => exact hok.elim
  | _ => exact hok.elim

end calls

end TrustLink
