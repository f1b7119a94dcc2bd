import TrustLink.Concurrency.Creation

/-!
# TrustLink — one escrow for one key

`createIdempotent` stores the escrow under its key when it has been created, and the lookup and the
store are not one step. Two executions of one key may therefore both miss: with two items there are
two escrows, and with one body the second execution is rejected as a duplicate although the escrow
was created from its body (`created_twice`).

`idempotent_creates_once` says that this is all: in every run in which the key is looked up only
while no other execution is under way (`OneAtATime`), and in which no two bodies share a hash, at
most one escrow is created, every execution with the hash of its body returns it, and every other
execution is rejected.

The invariant reads off each execution what it means for the key (`Fits`): whoever was rejected had
a hopeless body, so nothing is created from that body later, and whoever got an answer got the entry
that is there for good.
-/

namespace TrustLink

open Effects EscrowService

/-! ## What the phases mean for the key

An execution in a phase knows something about the key. One call changes that for its caller, and for
the others only while a single execution is active. -/

/-- The execution has found the key unused and has not settled. -/
def Creation.active (v : Creation) : Bool :=
  match v.phase with
  | .missed | .ready | .created _ => true
  | _ => false

/-- What an execution has reached agrees with the escrows that were created and with the cache. -/
def Fits (D : Deployment) (vendor cacheKey : String) (created : List (CreateEscrowDto × EscrowRow))
    (w : World) (v : Creation) : Prop :=
  match v.phase with
  | .fresh => True
  | .answered entry => w.cache.idempotency cacheKey = some entry
  | .missed => created = []
  | .ready => created = [] ∧ w.db.vendorProfiles.get vendor ≠ none
  | .created row => created = [(v.dto, row)] ∧ w.cache.idempotency cacheKey = none
  | .stored row => created = [(v.dto, row)] ∧
    w.cache.idempotency cacheKey = some ⟨hashRequestBody D v.dto, toEscrowRecord row⟩
  | .failed => (∀ c ∈ created, c.1 ≠ v.dto) ∧ (created = [] → Hopeless D vendor w.db v.dto)

section fits

variable {D : Deployment} {vendor cacheKey : String} {w w' : World} {v u : Creation}
  {created new : List (CreateEscrowDto × EscrowRow)} {phase : CreationPhase}

theorem Creation.next_dto (v : Creation) (c : Call) (r : Except Err c.Resp) :
    (v.next vendor c r).dto = v.dto := by
  cases r with
  | error e => rfl
  | ok a => rfl

/-- The first call is the lookup. -/
theorem Creation.lookup_of_fresh {c : Call} (hok : v.ok D vendor cacheKey c)
    (hphase : v.phase = .fresh) : c = .cache (.getIdempotency cacheKey) := by
  cases c with
  | cache c =>
    cases c with
    | getIdempotency cacheKey' => rw [hok.1]
    | setIdempotency cacheKey' entry =>
      obtain ⟨_, row, hcreated, _⟩ := hok
      rw [hphase] at hcreated
      cases hcreated
    | _ => exact hok.elim
  | db c =>
    cases c with
    | escrowFindFirst vendor' itemRef =>
      have hmissed := hok.2.2
      rw [hphase] at hmissed
      cases hmissed
    | vendorProfileUpsert profile =>
      have hmissed := hok.2.2
      rw [hphase] at hmissed
      cases hmissed
    | escrowCreate id dto vendor' =>
      have hready := hok.2.2.2
      rw [hphase] at hready
      rcases hready with hready | ⟨hready, _⟩ <;> cases hready
    | _ => exact hok.elim
  | randomUUID =>
    have hready : v.phase = .missed ∨ v.phase = .ready := hok
    rw [hphase] at hready
    rcases hready with hready | hready <;> cases hready
  | _ => exact hok.elim

theorem created_nil (h : Fits D vendor cacheKey created w v)
    (hphase : v.phase = .missed ∨ v.phase = .ready) : created = [] := by
  unfold Fits at h
  rcases hphase with hphase | hphase
  · rw [hphase] at h
    exact h
  · rw [hphase] at h
    exact h.1

theorem Creation.active_of_phase (hphase : v.phase = .missed ∨ v.phase = .ready) :
    v.active = true := by
  unfold active
  rcases hphase with hphase | hphase <;> rw [hphase]

/-- The one that makes the call. -/
theorem fits_mover (hstep : CreationStep D vendor cacheKey w v w' phase new)
    (h : Fits D vendor cacheKey created w v)
    (hmiss : v.phase = .fresh → w.cache.idempotency cacheKey = none → created = [])
    (hunused : created = [] → w.cache.idempotency cacheKey = none) :
    Fits D vendor cacheKey (created ++ new) w' ⟨v.dto, phase⟩ := by
  cases hstep with
  | hit hphase hentry => exact hentry
  -- a miss means that nothing was created; an invalid body will be refused
  | miss hphase hentry =>
    rw [hmiss hphase hentry]
    by_cases hinvalid : Invalid vendor v.dto
    · rw [if_pos hinvalid]
      exact ⟨fun _ h => (nomatch h), fun _ => .inl hinvalid⟩
    · rw [if_neg hinvalid]
      exact rfl
  | refused hphase hopeless =>
    rw [created_nil h hphase]
    exact ⟨fun _ h => (nomatch h), fun _ => hopeless⟩
  | passed hphase =>
    rw [List.append_nil]
    exact h
  | ensured hphase hcache hgrows hprofile =>
    rw [created_nil h (.inl hphase)]
    exact ⟨rfl, hprofile⟩
  | created hphase hcan hcache hgrows =>
    have hnil := created_nil h hphase
    refine ⟨?_, ?_⟩
    · rw [hnil, List.nil_append]
    · rw [hcache]
      exact hunused hnil
  | stored hphase hdb hentry =>
    unfold Fits at h
    rw [hphase] at h
    exact ⟨by rw [List.append_nil]; exact h.1, hentry⟩

/-- Everybody else, provided that only one execution is active. -/
theorem fits_other (hstep : CreationStep D vendor cacheKey w v w' phase new)
    (hmover : Fits D vendor cacheKey created w v) (h : Fits D vendor cacheKey created w u)
    (halone : v.active = true → u.active = false) :
    Fits D vendor cacheKey (created ++ new) w' u := by
  obtain ⟨dto, phase⟩ := u
  cases hstep with
  | hit hphase hentry => rw [List.append_nil]; exact h
  | miss hphase hentry => rw [List.append_nil]; exact h
  | refused hphase hopeless => rw [List.append_nil]; exact h
  | passed hphase => rw [List.append_nil]; exact h
  | ensured hphase hcache hgrows hprofile =>
    rw [List.append_nil]
    cases phase with
    | fresh => trivial
    | missed => exact h
    | ready => exact ⟨h.1, hprofile⟩
    | failed => exact ⟨h.1, fun hnil => hgrows.hopeless (h.2 hnil)⟩
    | answered entry =>
      show w'.cache.idempotency cacheKey = _
      rw [hcache]
      exact h
    | created row =>
      show _ ∧ w'.cache.idempotency cacheKey = _
      rw [hcache]
      exact h
    | stored row =>
      show _ ∧ w'.cache.idempotency cacheKey = _
      rw [hcache]
      exact h
  | created hphase hcan hcache hgrows =>
    have hinactive := halone (Creation.active_of_phase hphase)
    have hnil := created_nil hmover hphase
    cases phase with
    | fresh => trivial
    | missed => cases hinactive
    | ready => cases hinactive
    | created row => cases hinactive
    | stored row =>
      have hone := h.1
      rw [hnil] at hone
      cases hone
    | answered entry =>
      show w'.cache.idempotency cacheKey = _
      rw [hcache]
      exact h
    | failed =>
      -- no escrow could be created from that body, and now one was created from another
      have hopeless : Hopeless D vendor w.db dto := h.2 hnil
      rw [hnil, List.nil_append]
      refine ⟨?_, nofun⟩
      intro c hc hsame
      rw [List.mem_singleton.mp hc] at hsame
      have hsame : v.dto = dto := hsame
      rw [← hsame] at hopeless
      exact hcan hopeless
  | stored hphase hdb hentry =>
    rw [List.append_nil]
    have hinactive : (⟨dto, phase⟩ : Creation).active = false := by
      apply halone
      unfold Creation.active
      rw [hphase]
    have hnone : w.cache.idempotency cacheKey = none := by
      unfold Fits at hmover
      rw [hphase] at hmover
      exact hmover.2
    cases phase with
    | fresh => trivial
    | missed => cases hinactive
    | ready => cases hinactive
    | created row => cases hinactive
    | answered entry =>
      have hsome : w.cache.idempotency cacheKey = some entry := h
      rw [hnone] at hsome
      cases hsome
    | stored row =>
      have hsome := h.2
      rw [hnone] at hsome
      cases hsome
    | failed =>
      refine ⟨h.1, fun hnil => ?_⟩
      rw [hdb]
      exact h.2 hnil

/-- Whoever is active after a call was so before, or has looked the key up. -/
theorem active_before (hstep : CreationStep D vendor cacheKey w v w' phase new)
    (hactive : (⟨v.dto, phase⟩ : Creation).active = true) : v.active = true ∨ v.phase = .fresh := by
  cases hstep with
  | hit hphase hentry => exact .inr hphase
  | miss hphase hentry => exact .inr hphase
  | refused hphase hopeless => exact .inl (Creation.active_of_phase hphase)
  | passed hphase => exact .inl hactive
  | ensured hphase hcache hgrows hprofile =>
    exact .inl (Creation.active_of_phase (.inl hphase))
  | created hphase hcan hcache hgrows => exact .inl (Creation.active_of_phase hphase)
  | stored hphase hdb hentry => cases hactive

/-- What is created is created from the body of the request. -/
theorem dto_of_created (hstep : CreationStep D vendor cacheKey w v w' phase new)
    {c : CreateEscrowDto × EscrowRow} (hc : c ∈ new) : c.1 = v.dto := by
  cases hstep with
  | created hphase hcan hcache hgrows => rw [List.mem_singleton.mp hc]
  | _ => cases hc

/-- The key is unused, an escrow has been created and not yet stored (`pending`), or it is
stored. -/
def KeyUse (D : Deployment) (cacheKey : String) (pending : CreateEscrowDto → EscrowRow → Prop)
    (created : List (CreateEscrowDto × EscrowRow)) (w : World) : Prop :=
  (created = [] ∧ w.cache.idempotency cacheKey = none) ∨
    ∃ dto row, created = [(dto, row)] ∧
      ((w.cache.idempotency cacheKey = none ∧ pending dto row) ∨
        w.cache.idempotency cacheKey = some ⟨hashRequestBody D dto, toEscrowRecord row⟩)

variable {pending pending' : CreateEscrowDto → EscrowRow → Prop}

theorem KeyUse.unused (h : KeyUse D cacheKey pending created w) (hnil : created = []) :
    w.cache.idempotency cacheKey = none := by
  rcases h with ⟨_, hnone⟩ | ⟨dto, row, hone, _⟩
  · exact hnone
  · rw [hnil] at hone
    cases hone

theorem KeyUse.nothing_created (h : KeyUse D cacheKey pending created w)
    (hnobody : ∀ dto row, ¬ pending dto row) (hnone : w.cache.idempotency cacheKey = none) :
    created = [] := by
  rcases h with ⟨hnil, _⟩ | ⟨dto, row, _, ⟨_, hpending⟩ | hsome⟩
  · exact hnil
  · exact absurd hpending (hnobody dto row)
  · rw [hnone] at hsome
    cases hsome

theorem keyUse_step (hstep : CreationStep D vendor cacheKey w v w' phase new)
    (hmover : Fits D vendor cacheKey created w v) (h : KeyUse D cacheKey pending created w)
    (hnobody : v.phase = .fresh → ∀ dto row, ¬ pending dto row)
    (hpending : ∀ row, phase = .created row → pending' v.dto row) :
    KeyUse D cacheKey pending' (created ++ new) w' := by
  -- before an escrow is created, the key is unused
  have hbefore : v.phase = .missed ∨ v.phase = .ready → w'.cache = w.cache →
      KeyUse D cacheKey pending' (created ++ []) w' := by
    intro hphase hcache
    have hnil := created_nil hmover hphase
    rw [hnil, List.append_nil]
    refine .inl ⟨rfl, ?_⟩
    rw [hcache]
    exact h.unused hnil
  -- and a lookup changes nothing
  have hlookup : v.phase = .fresh → KeyUse D cacheKey pending' (created ++ []) w := by
    intro hphase
    rw [List.append_nil]
    rcases h with hunused | ⟨dto, row, hone, ⟨_, hsomebody⟩ | hstored⟩
    · exact .inl hunused
    · exact absurd hsomebody (hnobody hphase dto row)
    · exact .inr ⟨dto, row, hone, .inr hstored⟩
  cases hstep with
  | hit hphase hentry => exact hlookup hphase
  | miss hphase hentry => exact hlookup hphase
  | refused hphase hopeless => exact hbefore hphase rfl
  | passed hphase => exact hbefore hphase rfl
  | ensured hphase hcache hgrows hprofile => exact hbefore (.inl hphase) hcache
  | @created _ row hphase hcan hcache hgrows =>
    have hnil := created_nil hmover hphase
    refine .inr ⟨v.dto, row, ?_, .inl ⟨?_, hpending row rfl⟩⟩
    · rw [hnil, List.nil_append]
    · rw [hcache]
      exact h.unused hnil
  | @stored _ row hphase hdb hentry =>
    unfold Fits at hmover
    rw [hphase] at hmover
    rw [List.append_nil]
    exact .inr ⟨v.dto, row, hmover.1, .inr hentry⟩

/-- What an execution has returned, if equal hashes are equal bodies. -/
theorem answer_of_fits {r : Except Err EscrowRecord} (hpromised : Creation.Promised D v.dto r v)
    (hfits : Fits D vendor cacheKey created w v) (hused : KeyUse D cacheKey pending created w)
    (hhash : ∀ c ∈ created, hashRequestBody D v.dto = hashRequestBody D c.1 → v.dto = c.1) :
    (∀ c ∈ created, hashRequestBody D v.dto = hashRequestBody D c.1 →
      r = .ok (toEscrowRecord c.2)) ∧
    ((∀ c ∈ created, hashRequestBody D v.dto ≠ hashRequestBody D c.1) → ∃ e, r = .error e) := by
  obtain ⟨dto, phase⟩ := v
  cases phase with
  | fresh => exact hpromised.elim
  | missed => exact hpromised.elim
  | ready => exact hpromised.elim
  | created row => exact hpromised.elim
  | stored row =>
    have hok : r = .ok (toEscrowRecord row) := hpromised
    rw [hfits.1]
    constructor
    · intro c hc _
      rw [List.mem_singleton.mp hc]
      exact hok
    · intro hdiffers
      have hself := hdiffers (dto, row) (List.mem_singleton_self _)
      exact (hself rfl).elim
  | failed =>
    refine ⟨?_, fun _ => hpromised⟩
    intro c hc hsame
    -- nothing was created from this body
    exact absurd (hhash c hc hsame).symm (hfits.1 c hc)
  | answered entry =>
    have hentry : w.cache.idempotency cacheKey = some entry := hfits
    -- the entry is that of the escrow that was created
    rcases hused with ⟨_, hnone⟩ | ⟨dto', row, hone, ⟨hnone, _⟩ | hstored⟩
    · rw [hentry] at hnone
      cases hnone
    · rw [hentry] at hnone
      cases hnone
    · rw [hentry] at hstored
      obtain rfl := Option.some.inj hstored
      have hanswer : if hashRequestBody D dto' = hashRequestBody D dto then
          r = .ok (toEscrowRecord row) else ∃ e, r = .error e := hpromised
      rw [hone]
      constructor
      · intro c hc hsame
        rw [List.mem_singleton.mp hc] at hsame ⊢
        rw [if_pos hsame.symm] at hanswer
        exact hanswer
      · intro hdiffers
        rw [if_neg (hdiffers _ (List.mem_singleton_self _)).symm] at hanswer
        exact hanswer

end fits

/-! ## Whole runs

The invariant is what every execution knows and how the key is used. It is kept by spawns and calls,
and so along a run. -/

/-- The escrows `created` in a run and the pool it has led to. -/
structure KeyInvariant (D : Deployment) (vendor cacheKey : String)
    (created : List (CreateEscrowDto × EscrowRow)) (P : Creations) : Prop where
  fits : ∀ t ∈ P.threads,
    Fits D vendor cacheKey created P.state ((creation D cacheKey vendor).view t)
  alone : ∀ (i j : Nat) t t', P.threads[i]? = some t → P.threads[j]? = some t' →
    ((creation D cacheKey vendor).view t).active = true →
    ((creation D cacheKey vendor).view t').active = true → i = j
  used : KeyUse D cacheKey (fun dto row => ∃ t ∈ P.threads,
    (creation D cacheKey vendor).view t = ⟨dto, .created row⟩) created P.state
  asked : ∀ c ∈ created, ∃ t ∈ P.threads, t.label = c.1

section runs

variable {D : Deployment} {key vendor cacheKey : String} {P : Creations}
  {created : List (CreateEscrowDto × EscrowRow)}

theorem creation_view_dto (D : Deployment) (vendor cacheKey : String)
    (t : Thread backend CreateEscrowDto) :
    ((creation D cacheKey vendor).view t).dto = t.label := by
  obtain ⟨label, past, rest⟩ := t
  induction past with
  | nil => rfl
  | cons e past ih =>
    rw [Monitor.view_cons (q := rest)]
    exact (Creation.next_dto _ _ _).trans ih

/-- An execution that is active waits for a call, and has made one. -/
theorem underWay_of_active {body : CreateEscrowDto → App EscrowRecord}
    (hreturns : (creation D cacheKey vendor).Returns body (Creation.Promised D) P)
    {t : Thread backend CreateEscrowDto} (ht : t ∈ P.threads)
    (hactive : ((creation D cacheKey vendor).view t).active = true) : underWay t = true := by
  have hpast : t.past.isEmpty = false := by
    cases hpast : t.past with
    | cons e past => rfl
    | nil =>
      obtain ⟨label, past, rest⟩ := t
      cases hpast
      cases hactive
  have hcall : t.inFlight.isSome = true := by
    cases hidle : t.inFlight with
    | some c => rfl
    | none =>
      obtain ⟨r, _, hr⟩ := hreturns.idle ht hidle
      unfold Creation.Promised at hr
      unfold Creation.active at hactive
      -- an active execution has promised nothing it could have returned
      cases hphase : ((creation D cacheKey vendor).view t).phase with
      | missed => rw [hphase] at hr; exact hr.elim
      | ready => rw [hphase] at hr; exact hr.elim
      | created row => rw [hphase] at hr; exact hr.elim
      | _ => rw [hphase] at hactive; cases hactive
  unfold underWay
  rw [hpast, hcall]
  rfl

theorem keyInvariant_nil {w : World} (h : w.cache.idempotency cacheKey = none) :
    KeyInvariant D vendor cacheKey [] ⟨w, []⟩ where
  fits := fun _ h => nomatch h
  alone := fun _ _ _ _ h => nomatch h
  used := Or.inl ⟨rfl, h⟩
  asked := fun _ h => nomatch h

theorem keyInvariant_spawn (h : KeyInvariant D vendor cacheKey created P)
    (prog : CreateEscrowDto → App Unit) (dto : CreateEscrowDto) :
    KeyInvariant D vendor cacheKey created
      { P with threads := P.threads ++ [⟨dto, [], prog dto⟩] } where
  fits := by
    intro t ht
    rcases Pool.mem_spawn ht with hold | rfl
    · exact h.fits t hold
    · trivial
  alone := by
    intro i j t t' hi hj hactive hactive'
    rcases Pool.spawn_threads_cases hi with hi | ⟨_, rfl⟩
    · rcases Pool.spawn_threads_cases hj with hj | ⟨_, rfl⟩
      · exact h.alone i j t t' hi hj hactive hactive'
      · cases hactive'
    · cases hactive
  used := by
    rcases h.used with hunused | ⟨dto, row, hone, ⟨hnone, t, ht, hview⟩ | hstored⟩
    · exact .inl hunused
    · exact .inr ⟨dto, row, hone, .inl ⟨hnone, t, List.mem_append_left _ ht, hview⟩⟩
    · exact .inr ⟨dto, row, hone, .inr hstored⟩
  asked := by
    intro c hc
    obtain ⟨t, ht, hlabel⟩ := h.asked c hc
    exact ⟨t, List.mem_append_left _ ht, hlabel⟩

theorem keyInvariant_advance (h : KeyInvariant D vendor cacheKey created P) {i : Nat} {ch : Choice}
    {t : Thread backend CreateEscrowDto} {c : Call} {k : Except Err c.Resp → App Unit}
    (hsucceeds : CallSucceeds P.state ch c)
    (hnobody : c = .cache (.getIdempotency cacheKey) → ∀ t ∈ P.threads,
      ((creation D cacheKey vendor).view t).active = false)
    (ht : P.threads[i]? = some t)
    (hok : ((creation D cacheKey vendor).view t).ok D vendor cacheKey c) :
    KeyInvariant D vendor cacheKey (created ++ createdBy c (handle ch c P.state).1)
      (P.advance i t c k ch) := by
  have hfits := h.fits t (List.mem_of_getElem? ht)
  have hready : ((creation D cacheKey vendor).view t).phase = .ready →
      P.state.db.vendorProfiles.get vendor ≠ none := by
    intro hphase
    unfold Fits at hfits
    rw [hphase] at hfits
    exact hfits.2
  have hstep := creation_step hok hsucceeds hready
  have hview : ∀ p, (creation D cacheKey vendor).view
      ⟨t.label, ⟨c, (handle ch c P.state).1⟩ :: t.past, p⟩ =
        ⟨((creation D cacheKey vendor).view t).dto,
          (((creation D cacheKey vendor).view t).next vendor c (handle ch c P.state).1).phase⟩ :=
    fun _ => congrArg (Creation.mk · _) (Creation.next_dto _ c _)
  -- at a lookup nobody is active
  have hfirst : ((creation D cacheKey vendor).view t).phase = .fresh → ∀ t ∈ P.threads,
      ((creation D cacheKey vendor).view t).active = false :=
    fun hphase => hnobody (Creation.lookup_of_fresh hok hphase)
  have hnone : ((creation D cacheKey vendor).view t).phase = .fresh → ∀ dto row,
      ¬ ∃ t ∈ P.threads, (creation D cacheKey vendor).view t = ⟨dto, .created row⟩ := by
    rintro hphase dto row ⟨t', ht', hcreated⟩
    have hinactive := hfirst hphase t' ht'
    rw [hcreated] at hinactive
    cases hinactive
  -- and at any other call the mover is
  have halone : ∀ j t', j ≠ i → P.threads[j]? = some t' →
      ((creation D cacheKey vendor).view t).active = true →
      ((creation D cacheKey vendor).view t').active = false := by
    intro j t' hne hj hactive
    cases hother : ((creation D cacheKey vendor).view t').active with
    | false => rfl
    | true => exact absurd (h.alone j i t' t hj ht hother hactive) hne
  have halone' : ∀ j t', j ≠ i → P.threads[j]? = some t' → ∀ p, ((creation D cacheKey vendor).view
      ⟨t.label, ⟨c, (handle ch c P.state).1⟩ :: t.past, p⟩).active = true →
      ((creation D cacheKey vendor).view t').active = false := by
    intro j t' hne hj p hactive
    rw [hview] at hactive
    rcases active_before hstep hactive with hbefore | hphase
    · exact halone j t' hne hj hbefore
    · exact hfirst hphase t' (List.mem_of_getElem? hj)
  constructor
  · intro t' ht'
    obtain ⟨j, hj⟩ := List.mem_iff_getElem?.mp ht'
    rcases Pool.advance_threads_cases hj with ⟨_, rfl⟩ | ⟨hne, hold⟩
    · rw [hview]
      exact fits_mover hstep hfits (fun hphase => h.used.nothing_created (hnone hphase))
        h.used.unused
    · exact fits_other hstep hfits (h.fits t' (List.mem_of_getElem? hold)) (halone j t' hne hold)
  · intro j j' u u' hj hj' hactive hactive'
    rcases Pool.advance_threads_cases hj with ⟨rfl, rfl⟩ | ⟨hne, hold⟩ <;>
      rcases Pool.advance_threads_cases hj' with ⟨rfl, rfl⟩ | ⟨hne', hold'⟩
    · rfl
    · rw [halone' j' u' hne' hold' _ hactive] at hactive'
      cases hactive'
    · rw [halone' j u hne hold _ hactive'] at hactive
      cases hactive
    · exact h.alone j j' u u' hold hold' hactive hactive'
  · refine keyUse_step hstep hfits h.used hnone ?_
    intro row hphase
    refine ⟨_, Pool.mover_mem ht, ?_⟩
    rw [hview, hphase]
  · intro x hx
    rcases List.mem_append.mp hx with hold | hnew
    · exact Pool.exists_advance ht id (h.asked x hold)
    · refine ⟨_, Pool.mover_mem ht, ?_⟩
      exact ((dto_of_created hstep hnew).trans (creation_view_dto D vendor cacheKey t)).symm

/-- A move that does nothing creates nothing. -/
theorem creations_idle {prog : CreateEscrowDto → App Unit} {mv : Move world CreateEscrowDto}
    (h : Pool.next prog P mv = P) : creations P mv = [] := by
  cases mv with
  | spawn dto => rfl
  | step i ch =>
    simp only [creations]
    split
    · rfl
    · next t ht =>
      split
      · rfl
      · next c k hr => exact absurd h (Pool.next_ne ht hr)

/-- The invariant holds along every admissible run. -/
theorem keyInvariant_run (hcache : D.cache = true) {w : World}
    (hunused : w.cache.idempotency (idempotencyCacheKey key vendor) = none)
    {ms : List (Move world CreateEscrowDto)}
    (hadm : Pool.Admissible (fun dto => (createIdempotent D key dto vendor).void)
      (fun P m => AllSucceed P m ∧ OneAtATime (idempotencyCacheKey key vendor) P m) ⟨w, []⟩ ms) :
    (creation D (idempotencyCacheKey key vendor) vendor).Returns
        (fun dto => createIdempotent D key dto vendor) (Creation.Promised D)
        (creationRun D key vendor w ms) ∧
      KeyInvariant D vendor (idempotencyCacheKey key vendor) (createdIn D key vendor w ms)
        (creationRun D key vendor w ms) := by
  have hrun := (creation D (idempotencyCacheKey key vendor) vendor).run_returns (M := world)
    (fun dto => createIdempotent D key dto vendor) (Creation.Promised D) creations
    (I := KeyInvariant D vendor (idempotencyCacheKey key vendor)) (creation_body hcache) ?_ ?_ ?_ ms
    ⟨w, []⟩ [] hadm (Monitor.returns_nil (M := world) w) (keyInvariant_nil hunused)
  · exact hrun
  · intro P mv seen hsame h
    rw [creations_idle hsame, List.append_nil]
    exact h
  · intro P dto seen _ h
    rw [show creations P (.spawn dto) = [] from rfl, List.append_nil]
    exact keyInvariant_spawn h (fun dto => (createIdempotent D key dto vendor).void) dto
  · intro P i ch t c k seen hK h hreturns ht hr hok
    refine ⟨trivial, ?_⟩
    have hcall : (P.threads[i]?).bind Thread.inFlight = some c := by
      rw [ht]
      exact Thread.inFlight_of_rest hr
    have hnew : creations P (.step i ch) = createdBy c (handle ch c P.state).1 := by
      simp only [creations, ht, hr]
    rw [hnew]
    refine keyInvariant_advance h (hK.1 c hcall) ?_ ht hok
    rintro rfl t' ht'
    -- whoever is active is under way
    cases hactive : ((creation D (idempotencyCacheKey key vendor) vendor).view t').active with
    | false => rfl
    | true =>
      have hunder := underWay_of_active hreturns ht' hactive
      rw [hK.2 hcall t' ht'] at hunder
      cases hunder

/-- At most one escrow is created; every execution with the hash of its body returns it, and every
other execution is rejected. -/
theorem idempotent_creates_once (hcache : D.cache = true) (w : World)
    (hunused : w.cache.idempotency (idempotencyCacheKey key vendor) = none)
    (ms : List (Move world CreateEscrowDto))
    (hadm : Pool.Admissible (fun dto => (createIdempotent D key dto vendor).void)
      (fun P m => AllSucceed P m ∧ OneAtATime (idempotencyCacheKey key vendor) P m) ⟨w, []⟩ ms)
    (hhash : ∀ t ∈ (creationRun D key vendor w ms).threads,
      ∀ t' ∈ (creationRun D key vendor w ms).threads,
        hashRequestBody D t.label = hashRequestBody D t'.label → t.label = t'.label) :
    (createdIn D key vendor w ms).length ≤ 1 ∧
    ∀ t ∈ (creationRun D key vendor w ms).threads, t.inFlight = none →
      ∃ r, t.returned (createIdempotent D key t.label vendor) = some r ∧
        (∀ c ∈ createdIn D key vendor w ms,
          hashRequestBody D t.label = hashRequestBody D c.1 → r = .ok (toEscrowRecord c.2)) ∧
        ((∀ c ∈ createdIn D key vendor w ms,
          hashRequestBody D t.label ≠ hashRequestBody D c.1) → ∃ e, r = .error e) := by
  obtain ⟨hreturns, hkey⟩ := keyInvariant_run hcache hunused hadm
  refine ⟨?_, ?_⟩
  · rcases hkey.used with ⟨hnil, _⟩ | ⟨dto, row, hone, _⟩
    · rw [hnil]
      exact Nat.zero_le 1
    · rw [hone]
      exact Nat.le_refl 1
  · intro t ht hidle
    obtain ⟨r, hr, hpromised⟩ := hreturns.idle ht hidle
    refine ⟨r, hr, ?_⟩
    have hdto := creation_view_dto D vendor (idempotencyCacheKey key vendor) t
    have hanswer := answer_of_fits (by rw [hdto]; exact hpromised) (hkey.fits t ht) hkey.used ?_
    · rw [hdto] at hanswer
      exact hanswer
    -- the created escrow came from one of the threads, and equal hashes are equal bodies
    · intro c hc hsame
      obtain ⟨t', ht', hlabel⟩ := hkey.asked c hc
      rw [← hlabel, hdto] at hsame ⊢
      exact hhash t ht t' ht' hsame

end runs

/-- A request for the lamp of `Db.lampEscrow`. -/
def lampRequest : CreateEscrowDto where
  itemName := "lamp"
  itemRef := "lamp-1"
  amount := ⟨1⟩
  currency := "USDC"
  buyerAddress := "buyer"

/-- A request, a retry, and the key used again with another body. -/
theorem lamp_created_once :
    let ms := [.spawn lampRequest, .step 0 .calm, .step 0 .calm, .step 0 .calm, .step 0 .calm,
      .step 0 .calm, .step 0 .calm, .spawn lampRequest, .step 1 .calm,
      .spawn { lampRequest with itemRef := "lamp-2" }, .step 2 .calm]
    let created := createdIn .cached "key" "vendor" (World.ofEscrows []) ms
    created.length = 1 ∧ created.length ≤ 1 ∧
    ∀ t ∈ (creationRun .cached "key" "vendor" (World.ofEscrows []) ms).threads, t.inFlight = none →
      ∃ r, t.returned (createIdempotent .cached "key" t.label "vendor") = some r ∧
        (∀ c ∈ created, hashRequestBody .cached t.label = hashRequestBody .cached c.1 →
          r = .ok (toEscrowRecord c.2)) ∧
        ((∀ c ∈ created, hashRequestBody .cached t.label ≠ hashRequestBody .cached c.1) →
          ∃ e, r = .error e) := by
  refine ⟨by decide +kernel, idempotent_creates_once rfl _ rfl _ ?_ ?_⟩
  · decide +kernel
  · decide +kernel

/-- Two executions look the key up before either of them has stored anything. -/
def racingLookups (dto : CreateEscrowDto) : List (Move world CreateEscrowDto) :=
  [.spawn lampRequest, .spawn dto, .step 0 .calm, .step 1 .calm,
    .step 0 .calm, .step 0 .calm, .step 0 .calm, .step 0 .calm, .step 0 .calm,
    .step 1 .calm, .step 1 .calm, .step 1 { Choice.calm with uuid := "other" }, .step 1 .calm,
    .step 1 .calm]

/-- With two items there are two escrows under one key; with one body the second execution is
rejected, although the escrow was created from that body. -/
theorem created_twice :
    let prog := fun dto => (createIdempotent .cached "key" dto "vendor").void
    let otherItem := racingLookups { lampRequest with itemRef := "lamp-2" }
    let sameBody := racingLookups lampRequest
    Pool.Admissible prog AllSucceed ⟨World.ofEscrows [], []⟩ otherItem ∧
    (createdIn .cached "key" "vendor" (World.ofEscrows []) otherItem).length = 2 ∧
    Pool.Admissible prog AllSucceed ⟨World.ofEscrows [], []⟩ sameBody ∧
    (createdIn .cached "key" "vendor" (World.ofEscrows []) sameBody).map Prod.fst = [lampRequest] ∧
    ((creationRun .cached "key" "vendor" (World.ofEscrows []) sameBody).threads[1]?).bind
        (Thread.returned · (createIdempotent .cached "key" lampRequest "vendor")) =
      some (.error (.conflict "Duplicate escrow for this item reference")) := by
  decide +kernel

end TrustLink
