import TrustLink.Model.Frame
import TrustLink.Concurrency.Discipline

/-!
# TrustLink — terminal states under interleaving

Every writer of `Escrow.state` checks a record it has read and then updates by id, so a terminal
state survives exactly as long as nobody turns an escrow terminal between another execution's
read and that execution's write. `cancel_overwrites_completed` is the race; `terminal_absorbing`
says that it is the only one: in a run in which no call makes an escrow terminal while another
execution has read it non-terminal and may still write its state, a terminal state is final.

The instance of the check-then-act rule (`Effects/Reliance.lean`) is: the fact is "this escrow
is not terminal", it is read by `findUnique`, by a cache hit or by `findByVendor`, and it
justifies the writes of `state`.
-/

namespace TrustLink

open Effects

/-- The escrow exists and is not in a terminal state. -/
def NonTerminal (id : String) (w : World) : Prop :=
  ∃ row, w.db.escrows.get id = some row ∧ row.state ∉ TERMINAL_STATES

/-- The call writes the state of the escrow. -/
def WritesState (id : String) (c : Call) : Prop :=
  ∃ data, c = .db (.escrowUpdate id data) ∧ data.state.isSome

theorem not_writesState {id : String} {c : Call} (hc : c.writesRows = false) :
    ¬ WritesState id c := by
  rintro ⟨data, rfl, _⟩
  cases hc

/-- A cached record of the escrow is the record of its row. -/
def CoherentAt (w : World) (id : String) : Prop :=
  ∀ record, w.cache.escrow id = some record →
    ∃ row, w.db.escrows.get id = some row ∧ toEscrowRecord row = record

/-- The call, if it reads the cache, reads a coherent entry. -/
def ReadsCoherently (w : World) (_ : Choice) (c : Call) : Prop :=
  ∀ id, c = .cache (.getEscrow id) → CoherentAt w id

/-- No call makes an escrow terminal while another execution has read it as non-terminal and may
still write its state; cached reads are coherent. -/
def NoTerminalRace : Backend → Move world Op → Prop :=
  session.Undisturbed Session.Live WritesState NonTerminal ReadsCoherently

/-! ## One call

Who is `Live` has read a state that was not terminal, and nothing but a write of the state changes
that. -/

theorem nonTerminal_handle {ch : Choice} {c : Call} {w : World} {id : String}
    (hquiet : ¬ WritesState id c) (h : NonTerminal id w) : NonTerminal id (handle ch c w).2 := by
  obtain ⟨row, hrow, hstate⟩ := h
  have hchange := handle_escrow ch w c id
  unfold NonTerminal
  generalize (handle ch c w).2.db.escrows.get id = after at hchange ⊢
  cases hchange with
  | same => exact ⟨row, hrow, hstate⟩
  | updated data row' hc hrow' =>
    obtain rfl : row = row' := Option.some.inj (hrow.symm.trans hrow')
    refine ⟨_, rfl, ?_⟩
    have hnone : data.state = none := by
      by_contra hsome
      exact hquiet ⟨data, hc, Option.isSome_iff_ne_none.mpr hsome⟩
    rw [EscrowRow.update_state, hnone]
    exact hstate
  | claimed t row' hc hrow' hfree =>
    obtain rfl : row = row' := Option.some.inj (hrow.symm.trans hrow')
    exact ⟨_, rfl, hstate⟩
  | created dto vendorAddress hc hnone =>
    rw [hrow] at hnone
    cases hnone

theorem live_saw {s : Session} {id id' : String} {escrow : EscrowFields}
    (h : (s.saw id' escrow).Live id) :
    ((id = id' ∨ id = escrow.id) ∧ escrow.state ∉ TERMINAL_STATES) ∨ s.Live id := by
  obtain ⟨state, hstate, hseen⟩ := h
  rcases List.mem_cons.mp hseen with heq | hseen
  · cases heq
    exact .inl ⟨.inl rfl, hstate⟩
  · rcases List.mem_cons.mp hseen with heq | hseen
    · cases heq
      exact .inl ⟨.inr rfl, hstate⟩
    · exact .inr ⟨state, hstate, hseen⟩

theorem Session.Live.of_seen {s s' : Session} {id : String} (h : s.Live id)
    (hseen : s.seen ⊆ s'.seen) : s'.Live id := by
  obtain ⟨state, hstate, hmem⟩ := h
  exact ⟨state, hstate, hseen hmem⟩

/-- A row that was answered to a read of `id'` is the row of `id'`, under either id. -/
theorem nonTerminal_of_saw {w : World} {s : Session} {id id' : String} {row : EscrowRow}
    (hrow : w.db.escrows.get id' = some row) (h : (s.saw id' row.toEscrowFields).Live id) :
    NonTerminal id w ∨ s.Live id := by
  rcases live_saw h with ⟨hid, hstate⟩ | hlive
  · have hid : id = id' := hid.elim (fun h => h) fun h => h.trans (get_id hrow)
    subst hid
    exact .inl ⟨row, hrow, hstate⟩
  · exact .inr hlive

/-- What an execution newly knows to be non-terminal, it has just read, and the read is right. -/
theorem live_next {v : Session} {ch : Choice} {c : Call} {w : World} {id : String}
    (hcoherent : ReadsCoherently w ch c) (h : (v.next c (handle ch c w).1).Live id) :
    (NonTerminal id w ∧ ¬ WritesState id c) ∨ v.Live id := by
  by_cases habout : Session.aboutState c
  · cases c with
    | cache c =>
      cases c with
      | getEscrow id' =>
        have hread : (handle ch (.cache (.getEscrow id')) w).1 =
            .ok (if ch.miss then none else w.cache.escrow id') := rfl
        rw [hread] at h
        cases hentry : (if ch.miss then none else w.cache.escrow id' : Option EscrowRecord) with
        | none => rw [hentry] at h; exact .inr h
        | some record =>
          rw [hentry] at h
          -- a hit shows the row as it is, since cached reads are coherent
          have hcached : w.cache.escrow id' = some record := by
            split at hentry
            · cases hentry
            · exact hentry
          obtain ⟨row, hrow, rfl⟩ := hcoherent id' rfl record hcached
          exact (nonTerminal_of_saw hrow h).imp_left fun h => ⟨h, not_writesState rfl⟩
      | _ => cases habout
    | db c =>
      cases c with
      | escrowFindUnique id' =>
        simp only [handle, handleDb, Db.exec] at h
        cases hfault : ch.fault (.escrowFindUnique id') with
        | some e => rw [hfault] at h; exact .inr h
        | none =>
          rw [hfault] at h
          cases hrow : w.db.escrows.get id' with
          | none => rw [hrow] at h; exact .inr h
          | some row =>
            rw [hrow] at h
            exact (nonTerminal_of_saw hrow h).imp_left fun h => ⟨h, not_writesState rfl⟩
      | escrowFindByVendor vendorAddress take =>
        simp only [handle, handleDb, Db.exec] at h
        cases hfault : ch.fault (.escrowFindByVendor vendorAddress take) with
        | some e => rw [hfault] at h; exact .inr h
        | none =>
          rw [hfault] at h
          obtain ⟨state, hstate, hseen⟩ := h
          rcases List.mem_append.mp hseen with hnew | hold
          · obtain ⟨row, hmem, heq⟩ := List.mem_map.mp hnew
            cases heq
            have hrow := (Db.mem_findByVendor hmem).1
            exact .inl ⟨⟨row, hrow, hstate⟩, not_writesState rfl⟩
          · exact .inr ⟨state, hstate, hold⟩
      -- a write of the state forgets what was seen of the escrow, and any other changes nothing
      | escrowUpdate id' data =>
        refine .inr ?_
        rcases handle_escrowUpdate ch w id' data with ⟨e, heq⟩ | ⟨_, row, _, heq⟩
        · rw [heq] at h; exact h
        · rw [heq] at h
          refine h.of_seen fun p hp => ?_
          simp only [Session.next, Session.written] at hp
          split at hp
          · exact List.mem_of_mem_filter hp
          · exact hp
      | _ => cases habout
    | _ => cases habout
  · refine .inr (h.of_seen ?_)
    rw [Session.next_seen v (Bool.eq_false_iff.mpr habout)]
    exact List.Subset.refl _

/-- After its own accepted write of the state, an execution knows nothing of the escrow. -/
theorem not_live_of_write {v : Session} {ch : Choice} {c : Call} {w : World} {id : String}
    (hwrite : WritesState id c) (h : (v.next c (handle ch c w).1).Live id) :
    (handle ch c w).2 = w := by
  obtain ⟨data, rfl, hsome⟩ := hwrite
  rcases handle_escrowUpdate ch w id data with ⟨e, heq⟩ | ⟨_, row, _, heq⟩
  · rw [heq]
  · rw [heq] at h
    obtain ⟨state, hstate, hseen⟩ := h
    simp only [Session.next, Session.written, hsome, if_true] at hseen
    exact absurd rfl (of_decide_eq_true (List.mem_filter.mp hseen).2)

theorem terminal_reads {v : Session} {c : Call} {w : World} {ch : Choice}
    (hcoherent : ReadsCoherently w ch c) {id : String}
    (h : (v.next c (handle ch c w).1).Live id) :
    NonTerminal id (handle ch c w).2 ∨
      (v.Live id ∧ (NonTerminal id w → NonTerminal id (handle ch c w).2)) := by
  rcases live_next hcoherent h with ⟨hnow, hquiet⟩ | hbefore
  · exact .inl (nonTerminal_handle hquiet hnow)
  · refine .inr ⟨hbefore, fun hw => ?_⟩
    by_cases hwrite : WritesState id c
    · rw [not_live_of_write hwrite h]
      exact hw
    · exact nonTerminal_handle hwrite hw

/-- A terminal state is not overwritten by a call whose justification is true. -/
theorem terminal_kept {v : Session} {c : Call} {w : World} {ch : Choice} {id : String}
    {state : EscrowState} (hterm : state ∈ TERMINAL_STATES) (hok : v.ok c)
    (htrue : v.Live id → WritesState id c → NonTerminal id w) (h : w.stateOf id = some state) :
    (handle ch c w).2.stateOf id = some state := by
  have hchange := handle_escrow ch w c id
  unfold World.stateOf at h ⊢
  generalize (handle ch c w).2.db.escrows.get id = after at hchange ⊢
  cases hchange with
  | same => exact h
  | updated data row hc hrow =>
    subst hc
    rw [hrow] at h
    have hstate : row.state = state := Option.some.inj h
    cases hdata : data.state with
    | none =>
      show some (data.state.getD row.state) = some state
      rw [hdata, Option.getD_none, hstate]
    | some after =>
      have hsome : data.state.isSome := by rw [hdata]; rfl
      obtain ⟨row', hrow', hlive⟩ := htrue (hok.1 hsome) ⟨data, rfl, hsome⟩
      rw [hrow] at hrow'
      rw [← Option.some.inj hrow', hstate] at hlive
      exact absurd hterm hlive
  | claimed t row hc hrow hfree =>
    rw [hrow] at h
    exact h
  | created dto vendorAddress hc hnone =>
    rw [hnone] at h
    cases h

/-! ## Whole runs -/

/-- The rule of `Effects/Reliance.lean` at this instance. -/
theorem terminal_run (D : Deployment) {J : World → Prop}
    (hJ : ∀ (v : Session) c w ch, v.ok c →
      (∀ id, v.Live id → WritesState id c → NonTerminal id w) → J w → J (handle ch c w).2)
    {ms : List (Move world Op)} {P : Backend}
    (hrun : Pool.Admissible (Op.prog D) NoTerminalRace P ms) (hobeyed : session.Obeyed P)
    (hI : session.Sound Session.Live WritesState NonTerminal P) (hP : J P.state) :
    session.Obeyed (Pool.run (Op.prog D) P ms) ∧
      session.Sound Session.Live WritesState NonTerminal (Pool.run (Op.prog D) P ms) ∧
      J (Pool.run (Op.prog D) P ms).state := by
  have hinit : ∀ op id, ¬ (Session.start op).Live id := by
    rintro op id ⟨state, _, hseen⟩
    rw [Session.start_seen] at hseen
    cases hseen
  exact Monitor.sound_run (M := world) (Session.accepts D) hinit
    (fun _ c w ch => session_answered c w ch)
    (fun v c w ch hcoherent _ id => terminal_reads hcoherent) hJ ms P hrun hobeyed ⟨hI, hP⟩

theorem terminal_absorbing (D : Deployment) (w : World) (ms ms' : List (Move world Op))
    (hrun : AlwaysMeets D NoTerminalRace w (ms ++ ms'))
    (id : String) (state : EscrowState) (hterm : state ∈ TERMINAL_STATES)
    (h : (interleave D w ms).state.stateOf id = some state) :
    (interleave D w (ms ++ ms')).state.stateOf id = some state := by
  obtain ⟨hbefore, hafter⟩ := Pool.admissible_append.mp hrun
  obtain ⟨hobeyed, hI, _⟩ := terminal_run D (J := fun _ => True) (fun _ _ _ _ _ _ _ => trivial)
    hbefore (session.obeyed_nil (M := world) w) (Monitor.sound_nil (M := world) w) trivial
  rw [interleave, Pool.run_append]
  exact (terminal_run D (fun v c w ch hok htrue => terminal_kept hterm hok (htrue id)) hafter
    hobeyed hI h).2.2

/-- Two operations in turn: the chain completes the escrow, then the vendor tries to cancel. -/
theorem terminal_absorbing_in_turn :
    (interleave .bare (World.ofEscrows [Db.lampEscrow .FUNDED])
      ([.spawn (.syncStateFromChain { eventType := .EscrowCompleted, escrowId := "e1" }),
          .step 0 .calm, .step 0 .calm, .step 0 .calm] ++
        [.spawn (.cancelEscrow "e1" "vendor" false), .step 1 .calm])).state.stateOf "e1"
      = some .COMPLETED := by
  have hcold : ∀ w : World, (∀ id, w.cache.escrow id = none) → ∀ c, ReadsCoherently w .calm c := by
    intro w hcold c id _ record hcached
    rw [hcold id] at hcached
    cases hcached
  have halone : ∀ (w : World) (t : Thread backend Op), (∀ id, w.cache.escrow id = none) →
      NoTerminalRace ⟨w, [t]⟩ (.step 0 .calm) := by
    intro w t hw
    refine Monitor.undisturbed_of_settled (M := world) (hcold w hw) ?_
    rintro (_ | j) t' hne ht
    · exact absurd rfl hne
    · cases ht
  refine terminal_absorbing .bare (World.ofEscrows [Db.lampEscrow .FUNDED]) _ _ ?_ "e1"
    .COMPLETED (by decide) (by decide)
  refine ⟨trivial, halone _ _ fun _ => rfl, halone _ _ fun _ => rfl, halone _ _ fun _ => rfl,
    trivial, ?_, trivial⟩
  refine Monitor.undisturbed_of_settled (M := world) (hcold _ fun _ => rfl) ?_
  rintro (_ | _ | j) t hne ht
  · cases ht
    exact ⟨_, rfl⟩
  · exact absurd rfl hne
  · cases ht

/-- The race: the vendor's cancellation reads the escrow as `FUNDED`, the chain reports it
completed, and the cancellation goes on. -/
theorem cancel_overwrites_completed :
    ∃ (w : World) (ms ms' : List (Move world Op)),
      (interleave .bare w ms).state.stateOf "e1" = some .COMPLETED ∧
      (interleave .bare w (ms ++ ms')).state.stateOf "e1" = some .CANCELLED :=
  ⟨World.ofEscrows [Db.lampEscrow .FUNDED],
    [.spawn (.cancelEscrow "e1" "vendor" false), .step 0 .calm,
      .spawn (.syncStateFromChain { eventType := .EscrowCompleted, escrowId := "e1" }),
      .step 1 .calm, .step 1 .calm],
    [.step 0 .calm, .step 0 .calm],
    by decide, by decide⟩

end TrustLink
