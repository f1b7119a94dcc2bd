import TrustLink.Ingest.Model
import TrustLink.Lifecycle.Sequential
import TrustLink.Model.EscrowService

/-!
# TrustLink — how a dispute ends

The outcome of a dispute is decided on chain and reaches the backend as the field `resolution` of a
`DisputeResolved` event. `parseDisputeResolution` decodes it, and what it cannot decode it leaves out
of the event that `syncStateFromChain` is called with. There only `REFUND` is looked for: everything
else, a missing resolution included, completes the escrow in the seller's favour.

The poller and the escrow service are put together here (`routed`): a `syncStateFromChain` call of the
poller is answered by running the service on the tables, with an environment of its own.
`resolution_faithful_iff` says for every payload that the escrow can end in a state the payload does
not say exactly if the resolution cannot be decoded.
-/

namespace TrustLink

open Effects SorobanPollerService EscrowService

/-- `escrow.findUnique({ where: { contractEscrowId } })`, and its id. -/
def Db.findIdByContractEscrowId (db : Db) (contractEscrowId : Nat) : Option String :=
  (db.escrows.rows.find? fun row => row.contractEscrowId = some contractEscrowId).map (·.id)

/-! ## The poller on top of the escrow service -/

/-- What the environment decides at one call of the poller. -/
structure RoutedChoice where
  /-- The answer to a call that is not routed; for one that is, whether it is rejected. -/
  reply : (c : IngestCall) → Except Err c.Resp
  /-- What happens while `syncStateFromChain` runs. -/
  sync : Nat → Choice

def handleRouted (D : Deployment) (decode : SorobanRpcEvent → Option ParsedSorobanEvent)
    (ch : RoutedChoice) : (c : IngestCall) → World → Except Err c.Resp × World
  | .parseEvent raw, w => ((ch.reply (.parseEvent raw)).map fun _ => decode raw, w)
  | .findIdByContractEscrowId contractEscrowId, w =>
    ((ch.reply (.findIdByContractEscrowId contractEscrowId)).map fun _ =>
      w.db.findIdByContractEscrowId contractEscrowId, w)
  | .syncStateFromChain _ event, w =>
    (syncStateFromChain D event).exec world ch.sync w
  | c, w => (ch.reply c, w)

/-- The poller's calls, answered by the tables and the escrow service. -/
abbrev routed (D : Deployment) (decode : SorobanRpcEvent → Option ParsedSorobanEvent) :
    Machine ingestion :=
  ⟨World, RoutedChoice, handleRouted D decode⟩

/-- What the payload says about the outcome. -/
def ParsedSorobanEvent.resolution (C : IngestConfig) (parsed : ParsedSorobanEvent) :
    Option Resolution :=
  parseDisputeResolution C.toUpperCase (parsed.data.field "resolution")

/-- The raw event decodes to a `DisputeResolved` event of an open escrow whose dispute, if it has
one, is not resolved yet. Its payload is arbitrary otherwise. -/
structure ResolvesDispute (decode : SorobanRpcEvent → Option ParsedSorobanEvent)
    (raw : SorobanRpcEvent) (parsed : ParsedSorobanEvent) (w : World) (row : EscrowRow) : Prop where
  decoded : decode raw = some parsed
  topics : ∃ topic0 topic1, truthy (parsed.topics.getD 0 .undefined).string? = some topic0 ∧
    truthy (parsed.topics.getD 1 .undefined).string? = some topic1 ∧
    overrideEventType (topic0 ++ topic1) = "DisputeResolved"
  contractEscrowId : ∃ n, toContractEscrowId (parsed.data.field "escrow_id") = some n ∧
    w.db.findIdByContractEscrowId n = some row.id
  stored : w.db.escrows.get row.id = some row
  named : row.id ≠ ""
  active : row.state ∉ TERMINAL_STATES
  unresolved : ∀ d, w.db.disputes.get row.id = some d → d.status ≠ .RESOLVED

/-- The state after an event agrees with what its payload says about the outcome. -/
structure Faithful (resolution : Option Resolution) (after : Option EscrowState) : Prop where
  completed : after = some .COMPLETED → resolution = some .RELEASE
  refunded : after = some .REFUNDED → resolution = some .REFUND
  undecoded : resolution = none → after ≠ some .COMPLETED ∧ after ≠ some .RELEASED

/-! ## What the service makes of the event

It can only write the outcome, and it writes it into a row that is not terminal. -/

/-- The state a `DisputeResolved` event asks for. -/
def outcomeOf (resolution : Option Resolution) : EscrowState :=
  if resolution = some .REFUND then .REFUNDED else .COMPLETED

/-- The calls that leave the state of every escrow alone, or make it `target`. -/
def Call.Turns (target : EscrowState) : Call → Prop
  | .db (.escrowUpdate _ data) => data.state = some target
  | .db (.escrowUpdateManyUnsubmitted _ _) => False
  | .db (.escrowCreate _ _ _) => False
  | _ => True

section sync

variable {D : Deployment} {event : SorobanChainEvent} {w : World} {target : EscrowState}

/-- One such call leaves every state as it is or makes it the target. -/
theorem turns_handle {c : Call} (hc : c.Turns target) (ch : Choice) (w : World) (id : String) :
    (handle ch c w).2.stateOf id = w.stateOf id ∨ (handle ch c w).2.stateOf id = some target := by
  unfold World.stateOf
  generalize hafter : (handle ch c w).2.db.escrows.get id = after
  have hchange := handle_escrow ch w c id
  rw [hafter] at hchange
  cases hchange with
  | same => exact .inl rfl
  | updated data row hcall hrow =>
    subst hcall
    refine .inr ?_
    have hstate : data.state = some target := hc
    show some (data.state.getD row.state) = some target
    rw [hstate]
    rfl
  | claimed t row hcall _ _ => subst hcall; exact hc.elim
  | created dto vendorAddress hcall _ => subst hcall; exact hc.elim

/-- So does a write with its notification. -/
theorem only_applied_turns {write : App EscrowRecord} {n : Notification}
    (h : write.Only (Call.Turns target)) :
    (applied write (some n)).Only (Call.Turns target) :=
  only_bind h fun _ => only_bind (only_perform trivial) fun _ => only_pure _

/-- Closing the dispute changes no state. -/
theorem only_settleDispute_turns {escrowId : String} :
    (settleDispute D escrowId).Only (Call.Turns target) := by
  unfold settleDispute
  refine only_ite (only_bind (only_perform trivial) fun found => ?_)
    (only_pure _)
  cases found with
  | none => exact only_pure _
  | some dispute =>
    refine only_ite (only_pure _) (only_bind ?_ fun _ => only_pure _)
    exact only_bind (only_perform trivial) fun _ => only_perform trivial

/-- Whatever the tables and the cache hold, a resolved dispute turns an escrow into one state. -/
theorem only_syncStateFromChain_turns (hevent : event.eventType = .DisputeResolved) :
    (syncStateFromChain D event).Only (Call.Turns (outcomeOf event.resolution)) := by
  unfold syncStateFromChain
  apply only_bind (EscrowRepository.only_findById trivial trivial fun _ => trivial)
  intro found
  cases found with
  | none => exact only_pure _
  | some escrow =>
    show (applyEvent D event escrow).Only _
    unfold applyEvent
    rw [hevent]
    show (onDisputeResolved D event escrow).Only _
    unfold onDisputeResolved
    apply only_ite (only_pure _)
    apply only_bind only_settleDispute_turns
    intro settled
    cases settled with
    | false => exact only_pure _
    | true =>
      show Prog.Only _ (if event.resolution = some .REFUND then _ else _)
      by_cases hrefund : event.resolution = some .REFUND
      · rw [if_pos hrefund]
        apply only_applied_turns
        apply EscrowRepository.only_update _ trivial
        show some EscrowState.REFUNDED = some (outcomeOf event.resolution)
        rw [outcomeOf, if_pos hrefund]
      · rw [if_neg hrefund]
        apply only_applied_turns
        apply EscrowRepository.only_update _ trivial
        show some EscrowState.COMPLETED = some (outcomeOf event.resolution)
        rw [outcomeOf, if_neg hrefund]

/-- The service run on the event, in any environment. -/
theorem sync_turns (D : Deployment) (event : SorobanChainEvent)
    (hevent : event.eventType = .DisputeResolved) (env : Nat → Choice) (w : World)
    (id : String) :
    ((syncStateFromChain D event).exec world env w).2.stateOf id = w.stateOf id ∨
    ((syncStateFromChain D event).exec world env w).2.stateOf id =
      some (outcomeOf event.resolution) := by
  have hwp : (syncStateFromChain D event).wp (alone fun _ => True)
      (fun _ w' => w'.stateOf id = w.stateOf id ∨ w'.stateOf id = some (outcomeOf event.resolution))
      w := by
    refine (only_syncStateFromChain_turns hevent).wp_invariant ?_ (.inl rfl)
    intro c w₁ hc hw₁
    refine ⟨trivial, ?_⟩
    rintro r w₂ ⟨ch, -, heq⟩
    have hturn := turns_handle hc ch w₁ id
    have hw₂ : (handle ch c w₁).2 = w₂ := congrArg Prod.snd heq
    rw [hw₂] at hturn
    rcases hturn with hsame | htarget
    · rw [hsame]
      exact hw₁
    · exact .inr htarget
  exact exec_of_wp_any (M := world) hwp env

end sync

/-! ## What the poller makes of the payload

Up to the call of the service nothing is written. -/

section routing

variable {D : Deployment} {C : IngestConfig} {decode : SorobanRpcEvent → Option ParsedSorobanEvent}
  {raw : SorobanRpcEvent} {parsed : ParsedSorobanEvent} {w : World} {row : EscrowRow}
  {A : RoutedChoice → Prop} {α : Type}

/-- Every call but `syncStateFromChain` leaves the tables alone. -/
def IngestCall.Aside : IngestCall → Prop
  | .syncStateFromChain _ _ => False
  | _ => True

/-- Calls that are not routed to the service leave its world alone. -/
theorem wp_aside {p : Ingest α} (hp : p.Only IngestCall.Aside) :
    p.wp ((routed D decode).protocol A) (fun _ w' => w' = w) w := by
  refine hp.wp_invariant (fun c w₁ hc hw₁ => ⟨trivial, ?_⟩) rfl
  rintro r w₂ ⟨ch, -, heq⟩
  have hsame : (handleRouted D decode ch c w₁).2 = w₁ := by
    cases c with
    | syncStateFromChain source event => exact hc.elim
    | _ => rfl
  have hw₂ : (handleRouted D decode ch c w₁).2 = w₂ := congrArg Prod.snd heq
  rw [← hw₂, hsame, hw₁]

/-- A dead letter goes to the queue. -/
theorem only_deadLetter_aside {escrowId : Option String} {reason : String} :
    (SorobanPollerService.deadLetter raw escrowId reason).Only IngestCall.Aside :=
  only_tryCatch (only_perform trivial) fun _ => only_pure _

/-- Counting a failure is no concern of the service. -/
theorem only_onSyncFailed_aside {eventType escrowId : String} {e : Err} :
    (onSyncFailed C raw eventType escrowId e).Only IngestCall.Aside := by
  unfold onSyncFailed
  refine only_bind (only_perform trivial) fun count => ?_
  refine only_bind (only_perform trivial) fun _ => only_ite ?_ (only_throw _)
  exact only_bind (only_perform trivial) fun _ => only_deadLetter_aside

/-- The event the service is called with. -/
def resolvedEvent (C : IngestConfig) (raw : SorobanRpcEvent) (parsed : ParsedSorobanEvent)
    (escrowId : String) : SorobanChainEvent :=
  chainEvent C raw "DisputeResolved" escrowId parsed.data

/-- The world after the service has run on the event. -/
def afterSync (D : Deployment) (C : IngestConfig) (raw : SorobanRpcEvent)
    (parsed : ParsedSorobanEvent) (escrowId : String) (env : Nat → Choice) (w : World) : World :=
  ((syncStateFromChain D (resolvedEvent C raw parsed escrowId)).exec world env w).2

/-- The world is the one the service leaves, whatever the poller does after it. -/
theorem wp_syncEvent_routed :
    (syncEvent C raw "DisputeResolved" row.id parsed.data).wp
      ((routed D decode).protocol A)
      (fun _ w' => ∃ ch, A ch ∧ w' = afterSync D C raw parsed row.id ch.sync w) w := by
  unfold syncEvent
  rw [wp_tryCatch, wp_bind]
  refine wp_machine_perform.mpr fun ch hch => ?_
  -- whatever the service answers, the counting of the attempts leaves the tables as they are
  have hrest : ∀ {p : Ingest Unit}, p.Only IngestCall.Aside →
      p.wp ((routed D decode).protocol A)
        (fun _ w' => ∃ ch, A ch ∧ w' = afterSync D C raw parsed row.id ch.sync w)
        (afterSync D C raw parsed row.id ch.sync w) :=
    fun hp => wp_mono (wp_aside hp) fun _ _ hw => ⟨ch, hch, hw⟩
  cases hr : ((routed D decode).handle ch (.syncStateFromChain raw
      (chainEvent C raw "DisputeResolved" row.id parsed.data)) w).1 with
  | error e => exact hrest only_onSyncFailed_aside
  | ok result =>
    refine wp_mono (wp_aside (only_perform trivial)) ?_
    rintro r _ rfl
    cases r with
    | error e => exact hrest only_onSyncFailed_aside
    | ok _ => exact ⟨ch, hch, rfl⟩

/-- The poller rejects the event before it reaches the service, or the service decides. -/
theorem wp_processEvent_routed (h : ResolvesDispute decode raw parsed w row) :
    (processEvent C raw).wp ((routed D decode).protocol A)
      (fun _ w' => (w' = w ∧ ∃ ch c e, A ch ∧ ch.reply c = .error e) ∨
        ∃ ch, A ch ∧ w' = afterSync D C raw parsed row.id ch.sync w) w := by
  obtain ⟨topic0, topic1, htopic0, htopic1, htype⟩ := h.topics
  obtain ⟨n, hn, hfound⟩ := h.contractEscrowId
  unfold processEvent
  refine wp_machine_bind.mpr fun ch hch => ?_
  have hparsed : ((routed D decode).handle ch (.parseEvent raw) w).1 =
      (ch.reply (.parseEvent raw)).map fun _ => decode raw := rfl
  rw [hparsed]
  cases hparse : ch.reply (.parseEvent raw) with
  | error e => exact .inl ⟨rfl, ch, _, e, hch, hparse⟩
  | ok _ =>
    dsimp only [Except.map]
    rw [h.decoded]
    dsimp only
    rw [htopic0, htopic1]
    dsimp only
    rw [htype, hn]
    dsimp only
    refine wp_machine_bind.mpr fun ch' hch' => ?_
    have hanswer : ((routed D decode).handle ch' (.findIdByContractEscrowId n)
          ((routed D decode).handle ch (.parseEvent raw) w).2).1 =
        (ch'.reply (.findIdByContractEscrowId n)).map fun _ =>
          w.db.findIdByContractEscrowId n := rfl
    rw [hanswer]
    cases hfind : ch'.reply (.findIdByContractEscrowId n) with
    | error e => exact .inl ⟨rfl, ch', _, e, hch', hfind⟩
    | ok _ =>
      -- the lookup finds the escrow, so the event is routed to the service
      have hid : truthy (w.db.findIdByContractEscrowId n) = some row.id := by
        rw [hfound]
        exact if_neg h.named
      dsimp only [Except.map]
      rw [hid]
      exact wp_mono wp_syncEvent_routed fun _ _ hsync => .inr hsync

end routing

/-! ## The event goes through

Nothing is rejected and nothing is found in the cache: then the escrow does change its state. -/

/-- No database call is rejected from outside, and whatever is cached has expired. -/
def Unhindered (ch : Choice) : Prop := (∀ c, ch.fault c = none) ∧ ch.miss = true

section unhindered

variable {D : Deployment} {w : World} {id : String} {row : EscrowRow}

/-- An unhindered environment rejects nothing. -/
theorem not_rejects_unhindered {c : DbCall} {e : Err} : ¬ Rejects Unhindered c e :=
  not_rejects fun _ hch => hch.1

/-- A read that misses the cache reads the row. -/
theorem wp_findById_missed {Q : Except Err (Option EscrowRecord) → World → Prop}
    (hrow : w.db.escrows.get id = some row)
    (h : ∀ w', w'.db = w.db → Q (.ok (some (toEscrowRecord row))) w') :
    (EscrowRepository.findById D id).wp (alone Unhindered) Q w := by
  apply wp_findById_of
  · intro ch record _ hch hmiss _
    rw [hch.2] at hmiss
    cases hmiss
  apply wp_findStored fun _ hrejects => absurd hrejects not_rejects_unhindered
  · intro hnone
    rw [hrow] at hnone
    cases hnone
  · intro row' hrow'
    rw [hrow] at hrow'
    cases hrow'
    exact h w rfl
  · intro row' ch hrow' _
    rw [hrow] at hrow'
    cases hrow'
    exact h _ rfl

/-- An open dispute is settled; the escrows are not touched. -/
theorem wp_settleDispute_unhindered
    (hunresolved : ∀ d, w.db.disputes.get id = some d → d.status ≠ .RESOLVED) :
    (settleDispute D id).wp (alone Unhindered)
      (fun r w' => r = .ok true ∧ w'.db.escrows = w.db.escrows) w := by
  unfold settleDispute
  refine wp_if (fun _ => ?_) fun _ => ⟨rfl, rfl⟩
  rw [wp_bind]
  refine wp_findDispute (fun _ hr => absurd hr not_rejects_unhindered) ?_
  rw [Db.findDispute_none]
  cases hd : w.db.disputes.get id with
  | none => exact ⟨rfl, rfl⟩
  | some d =>
    dsimp only
    rw [if_neg (hunresolved d hd)]
    unfold DisputeRepository.resolve
    rw [wp_bind, wp_bind]
    refine (wp_machine_perform (M := world)).mpr fun ch _ => ?_
    refine wp_handle_db.mpr fun ch' hch' => ?_
    have hmem : d ∈ w.db.disputes.rows := by
      rw [w.db.disputes.mem_rows_iff, w.db.disputes.key_of_get hd]
      exact hd
    have hclock : ((world.handle ch .newDate w).2 : World) = w := rfl
    rw [hclock, handle_disputeUpdate_ok ch' w (hch'.1 _) hmem]
    exact ⟨rfl, rfl⟩

/-- A stored escrow is given its new state. -/
theorem wp_applied_unhindered {data : EscrowData} {target : EscrowState} {n : Notification}
    (hrow : w.db.escrows.get id = some row) (hdata : data.state = some target) :
    (applied (EscrowRepository.update D id data) (some n)).wp (alone Unhindered)
      (fun _ w' => w'.stateOf id = some target) w := by
  have hstate : ∀ {now : Time} {w' : World}, w'.db = w.db.putEscrow (row.update data now) →
      w'.stateOf id = some target := by
    intro now w' hdb
    rw [World.stateOf, hdb, putEscrow_get, EscrowRow.update_id, get_id hrow, if_pos rfl]
    show some (data.state.getD row.state) = some target
    rw [hdata]
    rfl
  unfold applied EscrowRepository.update EscrowRepository.invalidate
  rw [wp_bind, wp_bind]
  refine wp_handle_db.mpr fun ch hch => ?_
  rw [handle_escrowUpdate_ok ch w (hch.1 _) hrow]
  dsimp only
  rw [wp_bind, wp_ite]
  -- evicted or not, the row is what it is, and so after the notification
  have hnotify : ∀ w', w'.db = w.db.putEscrow (row.update data ch.now) →
      ((do
        notify n (toEscrowRecord (row.update data ch.now))
        pure { skipped := false }) : App SyncResult).wp (alone Unhindered)
        (fun _ w' => w'.stateOf id = some target) w' := by
    intro w' hdb
    refine (wp_machine_bind (M := world)).mpr fun ch' _ => ?_
    exact hstate hdb
  exact ⟨fun _ => wp_handle_cache.mpr fun ch' _ => hnotify _ rfl, fun _ => hnotify _ rfl⟩

/-- Where nothing is rejected the escrow gets the outcome. -/
theorem wp_sync_unhindered (D : Deployment) (event : SorobanChainEvent)
    (hevent : event.eventType = .DisputeResolved)
    (hrow : w.db.escrows.get event.escrowId = some row) (hactive : row.state ∉ TERMINAL_STATES)
    (hunresolved : ∀ d, w.db.disputes.get event.escrowId = some d → d.status ≠ .RESOLVED) :
    (syncStateFromChain D event).wp (alone Unhindered)
      (fun _ w' => w'.stateOf event.escrowId = some (outcomeOf event.resolution)) w := by
  unfold syncStateFromChain
  rw [wp_bind]
  refine wp_findById_missed hrow fun w₁ hw₁ => ?_
  show Prog.wp _ (applyEvent D event (toEscrowRecord row)) _ w₁
  unfold applyEvent
  rw [hevent]
  show Prog.wp _ (onDisputeResolved D event (toEscrowRecord row)) _ w₁
  unfold onDisputeResolved
  have hopen : (toEscrowRecord row).state ∉ TERMINAL_STATES := hactive
  rw [if_neg hopen, wp_bind]
  rw [← hw₁] at hunresolved
  refine wp_mono (wp_settleDispute_unhindered hunresolved) ?_
  rintro _ w₂ ⟨rfl, hescrows⟩
  have hrow₂ : w₂.db.escrows.get event.escrowId = some row := by
    rw [hescrows, hw₁]
    exact hrow
  show Prog.wp _ (if event.resolution = some .REFUND then _ else _) _ w₂
  by_cases hrefund : event.resolution = some .REFUND
  · rw [if_pos hrefund, outcomeOf, if_pos hrefund]
    exact wp_applied_unhindered hrow₂ rfl
  · rw [if_neg hrefund, outcomeOf, if_neg hrefund]
    exact wp_applied_unhindered hrow₂ rfl

end unhindered

/-! ## The outcome and the payload

What the payload says is the outcome, unless it says nothing that is understood. -/

/-- Every call of the poller is answered, and so is every call of the service. -/
def RoutedChoice.willing : RoutedChoice where
  reply
    | .cursorFindById _ => .ok none
    | .cursorUpsert _ _ => .ok ()
    | .getEvents _ _ => .ok none
    | .getLatestLedger => .ok none
    | .parseEvent _ => .ok none
    | .findIdByContractEscrowId _ => .ok none
    | .syncStateFromChain _ _ => .ok { skipped := false }
    | .enqueue _ => .ok ()
    | .getRetryCount _ => .ok none
    | .setRetryCount _ _ => .ok ()
    | .deleteRetryCount _ => .ok ()
    | .getOperations _ => .ok none
    | .processOperationDto _ => .ok ()
  sync _ := { Choice.calm with miss := true }

/-- The willing environment answers every call. -/
theorem RoutedChoice.willing_replies (c : IngestCall) (e : Err) :
    RoutedChoice.willing.reply c ≠ .error e := by
  cases c <;> exact nofun

/-- A state that is not terminal contradicts nothing. -/
theorem faithful_of_active {resolution : Option Resolution} {state : EscrowState}
    (h : state ∉ TERMINAL_STATES) : Faithful resolution (some state) where
  completed := by
    rintro ⟨⟩
    exact absurd (by decide) h
  refunded := by
    rintro ⟨⟩
    exact absurd (by decide) h
  undecoded := by
    refine fun _ => ⟨?_, ?_⟩
    · rintro ⟨⟩
      exact absurd (by decide) h
    · rintro ⟨⟩
      exact absurd (by decide) h

/-- The outcome is the one the resolution names. -/
theorem faithful_outcome {resolution : Option Resolution} (h : resolution ≠ none) :
    Faithful resolution (some (outcomeOf resolution)) := by
  cases resolution with
  | none => exact absurd rfl h
  | some resolution =>
    cases resolution with
    | RELEASE => exact ⟨fun _ => rfl, nofun, nofun⟩
    | REFUND => exact ⟨nofun, fun _ => rfl, nofun⟩

/-- For every payload of a `DisputeResolved` event, every open escrow whose dispute is not resolved
and everything that may happen while the event is processed: the state of the escrow agrees with the
payload exactly if the resolution in the payload can be decoded. -/
theorem resolution_faithful_iff {D : Deployment} {C : IngestConfig}
    {decode : SorobanRpcEvent → Option ParsedSorobanEvent} {raw : SorobanRpcEvent}
    {parsed : ParsedSorobanEvent} {w : World} {row : EscrowRow}
    (h : ResolvesDispute decode raw parsed w row) :
    (∀ env : Nat → RoutedChoice, Faithful (parsed.resolution C)
      (((processEvent C raw).exec (routed D decode) env w).2.stateOf row.id)) ↔
    parsed.resolution C ≠ none := by
  have hbefore : w.stateOf row.id = some row.state := by
    rw [World.stateOf, h.stored]
    rfl
  constructor
  · -- an undecoded resolution completes the escrow as soon as nothing is in the way
    intro hfaithful hnone
    have hrun := exec_of_wp
      (wp_processEvent_routed (D := D) (C := C) (A := (· = RoutedChoice.willing)) h)
      (fun _ => rfl : ∀ n : Nat, (fun _ => RoutedChoice.willing) n = RoutedChoice.willing)
    have hafter := hfaithful fun _ => .willing
    rcases hrun with ⟨-, ch, c, e, rfl, hreply⟩ | ⟨ch, rfl, hsync⟩
    · exact RoutedChoice.willing_replies c e hreply
    · have hcompleted := exec_of_wp
        (wp_sync_unhindered D (resolvedEvent C raw parsed row.id) rfl h.stored h.active h.unresolved)
        (fun _ => ⟨fun _ => rfl, rfl⟩ : ∀ n, Unhindered (RoutedChoice.willing.sync n))
      have hresolution : (resolvedEvent C raw parsed row.id).resolution = none := hnone
      rw [hresolution] at hcompleted
      rw [hsync] at hafter
      have hrelease := hafter.completed hcompleted
      rw [hnone] at hrelease
      cases hrelease
  · intro hdecoded env
    have hrun := exec_of_wp_any (wp_processEvent_routed (D := D) (C := C) h) env
    rcases hrun with ⟨hsame, -⟩ | ⟨ch, -, hsync⟩
    · rw [hsame, hbefore]
      exact faithful_of_active h.active
    · rw [hsync]
      have hturns := sync_turns D (resolvedEvent C raw parsed row.id) rfl ch.sync w row.id
      unfold afterSync
      rcases hturns with hsame | hturned
      · rw [hsame, hbefore]
        exact faithful_of_active h.active
      · rw [hturned]
        exact faithful_outcome hdecoded

/-- A resolved dispute of the escrow that the contract knows as number 7. -/
def ParsedSorobanEvent.disputeResolved (fields : List (String × Native)) : ParsedSorobanEvent where
  topics := [.string "Dispute", .string "Resolved"]
  data := .object (("escrow_id", .bigint 7) :: fields)

/-- A disputed escrow the contract knows as number 7. -/
def Db.disputedLamp : EscrowRow :=
  { Db.lampEscrow .DISPUTED with contractEscrowId := some 7 }

/-- The disputed lamp meets the conditions. -/
theorem disputedLamp_resolves (fields : List (String × Native)) :
    ResolvesDispute (fun _ => some (.disputeResolved fields)) (.sample 12)
      (.disputeResolved fields) (World.ofEscrows [Db.disputedLamp]) Db.disputedLamp where
  decoded := rfl
  topics := ⟨"Dispute", "Resolved", rfl, rfl, by decide⟩
  contractEscrowId := ⟨7, rfl, by decide +kernel⟩
  stored := by decide +kernel
  named := by decide
  active := by decide
  unresolved := nofun

/-- A decoded refund, whatever happens while it is processed. -/
theorem resolution_faithful_refund :
    let refund := ParsedSorobanEvent.disputeResolved [("resolution", .array [.string "REFUND"])]
    refund.resolution .unset = some .REFUND ∧
    ∀ env : Nat → RoutedChoice, Faithful (refund.resolution .unset)
      (((processEvent .unset (.sample 12)).exec
        (routed .bare fun _ => some refund) env
        (World.ofEscrows [Db.disputedLamp])).2.stateOf Db.disputedLamp.id) :=
  ⟨by decide, (resolution_faithful_iff (C := .unset)
    (disputedLamp_resolves [("resolution", .array [.string "REFUND"])])).mpr (by decide)⟩

/-- An event without a `resolution` completes the disputed escrow. -/
theorem unresolved_dispute_completed :
    ∃ env : Nat → RoutedChoice,
      ((processEvent .unset (.sample 12)).exec
        (routed .bare fun _ => some (.disputeResolved [])) env
        (World.ofEscrows [Db.disputedLamp])).2.stateOf Db.disputedLamp.id = some .COMPLETED ∧
      (ParsedSorobanEvent.disputeResolved []).resolution .unset = none :=
  ⟨fun _ => .willing, by decide +kernel, rfl⟩

end TrustLink
