import TrustLink.Contract.Confirmation
import TrustLink.Lifecycle.Escrows

/-!
# TrustLink — a pending cancellation and the funds on chain

`cancelPendingEscrow` asks the contract for the state of the escrow before it marks the row
`CANCELLED`: a funded escrow is to be refunded first. Here the two services are put together. The
machine `custody` answers the contract calls of the escrow service by running `ContractService`
against a server that behaves as it likes, next to an on-chain state that the server may or may
not report, and notes what was there when the escrow was queried and which refunds resolved.

`getEscrowState` derives its answer from the *success* of the simulation alone: `CREATED` if it
succeeded, unknown and absent otherwise. It never says `FUNDED`, so the refund is never
submitted, and a party can cancel whatever the contract holds.
-/

namespace TrustLink

open Effects EscrowService

/-! ## The two services together -/

/-- The environment of one call: what it does to the backend, the state of the escrow on chain at
that moment (`none` if the contract does not know it), and a server. -/
structure Surroundings where
  base : Choice
  chain : Option String
  server : RpcBehaviour
  fuel : Nat

inductive Sighting where
  | queried (contractEscrowId : Nat) (chain : Option String)
  | refunded (contractEscrowId : Nat)
  deriving DecidableEq, Repr

structure Custody where
  world : World
  /-- Newest first. -/
  sightings : List Sighting

/-- The error as the escrow service gets it. -/
def ContractError.toErr : ContractError → Err
  | .ContractCallFailedException message => .error message
  | .error message => .error message
  | .unsettled => .error "unsettled"

/-- A call of the contract service, against this server. -/
def Surroundings.run {α : Type} (ch : Surroundings) (p : Rpc α) : Except Err α :=
  (p.exec (Machine.oracle soroban) ch.server []).1.mapError ContractError.toErr

/-- The backend's choice, with the contract calls answered by `ContractService`. -/
def Surroundings.choice (C : ContractConfig) (ch : Surroundings) : Choice :=
  { ch.base with
    reply := fun c => match c with
      | .getEscrowState k => ch.run (ContractService.getEscrowState C k)
      | .cancelEscrowOnChain k caller =>
        ch.run (ContractService.cancelEscrowOnChain C ch.fuel k caller)
      | .resolveDispute k resolution admin =>
        ch.run (ContractService.resolveDispute C ch.fuel k resolution admin)
      | .recordDelivery k caller => ch.run (ContractService.recordDelivery C ch.fuel k caller)
      | c => ch.base.reply c }

/-- What an answered call says about the escrow on chain. -/
def seen (chain : Option String) : (c : Call) → Except Err c.Resp → List Sighting
  | .ext (.getEscrowState k), _ => [.queried k chain]
  | .ext (.cancelEscrowOnChain k _), .ok _ => [.refunded k]
  | _, _ => []

abbrev custody (C : ContractConfig) : Machine backend where
  State := Custody
  Choice := Surroundings
  handle ch c s :=
    let a := handle (ch.choice C) c s.world
    (a.1, ⟨a.2, seen ch.chain c a.1 ++ s.sightings⟩)

/-- Absent, or created and not yet funded. -/
def Untouched (chain : Option String) : Prop := chain = none ∨ chain = some "CREATED"

/-- The escrow is cancelled only if there was nothing to refund when it was looked at, or a refund
resolved. -/
def Protected (id : String) (k : Nat) (s : Custody) : Prop :=
  s.world.stateOf id = some .CANCELLED →
    (∃ chain, Untouched chain ∧ .queried k chain ∈ s.sightings) ∨ .refunded k ∈ s.sightings

/-- `cancelPendingEscrow`, from a world nobody has looked at yet. -/
def runCancellation (C : ContractConfig) (D : Deployment) (id callerAddress : String)
    (isAdmin : Bool) (env : Nat → Surroundings) (w : World) : Custody :=
  ((cancelPendingEscrow D id callerAddress isAdmin).exec (custody C) env ⟨w, []⟩).2

section calls

variable {C : ContractConfig} {A : Surroundings → Prop} {α : Type} {s : Custody}

/-- `custody` is `world`, with sightings. -/
theorem wp_world {B : Choice → Prop} (hAB : ∀ ch, A ch → B (ch.choice C)) {p : App α}
    {Q : Except Err α → World → Prop} (h : p.wp (alone B) Q s.world) :
    p.wp ((custody C).protocol A) (fun r s' => Q r s'.world) s :=
  wp_project (M := custody C) (N := world) (fun _ _ _ => rfl) hAB h

/-- A sighting is not forgotten. -/
theorem wp_sighted (x : Sighting) (p : App α) (h : x ∈ s.sightings) :
    p.wp ((custody C).protocol A) (fun _ s' => x ∈ s'.sightings) s := by
  refine (only_any p).wp_invariant (fun c s _ hs => ⟨trivial, ?_⟩) h
  rintro r s' ⟨ch, -, heq⟩
  cases heq
  exact List.mem_append_right _ hs

def Call.isExt : Call → Bool
  | .ext _ => true
  | _ => false

/-- Only calls of the contract are sightings. -/
theorem wp_unsighted {p : App α} (hp : p.Only (S := backend) fun c : Call => c.isExt = false) :
    p.wp ((custody C).protocol A) (fun _ s' => s'.sightings = s.sightings) s := by
  refine hp.wp_invariant (fun c s₁ hc hs₁ => ⟨trivial, ?_⟩) rfl
  rintro r s' ⟨ch, -, heq⟩
  cases heq
  cases c with
  | ext c => cases hc
  | _ => exact hs₁

end calls

theorem only_markCancelled (D : Deployment) (id : String) :
    (EscrowRepository.markCancelled D id).Only (S := backend) fun c : Call => c.isExt = false :=
  only_bind (only_perform rfl) fun _ => EscrowRepository.only_update rfl rfl

theorem only_service_findById (D : Deployment) (id : String) :
    (EscrowService.findById D id).Only (S := backend) fun c : Call => c.isExt = false :=
  only_findById rfl rfl fun _ => rfl

/-! ## What `getEscrowState` can say

Whatever the server answers, the state is unknown or `CREATED`. -/

namespace ContractService

variable {C : ContractConfig} {S : StellarServer}

theorem wp_getEscrowState (hserver : C.server = some S) (hsimulate : S.simulateTransaction = true)
    (k : Nat) : (getEscrowState C k).wp anyServer
      (fun r _ => r = .ok unknownState ∨ r = .ok ⟨"CREATED", true⟩) [] := by
  unfold getEscrowState
  rw [hserver]
  refine wp_if (fun hlegacy => ?_) fun _ => ?_
  · rw [hsimulate] at hlegacy
    cases hlegacy.2
  unfold simulateState
  rw [wp_tryCatch]
  -- an error anywhere in the body, the server's included, is answered by the handler
  rw [wp_bind]
  refine wp_machine_any fun contractId log => ?_
  cases contractId with
  | error e => exact .inl rfl
  | ok contractId =>
    dsimp only
    rw [wp_bind]
    refine wp_machine_any fun contract log => ?_
    cases contract with
    | error e => exact .inl rfl
    | ok _ =>
      dsimp only
      rw [wp_bind]
      refine wp_machine_any fun account log => ?_
      cases account with
      | error e => exact .inl rfl
      | ok account =>
        dsimp only
        rw [wp_bind]
        refine wp_machine_any fun tx log => ?_
        cases tx with
        | error e => exact .inl rfl
        | ok tx =>
          dsimp only
          rw [wp_bind]
          refine wp_machine_any fun simResult log => ?_
          cases simResult with
          | error e => exact .inl rfl
          | ok simResult =>
            exact wp_if (fun _ => .inl rfl) fun _ => .inr rfl

end ContractService

/-- The contract service never reports a funded escrow. -/
theorem reply_getEscrowState {C : ContractConfig} {S : StellarServer}
    (hserver : C.server = some S) (hsimulate : S.simulateTransaction = true) (ch : Surroundings)
    (k : Nat) : (ch.choice C).reply (.getEscrowState k) = .ok ContractService.unknownState ∨
      (ch.choice C).reply (.getEscrowState k) = .ok ⟨"CREATED", true⟩ := by
  have hanswer := exec_of_wp_any (M := Machine.oracle soroban)
    (ContractService.wp_getEscrowState hserver hsimulate k) ch.server
  show ch.run _ = _ ∨ ch.run _ = _
  unfold Surroundings.run
  rcases hanswer with h | h
  · rw [h]
    exact .inl rfl
  · rw [h]
    exact .inr rfl

/-! ## The cancellation

A caller who may not cancel is stopped by the guards; for everybody else the on-chain half passes.
-/

section cancellation

variable {C : ContractConfig} {D : Deployment} {w : World} {id : String} {k : Nat} {row : EscrowRow}

/-- The service's read of a row that is there. -/
theorem wp_service_read {A : Choice → Prop} {Q : Except Err EscrowRecord → World → Prop}
    (hw : Coherent D w) (hrow : w.db.escrows.get id = some row)
    (hfail : ∀ e e', Rejects A (.escrowFindUnique id) e' → Q (.error e) w)
    (h : ∀ w', Quiet D w w' → Q (.ok (toEscrowRecord row)) w') :
    (EscrowService.findById D id).wp (alone A) Q w := by
  rw [EscrowService.findById, wp_tryCatch, wp_bind]
  refine wp_findById hw (fun e hr => ?_) fun w' hquiet => ?_
  · cases e <;> exact hfail _ _ hr
  · rw [hrow]
    exact h w' hquiet

theorem Quiet.stateOf {w' : World} (h : Quiet D w w') : w'.stateOf id = w.stateOf id := by
  rw [World.stateOf, h.rows.1]
  rfl

/-- The guards of `cancelPendingEscrow` see the stored row; a party gets to the contract. -/
theorem wp_cancelPendingEscrow {A : Surroundings → Prop} {B : Choice → Prop}
    {Q : Except Err EscrowRecord → Custody → Prop} {callerAddress : String} {isAdmin : Bool}
    (hAB : ∀ ch, A ch → B (ch.choice C)) (hw : Coherent D w)
    (hrow : w.db.escrows.get id = some row) (hcreated : row.state = .CREATED)
    (hlinked : row.contractEscrowId = some k)
    (hfail : ∀ e e' s, Quiet D w s.world → Rejects B (.escrowFindUnique id) e' → Q (.error e) s)
    (hforbidden : ∀ e s, Quiet D w s.world →
      mayCancel (toEscrowRecord row) callerAddress isAdmin = false → Q (.error e) s)
    (h : ∀ s, Quiet D w s.world → s.sightings = [] →
      mayCancel (toEscrowRecord row) callerAddress isAdmin = true →
      (cancelOnChain k callerAddress >>= fun _ =>
        EscrowRepository.markCancelled D id).wp ((custody C).protocol A) Q s) :
    (cancelPendingEscrow D id callerAddress isAdmin).wp ((custody C).protocol A) Q
      ⟨w, []⟩ := by
  have hread : (EscrowService.findById D id).wp (alone B) (fun r w' => Quiet D w w' ∧
      ((∃ e e', r = .error e ∧ Rejects B (.escrowFindUnique id) e') ∨
        r = .ok (toEscrowRecord row))) w := by
    refine wp_service_read hw hrow (fun e e' hr => ?_) fun w' hquiet => ?_
    · exact ⟨Quiet.refl hw, .inl ⟨e, e', rfl, hr⟩⟩
    · exact ⟨hquiet, .inr rfl⟩
  rw [cancelPendingEscrow, wp_bind]
  refine wp_mono (wp_and (wp_world hAB hread) (wp_unsighted (only_service_findById D id)))
    ?_
  rintro r s ⟨⟨hquiet, hr⟩, hsightings⟩
  rcases hr with ⟨e, e', rfl, hr⟩ | rfl
  · exact hfail e e' s hquiet hr
  · refine wp_if (fun hmay => hforbidden _ s hquiet hmay) fun hmay => ?_
    refine wp_if (fun hnot => absurd hcreated hnot) fun _ => ?_
    rw [show (toEscrowRecord row).contractEscrowId = some k from hlinked]
    exact h s hquiet hsightings (Bool.eq_true_of_not_eq_false hmay)

theorem not_cancelled {w' : World} (hrow : w.db.escrows.get id = some row)
    (hcreated : row.state = .CREATED) (hquiet : Quiet D w w') :
    w'.stateOf id ≠ some .CANCELLED := by
  rw [hquiet.stateOf, World.stateOf, hrow, Option.map_some, hcreated]
  decide

/-- Whoever may not cancel does not. -/
theorem wp_cancel_forbidden {A : Surroundings → Prop} (hw : Coherent D w)
    (hrow : w.db.escrows.get id = some row) (hcreated : row.state = .CREATED)
    (hlinked : row.contractEscrowId = some k) {callerAddress : String} {isAdmin : Bool}
    (hmay : mayCancel (toEscrowRecord row) callerAddress isAdmin = false) :
    (cancelPendingEscrow D id callerAddress isAdmin).wp ((custody C).protocol A)
      (fun _ s => s.world.stateOf id ≠ some .CANCELLED) ⟨w, []⟩ := by
  refine wp_cancelPendingEscrow (B := fun _ => True) (fun _ _ => trivial) hw hrow hcreated hlinked
    (fun e e' s hquiet _ => not_cancelled hrow hcreated hquiet)
    (fun e s hquiet _ => not_cancelled hrow hcreated hquiet) fun s _ _ hyes => ?_
  rw [hmay] at hyes
  cases hyes

/-- The escrow is queried before the row is written, whatever fails: one that ends up cancelled
was seen in a state the contract was in. -/
theorem wp_cancel_queried {onChain : Option String → Prop} (hw : Coherent D w)
    (hrow : w.db.escrows.get id = some row) (hcreated : row.state = .CREATED)
    (hlinked : row.contractEscrowId = some k) (callerAddress : String) (isAdmin : Bool) :
    (cancelPendingEscrow D id callerAddress isAdmin).wp
      ((custody C).protocol fun ch => onChain ch.chain)
      (fun _ s => s.world.stateOf id = some .CANCELLED →
        ∃ chain, onChain chain ∧ .queried k chain ∈ s.sightings) ⟨w, []⟩ := by
  have hnot : ∀ s : Custody, Quiet D w s.world → s.world.stateOf id ≠ some .CANCELLED :=
    fun _ hquiet => not_cancelled hrow hcreated hquiet
  refine wp_cancelPendingEscrow (B := fun _ => True) (fun _ _ => trivial) hw hrow hcreated hlinked
    (fun e e' s hquiet _ hcancelled => absurd hcancelled (hnot s hquiet))
    (fun e s hquiet _ hcancelled => absurd hcancelled (hnot s hquiet)) fun s _ _ _ => ?_
  refine ⟨trivial, ?_⟩
  rintro r s' ⟨ch, hch, heq⟩
  cases heq
  refine wp_mono (wp_sighted (.queried k ch.chain) _ List.mem_cons_self) ?_
  intro _ _ hsighted _
  exact ⟨ch.chain, hch, hsighted⟩

/-- The on-chain half always passes: the query is made, and no refund. -/
theorem wp_cancelOnChain {S : StellarServer} {A : Surroundings → Prop}
    {Q : Except Err Unit → Custody → Prop} {s : Custody} {callerAddress : String}
    (hserver : C.server = some S) (hsimulate : S.simulateTransaction = true)
    (h : ∀ ch, A ch → Q (.ok ()) ⟨s.world, .queried k ch.chain :: s.sightings⟩) :
    (cancelOnChain k callerAddress).wp ((custody C).protocol A) Q s := by
  rw [cancelOnChain, wp_bind]
  refine (wp_machine_perform (M := custody C)).mpr fun ch hch => ?_
  have hquery : (custody C).handle ch (.ext (.getEscrowState k)) s =
      ((ch.choice C).reply (.getEscrowState k),
        ⟨s.world, .queried k ch.chain :: s.sightings⟩) := rfl
  rw [hquery]
  rcases reply_getEscrowState hserver hsimulate ch k with hreply | hreply
  · rw [hreply]
    simpa [ContractService.unknownState] using h ch hch
  · rw [hreply]
    simpa using h ch hch

/-- With a database that works a party's cancellation goes through, whatever the server says and
whatever the contract holds, and no refund is submitted. -/
theorem wp_cancel_unprotected {S : StellarServer} (hserver : C.server = some S)
    (hsimulate : S.simulateTransaction = true) (chain : Option String) (hw : Coherent D w)
    (hrow : w.db.escrows.get id = some row) (hcreated : row.state = .CREATED)
    (hlinked : row.contractEscrowId = some k) {callerAddress : String} {isAdmin : Bool}
    (hmay : mayCancel (toEscrowRecord row) callerAddress isAdmin = true) :
    (cancelPendingEscrow D id callerAddress isAdmin).wp
      ((custody C).protocol fun ch => ch.chain = chain ∧ Reliable ch.base)
      (fun _ s => s.world.stateOf id = some .CANCELLED ∧ s.sightings = [.queried k chain])
      ⟨w, []⟩ := by
  refine wp_cancelPendingEscrow (B := Reliable) (fun _ hch => hch.2) hw hrow hcreated hlinked
    (fun e e' s _ hr => absurd hr not_rejects_reliable)
    (fun e s _ hno => by rw [hmay] at hno; cases hno) fun s hquiet hsightings _ => ?_
  rw [wp_bind]
  apply wp_cancelOnChain hserver hsimulate
  rintro ch ⟨hchain, -⟩
  have hrow' : s.world.db.escrows.get id = some row := by
    rw [hquiet.rows.1]
    exact hrow
  have hmark : SetsState D id .CANCELLED (EscrowRepository.markCancelled D id) :=
    sets_newDate fun _ => sets_update rfl
  have hmark := hmark s.world row hquiet.coherent hrow'
  refine wp_mono (wp_and (wp_world (B := Reliable) (fun _ hch => hch.2) hmark)
    (wp_unsighted (only_markCancelled D id))) ?_
  rintro r s' ⟨⟨record, -, -, hmoved⟩, hsightings'⟩
  constructor
  · exact congrArg Case.state hmoved.after
  · rw [hsightings']
    show .queried k ch.chain :: s.sightings = _
    rw [hchain, hsightings]

end cancellation

/-- `cancelPendingEscrow` protects the funds of a linked, locally created escrow against every
behaviour of the server, of the database and of the cache, exactly if the caller may not cancel
or the contract holds nothing while the call runs. -/
theorem cancelPending_protects_iff {C : ContractConfig} {S : StellarServer}
    (hserver : C.server = some S) (hsimulate : S.simulateTransaction = true) {D : Deployment}
    {w : World} {id : String} {k : Nat} {row : EscrowRow} (hw : Coherent D w)
    (hrow : w.db.escrows.get id = some row) (hcreated : row.state = .CREATED)
    (hlinked : row.contractEscrowId = some k) (callerAddress : String) (isAdmin : Bool)
    (onChain : Option String → Prop) :
    (∀ env, (∀ n, onChain (env n).chain) →
        Protected id k (runCancellation C D id callerAddress isAdmin env w)) ↔
      mayCancel (toEscrowRecord row) callerAddress isAdmin = false ∨
        ∀ chain, onChain chain → Untouched chain := by
  constructor
  · intro hprotected
    by_contra hexposed
    obtain ⟨hmay, hchains⟩ := not_or.mp hexposed
    push Not at hchains
    obtain ⟨chain, hon, htouched⟩ := hchains
    -- one environment for all: a database that works and a server that is silent
    let env : Nat → Surroundings := fun _ => ⟨.calm, chain, fun _ _ => .error (.error ""), 0⟩
    have henv : ∀ n, (env n).chain = chain ∧ Reliable (env n).base :=
      fun _ => ⟨rfl, fun _ => rfl, rfl⟩
    have hrun := exec_of_wp (M := custody C)
      (wp_cancel_unprotected hserver hsimulate chain hw hrow hcreated hlinked
        (Bool.eq_true_of_not_eq_false hmay)) henv
    obtain ⟨hcancelled, hsightings⟩ := hrun
    have hsafe := hprotected env (fun _ => hon) hcancelled
    rw [show (runCancellation C D id callerAddress isAdmin env w).sightings = _ from hsightings]
      at hsafe
    rcases hsafe with ⟨chain', huntouched, hmem⟩ | hmem
    · cases List.mem_singleton.mp hmem
      exact htouched huntouched
    · cases List.mem_singleton.mp hmem
  · rintro (hmay | huntouched) env henv hcancelled
    · have hrun := exec_of_wp_any (M := custody C)
        (wp_cancel_forbidden hw hrow hcreated hlinked hmay) env
      exact absurd hcancelled hrun
    · have hrun := exec_of_wp (M := custody C)
        (wp_cancel_queried (C := C) hw hrow hcreated hlinked callerAddress isAdmin) henv
      obtain ⟨chain, hon, hqueried⟩ := hrun hcancelled
      exact .inl ⟨chain, huntouched chain hon, hqueried⟩

/-! ## A lamp that is paid for on chain -/

/-- The lamp, not yet funded here, as escrow 7 of the contract. -/
def linkedLamp : EscrowRow := { Db.lampEscrow .CREATED with contractEscrowId := some 7 }

/-- Everything works, and a simulation returns what the contract holds. -/
def Surroundings.honest (chain : String) : Surroundings where
  base := .calm
  chain := some chain
  server := fun n c => match c with
    | .simulateTransaction _ => .ok ⟨none, some (.symbol chain)⟩
    | c => RpcBehaviour.reporting "SUCCESS" n c
  fuel := 1

theorem coherent_ofEscrows (D : Deployment) (rows : List EscrowRow) :
    Coherent D (World.ofEscrows rows) := by
  intro _ id record hcached
  cases hcached

/-- A lamp that is only created on chain may be cancelled. -/
theorem cancelPending_protects_created :
    Protected "e1" 7 (runCancellation (.configured true) .bare "e1" "vendor" false
      (fun _ => .honest "CREATED") (World.ofEscrows [linkedLamp])) :=
  (cancelPending_protects_iff rfl rfl (coherent_ofEscrows _ _)
    (show (World.ofEscrows [linkedLamp]).db.escrows.get "e1" = some linkedLamp from rfl) rfl rfl
    "vendor" false (fun chain => chain = some "CREATED")).mpr (.inr fun _ h => .inr h)
    (fun _ => .honest "CREATED") fun _ => rfl

/-- The vendor cancels while the contract holds the buyer's money. The server reports it, but the
answer is not looked at: no refund is submitted and the row is `CANCELLED`. -/
theorem cancelPending_strands_funds :
    (runCancellation (.configured true) .bare "e1" "vendor" false (fun _ => .honest "FUNDED")
        (World.ofEscrows [linkedLamp])).world.stateOf "e1" = some .CANCELLED ∧
      (runCancellation (.configured true) .bare "e1" "vendor" false (fun _ => .honest "FUNDED")
        (World.ofEscrows [linkedLamp])).sightings = [.queried 7 (some "FUNDED")] ∧
      ¬ Protected "e1" 7 (runCancellation (.configured true) .bare "e1" "vendor" false
        (fun _ => .honest "FUNDED") (World.ofEscrows [linkedLamp])) := by
  have hcancelled : (runCancellation (.configured true) .bare "e1" "vendor" false
      (fun _ => .honest "FUNDED") (World.ofEscrows [linkedLamp])).world.stateOf "e1"
        = some .CANCELLED := by decide +kernel
  have hsightings : (runCancellation (.configured true) .bare "e1" "vendor" false
      (fun _ => .honest "FUNDED") (World.ofEscrows [linkedLamp])).sightings
        = [.queried 7 (some "FUNDED")] := by decide +kernel
  refine ⟨hcancelled, hsightings, fun hprotected => ?_⟩
  have hsafe := hprotected hcancelled
  rw [hsightings] at hsafe
  rcases hsafe with ⟨chain, huntouched, hmem⟩ | hmem
  · cases List.mem_singleton.mp hmem
    rcases huntouched with h | h
    · cases h
    · exact absurd h (by decide)
  · cases List.mem_singleton.mp hmem

end TrustLink
