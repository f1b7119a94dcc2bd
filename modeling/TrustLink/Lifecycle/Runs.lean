import TrustLink.Lifecycle.Services
import TrustLink.Model.Operations

/-!
# TrustLink — sequential runs

The lifecycle over whole runs in which no two operations overlap and neither the database nor the
cache fails. Every operation follows the lifecycle (`Op.follows`), so a run does
(`runOps_evolves`), and what is known of histories is known of runs:

* the rank of an escrow climbs with every write of its state, so there are at most five of them and
  each stage is announced at most once;
* an event that has been absorbed stays absorbed, so its redelivery is skipped;
* a dispute is open exactly while its escrow is `DISPUTED`, unless an operation of the run strays
  (`straysIn`).
-/

namespace TrustLink

open Effects

variable {D : Deployment} {w : World}

/-- The escrows for which an operation leaves the lifecycle when it is started in `w`. -/
def Op.strays (D : Deployment) (w : World) : Op → String → Prop
  | .syncStateFromChain event => event.strays D w
  | _ => fun _ => False

theorem Op.follows (hw : Coherent D w) (op : Op) :
    (op.prog D).wp (alone Reliable) (Follows D (op.strays D w) w) w := by
  cases op with
  | createEscrow dto vendorAddress => exact follows_void (follows_createEscrow hw dto vendorAddress)
  | createIdempotent key dto vendorAddress =>
    exact follows_void (follows_createIdempotent hw key dto vendorAddress)
  | findById id => exact (keeps_void (keeps_findById id)).follows hw
  | getTracking id => exact (keeps_void (keeps_getTracking id)).follows hw
  | cancelEscrow id caller isAdmin => exact follows_void (follows_cancelEscrow hw id caller isAdmin)
  | cancelPendingEscrow id caller isAdmin =>
    exact follows_void (follows_cancelPendingEscrow hw id caller isAdmin)
  | handleShipment id vendorAddress trackingId isAdmin =>
    -- as a variable, so that nothing evaluates its guards
    simp only [Op.prog]
    generalize hp : EscrowService.handleShipment D id vendorAddress trackingId isAdmin = p
    have hfollows := @follows_handleShipment D
      (Op.strays D w (.handleShipment id vendorAddress trackingId isAdmin)) w hw id vendorAddress
      trackingId isAdmin
    rw [hp] at hfollows
    exact follows_void hfollows
  | updateBuyerContact id dto => exact (keeps_void (keeps_updateBuyerContact id dto)).follows hw
  | syncStateFromChain event => exact follows_void (follows_syncStateFromChain hw)
  | openDispute id caller dto => exact follows_void (follows_openDispute hw id caller dto)
  | getDispute id caller => exact (keeps_void (keeps_getDispute id caller)).follows hw
  | resolve id resolution => exact follows_void (follows_resolve hw id resolution)
  | handleEvent rawBody signature dto =>
    exact follows_void (follows_handleEvent hw rawBody signature dto)
  | processOperationDto dto => exact follows_void (follows_processOperationDto hw dto)
  | handlePayment dto => exact follows_handlePayment hw dto
  | processShipment snapshot => exact follows_processShipment hw snapshot
  | processEscrow snapshot => exact (keeps_void (keeps_processEscrow snapshot)).follows hw
  | autoReleaseCycle referenceTime => exact (keeps_runCycle referenceTime).follows hw

/-- No database or cache call of the run fails. -/
def ReliableRun (ops : List (Op × (Nat → Choice))) : Prop :=
  ∀ o ∈ ops, ∀ n, Reliable (o.2 n)

/-- A run in which the outside never answers. -/
def calmly (ops : List Op) : List (Op × (Nat → Choice)) := ops.map (·, fun _ => .calm)

theorem reliable_calmly (ops : List Op) : ReliableRun (calmly ops) := by
  intro o ho n
  obtain ⟨op, _, rfl⟩ := List.mem_map.mp ho
  exact ⟨fun _ => rfl, rfl⟩

theorem coherent_bare : Coherent .bare w := nofun

/-- The escrows for which some operation of the run leaves the lifecycle. -/
def straysIn (D : Deployment) : World → List (Op × (Nat → Choice)) → String → Prop
  | _, [], _ => False
  | w, o :: ops, id => o.1.strays D w id ∨ straysIn D (runOps D w [o]) ops id

theorem runOps_cons (o : Op × (Nat → Choice)) (ops : List (Op × (Nat → Choice))) :
    runOps D w (o :: ops) = runOps D (runOps D w [o]) ops := rfl

/-- One operation of a run. -/
theorem runOp_follows (hw : Coherent D w) {o : Op × (Nat → Choice)}
    (henv : ∀ n, Reliable (o.2 n)) :
    Coherent D (runOps D w [o]) ∧ Evolves (o.1.strays D w) w (runOps D w [o]) :=
  exec_of_wp (Op.follows hw o.1) henv

theorem runOps_evolves {ops : List (Op × (Nat → Choice))} (hw : Coherent D w)
    (hops : ReliableRun ops) :
    Coherent D (runOps D w ops) ∧ Evolves (straysIn D w ops) w (runOps D w ops) := by
  induction ops generalizing w with
  | nil => exact ⟨hw, (Still.refl hw).evolves⟩
  | cons o ops ih =>
    obtain ⟨hw₁, hfirst⟩ := runOp_follows hw (hops o List.mem_cons_self)
    obtain ⟨hw₂, hrest⟩ := ih hw₁ fun o' ho' => hops o' (List.mem_cons_of_mem o ho')
    rw [runOps_cons]
    exact ⟨hw₂, (hfirst.mono fun _ => .inl).trans (hrest.mono fun _ => .inr)⟩

/-! ## Progress -/

/-- How often the state of an escrow has been written. -/
def stateWrites (id : String) (journal : List Obs) : Nat :=
  journal.countP fun
    | .stateWrite id' _ _ => id' = id
    | .notified _ _ => false

/-- How many notifications of these kinds have been sent about an escrow. -/
def sent (kinds : List Notification) (id : String) (journal : List Obs) : Nat :=
  journal.countP fun
    | .stateWrite _ _ _ => false
    | .notified n id' => id' = id ∧ n ∈ kinds

theorem stateWrites_eq (id : String) (journal : List Obs) :
    stateWrites id journal = (journal.filter (·.escrowId = id)).countP Obs.isWrite := by
  rw [stateWrites, List.countP_filter]
  refine List.countP_congr fun o _ => ?_
  cases o with
  | stateWrite id' before after =>
    exact Iff.rfl
  | notified n id' => simp [Obs.isWrite]

/-- Kinds that announce the same rank are counted together. -/
theorem sent_le {kinds : List Notification} {l : Nat} (hkinds : ∀ n ∈ kinds, n.level = some l)
    (id : String) (journal : List Obs) :
    sent kinds id journal ≤ (journal.filter (·.escrowId = id)).countP (Obs.announces l) := by
  rw [sent, List.countP_filter]
  refine List.countP_mono_left fun o _ ho => ?_
  cases o with
  | stateWrite id' before after => cases ho
  | notified n id' =>
    obtain ⟨hid, hn⟩ := of_decide_eq_true ho
    simp [Obs.announces, Obs.escrowId, hid, hkinds n hn]

/-- **Strict progress.** Along every sequential run, every write of a state climbs in rank; an
escrow gets at most five of them, and no stage is announced twice. -/
theorem lifecycle_progress (D : Deployment) (w : World) (ops : List (Op × (Nat → Choice)))
    (hw : Coherent D w) (hjournal : w.journal = []) (hops : ReliableRun ops) :
    (∀ id before after, .stateWrite id before after ∈ (runOps D w ops).journal →
      before.rank < after.rank) ∧
    ∀ id, stateWrites id (runOps D w ops).journal ≤ 5 ∧
      ∀ kinds ∈ [[.notifyFunded], [.notifyShipped], [.notifyDelivered], [.notifyDisputed],
          [.notifyCompleted, .notifyRefunded]],
        sent kinds id (runOps D w ops).journal ≤ 1 := by
  obtain ⟨-, seen, hseen, hhistory⟩ := runOps_evolves hw hops
  rw [hjournal, List.append_nil] at hseen
  rw [hseen]
  refine ⟨fun id before after hmem => ?_, fun id => ⟨?_, fun kinds hkinds => ?_⟩⟩
  · have hmem' : Obs.stateWrite id before after ∈ seen.filter (·.escrowId = id) :=
      List.mem_filter.mpr ⟨hmem, decide_eq_true rfl⟩
    exact (hhistory id).climbs _ hmem'
  · have hwrites := (hhistory id).writes_le
    have hrank := ((runOps D w ops).caseOf id).rank_le
    rw [stateWrites_eq]
    omega
  · obtain ⟨l, hl⟩ : ∃ l, ∀ n ∈ kinds, n.level = some l := by
      simp only [List.mem_cons, List.not_mem_nil, or_false] at hkinds
      rcases hkinds with rfl | rfl | rfl | rfl | rfl
      · exact ⟨1, by decide⟩
      · exact ⟨2, by decide⟩
      · exact ⟨3, by decide⟩
      · exact ⟨4, by decide⟩
      · exact ⟨5, by decide⟩
    exact Nat.le_trans (sent_le hl id seen) ((hhistory id).announced_le l)

/-- The lamp is shipped, disputed and refunded, and the events come again. -/
theorem lifecycle_progress_refunded :
    let ops := calmly
      [.syncStateFromChain { eventType := .EscrowShipped, escrowId := "e1" },
        .openDispute "e1" "buyer" ⟨"broken", "", none⟩,
        .syncStateFromChain { eventType := .EscrowShipped, escrowId := "e1" },
        .syncStateFromChain
          { eventType := .DisputeResolved, escrowId := "e1", resolution := some .REFUND },
        .syncStateFromChain { eventType := .RefundApproved, escrowId := "e1" }]
    let journal := (runOps .bare (World.ofEscrows [Db.lampEscrow .FUNDED]) ops).journal
    stateWrites "e1" journal = 3 ∧ sent [.notifyCompleted, .notifyRefunded] "e1" journal = 1 ∧
      stateWrites "e1" journal ≤ 5 := by
  intro ops journal
  have hprogress := lifecycle_progress .bare (World.ofEscrows [Db.lampEscrow .FUNDED]) ops
    coherent_bare rfl (reliable_calmly _)
  exact ⟨by decide +kernel, by decide +kernel, (hprogress.2 "e1").1⟩

/-! ## Redelivery -/

/-- What an event had left to do is not undone later. -/
theorem SorobanChainEvent.Absorbed.later {event : SorobanChainEvent} {off : Prop} {id : String}
    {c c' : Case} {seen : List Obs} (hc : event.Absorbed D c) (h : History off id c seen c') :
    event.Absorbed D c' := by
  have hrank := h.rank_le
  unfold SorobanChainEvent.Absorbed at hc ⊢
  split at hc
  case h_4 =>
    rcases hc with hterminal | ⟨hprisma, hresolved⟩
    · exact .inl (Nat.le_trans hterminal hrank)
    · exact .inr ⟨hprisma, h.resolved hresolved⟩
  case h_5 => trivial
  all_goals exact Nat.le_trans hc hrank

/-- An escrow that exists goes on existing. -/
theorem Evolves.row {off : String → Prop} {w w' : World} {id : String} {row : EscrowRow}
    (h : Evolves off w w') (hrow : w.db.escrows.get id = some row) :
    ∃ row', w'.db.escrows.get id = some row' := by
  obtain ⟨_, _, hhistory⟩ := h
  have hstate : (w'.caseOf id).state ≠ none := by
    refine (hhistory id).preserves (p := fun c => c.state ≠ none) ?_ ?_
    · intro s new s' hstep hs
      cases hstep with
      | stay => exact hs
      | create => exact absurd rfl hs
      | move _ _ _ => exact Option.some_ne_none _
    · rw [World.caseOf, World.stateOf, hrow]
      exact Option.some_ne_none _
  obtain ⟨state, hsome⟩ := Option.ne_none_iff_exists'.mp hstate
  obtain ⟨row', hrow', _⟩ := Option.map_eq_some_iff.mp hsome
  exact ⟨row', hrow'⟩

/-- **Redelivery is a no-op.** Once `syncStateFromChain` has returned for an event about an
existing escrow, the same event is skipped at every later point of the run, and no row of either
table changes. -/
theorem redelivery_skipped (D : Deployment) (w : World) (before after : List (Op × (Nat → Choice)))
    (event : SorobanChainEvent) (env env' : Nat → Choice) (result : SyncResult)
    (hw : Coherent D w) (hbefore : ReliableRun before) (hafter : ReliableRun after)
    (henv : ∀ n, Reliable (env n)) (henv' : ∀ n, Reliable (env' n))
    (hexists : (runOps D w before).stateOf event.escrowId ≠ none)
    (hfirst : ((EscrowService.syncStateFromChain D event).exec world env
      (runOps D w before)).1 = .ok result) :
    let w₁ := ((EscrowService.syncStateFromChain D event).exec world env (runOps D w before)).2
    let second := (EscrowService.syncStateFromChain D event).exec world env' (runOps D w₁ after)
    (∃ reason, second.1 = .ok { skipped := true, reason := some reason }) ∧
      SameRows (runOps D w₁ after) second.2 := by
  intro w₁ second
  obtain ⟨state, hstate⟩ := Option.ne_none_iff_exists'.mp hexists
  obtain ⟨row, hrow, _⟩ := Option.map_eq_some_iff.mp hstate
  have hsynced := exec_of_wp
    (synced_syncStateFromChain (runOps_evolves hw hbefore).1 hrow) henv
  obtain ⟨hw₁, hevolves₁⟩ := hsynced.follows
  have habsorbed := hsynced.absorbed result hfirst
  obtain ⟨row₁, hrow₁⟩ := hevolves₁.row hrow
  obtain ⟨hw₂, hevolves₂⟩ := runOps_evolves hw₁ hafter
  obtain ⟨row₂, hrow₂⟩ := hevolves₂.row hrow₁
  obtain ⟨_, _, hhistory⟩ := hevolves₂
  have hsynced₂ := exec_of_wp (synced_syncStateFromChain hw₂ hrow₂) henv'
  exact hsynced₂.skips (habsorbed.later (hhistory event.escrowId))

/-- The event that shipped the lamp comes again when the lamp is already disputed. -/
theorem redelivery_skipped_disputed :
    let event : SorobanChainEvent := { eventType := .EscrowShipped, escrowId := "e1" }
    let calm : Nat → Choice := fun _ => .calm
    let ops := calmly [.openDispute "e1" "buyer" ⟨"broken", "", none⟩]
    let w₁ := ((EscrowService.syncStateFromChain .bare event).exec world calm
      (World.ofEscrows [Db.lampEscrow .FUNDED])).2
    w₁.stateOf "e1" = some .SHIPPED ∧
      ∃ reason, ((EscrowService.syncStateFromChain .bare event).exec world calm
        (runOps .bare w₁ ops)).1 = .ok { skipped := true, reason := some reason } := by
  have hcalm : ∀ n : Nat, Reliable ((fun _ => .calm : Nat → Choice) n) :=
    fun _ => ⟨fun _ => rfl, rfl⟩
  intro event calm ops w₁
  have hskipped := redelivery_skipped .bare (World.ofEscrows [Db.lampEscrow .FUNDED]) [] ops
    event calm calm { skipped := false } coherent_bare (reliable_calmly []) (reliable_calmly _)
    hcalm hcalm (by decide) (by decide)
  exact ⟨by decide, hskipped.1⟩

/-- **Escrow and dispute agree.** Along every sequential run, an escrow for which no operation
strays has an open dispute if and only if it is `DISPUTED`. -/
theorem disputes_agree (D : Deployment) (w : World) (ops : List (Op × (Nat → Choice)))
    (hw : Coherent D w) (hops : ReliableRun ops) (id : String) (hstart : (w.caseOf id).Agrees)
    (hsteady : ¬ straysIn D w ops id) : ((runOps D w ops).caseOf id).Agrees := by
  obtain ⟨-, _, _, hhistory⟩ := runOps_evolves hw hops
  exact (hhistory id).agrees hsteady hstart

/-- A dispute that the chain raises and resolves. -/
theorem disputes_agree_resolved :
    ((runOps .bare (World.ofEscrows [Db.lampEscrow .FUNDED])
      (calmly
        [.syncStateFromChain { eventType := .DisputeRaised, escrowId := "e1" },
          .syncStateFromChain
            { eventType := .DisputeResolved, escrowId := "e1", resolution := some .REFUND }])).caseOf
      "e1").Agrees := by
  refine disputes_agree .bare _ _ coherent_bare (reliable_calmly _) "e1" ?_ ?_
  · decide
  · rintro (⟨-, ⟨hcloses, -⟩ | ⟨hprisma, -⟩⟩ | ⟨-, ⟨hcloses, -⟩ | ⟨hprisma, -⟩⟩ | hnone)
    · cases hcloses
    · cases hprisma
    · cases hcloses
    · cases hprisma
    · exact hnone

/-- From an empty database: an escrow is created, funded and disputed, and then the chain reports
it completed. The escrow is closed and its dispute stays open. -/
theorem dispute_left_open :
    ∃ ops : List (Op × (Nat → Choice)), ReliableRun ops ∧
      (runOps .bare (World.ofEscrows []) ops).caseOf "fresh" = ⟨some .COMPLETED, some .OPEN⟩ ∧
      ¬ ((runOps .bare (World.ofEscrows []) ops).caseOf "fresh").Agrees :=
  ⟨calmly
    [.createEscrow
        { itemName := "lamp", itemRef := "lamp-1", amount := ⟨1⟩, currency := "USDC",
          buyerAddress := "buyer" } "vendor",
      .syncStateFromChain { eventType := .EscrowFunded, escrowId := "fresh" },
      .openDispute "fresh" "buyer" ⟨"broken", "", none⟩,
      .syncStateFromChain { eventType := .EscrowCompleted, escrowId := "fresh" }],
    reliable_calmly _, by decide +kernel, by decide +kernel⟩

end TrustLink
