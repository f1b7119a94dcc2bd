import Mathlib.Algebra.BigOperators.Group.Finset.Basic
import Mathlib.Algebra.Order.BigOperators.Group.Finset
import TrustLink.Payments.Marks

/-!
# TrustLink — payment conservation

Does every operation fund at most one escrow, and is no more funded than was paid? Two mechanisms
are supposed to see to it: the processed table keeps a second delivery of an operation out, and
`handlePayment` checks amount and asset.

The table does its part. It is a lock (`Effects/Lock.lean`): a delivery owns its operation from
the mark on, and one that has funded an escrow owns it for good. `handlePayment` does not: its
loop does not stop at the first match, so one payment funds every pending escrow of the vendor
with that amount (`one_payment_funds_two`), and amounts that differ as decimals may be one number.
`payments_conserved` says that nothing else is wrong: in every interleaved run, with any failures
and redeliveries, in which each page that is read has at most one match and the match costs no
more than was paid, both halves of conservation hold.
-/

namespace TrustLink

open Effects StellarWebhookService

/-! ## What is counted -/

/-- The operation moved the escrow from `CREATED` to `FUNDED`. -/
structure Funding where
  operation : StellarWebhookDto
  escrowId : String
  deriving DecidableEq, Repr

def Funding.operationId (f : Funding) : String := f.operation.id

/-- The funding a move is, if it is one: an update that finds the escrow `CREATED` and leaves it
`FUNDED`. -/
def funding (D : Deployment) (P : Webhooks) : Move world Delivery → List Funding
  | .spawn _ => []
  | .step i ch =>
    match P.threads[i]? with
    | some ⟨label, _, .call (.db (.escrowUpdate id _)) _⟩ =>
      if P.state.stateOf id = some .CREATED ∧
          (Pool.next (Delivery.prog D) P (.step i ch)).state.stateOf id = some .FUNDED then
        [⟨label.dto, id⟩]
      else []
    | _ => []

/-- All the fundings of a run, oldest first. -/
def fundings (D : Deployment) (w : World) (ms : List (Move world Delivery)) : List Funding :=
  Pool.observe (Delivery.prog D) (funding D) ⟨w, []⟩ ms

/-- What an operation brings in, exactly: the amount of a payment, if it is a positive numeral. -/
def paid (dto : StellarWebhookDto) : ℚ :=
  if dto.kind = "payment" then
    match dto.amount.map JsNumber.parse with
    | some (.exact q) => max q 0
    | _ => 0
  else 0

theorem paid_nonneg (dto : StellarWebhookDto) : 0 ≤ paid dto := by
  unfold paid
  split
  · split
    · exact le_max_right _ _
    · exact le_rfl
  · exact le_rfl

/-- The operations that were delivered, each once. -/
def received (P : Webhooks) : Finset StellarWebhookDto := (P.threads.map (·.label.dto)).toFinset

/-- The asset of an escrow. -/
def World.assetOf (D : Deployment) (w : World) (id : String) : Option String :=
  (w.db.escrows.get id).map fun row => D.toUpperCase row.currency

/-- The exact amount of an escrow. -/
def World.amountOf (w : World) (id : String) : ℚ :=
  (w.db.escrows.get id).elim 0 fun row => row.amount.toRat

/-- The page of escrows a move reads: the payment it is read for, and its matches. -/
def pageRead (D : Deployment) (P : Webhooks) :
    Move world Delivery → Option (StellarWebhookDto × List EscrowRow)
  | .spawn _ => none
  | .step i ch =>
    match P.threads[i]? with
    | some ⟨label, _, .call (.db (.escrowFindByVendor destination take)) _⟩ =>
      some (label.dto, matching D label.dto (P.state.db.findByVendor ch.tie destination take))
    | _ => none

/-- A page that is read has at most one match, which costs no more than was paid. -/
def SoleMatch (D : Deployment) (P : Webhooks) (m : Move world Delivery) : Prop :=
  ∀ page ∈ pageRead D P m,
    page.2.length ≤ 1 ∧ ∀ row ∈ page.2, row.amount.toRat ≤ paid page.1

instance (D : Deployment) (P : Webhooks) (m : Move world Delivery) : Decidable (SoleMatch D P m) :=
  inferInstanceAs (Decidable (∀ page ∈ pageRead D P m, _))

/-! ## What a funding is worth -/

/-- The escrow is in the payment's asset and costs no more than was paid. -/
def Covers (D : Deployment) (w : World) (operation : StellarWebhookDto) (id : String) : Prop :=
  ∃ row, w.db.escrows.get id = some row ∧ D.toUpperCase row.currency = receivedAsset D operation ∧
    row.amount.toRat ≤ paid operation

/-- There is at most one match, and none after a funding. -/
def Visit.Single (v : Visit) : Prop := v.left.length ≤ 1 ∧ (v.funded = true → v.left = [])

section step

variable {D : Deployment} {v : Visit} {c : Call} {w : World} {ch : Choice}
  {operation : StellarWebhookDto}

/-- A delivery that has funded its only match makes no call that changes anything: it does not
unmark, and has nothing left to fund. -/
theorem Visit.next_of_funded {r : Except Err c.Resp} (hok : v.ok c) (hsingle : v.Single)
    (hmarked : v.phase = .marked) (hfunded : v.funded = true) : v.next D c r = v := by
  have hleft := hsingle.2 hfunded
  unfold Visit.next
  split
  · obtain ⟨_, hunmarked⟩ := hok
    rw [hmarked] at hunmarked
    cases hunmarked
  · obtain ⟨_, hunfunded⟩ := hok
    rw [hfunded] at hunfunded
    cases hunfunded
  · obtain ⟨_, _, row, hrow, _⟩ := hok
    rw [hleft] at hrow
    cases hrow
  · exact absurd hleft (hok.2.2 hfunded)
  · exact absurd hleft (hok.2.2 hfunded)
  · rfl

/-- Currency and amount of an escrow never change. -/
theorem covers_handle {id : String} (h : Covers D w operation id) :
    Covers D (handle ch c w).2 operation id := by
  obtain ⟨row, hrow, hasset, hamount⟩ := h
  have hchange := handle_escrow ch w c id
  unfold Covers
  generalize (handle ch c w).2.db.escrows.get id = after at hchange ⊢
  cases hchange with
  | same => exact ⟨row, hrow, hasset, hamount⟩
  | updated data row' hc hrow' =>
    obtain rfl : row = row' := Option.some.inj (hrow.symm.trans hrow')
    exact ⟨_, rfl, hasset, hamount⟩
  | claimed t row' hc hrow' hfree =>
    obtain rfl : row = row' := Option.some.inj (hrow.symm.trans hrow')
    exact ⟨_, rfl, hasset, hamount⟩
  | created dto vendorAddress hc hnone =>
    rw [hrow] at hnone
    cases hnone

/-- A delivery writes no state but `FUNDED`. -/
theorem stateOf_funded_handle {id : String} (hok : v.ok c) (h : w.stateOf id = some .FUNDED) :
    (handle ch c w).2.stateOf id = some .FUNDED := by
  have hchange := handle_escrow ch w c id
  unfold World.stateOf at h ⊢
  generalize (handle ch c w).2.db.escrows.get id = after at hchange ⊢
  cases hchange with
  | same => exact h
  | updated data row hc hrow =>
    subst hc
    rw [hok.1]
    rfl
  | claimed t row hc hrow hfree =>
    subst hc
    exact False.elim hok
  | created dto vendorAddress hc hnone =>
    subst hc
    exact False.elim hok

end step

/-! ## Whole runs

Each funding is covered by a payment of its own, and the sums follow. -/

/-- What the deliveries, the tables and the fundings so far have to do with each other. -/
structure Conserved (D : Deployment) (F : List Funding) (P : Webhooks) : Prop where
  exclusive : (visit D).Exclusive (M := world) Visit.Owns Marked P
  single : ∀ t ∈ P.threads, ((visit D).view t).Single
  /-- A match that is still to be funded is paid for. -/
  prospects : ∀ t ∈ P.threads, ∀ row ∈ ((visit D).view t).left,
    Covers D P.state t.label.dto row.id
  /-- A funding was made by a delivery that still has its mark, and is paid for. -/
  funded : ∀ f ∈ F, (∃ t ∈ P.threads, t.label.dto = f.operation ∧
      ((visit D).view t).phase = .marked ∧ ((visit D).view t).funded = true) ∧
    Covers D P.state f.operation f.escrowId ∧ P.state.stateOf f.escrowId = some .FUNDED
  once : (F.map (·.operationId)).Nodup
  distinct : (F.map (·.escrowId)).Nodup

section run

variable {D : Deployment} {F : List Funding} {P : Webhooks} {i : Nat} {ch : Choice}
  {t : Thread backend Delivery} {c : Call} {k : Except Err c.Resp → App Unit}

/-- A completed call is a funding or is none. -/
theorem funding_cases (D : Deployment) (ch : Choice) (ht : P.threads[i]? = some t)
    (hr : t.rest = .call c k) :
    funding D P (.step i ch) = [] ∨
    ∃ id data, c = .db (.escrowUpdate id data) ∧
      funding D P (.step i ch) = [⟨t.label.dto, id⟩] ∧
      P.state.stateOf id = some .CREATED ∧
      (handle ch c P.state).2.stateOf id = some .FUNDED := by
  have hnext := Pool.next_step (Delivery.prog D) ch ht hr
  obtain ⟨label, past, rest⟩ := t
  have hr : rest = .call c k := hr
  subst hr
  simp only [funding, ht]
  split
  · next label' past' id data k' heq =>
    cases heq
    split
    · next hmoved =>
      refine .inr ⟨id, data, rfl, rfl, hmoved.1, ?_⟩
      rw [hnext] at hmoved
      exact hmoved.2
    · exact .inl rfl
  · exact .inl rfl

/-- What the condition says about a read. -/
theorem soleMatch_page {destination : String} {take : Nat}
    {k : Except Err (List EscrowRow) → App Unit} (hK : SoleMatch D P (.step i ch))
    (ht : P.threads[i]? = some t) (hr : t.rest = .call (.db (.escrowFindByVendor destination take)) k) :
    let rows := matching D t.label.dto (P.state.db.findByVendor ch.tie destination take)
    rows.length ≤ 1 ∧ ∀ row ∈ rows, row.amount.toRat ≤ paid t.label.dto := by
  obtain ⟨label, past, rest⟩ := t
  subst hr
  refine hK (label.dto, _) ?_
  simp only [pageRead, ht]
  rfl

/-- A row that a payment matches has the asset of the payment. -/
theorem asset_of_matching {dto : StellarWebhookDto} {rows : List EscrowRow} {row : EscrowRow}
    (h : row ∈ matching D dto rows) : D.toUpperCase row.currency = receivedAsset D dto := by
  have hfundable := (List.mem_filter.mp h).2
  simp only [fundable, Bool.and_eq_true] at hfundable
  exact (of_decide_eq_true hfundable.2).symm

/-- A call leaves at most one match, and none after a funding; a match that is left was left before
or has just been read, and is paid for. -/
theorem single_next (hK : SoleMatch D P (.step i ch)) (ht : P.threads[i]? = some t)
    (hr : t.rest = .call c k) (hok : ((visit D).view t).ok c)
    (hsingle : ((visit D).view t).Single) :
    (((visit D).view t).next D c (handle ch c P.state).1).Single ∧
      ∀ row ∈ (((visit D).view t).next D c (handle ch c P.state).1).left,
        row ∈ ((visit D).view t).left ∨ Covers D P.state t.label.dto row.id := by
  cases c with
  | db c =>
    cases c with
    | escrowFindByVendor destination take =>
      rcases handle_findByVendor ch P.state destination take with ⟨e, heq⟩ | heq
      · rw [heq]
        exact ⟨hsingle, fun row => .inl⟩
      · rw [heq]
        have hdto := view_dto D t
        obtain ⟨hlength, hamount⟩ := soleMatch_page hK ht hr
        rw [← hdto] at hlength hamount
        refine ⟨⟨hlength, fun hfunded => ?_⟩, fun row hrow => .inr ?_⟩
        · exact absurd (hok.2.symm.trans hfunded) Bool.false_ne_true
        · rw [← hdto]
          exact ⟨row, (Db.mem_findByVendor (List.mem_filter.mp hrow).1).1, asset_of_matching hrow,
            hamount row hrow⟩
    | escrowUpdate id data =>
      rcases handle_escrowUpdate ch P.state id data with ⟨e, heq⟩ | ⟨_, _, _, heq⟩
      · rw [heq]
        exact ⟨hsingle, fun row => .inl⟩
      · rw [heq]
        -- the only match has just been funded
        have hnone : ((visit D).view t).left.tail.length = 0 := by
          rw [List.length_tail]
          exact Nat.sub_eq_zero_of_le hsingle.1
        exact ⟨⟨hnone.trans_le (Nat.zero_le 1), fun _ => List.eq_nil_of_length_eq_zero hnone⟩,
          fun row hrow => .inl (List.mem_of_mem_tail hrow)⟩
    | processedCreate operationId =>
      rcases handle_processedCreate ch P.state operationId with ⟨e, heq⟩ | ⟨_, heq⟩ <;>
        rw [heq] <;> exact ⟨hsingle, fun row => .inl⟩
    | processedDelete operationId =>
      rcases handle_processedDelete ch P.state operationId with ⟨e, heq⟩ | heq <;>
        rw [heq] <;> exact ⟨hsingle, fun row => .inl⟩
    | _ => exact ⟨hsingle, fun row => .inl⟩
  | _ => exact ⟨hsingle, fun row => .inl⟩

/-- An old funding stays paid for and remembered. -/
theorem funded_step (hok : ((visit D).view t).ok c) (ht : P.threads[i]? = some t)
    (h : Conserved D F P) {f : Funding} (hf : f ∈ F) :
    (∃ t' ∈ (P.advance i t c k ch).threads, t'.label.dto = f.operation ∧
      ((visit D).view t').phase = .marked ∧ ((visit D).view t').funded = true) ∧
    Covers D (handle ch c P.state).2 f.operation f.escrowId ∧
    (handle ch c P.state).2.stateOf f.escrowId = some .FUNDED := by
  obtain ⟨hsome, hcovers, hstate⟩ := h.funded f hf
  refine ⟨?_, covers_handle hcovers, stateOf_funded_handle hok hstate⟩
  refine Pool.exists_advance ht ?_ hsome
  rintro ⟨hlabel, hmarked, hfunded⟩
  refine ⟨hlabel, ?_⟩
  have hsame : (visit D).next ((visit D).view t) c (handle ch c P.state).1 = (visit D).view t :=
    Visit.next_of_funded hok (h.single t (List.mem_of_getElem? ht)) hmarked hfunded
  show ((visit D).next ((visit D).view t) c (handle ch c P.state).1).phase = _ ∧
    ((visit D).next ((visit D).view t) c (handle ch c P.state).1).funded = _
  rw [hsame]
  exact ⟨hmarked, hfunded⟩

/-- A new funding: the delivery held the mark, so no other delivery of the operation has funded
anything, and the escrow was not funded before. -/
theorem conserved_funding {id : String} {data : EscrowData} {k : Except Err EscrowRow → App Unit}
    (hok : ((visit D).view t).ok (.db (.escrowUpdate id data))) (ht : P.threads[i]? = some t)
    (h : Conserved D F P) (hbefore : P.state.stateOf id = some .CREATED)
    (hafter : (handle ch (.db (.escrowUpdate id data)) P.state).2.stateOf id = some .FUNDED) :
    (∃ t' ∈ (P.advance i t (.db (.escrowUpdate id data)) k ch).threads,
        t'.label.dto = t.label.dto ∧ ((visit D).view t').phase = .marked ∧
          ((visit D).view t').funded = true) ∧
      Covers D (handle ch (.db (.escrowUpdate id data)) P.state).2 t.label.dto id ∧
      t.label.dto.id ∉ F.map (·.operationId) ∧ id ∉ F.map (·.escrowId) := by
  obtain ⟨_, hmarked, row, hrow, rfl⟩ := hok
  have hmem := List.mem_of_getElem? ht
  have hrow : row ∈ ((visit D).view t).left := List.mem_of_mem_head? hrow
  refine ⟨⟨_, Pool.mover_mem ht, rfl, ?_⟩, ?_, ?_, ?_⟩
  · -- a rejected update would have left the escrow `CREATED`
    show (((visit D).view t).next D _
        (handle ch (.db (.escrowUpdate row.id data)) P.state).1).phase = .marked ∧
      (((visit D).view t).next D _
        (handle ch (.db (.escrowUpdate row.id data)) P.state).1).funded = true
    rcases handle_escrowUpdate ch P.state row.id data with ⟨e, heq⟩ | ⟨_, _, _, heq⟩
    · rw [heq, hbefore] at hafter
      cases hafter
    · rw [heq]
      exact ⟨hmarked, rfl⟩
  · exact covers_handle (h.prospects t hmem row hrow)
  · intro hin
    obtain ⟨f, hf, hid⟩ := List.mem_map.mp hin
    obtain ⟨⟨t', ht', hlabel, hmarked', hfunded⟩, _⟩ := h.funded f hf
    obtain ⟨j, hj⟩ := List.mem_iff_getElem?.mp ht'
    have hown : ((visit D).view t).Owns f.operationId := by
      refine ⟨?_, .inl hmarked⟩
      rw [view_dto, hid]
    have hown' : ((visit D).view t').Owns f.operationId := by
      refine ⟨?_, .inl hmarked'⟩
      rw [view_dto, hlabel]
      rfl
    have hsame : j = i := h.exclusive.unique j i t' t f.operationId hj ht hown' hown
    rw [hsame, ht] at hj
    rw [← Option.some.inj hj] at hfunded
    rw [(h.single t hmem).2 hfunded] at hrow
    cases hrow
  · intro hin
    obtain ⟨f, hf, hid⟩ := List.mem_map.mp hin
    have hfunded := (h.funded f hf).2.2
    rw [hid, hbefore] at hfunded
    cases hfunded

/-- One call keeps the books. -/
theorem conserved_advance (hK : SoleMatch D P (.step i ch))
    (hok : ((visit D).view t).ok c) (ht : P.threads[i]? = some t) (hr : t.rest = .call c k)
    (h : Conserved D F P) :
    Conserved D (F ++ funding D P (.step i ch)) (P.advance i t c k ch) := by
  have hmem := List.mem_of_getElem? ht
  obtain ⟨hmover, hleft⟩ := single_next hK ht hr hok (h.single t hmem)
  have hexclusive : (visit D).Exclusive (M := world) Visit.Owns Marked (P.advance i t c k ch) :=
    Monitor.exclusive_advance
      (fun operationId => lockStep_visit hok (h.exclusive.locked t hmem operationId)) ht h.exclusive
  have hsingle : ∀ t' ∈ (P.advance i t c k ch).threads, ((visit D).view t').Single := by
    intro t' ht'
    rcases Pool.mem_advance ht' with rfl | hold
    · exact hmover
    · exact h.single t' hold
  have hprospects : ∀ t' ∈ (P.advance i t c k ch).threads, ∀ row ∈ ((visit D).view t').left,
      Covers D (handle ch c P.state).2 t'.label.dto row.id := by
    intro t' ht' row hrow
    rcases Pool.mem_advance ht' with rfl | hold
    · rcases hleft row hrow with hbefore | hread
      · exact covers_handle (h.prospects t hmem row hbefore)
      · exact covers_handle hread
    · exact covers_handle (h.prospects t' hold row hrow)
  rcases funding_cases D ch ht hr with hnone | ⟨id, data, rfl, hone, hbefore, hafter⟩
  · rw [hnone, List.append_nil]
    exact ⟨hexclusive, hsingle, hprospects, fun f hf => funded_step hok ht h hf, h.once, h.distinct⟩
  · rw [hone]
    obtain ⟨hmade, hcovers, hnewOperation, hnewEscrow⟩ :=
      conserved_funding (k := k) hok ht h hbefore hafter
    refine ⟨hexclusive, hsingle, hprospects, ?_, ?_, ?_⟩
    · intro f hf
      rcases List.mem_append.mp hf with hold | hnew
      · exact funded_step hok ht h hold
      · rw [List.mem_singleton.mp hnew]
        exact ⟨hmade, hcovers, hafter⟩
    · rw [List.map_append, List.map_singleton, ← List.concat_eq_append]
      exact (List.nodup_concat _ _).mpr ⟨hnewOperation, h.once⟩
    · rw [List.map_append, List.map_singleton, ← List.concat_eq_append]
      exact (List.nodup_concat _ _).mpr ⟨hnewEscrow, h.distinct⟩

end run

/-- Every run whose pages have at most one match. -/
theorem conserved_run (D : Deployment) (w : World) (ms : List (Move world Delivery))
    (hrun : Pool.Admissible (Delivery.prog D) (SoleMatch D) ⟨w, []⟩ ms) :
    Conserved D (fundings D w ms) (deliver D w ms) := by
  refine ((visit D).run_settles (Q := fun _ => Visit.Ended) (funding D) (I := Conserved D) ?_ ?_ ?_
    ms ⟨w, []⟩ [] hrun ((visit D).settles_nil (M := world) w) ?_).2
  · -- a move that changes nothing funds nothing
    intro P mv F hsame h
    have hnone : funding D P mv = [] := by
      unfold funding
      split
      · rfl
      · split
        · split
          · next hmoved =>
            rw [hsame, hmoved.1] at hmoved
            exact absurd hmoved.2 (by decide)
          · rfl
        · rfl
    rw [hnone, List.append_nil]
    exact h
  · intro P l F _ h
    refine ⟨Visit.wp_delivery D l, ?_⟩
    rw [show funding D P (.spawn l) = [] from rfl, List.append_nil]
    refine ⟨Monitor.exclusive_spawn ?_ h.exclusive, ?_, ?_, ?_, h.once, h.distinct⟩
    · rintro operationId ⟨_, hphase | hphase⟩ <;> cases hphase
    · intro t ht
      rcases Pool.mem_spawn ht with hold | rfl
      · exact h.single t hold
      · exact ⟨Nat.zero_le 1, fun _ => rfl⟩
    · intro t ht row hrow
      rcases Pool.mem_spawn ht with hold | rfl
      · exact h.prospects t hold row hrow
      · cases hrow
    · intro f hf
      obtain ⟨⟨t, ht, hmade⟩, hworth⟩ := h.funded f hf
      exact ⟨⟨t, List.mem_append_left _ ht, hmade⟩, hworth⟩
  · intro P i ch t c k F hK h _ ht hr hok
    exact ⟨Visit.answered_handle ch c P.state, conserved_advance hK hok ht hr h⟩
  · exact ⟨Monitor.exclusive_nil (M := world) w, nofun, nofun, nofun, List.nodup_nil,
      List.nodup_nil⟩

/-- The total of what was funded in an asset. -/
def fundedTotal (D : Deployment) (w : World) (F : List Funding) (asset : String) : ℚ :=
  ((F.filter fun f => w.assetOf D f.escrowId = some asset).map fun f => w.amountOf f.escrowId).sum

/-- The total of the distinct payments received in an asset. -/
def paidTotal (D : Deployment) (P : Webhooks) (asset : String) : ℚ :=
  ∑ operation ∈ (received P).filter fun o => receivedAsset D o = asset, paid operation

/-- Distinct operations pay for the fundings they are charged with, so the sums compare. -/
theorem fundedTotal_le {D : Deployment} {F : List Funding} {P : Webhooks} (h : Conserved D F P)
    (asset : String) : fundedTotal D P.state F asset ≤ paidTotal D P asset := by
  have hworth : ∀ f ∈ F.filter fun f => P.state.assetOf D f.escrowId = some asset,
      f.operation ∈ received P ∧ receivedAsset D f.operation = asset ∧
        P.state.amountOf f.escrowId ≤ paid f.operation := by
    intro f hf
    obtain ⟨hmem, hasset⟩ := List.mem_filter.mp hf
    obtain ⟨⟨t, ht, hlabel, _⟩, ⟨row, hrow, hcurrency, hamount⟩, _⟩ := h.funded f hmem
    have hasset : P.state.assetOf D f.escrowId = some asset := of_decide_eq_true hasset
    rw [World.assetOf, hrow] at hasset
    rw [World.amountOf, hrow]
    exact ⟨List.mem_toFinset.mpr (List.mem_map.mpr ⟨t, ht, hlabel⟩),
      hcurrency.symm.trans (Option.some.inj hasset), hamount⟩
  have hdistinct : ((F.filter fun f => P.state.assetOf D f.escrowId = some asset).map
      (·.operation)).Nodup := by
    have honce : ((F.map (·.operation)).map (·.id)).Nodup := by
      rw [List.map_map]
      exact h.once
    exact List.Nodup.sublist (List.Sublist.map _ List.filter_sublist) honce.of_map
  unfold fundedTotal paidTotal
  generalize F.filter (fun f => P.state.assetOf D f.escrowId = some asset) = G at *
  calc (G.map fun f => P.state.amountOf f.escrowId).sum
      ≤ (G.map fun f => paid f.operation).sum := List.sum_le_sum fun f hf => (hworth f hf).2.2
    _ = ((G.map (·.operation)).map paid).sum := by
        rw [List.map_map]
        rfl
    _ = ∑ o ∈ (G.map (·.operation)).toFinset, paid o := (List.sum_toFinset _ hdistinct).symm
    _ ≤ _ := by
        refine Finset.sum_le_sum_of_subset_of_nonneg ?_ fun o _ _ => paid_nonneg _
        intro o ho
        obtain ⟨f, hf, rfl⟩ := List.mem_map.mp (List.mem_toFinset.mp ho)
        exact Finset.mem_filter.mpr ⟨(hworth f hf).1, (hworth f hf).2.1⟩

/-- In every run of deliveries whose pages have at most one match, which costs no more than was
paid: no operation funds two escrows, and no more is funded in an asset than was paid in it. -/
theorem payments_conserved (D : Deployment) (w : World) (ms : List (Move world Delivery))
    (hrun : Pool.Admissible (Delivery.prog D) (SoleMatch D) ⟨w, []⟩ ms) :
    ((fundings D w ms).map (·.operationId)).Nodup ∧
    ((fundings D w ms).map (·.escrowId)).Nodup ∧
    ∀ asset, fundedTotal D (deliver D w ms).state (fundings D w ms) asset
      ≤ paidTotal D (deliver D w ms) asset := by
  have hconserved := conserved_run D w ms hrun
  exact ⟨hconserved.once, hconserved.distinct, fundedTotal_le hconserved⟩

/-- One payment, one pending escrow; the operation is delivered a second time. -/
theorem payments_conserved_one_lamp :
    let w := World.ofEscrows [Db.lampEscrow .CREATED]
    let ms : List (Move world Delivery) :=
      .spawn (.processOperationDto lampPayment) :: List.replicate 5 (.step 0 .calm) ++
        [.spawn (.processOperationDto lampPayment), .step 1 .calm]
    fundings .bare w ms = [⟨lampPayment, "e1"⟩] ∧
    fundedTotal .bare (deliver .bare w ms).state (fundings .bare w ms) "USDC"
      ≤ paidTotal .bare (deliver .bare w ms) "USDC" := by
  refine ⟨by decide +kernel, (payments_conserved .bare _ _ ?_).2.2 "USDC"⟩
  decide +kernel

/-- One payment, two pending escrows of the same amount: both are funded. -/
theorem one_payment_funds_two :
    ∃ (w : World) (ms : List (Move world Delivery)),
      fundings .bare w ms = [⟨lampPayment, "e2"⟩, ⟨lampPayment, "e1"⟩] ∧
      paidTotal .bare (deliver .bare w ms) "USDC"
        < fundedTotal .bare (deliver .bare w ms).state (fundings .bare w ms) "USDC" :=
  ⟨World.ofEscrows [Db.lampEscrow .CREATED,
      { Db.lampEscrow .CREATED with id := "e2", itemRef := "lamp-2" }],
    .spawn (.processOperationDto lampPayment) :: List.replicate 7 (.step 0 .calm),
    by decide +kernel, by decide +kernel⟩

/-- Nor does the comparison of numbers see every difference between decimals. -/
example : JsNumber.strictEq (JsNumber.ofString "9999999999.9999999")
    (JsNumber.ofRat (Decimal.toRat ⟨999999999999999999⟩)) = true := by
  decide +kernel

end TrustLink
