import TrustLink.Lifecycle.Sequential
import TrustLink.Payments.Delivery

/-!
# TrustLink — which payments find their escrow

`handlePayment` reads the escrows of the destination, keeps the pending ones and funds those whose
amount and asset the payment has. Two filters stand between the table and the loop. The comparison
is made on JavaScript numbers, which loses nothing here: amounts that are equal as decimals are
equal as numbers. The query is the first page of a list, newest first, and that does lose
something: an escrow with twenty newer ones is never looked at, and the payment for it is dropped
without an error.

`payment_funded_iff` says that nothing else is lost: a payment that is handled without an error
has funded one of the escrows it is for if and only if one of them was on the page.
-/

namespace TrustLink

open Effects StellarWebhookService

/-- The payment is for this escrow: addressed to its vendor, while it is pending, with exactly its
amount and, up to case, its asset. -/
def Pays (D : Deployment) (dto : StellarWebhookDto) (row : EscrowRow) : Prop :=
  dto.to_ = some row.vendorAddress ∧ row.state = .CREATED ∧
    dto.amount.map JsNumber.parse = some (.exact row.amount.toRat) ∧
    D.toUpperCase (dto.asset_code.getD "XLM") = D.toUpperCase row.currency

instance (D : Deployment) (dto : StellarWebhookDto) (row : EscrowRow) :
    Decidable (Pays D dto row) :=
  inferInstanceAs (Decidable (_ ∧ _))

variable {D : Deployment} {dto : StellarWebhookDto} {w w' : World}

/-- Amounts that are equal as decimals pass the comparison of numbers. -/
theorem amountMatches_of_pays {row : EscrowRow} (h : Pays D dto row) :
    amountMatches dto (toEscrowRecord row) = true := by
  obtain ⟨_, _, hamount, _⟩ := h
  obtain ⟨text, htext, hparse⟩ := Option.map_eq_some_iff.mp hamount
  have hreceived : receivedAmount dto = JsNumber.ofRat row.amount.toRat := by
    simp only [receivedAmount, htext, JsNumber.ofString, hparse]
  have hexpected : (toEscrowRecord row).amount = JsNumber.ofRat row.amount.toRat := rfl
  rw [amountMatches, hreceived, hexpected]
  exact JsNumber.strictEq_ofRat_self _

theorem assetMatches_of_pays {row : EscrowRow} (h : Pays D dto row) :
    assetMatches D dto (toEscrowRecord row) = true :=
  decide_eq_true h.2.2.2

/-! ## The loop -/

/-- What the loop over `escrows` has made of the tables when it ends without an error. -/
structure PaidOut (D : Deployment) (dto : StellarWebhookDto) (escrows : List EscrowRecord)
    (w w' : World) : Prop where
  funded : ∀ escrow ∈ escrows, amountMatches dto escrow = true →
    assetMatches D dto escrow = true → w'.stateOf escrow.id = some .FUNDED
  /-- Every write of the loop funds, so a funded escrow stays funded. -/
  kept : ∀ id, w.stateOf id = some .FUNDED → w'.stateOf id = some .FUNDED
  frame : ∀ id, (∀ escrow ∈ escrows, escrow.id ≠ id) → w'.stateOf id = w.stateOf id

theorem PaidOut.nil : PaidOut D dto [] w w where
  funded _ h := nomatch h
  kept _ h := h
  frame _ _ := rfl

/-- An iteration that skips its escrow. -/
theorem PaidOut.skipped {escrow : EscrowRecord} {escrows : List EscrowRecord}
    (hskip : amountMatches dto escrow = false ∨ assetMatches D dto escrow = false)
    (h : PaidOut D dto escrows w w') : PaidOut D dto (escrow :: escrows) w w' where
  funded := by
    intro e he hamount hasset
    rcases List.mem_cons.mp he with rfl | he
    · rcases hskip with hskip | hskip
      · rw [hskip] at hamount
        cases hamount
      · rw [hskip] at hasset
        cases hasset
    · exact h.funded e he hamount hasset
  kept := h.kept
  frame id hid := h.frame id fun e he => hid e (List.mem_cons_of_mem _ he)

/-- An iteration that funds its escrow. -/
theorem PaidOut.cons {escrow : EscrowRecord} {escrows : List EscrowRecord} {w₁ : World}
    (hstate : ∀ id, w₁.stateOf id = if id = escrow.id then some .FUNDED else w.stateOf id)
    (h : PaidOut D dto escrows w₁ w') : PaidOut D dto (escrow :: escrows) w w' where
  funded := by
    intro e he hamount hasset
    rcases List.mem_cons.mp he with rfl | he
    · apply h.kept
      rw [hstate, if_pos rfl]
    · exact h.funded e he hamount hasset
  kept := by
    intro id hid
    apply h.kept
    rw [hstate]
    split
    · rfl
    · exact hid
  frame := by
    intro id hid
    have hne : id ≠ escrow.id := fun heq => hid escrow List.mem_cons_self heq.symm
    rw [h.frame id fun e he => hid e (List.mem_cons_of_mem _ he), hstate, if_neg hne]

/-- Funding an escrow: a rejected write ends the loop with an error. -/
theorem wp_fund_match {escrow : EscrowRecord} {Q : Except Err PUnit → World → Prop}
    (hmatch : amountMatches dto escrow = true ∧ assetMatches D dto escrow = true)
    (hfail : ∀ e, Q (.error e) w)
    (h : ∀ w₁, (∀ id, w₁.stateOf id = if id = escrow.id then some .FUNDED else w.stateOf id) →
      Q (.ok ⟨⟩) w₁) :
    (fund D dto escrow).wp (alone fun _ => True) Q w := by
  rw [fund, if_neg (by simp [hmatch.1]), if_neg (by simp [hmatch.2])]
  rw [wp_bind, EscrowRepository.updateState, EscrowRepository.update, wp_bind,
    wp_handle_db]
  intro ch _
  rcases handle_escrowUpdate ch w escrow.id { state := some .FUNDED } with
    ⟨e, heq⟩ | ⟨_, row, hrow, heq⟩
  · rw [heq]
    exact hfail e
  · rw [heq]
    -- the eviction and the notification touch no row
    have hafter : ∀ w₁ : World,
        w₁.db = (w.updated row { state := some .FUNDED } ch.now).db → ∀ id,
        w₁.stateOf id = if id = escrow.id then some .FUNDED else w.stateOf id := by
      intro w₁ hdb id
      rw [World.stateOf, hdb]
      show ((w.db.putEscrow _).escrows.get id).map (·.state) = _
      rw [putEscrow_get, EscrowRow.update_id, get_id hrow]
      split
      · rfl
      · rfl
    dsimp only
    rw [wp_bind, EscrowRepository.invalidate, wp_ite]
    constructor
    · intro _
      rw [wp_handle_cache]
      intro ch₁ _
      refine (wp_machine_perform (M := world)).mpr fun ch₂ _ => ?_
      exact h _ (hafter _ rfl)
    · intro _
      refine (wp_machine_perform (M := world)).mpr fun ch₂ _ => ?_
      exact h _ (hafter _ rfl)

theorem wp_fund_all (escrows : List EscrowRecord) (w : World) :
    (forM escrows (fund D dto)).wp (alone fun _ => True)
      (fun r w' => r = .ok ⟨⟩ → PaidOut D dto escrows w w') w := by
  induction escrows generalizing w with
  | nil => exact fun _ => PaidOut.nil
  | cons escrow escrows ih =>
    rw [List.forM_cons, wp_bind]
    by_cases hmatch : amountMatches dto escrow = true ∧ assetMatches D dto escrow = true
    · apply wp_fund_match hmatch
      · intro e herror
        cases herror
      · intro w₁ hstate
        apply wp_mono (ih w₁)
        intro r w' hpaid hok
        exact PaidOut.cons hstate (hpaid hok)
    · have hskip : amountMatches dto escrow = false ∨ assetMatches D dto escrow = false := by
        rw [not_and_or, Bool.not_eq_true, Bool.not_eq_true] at hmatch
        exact hmatch
      have hfund : fund D dto escrow = pure ⟨⟩ := by
        unfold fund
        rcases hskip with hskip | hskip
        · rw [if_pos hskip]
        · split <;> rfl
      rw [hfund]
      apply wp_mono (ih w)
      intro r w' hpaid hok
      exact PaidOut.skipped hskip (hpaid hok)

/-! ## The payment -/

/-- The escrows of a page that are still awaiting payment. -/
def pendingOf (page : List EscrowRow) : List EscrowRecord :=
  (page.map toEscrowRecord).filter (·.state = .CREATED)

theorem mem_pendingOf {page : List EscrowRow} {row : EscrowRow} (hrow : row ∈ page)
    (hstate : row.state = .CREATED) : toEscrowRecord row ∈ pendingOf page :=
  List.mem_filter.mpr ⟨List.mem_map.mpr ⟨row, hrow, rfl⟩, decide_eq_true hstate⟩

/-- The query: rejected, or the vendor's newest escrows as they are stored. -/
theorem exec_findByVendor (env : Nat → Choice) (w : World) (vendor : String) :
    (∃ e, (EscrowRepository.findByVendor vendor).exec world env w = (.error e, w)) ∨
    (EscrowRepository.findByVendor vendor).exec world env w =
      (.ok ((w.db.findByVendor (env 0).tie vendor 20).map toEscrowRecord), w) := by
  rcases handle_findByVendor (env 0) w vendor 20 with ⟨e, heq⟩ | heq
  · have hread : (db (.escrowFindByVendor vendor 20)).exec world env w = (.error e, w) := heq
    exact .inl ⟨e, exec_bind_error hread⟩
  · have hread : (db (.escrowFindByVendor vendor 20)).exec world env w =
        (.ok (w.db.findByVendor (env 0).tie vendor 20), w) := heq
    exact .inr (exec_bind_ok hread)

/-- A payment that is handled without an error has paid out to the page it read. -/
theorem paidOut_of_ok {env : Nat → Choice} {vendor : String} (hto : dto.to_ = some vendor)
    (hok : ((handlePayment D dto).exec world env w).1 = .ok ()) :
    PaidOut D dto (pendingOf (w.db.findByVendor (env 0).tie vendor 20)) w
      ((handlePayment D dto).exec world env w).2 := by
  unfold handlePayment at hok ⊢
  rw [hto] at hok ⊢
  by_cases hempty : vendor = ""
  · rw [show truthy (some vendor) = none from if_pos hempty] at hok
    cases hok
  · rw [show truthy (some vendor) = some vendor from if_neg hempty] at hok ⊢
    dsimp only at hok ⊢
    rcases exec_findByVendor env w vendor with ⟨e, hread⟩ | hread
    · rw [exec_bind_error hread] at hok
      cases hok
    · rw [exec_bind_ok hread] at hok ⊢
      exact exec_of_wp_any (M := world) (wp_fund_all _ w) _ hok

/-- A payment handled without an error has funded one of the escrows it is for exactly when one of
them is among the vendor's twenty newest escrows, those the query returns. -/
theorem payment_funded_iff (D : Deployment) (dto : StellarWebhookDto) (w : World)
    (env : Nat → Choice) (vendor : String) (hto : dto.to_ = some vendor)
    (hok : ((handlePayment D dto).exec world env w).1 = .ok ()) :
    (∃ row ∈ w.db.escrows.rows, Pays D dto row ∧
        ((handlePayment D dto).exec world env w).2.stateOf row.id = some .FUNDED) ↔
      ∃ row ∈ w.db.findByVendor (env 0).tie vendor 20, Pays D dto row := by
  have hpaid := paidOut_of_ok hto hok
  constructor
  · rintro ⟨row, hrow, hpays, hfunded⟩
    have hget : w.db.escrows.get row.id = some row := w.db.escrows.mem_rows_iff.mp hrow
    -- its state has changed, so the loop wrote it: it is on the page
    have hwritten : ¬ ∀ e ∈ pendingOf (w.db.findByVendor (env 0).tie vendor 20), e.id ≠ row.id := by
      intro hnone
      have hsame := hpaid.frame row.id hnone
      rw [hfunded, World.stateOf, hget, Option.map_some, hpays.2.1] at hsame
      cases hsame
    push Not at hwritten
    obtain ⟨e, he, hid⟩ := hwritten
    obtain ⟨row', hrow', rfl⟩ := List.mem_map.mp (List.mem_filter.mp he).1
    have hid : row'.id = row.id := hid
    have hget' := (Db.mem_findByVendor hrow').1
    rw [hid, hget] at hget'
    cases hget'
    exact ⟨row, hrow', hpays⟩
  · rintro ⟨row, hrow, hpays⟩
    refine ⟨row, w.db.escrows.mem_rows_iff.mpr (Db.mem_findByVendor hrow).1, hpays, ?_⟩
    exact hpaid.funded _ (mem_pendingOf hrow hpays.2.1) (amountMatches_of_pays hpays)
      (assetMatches_of_pays hpays)

/-- The lamp is the vendor's only escrow, and its payment funds it. -/
theorem lone_lamp_funded :
    let w := World.ofEscrows [Db.lampEscrow .CREATED]
    let outcome := (handlePayment .bare lampPayment).exec world (fun _ => .calm) w
    outcome.1 = .ok () ∧ ∃ row ∈ w.db.escrows.rows, Pays .bare lampPayment row ∧
      outcome.2.stateOf row.id = some .FUNDED := by
  intro w outcome
  have hok : outcome.1 = .ok () := by decide +kernel
  refine ⟨hok, ?_⟩
  apply (payment_funded_iff .bare lampPayment w (fun _ => .calm) "vendor" rfl hok).mpr
  exact ⟨Db.lampEscrow .CREATED, by decide +kernel, by decide +kernel⟩

/-- Twenty newer escrows of the same vendor, for another amount. -/
def newerEscrows : List EscrowRow :=
  (List.range 20).map fun n =>
    { Db.lampEscrow .CREATED with
      id := "n" ++ toString n
      itemRef := "lamp-" ++ toString (n + 2)
      createdAt := n + 1
      amount := ⟨2⟩ }

/-- The lamp is the oldest of twenty-one: its payment is handled without an error, and no escrow
the payment is for is funded. -/
theorem lamp_payment_dropped :
    let w := World.ofEscrows (Db.lampEscrow .CREATED :: newerEscrows)
    let outcome := (handlePayment .bare lampPayment).exec world (fun _ => .calm) w
    outcome.1 = .ok () ∧ (∃ row ∈ w.db.escrows.rows, Pays .bare lampPayment row) ∧
      ¬ ∃ row ∈ w.db.escrows.rows, Pays .bare lampPayment row ∧
        outcome.2.stateOf row.id = some .FUNDED := by
  decide +kernel

end TrustLink
