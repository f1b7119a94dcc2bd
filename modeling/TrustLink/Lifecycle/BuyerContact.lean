import TrustLink.Common.Encryption
import TrustLink.Lifecycle.Sequential
import TrustLink.Model.Grounds

/-!
# TrustLink — the buyer's contact

`updateBuyerContact` encrypts what the request supplies and writes both columns in one update, with
`null` for the channel the request left out. It is served under PATCH, but it replaces: after a
request the columns say what that request said, and what an earlier one had supplied is gone.

`buyer_contact_partial_iff` makes this exact for every sequential run. For each channel, the column
decrypts to the last value supplied if and only if the last request supplied one, or none did. No
other operation touches the columns (`Contacts.of_makes`).
-/

namespace TrustLink

open Effects Text

/-! ## The columns -/

/-- The contact columns of an escrow. -/
def Contacts (id : String) (email phone : Option String) (w : World) : Prop :=
  ∃ row, w.db.escrows.get id = some row ∧ row.buyerContactEmail = email ∧
    row.buyerContactPhone = phone

/-- The call does not set a contact column of the escrow. -/
def Call.KeepsContacts (id : String) (c : Call) : Prop :=
  ∀ data, c = .db (.escrowUpdate id data) →
    data.buyerContactEmail = none ∧ data.buyerContactPhone = none

section frame

variable {D : Deployment} {A : Choice → Prop} {id : String} {email phone : Option String}
  {w : World} {α : Type}

theorem Contacts.handle {ch : Choice} {c : Call} (hc : c.KeepsContacts id)
    (h : Contacts id email phone w) : Contacts id email phone (handle ch c w).2 := by
  obtain ⟨row, hrow, hemail, hphone⟩ := h
  generalize hafter : (TrustLink.handle ch c w).2.db.escrows.get id = after
  have hchange : EscrowChange ch w c id after := by
    rw [← hafter]
    exact handle_escrow ch w c id
  cases hchange with
  | same => exact ⟨row, hafter.trans hrow, hemail, hphone⟩
  | updated data row' hcall hrow' =>
    obtain ⟨hdataEmail, hdataPhone⟩ := hc data hcall
    cases hrow.symm.trans hrow'
    refine ⟨_, hafter, ?_, ?_⟩
    · simp only [EscrowRow.update, hdataEmail, Option.getD_none, hemail]
    · simp only [EscrowRow.update, hdataPhone, Option.getD_none, hphone]
  | claimed t row' hcall hrow' hfree =>
    cases hrow.symm.trans hrow'
    exact ⟨_, hafter, hemail, hphone⟩
  | created dto vendorAddress hcall hnone => cases hrow.symm.trans hnone

/-- A program of such calls leaves the columns, whatever is rejected. -/
theorem Contacts.wp {p : App α} (hp : p.Only (Call.KeepsContacts id))
    (h : Contacts id email phone w) :
    p.wp (alone A) (fun _ w' => Contacts id email phone w') w := by
  refine hp.wp_invariant ?_ h
  intro c w₁ hc h₁
  refine ⟨trivial, ?_⟩
  rintro r w₂ ⟨ch, -, hstep⟩
  have hafter : (TrustLink.handle ch c w₁).2 = w₂ := congrArg Prod.snd hstep
  rw [← hafter]
  exact h₁.handle hc

theorem keepsContacts_of_written (c : Call) (h : c.Written) : c.KeepsContacts id := by
  intro data hcall
  rw [hcall] at h
  have hwritten : data.Written := h
  cases hwritten with
  | _ => exact ⟨rfl, rfl⟩

/-- Only a request for this escrow sets its contact. -/
theorem keepsContacts_of_makes {op : Op} (hop : ∀ dto, op ≠ .updateBuyerContact id dto) (c : Call)
    (h : op.Makes c) : c.KeepsContacts id := by
  intro data hcall
  rw [hcall] at h
  rcases h with hwritten | ⟨dto, _, _, heq, -⟩ | ⟨_, _, -, -, rfl⟩
  · exact keepsContacts_of_written (.db (.escrowUpdate id data)) hwritten data rfl
  · exact absurd heq (hop dto)
  · exact ⟨rfl, rfl⟩

end frame

/-! ## One request -/

section request

variable (gcm : AuthenticatedCipher) (replaced : List UInt8 → List Char)
  (CONTACT_ENCRYPTION_KEY : Option String)

/-- The contact cipher answers with what `encryptContact` computes, for some IV. -/
def Encrypts (ch : Choice) : Prop :=
  ∀ plaintext, ∃ iv,
    ch.reply (.encryptContact plaintext) = encryptContact gcm CONTACT_ENCRYPTION_KEY iv plaintext

/-- The column holds the value: encrypted, or `null` if there is none. -/
def Holds (stored value : Option String) : Prop :=
  match value with
  | none => stored = none
  | some plaintext => ∃ text, stored = some text ∧
      decryptContact gcm replaced CONTACT_ENCRYPTION_KEY text = .ok plaintext

variable {CONTACT_ENCRYPTION_KEY} {D : Deployment} {id : String} {email phone : Option String}
  {w : World}
  (hconfigured : D.isContactEncryptionConfigured
    = isContactEncryptionConfigured CONTACT_ENCRYPTION_KEY)

/-- What is encrypted for a column holds the value. -/
theorem wp_encrypted (hkey : isContactEncryptionConfigured CONTACT_ENCRYPTION_KEY = true)
    (value : Option String) {Q : Except Err (Option String) → World → Prop}
    (h : ∀ stored, Holds gcm replaced CONTACT_ENCRYPTION_KEY stored (truthy value) →
      Q (.ok stored) w) :
    (EscrowService.encrypted value).wp (alone (Encrypts gcm CONTACT_ENCRYPTION_KEY)) Q w := by
  unfold EscrowService.encrypted
  cases hvalue : truthy value with
  | none =>
    apply h
    rw [hvalue]
    rfl
  | some plaintext =>
    dsimp only
    refine (wp_machine_bind (M := world)).mpr ?_
    intro ch hch
    obtain ⟨iv, hreply⟩ := hch plaintext
    obtain ⟨text, hencrypted, hdecrypted⟩ :=
      decryptContact_encryptContact gcm replaced hkey iv plaintext
    have hanswer : world.handle ch (.ext (.encryptContact plaintext)) w = (.ok text, w) :=
      Prod.ext (hreply.trans hencrypted) rfl
    rw [hanswer]
    apply h
    rw [hvalue]
    exact ⟨text, rfl, hdecrypted⟩

/-- The update, and the eviction that follows it. -/
theorem wp_saveBuyerContact {A : Choice → Prop} (h : Contacts id email phone w)
    (email' phone' : Option String) :
    (EscrowRepository.saveBuyerContact D id email' phone').wp (alone A)
      (fun r w' => (∃ e, r = .error e) ∧ Contacts id email phone w' ∨
        (∃ record, r = .ok record) ∧ Contacts id email' phone' w') w := by
  unfold EscrowRepository.saveBuyerContact EscrowRepository.update
  rw [wp_bind, wp_handle_db]
  intro ch _
  rcases handle_escrowUpdate ch w id
      { buyerContactEmail := some email', buyerContactPhone := some phone' } with
    ⟨e, heq⟩ | ⟨_, row, hrow, heq⟩
  · rw [heq]
    exact .inl ⟨⟨e, rfl⟩, h⟩
  · rw [heq]
    have hwritten : Contacts id email' phone' (w.updated row
        { buyerContactEmail := some email', buyerContactPhone := some phone' } ch.now) := by
      refine ⟨row.update { buyerContactEmail := some email', buyerContactPhone := some phone' }
        ch.now, ?_, rfl, rfl⟩
      show (w.db.putEscrow _).escrows.get id = _
      rw [putEscrow_get, EscrowRow.update_id, get_id hrow, if_pos rfl]
    dsimp only
    unfold EscrowRepository.invalidate
    rw [wp_bind, wp_ite]
    constructor
    · intro _
      rw [wp_handle_cache]
      intro ch' _
      exact .inr ⟨⟨_, rfl⟩, hwritten⟩
    · intro _
      exact .inr ⟨⟨_, rfl⟩, hwritten⟩

include hconfigured in
/-- A request that fails has written nothing; one that succeeds has written both columns. -/
theorem wp_updateBuyerContact (h : Contacts id email phone w) (dto : UpdateBuyerContactDto) :
    (EscrowService.updateBuyerContact D id dto).wp (alone (Encrypts gcm CONTACT_ENCRYPTION_KEY))
      (fun r w' => (∃ e, r = .error e) ∧ Contacts id email phone w' ∨
        (∃ message, r = .ok message) ∧ ∃ email' phone', Contacts id email' phone' w' ∧
          Holds gcm replaced CONTACT_ENCRYPTION_KEY email' (truthy dto.email) ∧
          Holds gcm replaced CONTACT_ENCRYPTION_KEY phone' (truthy dto.phone)) w := by
  have hfind : (EscrowService.findById D id).Only (Call.KeepsContacts id) :=
    Writes.only_service_findById.mono keepsContacts_of_written
  unfold EscrowService.updateBuyerContact
  refine wp_seq (h.wp hfind) (fun e _ h₁ => .inl ⟨⟨e, rfl⟩, h₁⟩) ?_
  intro escrow w₁ h₁
  refine wp_if (fun _ => .inl ⟨⟨_, rfl⟩, h₁⟩) fun _ => ?_
  refine wp_if (fun _ => .inl ⟨⟨_, rfl⟩, h₁⟩) fun hflag => ?_
  -- past the guard there is a key, so each cipher call answers with a text that decrypts
  have hkey : isContactEncryptionConfigured CONTACT_ENCRYPTION_KEY = true := by
    rw [← hconfigured]
    exact Bool.eq_true_of_not_eq_false hflag
  rw [wp_bind]
  apply wp_encrypted gcm replaced hkey
  intro email' hemail
  dsimp only
  rw [wp_bind]
  apply wp_encrypted gcm replaced hkey
  intro phone' hphone
  dsimp only
  rw [wp_bind]
  refine wp_mono (wp_saveBuyerContact h₁ email' phone') ?_
  rintro r w₂ (⟨⟨e, rfl⟩, h₂⟩ | ⟨⟨record, rfl⟩, h₂⟩)
  · exact .inl ⟨⟨e, rfl⟩, h₂⟩
  · exact .inr ⟨⟨_, rfl⟩, email', phone', h₂, hemail, hphone⟩

end request

/-! ## Runs -/

/-- The request for the escrow that succeeds in one step of a run, if there is one. -/
def acceptedContact (D : Deployment) (id : String) (w : World) :
    Op × (Nat → Choice) → List UpdateBuyerContactDto
  | (.updateBuyerContact id' dto, env) =>
    if id' = id ∧ (((Op.updateBuyerContact id' dto).prog D).exec world env w).1 = .ok () then [dto]
    else []
  | _ => []

/-- The requests for the escrow that succeed in a run, in their order. -/
def acceptedContacts (D : Deployment) (id : String) :
    World → List (Op × (Nat → Choice)) → List UpdateBuyerContactDto
  | _, [] => []
  | w, o :: ops => acceptedContact D id w o ++ acceptedContacts D id (runOps D w [o]) ops

section runs

variable (gcm : AuthenticatedCipher) (replaced : List UInt8 → List Char)
  (CONTACT_ENCRYPTION_KEY : Option String)

/-- A column after requests with these values: as it was if there are none, and else as the last of
them has it. -/
def Replaced (before after : Option String) (values : List (Option String)) : Prop :=
  match values.getLast? with
  | none => after = before
  | some value => Holds gcm replaced CONTACT_ENCRYPTION_KEY after (truthy value)

variable {gcm replaced CONTACT_ENCRYPTION_KEY} {D : Deployment} {id : String}
  {email phone : Option String} {w : World}

theorem Replaced.append {a b c : Option String} {values values' : List (Option String)}
    (h : Replaced gcm replaced CONTACT_ENCRYPTION_KEY a b values)
    (h' : Replaced gcm replaced CONTACT_ENCRYPTION_KEY b c values') :
    Replaced gcm replaced CONTACT_ENCRYPTION_KEY a c (values ++ values') := by
  unfold Replaced at h' ⊢
  rw [List.getLast?_append]
  cases hlast : values'.getLast? with
  | some value =>
    rw [hlast] at h'
    exact h'
  | none =>
    rw [hlast] at h'
    rw [Option.none_or, show c = b from h']
    exact h

variable (gcm replaced) in
/-- One operation: a request for the escrow that succeeds, or one that leaves the columns. -/
theorem contacts_step
    (hconfigured : D.isContactEncryptionConfigured
      = isContactEncryptionConfigured CONTACT_ENCRYPTION_KEY)
    (h : Contacts id email phone w) (o : Op × (Nat → Choice))
    (henv : ∀ n, Encrypts gcm CONTACT_ENCRYPTION_KEY (o.2 n)) :
    ∃ email' phone', Contacts id email' phone' (runOps D w [o]) ∧
      Replaced gcm replaced CONTACT_ENCRYPTION_KEY email email'
        ((acceptedContact D id w o).map (·.email)) ∧
      Replaced gcm replaced CONTACT_ENCRYPTION_KEY phone phone'
        ((acceptedContact D id w o).map (·.phone)) := by
  obtain ⟨op, env⟩ := o
  by_cases hop : ∃ dto, op = .updateBuyerContact id dto
  · obtain ⟨dto, rfl⟩ := hop
    have hwp : ((Op.updateBuyerContact id dto).prog D).wp
        (alone (Encrypts gcm CONTACT_ENCRYPTION_KEY))
        (fun r w' => (∃ e, r = .error e) ∧ Contacts id email phone w' ∨
          r = .ok () ∧ ∃ email' phone', Contacts id email' phone' w' ∧
            Holds gcm replaced CONTACT_ENCRYPTION_KEY email' (truthy dto.email) ∧
            Holds gcm replaced CONTACT_ENCRYPTION_KEY phone' (truthy dto.phone)) w := by
      show (EscrowService.updateBuyerContact D id dto).void.wp _ _ _
      rw [wp_void]
      refine wp_mono (wp_updateBuyerContact gcm replaced hconfigured h dto) ?_
      rintro r w' (⟨⟨e, rfl⟩, hsame⟩ | ⟨⟨message, rfl⟩, hnew⟩)
      · exact .inl ⟨⟨e, rfl⟩, hsame⟩
      · exact .inr ⟨rfl, hnew⟩
    -- a request that fails has written nothing and does not count as accepted
    rcases exec_of_wp hwp henv with ⟨⟨e, herror⟩, hsame⟩ | ⟨hok, email', phone', hnew⟩
    · have hnone : acceptedContact D id w (.updateBuyerContact id dto, env) = [] := by
        apply if_neg
        rintro ⟨-, hok⟩
        cases herror.symm.trans hok
      rw [hnone]
      exact ⟨email, phone, hsame, rfl, rfl⟩
    · have haccepted : acceptedContact D id w (.updateBuyerContact id dto, env) = [dto] :=
        if_pos ⟨rfl, hok⟩
      rw [haccepted]
      exact ⟨email', phone', hnew⟩
  · have hother : ∀ dto, op ≠ .updateBuyerContact id dto := fun dto heq => hop ⟨dto, heq⟩
    -- any other operation, and the same one for another escrow, leaves both columns
    have honly := (Writes.only_op D op).mono (keepsContacts_of_makes hother)
    have hkept : Contacts id email phone (runOps D w [(op, env)]) :=
      exec_of_wp_any (h.wp honly) env
    have hnone : acceptedContact D id w (op, env) = [] := by
      unfold acceptedContact
      split
      · next id' dto _ heq =>
        cases heq
        rw [if_neg]
        rintro ⟨rfl, -⟩
        exact hother dto rfl
      · rfl
    rw [hnone]
    exact ⟨email, phone, hkept, rfl, rfl⟩

variable (gcm replaced) in
/-- A run leaves in each column what the last of its requests says. -/
theorem contacts_run
    (hconfigured : D.isContactEncryptionConfigured
      = isContactEncryptionConfigured CONTACT_ENCRYPTION_KEY)
    (ops : List (Op × (Nat → Choice))) :
    ∀ {w email phone}, Contacts id email phone w →
      (∀ o ∈ ops, ∀ n, Encrypts gcm CONTACT_ENCRYPTION_KEY (o.2 n)) →
      ∃ email' phone', Contacts id email' phone' (runOps D w ops) ∧
        Replaced gcm replaced CONTACT_ENCRYPTION_KEY email email'
          ((acceptedContacts D id w ops).map (·.email)) ∧
        Replaced gcm replaced CONTACT_ENCRYPTION_KEY phone phone'
          ((acceptedContacts D id w ops).map (·.phone)) := by
  induction ops with
  | nil =>
    intro w email phone h _
    exact ⟨email, phone, h, rfl, rfl⟩
  | cons o ops ih =>
    intro w email phone h henv
    obtain ⟨email₁, phone₁, h₁, hemail₁, hphone₁⟩ :=
      contacts_step gcm replaced hconfigured h o (henv o List.mem_cons_self)
    obtain ⟨email', phone', h', hemail', hphone'⟩ :=
      ih h₁ fun o' ho' => henv o' (List.mem_cons_of_mem _ ho')
    refine ⟨email', phone', h', ?_, ?_⟩
    · rw [acceptedContacts, List.map_append]
      exact hemail₁.append hemail'
    · rw [acceptedContacts, List.map_append]
      exact hphone₁.append hphone'

/-! ## Partial updates -/

/-- The last value that a request supplied for a channel. -/
def lastSupplied (values : List (Option String)) : Option String :=
  (values.filterMap truthy).getLast?

/-- The last request supplied the channel, or none did. -/
def EndsSupplied (values : List (Option String)) : Prop :=
  (values.getLast?.bind truthy).isSome ∨ lastSupplied values = none

variable (gcm replaced CONTACT_ENCRYPTION_KEY) in
/-- What partial updates leave in a column: the last value supplied, and `null` only if none was. -/
structure Channel (stored : Option String) (values : List (Option String)) : Prop where
  last : ∀ value, lastSupplied values = some value →
    ∃ text, stored = some text ∧
      decryptContact gcm replaced CONTACT_ENCRYPTION_KEY text = .ok value
  null : stored = none → lastSupplied values = none

theorem lastSupplied_append_supplied {values : List (Option String)} {last : Option String}
    {value : String} (h : truthy last = some value) :
    lastSupplied (values ++ [last]) = some value := by
  rw [lastSupplied, List.filterMap_append, List.filterMap_cons, h]
  exact List.getLast?_concat

theorem channel_iff {before stored : Option String} {values : List (Option String)}
    (h : Replaced gcm replaced CONTACT_ENCRYPTION_KEY before stored values) :
    Channel gcm replaced CONTACT_ENCRYPTION_KEY stored values ↔ EndsSupplied values := by
  rcases List.eq_nil_or_concat' values with rfl | ⟨init, last, rfl⟩
  · constructor
    · intro _
      exact .inr rfl
    · intro _
      refine ⟨?_, fun _ => rfl⟩
      intro value hvalue
      cases hvalue
  · have hlast : (init ++ [last]).getLast? = some last := List.getLast?_concat
    unfold Replaced at h
    rw [hlast] at h
    dsimp only at h
    cases hvalue : truthy last with
    | some value =>
      -- the last request is the one the column speaks of
      rw [hvalue] at h
      obtain ⟨text, hstored, hread⟩ := h
      constructor
      · intro _
        left
        rw [hlast, Option.bind_some, hvalue]
        rfl
      · intro _
        refine ⟨?_, ?_⟩
        · intro value' hvalue'
          rw [lastSupplied_append_supplied hvalue] at hvalue'
          cases hvalue'
          exact ⟨text, hstored, hread⟩
        · intro hnone
          cases hstored.symm.trans hnone
    | none =>
      -- the last request has cleared the column
      rw [hvalue] at h
      have hnull : stored = none := h
      constructor
      · intro hchannel
        exact .inr (hchannel.null hnull)
      · rintro (hsupplied | hnone)
        · rw [hlast, Option.bind_some, hvalue] at hsupplied
          cases hsupplied
        · refine ⟨?_, fun _ => hnone⟩
          intro value hvalue'
          cases hnone.symm.trans hvalue'

end runs

/-- In every sequential run of the backend, the contact columns of an escrow are partially updated
exactly if the last request for it left out no channel that an earlier one had supplied. -/
theorem buyer_contact_partial_iff (gcm : AuthenticatedCipher) (replaced : List UInt8 → List Char)
    {CONTACT_ENCRYPTION_KEY : Option String} {D : Deployment}
    (hconfigured : D.isContactEncryptionConfigured
      = isContactEncryptionConfigured CONTACT_ENCRYPTION_KEY)
    {w : World} {id : String} {row : EscrowRow} (hrow : w.db.escrows.get id = some row)
    (ops : List (Op × (Nat → Choice)))
    (henv : ∀ o ∈ ops, ∀ n, Encrypts gcm CONTACT_ENCRYPTION_KEY (o.2 n)) :
    let requests := acceptedContacts D id w ops
    ∃ row', (runOps D w ops).db.escrows.get id = some row' ∧
      (Channel gcm replaced CONTACT_ENCRYPTION_KEY row'.buyerContactEmail (requests.map (·.email)) ∧
        Channel gcm replaced CONTACT_ENCRYPTION_KEY row'.buyerContactPhone (requests.map (·.phone))
        ↔ EndsSupplied (requests.map (·.email)) ∧ EndsSupplied (requests.map (·.phone))) := by
  intro requests
  obtain ⟨email', phone', ⟨row', hrow', rfl, rfl⟩, hemail, hphone⟩ :=
    contacts_run gcm replaced hconfigured ops ⟨row, hrow, rfl, rfl⟩ henv
  exact ⟨row', hrow', and_congr (channel_iff hemail) (channel_iff hphone)⟩

section instances

/-- A key for the contact cipher. -/
def contactKey : Option String :=
  some "00112233445566778899aabbccddeeff00112233445566778899aabbccddeeff"

/-- Nothing fails, and the null cipher encrypts. -/
def Choice.encrypting : Choice where
  __ := Choice.calm
  reply
    | .encryptContact plaintext => encryptContact .mask contactKey .zero plaintext
    | _ => .error (.error "no answer")

theorem encrypts_encrypting : Encrypts .mask contactKey .encrypting := by
  intro plaintext
  exact ⟨.zero, rfl⟩

def Deployment.encrypting : Deployment :=
  { Deployment.bare with isContactEncryptionConfigured := true }

/-- These requests for the lamp, one after the other. -/
def contactRequests (requests : List UpdateBuyerContactDto) : List (Op × (Nat → Choice)) :=
  requests.map fun dto => (.updateBuyerContact "e1" dto, fun _ => .encrypting)

theorem encrypts_contactRequests (requests : List UpdateBuyerContactDto) :
    ∀ o ∈ contactRequests requests, ∀ n, Encrypts .mask contactKey (o.2 n) := by
  intro o ho n
  obtain ⟨dto, -, rfl⟩ := List.mem_map.mp ho
  exact encrypts_encrypting

/-- The second request repeats the channel of the first. -/
theorem buyer_contact_partial_repeated :
    let w := World.ofEscrows [Db.lampEscrow .FUNDED]
    let ops := contactRequests [⟨some "a@b.c", none⟩, ⟨some "b@b.c", some "+2348012345678"⟩]
    ∃ row', (runOps .encrypting w ops).db.escrows.get "e1" = some row' ∧
      Channel .mask (fun _ => []) contactKey row'.buyerContactEmail
        [some "a@b.c", some "b@b.c"] ∧
      Channel .mask (fun _ => []) contactKey row'.buyerContactPhone
        [none, some "+2348012345678"] := by
  intro w ops
  have hconfigured : Deployment.encrypting.isContactEncryptionConfigured
      = isContactEncryptionConfigured contactKey := by decide +kernel
  have hrow : w.db.escrows.get "e1" = some (Db.lampEscrow .FUNDED) := rfl
  obtain ⟨row', hrow', hiff⟩ := buyer_contact_partial_iff .mask (fun _ => []) hconfigured hrow ops
    (encrypts_contactRequests _)
  have hrequests : acceptedContacts .encrypting "e1" w ops
      = [⟨some "a@b.c", none⟩, ⟨some "b@b.c", some "+2348012345678"⟩] := by decide +kernel
  rw [hrequests] at hiff
  exact ⟨row', hrow', hiff.mpr ⟨.inl rfl, .inl rfl⟩⟩

/-- An e-mail address, then a phone number alone: the address is erased. -/
theorem later_phone_erases_email :
    let w := World.ofEscrows [Db.lampEscrow .FUNDED]
    let ops := contactRequests [⟨some "a@b.c", none⟩, ⟨none, some "+2348012345678"⟩]
    acceptedContacts .encrypting "e1" w ops
      = [⟨some "a@b.c", none⟩, ⟨none, some "+2348012345678"⟩] ∧
    ∀ row', (runOps .encrypting w ops).db.escrows.get "e1" = some row' →
      row'.buyerContactEmail = none ∧
      ¬Channel .mask (fun _ => []) contactKey row'.buyerContactEmail [some "a@b.c", none] := by
  intro w ops
  refine ⟨by decide +kernel, ?_⟩
  intro row' hrow'
  have hcolumn : ((runOps .encrypting w ops).db.escrows.get "e1").map (·.buyerContactEmail)
      = some none := by decide +kernel
  rw [hrow'] at hcolumn
  have hnull : row'.buyerContactEmail = none := Option.some.inj hcolumn
  refine ⟨hnull, ?_⟩
  intro h
  exact absurd (h.null hnull) (by decide)

end instances

end TrustLink
