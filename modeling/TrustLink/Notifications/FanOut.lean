import TrustLink.Lifecycle.BuyerContact
import TrustLink.Notifications.Dispatch
import TrustLink.Vendor.Profile

/-!
# TrustLink — who is told, and where

A notification goes to the buyer at the contacts stored with the escrow, to the vendor at those of
the profile, on the channels the vendor has chosen, or to the operator. `AddressBook.plan` lists the
channels and recipients a notification is for. `planned` is the protocol of somebody who keeps to
such a list: each entry gets its provider calls, three at most and none to a public key, and then one
audit row that counts them.

* **`notification_follows_plan`** — every notification keeps to its plan, whatever the providers and
  the database answer, and has come to the end of it if it resolves.
* **`buyer_reached_where_asked`** — after any run, the buyer is told at the contacts of the last
  request that was accepted.
-/

namespace TrustLink

open Effects

/-- Where recipients are looked up. -/
structure AddressBook where
  decryptContact : String → Except Err String
  /-- `findByAddress`, if the repository is wired in. -/
  vendorProfiles : Option (String → Except Thrown (Option VendorProfileRecord))
  /-- The vendor's channels; `none` if they cannot be loaded. -/
  notificationChannels : String → Option (List String)
  ADMIN_NOTIFICATION_EMAIL : Option String

/-- The type of the messages and rows of a notification. -/
def Notification.type : Notification → NotificationType
  | .notifyFunded => .FUNDED
  | .notifyShipped => .SHIPPED
  | .notifyDelivered => .DELIVERED
  | .notifyDisputed | .notifyDisputedAdmin => .DISPUTED
  | .notifyCompleted => .COMPLETED
  | .notifyRefunded => .REFUNDED

namespace AddressBook

variable (A : AddressBook) (escrow : EscrowRecord)

def tryDecrypt (stored : Option String) : Option String :=
  (truthy stored).bind fun stored => (A.decryptContact stored).toOption

/-- `profile?.email` and `profile?.phone`, trimmed, if their channel is chosen. -/
def vendorContact (profile : Option VendorProfileRecord) (channel : NotificationChannel) :
    Option String :=
  if channel.name ∈ (A.notificationChannels escrow.vendorAddress).getD ["EMAIL"] then
    truthy ((profile.bind fun profile => match channel with
      | .EMAIL => profile.email
      | .SMS => profile.phone).map EscrowService.trim)
  else none

end AddressBook

namespace NotificationsService

variable (C : NotificationsConfig) (A : AddressBook) (type : NotificationType)
  (escrow : EscrowRecord)

/-- Both dispatches, each if there is somebody to dispatch to. -/
def dispatchBoth (email phone : Option String) : Prog notifications Unit := do
  email.elim (pure ()) (dispatchEmail C type escrow)
  phone.elim (pure ()) (dispatchSms C type escrow)

def dispatchToBuyer : Prog notifications Unit := do
  let resolvedEmail := truthy (A.tryDecrypt escrow.buyerContactEmail)
  let resolvedPhone := truthy (A.tryDecrypt escrow.buyerContactPhone)
  dispatchBoth C type escrow resolvedEmail resolvedPhone
  if resolvedEmail = none ∧ resolvedPhone = none then do
    recordUndeliverable type escrow .EMAIL escrow.buyerAddress
    recordUndeliverable type escrow .SMS escrow.buyerAddress
  else pure ()

def dispatchToVendor : Prog notifications Unit :=
  match A.vendorProfiles with
  | none => recordUndeliverable type escrow .EMAIL escrow.vendorAddress
  | some findByAddress =>
    match findByAddress escrow.vendorAddress with
    | .error error => throw error
    | .ok profile =>
      dispatchBoth C type escrow (A.vendorContact escrow profile .EMAIL)
        (A.vendorContact escrow profile .SMS)

def notify : Notification → Prog notifications Unit
  | .notifyFunded => dispatchToVendor C A .FUNDED escrow
  | .notifyShipped => dispatchToBuyer C A .SHIPPED escrow
  | .notifyDelivered => dispatchToBuyer C A .DELIVERED escrow
  | .notifyDisputed => dispatchToVendor C A .DISPUTED escrow
  | .notifyDisputedAdmin =>
    (truthy A.ADMIN_NOTIFICATION_EMAIL).elim (pure ()) (dispatchEmail C .DISPUTED escrow)
  | .notifyCompleted => dispatchToBuyer C A .COMPLETED escrow
  | .notifyRefunded => dispatchToBuyer C A .REFUNDED escrow

end NotificationsService

open NotificationsService

/-! ## Plans

The itinerary is the plan that is left and the provider calls made for its first entry. The protocol
allows a call that the first entry is for, and the row that ends the entry. -/

abbrev Plan := List (NotificationChannel × String)

def Plan.reach (email phone : Option String) : Plan :=
  email.toList.map (.EMAIL, ·) ++ phone.toList.map (.SMS, ·)

/-- The buyer is reached at these contacts, or known to be out of reach. -/
def Plan.toBuyer (buyerAddress : String) (email phone : Option String) : Plan :=
  match Plan.reach email phone with
  | [] => [(.EMAIL, buyerAddress), (.SMS, buyerAddress)]
  | reached => reached

def AddressBook.buyerPlan (A : AddressBook) (escrow : EscrowRecord) : Plan :=
  .toBuyer escrow.buyerAddress (truthy (A.tryDecrypt escrow.buyerContactEmail))
    (truthy (A.tryDecrypt escrow.buyerContactPhone))

def AddressBook.vendorPlan (A : AddressBook) (escrow : EscrowRecord) : Plan :=
  match A.vendorProfiles with
  | none => [(.EMAIL, escrow.vendorAddress)]
  | some findByAddress =>
    match findByAddress escrow.vendorAddress with
    | .error _ => []
    | .ok profile => .reach (A.vendorContact escrow profile .EMAIL)
        (A.vendorContact escrow profile .SMS)

def AddressBook.plan (A : AddressBook) (escrow : EscrowRecord) : Notification → Plan
  | .notifyFunded | .notifyDisputed => A.vendorPlan escrow
  | .notifyDisputedAdmin => .reach (truthy A.ADMIN_NOTIFICATION_EMAIL) none
  | _ => A.buyerPlan escrow

/-- How far a notification has come: what is still to do, and the calls made for the next entry. -/
structure Itinerary where
  plan : Plan
  attempts : Nat

namespace Itinerary

/-- A provider may be called for the next entry, if it is for this channel and recipient. -/
def MayCall (C : NotificationsConfig) (s : Itinerary) (channel : NotificationChannel)
    (recipient : String) : Prop :=
  s.plan.head? = some (channel, recipient) ∧ s.attempts < MAX_ATTEMPTS ∧
    C.isValidEd25519PublicKey recipient = false

def next (s : Itinerary) : (c : NotifyCall) → Except Thrown c.Resp → Itinerary
  | .send _, _ | .create _, _ => { s with attempts := s.attempts + 1 }
  | .createNotification _, .ok _ => ⟨s.plan.tail, 0⟩
  | _, _ => s

end Itinerary

def planned (C : NotificationsConfig) (type : NotificationType) (escrow : EscrowRecord) :
    Protocol notifications Itinerary where
  ok s
    | .send message => s.MayCall C .EMAIL message.recipient
    | .create message => s.MayCall C .SMS message.recipient
    | .createNotification data => s.plan.head? = some (data.channel, data.recipientAddress) ∧
        data.attemptCount = s.attempts ∧ data.type = type ∧ data.escrowId = escrow.id
    | _ => True
  step s c r s' := s' = s.next c r

section plans

variable {C : NotificationsConfig} {A : AddressBook} {type : NotificationType}
  {escrow : EscrowRecord} {rest : Plan} {channel : NotificationChannel} {recipient : String}

/-- The entries up to `rest` are done if it resolves. -/
def Completes (C : NotificationsConfig) (type : NotificationType) (escrow : EscrowRecord)
    (rest plan : Plan) (p : Prog notifications Unit) : Prop :=
  p.wp (planned C type escrow) (fun r s => r = .ok () → s = ⟨rest, 0⟩) ⟨plan, 0⟩

/-- Nothing to send is a plan that is done. -/
theorem completes_pure : Completes C type escrow rest rest (pure ()) := fun _ => rfl

/-- The plans of two parts, one after the other. -/
theorem Completes.bind {middle plan : Plan} {p q : Prog notifications Unit}
    (hp : Completes C type escrow middle plan p) (hq : Completes C type escrow rest middle q) :
    Completes C type escrow rest plan (p >>= fun _ => q) := by
  refine wp_seq hp (fun _ _ _ h => nomatch h) fun _ s hs => ?_
  rw [hs rfl]
  exact hq

/-- The row counts the attempts, and is the end of the entry. -/
theorem wp_createNotification (a : Attempts) :
    (createNotification type escrow channel recipient a).wp (planned C type escrow)
      (fun r s => r = .ok () → s = ⟨rest, 0⟩) ⟨(channel, recipient) :: rest, a.attemptCount⟩ := by
  refine ⟨⟨rfl, rfl, rfl, rfl⟩, ?_⟩
  rintro r _ rfl rfl
  rfl

/-- The loop makes as many provider calls as it counts. -/
theorem wp_attemptLoop {call : NotifyCall} {delivered : call.Resp → Attempts → Attempts}
    {plan : Plan} (hdelivered : ∀ response a, (delivered response a).attemptCount = a.attemptCount)
    (hcall : ∀ n, n < MAX_ATTEMPTS → (planned C type escrow).ok ⟨plan, n⟩ call)
    (hnext : ∀ (s : Itinerary) r, s.next call r = { s with attempts := s.attempts + 1 })
    (left : Nat) : ∀ a : Attempts, a.attemptCount + left ≤ MAX_ATTEMPTS →
      (attemptLoop call delivered left a).wp (planned C type escrow)
        (fun r s => ∀ b, r = .ok b → s = ⟨plan, b.attemptCount⟩) ⟨plan, a.attemptCount⟩ := by
  induction left with
  | zero =>
    rintro a - b ⟨⟩
    rfl
  | succ left ih =>
    intro a ha
    refine ⟨hcall _ (by omega), ?_⟩
    rintro r _ rfl
    rw [hnext]
    cases r with
    | ok response =>
      rintro b ⟨⟩
      rw [hdelivered]
    | error error =>
      have hretry := ih { a with
        attemptCount := a.attemptCount + 1, lastResponseCode := extractResponseCode error }
        (by dsimp only; omega)
      refine wp_if (fun _ => ?_) fun _ => ?_
      · rintro b ⟨⟩
        rfl
      · refine wp_if (fun _ => ?_) fun _ => hretry
        -- a pause that is cut short ends the dispatch
        refine ⟨trivial, ?_⟩
        rintro (_ | _) _ rfl
        · exact nofun
        · exact hretry

/-- A row without a call ends an entry too. -/
theorem completes_recordUndeliverable :
    Completes C type escrow rest ((channel, recipient) :: rest)
      (recordUndeliverable type escrow channel recipient) :=
  wp_createNotification {}

/-- The calls of one provider, and the row. -/
theorem completes_attempts {call : NotifyCall} {delivered : call.Resp → Attempts → Attempts}
    (hdelivered : ∀ response a, (delivered response a).attemptCount = a.attemptCount)
    (hcall : ∀ n, n < MAX_ATTEMPTS →
      (planned C type escrow).ok ⟨(channel, recipient) :: rest, n⟩ call)
    (hnext : ∀ (s : Itinerary) r, s.next call r = { s with attempts := s.attempts + 1 }) :
    Completes C type escrow rest ((channel, recipient) :: rest) (do
      let a ← attemptLoop call delivered MAX_ATTEMPTS {}
      createNotification type escrow channel recipient a) := by
  refine wp_seq (wp_attemptLoop hdelivered hcall hnext MAX_ATTEMPTS {} (by decide))
    (fun _ _ _ h => nomatch h) fun a s hs => ?_
  rw [hs a rfl]
  exact wp_createNotification a

/-- The id for the logs has no part in the plan. -/
theorem completes_randomUUID {plan : Plan} {f : String → Prog notifications Unit}
    (hf : ∀ requestId, Completes C type escrow rest plan (f requestId)) :
    Completes C type escrow rest plan
      (Prog.perform (S := notifications) .randomUUID >>= f) := by
  refine ⟨trivial, ?_⟩
  rintro (_ | requestId) _ rfl
  · exact nofun
  · exact hf requestId

/-- An e-mail is one entry. -/
theorem completes_dispatchEmail :
    Completes C type escrow rest ((.EMAIL, recipient) :: rest)
      (dispatchEmail C type escrow recipient) := by
  refine completes_randomUUID fun requestId => ?_
  -- to a public key, without a sender or without a template nothing is sent
  refine wp_if (fun _ => completes_recordUndeliverable) fun hkey => ?_
  refine wp_if (fun _ => completes_recordUndeliverable) fun _ => ?_
  refine wp_if (fun _ => completes_recordUndeliverable) fun _ => ?_
  exact completes_attempts (fun _ _ => rfl)
    (fun n hn => ⟨rfl, hn, Bool.eq_false_of_not_eq_true hkey⟩) fun _ _ => rfl

/-- So is a message. -/
theorem completes_dispatchSms :
    Completes C type escrow rest ((.SMS, recipient) :: rest)
      (dispatchSms C type escrow recipient) := by
  refine completes_randomUUID fun _ => ?_
  refine wp_if (fun _ => completes_recordUndeliverable) fun hkey => ?_
  exact completes_attempts (fun _ _ => rfl)
    (fun n hn => ⟨rfl, hn, Bool.eq_false_of_not_eq_true hkey⟩) fun _ _ => rfl

/-- The addresses that are there, the e-mail first. -/
theorem completes_dispatchBoth (email phone : Option String) :
    Completes C type escrow [] (.reach email phone) (dispatchBoth C type escrow email phone) := by
  have hphone : Completes C type escrow [] (phone.toList.map (.SMS, ·))
      (phone.elim (pure ()) (dispatchSms C type escrow)) := by
    cases phone with
    | none => exact completes_pure
    | some phone => exact completes_dispatchSms
  refine Completes.bind ?_ hphone
  cases email with
  | none => exact completes_pure
  | some email => exact completes_dispatchEmail

/-- To the buyer, by the stored contacts. -/
theorem completes_dispatchToBuyer :
    Completes C type escrow [] (A.buyerPlan escrow) (dispatchToBuyer C A type escrow) := by
  unfold dispatchToBuyer AddressBook.buyerPlan
  cases truthy (A.tryDecrypt escrow.buyerContactEmail) with
  | some email => exact (completes_dispatchBoth _ _).bind completes_pure
  | none =>
    cases truthy (A.tryDecrypt escrow.buyerContactPhone) with
    | some phone => exact (completes_dispatchBoth _ _).bind completes_pure
    | none => exact completes_recordUndeliverable.bind completes_recordUndeliverable

/-- To the vendor, by the profile. -/
theorem completes_dispatchToVendor :
    Completes C type escrow [] (A.vendorPlan escrow) (dispatchToVendor C A type escrow) := by
  unfold dispatchToVendor AddressBook.vendorPlan
  cases A.vendorProfiles with
  | none => exact completes_recordUndeliverable
  | some findByAddress =>
    dsimp only
    cases findByAddress escrow.vendorAddress with
    | error error => exact nofun
    | ok profile => exact completes_dispatchBoth _ _

end plans

/-- Every notification keeps to its plan, whatever is answered: provider calls go to the recipients
of the plan and never to a public key, each recipient gets exactly one row of this type and escrow,
and the row counts the calls. A notification that resolves has come to the end of the plan. -/
theorem notification_follows_plan (C : NotificationsConfig) (A : AddressBook)
    (escrow : EscrowRecord) (n : Notification) :
    Completes C n.type escrow [] (A.plan escrow n) (NotificationsService.notify C A escrow n) := by
  cases n with
  | notifyFunded => exact completes_dispatchToVendor
  | notifyDisputed => exact completes_dispatchToVendor
  | notifyDisputedAdmin =>
    unfold AddressBook.plan NotificationsService.notify
    cases truthy A.ADMIN_NOTIFICATION_EMAIL with
    | none => exact completes_pure
    | some email => exact completes_dispatchEmail
  | _ => exact completes_dispatchToBuyer

/-! ## The buyer -/

section buyer

variable {gcm : AuthenticatedCipher} {replaced : List UInt8 → List Char}
  {CONTACT_ENCRYPTION_KEY : Option String}

/-- The empty text is not of the format. -/
theorem truthy_of_decryptContact {text plaintext : String}
    (h : decryptContact gcm replaced CONTACT_ENCRYPTION_KEY text = .ok plaintext) :
    truthy (some text) = some text := by
  apply if_neg
  rintro rfl
  unfold decryptContact at h
  cases hkey : resolveKey CONTACT_ENCRYPTION_KEY with
  | error e =>
    rw [hkey] at h
    cases h
  | ok key =>
    rw [hkey] at h
    cases h

/-- What a column holds is read back. -/
theorem truthy_tryDecrypt {A : AddressBook} {value stored : Option String}
    (hA : A.decryptContact = decryptContact gcm replaced CONTACT_ENCRYPTION_KEY)
    (h : Holds gcm replaced CONTACT_ENCRYPTION_KEY stored (truthy value)) :
    truthy (A.tryDecrypt stored) = truthy value := by
  cases hvalue : truthy value with
  | none =>
    rw [hvalue] at h
    cases h
    rfl
  | some plaintext =>
    rw [hvalue] at h
    obtain ⟨text, rfl, hopened⟩ := h
    rw [AddressBook.tryDecrypt, truthy_of_decryptContact hopened, Option.bind_some, hA, hopened]
    rw [truthy_eq_some hvalue] at hvalue
    exact hvalue

end buyer

/-- After every sequential run of the backend, whatever concerns the buyer of an escrow is sent to
exactly the contacts of the last request that was accepted for it: by e-mail to the address, by text
message to the number, each with its row. -/
theorem buyer_reached_where_asked (gcm : AuthenticatedCipher) (replaced : List UInt8 → List Char)
    {CONTACT_ENCRYPTION_KEY : Option String} {D : Deployment}
    (hconfigured : D.isContactEncryptionConfigured
      = isContactEncryptionConfigured CONTACT_ENCRYPTION_KEY)
    {w : World} {id : String} {row : EscrowRow} (hrow : w.db.escrows.get id = some row)
    (ops : List (Op × (Nat → Choice)))
    (henv : ∀ o ∈ ops, ∀ n, Encrypts gcm CONTACT_ENCRYPTION_KEY (o.2 n))
    {dto : UpdateBuyerContactDto} (hlast : (acceptedContacts D id w ops).getLast? = some dto)
    {A : AddressBook}
    (hA : A.decryptContact = decryptContact gcm replaced CONTACT_ENCRYPTION_KEY) :
    ∃ row', (runOps D w ops).db.escrows.get id = some row' ∧
      ∀ C, ∀ n ∈ [Notification.notifyShipped, .notifyDelivered, .notifyCompleted, .notifyRefunded],
        Completes C n.type (toEscrowRecord row') []
          (.toBuyer row'.buyerAddress (truthy dto.email) (truthy dto.phone))
          (NotificationsService.notify C A (toEscrowRecord row') n) := by
  obtain ⟨email, phone, ⟨row', hrow', rfl, rfl⟩, hemail, hphone⟩ :=
    contacts_run gcm replaced hconfigured ops ⟨row, hrow, rfl, rfl⟩ henv
  rw [Replaced, List.getLast?_map, hlast] at hemail hphone
  refine ⟨row', hrow', fun C n hn => ?_⟩
  rw [← truthy_tryDecrypt hA hemail, ← truthy_tryDecrypt hA hphone]
  simp only [List.mem_cons, List.not_mem_nil, or_false] at hn
  rcases hn with rfl | rfl | rfl | rfl <;> exact completes_dispatchToBuyer

def lampAddressBook : AddressBook where
  decryptContact := decryptContact .mask (fun _ => []) contactKey
  vendorProfiles := none
  notificationChannels _ := none
  ADMIN_NOTIFICATION_EMAIL := none

/-- The buyer of the lamp has left an e-mail address and no number. -/
theorem buyer_reached_where_asked_email :
    let w := World.ofEscrows [Db.lampEscrow .FUNDED]
    let ops := contactRequests [⟨some "a@b.c", none⟩]
    ∃ row', (runOps .encrypting w ops).db.escrows.get "e1" = some row' ∧
      Completes .plain .SHIPPED (toEscrowRecord row') [] [(.EMAIL, "a@b.c")]
        (NotificationsService.notify .plain lampAddressBook (toEscrowRecord row')
          .notifyShipped) := by
  intro w ops
  have hrow : w.db.escrows.get "e1" = some (Db.lampEscrow .FUNDED) := rfl
  have hlast : (acceptedContacts .encrypting "e1" w ops).getLast? = some ⟨some "a@b.c", none⟩ := by
    decide +kernel
  obtain ⟨row', hrow', hreached⟩ := buyer_reached_where_asked .mask (fun _ => [])
    (by decide +kernel) hrow ops (encrypts_contactRequests _) hlast (A := lampAddressBook) rfl
  exact ⟨row', hrow', hreached .plain .notifyShipped List.mem_cons_self⟩

end TrustLink
