import Mathlib.Logic.Function.Basic
import TrustLink.Model.EscrowService

/-!
# TrustLink — the vendor profile

A vendor may own a profile before registering: creating an escrow inserts a placeholder for the
foreign key. Registration (`createProfile`) therefore takes a placeholder over instead of refusing
it, and it tells one by the stored values only: the sentinel description, or the address as the
business name with no description.

Those values survive a partial update. A vendor who has set an e-mail address through
`updateProfile` still owns a placeholder, and registering then replaces every column.
`registration_keeps_iff` says when a run loses nothing by it.
-/

namespace TrustLink

open Effects

/-! ## The table -/

structure VendorProfileRecord where
  address : String
  businessName : String
  email : Option String
  phone : Option String
  description : Option String
  deriving DecidableEq, Repr

/-- The `data` of an update. `none` is `undefined` and leaves the column. -/
structure VendorProfileUpdate where
  businessName : Option String
  email : Option (Option String)
  phone : Option (Option String)
  description : Option (Option String)
  deriving DecidableEq, Repr

def VendorProfileRecord.update (row : VendorProfileRecord) (data : VendorProfileUpdate) :
    VendorProfileRecord where
  address := row.address
  businessName := data.businessName.getD row.businessName
  email := data.email.getD row.email
  phone := data.phone.getD row.phone
  description := data.description.getD row.description

/-- The calls on `prisma.vendorProfile`. -/
inductive ProfileCall where
  | findUnique (address : String)
  | create (data : VendorProfileRecord)
  | upsert (create : VendorProfileRecord) (update : VendorProfileUpdate)
  | update (address : String) (data : VendorProfileUpdate)

def ProfileCall.Resp : ProfileCall → Type
  | .findUnique _ => Option VendorProfileRecord
  | _ => VendorProfileRecord

abbrev profiles : Sig := ⟨ProfileCall, ProfileCall.Resp, Err⟩

/-- The rows of `VendorProfile`, by their primary key. -/
abbrev ProfileTable := String → Option VendorProfileRecord

def ProfileTable.put (t : ProfileTable) (address : String) (row : VendorProfileRecord) :
    Except Err VendorProfileRecord × ProfileTable :=
  (.ok row, Function.update t address (some row))

def ProfileTable.create (t : ProfileTable) (data : VendorProfileRecord) :
    Except Err VendorProfileRecord × ProfileTable :=
  match t data.address with
  | some _ => (.error (.prisma .uniqueConstraint), t)
  | none => t.put data.address data

def ProfileTable.upsert (t : ProfileTable) (create : VendorProfileRecord)
    (update : VendorProfileUpdate) : Except Err VendorProfileRecord × ProfileTable :=
  match t create.address with
  | some row => t.put create.address (row.update update)
  | none => t.put create.address create

def ProfileTable.update (t : ProfileTable) (address : String) (data : VendorProfileUpdate) :
    Except Err VendorProfileRecord × ProfileTable :=
  match t address with
  | some row => t.put address (row.update data)
  | none => (.error (.prisma .recordNotFound), t)

/-- The table behind Prisma: the environment may have a call rejected, which then does nothing. -/
abbrev profileTable : Machine profiles where
  State := ProfileTable
  Choice := Option PrismaError
  handle
    | some e, _, t => (.error (.prisma e), t)
    | none, .findUnique address, t => (.ok (t address), t)
    | none, .create data, t => t.create data
    | none, .upsert create update, t => t.upsert create update
    | none, .update address data, t => t.update address data

/-! ## The repository and the service -/

structure CreateVendorProfileDto where
  businessName : String
  email : Option String
  phone : Option String
  description : Option String
  deriving DecidableEq, Repr

/-- All fields are optional; `businessName` has no `null`, which its transformation makes
`undefined`. -/
abbrev UpdateVendorProfileDto := VendorProfileUpdate

namespace VendorProfileRepository

def create (address : String) (dto : CreateVendorProfileDto) :
    Prog profiles VendorProfileRecord :=
  Prog.perform (S := profiles) (.create
    { address
      businessName := dto.businessName
      email := dto.email
      phone := dto.phone
      description := dto.description })

def findByAddress (address : String) : Prog profiles (Option VendorProfileRecord) :=
  Prog.perform (S := profiles) (.findUnique address)

def upsert (address : String) (dto : CreateVendorProfileDto) :
    Prog profiles VendorProfileRecord :=
  Prog.perform (S := profiles) (.upsert
    { address
      businessName := dto.businessName
      email := dto.email
      phone := dto.phone
      description := dto.description }
    -- a field that the request leaves out is written as null
    { businessName := some dto.businessName
      email := some dto.email
      phone := some dto.phone
      description := some dto.description })

def update (address : String) (dto : UpdateVendorProfileDto) : Prog profiles VendorProfileRecord :=
  Prog.perform (S := profiles) (.update address dto)

end VendorProfileRepository

namespace VendorProfileService

def isPlaceholder (address : String) (existing : VendorProfileRecord) : Bool :=
  existing.description = some EscrowService.VENDOR_PROFILE_PLACEHOLDER_DESCRIPTION ||
    (existing.businessName = address && existing.description = none)

def createProfile (address : String) (dto : CreateVendorProfileDto) :
    Prog profiles VendorProfileRecord := do
  match ← VendorProfileRepository.findByAddress address with
  | some existing =>
    if isPlaceholder address existing then VendorProfileRepository.upsert address dto
    else throw (.conflict "Vendor profile already exists")
  | none => VendorProfileRepository.create address dto

def upsertProfile (address : String) (dto : CreateVendorProfileDto) :
    Prog profiles VendorProfileRecord :=
  VendorProfileRepository.upsert address dto

def updateProfile (address : String) (dto : UpdateVendorProfileDto) :
    Prog profiles VendorProfileRecord := do
  if dto = ⟨none, none, none, none⟩ then throw (.badRequest "No update fields provided")
  else
    match ← VendorProfileRepository.findByAddress address with
    | some _ => VendorProfileRepository.update address dto
    | none => throw (.notFound "Vendor profile not found")

end VendorProfileService

open VendorProfileRepository VendorProfileService

/-- `EscrowService.ensureVendorProfile` on the whole row: its `update` is empty. -/
def ensureProfile (vendorAddress : String) : Prog profiles VendorProfileRecord :=
  Prog.perform (S := profiles) (.upsert
    { address := vendorAddress
      businessName := vendorAddress
      email := none
      phone := none
      description := some EscrowService.VENDOR_PROFILE_PLACEHOLDER_DESCRIPTION }
    ⟨none, none, none, none⟩)

/-! ## Requests of one vendor -/

inductive ProfileRequest where
  /-- The creation of an escrow, as far as it gets to the profile. -/
  | createEscrow
  | createProfile (dto : CreateVendorProfileDto)
  | upsertProfile (dto : CreateVendorProfileDto)
  | updateProfile (dto : UpdateVendorProfileDto)

def ProfileRequest.prog (address : String) : ProfileRequest → Prog profiles VendorProfileRecord
  | .createEscrow => ensureProfile address
  | .createProfile dto => VendorProfileService.createProfile address dto
  | .upsertProfile dto => VendorProfileService.upsertProfile address dto
  | .updateProfile dto => VendorProfileService.updateProfile address dto

inductive ProfileField where
  | businessName
  | email
  | phone
  | description
  deriving DecidableEq, Repr

def VendorProfileRecord.field (row : VendorProfileRecord) : ProfileField → Option String
  | .businessName => some row.businessName
  | .email => row.email
  | .phone => row.phone
  | .description => row.description

def CreateVendorProfileDto.field (dto : CreateVendorProfileDto) : ProfileField → Option String
  | .businessName => some dto.businessName
  | .email => dto.email
  | .phone => dto.phone
  | .description => dto.description

def VendorProfileUpdate.field (data : VendorProfileUpdate) : ProfileField → Option (Option String)
  | .businessName => data.businessName.map some
  | .email => data.email
  | .phone => data.phone
  | .description => data.description

theorem VendorProfileRecord.field_update (row : VendorProfileRecord) (data : VendorProfileUpdate)
    (f : ProfileField) : (row.update data).field f = (data.field f).getD (row.field f) := by
  cases f with
  | businessName =>
    show some (data.businessName.getD row.businessName) = _
    cases hname : data.businessName with
    | none =>
      simp only [VendorProfileUpdate.field, hname]
      rfl
    | some name =>
      simp only [VendorProfileUpdate.field, hname]
      rfl
  | email => rfl
  | phone => rfl
  | description => rfl

/-! ## What a request does to the row

Every request has one of the outcomes below, whatever the database rejects. -/

/-- A field of the row after the request has been accepted. -/
def ProfileRequest.written (address : String) (before : Option VendorProfileRecord)
    (f : ProfileField) : ProfileRequest → Option String
  | .createEscrow =>
    match before with
    | some row => row.field f
    | none =>
      VendorProfileRecord.field ⟨address, address, none, none,
        some EscrowService.VENDOR_PROFILE_PLACEHOLDER_DESCRIPTION⟩ f
  | .createProfile dto => dto.field f
  | .upsertProfile dto => dto.field f
  | .updateProfile dto => (dto.field f).getD (before.bind (·.field f))

/-- A request was refused and has done nothing, or it was accepted. A registration is accepted only
where there is no profile yet, or a placeholder. -/
inductive ProfileRequest.Outcome (address : String) (r : ProfileRequest) (t : ProfileTable) :
    Except Err VendorProfileRecord → ProfileTable → Prop where
  | refused (e : Err) : r.Outcome address t (.error e) t
  | accepted (row : VendorProfileRecord) (t' : ProfileTable) (hrow : t' address = some row)
      (hwritten : ∀ f, row.field f = r.written address (t address) f)
      (hfree : ∀ dto, r = .createProfile dto → ∀ existing, t address = some existing →
        isPlaceholder address existing = true) :
      r.Outcome address t (.ok row) t'

section outcome

variable {address : String} {t : ProfileTable} {r : ProfileRequest}

theorem ProfileRequest.Outcome.put {row : VendorProfileRecord}
    (hwritten : ∀ f, row.field f = r.written address (t address) f)
    (hfree : ∀ dto, r = .createProfile dto → ∀ existing, t address = some existing →
      isPlaceholder address existing = true) :
    r.Outcome address t (t.put address row).1 (t.put address row).2 :=
  .accepted row _ (Function.update_self ..) hwritten hfree

/-- A call that ends a request: it is rejected from outside, or the table answers. -/
theorem wp_last {c : ProfileCall} {Q : Except Err c.Resp → ProfileTable → Prop}
    (hrefused : ∀ e, Q (.error e) t)
    (hanswered : Q (profileTable.handle none c t).1 (profileTable.handle none c t).2) :
    (Prog.perform (S := profiles) c).wp (profileTable.protocol fun _ => True) Q t := by
  refine wp_machine_perform.mpr ?_
  intro ch _
  cases ch with
  | some e => exact hrefused _
  | none => exact hanswered

/-- An upsert that writes every field of the body, whatever was stored. -/
theorem wp_upsert (dto : CreateVendorProfileDto)
    (hwritten : ∀ f, r.written address (t address) f = dto.field f)
    (hfree : ∀ dto, r = .createProfile dto → ∀ existing, t address = some existing →
      isPlaceholder address existing = true) :
    (upsert address dto).wp (profileTable.protocol fun _ => True)
      (r.Outcome address t) t := by
  refine wp_last .refused ?_
  show r.Outcome address t (t.upsert _ _).1 (t.upsert _ _).2
  unfold ProfileTable.upsert
  cases t address with
  | some row =>
    refine .put ?_ hfree
    intro f
    rw [hwritten, VendorProfileRecord.field_update]
    cases f with
    | _ => rfl
  | none =>
    refine .put ?_ hfree
    intro f
    rw [hwritten]
    cases f with
    | _ => rfl

theorem wp_createProfile (dto : CreateVendorProfileDto) :
    (createProfile address dto).wp (profileTable.protocol fun _ => True)
      ((ProfileRequest.createProfile dto).Outcome address t) t := by
  unfold createProfile
  refine wp_machine_bind.mpr ?_
  intro ch _
  cases ch with
  | some e => exact .refused _
  | none =>
    show Prog.wp _ (match t address with
      | some existing => _
      | none => _) _ t
    cases hrow : t address with
    | some existing =>
      apply wp_if
      -- a placeholder is taken over by an upsert, which writes every column
      · intro hplaceholder
        refine wp_upsert dto (fun _ => rfl) ?_
        intro _ _ existing' hrow'
        cases hrow.symm.trans hrow'
        exact hplaceholder
      · intro _
        exact .refused _
    | none =>
      refine wp_last .refused ?_
      show ProfileRequest.Outcome address _ t (t.create _).1 (t.create _).2
      unfold ProfileTable.create
      rw [hrow]
      apply ProfileRequest.Outcome.put
      · intro f
        cases f with
        | _ => rfl
      · intro _ _ existing hexisting
        cases hrow.symm.trans hexisting

theorem wp_updateProfile (dto : UpdateVendorProfileDto) :
    (updateProfile address dto).wp (profileTable.protocol fun _ => True)
      ((ProfileRequest.updateProfile dto).Outcome address t) t := by
  unfold updateProfile
  refine wp_if (fun _ => .refused _) fun _ => ?_
  refine wp_machine_bind.mpr ?_
  intro ch _
  cases ch with
  | some e => exact .refused _
  | none =>
    show Prog.wp _ (match t address with
      | some _ => _
      | none => _) _ t
    cases hrow : t address with
    | none => exact .refused _
    | some existing =>
      refine wp_last .refused ?_
      show ProfileRequest.Outcome address _ t (t.update _ _).1 (t.update _ _).2
      unfold ProfileTable.update
      rw [hrow]
      apply ProfileRequest.Outcome.put
      · intro f
        rw [VendorProfileRecord.field_update, hrow]
        rfl
      · intro _ hcreate
        cases hcreate

theorem wp_ensureProfile :
    (ensureProfile address).wp (profileTable.protocol fun _ => True)
      (ProfileRequest.createEscrow.Outcome address t) t := by
  have hfree : ∀ dto, ProfileRequest.createEscrow = .createProfile dto →
      ∀ existing, t address = some existing →
        isPlaceholder address existing = true := by
    intro _ hcreate
    cases hcreate
  refine wp_last .refused ?_
  show ProfileRequest.Outcome address _ t (t.upsert _ _).1 (t.upsert _ _).2
  unfold ProfileTable.upsert
  cases hrow : t address with
  | some row =>
    refine .put ?_ hfree
    intro f
    rw [hrow, VendorProfileRecord.field_update]
    cases f with
    | _ => rfl
  | none =>
    refine .put ?_ hfree
    intro f
    rw [hrow]
    rfl

variable (address t) in
theorem exec_request (r : ProfileRequest) (env : Nat → Option PrismaError) :
    r.Outcome address t ((r.prog address).exec profileTable env t).1
      ((r.prog address).exec profileTable env t).2 := by
  apply exec_of_wp_any
  cases r with
  | createEscrow => exact wp_ensureProfile
  | createProfile dto => exact wp_createProfile dto
  | upsertProfile dto =>
    refine wp_upsert dto (fun _ => rfl) ?_
    intro _ hcreate
    cases hcreate
  | updateProfile dto => exact wp_updateProfile dto

end outcome

/-! ## Runs

A registration loses a field exactly if it takes a placeholder over and leaves the field out. -/

/-- What an accepted request sets a field to, if it does. A registration that leaves a field out is
not a reset: only the two other endpoints reset. -/
def ProfileRequest.sets (f : ProfileField) : ProfileRequest → Option (Option String)
  | .createEscrow => none
  | .createProfile dto => (dto.field f).map some
  | .upsertProfile dto => some (dto.field f)
  | .updateProfile dto => dto.field f

/-- The fields that an accepted request has set and none has reset since. -/
def keptAfter (kept : ProfileField → Bool) (r : ProfileRequest) :
    Except Err VendorProfileRecord → ProfileField → Bool
  | .ok _, f =>
    match r.sets f with
    | some value => value.isSome
    | none => kept f
  | .error _, f => kept f

/-- A call of `createProfile` in a run, with the choices of the environment it meets. -/
structure Registration where
  dto : CreateVendorProfileDto
  env : Nat → Option PrismaError
  kept : ProfileField → Bool
  before : ProfileTable
  answer : Except Err VendorProfileRecord
  after : ProfileTable

/-- The calls of `createProfile` in a run of requests, each with the environment it meets. -/
def registrations (address : String) : ProfileTable → (ProfileField → Bool) →
    List (ProfileRequest × (Nat → Option PrismaError)) → List Registration
  | _, _, [] => []
  | t, kept, (r, env) :: requests =>
    let (answer, t') := (r.prog address).exec profileTable env t
    (match r with
      | .createProfile dto => [⟨dto, env, kept, t, answer, t'⟩]
      | _ => []) ++ registrations address t' (keptAfter kept r answer) requests

/-- The fields have values in the vendor's row. -/
def FieldsSet (address : String) (kept : ProfileField → Bool) (t : ProfileTable) : Prop :=
  ∀ f, kept f = true → ∃ row, t address = some row ∧ row.field f ≠ none

/-- The call was refused with a conflict and has changed nothing, or no field was lost. -/
def Registration.Keeps (address : String) (g : Registration) : Prop :=
  (∃ message, g.answer = .error (.conflict message)) ∧ g.after = g.before ∨
    FieldsSet address g.kept g.after

/-- If the call finds a placeholder and the database rejects neither the read nor the write, it
supplies every field that had been set. -/
def Registration.Supplies (address : String) (g : Registration) : Prop :=
  ∀ existing, g.env 0 = none → g.env 1 = none → g.before address = some existing →
    isPlaceholder address existing = true →
    ∀ f, g.kept f = true → g.dto.field f ≠ none

/-- The same of a call whose answer is known. -/
def SuppliedBy (address : String) (kept : ProfileField → Bool) (t : ProfileTable)
    (answer : Except Err VendorProfileRecord) (dto : CreateVendorProfileDto) : Prop :=
  ∀ row existing, answer = .ok row → t address = some existing →
    isPlaceholder address existing = true →
    ∀ f, kept f = true → dto.field f ≠ none

section runs

variable {address : String} {t : ProfileTable} {kept : ProfileField → Bool}

/-- A placeholder is taken over unless the database rejects one of the two calls. -/
theorem exec_takeover {existing : VendorProfileRecord} (hexisting : t address = some existing)
    (hplaceholder : isPlaceholder address existing = true)
    (dto : CreateVendorProfileDto) (env : Nat → Option PrismaError) :
    (∃ row, ((createProfile address dto).exec profileTable env t).1 = .ok row) ↔
      env 0 = none ∧ env 1 = none := by
  have hread : (findByAddress address).exec profileTable env t
      = profileTable.handle (env 0) (.findUnique address) t := rfl
  unfold createProfile
  cases hfirst : env 0 with
  | some e =>
    rw [hfirst] at hread
    rw [exec_bind_error hread]
    simp
  | none =>
    replace hread : (findByAddress address).exec profileTable env t = (.ok (some existing), t) := by
      rw [hread, hfirst, ← hexisting]
      rfl
    rw [exec_bind_ok hread]
    dsimp only
    rw [if_pos hplaceholder]
    show (∃ row, (profileTable.handle (env 1) (.upsert _ _) t).1 = .ok row) ↔ _
    cases env 1 with
    | some e => simp
    | none =>
      refine iff_of_true ?_ ⟨rfl, rfl⟩
      show ∃ row, (t.upsert _ _).1 = Except.ok row
      unfold ProfileTable.upsert
      rw [hexisting]
      exact ⟨_, rfl⟩

/-- The choices of the environment tell whether a call that finds a placeholder is accepted. -/
theorem supplies_iff (dto : CreateVendorProfileDto) (env : Nat → Option PrismaError)
    {answer : Except Err VendorProfileRecord} (t' : ProfileTable)
    (hanswer : answer
      = ((createProfile address dto).exec profileTable env t).1) :
    Registration.Supplies address ⟨dto, env, kept, t, answer, t'⟩ ↔
      SuppliedBy address kept t answer dto := by
  subst hanswer
  constructor
  · intro h row existing hok hexisting hplaceholder
    obtain ⟨hread, hwrite⟩ := (exec_takeover hexisting hplaceholder dto env).mp ⟨row, hok⟩
    exact h existing hread hwrite hexisting hplaceholder
  · intro h existing hread hwrite hexisting hplaceholder
    obtain ⟨row, hok⟩ := (exec_takeover hexisting hplaceholder dto env).mpr ⟨hread, hwrite⟩
    exact h row existing hok hexisting hplaceholder

theorem registration_iff (hkept : FieldsSet address kept t) (dto : CreateVendorProfileDto)
    (env : Nat → Option PrismaError) {answer : Except Err VendorProfileRecord} {t' : ProfileTable}
    (h : (ProfileRequest.createProfile dto).Outcome address t answer t') :
    Registration.Keeps address ⟨dto, env, kept, t, answer, t'⟩ ↔
      SuppliedBy address kept t answer dto := by
  cases h with
  | refused e =>
    constructor
    · intro _ row _ hok
      cases hok
    · intro _
      exact .inr hkept
  | accepted row t' hrow hwritten hfree =>
    constructor
    · rintro (⟨⟨_, hconflict⟩, -⟩ | hset)
      · cases hconflict
      · intro _ _ _ _ _ f hf
        obtain ⟨row', hrow', hfield⟩ := hset f hf
        cases hrow.symm.trans hrow'
        rw [hwritten f] at hfield
        exact hfield
    · intro hsupplies
      right
      intro f hf
      refine ⟨row, hrow, ?_⟩
      rw [hwritten f]
      -- a field that is set has a row, and the row was a placeholder
      obtain ⟨existing, hexisting, -⟩ := hkept f hf
      exact hsupplies row existing rfl hexisting (hfree dto rfl existing hexisting) f hf

/-- Fields that are set stay so, as long as registrations supply them. -/
theorem FieldsSet.after (hkept : FieldsSet address kept t) {r : ProfileRequest}
    {answer : Except Err VendorProfileRecord} {t' : ProfileTable}
    (h : r.Outcome address t answer t')
    (hsupplies : ∀ dto, r = .createProfile dto → SuppliedBy address kept t answer dto) :
    FieldsSet address (keptAfter kept r answer) t' := by
  cases h with
  | refused e => exact hkept
  | accepted row t' hrow hwritten hfree =>
    intro f hf
    refine ⟨row, hrow, ?_⟩
    rw [hwritten f]
    simp only [keptAfter] at hf
    cases r with
    | createEscrow =>
      obtain ⟨existing, hexisting, hfield⟩ := hkept f hf
      rw [hexisting]
      exact hfield
    | createProfile dto =>
      show dto.field f ≠ none
      -- a field left out was kept by an earlier request; then the placeholder was taken over with
      -- a body that supplies it
      intro hnone
      simp only [ProfileRequest.sets, hnone] at hf
      obtain ⟨existing, hexisting, -⟩ := hkept f hf
      exact hsupplies dto rfl row existing rfl hexisting (hfree dto rfl existing hexisting) f hf
        hnone
    | upsertProfile dto =>
      exact Option.isSome_iff_ne_none.mp hf
    | updateProfile dto =>
      show (dto.field f).getD ((t address).bind (·.field f)) ≠ none
      cases hset : dto.field f with
      | some value =>
        simp only [ProfileRequest.sets, hset] at hf
        exact Option.isSome_iff_ne_none.mp hf
      | none =>
        simp only [ProfileRequest.sets, hset] at hf
        obtain ⟨existing, hexisting, hfield⟩ := hkept f hf
        rw [hexisting]
        exact hfield

theorem registrations_iff (requests : List (ProfileRequest × (Nat → Option PrismaError))) :
    ∀ {t kept}, FieldsSet address kept t →
      ((∀ g ∈ registrations address t kept requests, g.Keeps address) ↔
        ∀ g ∈ registrations address t kept requests, g.Supplies address) := by
  induction requests with
  | nil =>
    intro t kept _
    constructor
    · intro _ g hg
      cases hg
    · intro _ g hg
      cases hg
  | cons request requests ih =>
    intro t kept hkept
    obtain ⟨r, env⟩ := request
    have houtcome := exec_request address t r env
    rw [registrations]
    generalize hresult : (r.prog address).exec profileTable env t = result at houtcome ⊢
    obtain ⟨answer, t'⟩ := result
    dsimp only at houtcome ⊢
    -- the requests after this one may be compared only if this one has kept what was set:
    -- `keptAfter` speaks of the request, `FieldsSet` of the row
    have hrest : (∀ dto, r = .createProfile dto → SuppliedBy address kept t answer dto) →
        ((∀ g ∈ registrations address t' (keptAfter kept r answer) requests, g.Keeps address) ↔
          ∀ g ∈ registrations address t' (keptAfter kept r answer) requests,
            g.Supplies address) :=
      fun hsupplies => ih (hkept.after houtcome hsupplies)
    cases r with
    | createProfile dto =>
      have hanswer := (congrArg Prod.fst hresult).symm
      rw [List.singleton_append, List.forall_mem_cons, List.forall_mem_cons,
        registration_iff hkept dto env houtcome, supplies_iff dto env t' hanswer]
      refine and_congr_right ?_
      intro hsupplies
      apply hrest
      intro dto' heq
      cases heq
      exact hsupplies
    | createEscrow => exact hrest fun _ hcreate => by cases hcreate
    | upsertProfile dto => exact hrest fun _ hcreate => by cases hcreate
    | updateProfile dto => exact hrest fun _ hcreate => by cases hcreate

end runs

/-- In every sequential run of one vendor's requests, no registration loses a field that had been
set, exactly if each one that meets a placeholder and a database that takes part supplies every such
field. -/
theorem registration_keeps_iff (address : String) (t : ProfileTable)
    (requests : List (ProfileRequest × (Nat → Option PrismaError))) :
    (∀ g ∈ registrations address t (fun _ => false) requests, g.Keeps address) ↔
      ∀ g ∈ registrations address t (fun _ => false) requests, g.Supplies address := by
  apply registrations_iff
  intro f hf
  cases hf

/-- An escrow, then an e-mail address, then a registration without one. -/
def lateRegistration : List (ProfileRequest × (Nat → Option PrismaError)) :=
  [(.createEscrow, fun _ => none),
    (.updateProfile ⟨none, some (some "sales@acme.com"), none, none⟩, fun _ => none),
    (.createProfile ⟨"Acme Electronics", none, none, none⟩, fun _ => none)]

/-- The profile is still a placeholder when the vendor registers, and the address is erased. -/
theorem late_registration_erases_email :
    ∃ g ∈ registrations "GVENDOR" (fun _ => none) (fun _ => false) lateRegistration,
      g.kept .email = true ∧ (g.before "GVENDOR").bind (·.email) = some "sales@acme.com" ∧
      g.answer = .ok ⟨"GVENDOR", "Acme Electronics", none, none, none⟩ ∧
      ¬g.Keeps "GVENDOR" := by
  refine ⟨_, List.mem_singleton.mpr rfl, rfl, rfl, rfl, ?_⟩
  rintro (⟨⟨_, hconflict⟩, -⟩ | hset)
  · cases hconflict
  · obtain ⟨row, hrow, hemail⟩ := hset .email rfl
    cases hrow
    exact hemail rfl

end TrustLink
