import TrustLink.Effects.Claim
import TrustLink.Auth.Lineage

/-!
# TrustLink — a refresh token is exchanged once

`rotateRefreshToken` finds a token unrevoked, revokes it by id and creates its child, in three
calls. Two executions that have both read the unrevoked row both create a child
(`refresh_token_exchanged_twice`).

As with challenges, the race is all there is to it: in every run in which nobody revokes a token
that somebody else has read as unrevoked and may still revoke, a token gets at most one child
(`refresh_token_single_use`). The run may hold any number of rotations of any tokens; those that
detect a reuse revoke all tokens of a user on the way.
-/

namespace TrustLink

open Effects Store

inductive Rotating where
  | start
  /-- The token with this id was read unrevoked. -/
  | sawUnrevoked (id : Nat)
  | revoked (id : Nat)
  /-- The child was created. -/
  | rotated (id : Nat)
  deriving DecidableEq, Repr

namespace Rotating

def next (v : Rotating) : (c : AuthCall) → Except Err c.Resp → Rotating
  | .refreshTokenFindByHash _, .ok (some row) => if row.revoked then v else .sawUnrevoked row.id
  | .refreshTokenUpdateRevoked id, .ok _ => .revoked id
  | .refreshTokenCreate _ _ (some id) _, .ok _ => .rotated id
  | _, _ => v

def ok (v : Rotating) : AuthCall → Prop
  | .refreshTokenFindByHash _ => True
  | .refreshTokenUpdateRevoked id => v = .sawUnrevoked id
  | .refreshTokenCreate _ _ parentTokenId _ => ∃ id, parentTokenId = some id ∧ v = .revoked id
  | .refreshTokenUpdateManyRevoked _ => v = .start
  | c => c.writesTokens = false

def Knows (v : Rotating) (id : Nat) : Prop := v = .sawUnrevoked id

def Owns (v : Rotating) (id : Nat) : Prop := v = .revoked id ∨ v = .rotated id

end Rotating

def rotation : Monitor authentication String Rotating where
  init _ := .start
  next := Rotating.next
  ok := Rotating.ok
  ans _ _ _ := True

def RevokesToken (id : Nat) (c : AuthCall) : Prop := c = .refreshTokenUpdateRevoked id

/-! ## The token as a lock

A token is the lock of the library's `Claim`: read unrevoked, then revoked. -/

section lock

variable {v : Rotating} {c : AuthCall} {w : AuthWorld} {ch : AuthChoice} {id : Nat}

theorem Rotating.next_error (e : Err) : v.next c (.error e) = v := by
  cases c with
  | refreshTokenCreate userId tokenHash parentTokenId expiresAt => cases parentTokenId <;> rfl
  | _ => rfl

/-- The calls of a rotation that matter. -/
theorem Rotating.ok_cases (hok : v.ok c) :
    (∃ tokenHash, c = .refreshTokenFindByHash tokenHash) ∨
      (∃ id, c = .refreshTokenUpdateRevoked id ∧ v = .sawUnrevoked id) ∨
      (∃ id userId tokenHash expiresAt,
        c = .refreshTokenCreate userId tokenHash (some id) expiresAt ∧ v = .revoked id) ∨
      (∃ userId, c = .refreshTokenUpdateManyRevoked userId ∧ v = .start) ∨
      (c.writesTokens = false ∧ ∀ r, v.next c r = v) := by
  cases c with
  | refreshTokenFindByHash tokenHash => exact .inl ⟨tokenHash, rfl⟩
  | refreshTokenUpdateRevoked id => exact .inr (.inl ⟨id, rfl, hok⟩)
  | refreshTokenCreate userId tokenHash parentTokenId expiresAt =>
    obtain ⟨id, rfl, hv⟩ := hok
    exact .inr (.inr (.inl ⟨id, userId, tokenHash, expiresAt, rfl, hv⟩))
  | refreshTokenUpdateManyRevoked userId =>
    exact .inr (.inr (.inr (.inl ⟨userId, rfl, hok⟩)))
  | _ => exact .inr (.inr (.inr (.inr ⟨hok, fun _ => rfl⟩)))

/-- What a lookup tells the execution: nothing, or that the token is unrevoked. -/
theorem Rotating.next_find (v : Rotating) (ch : AuthChoice) (w : AuthWorld) (tokenHash : String) :
    (handleAuth ch (.refreshTokenFindByHash tokenHash) w).2 = w ∧
      (v.next _ (handleAuth ch (.refreshTokenFindByHash tokenHash) w).1 = v ∨
        ∃ id, v.next _ (handleAuth ch (.refreshTokenFindByHash tokenHash) w).1
            = .sawUnrevoked id ∧ TokenIs false id w) := by
  rcases handleAuth_cases ch w (.refreshTokenFindByHash tokenHash) with
    ⟨e, heq⟩ | ⟨r, w', hexec, heq⟩
  · rw [heq]
    exact ⟨rfl, .inl (Rotating.next_error e)⟩
  · cases hexec
    rw [heq]
    refine ⟨rfl, ?_⟩
    cases hrow : w.db.refreshTokens.findAlt tokenHash with
    | none => exact .inl rfl
    | some t =>
      obtain ⟨ht, -⟩ := Rows.mem_of_findAlt hrow
      cases hrevoked : t.revoked with
      | true =>
        refine .inl ?_
        simp only [Rotating.next, hrevoked, if_true]
      | false =>
        refine .inr ⟨t.id, ?_, t, ht, rfl, hrevoked⟩
        simp only [Rotating.next, hrevoked, Bool.false_eq_true, if_false]

theorem tokenIs_same {revoked : Bool} (hc : c.writesTokens = false) :
    TokenIs revoked id (handleAuth ch c w).2 ↔ TokenIs revoked id w := by
  unfold TokenIs
  rw [(handleAuth_tokens hc).refreshTokens]

/-- A revoked token stays revoked, whatever a rotation does. -/
theorem revoked_kept (hok : v.ok c) (h : TokenIs true id w) :
    TokenIs true id (handleAuth ch c w).2 := by
  rcases Rotating.ok_cases hok with
    ⟨tokenHash, rfl⟩ | ⟨id', rfl, -⟩ | ⟨id', userId, tokenHash, expiresAt, rfl, -⟩ |
      ⟨userId, rfl, -⟩ | ⟨hreads, -⟩
  · exact (tokenIs_same rfl).mpr h
  · rcases handleAuth_refreshTokenUpdateRevoked ch w id' with ⟨e, heq⟩ | heq
    · rw [heq]
      exact h
    · rw [heq]
      obtain ⟨t, ht, hid, hrevoked⟩ := h
      refine ⟨t.revokeId id', AuthDb.mem_revokeToken.mpr ⟨t, ht, rfl⟩, ?_, ?_⟩
      · rw [RefreshToken.revokeId_id, hid]
      · rw [RefreshToken.revokeId_revoked, hrevoked, Bool.true_or]
  · rcases handleAuth_refreshTokenCreate ch w userId tokenHash (some id') expiresAt
      with ⟨e, heq⟩ | ⟨hhash, heq⟩
    · rw [heq]
      exact h
    · rw [heq]
      exact (tokenIs_withToken (tokenIs_lt h)).mpr h
  · rcases handleAuth_cases ch w (.refreshTokenUpdateManyRevoked userId) with
      ⟨e, heq⟩ | ⟨r, w', hexec, heq⟩
    · rw [heq]
      exact h
    · cases hexec
      rw [heq]
      obtain ⟨t, ht, hid, hrevoked⟩ := h
      refine ⟨t.revokeUser userId, AuthDb.mem_revokeUser.mpr ⟨t, ht, rfl⟩, ?_, ?_⟩
      · rw [RefreshToken.revokeUser_id, hid]
      · rw [RefreshToken.revokeUser_revoked, hrevoked, Bool.true_or]
  · exact (tokenIs_same hreads).mpr h

/-- What one call does to an execution: nothing, and then it has not touched what it knows; it has
read a token unrevoked; it has revoked that token; it has created the child. -/
theorem Rotating.next_cases (ch : AuthChoice) (w : AuthWorld) (hok : v.ok c) :
    (v.next c (handleAuth ch c w).1 = v ∧ ∀ id, v = .sawUnrevoked id →
        TokenIs false id w → TokenIs false id (handleAuth ch c w).2) ∨
      (∃ id, v.next c (handleAuth ch c w).1 = .sawUnrevoked id ∧
        TokenIs false id (handleAuth ch c w).2) ∨
      (∃ id, c = .refreshTokenUpdateRevoked id ∧ v = .sawUnrevoked id ∧
        v.next c (handleAuth ch c w).1 = .revoked id ∧
        (handleAuth ch c w).2 = { w with db := w.db.revokeToken id }) ∨
      (∃ id, v = .revoked id ∧ v.next c (handleAuth ch c w).1 = .rotated id) := by
  rcases Rotating.ok_cases hok with
    ⟨tokenHash, rfl⟩ | ⟨id, rfl, hv⟩ | ⟨id, userId, tokenHash, expiresAt, rfl, hv⟩ |
      ⟨userId, rfl, hv⟩ | ⟨hreads, hv⟩
  · obtain ⟨hsame, hnext | ⟨id, hnext, hunrevoked⟩⟩ := v.next_find ch w tokenHash
    · exact .inl ⟨hnext, fun id _ => (tokenIs_same rfl).mpr⟩
    · rw [hsame]
      exact .inr (.inl ⟨id, hnext, hunrevoked⟩)
  · rcases handleAuth_refreshTokenUpdateRevoked ch w id with ⟨e, heq⟩ | heq
    · rw [heq]
      exact .inl ⟨Rotating.next_error e, fun _ _ h => h⟩
    · rw [heq]
      exact .inr (.inr (.inl ⟨id, rfl, hv, rfl, rfl⟩))
  · rcases handleAuth_refreshTokenCreate ch w userId tokenHash (some id) expiresAt
      with ⟨e, heq⟩ | ⟨hhash, heq⟩
    · rw [heq]
      exact .inl ⟨Rotating.next_error e, fun _ _ h => h⟩
    · rw [heq]
      exact .inr (.inr (.inr ⟨id, hv, rfl⟩))
  · refine .inl ⟨rfl, fun id hid => ?_⟩
    rw [hv] at hid
    cases hid
  · exact .inl ⟨hv _, fun id _ => (tokenIs_same hreads).mpr⟩

theorem rotation_reads (hok : v.ok c) (h : (v.next c (handleAuth ch c w).1).Knows id) :
    TokenIs false id (handleAuth ch c w).2 ∨
      (v.Knows id ∧ (TokenIs false id w → TokenIs false id (handleAuth ch c w).2)) := by
  rcases Rotating.next_cases ch w hok with
    ⟨hnext, hkept⟩ | ⟨id', hnext, hunrevoked⟩ | ⟨id', -, -, hnext, -⟩ | ⟨id', -, hnext⟩
  · rw [hnext] at h
    exact .inr ⟨h, hkept id h⟩
  · rw [hnext] at h
    cases h
    exact .inl hunrevoked
  · rw [hnext] at h
    cases h
  · rw [hnext] at h
    cases h

theorem rotation_locks (hok : v.ok c)
    (hfacts : ∀ id, v.Knows id → RevokesToken id c → TokenIs false id w)
    (howned : ∀ id, v.Owns id → TokenIs true id w) (id : Nat) :
    rotation.LockStep (M := authWorld) Rotating.Owns (TokenIs true) v c w ch id := by
  constructor
  · intro h
    have h : (v.next c (handleAuth ch c w).1).Owns id := h
    rcases Rotating.next_cases ch w hok with
      ⟨hnext, -⟩ | ⟨id', hnext, -⟩ | ⟨id', rfl, hv, hnext, hw⟩ | ⟨id', hv, hnext⟩
    · rw [hnext] at h
      exact ⟨revoked_kept hok (howned id h), .inl h⟩
    · rw [hnext] at h
      rcases h with h | h <;> cases h
    · -- the token was still unrevoked when it was revoked
      rw [hnext] at h
      rcases h with h | h <;> cases h
      have hunrevoked := hfacts id hv rfl
      refine ⟨?_, .inr (not_revoked_of_unrevoked hunrevoked)⟩
      show TokenIs true id (handleAuth ch (.refreshTokenUpdateRevoked id) w).2
      rw [hw]
      exact revoked_of_revoke hunrevoked
    · rw [hnext] at h
      rcases h with h | h <;> cases h
      exact ⟨revoked_kept hok (howned id (.inl hv)), .inl (.inl hv)⟩
  · intro hrevoked
    exact .inl (revoked_kept hok hrevoked)

theorem rotation_claiming : rotation.Claiming (M := authWorld) Rotating.Knows Rotating.Owns
    RevokesToken (TokenIs false) (TokenIs true) where
  init_knows _ _ h := nomatch h
  init_owns _ _ h := by rcases h with h | h <;> cases h
  answers _ _ _ _ := trivial
  reads _ _ _ _ hok _ h := rotation_reads hok h
  locks _ _ _ _ hok hfacts howned id := rotation_locks hok hfacts howned id

end lock

/-! ## An execution keeps to it -/

section execution

variable {C : Sep10Config} {v : Rotating}

theorem wp_rotation_find {α : Type} {c : AuthCall} (hc : c.writesTokens = false)
    (hfind : ∀ tokenHash, c ≠ .refreshTokenFindByHash tokenHash)
    {f : c.Resp → Auth α} (h : ∀ r, (f r).wp rotation.protocol (fun _ _ => True) v) :
    (auth c >>= f).wp rotation.protocol (fun _ _ => True) v := by
  have hok : v.ok c ∧ ∀ r, v.next c r = v := by
    cases c with
    | refreshTokenFindByHash tokenHash => exact absurd rfl (hfind tokenHash)
    | refreshTokenUpdateRevoked | refreshTokenUpdateManyRevoked | refreshTokenCreate => cases hc
    | _ => exact ⟨hc, fun _ => rfl⟩
  rw [wp_bind, wp_auth]
  refine ⟨hok.1, ?_⟩
  rintro r v' ⟨-, rfl⟩
  rw [show rotation.next v c r = v from hok.2 r]
  cases r with
  | error e => trivial
  | ok r => exact h r

theorem wp_exchange (C : Sep10Config) (t : RefreshToken) :
    (Sep10Service.exchange C t).wp rotation.protocol (fun _ _ => True) (.sawUnrevoked t.id) := by
  unfold Sep10Service.exchange
  refine wp_rotation_find rfl (fun _ => AuthCall.noConfusion) fun now => ?_
  refine wp_if (fun _ => trivial) fun _ => ?_
  rw [wp_bind, wp_auth]
  refine ⟨rfl, ?_⟩
  rintro r v' ⟨-, rfl⟩
  cases r with
  | error e => trivial
  | ok _ =>
    refine Sep10Service.wp_generateAuthTokens (I := fun v => v = .revoked t.id)
      (J := fun _ => True) (fun _ _ => trivial) ?_ ?_ rfl
    · rintro c v hc rfl
      rcases hc with rfl | rfl
      · exact ⟨rfl, fun r v' h => h.2⟩
      · exact ⟨rfl, fun r v' h => h.2⟩
    · rintro v tokenHash expiresAt rfl
      exact ⟨⟨t.id, rfl, rfl⟩, fun _ _ _ => trivial⟩

theorem wp_revokeTokenFamily (id : Nat) :
    (Sep10Service.revokeTokenFamily id).wp rotation.protocol (fun _ v => v = .start) .start := by
  rw [Sep10Service.revokeTokenFamily, wp_bind, wp_auth]
  refine ⟨rfl, ?_⟩
  rintro r v' ⟨-, rfl⟩
  match r with
  | .error e => rfl
  | .ok none => rfl
  | .ok (some t) =>
    dsimp only
    rw [wp_bind, wp_auth]
    refine ⟨rfl, ?_⟩
    rintro r v' ⟨-, rfl⟩
    cases r with
    | error e => rfl
    | ok _ => rfl

abbrev rotator (C : Sep10Config) (oldToken : String) : Auth Unit :=
  (Sep10Service.rotateRefreshToken C oldToken).void

theorem wp_rotateRefreshToken (C : Sep10Config) (oldToken : String) :
    (rotator C oldToken).wp rotation.protocol (fun _ _ => True) (rotation.init oldToken) := by
  rw [wp_void, Sep10Service.rotateRefreshToken, wp_bind]
  refine (Sep10Service.only_hashToken (K := fun _ => False) oldToken).wp
    (fun _ h => h.elim) fun r => ?_
  cases r with
  | error e => trivial
  | ok tokenHash =>
    dsimp only
    rw [wp_bind, wp_auth]
    refine ⟨trivial, ?_⟩
    rintro r v' ⟨-, rfl⟩
    match r with
    | .error e => trivial
    | .ok none => trivial
    | .ok (some t) =>
      apply wp_if
      · intro hrevoked
        have hv : rotation.next (rotation.init oldToken) (.refreshTokenFindByHash tokenHash)
            (.ok (some t)) = .start := if_pos hrevoked
        rw [hv]
        exact wp_seq (wp_revokeTokenFamily t.id) (fun _ _ _ => trivial) fun _ _ _ => trivial
      · intro hunrevoked
        have hv : rotation.next (rotation.init oldToken) (.refreshTokenFindByHash tokenHash)
            (.ok (some t)) = .sawUnrevoked t.id := if_neg hunrevoked
        rw [hv]
        exact wp_exchange C t

end execution

/-! ## Runs -/

/-- Any number of rotations, each with the token it presents. -/
abbrev Rotations := Pool authWorld String

abbrev runRotations (C : Sep10Config) (db : AuthDb) (ms : List (Move authWorld String)) :
    Rotations := Pool.run (rotator C) ⟨⟨db, []⟩, []⟩ ms

/-- Nobody revokes a token that somebody else has read as unrevoked and may still revoke. -/
abbrev NoRotationRace : Rotations → Move authWorld String → Prop :=
  rotation.NoRace (M := authWorld) Rotating.Knows RevokesToken (TokenIs false)

/-- The chains are chains, and whoever has revoked a token is about to create its first child. -/
structure Rotatable (P : Rotations) : Prop where
  linear : Linear P.state
  childless : ∀ t ∈ P.threads, ∀ id, rotation.view t = .revoked id → P.state.children id = []

section step

variable {P : Rotations} {i : Nat} {ch : AuthChoice} {t : Thread authentication String}
  {c : AuthCall} {k : Except Err c.Resp → Auth Unit}

/-- What the mover has revoked it has just revoked, while it had no child, or had revoked before. -/
theorem childless_mover (hsound : rotation.Sound (M := authWorld) Rotating.Knows RevokesToken
      (TokenIs false) P) (h : Rotatable P) (ht : P.threads[i]? = some t)
    (hr : t.rest = .call c k) (hok : (rotation.view t).ok c) {id : Nat}
    (hview : (rotation.view t).next c (handleAuth ch c P.state).1 = .revoked id) :
    P.state.children id = [] := by
  have hmem := List.mem_of_getElem? ht
  rcases Rotating.next_cases ch P.state hok with
    ⟨hnext, -⟩ | ⟨id', hnext, -⟩ | ⟨id', rfl, hv, hnext, -⟩ | ⟨id', -, hnext⟩
  · exact h.childless t hmem id (hnext.symm.trans hview)
  · rw [hnext] at hview
    cases hview
  · rw [hnext] at hview
    cases hview
    have hunrevoked : TokenIs false id P.state := Monitor.holds_of_head hsound hmem hr hv rfl
    exact h.linear.children_eq_nil hunrevoked
  · rw [hnext] at hview
    cases hview

/-- The parent of a new child is revoked, childless, and has no other owner. -/
theorem rotatable_create {userId tokenHash : String} {id : Nat} {expiresAt : Time}
    {k : Except Err Unit → Auth Unit} (h : Rotatable P)
    (hexclusive : rotation.Exclusive (M := authWorld) Rotating.Owns (TokenIs true) P)
    (ht : P.threads[i]? = some t) (hview : rotation.view t = .revoked id) :
    Rotatable (P.advance i t (.refreshTokenCreate userId tokenHash (some id) expiresAt) k ch) := by
  have hmem := List.mem_of_getElem? ht
  have hrevoked := hexclusive.locked t hmem id (.inl hview)
  have hbear : MayBear P.state id :=
    ⟨tokenIs_lt hrevoked, fun hfree => not_revoked_of_unrevoked hfree hrevoked,
      h.childless t hmem id hview⟩
  have hparent : ∀ p, some id = some p → MayBear P.state p := by
    intro p hp
    cases hp
    exact hbear
  obtain ⟨hlinear, hothers⟩ := handleAuth_create ch userId tokenHash expiresAt h.linear hparent
  refine ⟨hlinear, fun t' ht' id' hview' => ?_⟩
  obtain ⟨j, hj⟩ := List.mem_iff_getElem?.mp ht'
  rcases Pool.advance_threads_cases hj with ⟨_, rfl⟩ | ⟨hne, hold⟩
  · -- the mover has created the child, or its call was rejected
    have hview' : (rotation.view t).next (.refreshTokenCreate userId tokenHash (some id) expiresAt)
      (handleAuth ch (.refreshTokenCreate userId tokenHash (some id) expiresAt) P.state).1
        = .revoked id' := hview'
    show (handleAuth ch (.refreshTokenCreate userId tokenHash (some id) expiresAt)
      P.state).2.children id' = []
    rcases handleAuth_refreshTokenCreate ch P.state userId tokenHash (some id)
      expiresAt with ⟨e, heq⟩ | ⟨hhash, heq⟩
    · rw [heq, Rotating.next_error] at hview'
      rw [heq]
      exact h.childless t hmem id' hview'
    · rw [heq] at hview'
      cases hview'
  · have hchildless := h.childless t' (List.mem_of_getElem? hold) id' hview'
    refine (hothers id' fun hsame => ?_).trans hchildless
    cases hsame
    exact hne (hexclusive.unique j i t' t id hold ht (.inl hview') (.inl hview))

theorem rotatable_step (hsound : rotation.Sound (M := authWorld) Rotating.Knows RevokesToken
      (TokenIs false) P)
    (hexclusive : rotation.Exclusive (M := authWorld) Rotating.Owns (TokenIs true) P)
    (h : Rotatable P) (ht : P.threads[i]? = some t) (hr : t.rest = .call c k)
    (hok : (rotation.view t).ok c) : Rotatable (P.advance i t c k ch) := by
  cases hcreate : c.creates with
  | true =>
    cases c with
    | refreshTokenCreate userId tokenHash parentTokenId expiresAt =>
      obtain ⟨id, rfl, hview⟩ := hok
      exact rotatable_create h hexclusive ht hview
    | _ => cases hcreate
  | false =>
    have hretires : Retires P.state (handleAuth ch c P.state).2 := handleAuth_retires hcreate
    refine ⟨h.linear.retires hretires, fun t' ht' id hview => ?_⟩
    refine (hretires.children id).trans ?_
    rcases Pool.mem_advance ht' with rfl | hold
    · exact childless_mover hsound h ht hr hok hview
    · exact h.childless t' hold id hview

/-- An execution that starts has revoked nothing. -/
theorem rotatable_spawn {C : Sep10Config} (h : Rotatable P) (oldToken : String) :
    Rotatable { P with threads := P.threads ++ [⟨oldToken, [], rotator C oldToken⟩] } := by
  refine ⟨h.linear, fun t ht id hview => ?_⟩
  rcases Pool.mem_spawn ht with hold | rfl
  · exact h.childless t hold id hview
  · cases hview

end step

/-- In every run without a race a token gets at most one child. -/
theorem refresh_token_single_use (C : Sep10Config) (db : AuthDb)
    (ms : List (Move authWorld String))
    (hrun : Pool.Admissible (rotator C) NoRotationRace ⟨⟨db, []⟩, []⟩ ms) (id : Nat) :
    ((runRotations C db ms).state.children id).length ≤ 1 := by
  have hstart : Rotatable ⟨⟨db, []⟩, []⟩ := ⟨linear_of_unissued rfl, nofun⟩
  obtain ⟨-, -, hrotatable⟩ := rotation_claiming.run_observed (γ := Unit)
    (wp_rotateRefreshToken C) (fun _ _ => []) (J := fun _ P => Rotatable P)
    (fun _ _ _ _ h => h) (fun _ oldToken _ h => rotatable_spawn h oldToken)
    (fun _ _ _ _ _ _ _ hsound hexclusive h ht hr hok =>
      rotatable_step hsound hexclusive h ht hr hok) ms ⟨db, []⟩ hrun hstart
  exact hrotatable.linear.single id

/-- A token of Alice's, stored and unrevoked. -/
def AuthDb.signedIn : AuthDb :=
  (AuthWorld.empty.exec (.calm "") (.refreshTokenCreate "alice" "secretold" none 604800000)).2.db

/-- Two executions present the token, one after the other. -/
def rotationsInTurn : List (Move authWorld String) :=
  .spawn "old" :: List.replicate 7 (.step 0 (.calm "a")) ++
    .spawn "old" :: List.replicate 7 (.step 1 (.calm "b"))

/-- The first creates the child, the second none. -/
theorem refresh_token_single_use_in_turn :
    ((runRotations .plain .signedIn rotationsInTurn).state.children 0).length = 1 ∧
      ((runRotations .plain .signedIn rotationsInTurn).state.children 0).length ≤ 1 := by
  have hturn : Pool.Admissible (rotator .plain) Pool.InTurn
      (⟨⟨.signedIn, []⟩, []⟩ : Pool authWorld String) rotationsInTurn := by
    decide +kernel
  exact ⟨by decide +kernel, refresh_token_single_use .plain .signedIn rotationsInTurn
    (hturn.mono fun _ _ => Monitor.undisturbed_in_turn fun _ _ _ => trivial) 0⟩

/-- Two executions present one token, and both have read its row before either revokes it. -/
def racingRotations : List (Move authWorld String) :=
  [.spawn "old", .spawn "old", .step 0 (.calm "a"), .step 1 (.calm "b")] ++
    List.replicate 6 (.step 0 (.calm "a")) ++ List.replicate 6 (.step 1 (.calm "b"))

/-- Both create a child. -/
theorem refresh_token_exchanged_twice :
    ((runRotations .plain .signedIn racingRotations).state.children 0).length = 2 := by
  decide +kernel

end TrustLink
