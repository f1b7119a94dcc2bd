import Mathlib.Logic.Relation
import TrustLink.Auth.Lineage

/-!
# TrustLink — reuse detection

The authentication services one after the other: logins, rotations of any presented tokens,
challenges, and the two cleanups, with whatever database failures. The tokens created so far stay
chains (`Linear`), because a rotation that runs alone creates a child only for a token it has found
unrevoked and has just revoked.

In a chain there is at most one usable token, at the end: `ReuseDetected` says so, that every
rotated token is revoked, and what follows when one is presented again. The request is rejected and
no token of its owner stays usable, on whichever chain.
-/

namespace TrustLink

open Effects Store

/-! ## Runs

One request after the other, each in its own environment. -/

inductive AuthOp where
  | buildChallenge (accountId : String) (timeout : Nat)
  | verifyAndIssueToken (challengeTx : String)
  | rotateRefreshToken (oldToken : String)
  | cleanupExpiredRefreshTokens
  | cleanupExpiredNonces
  deriving DecidableEq, Repr

def AuthOp.run (C : Sep10Config) : AuthOp → Auth Unit
  | .buildChallenge accountId timeout => (Sep10Service.buildChallenge C accountId timeout).void
  | .verifyAndIssueToken challengeTx => (Sep10Service.verifyAndIssueToken C challengeTx).void
  | .rotateRefreshToken oldToken => (Sep10Service.rotateRefreshToken C oldToken).void
  | .cleanupExpiredRefreshTokens => RefreshTokenCleanupService.cleanupExpiredRefreshTokens
  | .cleanupExpiredNonces => NonceCleanupService.cleanupExpiredNonces

/-- Operations one after the other, each with its own environment. -/
def runAuth (C : Sep10Config) (w : AuthWorld) (ops : List (AuthOp × (Nat → AuthChoice))) :
    AuthWorld :=
  ops.foldl (fun w o => ((o.1.run C).exec authWorld o.2 w).2) w

/-- A call on the real tables. -/
theorem wp_auth_world {A : AuthChoice → Prop} {c : AuthCall} {w : AuthWorld}
    {Q : Except Err c.Resp → AuthWorld → Prop} : (auth c).wp (authWorld.protocol A) Q w ↔
      ∀ ch, A ch → Q (handleAuth ch c w).1 (handleAuth ch c w).2 := wp_machine_perform

/-! ## Chains stay chains

A token gets a child only when it is rotated, and it is revoked first. -/

section linear

variable {C : Sep10Config} {w : AuthWorld} {A : AuthChoice → Prop}

/-- The call creates no child. -/
def Barren (c : AuthCall) : Prop :=
  ∀ userId tokenHash parentTokenId expiresAt,
    c = .refreshTokenCreate userId tokenHash parentTokenId expiresAt → parentTokenId = none

/-- What creates no token bears none. -/
theorem barren_of_not_creates {c : AuthCall} (hc : c.creates = false) : Barren c := by
  intro userId tokenHash parentTokenId expiresAt h
  rw [h] at hc
  cases hc

/-- Calls that bear no child keep the chains. -/
theorem linear_barren {ch : AuthChoice} {c : AuthCall} (hc : Barren c) (h : Linear w) :
    Linear (handleAuth ch c w).2 := by
  cases hcreate : c.creates with
  | false => exact h.retires (handleAuth_retires hcreate)
  | true =>
    cases c with
    | refreshTokenCreate userId tokenHash parentTokenId expiresAt =>
      have hnone := hc userId tokenHash parentTokenId expiresAt rfl
      refine (handleAuth_create ch userId tokenHash expiresAt h fun p hp => ?_).1
      rw [hnone] at hp
      cases hp
    | _ => cases hcreate

/-- So does a program that makes such calls only. -/
theorem wp_barren {α : Type} {p : Auth α} (hp : p.Only Barren) (h : Linear w) :
    p.wp (authWorld.protocol A) (fun _ w' => Linear w') w := by
  refine hp.wp_invariant (fun c w hc hw => ⟨trivial, ?_⟩) h
  rintro r w' ⟨ch, -, heq⟩
  have hlinear : Linear (handleAuth ch c w).2 := linear_barren hc hw
  rw [show handleAuth ch c w = (r, w') from heq] at hlinear
  exact hlinear

theorem only_auth {c : AuthCall} (hc : c.creates = false) : (auth c).Only Barren :=
  only_perform (barren_of_not_creates hc)

/-- A login creates a token without a parent. -/
theorem only_login (userId : String) :
    (Sep10Service.generateAuthTokens C userId none).Only Barren := by
  refine Sep10Service.only_generateAuthTokens (barren_of_not_creates rfl)
    (barren_of_not_creates rfl) fun tokenHash expiresAt => ?_
  intro _ _ parentTokenId _ h
  cases h
  rfl

/-- A login starts a chain of its own. -/
theorem only_verifyAndIssueToken (challengeTx : String) :
    (Sep10Service.verifyAndIssueToken C challengeTx).Only Barren := by
  refine only_bind (only_auth rfl) fun now => ?_
  split
  · exact only_throw _
  · refine only_bind (only_auth rfl) fun found => ?_
    cases found with
    | none => exact only_throw _
    | some nonceRecord =>
      refine only_ite (only_throw _) (only_bind (only_auth rfl) fun now => ?_)
      refine only_ite (only_throw _) (only_bind (only_auth rfl) fun now => ?_)
      split
      · exact only_throw _
      · exact only_bind (only_auth rfl) fun _ => only_login _

theorem only_buildChallenge (accountId : String) (timeout : Nat) :
    (Sep10Service.buildChallenge C accountId timeout).Only Barren := by
  refine only_bind (only_auth rfl) fun now => ?_
  refine only_bind (only_auth rfl) fun random => ?_
  split
  · exact only_throw _
  · split
    · exact only_throw _
    · refine only_bind (only_auth rfl) fun now => ?_
      exact only_bind (only_auth rfl) fun _ => only_pure _

/-- A family is revoked row by row. -/
theorem only_revokeTokenFamily (id : Nat) : (Sep10Service.revokeTokenFamily id).Only Barren := by
  refine only_bind (only_auth rfl) fun found => ?_
  cases found with
  | none => exact only_pure _
  | some t => exact only_bind (only_auth rfl) fun _ => only_pure _

/-- The token was found unrevoked. It is revoked first, so it may bear the child that follows. -/
theorem linear_exchange {t : RefreshToken} (h : Linear w) (hunrevoked : TokenIs false t.id w) :
    (Sep10Service.exchange C t).wp (authWorld.protocol A) (fun _ w' => Linear w') w := by
  rw [Sep10Service.exchange, wp_bind, wp_auth_world]
  intro ch _
  show Prog.wp _ (if t.expiresAt < ch.now then _ else _) _ w
  refine wp_if (fun _ => h) fun _ => ?_
  rw [wp_bind, wp_auth_world]
  intro ch _
  rcases handleAuth_refreshTokenUpdateRevoked ch w t.id with ⟨e, heq⟩ | heq
  · rw [heq]
    exact h
  · rw [heq]
    dsimp only
    have hretires := retires_revokeToken (w := w) t.id
    have hrevoked := revoked_of_revoke hunrevoked
    have hbear : MayBear { w with db := w.db.revokeToken t.id } t.id :=
      ⟨tokenIs_lt hrevoked, fun hfree => not_revoked_of_unrevoked hfree hrevoked,
        (hretires.children t.id).trans (h.children_eq_nil hunrevoked)⟩
    refine Sep10Service.wp_generateAuthTokens (J := Linear)
      (I := fun w => Linear w ∧ MayBear w t.id) (fun _ hw => hw.1) ?_ ?_
      ⟨h.retires hretires, hbear⟩
    · -- the clock and the random source do not touch the world
      rintro c w hc hw
      refine ⟨trivial, ?_⟩
      rintro r w' ⟨ch, -, heq⟩
      rcases hc with rfl | rfl
      · cases heq
        exact hw
      · cases heq
        exact hw
    · rintro w tokenHash expiresAt ⟨hw, hmay⟩
      refine ⟨trivial, ?_⟩
      rintro r w' ⟨ch, -, heq⟩
      have hparent : ∀ p, some t.id = some p → MayBear w p := by
        intro p hp
        cases hp
        exact hmay
      have hcreated := (handleAuth_create ch t.userId tokenHash expiresAt hw hparent).1
      rw [show handleAuth ch (.refreshTokenCreate t.userId tokenHash (some t.id) expiresAt) w
        = (r, w') from heq] at hcreated
      exact hcreated

/-- The old token is revoked before its child is created. -/
theorem linear_rotateRefreshToken (oldToken : String) (h : Linear w) :
    (Sep10Service.rotateRefreshToken C oldToken).wp (authWorld.protocol A)
      (fun _ w' => Linear w') w := by
  rw [Sep10Service.rotateRefreshToken, wp_bind]
  refine (Sep10Service.only_hashToken (K := fun _ => False) oldToken).wp
    (fun _ h => h.elim) fun r => ?_
  cases r with
  | error e => exact h
  | ok tokenHash =>
    dsimp only
    rw [wp_bind, wp_auth_world]
    intro ch _
    rcases handleAuth_cases ch w (.refreshTokenFindByHash tokenHash) with
      ⟨e, heq⟩ | ⟨r, w', hexec, heq⟩
    · rw [heq]
      exact h
    · cases hexec
      rw [heq]
      cases hrow : w.db.refreshTokens.findAlt tokenHash with
      | none => exact h
      | some t =>
        apply wp_if
        · intro _
          exact wp_barren (only_bind (only_revokeTokenFamily t.id) fun _ => only_throw _) h
        · intro hunrevoked
          obtain ⟨ht, -⟩ := Rows.mem_of_findAlt hrow
          exact linear_exchange h ⟨t, ht, rfl, Bool.eq_false_of_not_eq_true hunrevoked⟩

/-- Each request. -/
theorem linear_op (op : AuthOp) (h : Linear w) :
    (op.run C).wp (authWorld.protocol A) (fun _ w' => Linear w') w := by
  cases op with
  | buildChallenge accountId timeout =>
    rw [AuthOp.run, wp_void]
    exact wp_barren (only_buildChallenge accountId timeout) h
  | verifyAndIssueToken challengeTx =>
    rw [AuthOp.run, wp_void]
    exact wp_barren (only_verifyAndIssueToken challengeTx) h
  | rotateRefreshToken oldToken =>
    rw [AuthOp.run, wp_void]
    exact linear_rotateRefreshToken oldToken h
  | cleanupExpiredRefreshTokens =>
    exact wp_barren (only_bind (only_auth rfl) fun _ =>
      only_bind (only_auth rfl) fun _ => only_pure _) h
  | cleanupExpiredNonces =>
    exact wp_barren (only_bind (only_auth rfl) fun _ =>
      only_bind (only_auth rfl) fun _ => only_pure _) h

/-- A whole run. -/
theorem linear_runAuth (ops : List (AuthOp × (Nat → AuthChoice))) (h : Linear w) :
    Linear (runAuth C w ops) := by
  induction ops generalizing w with
  | nil => exact h
  | cons o ops ih =>
    have hfirst : Linear ((o.1.run C).exec authWorld o.2 w).2 :=
      exec_of_wp_any (linear_op o.1 h) o.2
    exact ih hfirst

end linear

/-! ## One usable token per chain

All tokens of a chain but the last have been rotated. -/

/-- The second token was created in exchange for the first. -/
def AuthWorld.ChildOf (w : AuthWorld) (parent child : Nat) : Prop :=
  ∃ t ∈ w.issued, t.id = child ∧ t.parentTokenId = some parent

/-- The token belongs to the rotation chain that starts there. -/
def AuthWorld.InChain (w : AuthWorld) (root id : Nat) : Prop :=
  Relation.ReflTransGen w.ChildOf root id

/-- The token was exchanged for another one. -/
def AuthWorld.Rotated (w : AuthWorld) (id : Nat) : Prop := ∃ child, w.ChildOf id child

section chain

variable {w : AuthWorld} {t t' : RefreshToken}

/-- A token has one child at most. -/
theorem Linear.childOf_rightUnique (h : Linear w) : Relator.RightUnique w.ChildOf := by
  rintro p child child' ⟨t, ht, rfl, hparent⟩ ⟨t', ht', rfl, hparent'⟩
  have hmem : t ∈ w.children p := mem_children.mpr ⟨ht, hparent⟩
  have hmem' : t' ∈ w.children p := mem_children.mpr ⟨ht', hparent'⟩
  have hsingle := h.single p
  match hchildren : w.children p with
  | [] =>
    rw [hchildren] at hmem
    cases hmem
  | [only] =>
    rw [hchildren] at hmem hmem'
    rw [List.mem_singleton.mp hmem, List.mem_singleton.mp hmem']
  | _ :: _ :: rest =>
    rw [hchildren, List.length_cons, List.length_cons] at hsingle
    omega

/-- A rotated token is revoked. -/
theorem Linear.revoked_of_rotated (h : Linear w) (ht : t ∈ w.db.refreshTokens.rows)
    (hrotated : w.Rotated t.id) : t.revoked = true := by
  obtain ⟨child, t', ht', -, hparent⟩ := hrotated
  have hspent := h.spent t' ht' t.id hparent
  exact Bool.eq_true_of_not_eq_false fun hunrevoked => hspent ⟨t, ht, rfl, hunrevoked⟩

/-- Nothing follows an unrevoked token. -/
theorem Linear.end_of_chain (h : Linear w) (ht : t ∈ w.db.refreshTokens.rows)
    (hunrevoked : t.revoked = false) {id : Nat} (hchain : w.InChain t.id id) : t.id = id := by
  rcases Relation.ReflTransGen.cases_head hchain with hsame | ⟨child, hchild, -⟩
  · exact hsame
  · have hrevoked := h.revoked_of_rotated ht ⟨child, hchild⟩
    rw [hunrevoked] at hrevoked
    cases hrevoked

/-- So two usable tokens of one chain are the same. -/
theorem Linear.unrevoked_unique (h : Linear w) {root : Nat} (ht : t ∈ w.db.refreshTokens.rows)
    (ht' : t' ∈ w.db.refreshTokens.rows) (hunrevoked : t.revoked = false)
    (hunrevoked' : t'.revoked = false) (hchain : w.InChain root t.id)
    (hchain' : w.InChain root t'.id) : t = t' := by
  apply Rows.eq_of_key ht ht'
  rcases Relation.ReflTransGen.total_of_right_unique h.childOf_rightUnique hchain hchain' with
    hafter | hafter
  · exact h.end_of_chain ht hunrevoked hafter
  · exact (h.end_of_chain ht' hunrevoked' hafter).symm

end chain

/-! ## A rotated token is presented again

It is found revoked, and every token of its user is revoked. -/

/-- The database works. -/
def AuthChoice.Works (ch : AuthChoice) : Prop := ∀ c, ch.fault c = none

/-- The user has no token left that can be exchanged. -/
def AuthWorld.SignedOut (w : AuthWorld) (userId : String) : Prop :=
  ∀ t ∈ w.db.refreshTokens.rows, t.userId = userId → t.revoked = true

/-- After that the user has no usable token. -/
theorem signedOut_revokeUser (w : AuthWorld) (userId : String) :
    AuthWorld.SignedOut { w with db := w.db.revokeUser userId } userId := by
  intro t ht huser
  obtain ⟨t', -, rfl⟩ := AuthDb.mem_revokeUser.mp ht
  rw [RefreshToken.revokeUser_userId] at huser
  rw [RefreshToken.revokeUser_revoked, huser, decide_eq_true rfl, Bool.or_true]

/-- The request is refused, and the user is signed out. -/
theorem wp_reuse {C : Sep10Config} {w : AuthWorld} {t : RefreshToken} {secret token : String}
    (ht : t ∈ w.db.refreshTokens.rows) (hrevoked : t.revoked = true)
    (hsecret : truthy C.SEP10_JWT_SECRET = some secret) (hhash : C.hmac secret token = t.tokenHash) :
    (Sep10Service.rotateRefreshToken C token).wp (authWorld.protocol AuthChoice.Works)
      (fun r w' =>
        r = .error (.unauthorized "Refresh token reuse detected. All sessions revoked.") ∧
          w'.SignedOut t.userId) w := by
  have hash : Sep10Service.hashToken C token = pure t.tokenHash := by
    rw [Sep10Service.hashToken, Sep10Service.jwtSecret, hsecret, ← hhash]
    rfl
  rw [Sep10Service.rotateRefreshToken, hash, wp_bind, wp_pure]
  dsimp only
  rw [wp_bind, wp_auth_world]
  intro ch hch
  have hfound : w.exec ch (.refreshTokenFindByHash t.tokenHash) = (.ok (some t), w) := by
    show (Except.ok (w.db.refreshTokens.findAlt t.tokenHash), w) = _
    rw [Rows.findAlt_of_mem ht]
  rw [handleAuth_of_exec ch w (hch _) hfound]
  dsimp only
  rw [if_pos hrevoked, wp_bind, Sep10Service.revokeTokenFamily, wp_bind, wp_auth_world]
  intro ch hch
  have hfamily : w.exec ch (.refreshTokenFindById t.id) = (.ok (some t), w) := by
    show (Except.ok (w.db.refreshTokens.find t.id), w) = _
    rw [Rows.find_of_mem ht]
  rw [handleAuth_of_exec ch w (hch _) hfamily]
  dsimp only
  rw [wp_bind, wp_auth_world]
  intro ch hch
  rw [handleAuth_of_exec ch w (hch _) rfl]
  exact ⟨rfl, signedOut_revokeUser w t.userId⟩

/-! ## Reuse detection -/

/-- What reuse detection promises. -/
structure ReuseDetected (C : Sep10Config) (w : AuthWorld) : Prop where
  /-- At most one token of a chain is unrevoked. -/
  usable : ∀ root, ∀ t ∈ w.db.refreshTokens.rows, ∀ t' ∈ w.db.refreshTokens.rows,
    w.InChain root t.id → w.InChain root t'.id → t.revoked = false → t'.revoked = false → t = t'
  rotated : ∀ t ∈ w.db.refreshTokens.rows, w.Rotated t.id → t.revoked = true
  /-- A rotated token that is presented is rejected, and its owner has no usable token left. -/
  presented : ∀ t ∈ w.db.refreshTokens.rows, w.Rotated t.id → ∀ secret token,
    truthy C.SEP10_JWT_SECRET = some secret → C.hmac secret token = t.tokenHash →
    ∀ env : Nat → AuthChoice, (∀ n, (env n).Works) →
      ((Sep10Service.rotateRefreshToken C token).exec authWorld env w).1
          = .error (.unauthorized "Refresh token reuse detected. All sessions revoked.") ∧
        ((Sep10Service.rotateRefreshToken C token).exec authWorld env w).2.SignedOut t.userId

/-- Reuse is detected after every run. The record of created tokens starts with the run, so from a
database without refresh tokens it is the record of all there are. -/
theorem reuse_detected (C : Sep10Config) (db : AuthDb)
    (ops : List (AuthOp × (Nat → AuthChoice))) : ReuseDetected C (runAuth C ⟨db, []⟩ ops) := by
  have h : Linear (runAuth C ⟨db, []⟩ ops) := linear_runAuth ops (linear_of_unissued rfl)
  constructor
  · intro root t ht t' ht' hchain hchain' hunrevoked hunrevoked'
    exact h.unrevoked_unique ht ht' hunrevoked hunrevoked' hchain hchain'
  · intro t ht hrotated
    exact h.revoked_of_rotated ht hrotated
  · intro t ht hrotated secret token hsecret hhash env henv
    exact exec_of_wp (wp_reuse ht (h.revoked_of_rotated ht hrotated) hsecret hhash) henv

-- Alice signs in, exchanges the first token, and somebody presents it again: the second token goes.
example :
    (runAuth .plain AuthWorld.empty
      [(.buildChallenge "alice" 300, fun _ => .calm "1"),
        (.verifyAndIssueToken "alice1", fun _ => .calm "first"),
        (.rotateRefreshToken "first", fun _ => .calm "second")]).db.refreshTokens.rows.map
          (fun t => (t.tokenHash, t.parentTokenId, t.revoked))
        = [("secretsecond", some 1, false), ("secretfirst", none, true)] ∧
      (runAuth .plain AuthWorld.empty
        [(.buildChallenge "alice" 300, fun _ => .calm "1"),
          (.verifyAndIssueToken "alice1", fun _ => .calm "first"),
          (.rotateRefreshToken "first", fun _ => .calm "second"),
          (.rotateRefreshToken "first", fun _ => .calm "third")]).db.refreshTokens.rows.map
            (·.revoked) = [true, true] := by
  decide +kernel

end TrustLink
