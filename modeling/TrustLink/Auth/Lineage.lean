import TrustLink.Auth.Model

/-!
# TrustLink — the lineage of refresh tokens

Every rotation creates a child of the token it was given. `Linear` says that the tokens created so
far form chains: a token has at most one child, and a token that has one is no longer usable. All
calls but one only take unrevoked tokens away (`Retires`), and so keep it; the creation of a child
keeps it where the parent is revoked and has no child yet (`Linear.withToken`).
-/

namespace TrustLink

open Effects Store

/-- The token is stored, and its `revoked` column says so. -/
def TokenIs (revoked : Bool) (id : Nat) (w : AuthWorld) : Prop :=
  ∃ t ∈ w.db.refreshTokens.rows, t.id = id ∧ t.revoked = revoked

/-- The tokens that were ever created with this one as `parentTokenId`. -/
def AuthWorld.children (w : AuthWorld) (id : Nat) : List RefreshToken :=
  w.issued.filter fun t => t.parentTokenId = some id

structure Linear (w : AuthWorld) : Prop where
  parents_lt : ∀ t ∈ w.issued, ∀ p, t.parentTokenId = some p → p < w.db.nextId
  spent : ∀ t ∈ w.issued, ∀ p, t.parentTokenId = some p → ¬ TokenIs false p w
  single : ∀ p, (w.children p).length ≤ 1

section columns

variable {t : RefreshToken} {id : Nat} {userId : String}

theorem RefreshToken.revokeId_revoked : (t.revokeId id).revoked = (t.revoked || t.id = id) := by
  unfold RefreshToken.revokeId
  split
  · next h => simp [h]
  · next h => simp [h]

theorem RefreshToken.revokeUser_revoked :
    (t.revokeUser userId).revoked = (t.revoked || t.userId = userId) := by
  unfold RefreshToken.revokeUser
  split
  · next h => simp [h]
  · next h => simp [h]

theorem RefreshToken.revokeUser_userId : (t.revokeUser userId).userId = t.userId := by
  unfold RefreshToken.revokeUser
  split <;> rfl

end columns

section tokens

variable {w w' : AuthWorld} {id : Nat} {userId : String} {revoked : Bool}

/-- Ids are given out in order. -/
theorem tokenIs_lt (h : TokenIs revoked id w) : id < w.db.nextId := by
  obtain ⟨t, ht, rfl, -⟩ := h
  exact w.db.refreshTokens_lt t ht

theorem not_revoked_of_unrevoked (h : TokenIs false id w) : ¬ TokenIs true id w := by
  rintro ⟨t', ht', hid', hrevoked⟩
  obtain ⟨t, ht, hid, hunrevoked⟩ := h
  have hsame : t' = t := Rows.eq_of_key ht' ht (hid'.trans hid.symm)
  rw [hsame, hunrevoked] at hrevoked
  cases hrevoked

/-- The children of a token are the issued tokens that name it. -/
theorem mem_children {t : RefreshToken} :
    t ∈ w.children id ↔ t ∈ w.issued ∧ t.parentTokenId = some id := by
  rw [AuthWorld.children, List.mem_filter, decide_eq_true_iff]

/-- An unrevoked token has no child. -/
theorem Linear.children_eq_nil (h : Linear w) (hunrevoked : TokenIs false id w) :
    w.children id = [] := by
  apply List.eq_nil_iff_forall_not_mem.mpr
  intro t ht
  obtain ⟨hissued, hparent⟩ := mem_children.mp ht
  exact h.spent t hissued id hparent hunrevoked

/-- Nothing has been created yet. -/
theorem linear_of_unissued (h : w.issued = []) : Linear w where
  parents_lt := by rw [h]; exact nofun
  spent := by rw [h]; exact nofun
  single := by
    intro p
    rw [AuthWorld.children, h]
    exact Nat.zero_le 1

/-- The token that is revoked is revoked. -/
theorem revoked_of_revoke (h : TokenIs revoked id w) :
    TokenIs true id { w with db := w.db.revokeToken id } := by
  obtain ⟨t, ht, hid, -⟩ := h
  refine ⟨t.revokeId id, AuthDb.mem_revokeToken.mpr ⟨t, ht, rfl⟩, ?_, ?_⟩
  · rw [RefreshToken.revokeId_id, hid]
  · rw [RefreshToken.revokeId_revoked, hid, decide_eq_true rfl, Bool.or_true]

end tokens

/-! ## Calls that create nothing

Tokens are revoked or deleted, and the list of issued ones stays. -/

/-- No token is created, and what is unrevoked afterwards was so before. -/
structure Retires (w w' : AuthWorld) : Prop where
  issued : w'.issued = w.issued
  nextId : w.db.nextId ≤ w'.db.nextId
  unrevoked : ∀ id, TokenIs false id w' → TokenIs false id w

section retires

variable {w w' : AuthWorld} {ch : AuthChoice} {c : AuthCall}

/-- No children come or go. -/
theorem Retires.children (h : Retires w w') (id : Nat) : w'.children id = w.children id := by
  rw [AuthWorld.children, AuthWorld.children, h.issued]

/-- So the chains are the same. -/
theorem Linear.retires (h : Linear w) (hretires : Retires w w') : Linear w' where
  parents_lt := by
    intro t ht p hparent
    rw [hretires.issued] at ht
    exact Nat.lt_of_lt_of_le (h.parents_lt t ht p hparent) hretires.nextId
  spent := by
    intro t ht p hparent hunrevoked
    rw [hretires.issued] at ht
    exact h.spent t ht p hparent (hretires.unrevoked p hunrevoked)
  single := by
    intro p
    rw [hretires.children]
    exact h.single p

theorem retires_refl (w : AuthWorld) : Retires w w := ⟨rfl, Nat.le_refl _, fun _ h => h⟩

/-- To leave the tokens alone is a special case. -/
theorem SameTokens.retires (h : SameTokens w w') : Retires w w' where
  issued := h.issued
  nextId := h.nextId
  unrevoked := by
    intro id hunrevoked
    unfold TokenIs at hunrevoked
    rw [h.refreshTokens] at hunrevoked
    exact hunrevoked

theorem retires_revokeToken (id : Nat) : Retires w { w with db := w.db.revokeToken id } where
  issued := rfl
  nextId := Nat.le_refl _
  unrevoked := by
    rintro id' ⟨t, ht, hid, hunrevoked⟩
    obtain ⟨t', ht', rfl⟩ := AuthDb.mem_revokeToken.mp ht
    rw [RefreshToken.revokeId_revoked, Bool.or_eq_false_iff] at hunrevoked
    exact ⟨t', ht', by rw [← hid, RefreshToken.revokeId_id], hunrevoked.1⟩

theorem retires_revokeUser (userId : String) :
    Retires w { w with db := w.db.revokeUser userId } where
  issued := rfl
  nextId := Nat.le_refl _
  unrevoked := by
    rintro id' ⟨t, ht, hid, hunrevoked⟩
    obtain ⟨t', ht', rfl⟩ := AuthDb.mem_revokeUser.mp ht
    rw [RefreshToken.revokeUser_revoked, Bool.or_eq_false_iff] at hunrevoked
    exact ⟨t', ht', by rw [← hid, RefreshToken.revokeUser_id], hunrevoked.1⟩

theorem retires_deleteExpired (before : Time) :
    Retires w { w with db := w.db.deleteExpired before } where
  issued := rfl
  nextId := Nat.le_refl _
  unrevoked := by
    rintro id' ⟨t, ht, hid, hunrevoked⟩
    exact ⟨t, AuthDb.mem_deleteExpired ht, hid, hunrevoked⟩

def AuthCall.creates : AuthCall → Bool
  | .refreshTokenCreate .. => true
  | _ => false

/-- Only a creation creates. -/
theorem handleAuth_retires (hc : c.creates = false) : Retires w (handleAuth ch c w).2 := by
  cases hwrites : c.writesTokens with
  | false => exact (handleAuth_tokens hwrites).retires
  | true =>
    rcases handleAuth_cases ch w c with ⟨e, heq⟩ | ⟨r, w', hexec, heq⟩
    · rw [heq]
      exact retires_refl w
    · rw [heq]
      cases c with
      | refreshTokenUpdateRevoked id =>
        simp only [AuthWorld.exec] at hexec
        split at hexec <;> cases hexec
        exact retires_revokeToken id
      | refreshTokenUpdateManyRevoked userId =>
        cases hexec
        exact retires_revokeUser userId
      | refreshTokenDeleteExpired before =>
        cases hexec
        exact retires_deleteExpired before
      | refreshTokenCreate => cases hc
      | _ => cases hwrites

end retires

/-! ## The creation of a token

It has no children yet, and its parent, if it has one, may bear it. -/

section create

variable {w : AuthWorld} {t : RefreshToken} {hid : t.id = w.db.nextId}
  {hhash : ∀ t' ∈ w.db.refreshTokens.rows, t'.tokenHash ≠ t.tokenHash}

/-- It becomes a child of its parent. -/
theorem children_withToken (id : Nat) : (w.withToken t hid hhash).children id =
    if t.parentTokenId = some id then t :: w.children id else w.children id := by
  simp only [AuthWorld.children, AuthWorld.withToken, List.filter_cons, decide_eq_true_iff]

/-- The stored tokens after a creation, other than the new one. -/
theorem tokenIs_withToken {id : Nat} {revoked : Bool} (hold : id < w.db.nextId) :
    TokenIs revoked id (w.withToken t hid hhash) ↔ TokenIs revoked id w := by
  constructor
  · rintro ⟨t', ht', hid', hrevoked⟩
    rcases (AuthDb.mem_addToken hid hhash).mp ht' with rfl | hmem
    · omega
    · exact ⟨t', hmem, hid', hrevoked⟩
  · rintro ⟨t', ht', hid', hrevoked⟩
    exact ⟨t', (AuthDb.mem_addToken hid hhash).mpr (.inr ht'), hid', hrevoked⟩

/-- The parent may get a child: it is an old token, not usable any more, and has none. -/
structure MayBear (w : AuthWorld) (id : Nat) : Prop where
  lt : id < w.db.nextId
  spent : ¬ TokenIs false id w
  childless : w.children id = []

/-- The chain grows at its end. -/
theorem Linear.withToken (h : Linear w)
    (hparent : ∀ p, t.parentTokenId = some p → MayBear w p) :
    Linear (w.withToken t hid hhash) where
  parents_lt := by
    intro t' ht' p hp
    show p < w.db.nextId + 1
    rcases List.mem_cons.mp ht' with rfl | hold
    · exact Nat.lt_succ_of_lt (hparent p hp).lt
    · exact Nat.lt_succ_of_lt (h.parents_lt t' hold p hp)
  spent := by
    intro t' ht' p hp
    rcases List.mem_cons.mp ht' with rfl | hold
    · rw [tokenIs_withToken (hparent p hp).lt]
      exact (hparent p hp).spent
    · rw [tokenIs_withToken (h.parents_lt t' hold p hp)]
      exact h.spent t' hold p hp
  single := by
    intro p
    rw [children_withToken]
    split
    · next hp =>
      rw [(hparent p hp).childless]
      exact Nat.le_refl 1
    · exact h.single p

/-- The call: the chains stay chains, and only the parent gets a child. -/
theorem handleAuth_create (ch : AuthChoice) (userId tokenHash : String)
    {parentTokenId : Option Nat} (expiresAt : Time) (h : Linear w)
    (hparent : ∀ p, parentTokenId = some p → MayBear w p) :
    Linear (handleAuth ch (.refreshTokenCreate userId tokenHash parentTokenId expiresAt) w).2 ∧
      ∀ id, parentTokenId ≠ some id →
        (handleAuth ch (.refreshTokenCreate userId tokenHash parentTokenId expiresAt) w).2.children id
          = w.children id := by
  rcases handleAuth_refreshTokenCreate ch w userId tokenHash parentTokenId expiresAt
    with ⟨e, heq⟩ | ⟨hhash, heq⟩
  · rw [heq]
    exact ⟨h, fun _ _ => rfl⟩
  · rw [heq]
    exact ⟨h.withToken hparent, fun id hne => (children_withToken id).trans (if_neg hne)⟩

end create

end TrustLink
