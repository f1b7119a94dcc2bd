import TrustLink.Effects.Claim
import TrustLink.Auth.Model

/-!
# TrustLink — a challenge is redeemed once

The nonce row of a challenge is what makes it one-time: `verifyAndIssueToken` finds the row unused
and then marks it used. These are two calls, and the second does not look at the column again, so
two executions that have both read the unused row both get tokens (`challenge_redeemed_twice`).

The row is claimed by check-then-act, and `Effects/Claim.lean` says what that is worth: in every
run in which nobody marks a row that somebody else has read as unused and may still mark, at most
one execution returns tokens for a challenge (`challenge_one_time`).
-/

namespace TrustLink

open Effects Store

/-! ## What an execution has of its row -/

inductive Redeeming where
  | start
  /-- The row with this id was read unused. -/
  | sawUnused (id : Nat)
  | marked (id : Nat)
  deriving DecidableEq, Repr

structure Redemption where
  /-- The hash of the challenge that is presented, if it has one. -/
  nonce : Option String
  stage : Redeeming
  deriving DecidableEq, Repr

namespace Redemption

def next (v : Redemption) : (c : AuthCall) → Except Err c.Resp → Redemption
  | .nonceFindUnique _, .ok (some row) =>
    if row.used then v else { v with stage := .sawUnused row.id }
  | .nonceUpdateUsed id, .ok _ => { v with stage := .marked id }
  | _, _ => v

def ok (v : Redemption) : AuthCall → Prop
  | .nonceFindUnique nonce => v.nonce = some nonce
  | .nonceUpdateUsed id => v.stage = .sawUnused id
  | c => c.writesNonces = false

/-- A row is named by its nonce and its id. -/
def Knows (v : Redemption) (row : String × Nat) : Prop :=
  v.nonce = some row.1 ∧ v.stage = .sawUnused row.2

def Owns (v : Redemption) (row : String × Nat) : Prop :=
  v.nonce = some row.1 ∧ v.stage = .marked row.2

end Redemption

def redemption (C : Sep10Config) : Monitor authentication String Redemption where
  init challengeTx := ⟨(C.hashTx challengeTx).toOption, .start⟩
  next := Redemption.next
  ok := Redemption.ok
  ans _ _ _ := True

def MarksNonce (row : String × Nat) (c : AuthCall) : Prop := c = .nonceUpdateUsed row.2

/-- The row is stored, and its `used` column says so. -/
def NonceIs (used : Bool) (row : String × Nat) (w : AuthWorld) : Prop :=
  ∃ n ∈ w.db.nonces.rows, n.nonce = row.1 ∧ n.id = row.2 ∧ n.used = used

section nonce

variable {w : AuthWorld} {row : String × Nat} {id : Nat} {n : Nonce} {used : Bool}

theorem Nonce.markUsed_used : (n.markUsed id).used = (n.used || n.id = id) := by
  unfold Nonce.markUsed
  split
  · next h => simp [h]
  · next h => simp [h]

theorem not_used_of_unused (h : NonceIs false row w) : ¬ NonceIs true row w := by
  rintro ⟨n', hn', -, hid', hused⟩
  obtain ⟨n, hn, -, hid, hunused⟩ := h
  have hsame : n' = n := Rows.eq_of_key hn' hn (hid'.trans hid.symm)
  rw [hsame, hunused] at hused
  cases hused

/-- A used row stays used when any row is marked. -/
theorem used_useNonce (h : NonceIs true row w) :
    NonceIs true row { w with db := w.db.useNonce id } := by
  obtain ⟨n, hn, hnonce, hid, hused⟩ := h
  refine ⟨n.markUsed id, AuthDb.mem_useNonce.mpr ⟨n, hn, rfl⟩, ?_, ?_, ?_⟩
  · rw [Nonce.markUsed_nonce, hnonce]
  · rw [Nonce.markUsed_id, hid]
  · rw [Nonce.markUsed_used, hused, Bool.true_or]

/-- The row that is marked is used. -/
theorem used_of_mark (h : NonceIs used row w) :
    NonceIs true row { w with db := w.db.useNonce row.2 } := by
  obtain ⟨n, hn, hnonce, hid, -⟩ := h
  refine ⟨n.markUsed row.2, AuthDb.mem_useNonce.mpr ⟨n, hn, rfl⟩, ?_, ?_, ?_⟩
  · rw [Nonce.markUsed_nonce, hnonce]
  · rw [Nonce.markUsed_id, hid]
  · rw [Nonce.markUsed_used, hid, decide_eq_true rfl, Bool.or_true]

end nonce

/-! ## The row as a lock

The nonce is the lock of the library's `Claim`: read unused, then marked as used. -/

section lock

variable {C : Sep10Config} {v : Redemption} {c : AuthCall} {w : AuthWorld} {ch : AuthChoice}
  {row : String × Nat}

theorem Redemption.next_error (e : Err) : v.next c (.error e) = v := by
  cases c <;> rfl

/-- A call that neither finds nor marks a row leaves the execution where it is. -/
theorem Redemption.next_other (r : Except Err c.Resp) (hfind : ∀ nonce, c ≠ .nonceFindUnique nonce)
    (hmark : ∀ id, c ≠ .nonceUpdateUsed id) : v.next c r = v := by
  cases c with
  | nonceFindUnique nonce => exact absurd rfl (hfind nonce)
  | nonceUpdateUsed id => exact absurd rfl (hmark id)
  | _ => rfl

/-- A call finds a row, marks one, or leaves the rows and the execution alone. -/
theorem Redemption.ok_cases (hok : v.ok c) :
    (∃ nonce, c = .nonceFindUnique nonce ∧ v.nonce = some nonce) ∨
      (∃ id, c = .nonceUpdateUsed id ∧ v.stage = .sawUnused id) ∨
      (c.writesNonces = false ∧ ∀ r, v.next c r = v) := by
  cases c with
  | nonceFindUnique nonce => exact .inl ⟨nonce, rfl, hok⟩
  | nonceUpdateUsed id => exact .inr (.inl ⟨id, rfl, hok⟩)
  | _ => exact .inr (.inr ⟨hok, fun _ => rfl⟩)

/-- What a lookup tells the execution: nothing, or that the row is unused. -/
theorem Redemption.next_find (v : Redemption) (ch : AuthChoice) (w : AuthWorld) (nonce : String) :
    (handleAuth ch (.nonceFindUnique nonce) w).2 = w ∧
      (v.next _ (handleAuth ch (.nonceFindUnique nonce) w).1 = v ∨
        ∃ id, v.next _ (handleAuth ch (.nonceFindUnique nonce) w).1
            = { v with stage := .sawUnused id } ∧ NonceIs false (nonce, id) w) := by
  rcases handleAuth_cases ch w (.nonceFindUnique nonce) with ⟨e, heq⟩ | ⟨r, w', hexec, heq⟩
  · rw [heq]
    exact ⟨rfl, .inl (Redemption.next_error e)⟩
  · cases hexec
    rw [heq]
    refine ⟨rfl, ?_⟩
    cases hrow : w.db.nonces.findAlt nonce with
    | none => exact .inl rfl
    | some n =>
      obtain ⟨hn, hsame⟩ := Rows.mem_of_findAlt hrow
      cases hused : n.used with
      | true =>
        refine .inl ?_
        simp only [Redemption.next, hused, if_true]
      | false =>
        refine .inr ⟨n.id, ?_, n, hn, hsame, rfl, hused⟩
        simp only [Redemption.next, hused, Bool.false_eq_true, if_false]

theorem redemption_reads (hok : v.ok c) (h : (v.next c (handleAuth ch c w).1).Knows row) :
    NonceIs false row (handleAuth ch c w).2 ∨
      (v.Knows row ∧ (NonceIs false row w → NonceIs false row (handleAuth ch c w).2)) := by
  rcases Redemption.ok_cases hok with ⟨nonce, rfl, hnonce⟩ | ⟨id, rfl, hsaw⟩ | ⟨hreads, hv⟩
  · obtain ⟨hsame, hv | ⟨id, hv, hunused⟩⟩ := v.next_find ch w nonce
    · rw [hv] at h
      rw [hsame]
      exact .inr ⟨h, fun hw => hw⟩
    · rw [hv] at h
      rw [hsame]
      obtain ⟨hrow, hstage⟩ := h
      have hfound : row = (nonce, id) := by
        obtain ⟨nonce', id'⟩ := row
        cases hnonce.symm.trans hrow
        cases hstage
        rfl
      rw [hfound]
      exact .inl hunused
  · rcases handleAuth_nonceUpdateUsed ch w id with ⟨e, heq⟩ | heq
    · rw [heq] at h ⊢
      rw [Redemption.next_error] at h
      exact .inr ⟨h, fun hw => hw⟩
    · rw [heq] at h
      cases h.2
  · rw [hv] at h
    refine .inr ⟨h, fun hw => ?_⟩
    unfold NonceIs
    rw [handleAuth_nonces hreads]
    exact hw

theorem redemption_locks (hok : v.ok c)
    (hfacts : ∀ row, v.Knows row → MarksNonce row c → NonceIs false row w)
    (howned : ∀ row, v.Owns row → NonceIs true row w) (row : String × Nat) :
    (redemption C).LockStep (M := authWorld) Redemption.Owns (NonceIs true) v c w ch row := by
  rcases Redemption.ok_cases hok with ⟨nonce, rfl, hnonce⟩ | ⟨id, rfl, hsaw⟩ | ⟨hreads, hv⟩
  · obtain ⟨hsame, hnext⟩ := v.next_find ch w nonce
    constructor
    · intro h
      have h : (v.next _ (handleAuth ch (.nonceFindUnique nonce) w).1).Owns row := h
      rcases hnext with hv | ⟨id, hv, -⟩
      · rw [hv] at h
        refine ⟨?_, .inl h⟩
        rw [hsame]
        exact howned row h
      · rw [hv] at h
        cases h.2
    · intro hused
      refine .inl ?_
      rw [hsame]
      exact hused
  · rcases handleAuth_nonceUpdateUsed ch w id with ⟨e, heq⟩ | heq
    · refine Monitor.lockStep_of_handle (M := authWorld) heq (fun h => ?_) Or.inl
      have h : (v.next _ (.error e)).Owns row := h
      rw [Redemption.next_error] at h
      exact ⟨howned row h, .inl h⟩
    · refine Monitor.lockStep_of_handle (M := authWorld) heq (fun h => ?_) fun hused =>
        Or.inl (used_useNonce hused)
      -- the marked row is the one that was read, and was still unused
      obtain ⟨hrow, hstage⟩ := h
      cases hstage
      have hunused := hfacts row ⟨hrow, hsaw⟩ rfl
      exact ⟨used_of_mark hunused, .inr (not_used_of_unused hunused)⟩
  · have hsame : NonceIs true row (handleAuth ch c w).2 ↔ NonceIs true row w := by
      unfold NonceIs
      rw [handleAuth_nonces hreads]
    constructor
    · intro h
      have h : (v.next c (handleAuth ch c w).1).Owns row := h
      rw [hv] at h
      exact ⟨hsame.mpr (howned row h), .inl h⟩
    · intro hused
      exact .inl (hsame.mpr hused)

theorem redemption_claiming : (redemption C).Claiming (M := authWorld) Redemption.Knows
    Redemption.Owns MarksNonce (NonceIs false) (NonceIs true) where
  init_knows _ _ h := nomatch h.2
  init_owns _ _ h := nomatch h.2
  answers _ _ _ _ := trivial
  reads _ _ _ _ hok _ h := redemption_reads hok h
  locks _ _ _ _ hok hfacts howned row := redemption_locks hok hfacts howned row

end lock

/-! ## An execution keeps to it -/

section execution

variable {C : Sep10Config}

/-- Calls that leave every execution where it is. -/
def IgnoresNonces (c : AuthCall) : Prop :=
  c.writesNonces = false ∧ ∀ nonce, c ≠ .nonceFindUnique nonce

theorem wp_redemption_quiet {α : Type} {p : Auth α} {v : Redemption}
    {Q : Except Err α → Redemption → Prop} (h : p.Only IgnoresNonces) (hQ : ∀ r, Q r v) :
    p.wp (redemption C).protocol Q v := by
  refine h.wp (fun c hc => ?_) hQ
  obtain ⟨hwrites, hfind⟩ := hc
  constructor
  · cases c with
    | nonceFindUnique nonce => exact absurd rfl (hfind nonce)
    | nonceUpdateUsed id => cases hwrites
    | _ => exact hwrites
  · rintro r v' ⟨-, rfl⟩
    exact Redemption.next_other r hfind fun id hid => by rw [hid] at hwrites; cases hwrites

/-- The clock is read, and nothing else happens. -/
theorem wp_redemption_date {v : Redemption} {Q : Except Err Time → Redemption → Prop}
    (h : ∀ r, Q r v) : (auth .newDate).wp (redemption C).protocol Q v :=
  wp_redemption_quiet (only_perform ⟨rfl, fun _ => AuthCall.noConfusion⟩) h

/-- Whoever gets to the tokens has marked the row. -/
theorem wp_redeem (challengeTx clientAccountID : String) (n : Nonce) (nonce : Option String) :
    (Sep10Service.redeem C challengeTx clientAccountID n).wp (redemption C).protocol
      (fun r v' => ∀ tokens, r = .ok tokens → v' = ⟨nonce, .marked n.id⟩)
      ⟨nonce, .sawUnused n.id⟩ := by
  rw [Sep10Service.redeem, wp_bind]
  refine wp_redemption_date fun r => ?_
  cases r with
  | error e => exact nofun
  | ok now =>
    refine wp_if nofun fun _ => ?_
    rw [wp_bind]
    refine wp_redemption_date fun r => ?_
    cases r with
    | error e => exact nofun
    | ok now =>
      dsimp only
      cases C.verifyChallengeTxSigners now challengeTx clientAccountID with
      | error message => exact nofun
      | ok _ =>
        dsimp only
        rw [wp_bind, wp_auth]
        refine ⟨rfl, ?_⟩
        rintro r v' ⟨-, rfl⟩
        cases r with
        | error e => exact nofun
        | ok _ =>
          refine wp_redemption_quiet (Sep10Service.only_generateAuthTokens ?_ ?_ fun _ _ => ?_)
            fun _ _ _ => rfl
          · exact ⟨rfl, fun _ => AuthCall.noConfusion⟩
          · exact ⟨rfl, fun _ => AuthCall.noConfusion⟩
          · exact ⟨rfl, fun _ => AuthCall.noConfusion⟩

/-- The hash that is looked up is the hash of the challenge. -/
theorem hashTx_of_readChallenge {now : Time} {challengeTx clientAccountID txHash : String}
    (h : Sep10Service.readChallenge C now challengeTx = .ok (clientAccountID, txHash)) :
    C.hashTx challengeTx = .ok txHash := by
  unfold Sep10Service.readChallenge at h
  cases hread : C.readChallengeTx now challengeTx with
  | error message => rw [hread] at h; cases h
  | ok account =>
    cases hhash : C.hashTx challengeTx with
    | error message => rw [hread, hhash] at h; cases h
    | ok hash => rw [hread, hhash] at h; cases h; rfl

/-- The tokens are returned by an execution that has marked the row of its challenge. -/
def Redeemed (C : Sep10Config) (challengeTx : String) (r : Except Err Unit) (v : Redemption) :
    Prop :=
  r = .ok () → ∃ row, v.Owns row ∧ C.hashTx challengeTx = .ok row.1

theorem wp_verifyAndIssueToken (C : Sep10Config) (challengeTx : String) :
    (Sep10Service.verifyAndIssueToken C challengeTx).void.wp (redemption C).protocol
      (Redeemed C challengeTx) ((redemption C).init challengeTx) := by
  rw [wp_void, Sep10Service.verifyAndIssueToken, wp_bind]
  refine wp_redemption_date fun r => ?_
  cases r with
  | error e => exact nofun
  | ok now =>
    dsimp only
    match hread : Sep10Service.readChallenge C now challengeTx with
    | .error message => exact nofun
    | .ok (clientAccountID, txHash) =>
      have hhash := hashTx_of_readChallenge hread
      -- a challenge that reads well has a hash, which is what the redemption is about
      have hinit : (redemption C).init challengeTx = ⟨some txHash, .start⟩ := by
        show (⟨(C.hashTx challengeTx).toOption, .start⟩ : Redemption) = _
        rw [hhash]
        rfl
      rw [hinit]
      dsimp only
      rw [wp_bind, wp_auth]
      refine ⟨rfl, ?_⟩
      rintro r v' ⟨-, rfl⟩
      match r with
      | .error e => exact nofun
      | .ok none => exact nofun
      | .ok (some n) =>
        refine wp_if nofun fun hunused => ?_
        have hv : (redemption C).next ⟨some txHash, .start⟩ (.nonceFindUnique txHash) (.ok (some n))
            = ⟨some txHash, .sawUnused n.id⟩ := if_neg hunused
        rw [hv]
        refine wp_mono (wp_redeem challengeTx clientAccountID n (some txHash)) ?_
        intro r v' hv' hok
        cases r with
        | error e => cases hok
        | ok tokens =>
          rw [hv' tokens rfl]
          exact ⟨(txHash, n.id), ⟨rfl, rfl⟩, hhash⟩

end execution

/-! ## Runs -/

/-- Any number of executions, each with the challenge it presents. -/
abbrev Redemptions := Pool authWorld String

abbrev redeemer (C : Sep10Config) (challengeTx : String) : Auth Unit :=
  (Sep10Service.verifyAndIssueToken C challengeTx).void

abbrev runRedemptions (C : Sep10Config) (w : AuthWorld) (ms : List (Move authWorld String)) :
    Redemptions := Pool.run (redeemer C) ⟨w, []⟩ ms

/-- Execution `i` presented this challenge and returned tokens. -/
def ReturnedTokens (P : Redemptions) (i : Nat) (challengeTx : String) : Prop :=
  ∃ t, P.threads[i]? = some t ∧ t.label = challengeTx ∧ t.outcome = some (.ok ())

/-- Nobody marks a row that somebody else has read as unused and may still mark. -/
abbrev NoRedemptionRace (C : Sep10Config) : Redemptions → Move authWorld String → Prop :=
  (redemption C).NoRace (M := authWorld) Redemption.Knows MarksNonce (NonceIs false)

/-- A challenge is redeemed once in every run without a race. Challenges with one hash, such as a
transaction with different signatures, are one challenge. -/
theorem challenge_one_time (C : Sep10Config) (w : AuthWorld) (ms : List (Move authWorld String))
    (hrun : Pool.Admissible (redeemer C) (NoRedemptionRace C) ⟨w, []⟩ ms)
    (challengeTx challengeTx' : String) (hsame : C.hashTx challengeTx = C.hashTx challengeTx')
    (i j : Nat) (hi : ReturnedTokens (runRedemptions C w ms) i challengeTx)
    (hj : ReturnedTokens (runRedemptions C w ms) j challengeTx') : i = j := by
  obtain ⟨hsettles, hexclusive⟩ :=
    (redemption_claiming (C := C)).run (wp_verifyAndIssueToken C) ms w hrun
  obtain ⟨t, ht, rfl, hdone⟩ := hi
  obtain ⟨t', ht', rfl, hdone'⟩ := hj
  have hmem := List.mem_of_getElem? ht
  have hmem' := List.mem_of_getElem? ht'
  obtain ⟨row, hown, hhash⟩ := hsettles.outcome hmem hdone rfl
  obtain ⟨row', hown', hhash'⟩ := hsettles.outcome hmem' hdone' rfl
  -- one hash, so one row of the table
  obtain ⟨n, hn, hnonce, hid, -⟩ := hexclusive.locked t hmem row hown
  obtain ⟨n', hn', hnonce', hid', -⟩ := hexclusive.locked t' hmem' row' hown'
  have hnonces : row.1 = row'.1 := by
    rw [hhash, hhash'] at hsame
    exact Except.ok.inj hsame
  have hrows : n = n' := Rows.eq_of_alt hn hn' (by rw [hnonce, hnonce', hnonces])
  have hrow : row = row' := Prod.ext hnonces (by rw [← hid, ← hid', hrows])
  rw [← hrow] at hown'
  exact hexclusive.unique i j t t' row ht ht' hown hown'

/-- A challenge of Alice's, stored and unused. -/
def AuthWorld.challenged : AuthWorld :=
  (AuthWorld.empty.exec (.calm "") (.nonceCreate "tx" "alice" "tx" 300000)).2

/-- Two executions present the challenge, one after the other. -/
def redemptionsInTurn : List (Move authWorld String) :=
  .spawn "tx" :: List.replicate 9 (.step 0 (.calm "a")) ++
    .spawn "tx" :: List.replicate 9 (.step 1 (.calm "b"))

/-- The first returns tokens, and nobody else does. -/
theorem challenge_one_time_in_turn :
    ReturnedTokens (runRedemptions .plain .challenged redemptionsInTurn) 0 "tx" ∧
      ∀ i, ReturnedTokens (runRedemptions .plain .challenged redemptionsInTurn) i "tx" → i = 0 := by
  have hturn : Pool.Admissible (redeemer .plain) Pool.InTurn
      (⟨.challenged, []⟩ : Redemptions) redemptionsInTurn := by
    decide +kernel
  have hreturned : ReturnedTokens (runRedemptions .plain .challenged redemptionsInTurn) 0 "tx" :=
    ⟨_, rfl, rfl, rfl⟩
  refine ⟨hreturned, fun i hi => ?_⟩
  exact challenge_one_time .plain .challenged redemptionsInTurn
    (hturn.mono fun _ _ => Monitor.undisturbed_in_turn fun _ _ _ => trivial) "tx" "tx" rfl i 0 hi
    hreturned

/-- Two executions present one challenge, and both have read its row before either marks it. -/
def racingRedemptions : List (Move authWorld String) :=
  [.spawn "tx", .spawn "tx"] ++ List.replicate 2 (.step 0 (.calm "a")) ++
    List.replicate 2 (.step 1 (.calm "b")) ++ List.replicate 7 (.step 0 (.calm "a")) ++
    List.replicate 7 (.step 1 (.calm "b"))

/-- Both return tokens. -/
theorem challenge_redeemed_twice :
    ReturnedTokens (runRedemptions .plain .challenged racingRedemptions) 0 "tx" ∧
      ReturnedTokens (runRedemptions .plain .challenged racingRedemptions) 1 "tx" :=
  ⟨⟨_, rfl, rfl, rfl⟩, ⟨_, rfl, rfl, rfl⟩⟩

end TrustLink
