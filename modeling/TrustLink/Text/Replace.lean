import Mathlib.Data.List.Basic
import Mathlib.Tactic.Common

/-!
# Text — code units, and replacing by nothing

A string as the UTF-16 code units it is stored in, lone surrogates included. `codePoints` is the
iteration of a string: a surrogate pair is one element, any other unit is one. Dropping code points
below the surrogates is a filter on the units (`dropCodePoints_eq_filter`).

`dropMatches` is the global replacement of a pattern by the empty text, for a pattern that does not
match the empty text: from left to right, a match is skipped and the search goes on after it.
-/

namespace Text

/-! ## Code points -/

def isHighSurrogate (u : UInt16) : Bool := 0xd800 ≤ u.toNat && u.toNat < 0xdc00

def isLowSurrogate (u : UInt16) : Bool := 0xdc00 ≤ u.toNat && u.toNat < 0xe000

def codePoints : List UInt16 → List (List UInt16)
  | [] => []
  | [u] => [[u]]
  | u :: v :: rest =>
    if isHighSurrogate u && isLowSurrogate v then [u, v] :: codePoints rest
    else [u] :: codePoints (v :: rest)

/-- The number of an element of the iteration. -/
def codePointAt : List UInt16 → Nat
  | [u, v] => 0x10000 + (u.toNat - 0xd800) * 0x400 + (v.toNat - 0xdc00)
  | [u] => u.toNat
  | _ => 0

theorem codePointAt_unit (u : UInt16) : codePointAt [u] = u.toNat := rfl

theorem codePointAt_pair (u v : UInt16) :
    codePointAt [u, v] = 0x10000 + (u.toNat - 0xd800) * 0x400 + (v.toNat - 0xdc00) := rfl

def dropCodePoints (p : Nat → Bool) (s : List UInt16) : List UInt16 :=
  (codePoints s).flatMap fun ch => if p (codePointAt ch) then [] else ch

theorem dropCodePoints_eq_filter {p : Nat → Bool} (hp : ∀ code, 0xd800 ≤ code → p code = false)
    (s : List UInt16) : dropCodePoints p s = s.filter fun u => !p u.toNat := by
  unfold dropCodePoints
  induction s using codePoints.induct with
  | case1 => rfl
  | case2 u =>
    have hunit : (codePoints [u]).flatMap (fun ch => if p (codePointAt ch) then [] else ch)
        = if p u.toNat then [] else [u] := List.append_nil _
    rw [hunit]
    cases hu : p u.toNat with
    | true => simp [hu]
    | false => simp [hu]
  | case3 u v rest hpair ih =>
    -- a pair is kept as a whole, and so are its units
    have hbounds : 0xd800 ≤ u.toNat ∧ 0xd800 ≤ v.toNat := by
      simp only [isHighSurrogate, isLowSurrogate, Bool.and_eq_true, decide_eq_true_eq] at hpair
      omega
    have hu := hp _ hbounds.1
    have hv := hp _ hbounds.2
    have hcode : p (codePointAt [u, v]) = false := by
      apply hp
      rw [codePointAt_pair]
      omega
    rw [codePoints, if_pos hpair, List.flatMap_cons, hcode, ih, List.filter_cons, hu,
      List.filter_cons, hv]
    rfl
  | case4 u v rest hpair ih =>
    rw [codePoints, if_neg hpair, List.flatMap_cons, ih, codePointAt_unit]
    cases hu : p u.toNat with
    | true => simp [hu]
    | false => simp [hu]

/-! ## Matches -/

section dropMatches

variable {α : Type}

/-- `matchLength` is the length of the match at the front of a text; `skip` elements are left of the
match before. -/
def dropMatches (matchLength : List α → Option Nat) : (skip : Nat) → List α → List α
  | _, [] => []
  | skip + 1, _ :: rest => dropMatches matchLength skip rest
  | 0, c :: rest =>
    match matchLength (c :: rest) with
    | some n => dropMatches matchLength (n - 1) rest
    | none => c :: dropMatches matchLength 0 rest

variable (matchLength : List α → Option Nat)

/-- Nothing is added. -/
theorem mem_of_mem_dropMatches {c : α} (s : List α) :
    ∀ skip, c ∈ dropMatches matchLength skip s → c ∈ s := by
  induction s with
  | nil =>
    intro skip h
    simp [dropMatches] at h
  | cons d rest ih =>
    intro skip h
    cases skip with
    | succ skip => exact List.mem_cons_of_mem _ (ih skip h)
    | zero =>
      rw [dropMatches] at h
      cases hmatch : matchLength (d :: rest) with
      | some n =>
        rw [hmatch] at h
        exact List.mem_cons_of_mem _ (ih (n - 1) h)
      | none =>
        rw [hmatch] at h
        rcases List.mem_cons.mp h with rfl | hrest
        · exact List.mem_cons_self
        · exact List.mem_cons_of_mem _ (ih 0 hrest)

/-- A text that matches nowhere stays. -/
theorem dropMatches_eq_self (s : List α) :
    (∀ suffix, suffix <:+ s → matchLength suffix = none) → dropMatches matchLength 0 s = s := by
  induction s with
  | nil =>
    intro _
    rfl
  | cons c rest ih =>
    intro h
    have hrest : dropMatches matchLength 0 rest = rest :=
      ih fun suffix hsuffix => h suffix (hsuffix.trans (List.suffix_cons c rest))
    rw [dropMatches, h _ (List.suffix_refl _), hrest]

/-- A class of characters is filtered out. -/
theorem dropMatches_class (p : α → Bool) (s : List α) :
    dropMatches (fun text => text.head?.bind fun c => if p c then some 1 else none) 0 s
      = s.filter fun c => !p c := by
  induction s with
  | nil => rfl
  | cons c rest ih =>
    rw [dropMatches, List.head?_cons, Option.bind_some, List.filter_cons]
    cases hc : p c with
    | true => exact ih
    | false => exact congrArg (c :: ·) ih

end dropMatches

end Text
