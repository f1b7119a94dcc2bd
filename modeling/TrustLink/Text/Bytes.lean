import Mathlib.Data.List.Basic
import Mathlib.Data.List.TakeWhile
import Mathlib.Tactic.Common
import TrustLink.Text.Utf16

/-!
# Text — bytes as text

`base64url` writes three bytes as four characters of an alphabet without padding; a rest of one or
two bytes takes two or three characters. `ofBase64url` reads what `Buffer.from` reads: it takes the
other base64 alphabet as well, skips what is in neither, stops at a padding character and drops a
rest that is not a byte. `hex` writes two digits per byte; `ofHex` reads pairs of digits of either
case, up to the first pair that is not one. UTF-8 is that of strings in Lean; what a decoder makes of
bytes that are not UTF-8 is a parameter.

All three are read back (`ofBase64url_base64url`, `ofHex_hex`, `ofUtf8_utf8`).
-/

namespace Text

def utf8 (cs : List Char) : List UInt8 := cs.flatMap String.utf8EncodeChar

def ofUtf8 (replaced : List UInt8 → List Char) (bytes : List UInt8) : List Char :=
  match bytes.toByteArray.utf8Decode? with
  | some cs => cs.toList
  | none => replaced bytes

theorem ofUtf8_utf8 (replaced : List UInt8 → List Char) (cs : List Char) :
    ofUtf8 replaced (utf8 cs) = cs := by
  have hdecode : (utf8 cs).toByteArray.utf8Decode? = some cs.toArray :=
    List.utf8Decode?_utf8Encode
  rw [ofUtf8, hdecode]

/-! ## Base64 -/

def base64Alphabet : List Char :=
  ['A', 'B', 'C', 'D', 'E', 'F', 'G', 'H', 'I', 'J', 'K', 'L', 'M', 'N', 'O', 'P', 'Q', 'R', 'S',
    'T', 'U', 'V', 'W', 'X', 'Y', 'Z', 'a', 'b', 'c', 'd', 'e', 'f', 'g', 'h', 'i', 'j', 'k', 'l',
    'm', 'n', 'o', 'p', 'q', 'r', 's', 't', 'u', 'v', 'w', 'x', 'y', 'z', '0', '1', '2', '3', '4',
    '5', '6', '7', '8', '9', '-', '_']

def sextetChar (n : Nat) : Char := base64Alphabet.getD n 'A'

def charSextet (c : Char) : Option Nat :=
  if c = '+' then some 62 else if c = '/' then some 63 else base64Alphabet.idxOf? c

/-- The bits of the bytes, six at a time. -/
def sextets : List UInt8 → List Nat
  | [] => []
  | [a] => [a.toNat / 4, a.toNat % 4 * 16]
  | [a, b] => [a.toNat / 4, a.toNat % 4 * 16 + b.toNat / 16, b.toNat % 16 * 4]
  | a :: b :: c :: rest =>
    a.toNat / 4 :: (a.toNat % 4 * 16 + b.toNat / 16) :: (b.toNat % 16 * 4 + c.toNat / 64) ::
      c.toNat % 64 :: sextets rest

/-- Whole bytes of groups of six bits. -/
def octets : List Nat → List UInt8
  | a :: b :: c :: d :: rest =>
    .ofNat (a * 4 + b / 16) :: .ofNat (b % 16 * 16 + c / 4) :: .ofNat (c % 4 * 64 + d) :: octets rest
  | [a, b, c] => [.ofNat (a * 4 + b / 16), .ofNat (b % 16 * 16 + c / 4)]
  | [a, b] => [.ofNat (a * 4 + b / 16)]
  | _ => []

def base64url (bytes : List UInt8) : List Char := (sextets bytes).map sextetChar

def ofBase64url (cs : List Char) : List UInt8 :=
  octets ((cs.takeWhile (· ≠ '=')).filterMap charSextet)

theorem sextets_lt (bytes : List UInt8) : ∀ n ∈ sextets bytes, n < 64 := by
  induction bytes using sextets.induct with
  | case1 => exact nofun
  | case2 a =>
    have ha := a.toNat_lt
    simp only [sextets, List.forall_mem_cons]
    refine ⟨by omega, by omega, nofun⟩
  | case3 a b =>
    have ha := a.toNat_lt
    have hb := b.toNat_lt
    simp only [sextets, List.forall_mem_cons]
    refine ⟨by omega, by omega, by omega, nofun⟩
  | case4 a b c rest ih =>
    have ha := a.toNat_lt
    have hb := b.toNat_lt
    have hc := c.toNat_lt
    simp only [sextets, List.forall_mem_cons]
    refine ⟨by omega, by omega, by omega, by omega, ih⟩

/-- The bits make the bytes again. -/
theorem octets_sextets (bytes : List UInt8) : octets (sextets bytes) = bytes := by
  have hbyte : ∀ (a : UInt8) (n : Nat), n = a.toNat → UInt8.ofNat n = a := by
    rintro a n rfl
    exact UInt8.ofNat_toNat
  induction bytes using sextets.induct with
  | case1 => rfl
  | case2 a =>
    rw [sextets, octets, hbyte a _ (by omega)]
  | case3 a b =>
    have ha := a.toNat_lt
    have hb := b.toNat_lt
    rw [sextets, octets, hbyte a _ (by omega), hbyte b _ (by omega)]
  | case4 a b c rest ih =>
    have ha := a.toNat_lt
    have hb := b.toNat_lt
    have hc := c.toNat_lt
    rw [sextets, octets, hbyte a _ (by omega), hbyte b _ (by omega), hbyte c _ (by omega), ih]

theorem charSextet_sextetChar {n : Nat} (hn : n < 64) : charSextet (sextetChar n) = some n := by
  revert hn
  revert n
  decide

theorem sextetChar_ne {n : Nat} (hn : n < 64) : sextetChar n ≠ '=' ∧ sextetChar n ≠ '.' := by
  revert hn
  revert n
  decide

/-- What was written is read back. -/
theorem ofBase64url_base64url (bytes : List UInt8) : ofBase64url (base64url bytes) = bytes := by
  have hlt := sextets_lt bytes
  have htake : (base64url bytes).takeWhile (· ≠ '=') = base64url bytes := by
    rw [List.takeWhile_eq_self_iff]
    intro c hc
    obtain ⟨n, hn, rfl⟩ := List.mem_map.mp hc
    simpa using (sextetChar_ne (hlt n hn)).1
  have hread : (base64url bytes).filterMap charSextet = sextets bytes := by
    rw [base64url, List.filterMap_map, List.filterMap_congr (g := some), List.filterMap_some]
    intro n hn
    exact charSextet_sextetChar (hlt n hn)
  rw [ofBase64url, htake, hread, octets_sextets]

/-- No character that was written is a dot. -/
theorem dot_notMem_base64url (bytes : List UInt8) : '.' ∉ base64url bytes := by
  intro h
  obtain ⟨n, hn, hdot⟩ := List.mem_map.mp h
  exact (sextetChar_ne (sextets_lt bytes n hn)).2 hdot

/-! ## Hex -/

def hex (bytes : List UInt8) : List Char :=
  bytes.flatMap fun byte => [Nat.digitChar (byte.toNat / 16), Nat.digitChar (byte.toNat % 16)]

/-- The value of a code unit as a digit. The reader's table has 256 entries and is indexed by the
low byte of the unit. -/
def unitDigit (unit : Nat) : Option Nat :=
  let code := unit % 256
  if 48 ≤ code ∧ code ≤ 57 then some (code - 48)
  else if 97 ≤ code ∧ code ≤ 102 then some (code - 87)
  else if 65 ≤ code ∧ code ≤ 70 then some (code - 55)
  else none

def digitPairs : List Nat → List UInt8
  | u :: v :: rest =>
    match unitDigit u, unitDigit v with
    | some high, some low => .ofNat (high * 16 + low) :: digitPairs rest
    | _, _ => []
  | _ => []

def ofHex (cs : List Char) : List UInt8 := digitPairs (cs.flatMap charUnits)

/-- A digit is one code unit, which is read as the digit; it is no colon. -/
theorem digitChar_spec {n : Nat} (hn : n < 16) :
    unitDigit (Nat.digitChar n).toNat = some n ∧ (Nat.digitChar n).toNat < 0x10000 ∧
      Nat.digitChar n ≠ ':' := by
  revert hn
  revert n
  decide

theorem charUnits_digitChar {n : Nat} (hn : n < 16) :
    charUnits (Nat.digitChar n) = [(Nat.digitChar n).toNat] := by
  rw [charUnits, if_pos (digitChar_spec hn).2.1]

/-- What was written is read back. -/
theorem ofHex_hex (bytes : List UInt8) : ofHex (hex bytes) = bytes := by
  induction bytes with
  | nil => rfl
  | cons byte rest ih =>
    have hbyte := byte.toNat_lt
    have hhigh : byte.toNat / 16 < 16 := by omega
    have hlow : byte.toNat % 16 < 16 := by omega
    have hvalue : byte.toNat / 16 * 16 + byte.toNat % 16 = byte.toNat := by omega
    have hunits : (hex (byte :: rest)).flatMap charUnits
        = (Nat.digitChar (byte.toNat / 16)).toNat :: (Nat.digitChar (byte.toNat % 16)).toNat ::
          (hex rest).flatMap charUnits := by
      simp only [hex, List.flatMap_cons, charUnits_digitChar hhigh, charUnits_digitChar hlow,
        List.cons_append, List.nil_append]
    rw [ofHex, hunits, digitPairs, (digitChar_spec hhigh).1, (digitChar_spec hlow).1]
    show UInt8.ofNat _ :: ofHex (hex rest) = byte :: rest
    rw [hvalue, UInt8.ofNat_toNat, ih]

/-- No digit is a colon. -/
theorem colon_notMem_hex (bytes : List UInt8) : ':' ∉ hex bytes := by
  intro h
  obtain ⟨byte, -, hdigit⟩ := List.mem_flatMap.mp h
  have hbyte := byte.toNat_lt
  rcases List.mem_cons.mp hdigit with hcolon | hrest
  · exact (digitChar_spec (by omega)).2.2 hcolon.symm
  · exact (digitChar_spec (by omega)).2.2 (List.mem_singleton.mp hrest).symm

end Text
