import Mathlib.Data.List.Basic
import Mathlib.Tactic.Common

/-!
# Text — JSON

JSON texts as lists of characters: `render` writes a tree as `JSON.stringify` does, without white
space, and `parse` reads any JSON text. A number is kept as the literal that denotes it; the type of
literals carries that it is one, so that every tree can be written.

`parse_render` is the round trip. Written values are therefore unambiguous (`render_injective`).
-/

namespace Text

/-! ## Trees -/

def isDigit (c : Char) : Bool := '0' ≤ c && c ≤ '9'

/-- A character that a number literal may hold. -/
def isNumeric (c : Char) : Bool := isDigit c || ['-', '+', '.', 'e', 'E'].contains c

/-- A non-empty run of digits at the front is skipped. -/
def skipDigits (cs : List Char) : Option (List Char) :=
  match cs with
  | [] => none
  | c :: rest => if isDigit c then some (rest.dropWhile isDigit) else none

/-- `[e [sign] digits]`, and nothing after it. -/
def isExponent : List Char → Bool
  | [] => true
  | c :: rest =>
    (c == 'e' || c == 'E') &&
      skipDigits (match rest with
        | '+' :: ds | '-' :: ds => ds
        | ds => ds) == some []

/-- `[. digits] [exponent]` -/
def isFraction : List Char → Bool
  | '.' :: rest => (skipDigits rest).elim false isExponent
  | cs => isExponent cs

/-- `[-] (0 | digit1-9 digits) [fraction] [exponent]` -/
def isNumber (cs : List Char) : Bool :=
  let unsigned := match cs with
    | '-' :: rest => rest
    | _ => cs
  cs.all isNumeric && match unsigned with
    | '0' :: rest => isFraction rest
    | _ => (skipDigits unsigned).elim false isFraction

/-- A JSON number literal. -/
structure NumberToken where
  chars : List Char
  isNumber : isNumber chars = true
  deriving DecidableEq

inductive Json where
  | null
  | bool (b : Bool)
  | number (token : NumberToken)
  | string (s : String)
  | array (items : List Json)
  | object (fields : List (String × Json))

/-! ## Writing

As `JSON.stringify` writes it, without spaces. -/

def hexDigit (n : Nat) : Char := Nat.digitChar n

/-- One character inside a string literal. -/
def escape (c : Char) : List Char :=
  match c.toNat with
  | 0x22 => ['\\', '"']
  | 0x5c => ['\\', '\\']
  | 0x08 => ['\\', 'b']
  | 0x09 => ['\\', 't']
  | 0x0a => ['\\', 'n']
  | 0x0c => ['\\', 'f']
  | 0x0d => ['\\', 'r']
  | n => if n < 0x20 then ['\\', 'u', '0', '0', hexDigit (n / 16), hexDigit (n % 16)] else [c]

/-- A string literal. -/
def quoted (s : String) : List Char := '"' :: (s.toList.flatMap escape ++ ['"'])

mutual

def render : Json → List Char
  | .null => ['n', 'u', 'l', 'l']
  | .bool true => ['t', 'r', 'u', 'e']
  | .bool false => ['f', 'a', 'l', 's', 'e']
  | .number token => token.chars
  | .string s => quoted s
  | .array [] => ['[', ']']
  | .array (item :: items) => '[' :: (render item ++ renderItems items)
  | .object [] => ['\x7b', '\x7d']
  | .object ((key, value) :: fields) =>
    '\x7b' :: (quoted key ++ ':' :: (render value ++ renderFields fields))

/-- The items after the first one. -/
def renderItems : List Json → List Char
  | [] => [']']
  | item :: items => ',' :: (render item ++ renderItems items)

/-- The fields after the first one. -/
def renderFields : List (String × Json) → List Char
  | [] => ['\x7d']
  | (key, value) :: fields => ',' :: (quoted key ++ ':' :: (render value ++ renderFields fields))

end

/-- The texts of a list, separated by commas. -/
def commas (texts : List (List Char)) : List Char := [','].intercalate texts

/-- A comma stands before every part but the first. -/
theorem commas_cons (text : List Char) (texts : List (List Char)) :
    commas (text :: texts) = text ++ texts.flatMap (',' :: ·) := by
  unfold commas
  induction texts generalizing text with
  | nil => simp
  | cons next texts ih =>
    rw [List.intercalate_cons_cons, ih, List.flatMap_cons, List.append_assoc]
    rfl

/-- Each further item after its comma, then the bracket. -/
theorem renderItems_eq (items : List Json) :
    renderItems items = (items.map render).flatMap (',' :: ·) ++ [']'] := by
  induction items with
  | nil => rw [renderItems]; rfl
  | cons item items ih =>
    rw [renderItems, ih, List.map_cons, List.flatMap_cons, List.append_assoc]
    rfl

/-- The same for fields. -/
theorem renderFields_eq (fields : List (String × Json)) :
    renderFields fields
      = (fields.map fun f => quoted f.1 ++ ':' :: render f.2).flatMap (',' :: ·) ++ ['\x7d'] := by
  induction fields with
  | nil => rw [renderFields]; rfl
  | cons f fields ih =>
    rw [renderFields, ih, List.map_cons, List.flatMap_cons, List.append_assoc]
    simp

theorem render_array (items : List Json) :
    render (.array items) = '[' :: (commas (items.map render) ++ [']']) := by
  cases items with
  | nil => rw [render]; rfl
  | cons item items =>
    rw [render, renderItems_eq, List.map_cons, commas_cons, List.append_assoc]

theorem render_object (fields : List (String × Json)) :
    render (.object fields)
      = '\x7b' :: (commas (fields.map fun f => quoted f.1 ++ ':' :: render f.2) ++ ['\x7d']) := by
  cases fields with
  | nil => rw [render]; rfl
  | cons f fields =>
    rw [render, renderFields_eq, List.map_cons, commas_cons]
    simp

/-! ## Reading

A recursive descent with fuel, which spaces and numbers do not use up. -/

def isSpace (c : Char) : Bool := c == ' ' || c == '\t' || c == '\n' || c == '\r'

def skipSpace (cs : List Char) : List Char := cs.dropWhile isSpace

def hexValue (c : Char) : Option Nat :=
  if isDigit c then some (c.toNat - '0'.toNat)
  else if 'a' ≤ c ∧ c ≤ 'f' then some (c.toNat - 'a'.toNat + 10)
  else if 'A' ≤ c ∧ c ≤ 'F' then some (c.toNat - 'A'.toNat + 10)
  else none

/-- Four hexadecimal digits. -/
def hex4 : List Char → Option (Nat × List Char)
  | a :: b :: c :: d :: rest => do
    let a ← hexValue a
    let b ← hexValue b
    let c ← hexValue c
    let d ← hexValue d
    some (((a * 16 + b) * 16 + c) * 16 + d, rest)
  | _ => none

/-- What `\u` and four digits stand for: a character, or with a second escape a surrogate pair. -/
def unicode (cs : List Char) : Option (Char × List Char) := do
  let (n, rest) ← hex4 cs
  if 0xd800 ≤ n ∧ n < 0xdc00 then
    match rest with
    | '\\' :: 'u' :: rest => do
      let (low, rest) ← hex4 rest
      if 0xdc00 ≤ low ∧ low < 0xe000 then
        some (Char.ofNat (0x10000 + (n - 0xd800) * 0x400 + (low - 0xdc00)), rest)
      else none
    | _ => none
  else if 0xdc00 ≤ n ∧ n < 0xe000 then none
  else some (Char.ofNat n, rest)

/-- What stands after a backslash. -/
def unescape : List Char → Option (Char × List Char)
  | [] => none
  | c :: rest =>
    if c = 'u' then unicode rest
    else if c = '"' ∨ c = '\\' ∨ c = '/' then some (c, rest)
    else if c = 'b' then some ('\x08', rest)
    else if c = 't' then some ('\t', rest)
    else if c = 'n' then some ('\n', rest)
    else if c = 'f' then some ('\x0c', rest)
    else if c = 'r' then some ('\r', rest)
    else none

/-- The characters of a string literal after its opening quote. -/
def stringBody : Nat → List Char → Option (List Char × List Char)
  | 0, _ => none
  | _ + 1, [] => none
  | fuel + 1, c :: rest =>
    if c = '"' then some ([], rest)
    else if c = '\\' then do
      let (x, rest) ← unescape rest
      let (s, rest) ← stringBody fuel rest
      some (x :: s, rest)
    else if c.toNat < 0x20 then none
    else do
      let (s, rest) ← stringBody fuel rest
      some (c :: s, rest)

/-- A string literal. -/
def stringLiteral (cs : List Char) : Option (String × List Char) :=
  match cs with
  | '"' :: rest => (stringBody rest.length rest).map fun (s, rest) => (String.ofList s, rest)
  | _ => none

def numberLiteral (cs : List Char) : Option (Json × List Char) :=
  if h : isNumber (cs.takeWhile isNumeric) = true then
    some (.number ⟨cs.takeWhile isNumeric, h⟩, cs.dropWhile isNumeric)
  else none

def keyword : List Char → Option (Json × List Char)
  | 'n' :: 'u' :: 'l' :: 'l' :: rest => some (.null, rest)
  | 't' :: 'r' :: 'u' :: 'e' :: rest => some (.bool true, rest)
  | 'f' :: 'a' :: 'l' :: 's' :: 'e' :: rest => some (.bool false, rest)
  | _ => none

/-- A character, after white space. -/
def symbol (c : Char) (cs : List Char) : Option (List Char) :=
  match skipSpace cs with
  | d :: rest => if d = c then some rest else none
  | [] => none

mutual

def value : Nat → List Char → Option (Json × List Char)
  | 0, _ => none
  | fuel + 1, cs =>
    match skipSpace cs with
    | [] => none
    | c :: rest =>
      if c = '"' then (stringLiteral (c :: rest)).map fun (s, rest) => (.string s, rest)
      else if c = '[' then
        match symbol ']' rest with
        | some rest => some (.array [], rest)
        | none => do
          let (item, rest) ← value fuel rest
          let (items, rest) ← moreItems fuel rest
          some (.array (item :: items), rest)
      else if c = '\x7b' then
        match symbol '\x7d' rest with
        | some rest => some (.object [], rest)
        | none => do
          let (f, rest) ← field fuel rest
          let (fields, rest) ← moreFields fuel rest
          some (.object (f :: fields), rest)
      else if isNumeric c then numberLiteral (c :: rest)
      else keyword (c :: rest)

def moreItems : Nat → List Char → Option (List Json × List Char)
  | 0, _ => none
  | fuel + 1, cs =>
    match symbol ']' cs with
    | some rest => some ([], rest)
    | none => do
      let rest ← symbol ',' cs
      let (item, rest) ← value fuel rest
      let (items, rest) ← moreItems fuel rest
      some (item :: items, rest)

def field : Nat → List Char → Option ((String × Json) × List Char)
  | 0, _ => none
  | fuel + 1, cs => do
    let (key, rest) ← stringLiteral (skipSpace cs)
    let rest ← symbol ':' rest
    let (v, rest) ← value fuel rest
    some ((key, v), rest)

def moreFields : Nat → List Char → Option (List (String × Json) × List Char)
  | 0, _ => none
  | fuel + 1, cs =>
    match symbol '\x7d' cs with
    | some rest => some ([], rest)
    | none => do
      let rest ← symbol ',' cs
      let (f, rest) ← field fuel rest
      let (fields, rest) ← moreFields fuel rest
      some (f :: fields, rest)

end

/-- `JSON.parse` -/
def parse (cs : List Char) : Option Json :=
  match value (cs.length + 1) cs with
  | some (v, rest) => if skipSpace rest = [] then some v else none
  | none => none

/-! ## Strings are read back

An escape is read back as the character it was written for, and a string is as long as its escapes
at most. -/

/-- A hex digit has the value it was made of. -/
theorem hexValue_hexDigit {n : Nat} (h : n < 16) : hexValue (hexDigit n) = some n := by
  have hall : ∀ d : Fin 16, hexValue (hexDigit d) = some d.val := by decide
  exact hall ⟨n, h⟩

theorem eq_of_toNat {c : Char} {n : Nat} (h : c.toNat = n) : c = Char.ofNat n := by
  rw [← h, Char.ofNat_toNat]

/-- The escape for a control character. -/
theorem unicode_control {c : Char} (h : c.toNat < 0x20) (rest : List Char) :
    unicode ('0' :: '0' :: hexDigit (c.toNat / 16) :: hexDigit (c.toNat % 16) :: rest)
      = some (c, rest) := by
  have hzero : hexValue '0' = some 0 := by decide
  unfold unicode hex4
  simp only [hzero, hexValue_hexDigit (show c.toNat / 16 < 16 by omega),
    hexValue_hexDigit (show c.toNat % 16 < 16 by omega), Option.bind_eq_bind, Option.bind_some]
  rw [if_neg (by omega), if_neg (by omega),
    show ((0 * 16 + 0) * 16 + c.toNat / 16) * 16 + c.toNat % 16 = c.toNat by omega,
    Char.ofNat_toNat]

/-- One character, escaped or not, is read back. -/
theorem stringBody_escape (c : Char) (fuel : Nat) (rest : List Char) :
    stringBody (fuel + 1) (escape c ++ rest)
      = (stringBody fuel rest).bind fun (s, rest) => some (c :: s, rest) := by
  unfold escape
  split
  · next h => rw [eq_of_toNat h]; rfl
  · next h => rw [eq_of_toNat h]; rfl
  · next h => rw [eq_of_toNat h]; rfl
  · next h => rw [eq_of_toNat h]; rfl
  · next h => rw [eq_of_toNat h]; rfl
  · next h => rw [eq_of_toNat h]; rfl
  · next h => rw [eq_of_toNat h]; rfl
  · next hquote hbackslash _ _ _ _ _ =>
    split
    · next hcontrol =>
      -- below a space there is no short escape, only the four hexadecimal digits
      have hread : unescape ('u' :: '0' :: '0' :: hexDigit (c.toNat / 16)
          :: hexDigit (c.toNat % 16) :: rest) = some (c, rest) := by
        rw [unescape, if_pos rfl]
        exact unicode_control hcontrol rest
      show stringBody (fuel + 1) ('\\' :: 'u' :: '0' :: '0' :: hexDigit (c.toNat / 16)
        :: hexDigit (c.toNat % 16) :: rest) = _
      rw [stringBody, if_neg (by decide), if_pos rfl, hread]
      rfl
    · next hplain =>
      -- every other character is written as itself
      have hne : ∀ d : Char, c.toNat ≠ d.toNat → c ≠ d := fun d h heq => h (by rw [heq])
      show stringBody (fuel + 1) (c :: rest) = _
      rw [stringBody, if_neg (hne '"' hquote), if_neg (hne '\\' hbackslash), if_neg hplain]
      rfl

/-- So is the whole string, up to its closing quote. -/
theorem stringBody_chars (cs : List Char) {fuel : Nat} (h : cs.length < fuel) (rest : List Char) :
    stringBody fuel (cs.flatMap escape ++ '"' :: rest) = some (cs, rest) := by
  induction cs generalizing fuel with
  | nil =>
    obtain ⟨fuel, rfl⟩ : ∃ k, fuel = k + 1 := ⟨fuel - 1, by omega⟩
    rfl
  | cons c cs ih =>
    obtain ⟨fuel, rfl⟩ : ∃ k, fuel = k + 1 := ⟨fuel - 1, by omega⟩
    rw [List.length_cons] at h
    rw [List.flatMap_cons, List.append_assoc, stringBody_escape, ih (by omega)]
    rfl

theorem escape_ne_nil (c : Char) : escape c ≠ [] := by
  unfold escape
  split <;> try exact List.cons_ne_nil _ _
  split <;> exact List.cons_ne_nil _ _

/-- So the length of the text is fuel enough. -/
theorem length_le_length_escaped (cs : List Char) : cs.length ≤ (cs.flatMap escape).length := by
  induction cs with
  | nil => exact Nat.le_refl _
  | cons c cs ih =>
    have hpos := List.length_pos_of_ne_nil (escape_ne_nil c)
    rw [List.flatMap_cons, List.length_append, List.length_cons]
    omega

/-- A string literal is read back. -/
theorem stringLiteral_quoted (s : String) (rest : List Char) :
    stringLiteral (quoted s ++ rest) = some (s, rest) := by
  have hbody : quoted s ++ rest = '"' :: (s.toList.flatMap escape ++ '"' :: rest) := by
    simp [quoted]
  have hle := length_le_length_escaped s.toList
  rw [hbody]
  show Option.map _ (stringBody _ _) = _
  rw [stringBody_chars s.toList (by rw [List.length_append, List.length_cons]; omega)]
  simp

/-! ## Trees are read back

The text of a tree starts with a character that tells its kind, and is followed by one that no
number contains. -/

/-- A number consists of characters that can be in one. -/
theorem NumberToken.numeric (token : NumberToken) : ∀ c ∈ token.chars, isNumeric c = true := by
  have h := token.isNumber
  unfold Text.isNumber at h
  rw [Bool.and_eq_true] at h
  exact List.all_eq_true.mp h.1

theorem NumberToken.ne_nil (token : NumberToken) : token.chars ≠ [] := by
  intro hnil
  have h := token.isNumber
  rw [hnil] at h
  exact absurd h (by decide)

/-- A text that does not go on with a character of a number. -/
def Ends (rest : List Char) : Prop := ∀ c ∈ rest.head?, isNumeric c = false

theorem ends_nil : Ends [] := nofun

theorem ends_cons {c : Char} (h : isNumeric c = false) (rest : List Char) : Ends (c :: rest) := by
  intro d hd
  cases hd
  exact h

/-- A number ends where no such character follows. -/
theorem numberLiteral_chars (token : NumberToken) {rest : List Char} (h : Ends rest) :
    numberLiteral (token.chars ++ rest) = some (.number token, rest) := by
  have htake : (token.chars ++ rest).takeWhile isNumeric = token.chars := by
    rw [List.takeWhile_append_of_pos token.numeric]
    cases rest with
    | nil => simp
    | cons c rest => simp [h c rfl]
  have hdrop : (token.chars ++ rest).dropWhile isNumeric = rest := by
    rw [List.dropWhile_append_of_pos token.numeric]
    cases rest with
    | nil => rfl
    | cons c rest => simp [h c rfl]
  unfold numberLiteral
  simp only [htake, hdrop]
  rw [dif_pos token.isNumber]

/-- A character that may begin a value. -/
def Begins (c : Char) : Prop := isSpace c = false ∧ c ≠ ']' ∧ c ≠ '\x7d'

theorem isNumeric_ne {c : Char} (h : isNumeric c = true) {d : Char} (hd : isNumeric d = false) :
    c ≠ d := by
  rintro rfl
  rw [h] at hd
  cases hd

theorem begins_numeric {c : Char} (h : isNumeric c = true) : Begins c := by
  refine ⟨?_, isNumeric_ne h (by decide), isNumeric_ne h (by decide)⟩
  have hspace : c ≠ ' ' := isNumeric_ne h (by decide)
  have htab : c ≠ '\t' := isNumeric_ne h (by decide)
  have hnewline : c ≠ '\n' := isNumeric_ne h (by decide)
  have hreturn : c ≠ '\r' := isNumeric_ne h (by decide)
  simp [isSpace, hspace, htab, hnewline, hreturn]

/-- The text of a tree begins with neither a space nor a closing bracket. -/
theorem render_begins (v : Json) : ∃ c rest, render v = c :: rest ∧ Begins c := by
  cases v with
  | null => exact ⟨_, _, rfl, by decide, by decide, by decide⟩
  | bool b => cases b <;> exact ⟨_, _, rfl, by decide, by decide, by decide⟩
  | number token =>
    cases hchars : token.chars with
    | nil => exact absurd hchars token.ne_nil
    | cons c rest =>
      refine ⟨c, rest, by rw [render, hchars], begins_numeric (token.numeric c ?_)⟩
      rw [hchars]
      exact List.mem_cons_self
  | string s => exact ⟨_, _, rfl, by decide, by decide, by decide⟩
  | array items => cases items <;> exact ⟨_, _, rfl, by decide, by decide, by decide⟩
  | object fields =>
    cases fields <;> exact ⟨_, _, by rw [render], by decide, by decide, by decide⟩

/-- A value that fits into `fuel` characters needs some. -/
theorem fuel_succ {v : Json} {fuel : Nat} (h : (render v).length ≤ fuel) : ∃ k, fuel = k + 1 := by
  obtain ⟨c, rest, hrender, -⟩ := render_begins v
  rw [hrender, List.length_cons] at h
  exact ⟨fuel - 1, by omega⟩

theorem skipSpace_cons {c : Char} (h : isSpace c = false) (rest : List Char) :
    skipSpace (c :: rest) = c :: rest := by
  simp [skipSpace, h]

theorem symbol_self {c : Char} (h : isSpace c = false) (rest : List Char) :
    symbol c (c :: rest) = some rest := by
  rw [symbol, skipSpace_cons h]
  exact if_pos rfl

theorem symbol_ne {c d : Char} (h : isSpace d = false) (hne : d ≠ c) (rest : List Char) :
    symbol c (d :: rest) = none := by
  rw [symbol, skipSpace_cons h]
  exact if_neg hne

/-- So it is not taken for the end of a list. -/
theorem symbol_render {c : Char} (hc : c = ']' ∨ c = '\x7d') (v : Json) (rest : List Char) :
    symbol c (render v ++ rest) = none := by
  obtain ⟨d, tail, hrender, hspace, hbracket, hbrace⟩ := render_begins v
  rw [hrender, List.cons_append]
  apply symbol_ne hspace
  rcases hc with rfl | rfl
  · exact hbracket
  · exact hbrace

theorem symbol_quoted (key : String) (rest : List Char) :
    symbol '\x7d' (quoted key ++ rest) = none :=
  symbol_ne (by decide) (by decide) _

/-- A field is read back if its value is. -/
theorem field_of_value (key : String) {v : Json} {fuel : Nat} {rest : List Char}
    (h : value fuel (render v ++ rest) = some (v, rest)) :
    field (fuel + 1) (quoted key ++ ':' :: (render v ++ rest)) = some ((key, v), rest) := by
  have hspace : skipSpace (quoted key ++ ':' :: (render v ++ rest))
      = quoted key ++ ':' :: (render v ++ rest) := skipSpace_cons (by decide) _
  rw [field, hspace, stringLiteral_quoted]
  dsimp only [Option.bind_eq_bind, Option.bind_some]
  rw [symbol_self (by decide)]
  dsimp only [Option.bind_some]
  rw [h]
  rfl

/-- What follows an item is a comma or the bracket. -/
theorem ends_renderItems (items : List Json) (rest : List Char) :
    Ends (renderItems items ++ rest) := by
  cases items with
  | nil => exact ends_cons (by decide) _
  | cons item items =>
    rw [renderItems]
    exact ends_cons (by decide) _

/-- What follows a field is a comma or the brace. -/
theorem ends_renderFields (fields : List (String × Json)) (rest : List Char) :
    Ends (renderFields fields ++ rest) := by
  cases fields with
  | nil => exact ends_cons (by decide) _
  | cons f fields =>
    rw [renderFields]
    exact ends_cons (by decide) _

mutual

/-- A written value is read back, whatever follows it. -/
theorem value_render : (v : Json) → ∀ {fuel : Nat} {rest : List Char}, (render v).length ≤ fuel →
    Ends rest → value fuel (render v ++ rest) = some (v, rest)
  | .null, fuel, rest, hfuel, _ => by
    obtain ⟨fuel, rfl⟩ := fuel_succ hfuel
    rfl
  | .bool b, fuel, rest, hfuel, _ => by
    obtain ⟨fuel, rfl⟩ := fuel_succ hfuel
    cases b <;> rfl
  | .number token, fuel, rest, hfuel, hrest => by
    obtain ⟨fuel, rfl⟩ := fuel_succ hfuel
    rw [render]
    cases hchars : token.chars with
    | nil => exact absurd hchars token.ne_nil
    | cons c tail =>
      have hc : isNumeric c = true := token.numeric c (by rw [hchars]; exact List.mem_cons_self)
      have hliteral := numberLiteral_chars token hrest
      rw [hchars] at hliteral
      -- no other kind of value begins like a number
      rw [value, List.cons_append, skipSpace_cons (begins_numeric hc).1]
      dsimp only
      rw [if_neg (isNumeric_ne hc (by decide)), if_neg (isNumeric_ne hc (by decide)),
        if_neg (isNumeric_ne hc (by decide)), if_pos hc]
      exact hliteral
  | .string s, fuel, rest, hfuel, _ => by
    have hquoted : quoted s = '"' :: (s.toList.flatMap escape ++ ['"']) := rfl
    obtain ⟨fuel, rfl⟩ := fuel_succ hfuel
    rw [render]
    have hread := stringLiteral_quoted s rest
    rw [hquoted, List.cons_append] at hread ⊢
    rw [value, skipSpace_cons (by decide)]
    dsimp only
    rw [if_pos rfl, hread]
    rfl
  | .array [], fuel, rest, hfuel, _ => by
    obtain ⟨fuel, rfl⟩ := fuel_succ hfuel
    rfl
  | .array (item :: items), fuel, rest, hfuel, _ => by
    rw [render, List.length_cons, List.length_append] at hfuel
    obtain ⟨fuel, rfl⟩ : ∃ k, fuel = k + 1 := ⟨fuel - 1, by omega⟩
    rw [render, List.cons_append, List.append_assoc, value, skipSpace_cons (by decide)]
    dsimp only
    rw [if_neg (by decide), if_pos rfl, symbol_render (.inl rfl)]
    dsimp only
    -- what follows an item does not go on a number, so the item ends where it was written to
    rw [value_render item (by omega) (ends_renderItems items rest)]
    dsimp only [Option.bind_eq_bind, Option.bind_some]
    rw [moreItems_render items (by omega)]
    rfl
  | .object [], fuel, rest, hfuel, _ => by
    obtain ⟨fuel, rfl⟩ := fuel_succ hfuel
    rfl
  | .object ((key, v) :: fields), fuel, rest, hfuel, _ => by
    have hquote : 2 ≤ (quoted key).length := by simp [quoted]
    rw [render] at hfuel ⊢
    simp only [List.length_cons, List.length_append] at hfuel
    -- one step for the brace and one for the key; the two quotes pay for them
    obtain ⟨fuel, rfl⟩ : ∃ k, fuel = k + 2 := ⟨fuel - 2, by omega⟩
    rw [List.cons_append, value, skipSpace_cons (by decide)]
    dsimp only
    rw [if_neg (by decide), if_neg (by decide), if_pos rfl, List.append_assoc, List.cons_append,
      List.append_assoc, symbol_quoted]
    dsimp only
    rw [field_of_value key (value_render v (by omega) (ends_renderFields fields rest))]
    dsimp only [Option.bind_eq_bind, Option.bind_some]
    rw [moreFields_render fields (by omega)]
    rfl

/-- Induction on the items; each is read by the lemma for trees. -/
theorem moreItems_render : (items : List Json) → ∀ {fuel : Nat} {rest : List Char},
    (renderItems items).length ≤ fuel → moreItems fuel (renderItems items ++ rest) = some (items, rest)
  | [], fuel, rest, hfuel => by
    obtain ⟨fuel, rfl⟩ : ∃ k, fuel = k + 1 := ⟨fuel - 1, by simp [renderItems] at hfuel; omega⟩
    rfl
  | item :: items, fuel, rest, hfuel => by
    rw [renderItems] at hfuel ⊢
    simp only [List.length_cons, List.length_append] at hfuel
    obtain ⟨fuel, rfl⟩ : ∃ k, fuel = k + 1 := ⟨fuel - 1, by omega⟩
    rw [List.cons_append, List.append_assoc, moreItems, symbol_ne (by decide) (by decide)]
    dsimp only
    rw [symbol_self (by decide)]
    dsimp only [Option.bind_eq_bind, Option.bind_some]
    rw [value_render item (by omega) (ends_renderItems items rest)]
    dsimp only [Option.bind_some]
    rw [moreItems_render items (by omega)]
    rfl

/-- The same for fields. -/
theorem moreFields_render : (fields : List (String × Json)) → ∀ {fuel : Nat} {rest : List Char},
    (renderFields fields).length ≤ fuel →
    moreFields fuel (renderFields fields ++ rest) = some (fields, rest)
  | [], fuel, rest, hfuel => by
    obtain ⟨fuel, rfl⟩ : ∃ k, fuel = k + 1 := ⟨fuel - 1, by simp [renderFields] at hfuel; omega⟩
    rfl
  | (key, v) :: fields, fuel, rest, hfuel => by
    have hquote : 2 ≤ (quoted key).length := by simp [quoted]
    rw [renderFields] at hfuel ⊢
    simp only [List.length_cons, List.length_append] at hfuel
    obtain ⟨fuel, rfl⟩ : ∃ k, fuel = k + 2 := ⟨fuel - 2, by omega⟩
    rw [List.cons_append, List.append_assoc, List.cons_append, List.append_assoc, moreFields,
      symbol_ne (by decide) (by decide)]
    dsimp only
    rw [symbol_self (by decide)]
    dsimp only [Option.bind_eq_bind, Option.bind_some]
    rw [field_of_value key (value_render v (by omega) (ends_renderFields fields rest))]
    dsimp only [Option.bind_some]
    rw [moreFields_render fields (by omega)]
    rfl

end

/-- A tree is read back from its text. -/
theorem parse_render (v : Json) : parse (render v) = some v := by
  have hvalue : value ((render v).length + 1) (render v ++ []) = some (v, []) :=
    value_render v (Nat.le_succ _) ends_nil
  rw [List.append_nil] at hvalue
  rw [parse, hvalue]
  exact if_pos rfl

/-- So different trees have different texts. -/
theorem render_injective : Function.Injective render := by
  intro v w h
  have hv := parse_render v
  rw [h, parse_render w] at hv
  exact (Option.some.inj hv).symm

end Text
