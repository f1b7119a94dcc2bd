import Mathlib.Data.List.Lex
import Mathlib.Data.List.Sort

/-!
# Text — UTF-16

Strings of a language that keeps UTF-16 code units are ordered by these units, not by characters: a
character outside the basic plane is a pair of surrogates, which sort before the last characters of
the plane. The units determine the string (`units_injective`), so the order is a linear one, and
fields sorted by it are in an order that only depends on the keys (`sort_eq_of_perm`).
-/

namespace Text

/-- The code units of a character. -/
def charUnits (c : Char) : List Nat :=
  if c.toNat < 0x10000 then [c.toNat]
  else [0xd800 + (c.toNat - 0x10000) / 0x400, 0xdc00 + (c.toNat - 0x10000) % 0x400]

/-- The code units of a string. -/
def units (s : String) : List Nat := s.toList.flatMap charUnits

/-- No character is a surrogate. -/
theorem toNat_not_surrogate (c : Char) : c.toNat < 0xd800 ∨ 0xe000 ≤ c.toNat := by
  have h : c.toNat.isValidChar := c.valid
  unfold Nat.isValidChar at h
  omega

theorem toNat_lt (c : Char) : c.toNat < 0x110000 := by
  have h : c.toNat.isValidChar := c.valid
  unfold Nat.isValidChar at h
  omega

/-- The first units of a text are those of one character only. -/
theorem charUnits_append_inj {c d : Char} {s t : List Nat}
    (h : charUnits c ++ s = charUnits d ++ t) : c = d ∧ s = t := by
  have hc := toNat_not_surrogate c
  have hd := toNat_not_surrogate d
  have hc' := toNat_lt c
  have hd' := toNat_lt d
  have hsame : c.toNat = d.toNat → c = d := fun heq => Char.toNat_inj.mp heq
  unfold charUnits at h
  split at h <;> split at h <;> simp only [List.cons_append, List.nil_append, List.cons.injEq] at h
  · exact ⟨hsame h.1, h.2⟩
  · omega
  · omega
  · exact ⟨hsame (by omega), h.2.2⟩

theorem units_injective : Function.Injective units := by
  intro a b h
  have hchars : ∀ s t : List Char, s.flatMap charUnits = t.flatMap charUnits → s = t := by
    intro s
    induction s with
    | nil =>
      intro t ht
      cases t with
      | nil => rfl
      | cons d t =>
        rw [List.flatMap_cons] at ht
        unfold charUnits at ht
        split at ht <;> cases ht
    | cons c s ih =>
      intro t ht
      cases t with
      | nil =>
        rw [List.flatMap_cons] at ht
        unfold charUnits at ht
        split at ht <;> cases ht
      | cons d t =>
        rw [List.flatMap_cons, List.flatMap_cons] at ht
        obtain ⟨rfl, hrest⟩ := charUnits_append_inj ht
        rw [ih t hrest]
  exact String.toList_injective (hchars _ _ h)

/-- The order of keys. -/
def KeyLe {α : Type} (a b : String × α) : Prop := units a.1 ≤ units b.1

instance {α : Type} : DecidableRel (KeyLe (α := α)) :=
  fun a b => inferInstanceAs (Decidable (units a.1 ≤ units b.1))

/-- `fields` by key. -/
def sortByKey {α : Type} (fields : List (String × α)) : List (String × α) :=
  fields.insertionSort KeyLe

variable {α : Type} {fields fields' : List (String × α)}

theorem sortByKey_perm (fields : List (String × α)) : (sortByKey fields).Perm fields :=
  List.perm_insertionSort _ _

theorem sortByKey_pairwise (fields : List (String × α)) : (sortByKey fields).Pairwise KeyLe := by
  have htotal : Std.Total (KeyLe (α := α)) := ⟨fun a b => le_total (units a.1) (units b.1)⟩
  have htrans : IsTrans (String × α) KeyLe := ⟨fun a b c hab hbc => le_trans (b := units b.1) hab hbc⟩
  exact List.pairwise_insertionSort _ _

/-- Whatever order the fields come in, they are sorted into one. -/
theorem sort_eq_of_perm (hkeys : (fields.map Prod.fst).Nodup) (h : fields.Perm fields') :
    sortByKey fields = sortByKey fields' := by
  have hperm : (sortByKey fields).Perm (sortByKey fields') :=
    (sortByKey_perm fields).trans (h.trans (sortByKey_perm fields').symm)
  refine hperm.eq_of_pairwise ?_ (sortByKey_pairwise fields) (sortByKey_pairwise fields')
  intro a b ha hb hab hba
  have hkey : a.1 = b.1 := units_injective (le_antisymm hab hba)
  have hbf : b ∈ fields := h.mem_iff.mpr ((sortByKey_perm fields').mem_iff.mp hb)
  exact List.inj_on_of_nodup_map hkeys ((sortByKey_perm fields).mem_iff.mp ha) hbf hkey

/-- Without a repeated key, looking up is membership. -/
theorem lookup_eq_some_iff_mem (hkeys : (fields.map Prod.fst).Nodup) {k : String} {v : α} :
    fields.lookup k = some v ↔ (k, v) ∈ fields := by
  rw [List.lookup_eq_some_iff]
  constructor
  · rintro ⟨l₁, l₂, rfl, -⟩
    exact List.mem_append_right _ List.mem_cons_self
  · intro hmem
    obtain ⟨l₁, l₂, rfl⟩ := List.append_of_mem hmem
    refine ⟨l₁, l₂, rfl, ?_⟩
    intro p hp
    rw [List.map_append, List.nodup_append] at hkeys
    have hne : p.1 ≠ k := hkeys.2.2 p.1 (List.mem_map_of_mem hp) k List.mem_cons_self
    simpa using hne.symm

/-- Sorted fields are equal if and only if every key has the same value. -/
theorem sort_eq_iff (hkeys : (fields.map Prod.fst).Nodup) (hkeys' : (fields'.map Prod.fst).Nodup) :
    sortByKey fields = sortByKey fields' ↔ ∀ k, fields.lookup k = fields'.lookup k := by
  constructor
  · intro h k
    have hperm : fields.Perm fields' :=
      (sortByKey_perm fields).symm.trans (h ▸ sortByKey_perm fields')
    apply Option.ext
    intro v
    rw [lookup_eq_some_iff_mem hkeys, lookup_eq_some_iff_mem hkeys', hperm.mem_iff]
  · intro h
    apply sort_eq_of_perm hkeys
    rw [List.perm_ext_iff_of_nodup (hkeys.of_map _) (hkeys'.of_map _)]
    rintro ⟨k, v⟩
    rw [← lookup_eq_some_iff_mem hkeys, ← lookup_eq_some_iff_mem hkeys', h k]

/-- Sorting looks at the keys only. -/
theorem sortByKey_map {β : Type} (f : α → β) (fields : List (String × α)) :
    sortByKey (fields.map fun p => (p.1, f p.2)) = (sortByKey fields).map fun p => (p.1, f p.2) :=
  (List.map_insertionSort KeyLe KeyLe (fun p : String × α => (p.1, f p.2)) fields
    fun _ _ _ _ => Iff.rfl).symm

end Text
