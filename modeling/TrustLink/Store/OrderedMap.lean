import Mathlib.Data.List.Nodup
import Mathlib.Data.List.Perm.Basic

/-!
# Store — insertion-ordered maps

A map that remembers in which order its keys were first set, as the `Map` of a scripting language
does: setting a key again keeps its place. It is a list of entries in which no key repeats, and
everything about it is said through membership of the entries (`get_eq_some_iff`, `mem_set`,
`mem_delete`); for deleting many keys at once, `deleteAll_perm` also says what is left when the
entries were split in two beforehand.
-/

namespace Store

structure OrderedMap (κ ν : Type) where
  entries : List (κ × ν)
  keys_nodup : (entries.map Prod.fst).Nodup

namespace OrderedMap

variable {κ ν : Type}

def empty : OrderedMap κ ν := ⟨[], List.nodup_nil⟩

def size (m : OrderedMap κ ν) : Nat := m.entries.length

variable [DecidableEq κ]

def get (m : OrderedMap κ ν) (k : κ) : Option ν :=
  (m.entries.find? fun e => e.1 = k).map Prod.snd

/-- Overwrite the value in place, or append a new entry. -/
def set (m : OrderedMap κ ν) (k : κ) (v : ν) : OrderedMap κ ν :=
  if hk : k ∈ m.entries.map Prod.fst then
    { entries := m.entries.map fun e => if e.1 = k then (k, v) else e
      keys_nodup := by
        have hkeys : (m.entries.map fun e => if e.1 = k then (k, v) else e).map Prod.fst
            = m.entries.map Prod.fst := by
          rw [List.map_map]
          apply List.map_congr_left
          intro e _
          show (if e.1 = k then (k, v) else e).1 = e.1
          split
          · next h => exact h.symm
          · rfl
        rw [hkeys]
        exact m.keys_nodup }
  else
    { entries := m.entries ++ [(k, v)]
      keys_nodup := by
        rw [List.map_append, List.nodup_append]
        refine ⟨m.keys_nodup, List.nodup_singleton _, ?_⟩
        intro a ha b hb hab
        rw [List.map_singleton, List.mem_singleton] at hb
        rw [hab, hb] at ha
        exact hk ha }

def delete (m : OrderedMap κ ν) (k : κ) : OrderedMap κ ν where
  entries := m.entries.filter fun e => e.1 ≠ k
  keys_nodup := m.keys_nodup.sublist (List.filter_sublist.map Prod.fst)

/-- Delete the keys of a list, one after the other. -/
def deleteAll (ks : List κ) (m : OrderedMap κ ν) : OrderedMap κ ν := ks.foldl delete m

variable {m : OrderedMap κ ν} {k k' : κ} {v v' : ν}

theorem get_eq_some_iff : m.get k = some v ↔ (k, v) ∈ m.entries := by
  unfold get
  rw [Option.map_eq_some_iff]
  constructor
  · rintro ⟨⟨k₁, v₁⟩, hfind, rfl⟩
    have hkey : k₁ = k := by simpa using List.find?_some hfind
    subst hkey
    exact List.mem_of_find?_eq_some hfind
  · intro hmem
    have hsome : (m.entries.find? fun e => e.1 = k).isSome := by
      rw [List.find?_isSome]
      exact ⟨(k, v), hmem, by simp⟩
    obtain ⟨e, hfind⟩ := Option.isSome_iff_exists.mp hsome
    refine ⟨e, hfind, ?_⟩
    have hkey : e.1 = k := by simpa using List.find?_some hfind
    have hsame : e = (k, v) :=
      List.inj_on_of_nodup_map m.keys_nodup (List.mem_of_find?_eq_some hfind) hmem hkey
    rw [hsame]

@[simp] theorem get_empty (k : κ) : (empty : OrderedMap κ ν).get k = none := rfl

@[simp] theorem mem_set :
    (k', v') ∈ (m.set k v).entries ↔ (k' = k ∧ v' = v) ∨ (k' ≠ k ∧ (k', v') ∈ m.entries) := by
  unfold set
  split
  · next hk =>
    obtain ⟨⟨k₀, v₀⟩, hmem, rfl⟩ := List.mem_map.mp hk
    simp only [List.mem_map]
    constructor
    · rintro ⟨e, he, heq⟩
      split at heq
      · cases heq
        exact .inl ⟨rfl, rfl⟩
      · next hne =>
        subst heq
        exact .inr ⟨hne, he⟩
    · rintro (⟨rfl, rfl⟩ | ⟨hne, he⟩)
      · exact ⟨_, hmem, if_pos rfl⟩
      · exact ⟨_, he, if_neg hne⟩
  · next hk =>
    simp only [List.mem_append, List.mem_singleton, Prod.mk.injEq]
    constructor
    · rintro (he | he)
      · refine .inr ⟨?_, he⟩
        rintro rfl
        exact hk (List.mem_map.mpr ⟨_, he, rfl⟩)
      · exact .inl he
    · rintro (he | ⟨-, he⟩)
      · exact .inr he
      · exact .inl he

theorem get_set : (m.set k v).get k' = if k' = k then some v else m.get k' := by
  apply Option.ext
  intro w
  rw [get_eq_some_iff, mem_set]
  split
  · next h => simp [h, eq_comm]
  · next h => simp [h, get_eq_some_iff]

/-- After entries were set one by one, a key that is found among them has one of their values. -/
theorem get_foldl_set {α : Type} (key : α → κ) (val : α → ν) (l : List α) (m : OrderedMap κ ν)
    (k : κ) :
    (∃ a ∈ l, key a = k ∧
      (l.foldl (fun m a => m.set (key a) (val a)) m).get k = some (val a)) ∨
    ((∀ a ∈ l, key a ≠ k) ∧
      (l.foldl (fun m a => m.set (key a) (val a)) m).get k = m.get k) := by
  induction l generalizing m with
  | nil => exact .inr ⟨nofun, rfl⟩
  | cons a l ih =>
    rw [List.foldl_cons]
    rcases ih (m.set (key a) (val a)) with ⟨b, hb, hkey, hget⟩ | ⟨hnone, hget⟩
    · exact .inl ⟨b, List.mem_cons_of_mem _ hb, hkey, hget⟩
    · rw [get_set] at hget
      by_cases hk : k = key a
      · rw [if_pos hk] at hget
        exact .inl ⟨a, List.mem_cons_self, hk.symm, hget⟩
      · rw [if_neg hk] at hget
        refine .inr ⟨?_, hget⟩
        intro b hb
        rcases List.mem_cons.mp hb with rfl | hb
        · exact fun heq => hk heq.symm
        · exact hnone b hb

@[simp] theorem mem_delete :
    (k', v') ∈ (m.delete k).entries ↔ (k', v') ∈ m.entries ∧ k' ≠ k := by
  simp [delete]

theorem deleteAll_entries (ks : List κ) (m : OrderedMap κ ν) :
    (m.deleteAll ks).entries = m.entries.filter fun e => e.1 ∉ ks := by
  unfold deleteAll
  induction ks generalizing m with
  | nil => simp
  | cons k ks ih =>
    rw [List.foldl_cons, ih]
    simp only [delete, List.filter_filter]
    apply List.filter_congr
    intro e _
    simp [Bool.and_comm]

theorem mem_deleteAll {ks : List κ} :
    (k', v') ∈ (m.deleteAll ks).entries ↔ (k', v') ∈ m.entries ∧ k' ∉ ks := by
  simp [deleteAll_entries]

theorem size_delete_le (m : OrderedMap κ ν) (k : κ) : (m.delete k).size ≤ m.size :=
  List.length_filter_le _ _

theorem size_deleteAll_le (ks : List κ) (m : OrderedMap κ ν) : (m.deleteAll ks).size ≤ m.size := by
  unfold size
  rw [deleteAll_entries]
  exact List.length_filter_le _ _

/-- When the entries are those of `gone` and of `kept`, deleting the former leaves the latter. -/
theorem deleteAll_perm {gone kept : List (κ × ν)} (hsplit : m.entries.Perm (gone ++ kept)) :
    (m.deleteAll (gone.map Prod.fst)).entries.Perm kept := by
  have hnodup : ((gone ++ kept).map Prod.fst).Nodup :=
    (hsplit.map Prod.fst).nodup_iff.mp m.keys_nodup
  rw [List.map_append] at hnodup
  have hgone : gone.filter (fun e => e.1 ∉ gone.map Prod.fst) = [] := by
    rw [List.filter_eq_nil_iff]
    intro e he
    simpa using ⟨e.2, he⟩
  have hkept : kept.filter (fun e => e.1 ∉ gone.map Prod.fst) = kept := by
    rw [List.filter_eq_self]
    intro e he
    have hnot : e.1 ∉ gone.map Prod.fst :=
      fun hin => List.disjoint_of_nodup_append hnodup hin (List.mem_map_of_mem he)
    simpa using hnot
  have hperm := hsplit.filter fun e => e.1 ∉ gone.map Prod.fst
  rw [List.filter_append, hgone, hkept, List.nil_append] at hperm
  rw [deleteAll_entries]
  exact hperm

end OrderedMap

end Store
