import Mathlib.Algebra.Order.Field.Rat
import Mathlib.Data.List.Induction
import TrustLink.Model.Records
import TrustLink.Store.OrderedMap

/-!
# TrustLink — the in-memory cache

Without `REDIS_URL` the `CacheService` keeps its entries in a `Map` of the process. An entry that
expired is removed when it is read or swept, and a write that makes the map too large sorts the
entries by expiry and deletes from the front. `Map` is `OrderedMap` here; a method is a function of
the map and of what `Date.now()` returns, and the bodies run without an `await`, so a run of the
service is a list of calls.

`memory_refines_ttl_map` compares such a run with the writes it was asked for: what is read is what
was last written and has not expired, and an entry that should be there and is not had to make room
for others that expire no earlier.
-/

namespace TrustLink

open Store

def MAX_MEMORY_ENTRIES : Nat := 1000

structure CacheEntry (V : Type) where
  value : V
  expiresAt : ℚ

abbrev CacheMemory (V : Type) := OrderedMap String (CacheEntry V)

variable {V : Type}

namespace CacheService

/-- `Date.now() + ttlSeconds * 1000`, with the default of the parameter. -/
def expiresAt (now : Time) (ttlSeconds : Option ℚ) : ℚ := now + ttlSeconds.getD 60 * 1000

/-- Removes every entry whose TTL has expired. -/
def sweep (now : Time) (memory : CacheMemory V) : CacheMemory V :=
  memory.entries.foldl
    (fun memory e => if (now : ℚ) > e.2.expiresAt then memory.delete e.1 else memory) memory

/-- The entries in the order `(a, b) => a[1].expiresAt - b[1].expiresAt` puts them; the sort is
stable. -/
def sorted (memory : CacheMemory V) : List (String × CacheEntry V) :=
  memory.entries.mergeSort fun a b => a.2.expiresAt ≤ b.2.expiresAt

def evictToCapacity (memory : CacheMemory V) : CacheMemory V :=
  if memory.size ≤ MAX_MEMORY_ENTRIES then memory
  else
    let toDelete := memory.size - MAX_MEMORY_ENTRIES
    memory.deleteAll (((sorted memory).take toDelete).map Prod.fst)

def get (now : Time) (key : String) (memory : CacheMemory V) : Option V × CacheMemory V :=
  match memory.get key with
  | none => (none, memory)
  | some entry =>
    if (now : ℚ) > entry.expiresAt then (none, memory.delete key) else (some entry.value, memory)

def set (now : Time) (key : String) (value : V) (ttlSeconds : Option ℚ) (memory : CacheMemory V) :
    CacheMemory V :=
  evictToCapacity (memory.set key ⟨value, expiresAt now ttlSeconds⟩)

def del (key : String) (memory : CacheMemory V) : CacheMemory V := memory.delete key

end CacheService

/-! ## Runs -/

inductive MemoryOp (V : Type) where
  | set (key : String) (value : V) (ttlSeconds : Option ℚ)
  | get (key : String)
  | del (key : String)
  | sweep

/-- A call, and what `Date.now()` returns during it. -/
structure MemoryCall (V : Type) where
  now : Time
  op : MemoryOp V

def MemoryOp.Writes (key : String) : MemoryOp V → Prop
  | .set k _ _ => k = key
  | .del k => k = key
  | _ => False

namespace CacheService

def step (memory : CacheMemory V) (c : MemoryCall V) : CacheMemory V :=
  match c.op with
  | .set key value ttlSeconds => set c.now key value ttlSeconds memory
  | .get key => (get c.now key memory).2
  | .del key => del key memory
  | .sweep => sweep c.now memory

/-- The map after a list of calls, the oldest first. -/
def run (calls : List (MemoryCall V)) : CacheMemory V := calls.foldl step .empty

theorem run_concat (calls : List (MemoryCall V)) (c : MemoryCall V) :
    run (calls ++ [c]) = step (run calls) c := by
  simp [run]

end CacheService

/-- The last write of `key` among the calls is a `set`, with calls `before` and `after` it. -/
structure LastSet (calls : List (MemoryCall V)) (key : String) (before : List (MemoryCall V))
    (now : Time) (value : V) (ttlSeconds : Option ℚ) (after : List (MemoryCall V)) : Prop where
  split : calls = before ++ ⟨now, .set key value ttlSeconds⟩ :: after
  last : ∀ c ∈ after, ¬ c.op.Writes key

/-- The map is full of other entries, and all of them expire no earlier than `expiresAt`. -/
structure Displaces (memory : CacheMemory V) (key : String) (expiresAt : ℚ) : Prop where
  full : memory.size = MAX_MEMORY_ENTRIES
  later : ∀ k entry, memory.get k = some entry → k ≠ key ∧ expiresAt ≤ entry.expiresAt

namespace CacheService

/-! ## What each method leaves in the map -/

section methods

variable {memory : CacheMemory V} {key k : String} {entry : CacheEntry V} {now : Time}

theorem sweep_eq (now : Time) (memory : CacheMemory V) :
    sweep now memory = memory.deleteAll
      ((memory.entries.filter fun e => (now : ℚ) > e.2.expiresAt).map Prod.fst) := by
  unfold sweep OrderedMap.deleteAll
  generalize hstart : memory = start
  generalize start.entries = entries
  clear hstart
  induction entries generalizing start with
  | nil => rfl
  | cons e entries ih =>
    rw [List.foldl_cons, List.filter_cons]
    by_cases hexpired : (now : ℚ) > e.2.expiresAt
    · simp only [hexpired, if_true, decide_true, List.map_cons, List.foldl_cons]
      exact ih _
    · simp only [hexpired, if_false, decide_false, Bool.false_eq_true]
      exact ih _

/-- A sweep removes the expired entries and no others. -/
theorem get_sweep_iff :
    (sweep now memory).get k = some entry ↔
      memory.get k = some entry ∧ (now : ℚ) ≤ entry.expiresAt := by
  rw [sweep_eq]
  simp only [OrderedMap.get_eq_some_iff, OrderedMap.mem_deleteAll]
  refine and_congr_right fun hmem => ?_
  simp only [List.mem_map, List.mem_filter, decide_eq_true_eq, not_exists, not_and, gt_iff_lt]
  constructor
  · intro hkept
    by_contra hexpired
    exact hkept (k, entry) ⟨hmem, lt_of_not_ge hexpired⟩ rfl
  · rintro hfresh ⟨k₁, entry₁⟩ ⟨hmem₁, hexpired⟩ rfl
    have hsame : some entry₁ = some entry := by
      rw [← OrderedMap.get_eq_some_iff.mpr hmem₁, ← OrderedMap.get_eq_some_iff.mpr hmem]
    cases hsame
    exact absurd hexpired (not_lt_of_ge hfresh)

theorem get_del_iff :
    (del key memory).get k = some entry ↔ memory.get k = some entry ∧ k ≠ key := by
  simp only [del, OrderedMap.get_eq_some_iff, OrderedMap.mem_delete]

theorem sorted_perm (memory : CacheMemory V) : (sorted memory).Perm memory.entries :=
  List.mergeSort_perm _ _

theorem sorted_pairwise (memory : CacheMemory V) :
    (sorted memory).Pairwise fun a b => a.2.expiresAt ≤ b.2.expiresAt := by
  have hsorted : (sorted memory).Pairwise fun a b => decide (a.2.expiresAt ≤ b.2.expiresAt) := by
    apply List.pairwise_mergeSort
    · intro a b c hab hbc
      simp only [decide_eq_true_eq] at hab hbc ⊢
      exact le_trans hab hbc
    · intro a b
      simp only [Bool.or_eq_true, decide_eq_true_eq]
      exact le_total _ _
  exact hsorted.imp fun h => by simpa using h

/-- An eviction either keeps everything, or it leaves exactly the capacity and removes no entry
that expires after one it keeps. -/
theorem evictToCapacity_cases (memory : CacheMemory V) :
    (evictToCapacity memory = memory ∧ memory.size ≤ MAX_MEMORY_ENTRIES) ∨
    ((evictToCapacity memory).size = MAX_MEMORY_ENTRIES ∧
      ∀ k entry, memory.get k = some entry →
        (evictToCapacity memory).get k = some entry ∨
        ∀ k' entry', (evictToCapacity memory).get k' = some entry' →
          k' ≠ k ∧ entry.expiresAt ≤ entry'.expiresAt) := by
  unfold evictToCapacity
  by_cases hsize : memory.size ≤ MAX_MEMORY_ENTRIES
  · rw [if_pos hsize]
    exact .inl ⟨rfl, hsize⟩
  · rw [if_neg hsize]
    refine .inr ?_
    set n := memory.size - MAX_MEMORY_ENTRIES with hn
    have hsplit : memory.entries.Perm ((sorted memory).take n ++ (sorted memory).drop n) := by
      rw [List.take_append_drop]
      exact (sorted_perm memory).symm
    have hkept := OrderedMap.deleteAll_perm hsplit
    constructor
    · have hlength : (sorted memory).length = memory.size := (sorted_perm memory).length_eq
      show (OrderedMap.deleteAll _ memory).entries.length = _
      rw [hkept.length_eq, List.length_drop, hlength]
      omega
    · intro k entry hget
      have hmem : (k, entry) ∈ (sorted memory).take n ++ (sorted memory).drop n :=
        hsplit.mem_iff.mp (OrderedMap.get_eq_some_iff.mp hget)
      rcases List.mem_append.mp hmem with hgone | hstays
      · -- the sort puts the deleted entries before the kept ones
        refine .inr fun k' entry' hget' => ?_
        rw [OrderedMap.get_eq_some_iff] at hget'
        have hlater := sorted_pairwise memory
        rw [← List.take_append_drop n (sorted memory), List.pairwise_append] at hlater
        refine ⟨?_, hlater.2.2 _ hgone _ (hkept.mem_iff.mp hget')⟩
        rintro rfl
        exact (OrderedMap.mem_deleteAll.mp hget').2 (List.mem_map.mpr ⟨_, hgone, rfl⟩)
      · refine .inl ?_
        rw [OrderedMap.get_eq_some_iff]
        exact hkept.mem_iff.mpr hstays

theorem size_evictToCapacity_le (memory : CacheMemory V) :
    (evictToCapacity memory).size ≤ MAX_MEMORY_ENTRIES := by
  rcases evictToCapacity_cases memory with ⟨hsame, hsize⟩ | ⟨hsize, -⟩
  · rw [hsame]
    exact hsize
  · omega

/-- An eviction only removes. -/
theorem get_evictToCapacity (h : (evictToCapacity memory).get k = some entry) :
    memory.get k = some entry := by
  unfold evictToCapacity at h
  split at h
  · exact h
  · rw [OrderedMap.get_eq_some_iff] at h ⊢
    exact (OrderedMap.mem_deleteAll.mp h).1

/-- What a read leaves in the map: everything but the entry it found expired. -/
theorem get_get_iff :
    (get now key memory).2.get k = some entry ↔
      memory.get k = some entry ∧ (k = key → (now : ℚ) ≤ entry.expiresAt) := by
  unfold get
  cases hget : memory.get key with
  | none =>
    refine ⟨fun h => ⟨h, ?_⟩, fun h => h.1⟩
    rintro rfl
    rw [show memory.get k = some entry from h] at hget
    cases hget
  | some held =>
    by_cases hexpired : (now : ℚ) > held.expiresAt
    · simp only [hexpired, if_true, OrderedMap.get_eq_some_iff, OrderedMap.mem_delete]
      refine and_congr_right fun hmem => ⟨fun hne heq => absurd heq hne, ?_⟩
      rintro hfresh rfl
      rw [OrderedMap.get_eq_some_iff.mpr hmem] at hget
      cases hget
      exact absurd hexpired (not_lt_of_ge (hfresh rfl))
    · simp only [hexpired, if_false]
      refine ⟨fun h => ⟨h, ?_⟩, fun h => h.1⟩
      rintro rfl
      rw [show memory.get k = some entry from h] at hget
      cases hget
      exact le_of_not_gt hexpired

/-- A read returns what is held and has not expired. -/
theorem get_value_iff {value : V} :
    (get now key memory).1 = some value ↔
      ∃ entry, memory.get key = some entry ∧ entry.value = value ∧ (now : ℚ) ≤ entry.expiresAt := by
  unfold get
  cases hget : memory.get key with
  | none => simp
  | some held =>
    by_cases hexpired : (now : ℚ) > held.expiresAt
    · simp only [hexpired, if_true]
      refine ⟨nofun, ?_⟩
      rintro ⟨entry, heq, -, hfresh⟩
      cases heq
      exact absurd hexpired (not_lt_of_ge hfresh)
    · simp only [hexpired, if_false, Option.some.injEq]
      exact ⟨fun h => ⟨held, rfl, h, le_of_not_gt hexpired⟩, by rintro ⟨_, rfl, h, -⟩; exact h⟩

end methods

/-! ## One call -/

section step

variable {memory : CacheMemory V} {key : String} {entry : CacheEntry V} {c : MemoryCall V}

theorem size_step_le (h : memory.size ≤ MAX_MEMORY_ENTRIES) (c : MemoryCall V) :
    (step memory c).size ≤ MAX_MEMORY_ENTRIES := by
  obtain ⟨now, op⟩ := c
  cases op with
  | set key value ttlSeconds => exact size_evictToCapacity_le _
  | get key =>
    show (get now key memory).2.size ≤ _
    unfold get
    cases memory.get key with
    | none => exact h
    | some entry =>
      dsimp only
      split
      · exact le_trans (OrderedMap.size_delete_le _ _) h
      · exact h
  | del key => exact le_trans (OrderedMap.size_delete_le _ _) h
  | sweep =>
    show (sweep now memory).size ≤ _
    rw [sweep_eq]
    exact le_trans (OrderedMap.size_deleteAll_le _ _) h

/-- What is held after a call was held before, or the call set it. -/
theorem get_step (h : (step memory c).get key = some entry) :
    (memory.get key = some entry ∧ ¬ c.op.Writes key) ∨
    ∃ value ttlSeconds, c.op = .set key value ttlSeconds ∧
      entry = ⟨value, expiresAt c.now ttlSeconds⟩ := by
  obtain ⟨now, op⟩ := c
  cases op with
  | set k value ttlSeconds =>
    have hset := get_evictToCapacity h
    rw [OrderedMap.get_eq_some_iff, OrderedMap.mem_set] at hset
    rcases hset with ⟨rfl, hentry⟩ | ⟨hne, hmem⟩
    · exact .inr ⟨value, ttlSeconds, rfl, hentry⟩
    · exact .inl ⟨OrderedMap.get_eq_some_iff.mpr hmem, fun hw => hne hw.symm⟩
  | get k => exact .inl ⟨(get_get_iff.mp h).1, fun hw => hw⟩
  | del k =>
    obtain ⟨hmem, hne⟩ := get_del_iff.mp h
    exact .inl ⟨hmem, fun hw => hne hw.symm⟩
  | sweep => exact .inl ⟨(get_sweep_iff.mp h).1, fun hw => hw⟩

/-- After a `set` an entry of the map is still there, or others displaced it. -/
theorem held_or_displaced (h : memory.get key = some entry) :
    (evictToCapacity memory).get key = some entry ∨
      Displaces (evictToCapacity memory) key entry.expiresAt := by
  rcases evictToCapacity_cases memory with ⟨hsame, -⟩ | ⟨hfull, hall⟩
  · rw [hsame]
    exact .inl h
  · rcases hall key entry h with hheld | hlater
    · exact .inl hheld
    · exact .inr ⟨hfull, hlater⟩

/-- An entry that is not written and has not expired outlives every call, unless the call is a
`set` and others displace it. -/
theorem held_step (h : memory.get key = some entry) (hw : ¬ c.op.Writes key)
    (hnow : (c.now : ℚ) ≤ entry.expiresAt) :
    (step memory c).get key = some entry ∨
    ((∃ k value ttlSeconds, c.op = .set k value ttlSeconds) ∧
      Displaces (step memory c) key entry.expiresAt) := by
  obtain ⟨now, op⟩ := c
  cases op with
  | set k value ttlSeconds =>
    have hset : (memory.set k ⟨value, expiresAt now ttlSeconds⟩).get key = some entry := by
      rw [OrderedMap.get_eq_some_iff, OrderedMap.mem_set]
      exact .inr ⟨fun heq => hw heq.symm, OrderedMap.get_eq_some_iff.mp h⟩
    rcases held_or_displaced hset with hheld | hdisplaced
    · exact .inl hheld
    · exact .inr ⟨⟨k, value, ttlSeconds, rfl⟩, hdisplaced⟩
  | get k => exact .inl (get_get_iff.mpr ⟨h, fun _ => hnow⟩)
  | del k => exact .inl (get_del_iff.mpr ⟨h, fun heq => hw heq.symm⟩)
  | sweep => exact .inl (get_sweep_iff.mpr ⟨h, hnow⟩)

end step

/-! ## Whole runs

One call keeps what is known of a key, and so does a list of calls. -/

section runs

variable {calls after : List (MemoryCall V)} {key : String} {ttlSeconds : Option ℚ} {t : Time}

theorem size_run_le (calls : List (MemoryCall V)) : (run calls).size ≤ MAX_MEMORY_ENTRIES := by
  induction calls using List.reverseRecOn with
  | nil => exact Nat.zero_le _
  | append_singleton calls c ih =>
    rw [run_concat]
    exact size_step_le ih c

/-- Whatever is held for a key is what its last write stored. -/
theorem held_lastSet {entry : CacheEntry V} (h : (run calls).get key = some entry) :
    ∃ before now value ttlSeconds after, LastSet calls key before now value ttlSeconds after ∧
      entry = ⟨value, expiresAt now ttlSeconds⟩ := by
  induction calls using List.reverseRecOn with
  | nil => cases h
  | append_singleton calls c ih =>
    rw [run_concat] at h
    rcases get_step h with ⟨hheld, hw⟩ | ⟨value, ttlSeconds, hop, hentry⟩
    · obtain ⟨before, now, value, ttlSeconds, after, hlast, hentry⟩ := ih hheld
      refine ⟨before, now, value, ttlSeconds, after ++ [c], ⟨?_, ?_⟩, hentry⟩
      · rw [hlast.split, List.append_assoc, List.cons_append]
      · intro c' hc'
        rcases List.mem_append.mp hc' with hc' | hc'
        · exact hlast.last c' hc'
        · rw [List.mem_singleton.mp hc']
          exact hw
    · obtain ⟨now, op⟩ := c
      subst hop
      exact ⟨calls, now, value, ttlSeconds, [], ⟨rfl, nofun⟩, hentry⟩

/-- From its `set` on, an unwritten and unexpired entry is held until a `set` displaces it. -/
theorem held_or_displaced_run (before : List (MemoryCall V)) (value : V)
    (hlast : ∀ c ∈ after, ¬ c.op.Writes key)
    (hnow : ∀ c ∈ after, (c.now : ℚ) ≤ expiresAt t ttlSeconds) :
    (run (before ++ ⟨t, .set key value ttlSeconds⟩ :: after)).get key
      = some ⟨value, expiresAt t ttlSeconds⟩ ∨
    ∃ upTo now k value' ttlSeconds' rest,
      (⟨t, .set key value ttlSeconds⟩ : MemoryCall V) :: after
        = upTo ++ ⟨now, .set k value' ttlSeconds'⟩ :: rest ∧
      Displaces (run (before ++ upTo ++ [⟨now, .set k value' ttlSeconds'⟩])) key
        (expiresAt t ttlSeconds) := by
  -- by the last call: the entry is still held before it, or was displaced earlier
  induction after using List.reverseRecOn with
  | nil =>
    rw [run_concat]
    have hset : ((run before).set key ⟨value, expiresAt t ttlSeconds⟩).get key
        = some ⟨value, expiresAt t ttlSeconds⟩ := by
      rw [OrderedMap.get_eq_some_iff, OrderedMap.mem_set]
      exact .inl ⟨rfl, rfl⟩
    rcases held_or_displaced hset with hheld | hdisplaced
    · exact .inl hheld
    · refine .inr ⟨[], t, key, value, ttlSeconds, [], rfl, ?_⟩
      rw [List.append_nil, run_concat]
      exact hdisplaced
  | append_singleton after c ih =>
    have hbefore := ih (fun c' hc' => hlast c' (List.mem_append_left _ hc'))
      (fun c' hc' => hnow c' (List.mem_append_left _ hc'))
    rcases hbefore with hheld | ⟨upTo, now, k, value', ttlSeconds', rest, hsplit, hdisplaced⟩
    · have hc : c ∈ after ++ [c] := List.mem_append_right _ (List.mem_singleton_self c)
      rcases held_step hheld (hlast c hc) (hnow c hc) with hheld' | ⟨⟨k, value', ttl', hop⟩, hdis⟩
      · refine .inl ?_
        rw [← List.cons_append, ← List.append_assoc, run_concat]
        exact hheld'
      · obtain ⟨now, op⟩ := c
        subst hop
        refine .inr ⟨_ :: after, now, k, value', ttl', [], rfl, ?_⟩
        rw [run_concat]
        exact hdis
    · refine .inr ⟨upTo, now, k, value', ttlSeconds', rest ++ [c], ?_, hdisplaced⟩
      rw [← List.cons_append, hsplit, List.append_assoc, List.cons_append]

end runs

end CacheService

open CacheService

/-- After every list of calls with a clock that does not go back: the map is within its capacity;
a read returns the value of the last `set` of the key, not deleted since and not expired; and when a
read misses an entry that was set, not written since and not expired, then at some `set` since, its
own included, the map was left full of other entries that all expire no earlier, so none of them has
expired even now. -/
theorem memory_refines_ttl_map (calls : List (MemoryCall V)) (now : Time)
    (hclock : (calls.map (·.now) ++ [now]).Pairwise (· ≤ ·)) (key : String) :
    (run calls).size ≤ MAX_MEMORY_ENTRIES ∧
    (∀ value, (CacheService.get now key (run calls)).1 = some value →
      ∃ before t ttlSeconds after, LastSet calls key before t value ttlSeconds after ∧
        (now : ℚ) ≤ expiresAt t ttlSeconds) ∧
    (∀ before t value ttlSeconds after, LastSet calls key before t value ttlSeconds after →
      (now : ℚ) ≤ expiresAt t ttlSeconds →
      (CacheService.get now key (run calls)).1 = none →
      ∃ upTo t' k value' ttlSeconds' rest,
        (⟨t, .set key value ttlSeconds⟩ : MemoryCall V) :: after
          = upTo ++ ⟨t', .set k value' ttlSeconds'⟩ :: rest ∧
        Displaces (run (before ++ upTo ++ [⟨t', .set k value' ttlSeconds'⟩])) key
          (expiresAt t ttlSeconds) ∧
        ∀ k' entry, (run (before ++ upTo ++ [⟨t', .set k value' ttlSeconds'⟩])).get k' = some entry →
          ¬ (now : ℚ) > entry.expiresAt) := by
  refine ⟨size_run_le calls, ?_, ?_⟩
  · intro value hvalue
    obtain ⟨entry, hheld, rfl, hfresh⟩ := get_value_iff.mp hvalue
    obtain ⟨before, t, value, ttlSeconds, after, hlast, rfl⟩ := held_lastSet hheld
    exact ⟨before, t, ttlSeconds, after, hlast, hfresh⟩
  · intro before t value ttlSeconds after hlast hfresh hmiss
    -- the clock of every call since the `set` is at most the clock of the read
    have hnow : ∀ c ∈ after, (c.now : ℚ) ≤ expiresAt t ttlSeconds := by
      intro c hc
      have hle : c.now ≤ now := by
        refine (List.pairwise_append.mp hclock).2.2 c.now ?_ now (List.mem_singleton_self now)
        rw [hlast.split]
        exact List.mem_map_of_mem (List.mem_append_right _ (List.mem_cons_of_mem _ hc))
      exact le_trans (by exact_mod_cast hle) hfresh
    have hrun := held_or_displaced_run before value hlast.last hnow
    rw [← hlast.split] at hrun
    rcases hrun with hheld | ⟨upTo, t', k, value', ttlSeconds', rest, hsplit, hdisplaced⟩
    · rw [get_value_iff.mpr ⟨_, hheld, rfl, hfresh⟩] at hmiss
      cases hmiss
    · refine ⟨upTo, t', k, value', ttlSeconds', rest, hsplit, hdisplaced, ?_⟩
      intro k' entry hget
      exact not_lt_of_ge (le_trans hfresh (hdisplaced.later k' entry hget).2)

/-- One entry with a time to live of 30 s, read after 20 s and a sweep. -/
theorem memory_refines_ttl_map_hit :
    let calls : List (MemoryCall Nat) := [⟨0, .set "k" 5 (some 30)⟩, ⟨10000, .sweep⟩]
    (CacheService.get 20000 "k" (run calls)).1 = some 5 ∧
    ∃ before t ttlSeconds after, LastSet calls "k" before t 5 ttlSeconds after ∧
      ((20000 : Time) : ℚ) ≤ expiresAt t ttlSeconds := by
  have hhit : (CacheService.get 20000 "k" (run
      [(⟨0, .set "k" 5 (some 30)⟩ : MemoryCall Nat), ⟨10000, .sweep⟩])).1 = some 5 := by
    decide +kernel
  exact ⟨hhit, (memory_refines_ttl_map _ 20000 (by decide) "k").2.1 5 hhit⟩

end TrustLink
