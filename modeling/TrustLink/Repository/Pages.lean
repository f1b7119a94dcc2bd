import TrustLink.Model.Prisma
import TrustLink.Store.Paging

/-!
# TrustLink — the pages of a vendor's escrows

`findVendorEscrows` reads one page: `findMany` with `orderBy`, `skip` and `take`, next to a `count`
of everything that matches. It orders by `createdAt` or by `amount` alone. Neither column is unique,
and Postgres may return rows with equal values in a different order each time, so a reader who goes
from page to page sees slices of different lists.

The tables do not change here, so the two queries are functions of them; the order of equal rows is
passed in as `tie`, as in `Model/Prisma.lean`. `pages_partition_iff` says when the pages fit
together.
-/

namespace TrustLink

open Store Paging

inductive VendorSort where
  | date
  | amount
  deriving DecidableEq, Repr

inductive SortOrder where
  | asc
  | desc
  deriving DecidableEq, Repr

structure VendorEscrowsResult where
  data : List EscrowRecord
  total : Nat

namespace Db

/-- `where = { vendorAddress, state }`; an `undefined` state filters nothing. -/
def matching (db : Db) (vendorAddress : String) (state : Option EscrowState) : List EscrowRow :=
  db.escrows.rows.filter fun row =>
    row.vendorAddress = vendorAddress && state.elim true (fun state => row.state = state)

/-- `orderBy`, as a key that grows along the answer. -/
def sortKey (sort : VendorSort) (order : SortOrder) (row : EscrowRow) : Int :=
  let column := match sort with
    | .amount => row.amount.units
    | .date => row.createdAt
  match order with
  | .asc => column
  | .desc => -column

def findMany (db : Db) (tie : String → Nat) (vendorAddress : String) (state : Option EscrowState)
    (sort : VendorSort) (order : SortOrder) (skip take : Nat) : List EscrowRow :=
  ((arrange (sortKey sort order) (·.id) tie (db.matching vendorAddress state)).drop skip).take take

def count (db : Db) (vendorAddress : String) (state : Option EscrowState) : Nat :=
  (db.matching vendorAddress state).length

end Db

/-- `findVendorEscrows` -/
def EscrowRepository.findVendorEscrows (tie : String → Nat) (db : Db) (vendorAddress : String)
    (state : Option EscrowState) (sort : VendorSort) (order : SortOrder) (page limit : Nat) :
    VendorEscrowsResult :=
  let skip := (page - 1) * limit
  { data := (db.findMany tie vendorAddress state sort order skip limit).map toEscrowRecord
    total := db.count vendorAddress state }

section pages

variable (db : Db) (vendorAddress : String) (state : Option EscrowState) (sort : VendorSort)
  (order : SortOrder)

theorem matching_ids_nodup : ((db.matching vendorAddress state).map (·.id)).Nodup :=
  List.Nodup.sublist (List.Sublist.map _ List.filter_sublist) db.escrows.rows_keys_nodup

/-- The pages from 1 to `⌈total / limit⌉`, one after the other, each read with its own `tie`. -/
def allPages (tie : Nat → String → Nat) (limit : Nat) : List EscrowRecord :=
  (List.range' 1 ((db.count vendorAddress state + limit - 1) / limit)).flatMap fun page =>
    (EscrowRepository.findVendorEscrows (tie page) db vendorAddress state sort order page limit).data

theorem allPages_eq (tie : Nat → String → Nat) (limit : Nat) :
    allPages db vendorAddress state sort order tie limit =
      ((List.range ((db.count vendorAddress state + limit - 1) / limit)).flatMap fun n =>
        page (arrange (Db.sortKey sort order) (·.id) (tie (n + 1)) (db.matching vendorAddress state))
          limit n).map toEscrowRecord := by
  unfold allPages
  rw [List.range'_eq_map_range, List.flatMap_map, List.map_flatMap]
  apply List.flatMap_congr
  intro n _
  show (List.map toEscrowRecord _) = List.map toEscrowRecord _
  unfold Db.findMany page
  rw [Nat.add_comm 1 n]
  rfl

/-- For every table, vendor, filter, sort column, order and page size: the pages together hold each
matching escrow once, in whatever order each query puts equal rows, exactly if no page ends inside
a run of rows that are equal in the sort column. -/
theorem pages_partition_iff {limit : Nat} (hlimit : 0 < limit) :
    (∀ tie : Nat → String → Nat, (allPages db vendorAddress state sort order tie limit).Perm
      ((db.matching vendorAddress state).map toEscrowRecord)) ↔
    ∀ k, ∀ row ∈ db.matching vendorAddress state,
      ¬ Cuts (Db.sortKey sort order) (db.matching vendorAddress state) (k * limit) row := by
  have hident := matching_ids_nodup db vendorAddress state
  have henough : (db.matching vendorAddress state).length
      ≤ (db.count vendorAddress state + limit - 1) / limit * limit := by
    have hdiv := Nat.div_add_mod (db.count vendorAddress state + limit - 1) limit
    have hmod := Nat.mod_lt (db.count vendorAddress state + limit - 1) hlimit
    rw [Nat.mul_comm] at hdiv
    unfold Db.count at hdiv hmod ⊢
    omega
  constructor
  · -- a row on two pages is two records with one id
    intro hpages k row hrow hcut
    obtain ⟨tie, hrepeat⟩ := pages_repeat_of_cut hident hrow hcut henough
    have hperm := (hpages fun page => tie (page - 1)).map (·.id)
    rw [allPages_eq, List.map_map, List.map_map] at hperm
    exact hrepeat ((hperm.nodup_iff.mpr hident).of_map _)
  · intro hcut tie
    rw [allPages_eq]
    exact (all_pages_perm _ (hident.of_map _) hcut (fun n => tie (n + 1)) henough).map _

/-- Two escrows of different times in pages of one row. -/
theorem pages_partition_distinct :
    let db := Db.ofEscrows [{ Db.lampEscrow .CREATED with createdAt := 5 },
      { Db.lampEscrow .CREATED with id := "e2", itemRef := "lamp-2", createdAt := 9 }]
    ∀ tie : Nat → String → Nat, (allPages db "vendor" none .date .desc tie 1).Perm
      ((db.matching "vendor" none).map toEscrowRecord) := by
  intro db
  refine (pages_partition_iff db "vendor" none .date .desc (by decide)).mpr ?_
  have hsingle : ∀ row ∈ db.matching "vendor" none,
      sharing (Db.sortKey .date .desc) (db.matching "vendor" none) row ≤ 1 := by decide +kernel
  intro k row hrow hcut
  have hone := hsingle row hrow
  unfold Cuts at hcut
  omega

/-- Two escrows of one amount in pages of one row: the second query puts them the other way round,
and the pages hold one escrow twice and the other not at all. -/
theorem equal_amounts_repeat :
    let db := Db.ofEscrows [Db.lampEscrow .CREATED,
      { Db.lampEscrow .CREATED with id := "e2", itemRef := "lamp-2" }]
    ∃ tie : Nat → String → Nat,
      (allPages db "vendor" none .amount .asc tie 1).map (·.id) = ["e1", "e1"] ∧
      db.count "vendor" none = 2 := by
  refine ⟨fun page id => if id = "e1" then page - 1 else 2 - page, ?_⟩
  decide +kernel

end pages

end TrustLink
