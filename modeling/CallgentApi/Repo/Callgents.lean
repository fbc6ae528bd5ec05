import CallgentApi.Repo.Select

/-!
# Callgents as they are selected

The columns of a callgent, and what `CallgentsService` selects of them by
default.
-/

namespace CallgentApi
namespace Repo

open Js Agents Select

structure CallgentColumns where
  pk : Nat
  id : Text
  tenantPk : Int
  name : Text
  avatar : Option Text
  summary : Option Text
  instruction : Option Text
  liked : Nat
  viewed : Nat
  forked : Nat
  favorite : Nat
  official : Bool
  featured : Bool
  forkedPk : Option Nat
  mainTagId : Option Nat
  createdBy : Text
  createdAt : Text
  updatedAt : Text
  deletedAt : Int

def count (n : Nat) : Json :=
  .num (.ofInt n)

/-- A column that may be `null`. -/
def nullable {a : Type} (f : a -> Json) (value : Option a) : Json :=
  (value.map f).getD .null

def CallgentColumns.record (row : CallgentColumns) : Record Json :=
  [("pk".toList, count row.pk),
    ("id".toList, .str row.id),
    ("tenantPk".toList, .num (.ofInt row.tenantPk)),
    ("name".toList, .str row.name),
    ("avatar".toList, nullable .str row.avatar),
    ("summary".toList, nullable .str row.summary),
    ("instruction".toList, nullable .str row.instruction),
    ("liked".toList, count row.liked),
    ("viewed".toList, count row.viewed),
    ("forked".toList, count row.forked),
    ("favorite".toList, count row.favorite),
    ("official".toList, .bool row.official),
    ("featured".toList, .bool row.featured),
    ("forkedPk".toList, nullable count row.forkedPk),
    ("mainTagId".toList, nullable count row.mainTagId),
    ("createdBy".toList, .str row.createdBy),
    ("createdAt".toList, .str row.createdAt),
    ("updatedAt".toList, .str row.updatedAt),
    ("deletedAt".toList, .num (.ofInt row.deletedAt))]

/-- `defSelect` of `CallgentsService`. -/
def defSelect : Select :=
  [("pk".toList, .excluded), ("tenantPk".toList, .excluded),
    ("forkedPk".toList, .excluded), ("createdBy".toList, .excluded),
    ("deletedAt".toList, .excluded)]

/-- `CallgentsService.findOne`, on the row that has the id; the row is counted
as viewed. -/
def findOne (row : Option CallgentColumns) (select : Option Select) :
    Option (Record Json) :=
  selectHelper (m := Id) select
    (fun select => row.map fun row =>
      pick select { row with viewed := row.viewed + 1 }.record)
    defSelect

/-- The text under a key of a record; `none` is `undefined`. -/
def textAt (record : Record Json) (key : Text) : Option Text :=
  match record.lookup key with
  | some (.str s) => some s
  | _ => none

theorem findOne_of_chosen (row : CallgentColumns) {select : Select}
    {key : Text} (h : select.lookup key = some .chosen) :
    findOne (some row) (some select) =
      some (pick (some (mergeSelects defSelect (some select)))
        { row with viewed := row.viewed + 1 }.record) := by
  unfold findOne
  rw [selectHelper_of_chosen _ h]
  rfl

theorem lookup_findOne_of_excluded {row : CallgentColumns} {select : Select}
    {chosen key : Text} {record : Record Json}
    (hchosen : select.lookup chosen = some .chosen)
    (hexcluded : defSelect.lookup key = some .excluded)
    (hnone : select.lookup key = none)
    (h : findOne (some row) (some select) = some record) :
    record.lookup key = none := by
  have hdistinct : (defSelect.map Prod.fst).Nodup := by decide
  have hown : isInherited key = false := by
    have hall : forall entry, entry ∈ defSelect ->
        isInherited entry.1 = false := by
      decide
    exact hall _ ((lookup_iff_mem hdistinct).mp hexcluded)
  have hlookup := lookup_mergeSelects_of_none hdistinct hown hnone
  rw [findOne_of_chosen _ hchosen] at h
  rw [← Option.some.inj h, lookup_pick_of_not_chosen]
  rw [hlookup, hexcluded]
  decide

end Repo
end CallgentApi
