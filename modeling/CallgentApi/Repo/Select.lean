import CallgentApi.Agents.Answer

/-!
# Selections of columns

A service reads a row with a selection: the columns that are wanted, or, when
no column is, those to be left out.  The selection of a caller is completed
with the one the service has by default.
-/

namespace CallgentApi
namespace Repo

open Js Agents

/-- What a selection says of a column: `true` or a selection of its own,
`false`, or `null`. -/
inductive Choice where
  | chosen
  | excluded
  | cleared
deriving DecidableEq

/-- A selection, with its columns in the order they are named. -/
abbrev Select := List (Text × Choice)

abbrev Record (v : Type) := List (Text × v)

namespace Select

variable {v : Type}

/-- A default of one column: the selection of the caller goes first, and a
column that it clears is not selected at all.  `key in select` holds of the
names that every object inherits, too. -/
def mergeEntry (select : Select) (entry : Text × Choice) : Select :=
  match select.lookup entry.1 with
  | none => if isInherited entry.1 then select else select ++ [entry]
  | some .cleared => select.filter fun named => named.1 != entry.1
  | some _ => select

def mergeSelects (defaultSelect : Select) (select : Option Select) : Select :=
  match select with
  | none => defaultSelect
  | some select => defaultSelect.foldl mergeEntry select

def choosesAny (select : Select) : Bool :=
  select.any fun entry => entry.2 == .chosen

/-- `selectHelper`, for a query of one record that may not be there.  The
query gets no selection when no column is chosen. -/
def selectHelper {m : Type -> Type} [Monad m] (select : Option Select)
    (query : Option Select -> m (Option (Record v)))
    (defaultSelect : Select) : m (Option (Record v)) := do
  let merged := mergeSelects defaultSelect select
  if merged.isEmpty then query none
  else if choosesAny merged then query (some merged)
  else
    let result ← query none
    return result.map fun record =>
      record.filter fun field => (merged.lookup field.1).isNone

/-- The columns that the database gives of a row: those that are chosen, or
all of them. -/
def pick (select : Option Select) (columns : Record v) : Record v :=
  match select with
  | none => columns
  | some select =>
      columns.filter fun column => select.lookup column.1 == some .chosen

/-! ## What is selected -/

@[simp] theorem mergeSelects_some (defaultSelect select : Select) :
    mergeSelects defaultSelect (some select) =
      defaultSelect.foldl mergeEntry select := rfl

theorem lookup_filter_fst {select : List (Text × v)} {key : Text}
    {p : Text -> Bool} (h : p key = true) :
    (select.filter fun named => p named.1).lookup key = select.lookup key := by
  induction select with
  | nil => rfl
  | cons entry rest ih =>
      rcases entry with ⟨k, value⟩
      by_cases hkey : key = k
      · rw [hkey] at h ih ⊢
        rw [List.filter_cons_of_pos (by exact h), List.lookup_cons_self,
          List.lookup_cons_self]
      · have hne : (key == k) = false := beq_false_of_ne hkey
        rw [List.lookup_cons, hne, List.filter_cons]
        split
        · rw [List.lookup_cons, hne]
          exact ih
        · exact ih

theorem lookup_filter_fst_of_not {select : List (Text × v)} {key : Text}
    {p : Text -> Bool} (h : p key = false) :
    (select.filter fun named => p named.1).lookup key = none := by
  apply List.lookup_eq_none_iff.mpr
  intro entry hentry
  rcases List.mem_filter.mp hentry with ⟨_, hp⟩
  apply bne_iff_ne.mpr
  intro heq
  rw [← heq, h] at hp
  cases hp

theorem lookup_mergeEntry_of_ne {select : Select} {entry : Text × Choice}
    {key : Text} (h : key ≠ entry.1) :
    (mergeEntry select entry).lookup key = select.lookup key := by
  unfold mergeEntry
  split
  · split
    · rfl
    · rw [List.lookup_append, List.lookup_cons, beq_false_of_ne h,
        List.lookup_nil, Option.or_none]
  · exact lookup_filter_fst (p := fun k => k != entry.1) (bne_iff_ne.mpr h)
  · rfl

theorem lookup_foldl_mergeEntry_of_not_mem {defaultSelect select : Select}
    {key : Text} (h : key ∉ defaultSelect.map Prod.fst) :
    (defaultSelect.foldl mergeEntry select).lookup key =
      select.lookup key := by
  induction defaultSelect generalizing select with
  | nil => rfl
  | cons entry rest ih =>
      rw [List.map_cons, List.mem_cons, not_or] at h
      rw [List.foldl_cons, ih h.right, lookup_mergeEntry_of_ne h.left]

theorem lookup_mergeSelects_of_none {defaultSelect select : Select}
    {key : Text} (hdistinct : (defaultSelect.map Prod.fst).Nodup)
    (hown : isInherited key = false) (h : select.lookup key = none) :
    (mergeSelects defaultSelect (some select)).lookup key =
      defaultSelect.lookup key := by
  rw [mergeSelects_some]
  induction defaultSelect generalizing select with
  | nil => exact h
  | cons entry rest ih =>
      rcases entry with ⟨k, choice⟩
      rw [List.map_cons, List.nodup_cons] at hdistinct
      rw [List.foldl_cons]
      by_cases hkey : key = k
      · rw [← hkey] at hdistinct ⊢
        rw [lookup_foldl_mergeEntry_of_not_mem hdistinct.left,
          List.lookup_cons_self]
        unfold mergeEntry
        rw [h, hown]
        dsimp only
        rw [if_neg Bool.false_ne_true, List.lookup_append, h,
          List.lookup_cons_self, Option.none_or]
      · rw [List.lookup_cons, beq_false_of_ne hkey]
        apply ih hdistinct.right
        rw [lookup_mergeEntry_of_ne hkey]
        exact h

theorem lookup_mergeSelects_of_chosen {defaultSelect select : Select}
    {key : Text} (h : select.lookup key = some .chosen) :
    (mergeSelects defaultSelect (some select)).lookup key = some .chosen := by
  rw [mergeSelects_some]
  induction defaultSelect generalizing select with
  | nil => exact h
  | cons entry rest ih =>
      rw [List.foldl_cons]
      apply ih
      by_cases hkey : key = entry.1
      · unfold mergeEntry
        rw [← hkey, h]
        exact h
      · rw [lookup_mergeEntry_of_ne hkey]
        exact h

theorem choosesAny_of_lookup {select : Select} {key : Text}
    (h : select.lookup key = some .chosen) : choosesAny select = true := by
  induction select with
  | nil => cases h
  | cons entry rest ih =>
      rcases entry with ⟨k, choice⟩
      unfold choosesAny at ih ⊢
      rw [List.lookup_cons] at h
      rw [List.any_cons, Bool.or_eq_true]
      split at h
      · rw [Option.some.inj h]
        exact Or.inl rfl
      · exact Or.inr (ih h)

/-- With a column that is chosen, the query gets the whole selection and its
result stays as it is. -/
theorem selectHelper_of_chosen {m : Type -> Type} [Monad m]
    {select defaultSelect : Select} {key : Text}
    (query : Option Select -> m (Option (Record v)))
    (h : select.lookup key = some .chosen) :
    selectHelper (some select) query defaultSelect =
      query (some (mergeSelects defaultSelect (some select))) := by
  have hchosen : (mergeSelects defaultSelect (some select)).lookup key =
      some .chosen := lookup_mergeSelects_of_chosen h
  have hany := choosesAny_of_lookup hchosen
  have hne : (mergeSelects defaultSelect (some select)).isEmpty = false := by
    cases hmerged : mergeSelects defaultSelect (some select) with
    | nil =>
        rw [hmerged] at hchosen
        cases hchosen
    | cons entry rest => rfl
  unfold selectHelper
  dsimp only
  rw [hne, if_neg Bool.false_ne_true, if_pos hany]

theorem lookup_pick_of_chosen {select : Select} {key : Text}
    (h : select.lookup key = some .chosen) (columns : Record v) :
    (pick (some select) columns).lookup key = columns.lookup key :=
  lookup_filter_fst (p := fun k => select.lookup k == some .chosen) (by
    rw [h]
    rfl)

theorem lookup_pick_of_not_chosen {select : Select} {key : Text}
    (h : select.lookup key ≠ some .chosen) (columns : Record v) :
    (pick (some select) columns).lookup key = none :=
  lookup_filter_fst_of_not (p := fun k => select.lookup k == some .chosen)
    (beq_false_of_ne h)

end Select
end Repo
end CallgentApi
