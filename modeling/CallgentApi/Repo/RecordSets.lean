import CallgentApi.Repo.Select

/-!
# Records of a selection

A query gives one record, a list of them or a page that has such a list.  The
columns that are left out by default stay hidden in each of them.
-/

namespace CallgentApi
namespace Repo

open Js Agents

/-- What a query gives: the page has its list under the key of the results,
beside its other fields. -/
inductive RecordSet (r : Type) where
  | one (record : r)
  | list (records : List r)
  | page (records : List r) (others : List (Text × Json))

namespace RecordSet

variable {r t : Type}

def records : RecordSet r -> List r
  | one record => [record]
  | list records => records
  | page records _ => records

def map (f : r -> t) : RecordSet r -> RecordSet t
  | one record => one (f record)
  | list records => list (records.map f)
  | page records others => page (records.map f) others

theorem records_map (f : r -> t) (set : RecordSet r) :
    (set.map f).records = set.records.map f := by
  cases set with
  | one record => rfl
  | list records => rfl
  | page records others => rfl

end RecordSet

/-- A stored row: its scalar columns, and the value of whatever is selected. -/
structure Row (v : Type) where
  scalars : List Text
  value : Text -> v

/-- The columns that the database gives of a row: those that are chosen, or all
scalar ones. -/
def Row.select {v : Type} (row : Row v) : Option Select -> Record v
  | none => row.scalars.map fun key => (key, row.value key)
  | some select =>
      (select.filter fun entry => entry.2 == .chosen).map fun entry =>
        (entry.1, row.value entry.1)

structure DefaultSelect where
  entries : Select
  nodup : (entries.map Prod.fst).Nodup

namespace Select

variable {v : Type}

/-- `doExclusionSelect`, for a record. -/
def exclude (merged : Select) (record : Record v) : Record v :=
  record.filter fun field => (merged.lookup field.1).isNone

/-- `selectHelper`, for all that a query may give. -/
def selectRecords {m : Type -> Type} [Monad m] (select : Option Select)
    (query : Option Select -> m (Option (RecordSet (Record v))))
    (defaultSelect : Option Select) : m (Option (RecordSet (Record v))) := do
  let merged := match defaultSelect with
    | some defaultSelect => some (mergeSelects defaultSelect select)
    | none => select
  match merged with
  | none => query none
  | some merged =>
      if merged.isEmpty then query none
      else if choosesAny merged then query (some merged)
      else
        let result ← query none
        return result.map (RecordSet.map (exclude merged))

theorem selectRecords_one {m : Type -> Type} [Monad m] [LawfulMonad m]
    (select : Option Select) (query : Option Select -> m (Option (Record v)))
    (defaultSelect : Select) :
    selectRecords select (fun merged => (query merged) >>= fun result =>
      pure (result.map RecordSet.one)) (some defaultSelect) =
      (selectHelper select query defaultSelect >>= fun result =>
        pure (result.map RecordSet.one)) := by
  unfold selectRecords selectHelper
  dsimp only
  split
  · rfl
  · split
    · rfl
    · rw [bind_assoc, bind_assoc]
      apply bind_congr
      intro result
      rw [pure_bind, pure_bind]
      cases result with
      | none => rfl
      | some record => rfl

end Select

section Hiding

variable {v : Type}

/-- The records that a service gives of the rows that are found. -/
def selected (defaultSelect : DefaultSelect) (select : Option Select)
    (found : Option (RecordSet (Row v))) : Option (RecordSet (Record v)) :=
  Select.selectRecords (m := Id) select
    (fun merged => found.map (RecordSet.map fun row => row.select merged))
    (some defaultSelect.entries)

def Mentions (select : Option Select) (key : Text) : Prop :=
  exists entries, select = some entries ∧ (entries.lookup key).isSome

/-- A column that is left out by default is in a record only if the caller
mentions it, and one that the caller chooses is in every record. -/
def HidesUnmentioned (defaultSelect : DefaultSelect) (select : Option Select)
    (found : Option (RecordSet (Row v))) : Prop :=
  forall set, selected defaultSelect select found = some set ->
    forall record, record ∈ set.records ->
      (forall key, defaultSelect.entries.lookup key = some .excluded ->
        (record.lookup key).isSome -> Mentions select key) ∧
      forall entries key, select = some entries ->
        entries.lookup key = some .chosen -> (record.lookup key).isSome

/-- A scalar column of a row is left out by default, not mentioned by the
selection that the caller gives, and named like what every object inherits. -/
def Overlooked (defaultSelect : DefaultSelect) (select : Option Select)
    (rows : List (Row v)) : Prop :=
  exists entries key row, select = some entries ∧
    defaultSelect.entries.lookup key = some .excluded ∧
      entries.lookup key = none ∧ isInherited key = true ∧
        row ∈ rows ∧ key ∈ row.scalars

/-! ## The two modes -/

theorem isSome_lookup_iff {entries : List (Text × v)} {key : Text} :
    (entries.lookup key).isSome <-> exists x, (key, x) ∈ entries := by
  constructor
  · intro h
    rcases Option.isSome_iff_exists.mp h with ⟨x, hx⟩
    rcases List.lookup_eq_some_iff.mp hx with ⟨before, after, heq, _⟩
    rw [heq]
    exact ⟨x, List.mem_append_right before List.mem_cons_self⟩
  · intro h
    rcases h with ⟨x, hx⟩
    rw [List.lookup_isSome_iff]
    exact ⟨(key, x), hx, beq_self_eq_true key⟩

theorem isSome_lookup_chosen {row : Row v} {merged : Select} {key : Text} :
    ((row.select (some merged)).lookup key).isSome <->
      (key, .chosen) ∈ merged := by
  rw [isSome_lookup_iff]
  unfold Row.select
  constructor
  · intro h
    rcases h with ⟨x, hx⟩
    rcases List.mem_map.mp hx with ⟨entry, hentry, heq⟩
    rcases List.mem_filter.mp hentry with ⟨hmem, hchosen⟩
    rcases entry with ⟨k, choice⟩
    have hk : k = key := congrArg Prod.fst heq
    have hc : choice = .chosen := beq_iff_eq.mp hchosen
    rw [hk, hc] at hmem
    exact hmem
  · intro h
    exact ⟨row.value key, List.mem_map.mpr ⟨(key, .chosen),
      List.mem_filter.mpr ⟨h, rfl⟩, rfl⟩⟩

theorem isSome_lookup_exclude {row : Row v} {merged : Select} {key : Text} :
    ((Select.exclude merged (row.select none)).lookup key).isSome <->
      key ∈ row.scalars ∧ merged.lookup key = none := by
  rw [isSome_lookup_iff]
  unfold Select.exclude Row.select
  constructor
  · intro h
    rcases h with ⟨x, hx⟩
    rcases List.mem_filter.mp hx with ⟨hmem, hnone⟩
    rcases List.mem_map.mp hmem with ⟨k, hk, heq⟩
    have hkey : k = key := congrArg Prod.fst heq
    rw [hkey] at hk
    exact ⟨hk, Option.isNone_iff_eq_none.mp hnone⟩
  · intro h
    rcases h with ⟨hscalar, hnone⟩
    refine ⟨row.value key, List.mem_filter.mpr ⟨?_, ?_⟩⟩
    · exact List.mem_map.mpr ⟨key, hscalar, rfl⟩
    · rw [hnone]
      rfl

theorem exclude_nil (record : Record v) : Select.exclude [] record = record :=
  List.filter_eq_self.mpr fun _ _ => rfl

/-- What is given of a row: the columns that are chosen, if any is, or all
scalar ones but those that are named. -/
def shown (merged : Select) (row : Row v) : Record v :=
  if Select.choosesAny merged then row.select (some merged)
  else Select.exclude merged (row.select none)

theorem RecordSet.map_congr {r t : Type} {f g : r -> t}
    (h : forall x, f x = g x) (set : RecordSet r) : set.map f = set.map g := by
  rw [show f = g from funext h]

theorem RecordSet.map_map {r t u : Type} (f : r -> t) (g : t -> u)
    (set : RecordSet r) : (set.map f).map g = set.map fun x => g (f x) := by
  cases set with
  | one record => rfl
  | list records => exact congrArg RecordSet.list List.map_map
  | page records others =>
      exact congrArg (RecordSet.page · others) List.map_map

theorem selected_eq (defaultSelect : DefaultSelect) (select : Option Select)
    (found : Option (RecordSet (Row v))) :
    selected defaultSelect select found =
      found.map (RecordSet.map
        (shown (Select.mergeSelects defaultSelect.entries select))) := by
  unfold selected Select.selectRecords
  dsimp only
  by_cases hnil :
      (Select.mergeSelects defaultSelect.entries select).isEmpty = true
  · rw [if_pos hnil, List.isEmpty_iff.mp hnil]
    apply congrArg (Option.map · found)
    funext set
    exact RecordSet.map_congr (fun row => (exclude_nil _).symm) set
  · rw [if_neg hnil]
    by_cases hany : Select.choosesAny
        (Select.mergeSelects defaultSelect.entries select) = true
    · rw [if_pos hany]
      apply congrArg (Option.map · found)
      funext set
      exact RecordSet.map_congr (fun row => (if_pos hany).symm) set
    · rw [if_neg hany]
      show Option.map _ (Option.map _ found) = _
      rw [Option.map_map]
      apply congrArg (Option.map · found)
      funext set
      rw [Function.comp_apply, RecordSet.map_map]
      exact RecordSet.map_congr (fun row => (if_neg hany).symm) set

/-! ## What the merged selection says of a column -/

theorem mem_mergeEntry {select : Select} {entry other : Text × Choice}
    (h : other ∈ Select.mergeEntry select entry) :
    other ∈ select ∨ other = entry := by
  unfold Select.mergeEntry at h
  split at h
  · split at h
    · exact Or.inl h
    · rcases List.mem_append.mp h with hmem | hmem
      · exact Or.inl hmem
      · exact Or.inr (List.mem_singleton.mp hmem)
  · exact Or.inl (List.mem_filter.mp h).left
  · exact Or.inl h

theorem mem_mergeSelects {defaultSelect : Select} {select : Option Select}
    {entry : Text × Choice}
    (h : entry ∈ Select.mergeSelects defaultSelect select) :
    (exists entries, select = some entries ∧ entry ∈ entries) ∨
      entry ∈ defaultSelect := by
  cases select with
  | none => exact Or.inr h
  | some entries =>
      rw [Select.mergeSelects_some] at h
      have hall : entry ∈ entries ∨ entry ∈ defaultSelect := by
        induction defaultSelect generalizing entries with
        | nil => exact Or.inl h
        | cons first rest ih =>
            rcases ih _ h with hmem | hmem
            · rcases mem_mergeEntry hmem with hmem | heq
              · exact Or.inl hmem
              · exact Or.inr (heq ▸ List.mem_cons_self)
            · exact Or.inr (List.mem_cons_of_mem first hmem)
      rcases hall with hmem | hmem
      · exact Or.inl ⟨entries, rfl, hmem⟩
      · exact Or.inr hmem

theorem lookup_mergeSelects_of_inherited {defaultSelect select : Select}
    {key : Text} (hinherited : isInherited key = true)
    (h : select.lookup key = none) :
    (Select.mergeSelects defaultSelect (some select)).lookup key = none := by
  rw [Select.mergeSelects_some]
  induction defaultSelect generalizing select with
  | nil => exact h
  | cons entry rest ih =>
      rw [List.foldl_cons]
      apply ih
      by_cases hkey : key = entry.1
      · unfold Select.mergeEntry
        rw [← hkey, h, if_pos hinherited]
        exact h
      · rw [Select.lookup_mergeEntry_of_ne hkey]
        exact h

theorem DefaultSelect.not_chosen {defaultSelect : DefaultSelect} {key : Text}
    (h : defaultSelect.entries.lookup key = some .excluded) :
    (key, Choice.chosen) ∉ defaultSelect.entries := by
  intro hmem
  rw [(lookup_iff_mem defaultSelect.nodup).mpr hmem] at h
  cases h

/-! ## When unmentioned columns are hidden -/

theorem mentions_of_chosen {defaultSelect : DefaultSelect}
    {select : Option Select} {key : Text}
    (hexcluded : defaultSelect.entries.lookup key = some .excluded)
    (h : (key, Choice.chosen) ∈
      Select.mergeSelects defaultSelect.entries select) :
    Mentions select key := by
  rcases mem_mergeSelects h with ⟨entries, hselect, hmem⟩ | hmem
  · exact ⟨entries, hselect, isSome_lookup_iff.mpr ⟨.chosen, hmem⟩⟩
  · exact absurd hmem (DefaultSelect.not_chosen hexcluded)

theorem mentions_or_inherited {defaultSelect : DefaultSelect}
    {select : Option Select} {key : Text}
    (hexcluded : defaultSelect.entries.lookup key = some .excluded)
    (h : (Select.mergeSelects defaultSelect.entries select).lookup key = none) :
    Mentions select key ∨
      exists entries, select = some entries ∧ entries.lookup key = none ∧
        isInherited key = true := by
  cases select with
  | none =>
      rw [show Select.mergeSelects defaultSelect.entries none =
        defaultSelect.entries from rfl, hexcluded] at h
      cases h
  | some entries =>
      cases hlookup : entries.lookup key with
      | some choice =>
          have hsome : (entries.lookup key).isSome := by
            rw [hlookup]
            rfl
          exact Or.inl ⟨entries, rfl, hsome⟩
      | none =>
          cases hinherited : isInherited key with
          | true => exact Or.inr ⟨entries, rfl, hlookup, rfl⟩
          | false =>
              rw [Select.lookup_mergeSelects_of_none defaultSelect.nodup
                hinherited hlookup, hexcluded] at h
              cases h

theorem chosen_of_select {defaultSelect : DefaultSelect}
    {select : Option Select} {entries : Select} {key : Text}
    (hselect : select = some entries)
    (h : entries.lookup key = some .chosen) :
    (Select.mergeSelects defaultSelect.entries select).lookup key =
      some .chosen := by
  rw [hselect]
  exact Select.lookup_mergeSelects_of_chosen h

theorem hidesUnmentioned_iff_rows {defaultSelect : DefaultSelect}
    {select : Option Select} {found : Option (RecordSet (Row v))} :
    HidesUnmentioned defaultSelect select found <->
      forall set, found = some set -> forall row, row ∈ set.records ->
        (forall key, defaultSelect.entries.lookup key = some .excluded ->
          ((shown (Select.mergeSelects defaultSelect.entries select)
            row).lookup key).isSome -> Mentions select key) ∧
        forall entries key, select = some entries ->
          entries.lookup key = some .chosen ->
            ((shown (Select.mergeSelects defaultSelect.entries select)
              row).lookup key).isSome := by
  unfold HidesUnmentioned
  rw [selected_eq]
  constructor
  · intro h set hset row hrow
    apply h (set.map (shown (Select.mergeSelects defaultSelect.entries select)))
    · rw [hset]
      rfl
    · rw [RecordSet.records_map]
      exact List.mem_map_of_mem hrow
  · intro h set hset record hrecord
    rcases Option.map_eq_some_iff.mp hset with ⟨rows, hrows, heq⟩
    rw [← heq, RecordSet.records_map] at hrecord
    rcases List.mem_map.mp hrecord with ⟨row, hrow, hshown⟩
    rw [← hshown]
    exact h rows hrows row hrow

theorem overlooked_of_hides {defaultSelect : DefaultSelect}
    {select : Option Select} {row : Row v} {key : Text} {entries : Select}
    (hselect : select = some entries) (hnone : entries.lookup key = none)
    (hinherited : isInherited key = true) (hscalar : key ∈ row.scalars) :
    ((Select.exclude (Select.mergeSelects defaultSelect.entries select)
      (row.select none)).lookup key).isSome ∧ ¬Mentions select key := by
  constructor
  · apply isSome_lookup_exclude.mpr
    refine ⟨hscalar, ?_⟩
    rw [hselect]
    exact lookup_mergeSelects_of_inherited hinherited hnone
  · intro h
    rcases h with ⟨others, hothers, hsome⟩
    rw [← Option.some.inj (hselect.symm.trans hothers), hnone] at hsome
    cases hsome

/-- The columns that are left out by default stay hidden unless the caller
mentions them, and what the caller chooses is there, exactly when a column is
chosen or no column of a row is overlooked. -/
theorem hidesUnmentioned_iff (defaultSelect : DefaultSelect)
    (select : Option Select) (found : Option (RecordSet (Row v))) :
    HidesUnmentioned defaultSelect select found <->
      Select.choosesAny
          (Select.mergeSelects defaultSelect.entries select) = true ∨
        forall set, found = some set ->
          ¬Overlooked defaultSelect select set.records := by
  rw [hidesUnmentioned_iff_rows]
  unfold shown
  by_cases hany : Select.choosesAny
      (Select.mergeSelects defaultSelect.entries select) = true
  · apply iff_of_true
    · intro set _ row _
      rw [if_pos hany]
      constructor
      · intro key hexcluded hsome
        exact mentions_of_chosen hexcluded (isSome_lookup_chosen.mp hsome)
      · intro entries key hselect hchosen
        rcases List.lookup_eq_some_iff.mp (chosen_of_select hselect hchosen)
          with ⟨before, after, hmerged, _⟩
        apply isSome_lookup_chosen.mpr
        rw [hmerged]
        exact List.mem_append_right before List.mem_cons_self
    · exact Or.inl hany
  · rw [or_iff_right hany]
    apply forall₂_congr
    intro set _
    constructor
    · intro h hover
      rcases hover with
        ⟨entries, key, row, hselect, hexcluded, hnone, hinherited, hrow, hscalar⟩
      rcases @overlooked_of_hides v defaultSelect select row key entries
        hselect hnone hinherited hscalar with ⟨hsome, hnot⟩
      have hmentions := (h row hrow).left key hexcluded
      rw [if_neg hany] at hmentions
      exact hnot (hmentions hsome)
    · intro h row hrow
      rw [if_neg hany]
      constructor
      · intro key hexcluded hsome
        rcases isSome_lookup_exclude.mp hsome with ⟨hscalar, hmerged⟩
        rcases mentions_or_inherited hexcluded hmerged with
          hmentions | ⟨entries, hselect, hnone, hinherited⟩
        · exact hmentions
        · exact absurd ⟨entries, key, row, hselect, hexcluded, hnone,
            hinherited, hrow, hscalar⟩ h
      · intro entries key hselect hchosen
        have hlookup := @chosen_of_select defaultSelect select entries key
          hselect hchosen
        exact absurd (Select.choosesAny_of_lookup hlookup) hany

/-- A column that is left out by default and called `toString`. -/
def toStringHidden : DefaultSelect where
  entries := [("toString".toList, .excluded), ("pk".toList, .excluded)]
  nodup := by decide

def toStringRow : Row Json where
  scalars := ["pk".toList, "id".toList, "toString".toList]
  value := fun _ => .null

theorem not_hidesUnmentioned_toString :
    ¬HidesUnmentioned toStringHidden (some [("id".toList, .excluded)])
      (some (.one toStringRow)) := by
  intro h
  have hrecord := (h _ rfl _ List.mem_cons_self).left "toString".toList rfl
    (by decide)
  rcases hrecord with ⟨entries, hentries, hsome⟩
  cases hentries
  cases hsome

end Hiding

end Repo
end CallgentApi
