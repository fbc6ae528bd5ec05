import CallgentApi.Hub.Copies
import CallgentApi.Repo.Callgents

/-!
# Counting the forks of a callgent

A duplicate counts as a fork of its source in both directions, and the guard
of the hub reads a column that is not among those that are selected.
-/

namespace CallgentApi
namespace Hub

open Js Event Realms Cached Config Repo Repo.Select Transition

/-! ## The selection of the source -/

/-- The selection of `_duplicateCallgent`; the entries have one of their
own. -/
def sourceSelect : Select :=
  [("pk".toList, .chosen), ("id".toList, .chosen), ("name".toList, .chosen),
    ("summary".toList, .chosen), ("instruction".toList, .chosen),
    ("entries".toList, .chosen)]

structure Stored (row : CallgentRow) (columns : CallgentColumns) : Prop where
  pk : columns.pk = row.pk
  id : columns.id = row.key
  name : columns.name = row.value.name
  summary : columns.summary = row.value.summary
  instruction : columns.instruction = row.value.instruction
  forkedPk : columns.forkedPk = row.value.forkedPk

theorem selectCallgent_reads {c : Tables} {tenantPk : Int} {id : Text}
    {selected : Tables × SelectedCallgent}
    (h : selectCallgent c tenantPk id = .ok selected) :
    exists row, c.callgents.findUnique id = some row ∧
      forall columns, Stored row columns -> exists record,
        findOne (some columns) (some sourceSelect) = some record ∧
          record.lookup "pk".toList = some (count selected.2.pk) ∧
          record.lookup "id".toList = some (.str selected.2.id) ∧
          record.lookup "name".toList = some (.str selected.2.name) ∧
          record.lookup "summary".toList =
            some (nullable .str selected.2.summary) ∧
          record.lookup "instruction".toList =
            some (nullable .str selected.2.instruction) ∧
          record.lookup "forkedPk".toList = none ∧
          selected.2.forkedPk = none := by
  rcases Fallible.exists_of_bind_ok h with ⟨row, hrow, h⟩
  rcases Fallible.exists_of_bind_ok h with ⟨callgents, _, h⟩
  cases h
  rcases Option.filter_eq_some_iff.mp (eq_of_written hrow) with ⟨hfound, _⟩
  refine ⟨row, hfound, ?_⟩
  intro columns hstored
  have hchosen : sourceSelect.lookup "pk".toList = some .chosen := rfl
  have hfind := findOne_of_chosen columns hchosen
  refine ⟨_, hfind, ?_, ?_, ?_, ?_, ?_, ?_, rfl⟩
  · rw [lookup_pick_of_chosen (lookup_mergeSelects_of_chosen hchosen),
      ← hstored.pk]
    rfl
  · rw [lookup_pick_of_chosen (lookup_mergeSelects_of_chosen rfl),
      ← Table.key_of_findUnique hfound, ← hstored.id]
    rfl
  · rw [lookup_pick_of_chosen (lookup_mergeSelects_of_chosen rfl),
      ← hstored.name]
    rfl
  · rw [lookup_pick_of_chosen (lookup_mergeSelects_of_chosen rfl),
      ← hstored.summary]
    rfl
  · rw [lookup_pick_of_chosen (lookup_mergeSelects_of_chosen rfl),
      ← hstored.instruction]
    rfl
  · exact lookup_findOne_of_excluded hchosen rfl rfl hfind

/-! ## Counters -/

def forkedOf (c : Tables) (id : Text) : Option Nat :=
  (c.callgents.findUnique id).map fun row => row.value.forked

section Duplicates

variable {platform : Platform} {c c' : Tables}

theorem callgents_onRealms
    {service : Config.Tables -> Except Thrown Config.Tables}
    (h : onRealms c service = .ok c') : c'.callgents = c.callgents := by
  rcases Fallible.exists_of_bind_ok h with ⟨next, _, h⟩
  cases h
  rfl

theorem callgents_createEntry {id : Text} {dto : CreateEntryDto}
    (h : createEntry platform c id dto = .ok c') :
    c'.callgents = c.callgents := by
  rcases createEntry_cases h with ⟨_, entries, _, heq, _⟩
  rw [heq]

theorem callgents_createMany {adaptorKey callgentId : Text}
    {named : List (Text × StoredEndpoint)}
    (h : createMany platform c adaptorKey callgentId named = .ok c') :
    c'.callgents = c.callgents := by
  rcases createMany_cases h with ⟨_, endpoints, _, heq, _⟩
  rw [heq]

theorem callgents_duplicateEntry {realmMap : RealmMap} {ids : GeneratedIds}
    {numbered : (StoredEntryRow × List StoredEndpointRow) × Nat}
    (h : duplicateEntry platform realmMap ids c numbered = .ok c') :
    c'.callgents = c.callgents := by
  rcases Fallible.exists_of_bind_ok h with ⟨securities, _, h⟩
  rcases Fallible.exists_of_bind_ok h with ⟨mid, hentry, h⟩
  rcases Fallible.exists_of_bind_ok h with ⟨eps, _, h⟩
  rw [callgents_createMany h, callgents_createEntry hentry]

theorem callgents_duplicateRealm {callgentId : Text}
    {s s' : Tables × RealmMap} {row : RealmRow}
    (h : duplicateRealm platform callgentId s row = .ok s') :
    s'.1.callgents = s.1.callgents := by
  rcases Fallible.exists_of_bind_ok h with ⟨next, hnext, h⟩
  cases h
  exact callgents_onRealms hnext

theorem duplicateCallgent_counts {fromId : Text} {dto : DuplicateDto}
    {fromTenant toTenant : Int} {ids : GeneratedIds}
    (h : duplicateCallgent platform c fromId dto fromTenant toTenant ids =
      .ok c') :
    exists row, c.callgents.findUnique fromId = some row ∧
      forkedOf c ids.callgent = none ∧
      forall id, forkedOf c' id =
        if id = ids.callgent then some 0
        else if id = fromId then some (row.value.forked + 1)
        else forkedOf c id := by
  rcases Fallible.exists_of_bind_ok h with ⟨⟨c₁, source⟩, hselect, h⟩
  dsimp only at h
  split at h
  · cases h
  · rcases Fallible.exists_of_bind_ok hselect with ⟨row, hrow, hselect⟩
    rcases Fallible.exists_of_bind_ok hselect with
      ⟨callgents₁, hviewed, hselect⟩
    cases hselect
    rcases Option.filter_eq_some_iff.mp (eq_of_written hrow) with ⟨hfound, _⟩
    rcases Fallible.exists_of_bind_ok h with ⟨c₂, hcount, hrest⟩
    rcases Fallible.exists_of_bind_ok hcount with ⟨callgents₂, hcounted, hc₂⟩
    rcases Fallible.exists_of_bind_ok hrest with ⟨c₃, hcreate, hcopy⟩
    rcases Fallible.exists_of_bind_ok hcreate with ⟨callgents₃, hinsert, hc₃⟩
    rcases Fallible.exists_of_bind_ok hcopy with
      ⟨⟨mid, realmMap⟩, hrealms, hentries⟩
    cases hc₂
    cases hc₃
    have hmid : mid.callgents = callgents₃ :=
      Fallible.foldlM_invariant (fun s => s.1.callgents = callgents₃)
        (fun _ _ _ _ hstate hnext =>
          (callgents_duplicateRealm hnext).trans hstate) rfl hrealms
    have hlast : c'.callgents = callgents₃ :=
      Fallible.foldlM_invariant (fun s => s.callgents = callgents₃)
        (fun _ _ _ _ hstate hnext =>
          (callgents_duplicateEntry hnext).trans hstate) hmid hentries
    have hviewed' := Table.eq_edit_of_update (eq_of_written hviewed)
    have hcounted' := Table.eq_edit_of_update (eq_of_written hcounted)
    unfold insertCallgent at hinsert
    split at hinsert
    · cases hinsert
    · rcases Table.exists_insert_of_create (eq_of_written hinsert) with
        ⟨hnew, hcallgents₃⟩
      have hself₁ : callgents₁.findUnique fromId = some { row with
          value := { row.value with viewed := row.value.viewed + 1 } } := by
        rw [hviewed']
        exact Table.findUnique_edit_self hfound _
      have hself₂ : callgents₂.findUnique fromId = some { row with
          value := { row.value with
            viewed := row.value.viewed + 1
            forked := row.value.forked + 1 } } := by
        rw [hcounted']
        exact Table.findUnique_edit_self hself₁ _
      have hother : forall id, id ≠ fromId ->
          callgents₂.findUnique id = c.callgents.findUnique id := by
        intro id hne
        rw [hcounted', Table.findUnique_edit_of_ne hself₁ hne, hviewed',
          Table.findUnique_edit_of_ne hfound hne]
      have hnotFrom : ids.callgent ≠ fromId := by
        intro heq
        rw [heq, hself₂] at hnew
        cases hnew
      refine ⟨row, hfound, ?_, ?_⟩
      · unfold forkedOf
        rw [← hother _ hnotFrom, hnew]
        rfl
      · intro id
        unfold forkedOf
        rw [hlast, hcallgents₃]
        by_cases hid : id = ids.callgent
        · rw [if_pos hid, hid, Table.findUnique_insert_self]
          rfl
        · rw [if_neg hid, Table.findUnique_insert_of_ne _ _ hid]
          by_cases hfrom : id = fromId
          · rw [if_pos hfrom, hfrom, hself₂]
            rfl
          · rw [if_neg hfrom, hother id hfrom]

end Duplicates

/-! ## Histories of forks and commits -/

inductive HubCall where
  | forkFromHub (tenantPk : Int) (dupId : Text) (dto : DuplicateDto)
      (ids : GeneratedIds)
  | commitToHub (tenantPk : Int) (dupId : Text) (dto : DuplicateDto)
      (ids : GeneratedIds)

def HubCall.op : HubCall -> Op
  | .forkFromHub tenantPk dupId dto ids =>
      .forkFromHub tenantPk dupId dto ids
  | .commitToHub tenantPk dupId dto ids =>
      .commitToHub tenantPk dupId dto ids

def forkedPkOf (c : Tables) (id : Text) : Option Nat :=
  (c.callgents.findUnique id).bind fun row => row.value.forkedPk

/-- What the calls that succeed have done so far: the sources of the forks,
and for each commit where its source comes from. -/
structure HubRun where
  start : Tables
  tables : Tables
  forks : List Text
  committed : List (Option Nat)

namespace HubRun

def of (c : Tables) : HubRun := ⟨c, c, [], []⟩

def add (s : HubRun) (call : HubCall) (tables : Tables) : HubRun :=
  match call with
  | .forkFromHub _ dupId _ _ =>
      { s with tables := tables, forks := s.forks ++ [dupId] }
  | .commitToHub _ dupId _ _ =>
      { s with
        tables := tables
        committed := s.committed ++ [forkedPkOf s.tables dupId] }

end HubRun

/-- A call that succeeds; one that throws is rolled back and is no step. -/
def hubStep (platform : Platform) (s : HubRun) (call : HubCall) :
    Option HubRun :=
  match perform platform s.tables call.op with
  | .ok c => some (s.add call c)
  | .error _ => none

/-- What has been committed is original, and each callgent counts its
forks. -/
structure Counted (s : HubRun) : Prop where
  originals : forall forkedPk, forkedPk ∈ s.committed -> forkedPk = none
  counters : forall id n, forkedOf s.tables id = some n ->
    n = (forkedOf s.start id).getD 0 + s.forks.count id

structure Remaining (s : HubRun) : Prop where
  start : forall id, forkedOf s.tables id = none -> forkedOf s.start id = none
  forks : forall id, forkedOf s.tables id = none -> id ∉ s.forks

def HubCall.IsFork : HubCall -> Prop
  | .forkFromHub _ _ _ _ => True
  | .commitToHub _ _ _ _ => False

section Histories

variable {platform : Platform} {s s' : HubRun} {call : HubCall}

theorem hubStep_cases (h : hubStep platform s call = some s') :
    exists c, perform platform s.tables call.op = .ok c ∧
      s' = s.add call c := by
  unfold hubStep at h
  cases hperform : perform platform s.tables call.op with
  | ok c =>
      rw [hperform] at h
      exact ⟨c, rfl, (Option.some.inj h).symm⟩
  | error e =>
      rw [hperform] at h
      cases h

theorem perform_counts {c : Tables}
    (h : perform platform s.tables call.op = .ok c) :
    exists dupId newId row, s.tables.callgents.findUnique dupId = some row ∧
      forkedOf s.tables newId = none ∧
      (forall id, forkedOf c id =
        if id = newId then some 0
        else if id = dupId then some (row.value.forked + 1)
        else forkedOf s.tables id) ∧
      (s.add call c).forks = s.forks ++
        match call with
        | .forkFromHub _ _ _ _ => [dupId]
        | .commitToHub _ _ _ _ => [] := by
  cases call with
  | forkFromHub tenantPk dupId dto ids =>
      rcases duplicateCallgent_counts h with ⟨row, hrow, hnew, hcounts⟩
      exact ⟨dupId, ids.callgent, row, hrow, hnew, hcounts, rfl⟩
  | commitToHub tenantPk dupId dto ids =>
      rcases duplicateCallgent_counts h with ⟨row, hrow, hnew, hcounts⟩
      exact ⟨dupId, ids.callgent, row, hrow, hnew, hcounts,
        (List.append_nil _).symm⟩

theorem tables_add (s : HubRun) (call : HubCall) (c : Tables) :
    (s.add call c).tables = c := by
  cases call with
  | forkFromHub tenantPk dupId dto ids => rfl
  | commitToHub tenantPk dupId dto ids => rfl

theorem start_add (s : HubRun) (call : HubCall) (c : Tables) :
    (s.add call c).start = s.start := by
  cases call with
  | forkFromHub tenantPk dupId dto ids => rfl
  | commitToHub tenantPk dupId dto ids => rfl

theorem kept_hubStep (hkept : Remaining s) (h : hubStep platform s call = some s') :
    Remaining s' := by
  rcases hubStep_cases h with ⟨c, hperform, heq⟩
  rcases perform_counts hperform with
    ⟨dupId, newId, row, hrow, hnew, hcounts, hforks⟩
  have hgone : forall id, forkedOf c id = none ->
      id ≠ dupId ∧ forkedOf s.tables id = none := by
    intro id hnone
    rw [hcounts id] at hnone
    split at hnone
    · cases hnone
    · split at hnone
      · cases hnone
      · rename_i hdup
        exact ⟨hdup, hnone⟩
  rw [heq]
  constructor
  · intro id hnone
    rw [tables_add] at hnone
    rw [start_add]
    exact hkept.start id (hgone id hnone).right
  · intro id hnone
    rw [tables_add] at hnone
    rcases hgone id hnone with ⟨hne, hold⟩
    rw [hforks, List.mem_append, not_or]
    refine ⟨hkept.forks id hold, ?_⟩
    cases call with
    | forkFromHub tenantPk dupId' dto ids =>
        exact fun hmem => hne (List.mem_singleton.mp hmem)
    | commitToHub tenantPk dupId' dto ids => exact List.not_mem_nil

theorem counted_fork {tenantPk : Int} {dupId : Text} {dto : DuplicateDto}
    {ids : GeneratedIds} {c : Tables} (hkept : Remaining s) (h : Counted s)
    (hfork : forkFromHub platform s.tables tenantPk dupId dto ids = .ok c) :
    Counted (s.add (.forkFromHub tenantPk dupId dto ids) c) := by
  rcases duplicateCallgent_counts hfork with ⟨row, hrow, hnew, hcounts⟩
  have hold : forkedOf s.tables dupId = some row.value.forked := by
    unfold forkedOf
    rw [hrow]
    rfl
  constructor
  · exact h.originals
  · intro id n hn
    show n = (forkedOf s.start id).getD 0 + (s.forks ++ [dupId]).count id
    rw [tables_add, hcounts id] at hn
    rw [List.count_append]
    by_cases hid : id = ids.callgent
    · rw [if_pos hid] at hn
      rw [← hid] at hnew
      have hne : dupId ≠ id := by
        intro heq
        rw [heq, hnew] at hold
        cases hold
      rw [hkept.start id hnew,
        List.count_eq_zero_of_not_mem (hkept.forks id hnew),
        List.count_eq_zero_of_not_mem
          fun hmem => hne (List.mem_singleton.mp hmem).symm]
      exact (Option.some.inj hn).symm
    · rw [if_neg hid] at hn
      by_cases hdup : id = dupId
      · rw [if_pos hdup] at hn
        have hcount := h.counters dupId _ hold
        rw [hdup, List.count_singleton_self, ← Option.some.inj hn, hcount]
        omega
      · rw [if_neg hdup] at hn
        rw [List.count_eq_zero_of_not_mem
          fun hmem => hdup (List.mem_singleton.mp hmem)]
        exact h.counters id n hn

theorem not_counted_commit {tenantPk : Int} {dupId : Text}
    {dto : DuplicateDto} {ids : GeneratedIds} {c : Tables} (h : Counted s)
    (hcommit : commitToHub platform s.tables tenantPk dupId dto ids = .ok c) :
    ¬ Counted (s.add (.commitToHub tenantPk dupId dto ids) c) := by
  rcases duplicateCallgent_counts hcommit with ⟨row, hrow, hnew, hcounts⟩
  have hold : forkedOf s.tables dupId = some row.value.forked := by
    unfold forkedOf
    rw [hrow]
    rfl
  have hne : dupId ≠ ids.callgent := by
    intro heq
    rw [← heq, hold] at hnew
    cases hnew
  intro hcounted
  have hafter := hcounts dupId
  rw [if_neg hne, if_pos rfl] at hafter
  have hcount := hcounted.counters dupId _ hafter
  have hbefore := h.counters dupId _ hold
  have hsame : row.value.forked + 1 =
      (forkedOf s.start dupId).getD 0 + s.forks.count dupId := hcount
  omega

theorem counted_hubStep_iff (hkept : Remaining s) (h : Counted s)
    (hstep : hubStep platform s call = some s') :
    Counted s' <-> call.IsFork := by
  rcases hubStep_cases hstep with ⟨c, hperform, heq⟩
  rw [heq]
  cases call with
  | forkFromHub tenantPk dupId dto ids =>
      exact iff_of_true (counted_fork hkept h hperform) True.intro
  | commitToHub tenantPk dupId dto ids =>
      exact iff_of_false (not_counted_commit h hperform) id

theorem exists_history (platform : Platform) (s : HubRun)
    (calls : List HubCall) :
    exists history t, history.Sublist calls ∧
      run (hubStep platform) s history = some t ∧
      run (step platform) s.tables (calls.map HubCall.op) = some t.tables := by
  induction calls generalizing s with
  | nil => exact ⟨[], s, List.Sublist.refl _, rfl, rfl⟩
  | cons call rest ih =>
      cases hperform : perform platform s.tables call.op with
      | ok c =>
          rcases ih (s.add call c) with ⟨history, t, hsub, hhistory, hrest⟩
          refine ⟨call :: history, t, hsub.cons_cons call, ?_, ?_⟩
          · unfold run hubStep
            rw [hperform]
            exact hhistory
          · rw [tables_add] at hrest
            rw [List.map_cons]
            unfold run step
            rw [hperform]
            exact hrest
      | error e =>
          rcases ih s with ⟨history, t, hsub, hhistory, hrest⟩
          refine ⟨history, t, hsub.cons call, hhistory, ?_⟩
          rw [List.map_cons]
          unfold run step
          rw [hperform]
          exact hrest

end Histories

/-- Over a history of forks and commits, only originals are committed and the
counters are those of the forks, in every state that is reached, exactly when
no call of it is a commit. -/
theorem hub_counted_iff {platform : Platform} {c : Tables}
    {calls : List HubCall} {t : HubRun}
    (hrun : run (hubStep platform) (.of c) calls = some t) :
    Along (hubStep platform) Counted (.of c) calls <->
      forall call, call ∈ calls -> call.IsFork := by
  have hkept : Remaining (.of c) := ⟨fun _ h => h, fun _ _ => List.not_mem_nil⟩
  have hcounted : Counted (.of c) := by
    constructor
    · intro forkedPk hmem
      cases hmem
    · intro id n hn
      show n = (forkedOf c id).getD 0 + 0
      have hn' : forkedOf c id = some n := hn
      rw [hn']
      rfl
  have hiff := along_iff_stepsMeet_of_inv
    (fun s call s' _ hs hstep => kept_hubStep hs hstep)
    (fun s call s' _ hs hgood hstep => counted_hubStep_iff hs hgood hstep)
    hkept hrun
  rw [hiff, and_iff_right hcounted]
  exact stepsMeet_iff_forall hrun

/-! ## A shop that is committed, forked and committed again -/

def copyIds (name : Text) : GeneratedIds where
  callgent := name
  entry := fun n => 'h' :: (name ++ decimal n)
  endpoint := fun m n => 'g' :: (name ++ decimal m ++ decimal n)
  entry_ne_nil := fun _ => List.cons_ne_nil _ _

/-- The fork of the shop in the hub, as a callgent of the shop's owner. -/
def forkShop : Except Thrown Tables :=
  forkFromHub hubHosts hubTables 1 "hub".toList
    ⟨"mine".toList, none, none, none⟩ (copyIds "mine".toList)

/-- The commit of an original is counted as a fork of it, and the fork that is
made of it is committed though it is none. -/
theorem fork_committed :
    forkedOf shopTables "shop".toList = some 0 ∧
      commitToHub hubHosts shopTables 1 "shop".toList shopDto hubIds =
        .ok hubTables ∧
      forkedOf hubTables "shop".toList = some 1 ∧
      exists c c', forkShop = .ok c ∧
        (forkedPkOf c "mine".toList).isSome = true ∧
        commitToHub hubHosts c 1 "mine".toList
          ⟨"again".toList, none, none, none⟩ (copyIds "again".toList) =
            .ok c' :=
  ⟨rfl, rfl, rfl, _, _, rfl, rfl, rfl⟩

/-- The history of one commit of the shop. -/
theorem hub_counted_shop :
    exists t, run (hubStep hubHosts) (.of shopTables)
        [.commitToHub 1 "shop".toList shopDto hubIds] = some t ∧
      ¬ Along (hubStep hubHosts) Counted (.of shopTables)
        [.commitToHub 1 "shop".toList shopDto hubIds] := by
  refine ⟨_, rfl, ?_⟩
  intro halong
  exact (hub_counted_iff rfl).mp halong _ List.mem_cons_self

end Hub
end CallgentApi
