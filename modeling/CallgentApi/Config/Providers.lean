import CallgentApi.Lib.Transition
import CallgentApi.Config.Import

/-!
# The providers of attached secrets

A guard attaches the secret of a realm where the provider of the realm is the
host of the entry.  This is decided when the guard is constructed; the host of
the entry and the provider of the realm may change afterwards.
-/

namespace CallgentApi
namespace Config

open Js Event Realms Cached Transition

/-! ## Runs of the services -/

inductive Op where
  | createEntry (id : Text) (dto : CreateEntryDto)
  | updateEntry (id : Text) (dto : UpdateEntryDto)
  | createRealm (dto : CreateRealmDto)
  | upsertRealm (entryId : Text) (scheme : RealmSchemeVO) (form : RealmForm)
      (servers : List Text)
  | updateRealm (callgentId realmKey : Text) (dto : UpdateRealmDto)
  | deleteRealm (callgentId realmKey : Text)
  | updateSecurities (type : SecurityTarget) (id : Text)
      (forms : List SecurityForm)
  | createBatch (entryId : Text) (spec : ApiSpec) (schedule : List Nat)
      (ids : Nat -> Text)

def perform (platform : Platform) (c : Tables) : Op -> Except Thrown Tables
  | .createEntry id dto => createEntry platform c id dto
  | .updateEntry id dto => updateEntry c id dto
  | .createRealm dto => createRealm platform c dto
  | .upsertRealm entryId scheme form servers =>
      upsertRealm platform c entryId scheme form servers
  | .updateRealm callgentId realmKey dto =>
      updateRealm platform c callgentId realmKey dto
  | .deleteRealm callgentId realmKey => deleteRealm c callgentId realmKey
  | .updateSecurities type id forms =>
      updateSecurities platform c type id forms
  | .createBatch entryId spec schedule ids =>
      createBatch platform c entryId spec schedule ids

def step (platform : Platform) (c : Tables) (op : Op) : Option Tables :=
  match perform platform c op with
  | .ok c' => some c'
  | .error _ => some c

/-! ## What the attached secrets are for -/

inductive StoredOn (c : Tables) (entry : EntryRow) (item : RealmSecurityItem) :
    Prop where
  | entry {guard : RealmSecurityVO} (hguard : guard ∈ entry.value.securities)
      (hitem : item ∈ guard)
  | endpoint {row : EndpointRow} (hrow : row ∈ c.endpoints.rows)
      (hentry : row.value.entryId = some entry.key) {guard : RealmSecurityVO}
      (hguard : guard ∈ row.value.securities) (hitem : item ∈ guard)

abbrev provider (row : RealmRow) : Option Text :=
  row.value.scheme.provider

def ForHost (platform : Platform) (entry : EntryRow) (row : RealmRow) : Prop :=
  exists name, provider row = some name ∧
    platform.hostname entry.value.host = some name

def ProvidersMatch (platform : Platform) (c : Tables) : Prop :=
  forall entry, entry ∈ c.entries.rows -> forall item, StoredOn c entry item ->
    item.attach = some true ->
      exists row, row ∈ c.realms.rows ∧ row.pk = item.realmPk ∧
        ForHost platform entry row

def Attached (c : Tables) (pk : Nat) : Prop :=
  exists entry item, entry ∈ c.entries.rows ∧ StoredOn c entry item ∧
    item.attach = some true ∧ item.realmPk = pk

/-- An upsert writes the provider that the attached realm of its key has. -/
def Upsert.Keeps (c : Tables) (u : Upsert) : Prop :=
  forall row, row ∈ c.realms.rows -> row.key = (u.callgentId, u.realmKey) ->
    Attached c row.pk -> u.realm.scheme.provider = provider row

/-- A call that changes neither the host name of an entry whose guards attach
secrets nor the provider of a realm whose secret they attach. -/
def Keeps (platform : Platform) (c : Tables) : Op -> Prop
  | .updateEntry id dto =>
      forall entry, entry ∈ c.entries.rows -> entry.key = id ->
        (exists item, StoredOn c entry item ∧ item.attach = some true) ->
          platform.hostname (dto.host.getD entry.value.host) =
            platform.hostname entry.value.host
  | .upsertRealm entryId scheme form servers =>
      forall entry u, c.entries.findUnique entryId = some entry ->
        constructUpsert platform entry.value scheme form servers = .ok u ->
          u.Keeps c
  | .updateRealm callgentId realmKey dto =>
      forall row, row ∈ c.realms.rows -> row.key = (callgentId, realmKey) ->
        Attached c row.pk -> forall named,
          updatedRealm platform (some row.value) dto = .ok named ->
            named.2.scheme.provider = provider row
  | .createBatch entryId spec _ _ =>
      forall entry upserts, c.entries.findUnique entryId = some entry ->
        spec.securitySchemes.mapM (fun named =>
          constructUpsert platform entry.value named.2 ⟨none, none⟩
            spec.servers) = .ok upserts ->
          (forall u, u ∈ upserts -> u.Keeps c) ∧
          forall u v, u ∈ upserts -> v ∈ upserts -> u.realmKey = v.realmKey ->
            u.realm.scheme.provider = v.realm.scheme.provider
  | _ => True

/-! ## The invariant -/

/-- The item is of a realm of the callgent, for the host of the entry. -/
def Matched (platform : Platform) (realms : Table (Text × Text) Realm)
    (entry : EntryRow) (item : RealmSecurityItem) : Prop :=
  exists row, row ∈ realms.rows ∧ row.pk = item.realmPk ∧
    row.key.1 = entry.value.callgentId ∧ ForHost platform entry row

/-- Besides, an endpoint is of the callgent of its entry. -/
structure Consistent (platform : Platform) (c : Tables) : Prop where
  attached : forall entry, entry ∈ c.entries.rows -> forall item,
    StoredOn c entry item -> item.attach = some true ->
      Matched platform c.realms entry item
  placed : forall row, row ∈ c.endpoints.rows ->
    exists entry, entry ∈ c.entries.rows ∧
      row.value.entryId = some entry.key ∧
      row.key.1 = entry.value.callgentId

theorem Consistent.providersMatch {platform : Platform} {c : Tables}
    (h : Consistent platform c) : ProvidersMatch platform c := by
  intro entry hentry item hstored hattach
  rcases h.attached entry hentry item hstored hattach with
    ⟨row, hrow, hpk, _, hhost⟩
  exact ⟨row, hrow, hpk, hhost⟩

theorem consistent_empty (platform : Platform) :
    Consistent platform .empty where
  attached := fun _ hentry => nomatch hentry
  placed := fun _ hrow => nomatch hrow

theorem eq_of_entry_key {entries : Table Text Entry} {entry other : EntryRow}
    (hentry : entry ∈ entries.rows) (hother : other ∈ entries.rows)
    (h : other.key = entry.key) : other = entry := by
  have hfound := Table.findUnique_of_mem hother
  rw [h, Table.findUnique_of_mem hentry] at hfound
  exact (Option.some.inj hfound).symm

/-! ## Changes of the realms -/

def KeepsProviders (c : Tables) (realms : Table (Text × Text) Realm) : Prop :=
  forall row, row ∈ c.realms.rows -> Attached c row.pk ->
    exists row', row' ∈ realms.rows ∧ row'.pk = row.pk ∧
      row'.key.1 = row.key.1 ∧ provider row' = provider row

theorem StoredOn.of_tables {c c' : Tables} {entry : EntryRow}
    {item : RealmSecurityItem} (h : StoredOn c entry item)
    (hendpoints : forall row, row ∈ c.endpoints.rows ->
      row ∈ c'.endpoints.rows) : StoredOn c' entry item := by
  cases h with
  | entry hguard hitem => exact .entry hguard hitem
  | endpoint hrow hentry hguard hitem =>
      exact .endpoint (hendpoints _ hrow) hentry hguard hitem

section Step

variable {platform : Platform} {c c' : Tables}

theorem Consistent.of_realms (h : Consistent platform c)
    {realms : Table (Text × Text) Realm} (hkeeps : KeepsProviders c realms) :
    Consistent platform { c with realms := realms } where
  placed := h.placed
  attached := by
    intro entry hentry item hstored hattach
    have hold : StoredOn c entry item := hstored.of_tables fun _ hrow => hrow
    rcases h.attached entry hentry item hold hattach with
      ⟨row, hrow, hpk, hcallgent, name, hname, hhost⟩
    have hattached : Attached c row.pk :=
      ⟨entry, item, hentry, hold, hattach, hpk.symm⟩
    rcases hkeeps row hrow hattached with
      ⟨row', hrow', hpk', hcallgent', hprovider⟩
    exact ⟨row', hrow', hpk'.trans hpk, hcallgent'.trans hcallgent, name,
      hprovider.trans hname, hhost⟩

theorem keepsProviders_create {key : Text × Text} {realm : Realm}
    {realms : Table (Text × Text) Realm}
    (h : c.realms.create key realm = some realms) :
    KeepsProviders c realms := by
  intro row hrow _
  rcases Table.exists_insert_of_create h with ⟨hnew, heq⟩
  rw [heq]
  exact ⟨row, Table.mem_insert.mpr (Or.inl hrow), rfl, rfl, rfl⟩

theorem consistent_createRealm {dto : CreateRealmDto}
    (h : Consistent platform c)
    (hcreate : createRealm platform c dto = .ok c') :
    Consistent platform c' := by
  unfold createRealm at hcreate
  rcases Fallible.exists_of_bind_ok hcreate with ⟨processor, _, hcreate⟩
  rcases Fallible.exists_of_bind_ok hcreate with ⟨named, _, hcreate⟩
  rcases Fallible.exists_of_bind_ok hcreate with ⟨realms, hrealms, hcreate⟩
  cases hcreate
  exact h.of_realms (keepsProviders_create (eq_of_written hrealms))

theorem keepsProviders_updateKey {old : RealmRow} {key : Text × Text}
    {f : Realm -> Realm} {realms : Table (Text × Text) Realm}
    (hold : old ∈ c.realms.rows) (hcallgent : key.1 = old.key.1)
    (hprovider : Attached c old.pk ->
      (f old.value).scheme.provider = provider old)
    (h : c.realms.updateKey old.pk key f = some realms) :
    KeepsProviders c realms := by
  intro row hrow hattached
  rcases Table.exists_move_of_updateKey h with ⟨hfree, heq⟩
  have hmem : Table.moveRow old.pk key f row ∈ realms.rows := by
    rw [heq]
    exact Table.mem_move.mpr ⟨row, hrow, rfl⟩
  refine ⟨_, hmem, Table.moveRow_pk _ _ _ _, ?_⟩
  unfold Table.moveRow
  by_cases hpk : row.pk = old.pk
  · have hsame : row = old := Table.eq_of_pk hrow hold hpk
    rw [hsame] at hattached ⊢
    rw [if_pos rfl]
    exact ⟨hcallgent, hprovider hattached⟩
  · rw [if_neg hpk]
    exact ⟨rfl, rfl⟩

theorem consistent_updateRealm {callgentId realmKey : Text}
    {dto : UpdateRealmDto} (h : Consistent platform c)
    (hkeeps : Keeps platform c (.updateRealm callgentId realmKey dto))
    (hupdate : updateRealm platform c callgentId realmKey dto = .ok c') :
    Consistent platform c' := by
  unfold updateRealm at hupdate
  rcases Fallible.exists_of_bind_ok hupdate with ⟨named, hnamed, hupdate⟩
  rcases Fallible.exists_of_bind_ok hupdate with ⟨old, hfound, hupdate⟩
  rcases Fallible.exists_of_bind_ok hupdate with ⟨realms, hrealms, hupdate⟩
  have hfound := eq_of_written hfound
  have hold := Table.mem_of_findUnique hfound
  have hkey := Table.key_of_findUnique hfound
  rw [hfound] at hnamed
  cases hupdate
  apply h.of_realms
  apply keepsProviders_updateKey hold _ _ (eq_of_written hrealms)
  · rw [hkey]
  · intro hattached
    exact hkeeps old hold hkey hattached named hnamed

/-! ## Changes of the entries and endpoints -/

theorem Consistent.of_entries (h : Consistent platform c)
    {entries : Table Text Entry}
    (hkept : forall entry, entry ∈ c.entries.rows ->
      exists entry', entry' ∈ entries.rows ∧ entry'.key = entry.key ∧
        entry'.value.callgentId = entry.value.callgentId)
    (hitems : forall entry', entry' ∈ entries.rows -> forall item,
      StoredOn c entry' item -> item.attach = some true ->
        Matched platform c.realms entry' item) :
    Consistent platform { c with entries := entries } where
  attached := by
    intro entry' hentry' item hstored
    exact hitems entry' hentry' item (hstored.of_tables fun _ hrow => hrow)
  placed := by
    intro row hrow
    rcases h.placed row hrow with ⟨entry, hentry, hof, hcallgent⟩
    rcases hkept entry hentry with ⟨entry', hentry', hkey, hsame⟩
    exact ⟨entry', hentry', by rw [hkey]; exact hof, by rw [hsame]; exact hcallgent⟩

theorem Consistent.of_endpoints (h : Consistent platform c)
    {endpoints : Table (Text × Text) Endpoint}
    (hrows : forall row, row ∈ endpoints.rows -> row ∈ c.endpoints.rows ∨
      exists entry, entry ∈ c.entries.rows ∧
        row.value.entryId = some entry.key ∧
        row.key.1 = entry.value.callgentId ∧
        forall guard, guard ∈ row.value.securities -> forall item,
          item ∈ guard -> item.attach = some true ->
            Matched platform c.realms entry item) :
    Consistent platform { c with endpoints := endpoints } where
  attached := by
    intro entry hentry item hstored hattach
    cases hstored with
    | entry hguard hitem =>
        exact h.attached entry hentry item (.entry hguard hitem) hattach
    | endpoint hrow hof hguard hitem =>
        rename_i row guard
        rcases hrows row hrow with hold | ⟨other, hother, hofOther, _, hgood⟩
        · exact h.attached entry hentry item (.endpoint hold hof hguard hitem)
            hattach
        · have hkey : other.key = entry.key :=
            Option.some.inj (hofOther.symm.trans hof)
          rw [← eq_of_entry_key hentry hother hkey]
          exact hgood guard hguard item hitem hattach
  placed := by
    intro row hrow
    rcases hrows row hrow with hold | ⟨entry, hentry, hof, hcallgent, _⟩
    · exact h.placed row hold
    · exact ⟨entry, hentry, hof, hcallgent⟩

theorem consistent_createEntry {id : Text} {dto : CreateEntryDto}
    (h : Consistent platform c)
    (hcreate : createEntry platform c id dto = .ok c') :
    Consistent platform c' := by
  unfold createEntry at hcreate
  rcases Fallible.exists_of_bind_ok hcreate with ⟨host, _, hcreate⟩
  rcases Fallible.exists_of_bind_ok hcreate with ⟨entries, hentries, hcreate⟩
  rcases Table.exists_insert_of_create (eq_of_written hentries) with
    ⟨hnew, heq⟩
  cases hcreate
  rw [heq]
  apply h.of_entries
  · intro entry hentry
    exact ⟨entry, Table.mem_insert.mpr (Or.inl hentry), rfl, rfl⟩
  · intro entry' hentry' item hstored hattach
    rcases Table.mem_insert.mp hentry' with hold | hadded
    · exact h.attached entry' hold item hstored hattach
    · -- the id is new, so that no endpoint is of the entry
      rw [hadded] at hstored
      cases hstored with
      | entry hguard hitem => cases hguard
      | endpoint hrow hof hguard hitem =>
          rcases h.placed _ hrow with ⟨entry, hentry, hofEntry, _⟩
          have hkey : entry.key = id :=
            Option.some.inj (hofEntry.symm.trans hof)
          have hfound := Table.findUnique_of_mem hentry
          rw [hkey, hnew] at hfound
          cases hfound

theorem consistent_updateEntry {id : Text} {dto : UpdateEntryDto}
    (h : Consistent platform c)
    (hkeeps : Keeps platform c (.updateEntry id dto))
    (hupdate : updateEntry c id dto = .ok c') : Consistent platform c' := by
  unfold updateEntry at hupdate
  rcases Fallible.exists_of_bind_ok hupdate with ⟨found, hfound, hupdate⟩
  rcases Fallible.exists_of_bind_ok hupdate with ⟨entries, hentries, hupdate⟩
  have hfound := eq_of_written hfound
  have heq := Table.eq_edit_of_update (eq_of_written hentries)
  cases hupdate
  rw [heq]
  have hfoundMem := Table.mem_of_findUnique hfound
  apply h.of_entries
  · intro entry hentry
    refine ⟨_, Table.mem_edit.mpr ⟨entry, hentry, rfl⟩,
      Table.editRow_key _ _ _, ?_⟩
    rcases Table.editRow_cases hfoundMem hentry dto.apply with
      hsame | ⟨hsame, hedited⟩
    · rw [hsame]
    · rw [hedited, hsame]
      rfl
  · intro entry' hentry' item hstored hattach
    rcases Table.mem_edit.mp hentry' with ⟨entry, hentry, hedit⟩
    rcases Table.editRow_cases hfoundMem hentry dto.apply with
      hsame | ⟨hsame, hedited⟩
    · rw [← hedit, hsame] at hstored ⊢
      exact h.attached entry hentry item hstored hattach
    · have hold : StoredOn c entry item := by
        rw [← hedit, hedited, ← hsame] at hstored
        cases hstored with
        | entry hguard hitem => exact .entry hguard hitem
        | endpoint hrow hof hguard hitem =>
            exact .endpoint hrow hof hguard hitem
      have hkey : entry.key = id := by
        rw [hsame]
        exact Table.key_of_findUnique hfound
      have hhost := hkeeps entry hentry hkey ⟨item, hold, hattach⟩
      rcases h.attached entry hentry item hold hattach with
        ⟨row, hrealm, hpk, hcallgent, name, hprovider, hname⟩
      rw [← hedit, hedited, ← hsame]
      exact ⟨row, hrealm, hpk, hcallgent, name, hprovider,
        hhost.trans hname⟩

/-! ## Upserts -/

/-- The rows stay under their keys, and keep their providers where it is not
the upsert that rewrites them. -/
def Rewrites (u : Upsert) (realms realms' : Table (Text × Text) Realm) : Prop :=
  forall row, row ∈ realms.rows -> exists row', row' ∈ realms'.rows ∧
    row'.pk = row.pk ∧ row'.key = row.key ∧
    (provider row' = provider row ∨
      row.key = (u.callgentId, u.realmKey) ∧
        provider row' = u.realm.scheme.provider)

/-- What an upsert knows of the realm that it has found or written. -/
def UpsertState.Sound (u : Upsert) (realms : Table (Text × Text) Realm) :
    UpsertState -> Prop
  | .looking => True
  | .writing none => True
  | .writing (some existing) =>
      exists row, row ∈ realms.rows ∧ row.pk = existing.pk ∧
        row.key = (u.callgentId, u.realmKey)
  | .done written =>
      provider written = u.realm.scheme.provider ∧
        exists row, row ∈ realms.rows ∧ row.pk = written.pk ∧
          row.key = (u.callgentId, u.realmKey) ∧
          provider row = u.realm.scheme.provider

theorem Rewrites.refl (u : Upsert) (realms : Table (Text × Text) Realm) :
    Rewrites u realms realms :=
  fun row hrow => ⟨row, hrow, rfl, rfl, Or.inl rfl⟩

/-- What one upsert knows stays true when another goes on, as long as the two
do not disagree about the provider of one key. -/
theorem UpsertState.Sound.of_rewrites {u v : Upsert}
    {realms realms' : Table (Text × Text) Realm} {state : UpsertState}
    (h : state.Sound v realms) (hrewrites : Rewrites u realms realms')
    (hagree : u.realmKey = v.realmKey ->
      u.realm.scheme.provider = v.realm.scheme.provider) :
    state.Sound v realms' := by
  cases state with
  | looking => exact True.intro
  | writing existing =>
      cases existing with
      | none => exact True.intro
      | some existing =>
          rcases h with ⟨row, hrow, hpk, hkey⟩
          rcases hrewrites row hrow with ⟨row', hrow', hpk', hkey', _⟩
          exact ⟨row', hrow', hpk'.trans hpk, hkey'.trans hkey⟩
  | done written =>
      rcases h with ⟨hwritten, row, hrow, hpk, hkey, hprovider⟩
      rcases hrewrites row hrow with ⟨row', hrow', hpk', hkey', hsame⟩
      refine ⟨hwritten, row', hrow', hpk'.trans hpk, hkey'.trans hkey, ?_⟩
      rcases hsame with hsame | ⟨hown, hrewritten⟩
      · exact hsame.trans hprovider
      · have hkeys : u.realmKey = v.realmKey :=
          congrArg Prod.snd (hown.symm.trans hkey)
        exact hrewritten.trans (hagree hkeys)

theorem rewrites_create {u : Upsert} {key : Text × Text} {realm : Realm}
    {realms realms' : Table (Text × Text) Realm}
    (h : realms.create key realm = some realms') :
    Rewrites u realms realms' := by
  intro row hrow
  rcases Table.exists_insert_of_create h with ⟨hnew, heq⟩
  rw [heq]
  exact ⟨row, Table.mem_insert.mpr (Or.inl hrow), rfl, rfl, Or.inl rfl⟩

theorem rewrites_updateKey {u : Upsert} {old : RealmRow}
    {realms realms' : Table (Text × Text) Realm} (hold : old ∈ realms.rows)
    (hkey : old.key = (u.callgentId, u.realmKey))
    (h : realms.updateKey old.pk old.key u.over = some realms') :
    Rewrites u realms realms' ∧
      ⟨old.pk, old.key, u.over old.value⟩ ∈ realms'.rows := by
  rcases Table.exists_move_of_updateKey h with ⟨hfree, heq⟩
  have hmoved : Table.moveRow old.pk old.key u.over old =
      ⟨old.pk, old.key, u.over old.value⟩ := if_pos rfl
  rw [heq]
  constructor
  · intro row hrow
    refine ⟨_, Table.mem_move.mpr ⟨row, hrow, rfl⟩,
      Table.moveRow_pk _ _ _ _, ?_⟩
    by_cases hpk : row.pk = old.pk
    · have hsame : row = old := Table.eq_of_pk hrow hold hpk
      rw [hsame, hmoved]
      exact ⟨rfl, Or.inr ⟨hkey, rfl⟩⟩
    · have hkept : Table.moveRow old.pk old.key u.over row = row :=
        if_neg hpk
      rw [hkept]
      exact ⟨rfl, Or.inl rfl⟩
  · exact Table.mem_move.mpr ⟨old, hold, hmoved⟩

theorem callgent_of_constructUpsert {entry : Entry} {scheme : RealmSchemeVO}
    {form : RealmForm} {servers : List Text} {u : Upsert}
    (h : constructUpsert platform entry scheme form servers = .ok u) :
    u.callgentId = entry.callgentId := by
  rcases Fallible.exists_of_bind_ok h with ⟨processor, _, h⟩
  rcases Fallible.exists_of_bind_ok h with ⟨named, _, h⟩
  cases h
  rfl

theorem upsertStep_spec (hplatform : platform.Documented) {u : Upsert}
    {realms realms' : Table (Text × Text) Realm} {state state' : UpsertState}
    (hsound : state.Sound u realms)
    (h : upsertStep platform u realms state = .ok (realms', state')) :
    Rewrites u realms realms' ∧ state'.Sound u realms' := by
  cases state with
  | looking =>
      cases h
      constructor
      · exact Rewrites.refl u realms
      · cases hfound : platform.findFirst (u.callgentId, u.realmKey) realms with
        | none => exact True.intro
        | some existing =>
            have hrow := hplatform.found _ _ _ hfound
            exact ⟨existing, hrow.left, rfl, hrow.right⟩
  | writing existing =>
      cases existing with
      | none =>
          rcases Fallible.exists_of_bind_ok h with ⟨next, hnext, h⟩
          cases h
          have hcreate := eq_of_written hnext
          rcases Table.exists_insert_of_create hcreate with ⟨hnew, heq⟩
          constructor
          · exact rewrites_create hcreate
          · rw [heq]
            exact ⟨rfl, _, Table.mem_insert.mpr (Or.inr rfl), rfl, rfl, rfl⟩
      | some existing =>
          rcases hsound with ⟨old, hold, hpk, hkey⟩
          have hfound : realms.findPk existing.pk = some old := by
            rw [← hpk]
            exact Table.findPk_of_mem hold
          have hown : (old.key.1, u.realmKey) = old.key := by
            rw [hkey]
          rcases Fallible.exists_of_bind_ok h with ⟨row, hrow, h⟩
          rcases Fallible.exists_of_bind_ok h with ⟨next, hnext, h⟩
          have hsame : old = row :=
            Option.some.inj (hfound.symm.trans (eq_of_written hrow))
          have hupdate := eq_of_written hnext
          cases h
          rw [← hsame, hown, ← hpk] at hupdate
          rcases rewrites_updateKey hold hkey hupdate with ⟨hrewrites, hmem⟩
          constructor
          · exact hrewrites
          · exact ⟨rfl, _, hmem, hpk, hkey, rfl⟩
  | done row =>
      cases h
      exact ⟨Rewrites.refl u realms, hsound⟩

/-- The attached realms of the tables an import begins with, as they are while
it runs. -/
def Persist (c : Tables) (realms : Table (Text × Text) Realm) : Prop :=
  forall row, row ∈ c.realms.rows -> Attached c row.pk ->
    exists row', row' ∈ realms.rows ∧ row'.pk = row.pk ∧
      row'.key = row.key ∧ provider row' = provider row

theorem Persist.keepsProviders {realms : Table (Text × Text) Realm}
    (h : Persist c realms) : KeepsProviders c realms := by
  intro row hrow hattached
  rcases h row hrow hattached with ⟨row', hrow', hpk, hkey, hprovider⟩
  exact ⟨row', hrow', hpk, by rw [hkey], hprovider⟩

theorem persist_refl (c : Tables) : Persist c c.realms :=
  fun row hrow _ => ⟨row, hrow, rfl, rfl, rfl⟩

theorem Persist.of_rewrites {u : Upsert}
    {realms realms' : Table (Text × Text) Realm} (h : Persist c realms)
    (hkeeps : u.Keeps c) (hrewrites : Rewrites u realms realms') :
    Persist c realms' := by
  intro row hrow hattached
  rcases h row hrow hattached with ⟨mid, hmid, hpk, hkey, hprovider⟩
  rcases hrewrites mid hmid with ⟨row', hrow', hpk', hkey', hsame⟩
  refine ⟨row', hrow', hpk'.trans hpk, hkey'.trans hkey, ?_⟩
  rcases hsame with hsame | ⟨hown, hrewritten⟩
  · exact hsame.trans hprovider
  · exact hrewritten.trans
      (hkeeps row hrow (hkey.symm.trans hown) hattached)

theorem consistent_upsertRealm (hplatform : platform.Documented)
    {entryId : Text} {scheme : RealmSchemeVO} {form : RealmForm}
    {servers : List Text} (h : Consistent platform c)
    (hkeeps : Keeps platform c (.upsertRealm entryId scheme form servers))
    (hupsert : upsertRealm platform c entryId scheme form servers = .ok c') :
    Consistent platform c' := by
  unfold upsertRealm at hupsert
  rcases Fallible.exists_of_bind_ok hupsert with ⟨entry, hentry, hupsert⟩
  rcases Fallible.exists_of_bind_ok hupsert with ⟨u, hu, hupsert⟩
  rcases Fallible.exists_of_bind_ok hupsert with ⟨⟨mid, found⟩, hfind, hupsert⟩
  rcases Fallible.exists_of_bind_ok hupsert with ⟨⟨realms, state⟩, hwrite,
    hupsert⟩
  cases hupsert
  have hu := hkeeps entry u (eq_of_written hentry) hu
  have hlooking : UpsertState.looking.Sound u c.realms := True.intro
  rcases upsertStep_spec hplatform hlooking hfind with ⟨hmid, hfound⟩
  rcases upsertStep_spec hplatform hfound hwrite with ⟨hrealms, _⟩
  have hpersist := (persist_refl c).of_rewrites hu hmid
  exact h.of_realms (hpersist.of_rewrites hu hrealms).keepsProviders

/-! ## Imports -/

structure ImportSound (c : Tables) (upserts : List Upsert) (s : Importing) :
    Prop where
  persist : Persist c s.realms
  sound : s.Knows (fun u state realms => state.Sound u realms) upserts

theorem importSound_importing (c : Tables) (upserts : List Upsert) :
    ImportSound c upserts (importing upserts c.realms) where
  persist := persist_refl c
  sound := knows_importing fun _ => True.intro

theorem importSound_importStep (hplatform : platform.Documented)
    {upserts : List Upsert} {s next : Importing} {i : Nat}
    (hkeeps : forall u, u ∈ upserts -> u.Keeps c)
    (hagree : forall u v, u ∈ upserts -> v ∈ upserts ->
      u.realmKey = v.realmKey ->
        u.realm.scheme.provider = v.realm.scheme.provider)
    (h : ImportSound c upserts s)
    (hstep : importStep platform upserts s i = .ok next) :
    ImportSound c upserts next where
  persist := by
    rcases importStep_cases hstep with heq |
      ⟨u, state, state', hu, hi, hupsert, _⟩
    · rw [heq]
      exact h.persist
    · have hsound := h.sound.knows i u state hu hi
      exact h.persist.of_rewrites (hkeeps u (List.mem_of_getElem? hu))
        (upsertStep_spec hplatform hsound hupsert).left
  sound := by
    apply h.sound.importStep _ _ hstep
    · intro u state realms' state' _ hsound hupsert
      exact (upsertStep_spec hplatform hsound hupsert).right
    · intro u v state other realms' state' hu hv hsound hother hupsert
      have hrewrites := (upsertStep_spec hplatform hsound hupsert).left
      exact hother.of_rewrites hrewrites (hagree u v hu hv)

theorem ImportSound.stored {upserts : List Upsert} {s : Importing}
    (h : ImportSound c upserts s) {names : List Text} {name : Text}
    {written : RealmRow}
    (hname : (name, written) ∈ realmMap names s.states) :
    exists u row, u ∈ upserts ∧ row ∈ s.realms.rows ∧ row.pk = written.pk ∧
      row.key.1 = u.callgentId ∧ provider row = provider written := by
  rcases h.sound.of_realmMap hname with ⟨u, hu, hprovider, hstored⟩
  rcases hstored with ⟨row, hrow, hpk, hkey, hstored⟩
  refine ⟨u, row, hu, hrow, hpk, ?_, hstored.trans hprovider.symm⟩
  rw [hkey]

/-! ## Guards -/

theorem forHost_of_constructSecurity {entry : EntryRow} {row : RealmRow}
    {scopes : Option (List Text)} {item : RealmSecurityItem}
    (h : constructSecurity platform entry.value row scopes = .ok item) :
    item.realmPk = row.pk ∧
      (item.attach = some true -> ForHost platform entry row) := by
  rcases Fallible.exists_of_bind_ok h with ⟨processor, _, h⟩
  cases h
  constructor
  · rfl
  · exact SchemeProcessor.provider_of_attach

theorem mem_setItem {item other : RealmSecurityItem} {guard : RealmSecurityVO}
    (h : other ∈ setItem item guard) : other = item ∨ other ∈ guard := by
  induction guard with
  | nil => exact Or.inl (List.mem_singleton.mp h)
  | cons first rest ih =>
      unfold setItem at h
      split at h
      · exact List.mem_cons.mp h
      · split at h
        · rcases List.mem_cons.mp h with heq | hrest
          · exact Or.inl heq
          · exact Or.inr (List.mem_cons_of_mem _ hrest)
        · rcases List.mem_cons.mp h with heq | hrest
          · exact Or.inr (List.mem_cons.mpr (Or.inl heq))
          · rcases ih hrest with heq | hrest
            · exact Or.inl heq
            · exact Or.inr (List.mem_cons_of_mem _ hrest)

theorem exists_of_mem_requirementGuard {entry : EntryRow}
    {realms : List (Text × RealmRow)} {requirement : Requirement}
    {guard : RealmSecurityVO}
    (h : requirementGuard platform entry.value realms requirement = .ok guard)
    {item : RealmSecurityItem} (hitem : item ∈ guard) :
    exists name row scopes, (name, row) ∈ realms ∧
      constructSecurity platform entry.value row scopes = .ok item := by
  unfold requirementGuard at h
  revert hitem
  apply Fallible.foldlM_invariant (fun guard : RealmSecurityVO =>
    item ∈ guard -> exists name row scopes, (name, row) ∈ realms ∧
      constructSecurity platform entry.value row scopes = .ok item) _ _ h
  · intro guard required next _ hinv hnext hitem
    rcases Fallible.exists_of_bind_ok hnext with ⟨row, hrow, hnext⟩
    rcases Fallible.exists_of_bind_ok hnext with ⟨constructed, hitem', hnext⟩
    cases hnext
    rcases mem_setItem hitem with heq | hold
    · rcases List.lookup_eq_some_iff.mp (eq_of_written hrow) with
        ⟨before, after, hsplit, _⟩
      rw [heq, hsplit]
      exact ⟨required.1, row, _,
        List.mem_append_right _ List.mem_cons_self, hitem'⟩
    · exact hinv hold
  · intro hitem
    cases hitem

theorem consistent_createBatch (hplatform : platform.Documented)
    {entryId : Text} {spec : ApiSpec} {schedule : List Nat}
    {ids : Nat -> Text} (h : Consistent platform c)
    (hkeeps : Keeps platform c (.createBatch entryId spec schedule ids))
    (hcreate : createBatch platform c entryId spec schedule ids = .ok c') :
    Consistent platform c' := by
  rcases createBatch_cases hcreate with
    ⟨entry, upserts, imported, named, hentry, hupserts, himport, hnamed,
      hmany⟩
  rcases hkeeps entry upserts hentry hupserts with ⟨hkeep, hagree⟩
  have hentryMem := Table.mem_of_findUnique hentry
  have hsound : ImportSound c upserts imported :=
    Fallible.foldlM_invariant (ImportSound c upserts)
      (fun _ _ _ _ hs hstep =>
        importSound_importStep hplatform hkeep hagree hs hstep)
      (importSound_importing c upserts) himport
  have hrealms := h.of_realms hsound.persist.keepsProviders
  rcases createMany_cases hmany with ⟨hentries, hsame, hadded⟩
  have hnew : forall endpoint, endpoint ∈ named -> forall guard,
      guard ∈ endpoint.2.securities -> forall item, item ∈ guard ->
        item.attach = some true ->
          Matched platform imported.realms entry item := by
    intro endpoint hendpoint guard hguard item hitem hattach
    rcases Fallible.exists_of_mem_mapM hnamed hendpoint with
      ⟨numbered, _, happly⟩
    rcases Fallible.exists_of_bind_ok happly with ⟨guards, hguards, happly⟩
    cases happly
    rcases Fallible.exists_of_mem_mapM hguards hguard with
      ⟨requirement, _, hrequirement⟩
    rcases exists_of_mem_requirementGuard hrequirement hitem with
      ⟨name, written, scopes, hwritten, hconstruct⟩
    rcases forHost_of_constructSecurity hconstruct with ⟨hpk, hhost⟩
    rcases hsound.stored hwritten with
      ⟨u, row, hu, hrow, hrowPk, hcallgent, hprovider⟩
    rcases hhost hattach with ⟨provided, hprovided, hhostname⟩
    rcases Fallible.exists_of_mem_mapM hupserts hu with ⟨_, _, hconstructed⟩
    refine ⟨row, hrow, hrowPk.trans hpk.symm, ?_, provided,
      hprovider.trans hprovided, hhostname⟩
    exact hcallgent.trans (callgent_of_constructUpsert hconstructed)
  have hresult : c' = ⟨c.entries, imported.realms, c'.endpoints⟩ := by
    rw [← show c'.entries = c.entries from hentries,
      ← show c'.realms = imported.realms from hsame]
  rw [hresult]
  apply hrealms.of_endpoints
  intro row hrow
  rcases hadded row hrow with hold | ⟨endpoint, isAsync, hmem, hkey, hvalue⟩
  · exact Or.inl hold
  · have hplaced : endpoint.2.entryId = some entry.key := by
      rcases Fallible.exists_of_mem_mapM hnamed hmem with ⟨_, _, happly⟩
      rcases Fallible.exists_of_bind_ok happly with ⟨_, _, happly⟩
      cases happly
      rfl
    rw [hkey, hvalue]
    exact Or.inr ⟨entry, hentryMem, hplaced, rfl, hnew endpoint hmem⟩

theorem matched_of_constructGuard {entry : EntryRow}
    {forms : List SecurityForm} {guards : List RealmSecurityVO}
    (h : forms.mapM (constructGuard platform c entry.value) = .ok guards)
    {guard : RealmSecurityVO} (hguard : guard ∈ guards)
    {item : RealmSecurityItem} (hitem : item ∈ guard)
    (hattach : item.attach = some true) :
    Matched platform c.realms entry item := by
  rcases Fallible.exists_of_mem_mapM h hguard with ⟨form, _, hform⟩
  rcases Fallible.exists_of_bind_ok hform with ⟨row, hrow, hform⟩
  rcases Fallible.exists_of_bind_ok hform with ⟨made, hmade, hform⟩
  cases hform
  rw [List.mem_singleton] at hitem
  rw [hitem] at hattach ⊢
  have hfound := eq_of_written hrow
  rcases forHost_of_constructSecurity hmade with ⟨hpk, hhost⟩
  refine ⟨row, Table.mem_of_findUnique hfound, hpk.symm, ?_, hhost hattach⟩
  rw [Table.key_of_findUnique hfound]

theorem consistent_updateSecurities {type : SecurityTarget} {id : Text}
    {forms : List SecurityForm} (h : Consistent platform c)
    (hupdate : updateSecurities platform c type id forms = .ok c') :
    Consistent platform c' := by
  cases type with
  | entry =>
      rcases Fallible.exists_of_bind_ok hupdate with ⟨found, hfound, hupdate⟩
      rcases Fallible.exists_of_bind_ok hupdate with ⟨guards, hguards, hupdate⟩
      rcases Fallible.exists_of_bind_ok hupdate with
        ⟨entries, hentries, hupdate⟩
      have hfound := Table.mem_of_findUnique (eq_of_written hfound)
      have heq := Table.eq_edit_of_update (eq_of_written hentries)
      cases hupdate
      rw [heq]
      apply h.of_entries
      · intro entry hentry
        refine ⟨_, Table.mem_edit.mpr ⟨entry, hentry, rfl⟩,
          Table.editRow_key _ _ _, ?_⟩
        rcases Table.editRow_cases hfound hentry
          (fun entry => { entry with securities := guards }) with
          hsame | ⟨hsame, hedited⟩
        · rw [hsame]
        · rw [hedited, hsame]
      · intro entry' hentry' item hstored hattach
        rcases Table.mem_edit.mp hentry' with ⟨entry, hentry, hedit⟩
        rcases Table.editRow_cases hfound hentry
          (fun entry => { entry with securities := guards }) with
          hsame | ⟨hsame, hedited⟩
        · rw [← hedit, hsame] at hstored ⊢
          exact h.attached entry hentry item hstored hattach
        · rw [← hedit, hedited] at hstored ⊢
          cases hstored with
          | entry hguard hitem =>
              exact matched_of_constructGuard hguards hguard hitem hattach
          | endpoint hrow hof hguard hitem =>
              exact h.attached found hfound item
                (.endpoint hrow hof hguard hitem) hattach
  | function =>
      rcases Fallible.exists_of_bind_ok hupdate with ⟨found, hfound, hupdate⟩
      rcases Fallible.exists_of_bind_ok hupdate with ⟨entry, hentry, hupdate⟩
      rcases Fallible.exists_of_bind_ok hupdate with ⟨guards, hguards, hupdate⟩
      rcases Fallible.exists_of_bind_ok hupdate with
        ⟨endpoints, hendpoints, hupdate⟩
      have hfound : found ∈ c.endpoints.rows :=
        List.mem_of_find?_eq_some (eq_of_written hfound)
      rcases Option.bind_eq_some_iff.mp (eq_of_written hentry) with
        ⟨entryId, hentryId, hentry⟩
      have hkey := Table.key_of_findUnique hentry
      have hentry := Table.mem_of_findUnique hentry
      have heq := Table.eq_edit_of_update (eq_of_written hendpoints)
      rw [← hkey] at hentryId
      cases hupdate
      rw [heq]
      apply h.of_endpoints
      intro row hrow
      rcases Table.mem_edit.mp hrow with ⟨old, hold, hedit⟩
      rcases Table.editRow_cases hfound hold
        (fun endpoint => { endpoint with securities := guards }) with
        hsame | ⟨hsame, hedited⟩
      · rw [← hedit, hsame]
        exact Or.inl hold
      · right
        rcases h.placed found hfound with ⟨other, hother, hof, hcallgent⟩
        have hsameEntry : other = entry := eq_of_entry_key hentry hother
          (Option.some.inj (hof.symm.trans hentryId))
        rw [hsameEntry] at hcallgent
        rw [← hedit, hedited]
        refine ⟨entry, hentry, hentryId, hcallgent, ?_⟩
        intro guard hguard item hitem hattach
        exact matched_of_constructGuard hguards hguard hitem hattach

/-! ## The removal of a realm -/

theorem mem_clearRealm {pk : Nat} {securities : List RealmSecurityVO}
    {guard : RealmSecurityVO} (h : guard ∈ clearRealm pk securities)
    {item : RealmSecurityItem} (hitem : item ∈ guard) :
    item.realmPk ≠ pk ∧
      exists old, old ∈ securities ∧ item ∈ old := by
  unfold clearRealm at h
  split at h
  · rcases List.mem_map.mp (List.mem_filter.mp h).left with ⟨old, hold, heq⟩
    rw [← heq] at hitem
    rcases List.mem_filter.mp hitem with ⟨hmem, hne⟩
    exact ⟨bne_iff_ne.mp hne, old, hold, hmem⟩
  · rename_i hnone
    refine ⟨?_, guard, h, hitem⟩
    intro hpk
    apply hnone
    apply List.any_eq_true.mpr
    refine ⟨guard, h, List.any_eq_true.mpr ⟨item, hitem, ?_⟩⟩
    exact beq_iff_eq.mpr hpk

theorem consistent_deleteRealm {callgentId realmKey : Text}
    (h : Consistent platform c)
    (hdelete : deleteRealm c callgentId realmKey = .ok c') :
    Consistent platform c' := by
  rcases Fallible.exists_of_bind_ok hdelete with ⟨realm, hrealm, hdelete⟩
  rcases Fallible.exists_of_bind_ok hdelete with ⟨realms, hrealms, hdelete⟩
  have hkey := Table.key_of_findUnique (eq_of_written hrealm)
  have hrealmMem := Table.mem_of_findUnique (eq_of_written hrealm)
  have heq := Table.eq_erase_of_delete (eq_of_written hrealms)
  -- an attached item that is left is not of the realm
  have hsurvives : forall entry item, Matched platform c.realms entry item ->
      (entry.value.callgentId = callgentId -> item.realmPk ≠ realm.pk) ->
        Matched platform (c.realms.erase realm.pk) entry item := by
    intro entry item hmatched hcleared
    rcases hmatched with ⟨row, hrow, hpk, hcallgent, hhost⟩
    refine ⟨row, Table.mem_erase.mpr ⟨hrow, ?_⟩, hpk, hcallgent, hhost⟩
    intro hsamePk
    have hsame := Table.eq_of_pk hrow hrealmMem hsamePk
    rw [hsame, hkey] at hcallgent
    exact hcleared hcallgent.symm (hpk.symm.trans hsamePk)
  cases hdelete
  rw [heq]
  constructor
  · intro entry' hentry' item hstored hattach
    rcases Table.mem_mapValues.mp hentry' with ⟨entry, hentry, hcleared⟩
    have hsame : Matched platform (c.realms.erase realm.pk) entry item ->
        Matched platform (c.realms.erase realm.pk) entry' item := by
      rw [← hcleared]
      unfold Matched ForHost
      dsimp only
      split
      · exact fun hmatched => hmatched
      · exact fun hmatched => hmatched
    apply hsame
    have hid : entry'.key = entry.key := by
      rw [← hcleared]
    cases hstored with
    | entry hguard hitem =>
        rw [← hcleared] at hguard
        dsimp only at hguard
        split at hguard
        · rcases mem_clearRealm hguard hitem with ⟨hne, old, hold, hmem⟩
          exact hsurvives entry item
            (h.attached entry hentry item (.entry hold hmem) hattach)
            fun _ => hne
        · rename_i hother
          exact hsurvives entry item
            (h.attached entry hentry item (.entry hguard hitem) hattach)
            fun hcallgent => absurd hcallgent hother
    | endpoint hrow hof hguard hitem =>
        rename_i row' guard
        rcases Table.mem_mapValues.mp hrow with ⟨row, hmem, hrowEq⟩
        rw [← hrowEq] at hof hguard
        rw [hid] at hof
        dsimp only at hof hguard
        have hofRow : row.value.entryId = some entry.key := by
          split at hof
          · exact hof
          · exact hof
        rcases h.placed row hmem with ⟨other, hotherMem, hofOther, hcallgent⟩
        have hplaced : other = entry := eq_of_entry_key hentry hotherMem
          (Option.some.inj (hofOther.symm.trans hofRow))
        rw [hplaced] at hcallgent
        split at hguard
        · rcases mem_clearRealm hguard hitem with ⟨hne, old, hold, hitemOld⟩
          exact hsurvives entry item
            (h.attached entry hentry item
              (.endpoint hmem hofRow hold hitemOld) hattach)
            fun _ => hne
        · rename_i hother
          exact hsurvives entry item
            (h.attached entry hentry item
              (.endpoint hmem hofRow hguard hitem) hattach)
            fun hsameCallgent => absurd (hcallgent.trans hsameCallgent) hother
  · intro row' hrow'
    rcases Table.mem_mapValues.mp hrow' with ⟨row, hrow, hrowEq⟩
    rcases h.placed row hrow with ⟨entry, hentry, hof, hcallgent⟩
    refine ⟨_, Table.mem_mapValues.mpr ⟨entry, hentry, rfl⟩, ?_, ?_⟩
    · rw [← hrowEq]
      dsimp only
      split
      · exact hof
      · exact hof
    · rw [← hrowEq]
      dsimp only
      split
      · exact hcallgent
      · exact hcallgent

/-! ## Runs -/

theorem consistent_step (hplatform : platform.Documented) {op : Op}
    (h : Consistent platform c) (hkeeps : Keeps platform c op)
    (hstep : step platform c op = some c') : Consistent platform c' := by
  unfold step at hstep
  cases hperform : perform platform c op with
  | error e =>
      rw [hperform] at hstep
      exact Option.some.inj hstep ▸ h
  | ok next =>
      rw [hperform] at hstep
      rw [← Option.some.inj hstep]
      cases op with
      | createEntry id dto => exact consistent_createEntry h hperform
      | updateEntry id dto => exact consistent_updateEntry h hkeeps hperform
      | createRealm dto => exact consistent_createRealm h hperform
      | upsertRealm entryId scheme form servers =>
          exact consistent_upsertRealm hplatform h hkeeps hperform
      | updateRealm callgentId realmKey dto =>
          exact consistent_updateRealm h hkeeps hperform
      | deleteRealm callgentId realmKey =>
          exact consistent_deleteRealm h hperform
      | updateSecurities type id forms =>
          exact consistent_updateSecurities h hperform
      | createBatch entryId spec schedule ids =>
          exact consistent_createBatch hplatform h hkeeps hperform

/-- In every run whose calls keep the host names and providers that attached
secrets rest on, each attached secret is for the host it is sent to. -/
theorem providersMatch_of_keeps (hplatform : platform.Documented)
    {ops : List Op}
    (hkeeps : StepsMeet (step platform) (Keeps platform) .empty ops)
    (hrun : run (step platform) .empty ops = some c) :
    ProvidersMatch platform c := by
  have hconsistent : Consistent platform c :=
    run_invariant_of_meets
      (fun _ _ _ h hok hstep => consistent_step hplatform h hok hstep)
      (consistent_empty platform) hkeeps hrun
  exact hconsistent.providersMatch

end Step

/-! ## The key of a shop -/

/-- The host name of a url without user and brackets. -/
def hostOf (url : Text) : Option Text :=
  match findText "://".toList url with
  | none => none
  | some n =>
      (some ((url.drop (n + 3)).takeWhile fun c => c != '/' && c != ':')).filter
        fun host => !host.isEmpty

def shopHosts : Platform where
  hostname := hostOf
  adaptors := fun _ => some ⟨some false, none⟩
  findFirst := fun key realms => realms.findUnique key

theorem documented_shopHosts : shopHosts.Documented where
  found := fun _ _ _ h =>
    ⟨Table.mem_of_findUnique h, Table.key_of_findUnique h⟩

def keyScheme : RealmSchemeVO where
  perUser := none
  validationUrl := none
  name := some "x-key".toList
  in_ := some "header".toList
  type := "apiKey".toList
  provider := some "shop.example".toList
  scheme := none

def guardShop : List Op := [
  .createEntry "e1".toList
    { type := .server
      adaptorKey := "restAPI".toList
      name := "shop".toList
      host := some "https://shop.example/v1".toList
      callgentId := "shop".toList },
  .createRealm
    { callgentId := "shop".toList
      authType := "apiKey".toList
      scheme := keyScheme
      form := ⟨none, some (.str "open".toList)⟩ },
  .updateSecurities .entry "e1".toList
    [⟨"apiKey:header:x-key:shop.example:".toList, none⟩]]

def moveShop : Op :=
  .updateEntry "e1".toList ⟨none, some "https://other.example".toList⟩

theorem providersMatch_guardShop :
    exists c, run (step shopHosts) .empty guardShop = some c ∧
      ProvidersMatch shopHosts c := by
  have hkeeps : StepsMeet (step shopHosts) (Keeps shopHosts) .empty
      guardShop :=
    ⟨True.intro, fun _ _ => ⟨True.intro, fun _ _ =>
      ⟨True.intro, fun _ _ => True.intro⟩⟩⟩
  exact ⟨_, rfl, providersMatch_of_keeps documented_shopHosts hkeeps rfl⟩

/-- The entry moves to another host, and the key of the shop with it. -/
theorem attached_elsewhere :
    exists c, run (step shopHosts) .empty (guardShop ++ [moveShop]) = some c ∧
      ¬ ProvidersMatch shopHosts c := by
  refine ⟨_, rfl, ?_⟩
  intro hmatch
  rcases hmatch _ List.mem_cons_self ⟨1, none, some true⟩
    (.entry List.mem_cons_self List.mem_cons_self) rfl with
    ⟨row, hrow, _, name, hname, hhost⟩
  rw [List.mem_singleton.mp hrow] at hname
  rw [← Option.some.inj hname] at hhost
  cases hhost

end Config
end CallgentApi
