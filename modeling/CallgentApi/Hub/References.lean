import CallgentApi.Lib.Correspondence
import CallgentApi.Config.Providers
import CallgentApi.Hub.Services

/-!
# References to realms

The guards of entries and endpoints refer to realms by their primary keys, and
no constraint of the database holds the references.  Every service keeps them:
a reference stands under its key, and is to a realm of the callgent.
-/

namespace CallgentApi
namespace Hub

open Js Event Realms Cached Config Transition

/-- A reference is to a realm of the callgent, and stands under its key. -/
def Refers (realms : Table (Text × Text) Realm) (callgentId : Text)
    (entry : Nat × RealmSecurityItem) : Prop :=
  entry.1 = entry.2.realmPk ∧
    exists row, row ∈ realms.rows ∧ row.pk = entry.2.realmPk ∧
      row.key.1 = callgentId

def Guarded (realms : Table (Text × Text) Realm) (callgentId : Text)
    (securities : List Guard) : Prop :=
  forall guard, guard ∈ securities -> forall entry, entry ∈ guard.entries ->
    Refers realms callgentId entry

/-- Every reference in the guards of entries and endpoints. -/
structure Referenced (c : Tables) : Prop where
  entries : forall row, row ∈ c.entries.rows ->
    Guarded c.realms row.value.callgentId row.value.securities
  endpoints : forall row, row ∈ c.endpoints.rows ->
    Guarded c.realms row.key.1 row.value.securities

/-- Besides, an endpoint is of the callgent of its entry. -/
structure Consistent (c : Tables) : Prop extends Referenced c where
  placed : forall row, row ∈ c.endpoints.rows ->
    exists entry, entry ∈ c.entries.rows ∧
      row.value.entryId = some entry.key ∧
      entry.value.callgentId = row.key.1

theorem consistent_empty : Consistent .empty where
  entries := fun _ hrow => nomatch hrow
  endpoints := fun _ hrow => nomatch hrow
  placed := fun _ hrow => nomatch hrow

/-! ## Changes of one table -/

/-- The realms keep their primary keys and their callgents. -/
def Kept (realms realms' : Table (Text × Text) Realm) : Prop :=
  forall row, row ∈ realms.rows -> exists row', row' ∈ realms'.rows ∧
    row'.pk = row.pk ∧ row'.key.1 = row.key.1

theorem Kept.refl (realms : Table (Text × Text) Realm) : Kept realms realms :=
  fun row hrow => ⟨row, hrow, rfl, rfl⟩

theorem Kept.trans {a b c : Table (Text × Text) Realm} (h : Kept a b)
    (h' : Kept b c) : Kept a c := by
  intro row hrow
  rcases h row hrow with ⟨mid, hmid, hpk, hcallgent⟩
  rcases h' mid hmid with ⟨row', hrow', hpk', hcallgent'⟩
  exact ⟨row', hrow', hpk'.trans hpk, hcallgent'.trans hcallgent⟩

section Change

variable {c : Tables} {realms realms' : Table (Text × Text) Realm}
  {callgentId : Text} {securities : List Guard}

theorem Refers.of_kept {entry : Nat × RealmSecurityItem}
    (h : Refers realms callgentId entry) (hkept : Kept realms realms') :
    Refers realms' callgentId entry := by
  rcases h with ⟨hkey, row, hrow, hpk, hcallgent⟩
  rcases hkept row hrow with ⟨row', hrow', hpk', hcallgent'⟩
  exact ⟨hkey, row', hrow', hpk'.trans hpk, hcallgent'.trans hcallgent⟩

theorem Guarded.of_kept (h : Guarded realms callgentId securities)
    (hkept : Kept realms realms') : Guarded realms' callgentId securities :=
  fun guard hguard entry hentry => (h guard hguard entry hentry).of_kept hkept

theorem Consistent.of_realms (h : Consistent c) (hkept : Kept c.realms realms) :
    Consistent { c with realms := realms } where
  entries := fun row hrow => (h.entries row hrow).of_kept hkept
  endpoints := fun row hrow => (h.endpoints row hrow).of_kept hkept
  placed := h.placed

theorem Consistent.of_callgents (h : Consistent c)
    (callgents : Table Text Callgent) :
    Consistent { c with callgents := callgents } where
  entries := h.entries
  endpoints := h.endpoints
  placed := h.placed

theorem Consistent.of_entries (h : Consistent c)
    {entries : Table Text StoredEntry}
    (hkept : forall row, row ∈ c.entries.rows -> exists row',
      row' ∈ entries.rows ∧ row'.key = row.key ∧
        row'.value.callgentId = row.value.callgentId)
    (hguarded : forall row, row ∈ entries.rows ->
      Guarded c.realms row.value.callgentId row.value.securities) :
    Consistent { c with entries := entries } where
  entries := hguarded
  endpoints := h.endpoints
  placed := by
    intro row hrow
    rcases h.placed row hrow with ⟨entry, hentry, hof, hcallgent⟩
    rcases hkept entry hentry with ⟨entry', hentry', hkey, hsame⟩
    refine ⟨entry', hentry', ?_, hsame.trans hcallgent⟩
    rw [hkey]
    exact hof

/-- Endpoints with guards on the realms of their entries' callgents may be
added, or take the places of others. -/
theorem Consistent.of_endpoints (h : Consistent c)
    {endpoints : Table (Text × Text) StoredEndpoint}
    (hrows : forall row, row ∈ endpoints.rows -> row ∈ c.endpoints.rows ∨
      (exists entry, entry ∈ c.entries.rows ∧
        row.value.entryId = some entry.key ∧
        entry.value.callgentId = row.key.1) ∧
      Guarded c.realms row.key.1 row.value.securities) :
    Consistent { c with endpoints := endpoints } where
  entries := h.entries
  endpoints := by
    intro row hrow
    rcases hrows row hrow with hold | ⟨_, hguarded⟩
    · exact h.endpoints row hold
    · exact hguarded
  placed := by
    intro row hrow
    rcases hrows row hrow with hold | ⟨hplaced, _⟩
    · exact h.placed row hold
    · exact hplaced

end Change

/-! ## Realms -/

section Step

variable {platform : Platform} {c c' : Tables}

theorem kept_create {realms realms' : Table (Text × Text) Realm}
    {key : Text × Text} {realm : Realm}
    (h : realms.create key realm = some realms') : Kept realms realms' := by
  intro row hrow
  rcases Table.exists_insert_of_create h with ⟨hnew, heq⟩
  rw [heq]
  exact ⟨row, Table.mem_insert.mpr (Or.inl hrow), rfl, rfl⟩

theorem kept_updateKey {realms realms' : Table (Text × Text) Realm}
    {old : RealmRow} {key : Text × Text} {f : Realm -> Realm}
    (hold : old ∈ realms.rows) (hcallgent : key.1 = old.key.1)
    (h : realms.updateKey old.pk key f = some realms') :
    Kept realms realms' := by
  intro row hrow
  rcases Table.exists_move_of_updateKey h with ⟨hfree, heq⟩
  rw [heq]
  refine ⟨_, Table.mem_move.mpr ⟨row, hrow, rfl⟩,
    Table.moveRow_pk _ _ _ _, ?_⟩
  unfold Table.moveRow
  by_cases hpk : row.pk = old.pk
  · rw [if_pos hpk, Table.eq_of_pk hrow hold hpk]
    exact hcallgent
  · rw [if_neg hpk]

theorem kept_of_rewrites {u : Upsert}
    {realms realms' : Table (Text × Text) Realm}
    (h : Rewrites u realms realms') : Kept realms realms' := by
  intro row hrow
  rcases h row hrow with ⟨row', hrow', hpk, hkey, _⟩
  exact ⟨row', hrow', hpk, by rw [hkey]⟩

theorem consistent_onRealms
    {service : Config.Tables -> Except Thrown Config.Tables}
    (hkept : forall view next, service view = .ok next ->
      Kept view.realms next.realms)
    (h : Consistent c) (hservice : onRealms c service = .ok c') :
    Consistent c' := by
  rcases Fallible.exists_of_bind_ok hservice with ⟨next, hnext, hservice⟩
  cases hservice
  exact h.of_realms (hkept _ _ hnext)

theorem kept_createRealm {view next : Config.Tables} {dto : CreateRealmDto}
    (h : createRealm platform view dto = .ok next) :
    Kept view.realms next.realms := by
  rcases Fallible.exists_of_bind_ok h with ⟨processor, _, h⟩
  rcases Fallible.exists_of_bind_ok h with ⟨named, _, h⟩
  rcases Fallible.exists_of_bind_ok h with ⟨realms, hrealms, h⟩
  cases h
  exact kept_create (eq_of_written hrealms)

theorem kept_upsertRealm (hplatform : platform.Documented)
    {view next : Config.Tables} {entryId : Text} {scheme : RealmSchemeVO}
    {form : RealmForm} {servers : List Text}
    (h : upsertRealm platform view entryId scheme form servers = .ok next) :
    Kept view.realms next.realms := by
  rcases Fallible.exists_of_bind_ok h with ⟨entry, _, h⟩
  rcases Fallible.exists_of_bind_ok h with ⟨u, _, h⟩
  rcases Fallible.exists_of_bind_ok h with ⟨⟨mid, found⟩, hfind, h⟩
  rcases Fallible.exists_of_bind_ok h with ⟨⟨realms, state⟩, hwrite, h⟩
  cases h
  have hlooking : UpsertState.looking.Sound u view.realms := True.intro
  rcases upsertStep_spec hplatform hlooking hfind with ⟨hmid, hfound⟩
  rcases upsertStep_spec hplatform hfound hwrite with ⟨hrealms, _⟩
  exact (kept_of_rewrites hmid).trans (kept_of_rewrites hrealms)

theorem kept_updateRealm {view next : Config.Tables}
    {callgentId realmKey : Text} {dto : UpdateRealmDto}
    (h : updateRealm platform view callgentId realmKey dto = .ok next) :
    Kept view.realms next.realms := by
  unfold updateRealm at h
  rcases Fallible.exists_of_bind_ok h with ⟨named, _, h⟩
  rcases Fallible.exists_of_bind_ok h with ⟨old, hold, h⟩
  rcases Fallible.exists_of_bind_ok h with ⟨realms, hrealms, h⟩
  have hold := eq_of_written hold
  cases h
  apply kept_updateKey (Table.mem_of_findUnique hold) _ (eq_of_written hrealms)
  rw [Table.key_of_findUnique hold]

/-! ## Entries -/

theorem consistent_createEntry {id : Text} {dto : CreateEntryDto}
    (h : Consistent c)
    (hguarded : Guarded c.realms dto.callgentId dto.securities)
    (hcreate : createEntry platform c id dto = .ok c') : Consistent c' := by
  rcases Fallible.exists_of_bind_ok hcreate with ⟨host, _, hcreate⟩
  rcases Fallible.exists_of_bind_ok hcreate with ⟨callgent, _, hcreate⟩
  rcases Fallible.exists_of_bind_ok hcreate with ⟨entries, hentries, hcreate⟩
  cases hcreate
  rcases Table.exists_insert_of_create (eq_of_written hentries) with
    ⟨hnew, heq⟩
  rw [heq]
  apply h.of_entries
  · intro row hrow
    exact ⟨row, Table.mem_insert.mpr (Or.inl hrow), rfl, rfl⟩
  · intro row hrow
    rcases Table.mem_insert.mp hrow with hold | hadded
    · exact h.entries row hold
    · rw [hadded]
      exact hguarded

theorem guarded_nil (realms : Table (Text × Text) Realm) (callgentId : Text) :
    Guarded realms callgentId [] :=
  fun _ hguard => nomatch hguard

theorem Consistent.of_edit {found : StoredEntryRow}
    {f : StoredEntry -> StoredEntry} {entries : Table Text StoredEntry}
    (h : Consistent c) (hfound : found ∈ c.entries.rows)
    (hcallgent : (f found.value).callgentId = found.value.callgentId)
    (hguarded : Guarded c.realms found.value.callgentId
      (f found.value).securities)
    (hupdate : c.entries.update found.pk f = some entries) :
    Consistent { c with entries := entries } := by
  rw [Table.eq_edit_of_update hupdate]
  apply h.of_entries
  · intro row hrow
    refine ⟨_, Table.mem_edit.mpr ⟨row, hrow, rfl⟩,
      Table.editRow_key _ _ _, ?_⟩
    rcases Table.editRow_cases hfound hrow f with hsame | ⟨hsame, hedited⟩
    · rw [hsame]
    · rw [hedited, hsame]
      exact hcallgent
  · intro row hrow
    rcases Table.mem_edit.mp hrow with ⟨old, hold, hedit⟩
    rw [← hedit]
    rcases Table.editRow_cases hfound hold f with hsame | ⟨_, hedited⟩
    · rw [hsame]
      exact h.entries old hold
    · rw [hedited]
      show Guarded c.realms (f found.value).callgentId _
      rw [hcallgent]
      exact hguarded

theorem consistent_updateEntry {id : Text} {dto : UpdateEntryDto}
    (h : Consistent c) (hupdate : updateEntry c id dto = .ok c') :
    Consistent c' := by
  rcases Fallible.exists_of_bind_ok hupdate with ⟨found, hfound, hupdate⟩
  rcases Fallible.exists_of_bind_ok hupdate with ⟨entries, hentries, hupdate⟩
  cases hupdate
  have hfound := Table.mem_of_findUnique (eq_of_written hfound)
  exact h.of_edit hfound rfl (h.entries found hfound) (eq_of_written hentries)

theorem consistent_createCallgent {tenantPk : Int} {id restAPI email : Text}
    {dto : CreateCallgentDto} (h : Consistent c)
    (hcreate : createCallgent platform c tenantPk id dto restAPI email =
      .ok c') : Consistent c' := by
  rcases Fallible.exists_of_bind_ok hcreate with ⟨callgents, _, hcreate⟩
  have hcallgents := h.of_callgents callgents
  unfold callgentCreated at hcreate
  split at hcreate
  · cases hcreate
    exact hcallgents
  · rcases Fallible.exists_of_bind_ok hcreate with ⟨mid, hmid, hcreate⟩
    have hfirst := consistent_createEntry hcallgents (guarded_nil _ _) hmid
    exact consistent_createEntry hfirst (guarded_nil _ _) hcreate

/-! ## Securities -/

theorem guarded_of_constructGuard {entry : StoredEntry}
    {forms : List SecurityForm} {securities : List Guard}
    (h : forms.mapM (constructGuard platform c entry) = .ok securities) :
    Guarded c.realms entry.callgentId securities := by
  intro guard hguard made hmade
  rcases Fallible.exists_of_mem_mapM h hguard with ⟨form, _, hform⟩
  rcases Fallible.exists_of_bind_ok hform with ⟨row, hrow, hform⟩
  rcases Fallible.exists_of_bind_ok hform with ⟨sec, hsec, hform⟩
  cases hform
  rw [SortedObject.mem_singleton.mp hmade]
  have hrow := eq_of_written hrow
  rcases Fallible.exists_of_bind_ok hsec with ⟨processor, _, hsec⟩
  cases hsec
  refine ⟨rfl, row, Table.mem_of_findUnique hrow, rfl, ?_⟩
  rw [Table.key_of_findUnique hrow]

theorem consistent_updateSecurities {type : SecurityTarget} {id : Text}
    {forms : List SecurityForm} (h : Consistent c)
    (hupdate : updateSecurities platform c type id forms = .ok c') :
    Consistent c' := by
  cases type with
  | entry =>
      rcases Fallible.exists_of_bind_ok hupdate with ⟨found, hfound, hupdate⟩
      rcases Fallible.exists_of_bind_ok hupdate with
        ⟨securities, hsecurities, hupdate⟩
      rcases Fallible.exists_of_bind_ok hupdate with
        ⟨entries, hentries, hupdate⟩
      cases hupdate
      exact h.of_edit (Table.mem_of_findUnique (eq_of_written hfound)) rfl
        (guarded_of_constructGuard hsecurities) (eq_of_written hentries)
  | function =>
      rcases Fallible.exists_of_bind_ok hupdate with ⟨found, hfound, hupdate⟩
      rcases Fallible.exists_of_bind_ok hupdate with ⟨entry, hentry, hupdate⟩
      rcases Fallible.exists_of_bind_ok hupdate with
        ⟨securities, hsecurities, hupdate⟩
      rcases Fallible.exists_of_bind_ok hupdate with
        ⟨endpoints, hendpoints, hupdate⟩
      have hfound : found ∈ c.endpoints.rows :=
        List.mem_of_find?_eq_some (eq_of_written hfound)
      rcases Option.bind_eq_some_iff.mp (eq_of_written hentry) with
        ⟨entryId, hentryId, hentry⟩
      cases hupdate
      rw [Table.eq_edit_of_update (eq_of_written hendpoints)]
      apply h.of_endpoints
      intro row hrow
      rcases Table.mem_edit.mp hrow with ⟨old, hold, hedit⟩
      rw [← hedit]
      rcases Table.editRow_cases hfound hold
        (fun endpoint => { endpoint with securities := securities }) with
        hsame | ⟨_, hedited⟩
      · rw [hsame]
        exact Or.inl hold
      · -- the entry that is found is the one the endpoint is placed at
        rcases h.placed found hfound with ⟨other, hother, hof, hcallgent⟩
        have hsameEntry : other = entry := by
          have hkey : other.key = entryId :=
            Option.some.inj (hof.symm.trans hentryId)
          have hfind := Table.findUnique_of_mem hother
          rw [hkey, hentry] at hfind
          exact (Option.some.inj hfind).symm
        rw [hedited]
        refine Or.inr ⟨⟨other, hother, hof, hcallgent⟩, ?_⟩
        show Guarded c.realms found.key.1 securities
        rw [← hcallgent, hsameEntry]
        exact guarded_of_constructGuard hsecurities

/-! ## The removal of a realm -/

theorem mem_clearKey {key : Nat} {securities : List Guard} {guard : Guard}
    (h : guard ∈ clearKey key securities) {entry : Nat × RealmSecurityItem}
    (hentry : entry ∈ guard.entries) :
    entry.1 ≠ key ∧ exists old, old ∈ securities ∧ entry ∈ old.entries := by
  unfold clearKey at h
  split at h
  · rcases List.mem_map.mp (List.mem_filter.mp h).left with ⟨old, hold, heq⟩
    rw [← heq] at hentry
    rcases SortedObject.mem_remove.mp hentry with ⟨hmem, hne⟩
    exact ⟨hne, old, hold, hmem⟩
  · rename_i hnone
    refine ⟨?_, guard, h, hentry⟩
    intro hkey
    apply hnone
    apply List.any_eq_true.mpr
    refine ⟨guard, h, List.any_eq_true.mpr ⟨entry, hentry, ?_⟩⟩
    exact beq_iff_eq.mpr hkey

theorem refers_erase {realms : Table (Text × Text) Realm} {callgentId : Text}
    {entry : Nat × RealmSecurityItem} (h : Refers realms callgentId entry)
    {pk : Nat} (hne : entry.1 ≠ pk) :
    Refers (realms.erase pk) callgentId entry := by
  rcases h with ⟨hkey, row, hrow, hpk, hcallgent⟩
  refine ⟨hkey, row, Table.mem_erase.mpr ⟨hrow, ?_⟩, hpk, hcallgent⟩
  rw [hpk, ← hkey]
  exact hne

theorem guarded_deleteRealm {realms : Table (Text × Text) Realm}
    {realm : RealmRow} (hrealm : realm ∈ realms.rows) {callgentId : Text}
    {securities : List Guard} (h : Guarded realms callgentId securities) :
    Guarded (realms.erase realm.pk) callgentId
      (if callgentId = realm.key.1 then clearKey realm.pk securities
       else securities) := by
  intro guard hguard entry hentry
  split at hguard
  · rcases mem_clearKey hguard hentry with ⟨hne, old, hold, hmem⟩
    exact refers_erase (h old hold entry hmem) hne
  · rename_i hother
    have hrefers := h guard hguard entry hentry
    apply refers_erase hrefers
    rcases hrefers with ⟨hkey, row, hrow, hpk, hcallgent⟩
    intro heq
    have hsame : row = realm := by
      apply Table.eq_of_pk hrow hrealm
      rw [hpk, ← hkey, heq]
    apply hother
    rw [← hcallgent, hsame]

theorem consistent_deleteRealm {callgentId realmKey : Text}
    (h : Consistent c) (hdelete : deleteRealm c callgentId realmKey = .ok c') :
    Consistent c' := by
  rcases Fallible.exists_of_bind_ok hdelete with ⟨realm, hrealm, hdelete⟩
  rcases Fallible.exists_of_bind_ok hdelete with ⟨realms, hrealms, hdelete⟩
  have hkey := Table.key_of_findUnique (eq_of_written hrealm)
  have hrealm := Table.mem_of_findUnique (eq_of_written hrealm)
  have hcallgent : callgentId = realm.key.1 := by
    rw [hkey]
  cases hdelete
  rw [Table.eq_erase_of_delete (eq_of_written hrealms)]
  constructor
  · constructor
    · intro row hrow
      rcases Table.mem_mapValues.mp hrow with ⟨old, hold, heq⟩
      have hguarded := guarded_deleteRealm hrealm (h.entries old hold)
      rw [← heq, hcallgent]
      dsimp only
      split
      · rename_i hof
        rw [if_pos hof] at hguarded
        exact hguarded
      · rename_i hother
        rw [if_neg hother] at hguarded
        exact hguarded
    · intro row hrow
      rcases Table.mem_mapValues.mp hrow with ⟨old, hold, heq⟩
      have hguarded := guarded_deleteRealm hrealm (h.endpoints old hold)
      rw [← heq, hcallgent]
      dsimp only
      split
      · rename_i hof
        rw [if_pos hof] at hguarded
        exact hguarded
      · rename_i hother
        rw [if_neg hother] at hguarded
        exact hguarded
  · intro row hrow
    rcases Table.mem_mapValues.mp hrow with ⟨old, hold, heq⟩
    rcases h.placed old hold with ⟨entry, hentry, hof, hplaced⟩
    refine ⟨_, Table.mem_mapValues.mpr ⟨entry, hentry, rfl⟩, ?_, ?_⟩
    · rw [← heq]
      dsimp only
      split
      · exact hof
      · exact hof
    · rw [← heq]
      dsimp only
      split
      · exact hplaced
      · exact hplaced

/-! ## Imports -/

/-- The realm that an upsert has found or written is there, under its key. -/
def Located (u : Upsert) (realms : Table (Text × Text) Realm)
    (written : RealmRow) : Prop :=
  exists row, row ∈ realms.rows ∧ row.pk = written.pk ∧
    row.key = (u.callgentId, u.realmKey)

def Known (u : Upsert) : UpsertState -> Table (Text × Text) Realm -> Prop
  | .looking, _ => True
  | .writing none, _ => True
  | .writing (some existing), realms => Located u realms existing
  | .done written, realms => Located u realms written

theorem Located.of_rewrites {u v : Upsert}
    {realms realms' : Table (Text × Text) Realm} {written : RealmRow}
    (h : Located v realms written) (hrewrites : Rewrites u realms realms') :
    Located v realms' written := by
  rcases h with ⟨row, hrow, hpk, hkey⟩
  rcases hrewrites row hrow with ⟨row', hrow', hpk', hkey', _⟩
  exact ⟨row', hrow', hpk'.trans hpk, hkey'.trans hkey⟩

theorem known_of_rewrites {u v : Upsert} {state : UpsertState}
    {realms realms' : Table (Text × Text) Realm} (h : Known v state realms)
    (hrewrites : Rewrites u realms realms') : Known v state realms' := by
  cases state with
  | looking => exact True.intro
  | writing existing =>
      cases existing with
      | none => exact True.intro
      | some existing => exact Located.of_rewrites h hrewrites
  | done written => exact Located.of_rewrites h hrewrites

theorem known_of_sound {u : Upsert} {state : UpsertState}
    {realms : Table (Text × Text) Realm} (h : state.Sound u realms) :
    Known u state realms := by
  cases state with
  | looking => exact True.intro
  | writing existing =>
      cases existing with
      | none => exact True.intro
      | some existing => exact h
  | done written =>
      rcases h with ⟨_, row, hrow, hpk, hkey, _⟩
      exact ⟨row, hrow, hpk, hkey⟩

theorem known_upsertStep (hplatform : platform.Documented) {u : Upsert}
    {realms realms' : Table (Text × Text) Realm} {state state' : UpsertState}
    (hknown : Known u state realms)
    (h : upsertStep platform u realms state = .ok (realms', state')) :
    Rewrites u realms realms' ∧ Known u state' realms' := by
  have hsound : (forall written, state ≠ .done written) ->
      state.Sound u realms := by
    intro hnot
    cases state with
    | looking => exact True.intro
    | writing existing =>
        cases existing with
        | none => exact True.intro
        | some existing => exact hknown
    | done written => exact absurd rfl (hnot written)
  by_cases hdone : exists written, state = .done written
  · rcases hdone with ⟨written, heq⟩
    rw [heq] at h hknown
    cases h
    exact ⟨Rewrites.refl u realms, hknown⟩
  · have hspec := upsertStep_spec hplatform
      (hsound fun written heq => hdone ⟨written, heq⟩) h
    exact ⟨hspec.left, known_of_sound hspec.right⟩

/-- An import keeps the realms, and knows the realms of its schemes. -/
structure Imported (realms : Table (Text × Text) Realm)
    (upserts : List Upsert) (s : Importing) : Prop where
  kept : Kept realms s.realms
  known : s.Knows Known upserts

theorem imported_importStep (hplatform : platform.Documented)
    {realms : Table (Text × Text) Realm} {upserts : List Upsert}
    {s next : Importing} {i : Nat} (h : Imported realms upserts s)
    (hstep : importStep platform upserts s i = .ok next) :
    Imported realms upserts next where
  kept := by
    rcases importStep_cases hstep with heq |
      ⟨u, state, state', hu, hstate, hupsert, _⟩
    · rw [heq]
      exact h.kept
    · have hknown := h.known.knows i u state hu hstate
      have hrewrites := (known_upsertStep hplatform hknown hupsert).left
      exact h.kept.trans (kept_of_rewrites hrewrites)
  known := by
    apply h.known.importStep _ _ hstep
    · intro u state realms' state' _ hknown hupsert
      exact (known_upsertStep hplatform hknown hupsert).right
    · intro u v state other realms' state' _ _ hknown hother hupsert
      exact known_of_rewrites hother
        (known_upsertStep hplatform hknown hupsert).left

theorem imported_fold (hplatform : platform.Documented)
    {realms : Table (Text × Text) Realm} {upserts : List Upsert}
    {schedule : List Nat} {imported : Importing}
    (h : (wholeSchedule upserts schedule).foldlM (importStep platform upserts)
      (importing upserts realms) = .ok imported) :
    Imported realms upserts imported := by
  apply Fallible.foldlM_invariant (Imported realms upserts) _ _ h
  · intro s i next _ hs hstep
    exact imported_importStep hplatform hs hstep
  · exact ⟨Kept.refl realms, knows_importing fun _ => True.intro⟩

theorem guarded_of_requirementGuard {entry : Entry}
    {realmMap : List (Text × RealmRow)}
    {realms : Table (Text × Text) Realm} {callgentId : Text}
    (hrealms : forall name written, (name, written) ∈ realmMap ->
      exists row, row ∈ realms.rows ∧ row.pk = written.pk ∧
        row.key.1 = callgentId)
    {requirement : Requirement} {guard : Guard}
    (h : requirementGuard platform entry realmMap requirement = .ok guard) :
    forall made, made ∈ guard.entries -> Refers realms callgentId made := by
  apply Fallible.foldlM_invariant (fun guard : Guard =>
    forall made, made ∈ guard.entries -> Refers realms callgentId made) _ _ h
  · intro guard required next _ hinv hnext made hmade
    rcases Fallible.exists_of_bind_ok hnext with ⟨written, hwritten, hnext⟩
    rcases Fallible.exists_of_bind_ok hnext with ⟨item, hitem, hnext⟩
    cases hnext
    rcases SortedObject.mem_set.mp hmade with heq | ⟨hold, _⟩
    · rcases List.lookup_eq_some_iff.mp (eq_of_written hwritten) with
        ⟨before, after, hsplit, _⟩
      have hmem : (required.1, written) ∈ realmMap := by
        rw [hsplit]
        exact List.mem_append_right _ List.mem_cons_self
      rcases hrealms _ _ hmem with ⟨row, hrow, hpk, hcallgent⟩
      rcases Fallible.exists_of_bind_ok hitem with ⟨processor, _, hitem⟩
      cases hitem
      rw [heq]
      exact ⟨rfl, row, hrow, hpk, hcallgent⟩
    · exact hinv made hold
  · intro made hmade
    cases hmade

theorem Consistent.of_createMany {entry : StoredEntryRow} {adaptorKey : Text}
    {named : List (Text × StoredEndpoint)} (h : Consistent c)
    (hentry : entry ∈ c.entries.rows)
    (hnamed : forall endpoint, endpoint ∈ named ->
      endpoint.2.entryId = some entry.key ∧
        Guarded c.realms entry.value.callgentId endpoint.2.securities)
    (hcreate : createMany platform c adaptorKey entry.value.callgentId named =
      .ok c') : Consistent c' := by
  rcases createMany_cases hcreate with
    ⟨isAsync, endpoints, added, heq, hrows, _, hadded⟩
  rw [heq]
  apply h.of_endpoints
  intro row hrow
  rw [hrows] at hrow
  rcases List.mem_append.mp hrow with hold | hnew
  · exact Or.inl hold
  · rcases Correspondence.exists_of_mem_forall₂ hadded hnew with
      ⟨endpoint, hendpoint, hkey, hvalue⟩
    rcases hnamed endpoint hendpoint with ⟨hplaced, hguarded⟩
    rw [hkey, hvalue]
    exact Or.inr ⟨⟨entry, hentry, hplaced, rfl⟩, hguarded⟩

theorem consistent_createBatch (hplatform : platform.Documented)
    {entryId : Text} {spec : ImportSpec} {schedule : List Nat}
    {ids : Nat -> Text} (h : Consistent c)
    (hcreate : createBatch platform c entryId spec schedule ids = .ok c') :
    Consistent c' := by
  rcases createBatch_cases hcreate with
    ⟨entry, upserts, imported, named, hentry, hupserts, himport, hnamed,
      hmany⟩
  have himported := imported_fold hplatform himport
  have hrealms := h.of_realms himported.kept
  have hcallgent : forall u, u ∈ upserts ->
      u.callgentId = entry.value.callgentId := by
    intro u hu
    rcases Fallible.exists_of_mem_mapM hupserts hu with ⟨_, _, hconstruct⟩
    exact callgent_of_constructUpsert hconstruct
  apply hrealms.of_createMany (Table.mem_of_findUnique hentry) _ hmany
  intro endpoint hendpoint
  rcases Fallible.exists_of_mem_mapM hnamed hendpoint with
    ⟨numbered, _, happly⟩
  rcases Fallible.exists_of_bind_ok happly with ⟨guards, hguards, happly⟩
  cases happly
  refine ⟨rfl, ?_⟩
  intro guard hguard
  rcases Fallible.exists_of_mem_mapM hguards hguard with
    ⟨requirement, _, hrequirement⟩
  apply guarded_of_requirementGuard _ hrequirement
  intro name written hname
  rcases himported.known.of_realmMap hname with
    ⟨u, hu, row, hrow, hpk, hkey⟩
  refine ⟨row, hrow, hpk, ?_⟩
  rw [hkey]
  exact hcallgent u hu

/-! ## Duplicates -/

def Duplicated (callgentId : Text) (realms : Table (Text × Text) Realm)
    (realmMap : RealmMap) : Prop :=
  forall old pk, (old, pk) ∈ realmMap ->
    exists row, row ∈ realms.rows ∧ row.pk = pk ∧ row.key.1 = callgentId

theorem duplicateRealm_cases {callgentId : Text} {s next : Tables × RealmMap}
    {row : RealmRow}
    (h : duplicateRealm platform callgentId s row = .ok next) :
    exists processor realmKey realm realms,
      getSchemeProcessor row.value.authType = .ok processor ∧
      processor.constructRealm platform.hostname row.value.authType
        row.value.scheme ⟨row.value.realm, none⟩ none [] =
          .ok (realmKey, realm) ∧
      next = ({ s.1 with realms := realms },
        s.2 ++ [(row.pk, s.1.realms.nextPk)]) ∧
      realms.rows = s.1.realms.rows ++
        [⟨s.1.realms.nextPk, (callgentId, realmKey), realm⟩] := by
  rcases Fallible.exists_of_bind_ok h with ⟨mid, hcreate, h⟩
  rcases Fallible.exists_of_bind_ok hcreate with ⟨view, hview, hcreate⟩
  rcases Fallible.exists_of_bind_ok hview with ⟨processor, hprocessor, hview⟩
  rcases Fallible.exists_of_bind_ok hview with ⟨named, hnamed, hview⟩
  rcases Fallible.exists_of_bind_ok hview with ⟨realms, hrealms, hview⟩
  rcases Table.exists_insert_of_create (eq_of_written hrealms) with
    ⟨hnew, heq⟩
  cases hview
  cases hcreate
  cases h
  refine ⟨processor, named.1, named.2, realms, hprocessor, hnamed, rfl, ?_⟩
  rw [heq]
  rfl

theorem consistent_duplicateRealm {callgentId : Text}
    {s next : Tables × RealmMap} {row : RealmRow}
    (h : Consistent s.1 ∧ Duplicated callgentId s.1.realms s.2)
    (hduplicate : duplicateRealm platform callgentId s row = .ok next) :
    Consistent next.1 ∧ Duplicated callgentId next.1.realms next.2 := by
  rcases duplicateRealm_cases hduplicate with
    ⟨_, realmKey, realm, realms, _, _, heq, hrows⟩
  have hmem : forall old, old ∈ s.1.realms.rows -> old ∈ realms.rows := by
    intro old hold
    rw [hrows]
    exact List.mem_append_left _ hold
  rw [heq]
  constructor
  · exact h.left.of_realms fun old hold => ⟨old, hmem old hold, rfl, rfl⟩
  · intro old pk hmapped
    rcases List.mem_append.mp hmapped with hbefore | hlast
    · rcases h.right old pk hbefore with ⟨found, hfound, hpk, hcallgent⟩
      exact ⟨found, hmem found hfound, hpk, hcallgent⟩
    · cases List.mem_singleton.mp hlast
      refine ⟨⟨s.1.realms.nextPk, (callgentId, realmKey), realm⟩, ?_, rfl,
        rfl⟩
      show _ ∈ realms.rows
      rw [hrows]
      exact List.mem_append_right _ List.mem_cons_self

theorem guarded_of_dupSecurities {callgentId : Text}
    {realms : Table (Text × Text) Realm} {realmMap : RealmMap}
    (hmap : Duplicated callgentId realms realmMap)
    {securities copies : List Guard}
    (h : dupSecurities realmMap securities = .ok copies) :
    Guarded realms callgentId copies := by
  intro copy hcopy
  rcases Fallible.exists_of_mem_mapM h hcopy with ⟨guard, _, hguard⟩
  apply Fallible.foldlM_invariant (fun copy : Guard =>
    forall made, made ∈ copy.entries -> Refers realms callgentId made) _ _
    hguard
  · intro ret item next _ hinv hnext made hmade
    rcases Fallible.exists_of_bind_ok hnext with ⟨pk, hpk, hnext⟩
    cases hnext
    rcases SortedObject.mem_set.mp hmade with heq | ⟨hold, _⟩
    · rcases List.lookup_eq_some_iff.mp (eq_of_written hpk) with
        ⟨before, after, hsplit, _⟩
      have hmem : (item.realmPk, pk) ∈ realmMap := by
        rw [hsplit]
        exact List.mem_append_right _ List.mem_cons_self
      rw [heq]
      exact ⟨rfl, hmap _ _ hmem⟩
    · exact hinv made hold
  · intro made hmade
    cases hmade

theorem consistent_duplicateEntry {realmMap : RealmMap} {ids : GeneratedIds}
    {numbered : (StoredEntryRow × List StoredEndpointRow) × Nat}
    (h : Consistent c ∧ Duplicated ids.callgent c.realms realmMap)
    (hduplicate : duplicateEntry platform realmMap ids c numbered = .ok c') :
    Consistent c' ∧ Duplicated ids.callgent c'.realms realmMap := by
  rcases Fallible.exists_of_bind_ok hduplicate with
    ⟨securities, hsecurities, hduplicate⟩
  rcases Fallible.exists_of_bind_ok hduplicate with ⟨mid, hmid, hduplicate⟩
  rcases Fallible.exists_of_bind_ok hduplicate with ⟨eps, heps, hmany⟩
  have hguarded := guarded_of_dupSecurities h.right hsecurities
  have hcreated := consistent_createEntry h.left hguarded hmid
  rcases createEntry_cases hmid with ⟨host, entries, _, heq, hrows⟩
  have hrealms : mid.realms = c.realms := by
    rw [heq]
  have hentry : ⟨c.entries.nextPk, ids.entry numbered.2,
      (dupEntry ids.callgent securities numbered.1.1.value).stored host⟩ ∈
        mid.entries.rows := by
    rw [heq]
    show _ ∈ entries.rows
    rw [hrows]
    exact List.mem_append_right _ List.mem_cons_self
  constructor
  · apply hcreated.of_createMany hentry _ hmany
    intro endpoint hendpoint
    rcases Fallible.exists_of_mem_mapM heps hendpoint with
      ⟨source, _, hsource⟩
    rcases Fallible.exists_of_bind_ok hsource with ⟨copies, hcopies, hsource⟩
    cases hsource
    refine ⟨rfl, ?_⟩
    rw [hrealms]
    exact guarded_of_dupSecurities h.right hcopies
  · rcases createMany_cases hmany with ⟨_, _, _, hsame, _⟩
    rw [hsame]
    show Duplicated ids.callgent mid.realms realmMap
    rw [hrealms]
    exact h.right

theorem consistent_duplicateCallgent {fromId : Text} {dto : DuplicateDto}
    {fromTenant toTenant : Int} {ids : GeneratedIds} (h : Consistent c)
    (hduplicate : duplicateCallgent platform c fromId dto fromTenant toTenant
      ids = .ok c') : Consistent c' := by
  rcases duplicateCallgent_cases hduplicate with
    ⟨callgents, mid, realmMap, hrealms, hentries⟩
  have hmid : Consistent mid ∧
      Duplicated ids.callgent mid.realms realmMap := by
    apply Fallible.foldlM_invariant (fun s : Tables × RealmMap =>
      Consistent s.1 ∧ Duplicated ids.callgent s.1.realms s.2) _ _ hrealms
    · intro s row next _ hs hnext
      exact consistent_duplicateRealm hs hnext
    · exact ⟨h.of_callgents callgents, fun _ _ hmem => nomatch hmem⟩
  have hlast : Consistent c' ∧
      Duplicated ids.callgent c'.realms realmMap := by
    apply Fallible.foldlM_invariant (fun c : Tables =>
      Consistent c ∧ Duplicated ids.callgent c.realms realmMap) _ hmid
      hentries
    intro c numbered next _ hc hnext
    exact consistent_duplicateEntry hc hnext
  exact hlast.left

/-! ## Runs -/

theorem consistent_perform (hplatform : platform.Documented) {op : Op}
    (h : Consistent c) (hperform : perform platform c op = .ok c') :
    Consistent c' := by
  cases op with
  | createCallgent tenantPk id dto restAPI email =>
      exact consistent_createCallgent h hperform
  | createEntry id dto =>
      exact consistent_createEntry h (guarded_nil _ _) hperform
  | updateEntry id dto => exact consistent_updateEntry h hperform
  | createRealm dto =>
      exact consistent_onRealms (fun _ _ => kept_createRealm) h hperform
  | upsertRealm entryId scheme form servers =>
      exact consistent_onRealms (fun _ _ => kept_upsertRealm hplatform) h
        hperform
  | updateRealm callgentId realmKey dto =>
      exact consistent_onRealms (fun _ _ => kept_updateRealm) h hperform
  | deleteRealm callgentId realmKey => exact consistent_deleteRealm h hperform
  | updateSecurities type id forms =>
      exact consistent_updateSecurities h hperform
  | createBatch entryId spec schedule ids =>
      exact consistent_createBatch hplatform h hperform
  | forkFromHub tenantPk dupId dto ids =>
      exact consistent_duplicateCallgent h hperform
  | commitToHub tenantPk dupId dto ids =>
      exact consistent_duplicateCallgent h hperform

theorem consistent_step (hplatform : platform.Documented) {op : Op}
    (h : Consistent c) (hstep : step platform c op = some c') :
    Consistent c' := by
  unfold step at hstep
  split at hstep
  · rename_i next hnext
    cases hstep
    exact consistent_perform hplatform h hnext
  · cases hstep
    exact h

end Step

theorem consistent_run {platform : Platform} (hplatform : platform.Documented)
    {c c' : Tables} {ops : List Op} (h : Consistent c)
    (hrun : run (step platform) c ops = some c') : Consistent c' :=
  run_invariant (fun _ _ _ => consistent_step hplatform) h hrun

/-- Whatever the services do, each reference is to a realm of the callgent, and
stands under its key. -/
theorem referenced_run {platform : Platform} (hplatform : platform.Documented)
    {c : Tables} {ops : List Op}
    (hrun : run (step platform) .empty ops = some c) : Referenced c :=
  (consistent_run hplatform consistent_empty hrun).toReferenced

/-! ## A shop that is committed to the hub -/

def hubHosts : Platform where
  hostname := hostOf
  adaptors := fun _ => some ⟨some false, some fun callgentId _ =>
    "/invoke/".toList ++ callgentId ++ "/{id}".toList⟩
  findFirst := fun key realms => realms.findUnique key

theorem documented_hubHosts : hubHosts.Documented where
  found := fun _ _ _ h =>
    ⟨Table.mem_of_findUnique h, Table.key_of_findUnique h⟩

/-- An operation of the shop that needs the key, with servers of its own. -/
def shopApi (servers : List Json) : ImportSpec where
  apis := [{
    method := "GET".toList
    path := "/orders".toList
    securities := [[("key".toList, [])]]
    summary := none
    description := none
    servers := servers
    params := none
    responses := none
    rawJson := .obj [] }]
  securitySchemes := [("key".toList, keyScheme)]
  servers := []
  securities := []

def shopEntry : CreateEntryDto where
  callgentId := "shop".toList
  type := .server
  adaptorKey := "restAPI".toList
  name := "orders".toList
  summary := none
  instruction := none
  priority := 0
  host := some "https://shop.example/v1".toList
  initParams := none
  content := none
  securities := []

def openShop (servers : List Json) : List Op := [
  .createCallgent 1 "shop".toList
    ⟨"shop".toList, none, none, none, none⟩ "e1".toList "e2".toList,
  .createEntry "e3".toList shopEntry,
  .createBatch "e3".toList (shopApi servers) [] (fun _ => "f1".toList)]

def hubIds : GeneratedIds where
  callgent := "hub".toList
  entry := fun n => 'h' :: decimal n
  endpoint := fun m n => 'g' :: (decimal m ++ decimal n)
  entry_ne_nil := fun _ => List.cons_ne_nil _ _

def commitShop : Op :=
  .commitToHub 1 "shop".toList ⟨"shop".toList, none, none, none⟩ hubIds

def referencedPks (c : Tables) : List (Text × List (List Nat)) :=
  c.endpoints.rows.map fun row =>
    (row.key.1, row.value.securities.map fun guard =>
      guard.entries.map Prod.fst)

theorem referenced_commitShop :
    exists c, run (step hubHosts) .empty (openShop [] ++ [commitShop]) =
        some c ∧
      referencedPks c = [("shop".toList, [[1]]), ("hub".toList, [[2]])] ∧
      Referenced c := by
  have hruns : exists c,
      run (step hubHosts) .empty (openShop [] ++ [commitShop]) = some c ∧
        referencedPks c =
          [("shop".toList, [[1]]), ("hub".toList, [[2]])] :=
    ⟨_, rfl, rfl⟩
  rcases hruns with ⟨c, hrun, hpks⟩
  exact ⟨c, hrun, hpks, referenced_run documented_hubHosts hrun⟩

end Hub
end CallgentApi
