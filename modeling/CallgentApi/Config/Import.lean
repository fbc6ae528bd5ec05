import CallgentApi.Lib.Fallible
import CallgentApi.Config.Tables

/-!
# The import of APIs

`createBatch` creates the realms of an API's security schemes and an endpoint
for each of its operations.  The calls of `upsertRealm` run at the same time;
their calls of the database are taken in the order of a schedule.
-/

namespace CallgentApi
namespace Config

open Js Event Realms Cached

/-- The schemes that are required together, by their names. -/
abbrev Requirement := List (Text × List Text)

structure Api where
  method : Text
  path : Text
  securities : List Requirement

structure ApiSpec where
  apis : List Api
  securitySchemes : List (Text × RealmSchemeVO)
  servers : List Text
  securities : List Requirement

/-- `Utils.formalApiName`. -/
def formalApiName (method path : Text) : Text :=
  toUpperCase method ++ ' ' :: path

/-! ## The realms of an import -/

/-- The calls of `upsertRealm` with how far they are, and the realms. -/
structure Importing where
  realms : Table (Text × Text) Realm
  states : List UpsertState

/-- The next call of the database by one of the upserts. -/
def importStep (platform : Platform) (upserts : List Upsert) (s : Importing)
    (i : Nat) : Except Thrown Importing :=
  match upserts[i]?, s.states[i]? with
  | some u, some state => do
      let (realms, state) ← upsertStep platform u s.realms state
      return ⟨realms, s.states.set i state⟩
  | _, _ => .ok s

/-- The order of the calls, which all come to their ends. -/
def wholeSchedule (upserts : List Upsert) (schedule : List Nat) : List Nat :=
  schedule ++ (List.range upserts.length).flatMap fun i => [i, i]

def importing (upserts : List Upsert) (realms : Table (Text × Text) Realm) :
    Importing :=
  ⟨realms, upserts.map fun _ => .looking⟩

def UpsertState.row? : UpsertState -> Option RealmRow
  | .done row => some row
  | _ => none

/-- `realmMap`. -/
def realmMap (names : List Text) (states : List UpsertState) :
    List (Text × RealmRow) :=
  (names.zip states).filterMap fun entry =>
    entry.2.row?.map fun row => (entry.1, row)

/-! ## The endpoints of an import -/

/-- `result['' + item.realmPk] = item`; keys that are numbers are in order. -/
def setItem (item : RealmSecurityItem) : RealmSecurityVO -> RealmSecurityVO
  | [] => [item]
  | other :: rest =>
      if item.realmPk < other.realmPk then item :: other :: rest
      else if item.realmPk = other.realmPk then item :: rest
      else other :: setItem item rest

/-- A guard with an item for each scheme that is required. -/
def requirementGuard (platform : Platform) (entry : Entry)
    (realms : List (Text × RealmRow)) (requirement : Requirement) :
    Except Thrown RealmSecurityVO :=
  requirement.foldlM (fun guard required => do
    let row ← written
      (.badRequest ("Unknown security scheme name: ".toList ++ required.1))
      (realms.lookup required.1)
    let item ← constructSecurity platform entry row (some required.2)
    return setItem item guard) []

/-- The endpoint of an operation, under its name. -/
def apiEndpoint (platform : Platform) (entry : EntryRow)
    (realms : List (Text × RealmRow)) (securities : List Requirement)
    (id : Text) (api : Api) : Except Thrown (Text × Endpoint) := do
  let guards ← (securities ++ api.securities).mapM
    (requirementGuard platform entry.value realms)
  return (formalApiName api.method api.path,
    { id := id
      method := api.method
      path := api.path
      entryId := some entry.key
      adaptorKey := entry.value.adaptorKey
      securities := guards
      isAsync := false })

/-- A row of `createMany`. -/
def insertEndpoint (callgentId : Text)
    (endpoints : Table (Text × Text) Endpoint) (named : Text × Endpoint) :
    Except Thrown (Table (Text × Text) Endpoint) :=
  if endpoints.rows.any fun row => row.value.id == named.2.id then
    .error uniqueConstraint
  else
    written uniqueConstraint (endpoints.create (callgentId, named.1) named.2)

/-- `EndpointsService.createMany`. -/
def createMany (platform : Platform) (c : Tables) (entry : EntryRow)
    (named : List (Text × Endpoint)) : Except Thrown Tables := do
  match named with
  | [] => return c
  | _ =>
      let isAsync ← written (.readUndefined "isAsync".toList)
        ((platform.adaptors entry.value.adaptorKey).bind EntryAdaptor.isAsync)
      let endpoints ← (named.map fun named =>
        (named.1, { named.2 with isAsync := isAsync })).foldlM
          (insertEndpoint entry.value.callgentId) c.endpoints
      return { c with endpoints := endpoints }

/-- `createBatch`, with the ids that are generated for the endpoints. -/
def createBatch (platform : Platform) (c : Tables) (entryId : Text)
    (spec : ApiSpec) (schedule : List Nat) (ids : Nat -> Text) :
    Except Thrown Tables := do
  let entry ← findEntry c entryId
  if entry.value.type ≠ .server then
    throw (.badRequest ("entry must be of type `SERVER`, id=".toList ++
      entry.key))
  let upserts ← spec.securitySchemes.mapM fun named =>
    constructUpsert platform entry.value named.2 ⟨none, none⟩ spec.servers
  let imported ← (wholeSchedule upserts schedule).foldlM
    (importStep platform upserts) (importing upserts c.realms)
  let realms := realmMap (spec.securitySchemes.map Prod.fst) imported.states
  let named ← spec.apis.zipIdx.mapM fun numbered =>
    apiEndpoint platform entry realms spec.securities (ids numbered.2)
      numbered.1
  createMany platform { c with realms := imported.realms } entry named

/-! ## What an import does -/

theorem eq_of_written {t : Type} {e : Thrown} {table : Option t} {result : t}
    (h : written e table = .ok result) : table = some result := by
  cases htable : table with
  | none =>
      rw [htable] at h
      cases h
  | some value =>
      rw [htable] at h
      rw [Except.ok.inj h]

theorem importStep_cases {platform : Platform} {upserts : List Upsert}
    {s next : Importing} {i : Nat}
    (h : importStep platform upserts s i = .ok next) :
    next = s ∨ exists u state state', upserts[i]? = some u ∧
      s.states[i]? = some state ∧
      upsertStep platform u s.realms state = .ok (next.realms, state') ∧
      next.states = s.states.set i state' := by
  unfold importStep at h
  cases hu : upserts[i]? with
  | none =>
      simp only [hu] at h
      exact Or.inl (Except.ok.inj h).symm
  | some u =>
      cases hstate : s.states[i]? with
      | none =>
          simp only [hu, hstate] at h
          exact Or.inl (Except.ok.inj h).symm
      | some state =>
          simp only [hu, hstate] at h
          rcases Fallible.exists_of_bind_ok h with
            ⟨⟨realms, state'⟩, hupsert, h⟩
          cases h
          exact Or.inr ⟨u, state, state', rfl, rfl, hupsert, rfl⟩

/-- What each upsert of an import knows of the realms. -/
structure Importing.Knows
    (P : Upsert -> UpsertState -> Table (Text × Text) Realm -> Prop)
    (upserts : List Upsert) (s : Importing) : Prop where
  length : s.states.length = upserts.length
  knows : forall (i : Nat) (u : Upsert) (state : UpsertState),
    upserts[i]? = some u -> s.states[i]? = some state -> P u state s.realms

section Knows

variable {P : Upsert -> UpsertState -> Table (Text × Text) Realm -> Prop}
  {upserts : List Upsert}

theorem knows_importing {realms : Table (Text × Text) Realm}
    (h : forall u, P u .looking realms) :
    (importing upserts realms).Knows P upserts where
  length := List.length_map _
  knows := by
    intro i u state _ hstate
    have hlooking : state = .looking := by
      unfold importing at hstate
      rcases List.mem_map.mp (List.mem_of_getElem? hstate) with ⟨_, _, heq⟩
      exact heq.symm
    rw [hlooking]
    exact h u

theorem Importing.Knows.importStep {platform : Platform}
    {s next : Importing} {i : Nat} (h : s.Knows P upserts)
    (hown : forall u state realms' state', u ∈ upserts ->
      P u state s.realms ->
        upsertStep platform u s.realms state = .ok (realms', state') ->
          P u state' realms')
    (hothers : forall u v state other realms' state', u ∈ upserts ->
      v ∈ upserts -> P u state s.realms -> P v other s.realms ->
        upsertStep platform u s.realms state = .ok (realms', state') ->
          P v other realms')
    (hstep : Config.importStep platform upserts s i = .ok next) :
    next.Knows P upserts := by
  rcases importStep_cases hstep with heq |
    ⟨u, state, state', hu, hstate, hupsert, hstates⟩
  · rw [heq]
    exact h
  · have humem := List.mem_of_getElem? hu
    have hknown := h.knows i u state hu hstate
    constructor
    · rw [hstates]
      exact (List.length_set ..).trans h.length
    · intro j v other hv hother
      rw [hstates] at hother
      by_cases hij : i = j
      · rw [← hij] at hv hother
        have hlt := (List.getElem?_eq_some_iff.mp hstate).choose
        rw [List.getElem?_set_self hlt] at hother
        rw [← Option.some.inj (hu.symm.trans hv), ← Option.some.inj hother]
        exact hown u state _ state' humem hknown hupsert
      · rw [List.getElem?_set_ne hij] at hother
        exact hothers u v state other _ state' humem
          (List.mem_of_getElem? hv) hknown (h.knows j v other hv hother)
          hupsert

theorem Importing.Knows.of_realmMap {s : Importing} (h : s.Knows P upserts)
    {names : List Text} {name : Text} {written : RealmRow}
    (hname : (name, written) ∈ realmMap names s.states) :
    exists u, u ∈ upserts ∧ P u (.done written) s.realms := by
  rcases List.mem_filterMap.mp hname with ⟨⟨other, state⟩, hmem, hdone⟩
  cases state with
  | looking => cases hdone
  | writing existing => cases hdone
  | done row =>
      cases hdone
      have hstates : UpsertState.done written ∈ s.states :=
        (List.of_mem_zip hmem).right
      rcases List.mem_iff_getElem?.mp hstates with ⟨i, hi⟩
      have hlt := (List.getElem?_eq_some_iff.mp hi).choose
      have hu := List.getElem?_eq_getElem (h.length ▸ hlt)
      exact ⟨_, List.mem_of_getElem? hu, h.knows i _ _ hu hi⟩

end Knows

theorem mem_insertEndpoint {callgentId : Text}
    {endpoints next : Table (Text × Text) Endpoint} {named : Text × Endpoint}
    (h : insertEndpoint callgentId endpoints named = .ok next)
    {row : EndpointRow} (hrow : row ∈ next.rows) :
    row ∈ endpoints.rows ∨
      row.key = (callgentId, named.1) ∧ row.value = named.2 := by
  unfold insertEndpoint at h
  split at h
  · cases h
  · rcases Table.exists_insert_of_create (eq_of_written h) with ⟨hnew, heq⟩
    rw [heq, Table.mem_insert] at hrow
    rcases hrow with hold | hrow
    · exact Or.inl hold
    · rw [hrow]
      exact Or.inr ⟨rfl, rfl⟩

theorem createMany_cases {platform : Platform} {c c' : Tables}
    {entry : EntryRow} {named : List (Text × Endpoint)}
    (h : createMany platform c entry named = .ok c') :
    c'.entries = c.entries ∧ c'.realms = c.realms ∧
      forall row, row ∈ c'.endpoints.rows ->
        row ∈ c.endpoints.rows ∨
          exists endpoint isAsync, endpoint ∈ named ∧
            row.key = (entry.value.callgentId, endpoint.1) ∧
            row.value = { endpoint.2 with isAsync := isAsync } := by
  unfold createMany at h
  split at h
  · cases h
    exact ⟨rfl, rfl, fun row hrow => Or.inl hrow⟩
  · rcases Fallible.exists_of_bind_ok h with ⟨isAsync, _, h⟩
    rcases Fallible.exists_of_bind_ok h with ⟨endpoints, hfold, h⟩
    cases h
    refine ⟨rfl, rfl, ?_⟩
    apply Fallible.foldlM_invariant (fun endpoints =>
      forall row : EndpointRow, row ∈ endpoints.rows ->
        row ∈ c.endpoints.rows ∨
          exists endpoint isAsync, endpoint ∈ named ∧
            row.key = (entry.value.callgentId, endpoint.1) ∧
            row.value = { endpoint.2 with isAsync := isAsync }) _ _ hfold
    · intro endpoints input next hinput hinv hnext row hrow
      rcases List.mem_map.mp hinput with ⟨endpoint, hendpoint, heq⟩
      rcases mem_insertEndpoint hnext hrow with hold | ⟨hkey, hvalue⟩
      · exact hinv row hold
      · rw [← heq] at hkey hvalue
        exact Or.inr ⟨endpoint, isAsync, hendpoint, hkey, hvalue⟩
    · exact fun row hrow => Or.inl hrow

theorem createBatch_cases {platform : Platform} {c c' : Tables} {entryId : Text}
    {spec : ApiSpec} {schedule : List Nat} {ids : Nat -> Text}
    (h : createBatch platform c entryId spec schedule ids = .ok c') :
    exists entry upserts imported named,
      c.entries.findUnique entryId = some entry ∧
      spec.securitySchemes.mapM (fun named =>
        constructUpsert platform entry.value named.2 ⟨none, none⟩
          spec.servers) = .ok upserts ∧
      (wholeSchedule upserts schedule).foldlM (importStep platform upserts)
        (importing upserts c.realms) = .ok imported ∧
      spec.apis.zipIdx.mapM (fun numbered =>
        apiEndpoint platform entry
          (realmMap (spec.securitySchemes.map Prod.fst) imported.states)
          spec.securities (ids numbered.2) numbered.1) = .ok named ∧
      createMany platform { c with realms := imported.realms } entry named =
        .ok c' := by
  unfold createBatch at h
  rcases Fallible.exists_of_bind_ok h with ⟨entry, hentry, h⟩
  split at h
  · cases h
  · rcases Fallible.exists_of_bind_ok h with ⟨upserts, hupserts, h⟩
    rcases Fallible.exists_of_bind_ok h with ⟨imported, himported, h⟩
    rcases Fallible.exists_of_bind_ok h with ⟨named, hnamed, h⟩
    exact ⟨entry, upserts, imported, named, eq_of_written hentry, hupserts,
      himported, hnamed, h⟩

theorem name_of_apiEndpoint {platform : Platform} {entry : EntryRow}
    {realms : List (Text × RealmRow)} {securities : List Requirement}
    {id : Text} {api : Api} {named : Text × Endpoint}
    (h : apiEndpoint platform entry realms securities id api = .ok named) :
    named.1 = formalApiName named.2.method named.2.path := by
  rcases Fallible.exists_of_bind_ok h with ⟨guards, _, h⟩
  cases h
  rfl

theorem name_of_createBatch {platform : Platform} {c c' : Tables}
    {entryId : Text} {spec : ApiSpec} {schedule : List Nat}
    {ids : Nat -> Text}
    (h : createBatch platform c entryId spec schedule ids = .ok c')
    {row : EndpointRow} (hrow : row ∈ c'.endpoints.rows)
    (hnew : row ∉ c.endpoints.rows) :
    row.key.2 = formalApiName row.value.method row.value.path := by
  rcases createBatch_cases h with
    ⟨entry, upserts, imported, named, _, _, _, hnamed, hcreate⟩
  rcases (createMany_cases hcreate).right.right row hrow with hold | hadded
  · exact absurd hold hnew
  · rcases hadded with ⟨endpoint, isAsync, hendpoint, hkey, hvalue⟩
    rcases Fallible.exists_of_mem_mapM hnamed hendpoint with
      ⟨numbered, _, happly⟩
    rw [hkey, hvalue]
    exact name_of_apiEndpoint happly

end Config
end CallgentApi
