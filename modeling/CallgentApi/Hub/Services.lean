import CallgentApi.Lib.Transition
import CallgentApi.Hub.Tables

/-!
# Imports and duplicates

An import stores the operations of an API as endpoints of an entry.  The hub is
a tenant: a callgent that is committed to it or forked from it is read with its
entries, endpoints and realms in one tenant, and built again in another.
-/

namespace CallgentApi
namespace Hub

open Js Event Realms Cached Config

/-! ## Imports -/

structure ApiOperation extends Api where
  summary : Option Text
  description : Option Text
  servers : List Json
  params : Value
  responses : Value
  rawJson : Json

structure ImportSpec where
  apis : List ApiOperation
  securitySchemes : List (Text × RealmSchemeVO)
  servers : List Text
  securities : List Requirement

/-- A guard with an item for each scheme that is required. -/
def requirementGuard (platform : Platform) (entry : Entry)
    (realms : List (Text × RealmRow)) (requirement : Requirement) :
    Except Thrown Guard :=
  requirement.foldlM (fun result required => do
    let realm ← written
      (.badRequest ("Unknown security scheme name: ".toList ++ required.1))
      (realms.lookup required.1)
    let item ← constructSecurity platform entry realm (some required.2)
    return result.set item.realmPk item) .empty

/-- The endpoint of an operation, under its name. -/
def apiEndpoint (platform : Platform) (entry : StoredEntryRow)
    (realms : List (Text × RealmRow)) (securities : List Requirement)
    (id : Text) (api : ApiOperation) :
    Except Thrown (Text × StoredEndpoint) := do
  let guards ← (securities ++ api.securities).mapM
    (requirementGuard platform entry.value.config realms)
  return (formalApiName api.method api.path,
    { id := id
      entryId := some entry.key
      adaptorKey := entry.value.adaptorKey
      path := api.path
      method := api.method
      summary := api.summary
      description := api.description
      servers := api.servers
      securities := guards
      params := api.params
      responses := api.responses
      rawJson := api.rawJson
      isAsync := false
      cacheKey := none
      cacheTtl := some 0 })

/-- A row of `createMany`. -/
def insertEndpoint (callgentId : Text)
    (endpoints : Table (Text × Text) StoredEndpoint)
    (named : Text × StoredEndpoint) :
    Except Thrown (Table (Text × Text) StoredEndpoint) :=
  if endpoints.rows.any fun row => row.value.id == named.2.id then
    .error uniqueConstraint
  else
    written uniqueConstraint (endpoints.create (callgentId, named.1) named.2)

/-- `EndpointsService.createMany`, for an entry of the adaptor. -/
def createMany (platform : Platform) (c : Tables) (adaptorKey : Text)
    (callgentId : Text) (named : List (Text × StoredEndpoint)) :
    Except Thrown Tables := do
  match named with
  | [] => return c
  | _ =>
      let isAsync ← written (.readUndefined "isAsync".toList)
        ((platform.adaptors adaptorKey).bind EntryAdaptor.isAsync)
      let endpoints ← (named.map fun named =>
        (named.1, { named.2 with isAsync := isAsync })).foldlM
          (insertEndpoint callgentId) c.endpoints
      return { c with endpoints := endpoints }

/-- `createBatch`, with the ids that are generated for the endpoints. -/
def createBatch (platform : Platform) (c : Tables) (entryId : Text)
    (spec : ImportSpec) (schedule : List Nat) (ids : Nat -> Text) :
    Except Thrown Tables := do
  let entry ← findEntry c entryId
  if entry.value.type ≠ .server then
    throw (.badRequest ("entry must be of type `SERVER`, id=".toList ++
      entry.key))
  let upserts ← spec.securitySchemes.mapM fun named =>
    constructUpsert platform entry.value.config named.2 ⟨none, none⟩
      spec.servers
  let imported ← (wholeSchedule upserts schedule).foldlM
    (importStep platform upserts) (importing upserts c.realms)
  let realms := realmMap (spec.securitySchemes.map Prod.fst) imported.states
  let named ← spec.apis.zipIdx.mapM fun numbered =>
    apiEndpoint platform entry realms spec.securities (ids numbered.2)
      numbered.1
  createMany platform { c with realms := imported.realms }
    entry.value.adaptorKey entry.value.callgentId named

/-! ## Duplicates -/

def hubTenantPk : Int := -1

/-- What is given for a duplicate; what is missing is taken from its source. -/
structure DuplicateDto where
  name : Text
  avatar : Option Text
  summary : Option Text
  instruction : Option Text

/-- The ids that are generated while a callgent is duplicated: those of its
entries by the entry's number, and those of the endpoints of an entry. -/
structure GeneratedIds where
  callgent : Text
  entry : Nat -> Text
  endpoint : Nat -> Nat -> Text
  entry_ne_nil : forall n, entry n ≠ []

/-- What the duplicate reads of its source; `forkedPk` is not selected. -/
structure SelectedCallgent where
  pk : Nat
  id : Text
  name : Text
  summary : Option Text
  instruction : Option Text
  forkedPk : Option Nat
  entries : List StoredEntryRow

def entriesOf (c : Tables) (callgentId : Text) : List StoredEntryRow :=
  c.entries.rows.filter fun row => row.value.callgentId == callgentId

def realmsOf (c : Tables) (callgentId : Text) : List RealmRow :=
  c.realms.rows.filter fun row => row.key.1 == callgentId

def endpointsAt (c : Tables) (entryId : Text) : List StoredEndpointRow :=
  c.endpoints.rows.filter fun row => row.value.entryId == some entryId

/-- `CallgentsService.findOne` in a tenant; it counts its calls. -/
def selectCallgent (c : Tables) (tenantPk : Int) (id : Text) :
    Except Thrown (Tables × SelectedCallgent) := do
  let row ← written (.notFound "Not Found".toList)
    ((c.callgents.findUnique id).filter fun row =>
      row.value.tenantPk == tenantPk)
  let callgents ← written recordNotFound (c.callgents.update row.pk
    fun callgent => { callgent with viewed := callgent.viewed + 1 })
  return ({ c with callgents := callgents },
    { pk := row.pk
      id := id
      name := row.value.name
      summary := row.value.summary
      instruction := row.value.instruction
      forkedPk := none
      entries := entriesOf c id })

/-- `{ forked: { increment: 1 } }`. -/
def countFork (c : Tables) (pk : Nat) : Except Thrown Tables := do
  let callgents ← written recordNotFound (c.callgents.update pk
    fun callgent => { callgent with forked := callgent.forked + 1 })
  return { c with callgents := callgents }

/-- `realmMap`: the realms of the duplicate by the keys of their sources. -/
abbrev RealmMap := List (Nat × Nat)

/-- A realm built again for the duplicate, without its secret. -/
def duplicateRealm (platform : Platform) (callgentId : Text)
    (s : Tables × RealmMap) (row : RealmRow) :
    Except Thrown (Tables × RealmMap) := do
  let c ← onRealms s.1 fun view => createRealm platform view
    ⟨callgentId, row.value.authType, row.value.scheme,
      ⟨row.value.realm, none⟩⟩
  return (c, s.2 ++ [(row.pk, s.1.realms.nextPk)])

def dupGuard (realmMap : RealmMap) (guard : Guard) : Except Thrown Guard :=
  guard.values.foldlM (fun ret item => do
    let pk ← written (.readUndefined "pk".toList)
      (realmMap.lookup item.realmPk)
    return ret.set pk { item with realmPk := pk }) .empty

def dupSecurities (realmMap : RealmMap) (securities : List Guard) :
    Except Thrown (List Guard) :=
  securities.mapM (dupGuard realmMap)

/-- An endpoint as it is built again, from the fields that are read. -/
def dupEndpoint (realmMap : RealmMap) (entryId id : Text)
    (row : StoredEndpointRow) : Except Thrown (Text × StoredEndpoint) := do
  let securities ← dupSecurities realmMap row.value.securities
  return (row.key.2,
    { id := id
      entryId := some entryId
      adaptorKey := row.value.adaptorKey
      path := row.value.path
      method := row.value.method
      summary := row.value.summary
      description := row.value.description
      servers := []
      securities := securities
      params := row.value.params
      responses := row.value.responses
      rawJson := row.value.rawJson
      isAsync := false
      cacheKey := none
      cacheTtl := some 0 })

/-- What is given for an entry that is built again. -/
def dupEntry (callgentId : Text) (securities : List Guard)
    (entry : StoredEntry) : CreateEntryDto where
  callgentId := callgentId
  type := entry.type
  adaptorKey := entry.adaptorKey
  name := entry.name
  summary := entry.summary
  instruction := entry.instruction
  priority := entry.priority
  host := some entry.host
  initParams := entry.initParams
  content := entry.content
  securities := securities

def duplicateEntry (platform : Platform) (realmMap : RealmMap)
    (ids : GeneratedIds) (c : Tables)
    (numbered : (StoredEntryRow × List StoredEndpointRow) × Nat) :
    Except Thrown Tables := do
  let entry := numbered.1.1
  let securities ← dupSecurities realmMap entry.value.securities
  let id := ids.entry numbered.2
  let c ← createEntry platform c id
    (dupEntry ids.callgent securities entry.value)
  let eps ← numbered.1.2.zipIdx.mapM fun fun_ =>
    dupEndpoint realmMap id (ids.endpoint numbered.2 fun_.2) fun_.1
  createMany platform c entry.value.adaptorKey ids.callgent eps

/-- `_duplicateCallgent`. -/
def duplicateCallgent (platform : Platform) (c : Tables) (fromId : Text)
    (dto : DuplicateDto) (fromTenant toTenant : Int) (ids : GeneratedIds) :
    Except Thrown Tables := do
  let (c, source) ← selectCallgent c fromTenant fromId
  if toTenant = hubTenantPk ∧ source.forkedPk.isSome then
    throw (.badRequest
      "Only original callgent can be committed to hub.".toList)
  let c ← countFork c source.pk
  -- the ids of default entries are not used: the callgent is forked
  let c ← createCallgent platform c toTenant ids.callgent
    { name := dto.name
      avatar := dto.avatar
      summary := dto.summary.or source.summary
      instruction := dto.instruction.or source.instruction
      forkedPk := some source.pk } [] []
  let (c, realmMap) ← (realmsOf c source.id).foldlM
    (duplicateRealm platform ids.callgent) (c, [])
  let endpointMap := source.entries.map fun entry =>
    (entry, endpointsAt c entry.key)
  endpointMap.zipIdx.foldlM (duplicateEntry platform realmMap ids) c

/-- `forkFromHub`, in a tenant. -/
def forkFromHub (platform : Platform) (c : Tables) (tenantPk : Int)
    (dupId : Text) (dto : DuplicateDto) (ids : GeneratedIds) :
    Except Thrown Tables :=
  duplicateCallgent platform c dupId dto hubTenantPk tenantPk ids

/-- `commitToHub`, in a tenant. -/
def commitToHub (platform : Platform) (c : Tables) (tenantPk : Int)
    (dupId : Text) (dto : DuplicateDto) (ids : GeneratedIds) :
    Except Thrown Tables :=
  duplicateCallgent platform c dupId dto tenantPk hubTenantPk ids

/-! ## Runs of the services -/

inductive Op where
  | createCallgent (tenantPk : Int) (id : Text) (dto : CreateCallgentDto)
      (restAPI email : Text)
  | createEntry (id : Text) (dto : CreateEntryDto)
  | updateEntry (id : Text) (dto : UpdateEntryDto)
  | createRealm (dto : CreateRealmDto)
  | upsertRealm (entryId : Text) (scheme : RealmSchemeVO) (form : RealmForm)
      (servers : List Text)
  | updateRealm (callgentId realmKey : Text) (dto : UpdateRealmDto)
  | deleteRealm (callgentId realmKey : Text)
  | updateSecurities (type : SecurityTarget) (id : Text)
      (forms : List SecurityForm)
  | createBatch (entryId : Text) (spec : ImportSpec) (schedule : List Nat)
      (ids : Nat -> Text)
  | forkFromHub (tenantPk : Int) (dupId : Text) (dto : DuplicateDto)
      (ids : GeneratedIds)
  | commitToHub (tenantPk : Int) (dupId : Text) (dto : DuplicateDto)
      (ids : GeneratedIds)

def perform (platform : Platform) (c : Tables) : Op -> Except Thrown Tables
  | .createCallgent tenantPk id dto restAPI email =>
      createCallgent platform c tenantPk id dto restAPI email
  | .createEntry id dto =>
      createEntry platform c id { dto with securities := [] }
  | .updateEntry id dto => updateEntry c id dto
  | .createRealm dto =>
      onRealms c fun view => Config.createRealm platform view dto
  | .upsertRealm entryId scheme form servers =>
      onRealms c fun view =>
        upsertRealm platform view entryId scheme form servers
  | .updateRealm callgentId realmKey dto =>
      onRealms c fun view => updateRealm platform view callgentId realmKey dto
  | .deleteRealm callgentId realmKey => deleteRealm c callgentId realmKey
  | .updateSecurities type id forms =>
      updateSecurities platform c type id forms
  | .createBatch entryId spec schedule ids =>
      createBatch platform c entryId spec schedule ids
  | .forkFromHub tenantPk dupId dto ids =>
      forkFromHub platform c tenantPk dupId dto ids
  | .commitToHub tenantPk dupId dto ids =>
      commitToHub platform c tenantPk dupId dto ids

def step (platform : Platform) (c : Tables) (op : Op) : Option Tables :=
  match perform platform c op with
  | .ok c' => some c'
  | .error _ => some c

/-! ## What the services do -/

section Services

variable {platform : Platform} {c c' : Tables}

theorem createEntry_cases {id : Text} {dto : CreateEntryDto}
    (h : createEntry platform c id dto = .ok c') :
    exists host entries,
      preCreate platform id
        ⟨dto.type, dto.adaptorKey, dto.name, dto.host, dto.callgentId⟩ =
          .ok host ∧
      c' = { c with entries := entries } ∧
      entries.rows = c.entries.rows ++
        [⟨c.entries.nextPk, id, dto.stored host⟩] := by
  rcases Fallible.exists_of_bind_ok h with ⟨host, hhost, h⟩
  rcases Fallible.exists_of_bind_ok h with ⟨_, _, h⟩
  rcases Fallible.exists_of_bind_ok h with ⟨entries, hentries, h⟩
  cases h
  rcases Table.exists_insert_of_create (eq_of_written hentries) with
    ⟨hnew, heq⟩
  refine ⟨host, entries, hhost, rfl, ?_⟩
  rw [heq]
  rfl

theorem insertEndpoint_cases {callgentId : Text}
    {endpoints next : Table (Text × Text) StoredEndpoint}
    {named : Text × StoredEndpoint}
    (h : insertEndpoint callgentId endpoints named = .ok next) :
    exists row, next.rows = endpoints.rows ++ [row] ∧
      row.key = (callgentId, named.1) ∧ row.value = named.2 := by
  unfold insertEndpoint at h
  split at h
  · cases h
  · rcases Table.exists_insert_of_create (eq_of_written h) with ⟨hnew, heq⟩
    rw [heq]
    exact ⟨_, rfl, rfl, rfl⟩

theorem createMany_cases {adaptorKey callgentId : Text}
    {named : List (Text × StoredEndpoint)}
    (h : createMany platform c adaptorKey callgentId named = .ok c') :
    exists isAsync endpoints added,
      c' = { c with endpoints := endpoints } ∧
      endpoints.rows = c.endpoints.rows ++ added ∧
      (named ≠ [] -> (platform.adaptors adaptorKey).bind
        EntryAdaptor.isAsync = some isAsync) ∧
      List.Forall₂ (fun named row => row.key = (callgentId, named.1) ∧
        row.value = { named.2 with isAsync := isAsync }) named added := by
  unfold createMany at h
  split at h
  · cases h
    exact ⟨false, c.endpoints, [], rfl, (List.append_nil _).symm,
      fun hne => absurd rfl hne, List.Forall₂.nil⟩
  · rcases Fallible.exists_of_bind_ok h with ⟨isAsync, hisAsync, h⟩
    rcases Fallible.exists_of_bind_ok h with ⟨endpoints, hfold, h⟩
    cases h
    rcases Fallible.foldlM_appends_one Table.rows
      (fun _ _ _ hnext => insertEndpoint_cases hnext) hfold with
      ⟨added, hadded, hall⟩
    exact ⟨isAsync, endpoints, added, rfl, hadded,
      fun _ => eq_of_written hisAsync, List.forall₂_map_left_iff.mp hall⟩

theorem createBatch_cases {entryId : Text} {spec : ImportSpec}
    {schedule : List Nat} {ids : Nat -> Text}
    (h : createBatch platform c entryId spec schedule ids = .ok c') :
    exists entry upserts imported named,
      c.entries.findUnique entryId = some entry ∧
      spec.securitySchemes.mapM (fun named =>
        constructUpsert platform entry.value.config named.2 ⟨none, none⟩
          spec.servers) = .ok upserts ∧
      (wholeSchedule upserts schedule).foldlM (importStep platform upserts)
        (importing upserts c.realms) = .ok imported ∧
      spec.apis.zipIdx.mapM (fun numbered =>
        apiEndpoint platform entry
          (realmMap (spec.securitySchemes.map Prod.fst) imported.states)
          spec.securities (ids numbered.2) numbered.1) = .ok named ∧
      createMany platform { c with realms := imported.realms }
        entry.value.adaptorKey entry.value.callgentId named = .ok c' := by
  unfold createBatch at h
  rcases Fallible.exists_of_bind_ok h with ⟨entry, hentry, h⟩
  split at h
  · cases h
  · rcases Fallible.exists_of_bind_ok h with ⟨upserts, hupserts, h⟩
    rcases Fallible.exists_of_bind_ok h with ⟨imported, himported, h⟩
    rcases Fallible.exists_of_bind_ok h with ⟨named, hnamed, h⟩
    exact ⟨entry, upserts, imported, named, eq_of_written hentry, hupserts,
      himported, hnamed, h⟩

theorem selectCallgent_cases {tenantPk : Int} {id : Text}
    {selected : Tables × SelectedCallgent}
    (h : selectCallgent c tenantPk id = .ok selected) :
    exists callgents, selected.1 = { c with callgents := callgents } ∧
      selected.2.id = id ∧ selected.2.forkedPk = none ∧
      selected.2.entries = entriesOf c id := by
  rcases Fallible.exists_of_bind_ok h with ⟨row, _, h⟩
  rcases Fallible.exists_of_bind_ok h with ⟨callgents, _, h⟩
  cases h
  exact ⟨callgents, rfl, rfl, rfl, rfl⟩

/-- What a duplicate goes through.  A callgent that is forked gets no default
entries, and none is refused for where it comes from. -/
theorem duplicateCallgent_cases {fromId : Text} {dto : DuplicateDto}
    {fromTenant toTenant : Int} {ids : GeneratedIds}
    (h : duplicateCallgent platform c fromId dto fromTenant toTenant ids =
      .ok c') :
    exists callgents mid realmMap,
      (realmsOf c fromId).foldlM (duplicateRealm platform ids.callgent)
        ({ c with callgents := callgents }, []) = .ok (mid, realmMap) ∧
      (((entriesOf c fromId).map fun entry =>
          (entry, endpointsAt mid entry.key)).zipIdx).foldlM
        (duplicateEntry platform realmMap ids) mid = .ok c' := by
  rcases Fallible.exists_of_bind_ok h with ⟨⟨c₁, source⟩, hselect, h⟩
  rcases selectCallgent_cases hselect with
    ⟨callgents₁, hc₁, hid, hforked, hselected⟩
  dsimp only at hc₁ hid hforked hselected h
  rw [hid, hforked, hselected] at h
  split at h
  · rename_i hrefused
    cases hrefused.right
  · rcases Fallible.exists_of_bind_ok h with ⟨c₂, hcount, hrest⟩
    rcases Fallible.exists_of_bind_ok hcount with ⟨callgents₂, _, hc₂⟩
    rcases Fallible.exists_of_bind_ok hrest with ⟨c₃, hcreate, hcopy⟩
    rcases Fallible.exists_of_bind_ok hcreate with ⟨callgents₃, _, hc₃⟩
    rcases Fallible.exists_of_bind_ok hcopy with
      ⟨⟨mid, realmMap⟩, hrealms, hentries⟩
    cases hc₂
    cases hc₃
    rw [hc₁] at hrealms
    exact ⟨callgents₃, mid, realmMap, hrealms, hentries⟩

end Services

end Hub
end CallgentApi
