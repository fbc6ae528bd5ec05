import CallgentApi.Cached.Service
import CallgentApi.Realms.Scheme

/-!
# The configuration of callgents

Entries, realms and endpoints are three tables.  The services change them, each
call in one transaction: a call that throws leaves the tables as they were.
-/

namespace CallgentApi
namespace Config

open Js Event Realms Cached

/-- An endpoint, found by its callgent and its name. -/
structure Endpoint where
  id : Text
  method : Text
  path : Text
  entryId : Option Text
  adaptorKey : Text
  securities : List RealmSecurityVO
  isAsync : Bool

abbrev RealmRow := TableRow (Text × Text) Realm

abbrev EntryRow := TableRow Text Entry

abbrev EndpointRow := TableRow (Text × Text) Endpoint

structure Tables where
  entries : Table Text Entry
  realms : Table (Text × Text) Realm
  endpoints : Table (Text × Text) Endpoint

def Tables.empty : Tables := ⟨.empty, .empty, .empty⟩

/-- A server adaptor, and a client adaptor with the hosts it generates for
entries of a callgent. -/
structure EntryAdaptor where
  isAsync : Option Bool
  genClientHost : Option (Text -> Text -> Text)

/-- What the services get from outside: the host names of urls, the adaptors
that are registered, and the rows that `findFirst` finds by the callgent and
the key of a realm. -/
structure Platform where
  hostname : Text -> Option Text
  adaptors : Text -> Option EntryAdaptor
  findFirst : Text × Text -> Table (Text × Text) Realm -> Option RealmRow

/-- A filter whose value is undefined is left out of `OR`, so that a row is
found by its key alone. -/
structure Platform.Documented (platform : Platform) : Prop where
  found : forall key realms r, platform.findFirst key realms = some r ->
    r ∈ realms.rows ∧ r.key = key

/-- A write to the database that may be refused. -/
def written {t : Type} (e : Thrown) (table : Option t) : Except Thrown t :=
  match table with
  | none => .error e
  | some table => .ok table

/-! ## Entries -/

structure CreateEntryDto where
  type : EntryType
  adaptorKey : Text
  name : Text
  host : Option Text
  callgentId : Text

structure UpdateEntryDto where
  name : Option Text
  host : Option Text

/-- `s.replace('{id}', id)`. -/
def replaceId (host id : Text) : Text :=
  match findText "{id}".toList host with
  | none => host
  | some n => host.take n ++ id ++ host.drop (n + 4)

def entryTypeName : EntryType -> Text
  | .client => "CLIENT".toList
  | .server => "SERVER".toList
  | .event => "EVENT".toList

/-- `getAdaptor(adaptorKey, type)?.preCreate(data)`: the host of an entry. -/
def preCreate (platform : Platform) (id : Text) (dto : CreateEntryDto) :
    Except Thrown Text := do
  let invalid := Thrown.badRequest ("Invalid ".toList ++
    entryTypeName dto.type ++ " entry adaptor key=".toList ++ dto.adaptorKey)
  let adaptor ← written invalid (platform.adaptors dto.adaptorKey)
  let host ←
    if dto.type = .server then
      match adaptor.isAsync with
      | none => .error invalid
      | some _ => .ok dto.host
    else
      match adaptor.genClientHost with
      | none => .error invalid
      | some genClientHost => .ok (some (genClientHost dto.callgentId id))
  match truthy host with
  | none => .error (.badRequest "host is required".toList)
  | some host => return replaceId host id

/-- `EntriesService.create`, with the id that is generated. -/
def createEntry (platform : Platform) (c : Tables) (id : Text)
    (dto : CreateEntryDto) : Except Thrown Tables := do
  let host ← preCreate platform id dto
  let entries ← written uniqueConstraint (c.entries.create id
    { type := dto.type
      adaptorKey := dto.adaptorKey
      name := if dto.name.isEmpty then host else dto.name
      host := host
      callgentId := dto.callgentId
      securities := [] })
  return { c with entries := entries }

def findEntry (c : Tables) (id : Text) : Except Thrown EntryRow :=
  written recordNotFound (c.entries.findUnique id)

def UpdateEntryDto.apply (dto : UpdateEntryDto) (entry : Entry) : Entry :=
  { entry with
    name := dto.name.getD entry.name
    host := dto.host.getD entry.host }

/-- `EntriesService.update`. -/
def updateEntry (c : Tables) (id : Text) (dto : UpdateEntryDto) :
    Except Thrown Tables := do
  let entry ← findEntry c id
  let entries ← written recordNotFound (c.entries.update entry.pk dto.apply)
  return { c with entries := entries }

/-! ## Realms -/

structure CreateRealmDto where
  callgentId : Text
  authType : Text
  scheme : RealmSchemeVO
  form : RealmForm

structure UpdateRealmDto where
  realm : Option Text
  scheme : Option RealmSchemeVO
  secret : Value

/-- `CallgentRealmsService.create`. -/
def createRealm (platform : Platform) (c : Tables) (dto : CreateRealmDto) :
    Except Thrown Tables := do
  let processor ← getSchemeProcessor dto.authType
  let (realmKey, realm) ← processor.constructRealm platform.hostname
    dto.authType dto.scheme dto.form none []
  let realms ← written uniqueConstraint
    (c.realms.create (dto.callgentId, realmKey) realm)
  return { c with realms := realms }

/-- A realm as it is constructed for `upsertRealm`, before the database is
asked. -/
structure Upsert where
  callgentId : Text
  realmKey : Text
  realm : Realm

/-- How far a call of `upsertRealm` is. -/
inductive UpsertState where
  | looking
  | writing (existing : Option RealmRow)
  | done (row : RealmRow)

/-- What an update writes over a realm; what is not given is left as it is. -/
def Upsert.over (u : Upsert) (old : Realm) : Realm :=
  { u.realm with
    realm := u.realm.realm.or old.realm
    secret := u.realm.secret.or old.secret }

/-- `upsertRealm` up to its first call of the database. -/
def constructUpsert (platform : Platform) (entry : Entry)
    (scheme : RealmSchemeVO) (form : RealmForm) (servers : List Text) :
    Except Thrown Upsert := do
  let processor ← getSchemeProcessor scheme.type
  let (realmKey, realm) ← processor.constructRealm platform.hostname
    scheme.type scheme form (some entry) servers
  return ⟨entry.callgentId, realmKey, realm⟩

/-- The next call of the database in `upsertRealm`. -/
def upsertStep (platform : Platform) (u : Upsert)
    (realms : Table (Text × Text) Realm) :
    UpsertState -> Except Thrown (Table (Text × Text) Realm × UpsertState)
  | .looking =>
      .ok (realms,
        .writing (platform.findFirst (u.callgentId, u.realmKey) realms))
  | .writing (some existing) => do
      let old ← written recordNotFound (realms.findPk existing.pk)
      let key := (old.key.1, u.realmKey)
      let realms ← written uniqueConstraint
        (realms.updateKey existing.pk key u.over)
      return (realms, .done ⟨existing.pk, key, u.over old.value⟩)
  | .writing none => do
      let key := (u.callgentId, u.realmKey)
      let next ← written uniqueConstraint (realms.create key u.realm)
      return (next, .done ⟨realms.nextPk, key, u.realm⟩)
  | .done row => .ok (realms, .done row)

/-- `CallgentRealmsService.upsertRealm`. -/
def upsertRealm (platform : Platform) (c : Tables) (entryId : Text)
    (scheme : RealmSchemeVO) (form : RealmForm) (servers : List Text) :
    Except Thrown Tables := do
  let entry ← findEntry c entryId
  let u ← constructUpsert platform entry.value scheme form servers
  let (realms, found) ← upsertStep platform u c.realms .looking
  let (realms, _) ← upsertStep platform u realms found
  return { c with realms := realms }

/-- The realm that an update constructs over what is stored. -/
def updatedRealm (platform : Platform) (old : Option Realm)
    (dto : UpdateRealmDto) : Except Thrown (Text × Realm) := do
  let scheme ← written (.badRequest "realm.scheme is required".toList)
    (dto.scheme.or (old.map Realm.scheme))
  let processor ← getSchemeProcessor scheme.type
  processor.constructRealm platform.hostname scheme.type scheme
    ⟨dto.realm.or (old.bind Realm.realm), dto.secret.or (old.bind Realm.secret)⟩
    none []

/-- `CallgentRealmsService.update`. -/
def updateRealm (platform : Platform) (c : Tables) (callgentId realmKey : Text)
    (dto : UpdateRealmDto) : Except Thrown Tables := do
  let found := c.realms.findUnique (callgentId, realmKey)
  let (key, realm) ← updatedRealm platform (found.map TableRow.value) dto
  let old ← written recordNotFound found
  let realms ← written uniqueConstraint
    (c.realms.updateKey old.pk (callgentId, key) fun _ => realm)
  return { c with realms := realms }

/-- The guards without the items of a realm.  Where one of them has such an
item, a guard without items is dropped. -/
def clearRealm (pk : Nat) (securities : List RealmSecurityVO) :
    List RealmSecurityVO :=
  if securities.any fun guard => guard.any fun item => item.realmPk == pk then
    (securities.map fun guard =>
      guard.filter fun item => item.realmPk != pk).filter
        fun guard => !guard.isEmpty
  else securities

/-- `CallgentRealmsService.delete`. -/
def deleteRealm (c : Tables) (callgentId realmKey : Text) :
    Except Thrown Tables := do
  let realm ← written recordNotFound
    (c.realms.findUnique (callgentId, realmKey))
  let realms ← written recordNotFound (c.realms.delete realm.pk)
  return {
    realms := realms
    entries := c.entries.mapValues fun _ entry =>
      if entry.callgentId = callgentId then
        { entry with securities := clearRealm realm.pk entry.securities }
      else entry
    endpoints := c.endpoints.mapValues fun key endpoint =>
      if key.1 = callgentId then
        { endpoint with securities := clearRealm realm.pk endpoint.securities }
      else endpoint }

/-! ## Securities -/

/-- `RealmSecurityItemForm`. -/
structure SecurityForm where
  realmKey : Text
  scopes : Option (List Text)

/-- The guard that is constructed on an entry for a realm. -/
def constructSecurity (platform : Platform) (entry : Entry) (row : RealmRow)
    (scopes : Option (List Text)) : Except Thrown RealmSecurityItem := do
  let processor ← getSchemeProcessor row.value.authType
  return processor.constructSecurity platform.hostname entry row.pk row.value
    scopes

inductive SecurityTarget where
  | entry
  | function

def constructGuard (platform : Platform) (c : Tables) (entry : Entry)
    (form : SecurityForm) : Except Thrown RealmSecurityVO := do
  let row ← written (.notFound "Not found realm".toList)
    (c.realms.findUnique (entry.callgentId, form.realmKey))
  return [← constructSecurity platform entry row form.scopes]

def findEndpoint (c : Tables) (id : Text) : Option EndpointRow :=
  c.endpoints.rows.find? fun row => row.value.id == id

/-- `CallgentRealmsService.updateSecurities`. -/
def updateSecurities (platform : Platform) (c : Tables)
    (type : SecurityTarget) (id : Text) (forms : List SecurityForm) :
    Except Thrown Tables := do
  match type with
  | .entry =>
      let entry ← written (.notFound "Not found entry".toList)
        (c.entries.findUnique id)
      let securities ← forms.mapM (constructGuard platform c entry.value)
      let entries ← written recordNotFound (c.entries.update entry.pk
        fun entry => { entry with securities := securities })
      return { c with entries := entries }
  | .function =>
      let notFound := Thrown.notFound "Not found function".toList
      let endpoint ← written notFound (findEndpoint c id)
      let entry ← written notFound
        (endpoint.value.entryId.bind c.entries.findUnique)
      let securities ← forms.mapM (constructGuard platform c entry.value)
      let endpoints ← written recordNotFound (c.endpoints.update endpoint.pk
        fun endpoint => { endpoint with securities := securities })
      return { c with endpoints := endpoints }

end Config
end CallgentApi
