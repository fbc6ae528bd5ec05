import CallgentApi.Lib.SortedObject
import CallgentApi.Config.Import

/-!
# Callgents with their rows

The rows of entries and endpoints with all that is configured in them.  Their
guards are objects, with a property for each realm; the keys of the properties
are numerals, and stand for the primary keys of the realms.
-/

namespace CallgentApi
namespace Hub

open Js Event Realms Cached Config

/-- `RealmSecurityVO`: the items of a guard under their keys. -/
abbrev Guard := SortedObject Nat RealmSecurityItem

structure Callgent where
  tenantPk : Int
  name : Text
  avatar : Option Text
  summary : Option Text
  instruction : Option Text
  viewed : Nat
  forked : Nat
  forkedPk : Option Nat

structure StoredEntry where
  callgentId : Text
  type : EntryType
  adaptorKey : Text
  name : Text
  summary : Option Text
  instruction : Option Text
  priority : Int
  host : Text
  initParams : Value
  content : Value
  securities : List Guard

/-- An endpoint, found by its callgent and its name. -/
structure StoredEndpoint where
  id : Text
  entryId : Option Text
  adaptorKey : Text
  path : Text
  method : Text
  summary : Option Text
  description : Option Text
  servers : List Json
  securities : List Guard
  params : Value
  responses : Value
  rawJson : Json
  isAsync : Bool
  cacheKey : Option Text
  cacheTtl : Option Int

abbrev CallgentRow := TableRow Text Callgent

abbrev StoredEntryRow := TableRow Text StoredEntry

abbrev StoredEndpointRow := TableRow (Text × Text) StoredEndpoint

structure Tables where
  callgents : Table Text Callgent
  entries : Table Text StoredEntry
  realms : Table (Text × Text) Realm
  endpoints : Table (Text × Text) StoredEndpoint

def Tables.empty : Tables := ⟨.empty, .empty, .empty, .empty⟩

/-- `security - key`, for each guard.  Where one of them has the key, a guard
without items is dropped. -/
def clearKey (key : Nat) (securities : List Guard) : List Guard :=
  if securities.any fun guard =>
      guard.entries.any fun entry => entry.1 == key then
    (securities.map fun guard => guard.remove key).filter
      fun guard => !guard.entries.isEmpty
  else securities

/-! ## What the processors and the realms see of the rows -/

def items (securities : List Guard) : List RealmSecurityVO :=
  securities.map SortedObject.values

def StoredEntry.config (entry : StoredEntry) : Entry where
  type := entry.type
  adaptorKey := entry.adaptorKey
  name := entry.name
  host := entry.host
  callgentId := entry.callgentId
  securities := items entry.securities

def StoredEndpoint.config (endpoint : StoredEndpoint) : Endpoint where
  id := endpoint.id
  method := endpoint.method
  path := endpoint.path
  entryId := endpoint.entryId
  adaptorKey := endpoint.adaptorKey
  securities := items endpoint.securities
  isAsync := endpoint.isAsync

def Tables.config (c : Tables) : Config.Tables where
  entries := c.entries.image StoredEntry.config
  realms := c.realms
  endpoints := c.endpoints.image StoredEndpoint.config

def onRealms (c : Tables)
    (service : Config.Tables -> Except Thrown Config.Tables) :
    Except Thrown Tables := do
  let next ← service c.config
  return { c with realms := next.realms }

/-! ## Callgents -/

structure CreateCallgentDto where
  name : Text
  avatar : Option Text
  summary : Option Text
  instruction : Option Text
  forkedPk : Option Nat

/-- A row of a callgent; the names of a tenant's callgents are distinct. -/
def insertCallgent (callgents : Table Text Callgent) (tenantPk : Int)
    (id : Text) (dto : CreateCallgentDto) :
    Except Thrown (Table Text Callgent) :=
  if callgents.rows.any fun row =>
      row.value.tenantPk == tenantPk && row.value.name == dto.name then
    .error uniqueConstraint
  else
    written uniqueConstraint (callgents.create id
      { tenantPk := tenantPk
        name := dto.name
        avatar := dto.avatar
        summary := dto.summary
        instruction := dto.instruction
        viewed := 0
        forked := 0
        forkedPk := dto.forkedPk })

/-! ## Entries -/

structure CreateEntryDto where
  callgentId : Text
  type : EntryType
  adaptorKey : Text
  name : Text
  summary : Option Text
  instruction : Option Text
  priority : Int
  host : Option Text
  initParams : Value
  content : Value
  securities : List Guard

structure UpdateEntryDto where
  name : Option Text
  summary : Option Text
  instruction : Option Text
  priority : Option Int
  host : Option Text
  initParams : Value
  content : Value

def foreignKeyConstraint : Thrown :=
  .plain "Foreign key constraint violated".toList

/-- An entry as it is stored; its name is its host if it has none. -/
def CreateEntryDto.stored (dto : CreateEntryDto) (host : Text) :
    StoredEntry where
  callgentId := dto.callgentId
  type := dto.type
  adaptorKey := dto.adaptorKey
  name := if dto.name.isEmpty then host else dto.name
  summary := dto.summary
  instruction := dto.instruction
  priority := dto.priority
  host := host
  initParams := dto.initParams
  content := dto.content
  securities := dto.securities

/-- `EntriesService.create`, with the id that is generated. -/
def createEntry (platform : Platform) (c : Tables) (id : Text)
    (dto : CreateEntryDto) : Except Thrown Tables := do
  let host ← preCreate platform id
    ⟨dto.type, dto.adaptorKey, dto.name, dto.host, dto.callgentId⟩
  let _ ← written foreignKeyConstraint (c.callgents.findUnique dto.callgentId)
  let entries ← written uniqueConstraint
    (c.entries.create id (dto.stored host))
  return { c with entries := entries }

def UpdateEntryDto.apply (dto : UpdateEntryDto) (entry : StoredEntry) :
    StoredEntry :=
  { entry with
    name := dto.name.getD entry.name
    summary := dto.summary.or entry.summary
    instruction := dto.instruction.or entry.instruction
    priority := dto.priority.getD entry.priority
    host := dto.host.getD entry.host
    initParams := dto.initParams.or entry.initParams
    content := dto.content.or entry.content }

def findEntry (c : Tables) (id : Text) : Except Thrown StoredEntryRow :=
  written recordNotFound (c.entries.findUnique id)

/-- `EntriesService.update`. -/
def updateEntry (c : Tables) (id : Text) (dto : UpdateEntryDto) :
    Except Thrown Tables := do
  let entry ← findEntry c id
  let entries ← written recordNotFound (c.entries.update entry.pk dto.apply)
  return { c with entries := entries }

def defaultEntry (callgentId adaptorKey : Text) : CreateEntryDto where
  callgentId := callgentId
  type := .client
  adaptorKey := adaptorKey
  name := []
  summary := none
  instruction := none
  priority := 0
  host := none
  initParams := none
  content := none
  securities := []

/-- `CallgentCreatedListener.handleEvent`: a callgent that is not forked gets
its default entries.  A primary key is not `0`. -/
def callgentCreated (platform : Platform) (c : Tables) (id : Text)
    (forkedPk : Option Nat) (restAPI email : Text) : Except Thrown Tables :=
  match forkedPk with
  | some _ => .ok c
  | none => do
      let c ← createEntry platform c restAPI
        (defaultEntry id "restAPI".toList)
      createEntry platform c email (defaultEntry id "Email".toList)

/-- `CallgentsService.create`, with the ids that are generated. -/
def createCallgent (platform : Platform) (c : Tables) (tenantPk : Int)
    (id : Text) (dto : CreateCallgentDto) (restAPI email : Text) :
    Except Thrown Tables := do
  let callgents ← insertCallgent c.callgents tenantPk id dto
  callgentCreated platform { c with callgents := callgents } id dto.forkedPk
    restAPI email

/-! ## Securities -/

/-- `{ ['' + sec.realmPk]: sec }`. -/
def constructGuard (platform : Platform) (c : Tables) (entry : StoredEntry)
    (form : SecurityForm) : Except Thrown Guard := do
  let row ← written (.notFound "Not found realm".toList)
    (c.realms.findUnique (entry.callgentId, form.realmKey))
  let sec ← constructSecurity platform entry.config row form.scopes
  return .singleton sec.realmPk sec

def findEndpoint (c : Tables) (id : Text) : Option StoredEndpointRow :=
  c.endpoints.rows.find? fun row => row.value.id == id

/-- `CallgentRealmsService.updateSecurities`. -/
def updateSecurities (platform : Platform) (c : Tables)
    (type : SecurityTarget) (id : Text) (forms : List SecurityForm) :
    Except Thrown Tables := do
  match type with
  | .entry =>
      let entry ← written (.notFound "Not found entry".toList)
        (c.entries.findUnique id)
      let securities ← forms.mapM (constructGuard platform c entry.value)
      let entries ← written recordNotFound (c.entries.update entry.pk
        fun entry => { entry with securities := securities })
      return { c with entries := entries }
  | .function =>
      let notFound := Thrown.notFound "Not found function".toList
      let endpoint ← written notFound (findEndpoint c id)
      let entry ← written notFound
        (endpoint.value.entryId.bind c.entries.findUnique)
      let securities ← forms.mapM (constructGuard platform c entry.value)
      let endpoints ← written recordNotFound (c.endpoints.update endpoint.pk
        fun endpoint => { endpoint with securities := securities })
      return { c with endpoints := endpoints }

/-- `CallgentRealmsService.delete`. -/
def deleteRealm (c : Tables) (callgentId realmKey : Text) :
    Except Thrown Tables := do
  let realm ← written recordNotFound
    (c.realms.findUnique (callgentId, realmKey))
  let realms ← written recordNotFound (c.realms.delete realm.pk)
  return { c with
    realms := realms
    entries := c.entries.mapValues fun _ entry =>
      if entry.callgentId = callgentId then
        { entry with securities := clearKey realm.pk entry.securities }
      else entry
    endpoints := c.endpoints.mapValues fun key endpoint =>
      if key.1 = callgentId then
        { endpoint with securities := clearKey realm.pk endpoint.securities }
      else endpoint }

end Hub
end CallgentApi
