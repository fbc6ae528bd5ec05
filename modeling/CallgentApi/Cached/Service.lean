import CallgentApi.Lib.Table
import CallgentApi.Invoke.Key
import CallgentApi.Invoke.Chain

/-!
# The cache of service responses

A row is found by its endpoint and cache key.  The response of an asynchronous
endpoint is cached while it is pending: requests that find it become observers
of the row and are resumed once the response has come.
-/

namespace CallgentApi
namespace Cached

open Js Event Realms Invoke Effect

variable {tau : Type}

/-- The columns of a row besides its keys; the time is in milliseconds. -/
structure CachedData where
  sourceId : Text
  response : PendingOrResponse
  /-- Invoke keys: invokeId-eventId. -/
  invokeKeys : List Text
  createdAt : Nat

structure CachedKey where
  sepId : Text
  cacheKey : Text
deriving DecidableEq

abbrev CachedRow := TableRow CachedKey CachedData

abbrev CachedTable := Table CachedKey CachedData

/-- What a JSON column keeps of a response: a property that is `undefined` is
not written. -/
def column (response : PendingOrResponse) : PendingOrResponse :=
  { response with data := response.value.map some }

@[simp] theorem value_column (response : PendingOrResponse) :
    (column response).value = response.value := by
  unfold column PendingOrResponse.value
  cases response.data with
  | none => rfl
  | some data =>
      cases data with
      | none => rfl
      | some json => rfl

/-- What the service uses, besides the cache, and what the chain does. -/
structure Backend (tau : Type) extends Repository tau where
  serverAdaptors : Text -> Option (ServerAdaptor tau)
  /-- `Date.now()`. -/
  now : tau -> Nat
  /-- The cache key that a function text computes; it may be none. -/
  evalKey : Text -> EndpointDto -> EventObject -> Option (Option Text)

/-- The table, the calls of `resume` that its service has made, and the rest
of what lies outside. -/
structure CachedWorld (tau : Type) where
  cached : CachedTable
  resumed : List (Text × Value)
  outside : tau

/-! ## Operations of the database -/

/-- An error of the database client, by its code. -/
def databaseError (code : Text) : Thrown :=
  .plain code

def uniqueConstraint : Thrown :=
  databaseError "P2002".toList

def recordNotFound : Thrown :=
  databaseError "P2025".toList

def findOne (cacheKey sepId : Text) :
    Effect (CachedWorld tau) Thrown (Option CachedRow) := do
  return (← get).cached.findUnique ⟨sepId, cacheKey⟩

def write (e : Thrown) (op : CachedTable -> Option CachedTable) :
    Effect (CachedWorld tau) Thrown Unit := do
  let w ← get
  match op w.cached with
  | none => throw e
  | some cached => modify fun w => { w with cached := cached }

def addObserver (pk : Nat) (invokeKey : Text) :
    Effect (CachedWorld tau) Thrown Unit :=
  write recordNotFound fun t => t.update pk fun data =>
    { data with invokeKeys := data.invokeKeys ++ [invokeKey] }

def update (pk : Nat) (response : PendingOrResponse) :
    Effect (CachedWorld tau) Thrown Unit :=
  write recordNotFound fun t => t.update pk fun data =>
    { data with response := column response }

def delete (pk : Nat) : Effect (CachedWorld tau) Thrown Unit :=
  write recordNotFound fun t => t.delete pk

/-! ## The configuration of an endpoint -/

/-- What follows `function (` in a text. -/
def afterFunction (t : Text) : Option Text :=
  if (t.take 8).map Char.toLower = "function".toList then
    match (t.drop 8).dropWhile isSpace with
    | '(' :: rest => some rest
    | _ => none
  else none

/-- What follows `(..) =>` in a text. -/
def afterArrow (t : Text) : Option Text :=
  match t with
  | '(' :: rest =>
      match rest.dropWhile (· != ')') with
      | ')' :: tail =>
          match tail.dropWhile isSpace with
          | '=' :: '>' :: body => some body
          | _ => none
      | _ => none
  | _ => none

/-- `cacheKey.search(/^(function\s*\(|\([^\)]*\)\s*=>).+/i) == 0`. -/
def isFunctionText (t : Text) : Bool :=
  match (afterFunction t).orElse fun _ => afterArrow t with
  | some (c :: _) => !isLineEnd c
  | _ => false

def invalidCacheKey (endpoint : EndpointDto) (cacheKey : Text) : Thrown :=
  .badRequest ("Invalid cacheKey for callgent#".toList ++
    endpoint.callgentId ++ ", endpoint#".toList ++ endpoint.id ++
    ": ".toList ++ cacheKey)

def getCacheKey (b : Backend tau) (endpoint : EndpointDto)
    (reqEvent : EventObject) : Except Thrown (Option Text) :=
  match truthy (endpoint.cacheKey.map trim) with
  | none =>
      .ok (if endpoint.method = "GET".toList then some endpoint.name else none)
  | some cacheKey =>
      if isFunctionText cacheKey then
        match b.evalKey cacheKey endpoint reqEvent with
        | none => .error (invalidCacheKey endpoint cacheKey)
        | some key => .ok key
      else .ok (some cacheKey)

/-- `_loadCacheConfig`: the key, and the time to live if the endpoint has
one. -/
def loadCacheConfig (b : Backend tau) (endpoint : EndpointDto)
    (reqEvent : EventObject) : Except Thrown (Option (Text × Option Nat)) :=
  if endpoint.cacheTtl.any (· < 0) then .ok none
  else
    match getCacheKey b endpoint reqEvent with
    | .error e => .error e
    | .ok cacheKey =>
        .ok ((truthy cacheKey).map fun key =>
          (key, endpoint.cacheTtl.map Int.toNat))

/-- `cacheKey && (endpoint.isAsync || cacheTtl > 0)`. -/
def reallyCache (cacheKey : Option Text) (cacheTtl : Option Nat)
    (endpoint : EndpointDto) : Bool :=
  (truthy cacheKey).isSome && (endpoint.isAsync || 0 < cacheTtl.getD 0)

/-! ## The service -/

/-- Whether a row is older than its time to live; without one, whether it is
not pending any more. -/
def isExpired (row : CachedRow) (cacheTtl : Option Nat)
    (endpoint : EndpointDto) (now : Nat) : Bool :=
  if cacheTtl.getD 0 ≠ 0 then
    row.value.createdAt + cacheTtl.getD 0 * 1000 < now
  else if endpoint.isAsync then row.value.response.statusCode ≠ some 2
  else true

/-- A request that finds a pending row of an asynchronous endpoint observes
it. -/
def observe (row : CachedRow) (endpoint : EndpointDto) (invokeKey : Text) :
    Effect (CachedWorld tau) Thrown Unit :=
  if endpoint.isAsync ∧ row.value.response.statusCode = some 2 then
    addObserver row.pk invokeKey
  else return ()

def fromCached (b : Backend tau) (invokeId : Text) (endpoint : EndpointDto)
    (reqEvent : EventObject) :
    Effect (CachedWorld tau) Thrown CachedLookup :=
  match loadCacheConfig b endpoint reqEvent with
  | .error e => throw e
  | .ok none => return ⟨none, none, none⟩
  | .ok (some (cacheKey, cacheTtl)) =>
      if reallyCache (some cacheKey) cacheTtl endpoint then do
        match ← findOne cacheKey endpoint.id with
        | none => return ⟨some cacheKey, cacheTtl, none⟩
        | some row =>
            let w ← get
            if isExpired row cacheTtl endpoint (b.now w.outside) then
              delete row.pk
              return ⟨some cacheKey, cacheTtl, none⟩
            else
              observe row endpoint (observerKey invokeId reqEvent.id)
              return ⟨some cacheKey, cacheTtl, some row.value.response⟩
      else return ⟨some cacheKey, cacheTtl, none⟩

def newData (now : Nat) (response : PendingOrResponse)
    (reqEvent : EventObject) : CachedData where
  sourceId := reqEvent.id
  response := column response
  invokeKeys := []
  createdAt := now

/-- `toCache`; a response that is missing is refused by the database client. -/
def toCache (b : Backend tau) (ctx : InvokeStatus)
    (response : Option PendingOrResponse) (endpoint : EndpointDto)
    (reqEvent : EventObject) : Effect (CachedWorld tau) Thrown Bool :=
  match truthy ctx.cacheKey with
  | none => return false
  | some cacheKey =>
      if reallyCache ctx.cacheKey ctx.cacheTtl endpoint then
        match response with
        | none => throw (databaseError "Argument is missing".toList)
        | some response => do
            let w ← get
            write uniqueConstraint fun t =>
              t.create ⟨endpoint.id, cacheKey⟩
                (newData (b.now w.outside) response reqEvent)
            return true
      else return false

/-- `_group`: chunks of the keys, as many as the distinct ones fill. -/
def group (eventIds : List Text) (chunkSize : Nat) : List (List Text) :=
  (List.range ((eventIds.dedup.length + (chunkSize - 1)) / chunkSize)).map
    fun i => (eventIds.drop (i * chunkSize)).take chunkSize

/-- The keys that `notifyObservers` resumes. -/
def notifiedKeys (invokeKeys : List Text) : List Text :=
  (group invokeKeys 3).flatten

/-- `notifyObservers`, of a row as it was read. -/
def notifyObservers (invokeKeys : List Text) (response : PendingOrResponse) :
    Effect (CachedWorld tau) Thrown Unit :=
  modify fun w =>
    { w with resumed :=
        w.resumed ++
          (notifiedKeys invokeKeys).map fun key => (key, response.value) }

def updateCache (response : Option PendingOrResponse) (ctx : InvokeStatus)
    (endpoint : EndpointDto) : Effect (CachedWorld tau) Thrown Bool :=
  match truthy ctx.cacheKey with
  | none => return false
  | some cacheKey =>
      if reallyCache ctx.cacheKey ctx.cacheTtl endpoint then do
        match ← findOne cacheKey endpoint.id with
        | none => return false
        | some row =>
            match response with
            -- nothing is written, and nobody is notified of `undefined.data`
            | none => return true
            | some response =>
                update row.pk response
                notifyObservers row.value.invokeKeys response
                return true
      else return false

/-! ## The chain with this cache -/

/-- A computation on what lies outside the cache. -/
def atOutside {a : Type} (x : Effect tau Thrown a) :
    Effect (CachedWorld tau) Thrown a :=
  x.zoom CachedWorld.outside fun w next => { w with outside := next }

def adaptorAtOutside (adaptor : ServerAdaptor tau) :
    ServerAdaptor (CachedWorld tau) where
  invoke := fun endpoint args sentry reqEvent ctx =>
    atOutside (adaptor.invoke endpoint args sentry reqEvent ctx)
  postprocess := fun resp reqEvent endpoint ctx =>
    atOutside (adaptor.postprocess resp reqEvent endpoint ctx)

def Backend.chainHost (b : Backend tau) : ChainHost (CachedWorld tau) where
  findEntry := fun id => atOutside (b.findEntry id)
  findRealm := fun pk => atOutside (b.findRealm pk)
  findFirstUserIdentity := fun userId provider =>
    atOutside (b.findFirstUserIdentity userId provider)
  serverAdaptors := fun key => (b.serverAdaptors key).map adaptorAtOutside
  fromCached := fromCached b
  toCache := fun ctx response endpoint reqEvent => do
    let _ ← toCache b ctx response endpoint reqEvent
  updateCache := fun response ctx endpoint => do
    let _ ← updateCache response ctx endpoint

end Cached
end CallgentApi
