import CallgentApi.Realms.Service

/-!
# The invocation chain

A service endpoint is invoked through a chain of processors.  The chain keeps
its place in the invocation: the processor that runs next, or none once the
chain has ended.  A callback enters the chain again at that place.
-/

namespace CallgentApi
namespace Invoke

open Js Event Realms

variable {sigma : Type}

/-- `{ statusCode?, message?, data? }`; `data` is missing when the object has
no such property. -/
structure PendingOrResponse where
  statusCode : Option Int
  message : Option Text
  data : Option Value

namespace PendingOrResponse

def ofData (data : Value) : PendingOrResponse where
  statusCode := none
  message := none
  data := some data

def pending : PendingOrResponse where
  statusCode := some 2
  message := none
  data := none

/-- `resp?.statusCode == 2`. -/
def isPending (resp : Option PendingOrResponse) : Bool :=
  (resp.bind statusCode) == some 2

/-- `resp.data`. -/
def value (resp : PendingOrResponse) : Value :=
  resp.data.getD none

end PendingOrResponse

structure CachedLookup where
  cacheKey : Option Text
  cacheTtl : Option Nat
  response : Option PendingOrResponse

structure ServerAdaptor (sigma : Type) where
  invoke : EndpointDto -> Value -> Option EntryDto -> EventObject ->
    InvokeStatus -> Effect sigma Thrown (Option PendingOrResponse)
  postprocess : Value -> EventObject -> EndpointDto -> InvokeStatus ->
    Effect sigma Thrown Value

/-- What the chain uses besides the realms: the adaptors and the cache. -/
structure ChainHost (sigma : Type) extends Repository sigma where
  serverAdaptors : Text -> Option (ServerAdaptor sigma)
  fromCached : Text -> EndpointDto -> EventObject ->
    Effect sigma Thrown CachedLookup
  toCache : InvokeStatus -> Option PendingOrResponse -> EndpointDto ->
    EventObject -> Effect sigma Thrown Unit
  updateCache : Option PendingOrResponse -> InvokeStatus -> EndpointDto ->
    Effect sigma Thrown Unit

/-- `ctx.processor`, which the chain has set before a processor runs. -/
def withProcessor (ctx : InvokeStatus)
    (f : ProcessorState -> ProcessorState) : InvokeStatus :=
  { ctx with processor := ctx.processor.map f }

/-- `break(ctx, current)`: the chain is left; it is entered again at the
current processor or at the next one. -/
def break_ (ctx : InvokeStatus) (current : Bool) : InvokeStatus :=
  withProcessor ctx fun p => { p with breakCurrent := some current }

/-- `end(ctx)`: the whole chain is left for good. -/
def end_ (ctx : InvokeStatus) : InvokeStatus :=
  withProcessor ctx fun p => { p with name := none }

/-- A processor's name and its `_process`, which also returns the invocation
as it has left it. -/
structure SepProcessor (sigma : Type) where
  getName : Text
  body : InvokeStatus -> EndpointDto -> Option PendingOrResponse ->
    Action sigma (InvokeStatus × Option PendingOrResponse)

/-- The bookkeeping of `process` after the body: where the chain goes on, and
whether it stops now. -/
def advance (nextProcessor : Option Text) (p : ProcessorState) :
    ProcessorState × Bool :=
  let name :=
    if p.breakCurrent ≠ some true ∧ (truthy p.name).isSome then nextProcessor
    else p.name
  ({ p with name := name, breakCurrent := none },
    (truthy name).isNone || p.breakCurrent.isSome)

structure Processed where
  ctx : InvokeStatus
  data : Option PendingOrResponse
  stop : Bool

def SepProcessor.process (self : SepProcessor sigma) (ctx : InvokeStatus)
    (endpoint : EndpointDto) (nextProcessor : Option Text)
    (preData : Option PendingOrResponse) : Action sigma Processed := do
  let (ctx, data) ← self.body ctx endpoint preData
  match ctx.processor with
  | none => throw (Thrown.readUndefined "breakCurrent".toList)
  | some p =>
      let (p, stop) := advance nextProcessor p
      return { ctx := { ctx with processor := some p }, data := data, stop := stop }

/-! ## The processors -/

/-- `this.callgentRealmsService[name].call(service, endpoint, reqEvent)`.  The
functions that a check is resumed with take the event first: they are given
the endpoint, which has no context. -/
def callRealms (repo : Repository sigma) (funName : Text)
    (endpoint : EndpointDto) : Action sigma (Option Returned) :=
  if funName = "checkSepAuth".toList then checkSepAuth repo endpoint
  else if funName = "postAcquireSecret".toList ∨
      funName = "postExchangeToken".toList ∨ funName = postValidateTokenName then
    throw (Thrown.readUndefined "securityItem".toList)
  else throw (Thrown.readUndefined "call".toList)

def sepAuthProcessor (host : ChainHost sigma) : SepProcessor sigma where
  getName := "InvokeAuth".toList
  body ctx endpoint _ := do
    let funName :=
      (truthy (ctx.processor.bind ProcessorState.ctx)).getD
        "checkSepAuth".toList
    let r ← callRealms host.toRepository funName endpoint
    match truthy (r.bind Returned.resumeFunName) with
    | none => return (ctx, none)
    | some resumeFunName =>
        let ctx := withProcessor ctx fun p => { p with ctx := some resumeFunName }
        return (break_ ctx true, some .pending)

/-- `cacheKey && Object.assign(ctx, { cacheKey, cacheTtl })`. -/
def withCacheKey (ctx : InvokeStatus) (cached : CachedLookup) : InvokeStatus :=
  if (truthy cached.cacheKey).isSome then
    { ctx with cacheKey := cached.cacheKey, cacheTtl := cached.cacheTtl }
  else ctx

def sepCachedProcessor (host : ChainHost sigma) : SepProcessor sigma where
  getName := "InvokeCached".toList
  body ctx endpoint _ := do
    let reqEvent ← Action.getEvent
    let cached ← Action.outside (host.fromCached ctx.invokeId endpoint reqEvent)
    match cached.response with
    | none => return (withCacheKey ctx cached, none)
    -- the chain ends, even with a pending response
    | some response => return (end_ (withCacheKey ctx cached), some response)

def sepInvokeProcessor (host : ChainHost sigma) : SepProcessor sigma where
  getName := "InvokeSep".toList
  body ctx endpoint _ := do
    let reqEvent ← Action.getEvent
    let sentry ← Action.outside (host.findEntry endpoint.entryId)
    match host.serverAdaptors endpoint.adaptorKey with
    | none => throw (Thrown.readUndefined "invoke".toList)
    | some adaptor =>
        let data ← Action.outside
          (adaptor.invoke endpoint ctx.args sentry reqEvent ctx)
        return (ctx, data)

/-- The one body of `InvokePostprocess` and `CallbackPostprocess`. -/
def postprocess (host : ChainHost sigma) (ctx : InvokeStatus)
    (endpoint : EndpointDto) (preData : Option PendingOrResponse) :
    Action sigma (InvokeStatus × Option PendingOrResponse) := do
  match preData with
  | none =>
      throw (Thrown.typeError
        "Cannot destructure property 'data' of 'preData' as it is undefined.".toList)
  | some resp =>
      -- an asynchronous response is postprocessed after the callback
      if resp.statusCode = some 2 then return (ctx, some resp)
      else
        let reqEvent ← Action.getEvent
        match host.serverAdaptors endpoint.adaptorKey with
        | none => throw (Thrown.readUndefined "postprocess".toList)
        | some adaptor =>
            let data ← Action.outside
              (adaptor.postprocess resp.value reqEvent endpoint ctx)
            return (ctx, some (.ofData data))

def sepPostprocessProcessor (host : ChainHost sigma) : SepProcessor sigma where
  getName := "InvokePostprocess".toList
  body := postprocess host

def sepCacheProcessor (host : ChainHost sigma) : SepProcessor sigma where
  getName := "InvokeCache".toList
  body ctx endpoint preData := do
    -- only an asynchronous invocation goes on, after the callback
    let ctx :=
      if PendingOrResponse.isPending preData then break_ ctx false else end_ ctx
    let reqEvent ← Action.getEvent
    Action.outside (host.toCache ctx preData endpoint reqEvent)
    return (ctx, preData)

def sepCallbackPostprocessProcessor (host : ChainHost sigma) :
    SepProcessor sigma where
  getName := "CallbackPostprocess".toList
  body := postprocess host

def sepCallbackProcessor (host : ChainHost sigma) : SepProcessor sigma where
  getName := "InvokeCallback".toList
  body ctx endpoint preData := do
    Action.outside (host.updateCache preData ctx endpoint)
    return (ctx, preData)

/-- `INVOKE_CHAIN_LIST`. -/
def processors (host : ChainHost sigma) : List (SepProcessor sigma) :=
  [sepAuthProcessor host, sepCachedProcessor host, sepInvokeProcessor host,
    sepPostprocessProcessor host, sepCacheProcessor host,
    sepCallbackPostprocessProcessor host, sepCallbackProcessor host]

/-! ## The chain -/

/-- An invocation that has not begun starts with the processor at hand. -/
def startedAt (status : InvokeStatus) (name : Text) : InvokeStatus :=
  match status.processor with
  | none => { status with processor := some ⟨some name, none, none⟩ }
  | some _ => status

def isAt (status : InvokeStatus) (name : Text) : Bool :=
  status.processor.bind ProcessorState.name == some name

/-- The loop over the processors; `none` when it runs off the end. -/
def runChain (endpoint : EndpointDto) :
    List (SepProcessor sigma) -> InvokeStatus -> Option PendingOrResponse ->
      Action sigma (InvokeStatus × Option PendingOrResponse)
  | [], status, _ => return (status, none)
  | p :: rest, status, preData =>
      if isAt (startedAt status p.getName) p.getName then do
        let next := rest.head?.map SepProcessor.getName
        let r ← p.process (startedAt status p.getName) endpoint next preData
        if r.stop then return (r.ctx, r.data)
        else runChain endpoint rest r.ctx r.data
      else runChain endpoint rest (startedAt status p.getName) preData

def endpointNotFound (status : InvokeStatus) (reqEvent : EventObject) :
    Thrown :=
  .plain ("Endpoint not Found: ".toList ++ interpolate status.epName ++
    ", event.id=".toList ++ reqEvent.id)

/-- The chain is entered when it has not begun or not ended. -/
def chainOpen (status : InvokeStatus) : Bool :=
  match status.processor with
  | none => true
  | some p => (truthy p.name).isSome

/-- `chain`: the response and the invocation as the chain has left it. -/
def chain (host : ChainHost sigma) (status : InvokeStatus) :
    Action sigma (InvokeStatus × Option PendingOrResponse) := do
  let reqEvent ← Action.getEvent
  match reqEvent.context.endpoints with
  | none => throw (Thrown.readUndefined "find".toList)
  | some endpoints =>
      match endpoints.find? fun e => some e.name == status.epName with
      | none => throw (endpointNotFound status reqEvent)
      | some endpoint =>
          if chainOpen status then
            runChain endpoint (processors host) status
              (some (.ofData status.response))
          else return (status, some (.ofData status.response))

/-! ## What the chain leaves alone -/

open Effect

/-- A processor works on its invocation and leaves those of the request
alone. -/
def SepProcessor.Keeping (p : SepProcessor sigma) : Prop :=
  forall ctx endpoint preData,
    Keeps CallState.kept (p.body ctx endpoint preData)

theorem kept_callRealms (repo : Repository sigma) (funName : Text)
    (endpoint : EndpointDto) :
    Keeps CallState.kept (callRealms repo funName endpoint) := by
  unfold callRealms
  split
  · exact keeps_checkSepAuth (reads_kept repo) endpoint
  · split
    · exact Keeps.throw _
    · exact Keeps.throw _

theorem keeping_sepAuthProcessor (host : ChainHost sigma) :
    (sepAuthProcessor host).Keeping := by
  intro ctx endpoint preData
  refine Keeps.bind (kept_callRealms host.toRepository _ endpoint) fun r => ?_
  split
  · exact Keeps.pure _
  · exact Keeps.pure _

theorem keeping_sepCachedProcessor (host : ChainHost sigma) :
    (sepCachedProcessor host).Keeping := by
  intro ctx endpoint preData
  refine Keeps.bind kept_getEvent fun reqEvent => ?_
  refine Keeps.bind (kept_outside _) fun cached => ?_
  split
  · exact Keeps.pure _
  · exact Keeps.pure _

theorem keeping_sepInvokeProcessor (host : ChainHost sigma) :
    (sepInvokeProcessor host).Keeping := by
  intro ctx endpoint preData
  refine Keeps.bind kept_getEvent fun reqEvent => ?_
  refine Keeps.bind (kept_outside _) fun sentry => ?_
  split
  · exact Keeps.throw _
  · exact Keeps.bind (kept_outside _) fun data => Keeps.pure _

theorem kept_postprocess (host : ChainHost sigma) (ctx : InvokeStatus)
    (endpoint : EndpointDto) (preData : Option PendingOrResponse) :
    Keeps CallState.kept (postprocess host ctx endpoint preData) := by
  unfold postprocess
  split
  · exact Keeps.throw _
  · split
    · exact Keeps.pure _
    · refine Keeps.bind kept_getEvent fun reqEvent => ?_
      split
      · exact Keeps.throw _
      · exact Keeps.bind (kept_outside _) fun data => Keeps.pure _

theorem keeping_sepCacheProcessor (host : ChainHost sigma) :
    (sepCacheProcessor host).Keeping := by
  intro ctx endpoint preData
  refine Keeps.bind kept_getEvent fun reqEvent => ?_
  exact Keeps.bind (kept_outside _) fun _ => Keeps.pure _

theorem keeping_sepCallbackProcessor (host : ChainHost sigma) :
    (sepCallbackProcessor host).Keeping := by
  intro ctx endpoint preData
  exact Keeps.bind (kept_outside _) fun _ => Keeps.pure _

theorem keeping_processors (host : ChainHost sigma) :
    forall p, p ∈ processors host -> p.Keeping := by
  intro p hp
  simp only [processors, List.mem_cons, List.not_mem_nil, or_false] at hp
  rcases hp with rfl | rfl | rfl | rfl | rfl | rfl | rfl
  · exact keeping_sepAuthProcessor host
  · exact keeping_sepCachedProcessor host
  · exact keeping_sepInvokeProcessor host
  · exact kept_postprocess host
  · exact keeping_sepCacheProcessor host
  · exact kept_postprocess host
  · exact keeping_sepCallbackProcessor host

section Keeps

variable {t : Type} {f : CallState sigma -> t}

theorem keeps_process {p : SepProcessor sigma} {ctx : InvokeStatus}
    {endpoint : EndpointDto} {preData : Option PendingOrResponse}
    (h : Keeps f (p.body ctx endpoint preData)) (nextProcessor : Option Text) :
    Keeps f (p.process ctx endpoint nextProcessor preData) := by
  refine Keeps.bind h fun result => ?_
  rcases result with ⟨ctx, data⟩
  dsimp only
  split
  · exact Keeps.throw _
  · exact Keeps.pure _

theorem keeps_runChain {endpoint : EndpointDto}
    {ps : List (SepProcessor sigma)}
    (h : forall p, p ∈ ps -> forall ctx preData,
      Keeps f (p.body ctx endpoint preData))
    (status : InvokeStatus) (preData : Option PendingOrResponse) :
    Keeps f (runChain endpoint ps status preData) := by
  induction ps generalizing status preData with
  | nil => exact Keeps.pure _
  | cons p rest ih =>
      have hrest : forall q, q ∈ rest -> forall ctx preData,
          Keeps f (q.body ctx endpoint preData) :=
        fun q hq => h q (List.mem_cons_of_mem p hq)
      unfold runChain
      split
      · refine Keeps.bind
          (keeps_process (h p List.mem_cons_self _ _) _) fun r => ?_
        split
        · exact Keeps.pure _
        · exact ih hrest _ _
      · exact ih hrest _ _

end Keeps

theorem kept_runChain (endpoint : EndpointDto) {ps : List (SepProcessor sigma)}
    (h : forall p, p ∈ ps -> p.Keeping) (status : InvokeStatus)
    (preData : Option PendingOrResponse) :
    Keeps CallState.kept (runChain endpoint ps status preData) :=
  keeps_runChain (fun p hp ctx preData => h p hp ctx endpoint preData)
    status preData

theorem kept_chain (host : ChainHost sigma) (status : InvokeStatus) :
    Keeps CallState.kept (chain host status) := by
  refine Keeps.bind kept_getEvent fun reqEvent => ?_
  split
  · exact Keeps.throw _
  · split
    · exact Keeps.throw _
    · split
      · exact kept_runChain _ (keeping_processors host) _ _
      · exact Keeps.pure _

end Invoke
end CallgentApi
