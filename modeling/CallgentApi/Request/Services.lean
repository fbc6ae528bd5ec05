import CallgentApi.Invoke.Filing

/-!
# The services of a client request

The services whose functions the listeners of a client request name, and the
module reference that finds them.  Only the two that check the client and run
its task can ask to be resumed.
-/

namespace CallgentApi
namespace Request

open Js Event Realms Invoke Effect

variable {sigma : Type}

structure ClientAdaptor (sigma : Type) where
  /-- The request that replaces the raw one. -/
  preprocess : EventObject -> Option EntryDto -> Effect sigma Thrown Json

/-- What the other services of a request use: tables, adaptors and models. -/
structure RequestHost (sigma : Type) extends InvokeHost sigma where
  clientAdaptors : Text -> Option (ClientAdaptor sigma)
  loadHistories : Text -> Effect sigma Thrown Unit
  findEndpoints : Text -> Option Text -> Effect sigma Thrown (List EndpointDto)
  generatePages : EventObject -> Effect sigma Thrown Json
  mapRequestArgs : EventObject -> EndpointDto -> Effect sigma Thrown Value
  generateScript : EventObject -> List EndpointDto -> Effect sigma Thrown Json
  installScriptFiles : List Text -> Json -> Effect sigma Thrown Unit

/-! ## The listeners before the script runner -/

def preprocessClientRequest (host : RequestHost sigma) :
    Action sigma (Option Returned) := do
  let reqEvent ← Action.getEvent
  match host.clientAdaptors reqEvent.dataType with
  | none =>
      throw (Thrown.plain ("Invalid adaptor ".toList ++ reqEvent.dataType ++
        " from cep ".toList ++ reqEvent.srcId))
  | some adaptor =>
      let entry ← Action.outside (host.findEntry reqEvent.srcId)
      let req ← Action.outside (adaptor.preprocess reqEvent entry)
      Action.modifyContext fun context => { context with req := req }
      return none

/-- The histories are kept beside the fields that are stored. -/
def loadClientEventHistories (host : RequestHost sigma) :
    Action sigma (Option Returned) := do
  let reqEvent ← Action.getEvent
  if reqEvent.taskId.isEmpty then return none
  else
    Action.outside (host.loadHistories reqEvent.taskId)
    return none

def loadEndpoints (host : RequestHost sigma) :
    Action sigma (Option Returned) := do
  let reqEvent ← Action.getEvent
  let callgentId := reqEvent.context.callgentId
  let epName := reqEvent.context.epName
  let eps ← Action.outside (host.findEndpoints callgentId epName)
  if eps.isEmpty then
    throw (Thrown.notFound ("No service endpoints found for callgent#".toList ++
      callgentId ++
      ((truthy epName).map fun name => " name=".toList ++ name).getD []))
  else
    Action.modifyContext fun context => { context with endpoints := some eps }
    return none

/-- The propagation is stopped before the pages are generated. -/
def genWebpages (host : RequestHost sigma) : Action sigma (Option Returned) := do
  modify fun s => { s with event := { s.event with stopPropagation := true } }
  let reqEvent ← Action.getEvent
  let resp ← Action.outside (host.generatePages reqEvent)
  Action.modifyContext fun context => { context with resp := some resp }
  return some ⟨none⟩

/-- `_map2Endpoint`: the arguments of the requested endpoint. -/
def mapEndpoint (host : RequestHost sigma) (reqEvent : EventObject)
    (endpoints : List EndpointDto) (epName : Text) :
    Action sigma Map2Endpoints :=
  match endpoints.find? fun e => e.name == epName with
  | none =>
      throw (Thrown.notFound ("map2Endpoint not found of name:".toList ++ epName))
  | some endpoint => do
      let requestArgs ← Action.outside (host.mapRequestArgs reqEvent endpoint)
      return ⟨requestArgs⟩

/-- `_map2Endpoints`: a script is generated and put into the task directory;
no arguments are mapped. -/
def mapScript (host : RequestHost sigma) (kind : ObjectKind)
    (reqEvent : EventObject) (endpoints : List EndpointDto) :
    Action sigma Map2Endpoints := do
  let scripts ← Action.outside (host.generateScript reqEvent endpoints)
  match getTaskCwd kind reqEvent host.uploadBaseDir with
  | .error e => throw e
  | .ok cwd =>
      Action.outside (host.installScriptFiles cwd scripts)
      return ⟨none⟩

def mapRequest (host : RequestHost sigma) (kind : ObjectKind)
    (reqEvent : EventObject) (endpoints : List EndpointDto) :
    Action sigma Map2Endpoints :=
  match truthy reqEvent.context.epName with
  | some epName => mapEndpoint host reqEvent endpoints epName
  | none => mapScript host kind reqEvent endpoints

def map2Endpoints (host : RequestHost sigma) (kind : ObjectKind) :
    Action sigma (Option Returned) := do
  let reqEvent ← Action.getEvent
  match reqEvent.context.endpoints.getD [] with
  | [] =>
      throw (Thrown.notFound
        ("No endpoints for mapping, ClientRequestEvent#".toList ++ reqEvent.id))
  | first :: rest =>
      let mapped ← mapRequest host kind reqEvent (first :: rest)
      Action.modifyContext fun context =>
        { context with map2Endpoints := some mapped }
      return none

/-! ## The module reference -/

def requestServices (host : RequestHost sigma) (kind : ObjectKind) :
    List (Text × Service sigma) :=
  [("EntriesService".toList,
      serviceOf [("preprocessClientRequest".toList,
        preprocessClientRequest host)]),
    ("CallgentRealmsService".toList, callgentRealmsService host.toRepository),
    ("EventStoresService".toList,
      serviceOf [("loadClientEventHistories".toList,
        loadClientEventHistories host)]),
    ("EndpointsService".toList,
      serviceOf [("loadEndpoints".toList, loadEndpoints host)]),
    ("WebpageService".toList,
      serviceOf [("genWebpages".toList, genWebpages host)]),
    ("ScriptAgentService".toList,
      serviceOf [("map2Endpoints".toList, map2Endpoints host kind)]),
    ("ScriptRunnerAgent".toList, scriptRunnerAgent host.toInvokeHost kind)]

/-- `moduleRef.get`. -/
def requestModules (host : RequestHost sigma) (kind : ObjectKind) :
    ModuleRef sigma :=
  fun serviceName =>
    match (requestServices host kind).lookup serviceName with
    | some service => .ok (some service)
    | none =>
        .error (.plain ("Nest could not find ".toList ++ serviceName ++
          " element".toList))

/-! ## What the services do to the invocations of a request -/

/-- The function files no invocation that a key could name. -/
def Quiet (x : Action sigma (Option Returned)) : Prop :=
  forall other, '-' ∉ other -> forall s, '|' ∉ commandPrefix s.event ->
    entry other s = none -> entry other (x.exec s).2 = none

theorem quiet_of_keeps {x : Action sigma (Option Returned)}
    (h : Keeps (fun s => s.event.context.invocations) x) : Quiet x :=
  fun other _ s _ hnone =>
    (congrArg (fun inv => inv.entries other) (h s)).trans hnone

theorem quiet_of_kept {x : Action sigma (Option Returned)}
    (h : Keeps CallState.kept x) : Quiet x :=
  quiet_of_keeps (h.comp Kept.invocations)

theorem quiet_preprocessClientRequest (host : RequestHost sigma) :
    Quiet (preprocessClientRequest host) := by
  refine quiet_of_kept (Keeps.bind kept_getEvent fun reqEvent => ?_)
  split
  · exact Keeps.throw _
  · refine Keeps.bind (kept_outside _) fun entry => ?_
    refine Keeps.bind (kept_outside _) fun req => ?_
    refine Keeps.bind (kept_modifyContext (fun _ => rfl) fun _ => rfl) ?_
    exact fun _ => Keeps.pure _

theorem quiet_loadClientEventHistories (host : RequestHost sigma) :
    Quiet (loadClientEventHistories host) := by
  refine quiet_of_kept (Keeps.bind kept_getEvent fun reqEvent => ?_)
  split
  · exact Keeps.pure _
  · exact Keeps.bind (kept_outside _) fun _ => Keeps.pure _

theorem quiet_loadEndpoints (host : RequestHost sigma) :
    Quiet (loadEndpoints host) := by
  refine quiet_of_kept (Keeps.bind kept_getEvent fun reqEvent => ?_)
  refine Keeps.bind (kept_outside _) fun eps => ?_
  split
  · exact Keeps.throw _
  · refine Keeps.bind (kept_modifyContext (fun _ => rfl) fun _ => rfl) ?_
    exact fun _ => Keeps.pure _

theorem quiet_genWebpages (host : RequestHost sigma) :
    Quiet (genWebpages host) := by
  refine quiet_of_keeps (Keeps.bind (fun _ => rfl) fun _ => ?_)
  refine Keeps.bind (fun _ => rfl) fun reqEvent => ?_
  refine Keeps.bind (fun _ => rfl) fun resp => ?_
  exact Keeps.bind (fun _ => rfl) fun _ => Keeps.pure _

theorem kept_mapRequest (host : RequestHost sigma) (kind : ObjectKind)
    (reqEvent : EventObject) (endpoints : List EndpointDto) :
    Keeps CallState.kept (mapRequest host kind reqEvent endpoints) := by
  unfold mapRequest
  split
  · unfold mapEndpoint
    split
    · exact Keeps.throw _
    · exact Keeps.bind (kept_outside _) fun _ => Keeps.pure _
  · refine Keeps.bind (kept_outside _) fun scripts => ?_
    split
    · exact Keeps.throw _
    · exact Keeps.bind (kept_outside _) fun _ => Keeps.pure _

theorem quiet_map2Endpoints (host : RequestHost sigma) (kind : ObjectKind) :
    Quiet (map2Endpoints host kind) := by
  refine quiet_of_kept (Keeps.bind kept_getEvent fun reqEvent => ?_)
  split
  · exact Keeps.throw _
  · refine Keeps.bind (kept_mapRequest host kind reqEvent _) fun mapped => ?_
    refine Keeps.bind (kept_modifyContext (fun _ => rfl) fun _ => rfl) ?_
    exact fun _ => Keeps.pure _

theorem quiet_runAndFixCallback {host : InvokeHost sigma}
    (hprotocol : host.FollowsProtocol) (kind : ObjectKind) :
    Quiet (runAndFixCallback host kind) :=
  fun _ hother _ hseparable hnone =>
    (entry_runAndFixCallback hprotocol kind hother hseparable
      (Or.inl hnone)).trans hnone

/-- The function a listener of a client request can be called by. -/
inductive Known (host : RequestHost sigma) (kind : ObjectKind)
    (serviceName funName : Text) (fn : ServiceFun sigma) : Prop where
  | quiet (x : Action sigma (Option Returned)) (hfn : fn = x.toServiceFun)
      (hquiet : Quiet x)
  | runAndFix (hservice : serviceName = "ScriptRunnerAgent".toList)
      (hfun : funName = "runAndFix".toList)
      (hfn : fn = (Invoke.runAndFix host.toInvokeHost kind).toServiceFun)

theorem known_of_quiet {host : RequestHost sigma} {kind : ObjectKind}
    {serviceName funName : Text} {fn : ServiceFun sigma}
    {functions : List (Text × Action sigma (Option Returned))}
    (hquiet : forall entry, entry ∈ functions -> Quiet entry.2)
    (h : serviceOf functions funName = some fn) :
    Known host kind serviceName funName fn := by
  rcases serviceOf_eq_some h with ⟨x, hmem, hfn⟩
  exact .quiet x hfn (hquiet (funName, x) hmem)

theorem quiet_realms (repo : Repository sigma) :
    forall entry, entry ∈ [("checkCenAuth".toList, checkCenAuth repo),
        ("postAcquireSecret".toList, postAcquireSecret repo),
        ("postExchangeToken".toList, postExchangeToken repo),
        (postValidateTokenName, postValidateToken repo)] ->
      Quiet entry.2 := by
  intro entry hmem
  simp only [List.mem_cons, List.not_mem_nil, or_false] at hmem
  rcases hmem with rfl | rfl | rfl | rfl
  · exact quiet_of_kept (kept_checkCenAuth repo)
  · exact quiet_of_kept (kept_delegate repo fun _ realm hkeeping =>
      hkeeping.postAcquireSecret realm)
  · exact quiet_of_kept (kept_delegate repo fun _ realm hkeeping =>
      hkeeping.postExchangeToken realm)
  · exact quiet_of_kept (kept_delegate repo fun _ realm hkeeping =>
      hkeeping.postValidateToken realm)

theorem known_of_scriptRunner {host : RequestHost sigma} {kind : ObjectKind}
    (hprotocol : host.FollowsProtocol) {funName : Text} {fn : ServiceFun sigma}
    (h : scriptRunnerAgent host.toInvokeHost kind funName = some fn) :
    Known host kind "ScriptRunnerAgent".toList funName fn := by
  rcases serviceOf_eq_some h with ⟨x, hmem, hfn⟩
  simp only [List.mem_cons, List.not_mem_nil, or_false, Prod.mk.injEq] at hmem
  rcases hmem with ⟨hfun, rfl⟩ | ⟨rfl, rfl⟩
  · exact .runAndFix rfl hfun hfn
  · exact .quiet _ hfn (quiet_runAndFixCallback hprotocol kind)

theorem quiet_single {name : Text} {x : Action sigma (Option Returned)}
    (h : Quiet x) : forall entry, entry ∈ [(name, x)] -> Quiet entry.2 := by
  intro entry hmem
  rw [List.mem_singleton.mp hmem]
  exact h

theorem known_of_modules {host : RequestHost sigma} {kind : ObjectKind}
    (hprotocol : host.FollowsProtocol) {serviceName funName : Text}
    {service : Service sigma} {fn : ServiceFun sigma}
    (hservice : requestModules host kind serviceName = .ok (some service))
    (hfn : service funName = some fn) :
    Known host kind serviceName funName fn := by
  unfold requestModules at hservice
  split at hservice
  · rename_i found hlookup
    have hfound : found = service := Option.some.inj (Except.ok.inj hservice)
    have hmem := mem_of_lookup hlookup
    rw [hfound] at hmem
    simp only [requestServices, List.mem_cons, List.not_mem_nil, or_false,
      Prod.mk.injEq] at hmem
    rcases hmem with ⟨rfl, rfl⟩ | ⟨rfl, rfl⟩ | ⟨rfl, rfl⟩ | ⟨rfl, rfl⟩ |
      ⟨rfl, rfl⟩ | ⟨rfl, rfl⟩ | ⟨rfl, rfl⟩
    · exact known_of_quiet
        (quiet_single (quiet_preprocessClientRequest host)) hfn
    · exact known_of_quiet (quiet_realms host.toRepository) hfn
    · exact known_of_quiet
        (quiet_single (quiet_loadClientEventHistories host)) hfn
    · exact known_of_quiet
        (quiet_single (quiet_loadEndpoints host)) hfn
    · exact known_of_quiet
        (quiet_single (quiet_genWebpages host)) hfn
    · exact known_of_quiet
        (quiet_single (quiet_map2Endpoints host kind)) hfn
    · exact known_of_scriptRunner hprotocol hfn
  · cases hservice

end Request
end CallgentApi
