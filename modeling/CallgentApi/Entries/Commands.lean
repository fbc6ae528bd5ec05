import CallgentApi.Config.Import
import CallgentApi.Entries.Forwarded
import CallgentApi.Entries.Wire

/-!
# What a command sends

A command of a task script names an endpoint and its arguments.  The adaptor is
given both, and sends the request of the client that the event has come with.
-/

namespace CallgentApi
namespace Entries

open Js Event Realms Invoke Effect Url Config

variable {tau : Type}

/-! ## The request that a command asks for -/

/-- An endpoint of a REST entry as it is stored, under its method and path. -/
structure Operation where
  endpoint : EndpointDto
  /-- A piece in braces stands for the parameter of that name. -/
  path : Text
  name_eq : endpoint.name = formalApiName endpoint.method path

/-- `args.parameters`. -/
def parametersOf (args : Value) : List (Text × Json) :=
  match args.bind fun v => v.field "parameters".toList with
  | some (.obj fields) => fields
  | _ => []

/-- `args.requestBody`. -/
def requestBodyOf (args : Value) : Value :=
  args.bind fun v => v.field "requestBody".toList

def inBraces (name : Text) : Text :=
  '{' :: name ++ ['}']

def fillPiece (parameters : List (Text × Json)) (piece : Text) : Text :=
  match parameters.find? fun p => inBraces p.1 == piece with
  | some p => encodeURIComponent p.2.display
  | none => piece

def fillPath (path : Text) (parameters : List (Text × Json)) : Text :=
  join '/' ((path.splitOn '/').map (fillPiece parameters))

/-- The parts of a request that say what is called. -/
structure Parts where
  method : Value
  url : Value
  params : Value
  data : Value
  headers : List (Text × Value)

def relativePath (rules : UrlRules) (url : Value) : Option Text :=
  match url with
  | some (.str url) => if rules.isAbsolute url then none else some (path url)
  | _ => none

def cookiesSent (headers : List (Text × Value)) : List (Text × Text) :=
  match headerSent headers "cookie".toList with
  | some (.str text) => cookies text
  | _ => []

def HasParameter (template : Text) (parts : Parts) (p : Text × Json) : Prop :=
  inBraces p.1 ∈ template.splitOn '/' ∨
    InQuery parts.url parts.params p.1 p.2.display ∨
    parts.params.bind (fun v => v.field p.1) = some p.2 ∨
    headerSent parts.headers p.1 = some p.2 ∨
    (p.1, encodeURIComponent p.2.display) ∈ cookiesSent parts.headers

/-- The request calls the operation with the arguments. -/
structure Calls (rules : UrlRules) (o : Operation) (args : Value)
    (parts : Parts) : Prop where
  method : exists method, parts.method = some (.str method) ∧
    toUpperCase method = toUpperCase o.endpoint.method
  path : relativePath rules parts.url =
    some (fillPath o.path (parametersOf args))
  parameters : forall p, p ∈ parametersOf args -> HasParameter o.path parts p
  requestBody : forall body, requestBodyOf args = some body ->
    parts.data = some body

def AxiosConfig.parts (config : AxiosConfig) : Parts where
  method := config.method
  url := config.url
  params := config.params
  data := config.data
  headers := config.headers

structure Issues (rules : UrlRules) (rows : Rows) (o : Operation)
    (args : Value) (config : AxiosConfig) : Prop where
  host : (rows.entries o.endpoint.entryId).map EntryDto.host =
    some config.baseURL
  calls : Calls rules o args config.parts

/-! ## The request that the client has made -/

def invocationOf (epName : Text) (args : Value) (invokeId : Text) :
    InvokeStatus where
  invokeId := invokeId
  epName := some epName
  args := args
  response := none
  processor := none
  cacheKey := none
  cacheTtl := none

def sentHeaders (req : Json) : List (Text × Value) :=
  setEntry (setEntry (spread (req.field "headers".toList)) "host".toList none)
    "content-length".toList none

def authorized (rows : Rows) (endpoint : EndpointDto) (req : Json) : Json :=
  match attachEach req (((passing rows endpoint).getD []).map
    Attachment.secret) with
  | .ok req => req
  | .error _ => req

/-- What the client itself has asked for; only the headers get secrets of the
endpoint. -/
def partsAsked (rows : Rows) (endpoint : EndpointDto) (req : Json) :
    Parts where
  method := req.field "method".toList
  url := req.field "url".toList
  params := req.field "params".toList
  data := req.field "data".toList
  headers := sentHeaders (authorized rows endpoint req)

/-- The client has made the request that the command asks for, and the first
endpoint of the name is at the same host. -/
structure AsksFor (rules : UrlRules) (rows : Rows) (o : Operation)
    (args : Value) (event : EventObject) (endpoint : EndpointDto) :
    Prop where
  host : (rows.entries o.endpoint.entryId).map EntryDto.host =
    (rows.entries endpoint.entryId).map EntryDto.host
  calls : Calls rules o args (partsAsked rows endpoint event.context.req)

theorem requestConfig_eq_ok {sen : Option EntryDto} {event : EventObject}
    {config : AxiosConfig} (h : requestConfig sen event = .ok config) :
    exists entry, sen = some entry ∧
      config = axiosConfig event.context.req entry
        event.context.securityItem := by
  unfold requestConfig at h
  split at h
  · cases h
  · cases h
  · rename_i entry _
    exact ⟨entry, rfl, (Except.ok.inj h).symm⟩

section Command

variable {axios : AxiosConfig -> Effect tau Thrown AxiosResponse}
  {host : InvokeHost tau} {rows : Rows} {rules : UrlRules}

theorem ownAttachments_of_fresh {status : InvokeStatus}
    (hfresh : status.processor = none) (rows : Rows)
    (endpoint : EndpointDto) :
    ownAttachments rows status endpoint = passing rows endpoint := by
  have henters : entersCheck status = true := by
    unfold entersCheck startedAt
    rw [hfresh]
    exact beq_self_eq_true _
  have hfun : checkFun status = "checkSepAuth".toList := by
    unfold checkFun
    rw [hfresh]
    rfl
  unfold ownAttachments
  rw [if_pos henters, if_pos hfun]

theorem parts_of_invoked {status : InvokeStatus} {endpoint : EndpointDto}
    (hfresh : status.processor = none) {attached : List Attachment}
    {s s' : CallState (Wire tau)} {config : AxiosConfig}
    (hown : ownAttachments rows status endpoint = some attached)
    (hreq : attachEach s.event.context.req (attached.map Attachment.secret) =
      .ok s'.event.context.req)
    (hconfig : requestConfig (rows.entries endpoint.entryId) s'.event =
      .ok config) :
    config.parts = partsAsked rows endpoint s.event.context.req ∧
      (rows.entries endpoint.entryId).map EntryDto.host =
        some config.baseURL := by
  rcases requestConfig_eq_ok hconfig with ⟨entry, hentry, rfl⟩
  rw [ownAttachments_of_fresh hfresh] at hown
  have hauthorized : authorized rows endpoint s.event.context.req =
      s'.event.context.req := by
    unfold authorized
    rw [hown, Option.getD_some, hreq]
  have hfield : forall key, key ≠ "headers".toList -> key ≠ "query".toList ->
      s'.event.context.req.field key = s.event.context.req.field key :=
    fun key => field_attachEach hreq
  constructor
  · unfold AxiosConfig.parts axiosConfig partsAsked
    rw [hauthorized, hfield "url".toList (by decide) (by decide),
      hfield "method".toList (by decide) (by decide),
      hfield "params".toList (by decide) (by decide),
      hfield "data".toList (by decide) (by decide)]
    rfl
  · rw [hentry]
    rfl

/-- The request that is issued for a command is the one that it asks for
exactly if the client has made this request itself. -/
theorem issued_iff (h : host.Holds rows) (o : Operation) (args : Value)
    (invokeId : Text) (s : CallState (Wire tau)) {sending : Sending}
    (hsent : ((chain (onWire axios host).toChainHost
      (invocationOf o.endpoint.name args invokeId)).exec
        s).2.world.outside.sent = s.world.outside.sent ++ [sending]) :
    Issues rules rows o args sending.config <->
      exists endpoint,
        endpointOf s.event (invocationOf o.endpoint.name args invokeId) =
          some endpoint ∧
        AsksFor rules rows o args s.event endpoint := by
  have hinvoked : Invoked rows (invocationOf o.endpoint.name args invokeId)
      _ s ((chain (onWire axios host).toChainHost
        (invocationOf o.endpoint.name args invokeId)).exec s).2 :=
    invoked_chain h
  rcases hinvoked.sent with hnone |
    ⟨endpoint, config, hendpoint, hown, hconfig, hone⟩
  · have hlength := congrArg List.length (hnone.symm.trans hsent)
    rw [List.length_append, List.length_singleton] at hlength
    omega
  · have hsending : sending = ⟨endpoint, config⟩ := by
      have hcons := List.append_cancel_left (hsent.symm.trans hone)
      exact (List.cons.inj hcons).left
    rcases parts_of_invoked rfl hown hinvoked.req hconfig with
      ⟨hparts, hhost⟩
    rw [hsending, hendpoint]
    constructor
    · intro hissues
      refine ⟨endpoint, rfl, ?_, ?_⟩
      · exact hissues.host.trans hhost.symm
      · rw [← hparts]
        exact hissues.calls
    · intro hasked
      rcases hasked with ⟨found, hfound, hasks⟩
      cases hfound
      constructor
      · exact hasks.host.trans hhost
      · rw [hparts]
        exact hasks.calls

end Command

/-! ## Commands for the pets -/

def petHost : InvokeHost Unit where
  findEntry := fun _ => return some petServer
  findRealm := fun _ => return none
  findFirstUserIdentity := fun _ _ => return none
  serverAdaptors := fun _ => none
  fromCached := fun _ _ _ => return ⟨none, none, none⟩
  toCache := fun _ _ _ _ => return ()
  updateCache := fun _ _ _ => return ()
  uploadBaseDir := "upload".toList
  spawnOrRestore := fun _ _ _ => return ⟨[], .ok (some 0)⟩
  freezeProcess := fun _ => return ()
  parseJson := fun text => .ok (.str text)

def petRows : Rows where
  entries := fun _ => some petServer
  realms := fun _ => none

theorem holds_petHost : petHost.Holds petRows where
  findEntry := fun _ => Returns.pure rfl
  findRealm := fun _ => Returns.pure rfl

def petAxios (_ : AxiosConfig) : Effect Unit Thrown AxiosResponse :=
  return { data := none, headers := [], status := 200, statusText := "OK".toList }

def petOperation (method path : String) : Operation where
  endpoint :=
    { id := (method ++ path).toList
      name := formalApiName method.toList path.toList
      method := method.toList
      callgentId := "pets".toList
      adaptorKey := restAPIKey
      entryId := "sen1".toList
      securities := []
      isAsync := false
      cacheKey := none
      cacheTtl := none }
  path := path.toList
  name_eq := rfl

def petSearch : Json :=
  .obj [("url".toList, .str "/list".toList), ("method".toList, .str "GET".toList),
    ("headers".toList, .obj []),
    ("params".toList, .obj [("name".toList, .str "Tom".toList)])]

def petCommandState : CallState (Wire Unit) where
  event :=
    let event := withReq petState.event petSearch
    { event with
        context :=
          { event.context with
              endpoints := some [(petOperation "GET" "/list").endpoint,
                (petOperation "DELETE" "/pet/{id}").endpoint] } }
  world := ⟨none, ⟨[], ()⟩⟩
  subprocess := []

def petArgs (name value : String) : Value :=
  some (.obj [("parameters".toList,
    .obj [(name.toList, .str value.toList)])])

def petSent (o : Operation) (args : Value) : List Sending :=
  ((chain (onWire petAxios petHost).toChainHost
    (invocationOf o.endpoint.name args [])).exec
      petCommandState).2.world.outside.sent

/-- The command for what the client has asked itself. -/
theorem issued_petSearch :
    exists sending,
      petSent (petOperation "GET" "/list") (petArgs "name" "Tom") =
        [sending] ∧
      Issues plainRules petRows (petOperation "GET" "/list")
        (petArgs "name" "Tom") sending.config := by
  have hsent : ((chain (onWire petAxios petHost).toChainHost
      (invocationOf (petOperation "GET" "/list").endpoint.name
        (petArgs "name" "Tom") [])).exec
          petCommandState).2.world.outside.sent =
      petCommandState.world.outside.sent ++ [_] := rfl
  refine ⟨_, hsent, (issued_iff holds_petHost (petOperation "GET" "/list")
    (petArgs "name" "Tom") [] petCommandState hsent).mpr ⟨_, rfl, rfl, ?_⟩⟩
  constructor
  · exact ⟨_, rfl, rfl⟩
  · decide
  · intro p hp
    rw [List.mem_singleton.mp hp]
    exact Or.inr (Or.inr (Or.inl rfl))
  · intro body hbody
    cases hbody

/-- The command to delete a pet lists the pets once more. -/
theorem not_issued_petDelete :
    exists sending,
      petSent (petOperation "DELETE" "/pet/{id}") (petArgs "id" "7") =
        [sending] ∧
      sending.config.method = some (.str "GET".toList) ∧
      sending.config.url = some (.str "/list".toList) ∧
      ¬ Issues plainRules petRows (petOperation "DELETE" "/pet/{id}")
        (petArgs "id" "7") sending.config := by
  refine ⟨_, rfl, rfl, rfl, ?_⟩
  intro hissues
  rcases hissues.calls.method with ⟨method, hmethod, hupper⟩
  cases hmethod
  revert hupper
  decide

end Entries
end CallgentApi
