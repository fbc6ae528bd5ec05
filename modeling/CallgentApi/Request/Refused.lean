import CallgentApi.Invoke.Callback
import CallgentApi.Request.Pending

/-!
# Pending requests that cannot be resumed

A check of the client that waits for its answer files no invocation, and a
script files its commands under ids that no key can name.  So a request can be
resumed only while it waits for the answer to a direct invocation.
-/

namespace CallgentApi
namespace Request

open Js Event Realms Invoke Effect Transition

variable {sigma : Type}

/-! ## What a call files -/

section Refused

variable {host : RequestHost sigma} {kind : ObjectKind}
  {listener : EventListener} {funName : Option Text} {event : EventObject}

/-- A request with separable lines and nothing filed that a key could name. -/
structure Between (event : EventObject) : Prop where
  separable : '|' ∉ commandPrefix event
  commands : CommandsBut none event.context.invocations

/-- A key can name nothing but the direct invocation the call asks for. -/
structure FilesOwn (call : Call) : Prop where
  commands : CommandsBut (some []) call.body.context.invocations
  asked : (call.body.context.invocations.entries []).isSome = true ->
    AsksDirectly call

theorem filesOwn_of_commands {call : Call}
    (h : CommandsBut none call.body.context.invocations) : FilesOwn call where
  commands := h.weaken _
  asked := by
    intro hfiled
    rw [h.entries_nil] at hfiled
    cases hfiled

theorem FilesOwn.between {call : Call} (h : FilesOwn call)
    (hnot : ¬ AsksDirectly call) :
    CommandsBut none call.body.context.invocations := by
  apply h.commands.of_entries_nil
  by_contra hne
  exact hnot (h.asked (Option.isSome_iff_ne_none.mpr hne))

theorem filesOwn_runAndFix (hprotocol : host.FollowsProtocol)
    (world : World sigma) (hevent : Between event)
    (htype : listener.serviceType = .service)
    (hservice : listener.serviceName = "ScriptRunnerAgent".toList)
    (hcalled : calledFun listener funName = "runAndFix".toList) :
    FilesOwn (Call.ofResult listener funName
      ((Invoke.runAndFix host.toInvokeHost kind).toServiceFun event
        world)) := by
  rw [ofResult_toServiceFun]
  cases hexec : (Invoke.runAndFix host.toInvokeHost kind).exec
      ⟨event, world, []⟩ with
  | mk result next =>
      rcases settings_of_runAndFix hexec with ⟨_, hepName⟩
      rcases commands_runAndFix hprotocol hexec hevent.separable
        hevent.commands with ⟨hcommands, hfiled⟩
      refine ⟨hcommands, fun hsome => ?_⟩
      rcases hfiled hsome with ⟨hdirect, hresult⟩
      refine ⟨htype, hservice, ?_, ?_, endingOf_eq_asked_iff.mpr hresult⟩
      · rw [calledFun_truthy]
        exact hcalled
      · change (truthy next.event.context.epName).isSome = true
        rw [hepName]
        exact hdirect

theorem filesOwn_invokeListener (hprotocol : host.FollowsProtocol)
    (listener : EventListener) (funName : Option Text) (world : World sigma)
    (hevent : Between event) :
    FilesOwn (Call.ofResult listener funName
      (invokeListener (requestModules host kind) listener event funName
        world)) := by
  unfold invokeListener
  cases htype : listener.serviceType with
  | callgent => exact filesOwn_of_commands hevent.commands
  | service =>
      have hthrew : forall e, FilesOwn (Call.ofResult listener funName
          (⟨event.toEventBody, .threw e, world⟩ : CallResult sigma)) :=
        fun e => filesOwn_of_commands hevent.commands
      dsimp only [invokeService]
      cases hmodule : requestModules host kind listener.serviceName with
      | error e => exact hthrew e
      | ok found =>
          cases found with
          | none => exact hthrew _
          | some service =>
              dsimp only
              cases hfn : service (calledFun listener funName) with
              | none => exact hthrew _
              | some fn =>
                  cases known_of_modules hprotocol hmodule hfn with
                  | quiet x hx hquiet =>
                      rw [hx, ofResult_toServiceFun]
                      apply filesOwn_of_commands
                      intro other hmem hne
                      exact hquiet other hmem _ hevent.separable
                        (hevent.commands other hmem hne)
                  | runAndFix hservice hcalled hx =>
                      rw [hx]
                      exact filesOwn_runAndFix hprotocol world hevent htype
                        hservice hcalled

/-- The script runner's callback of a reloaded request throws; an error that
has the status of a pending event leaves no invocation to resume with. -/
structure CallbackThrew (call : Call) (e : Thrown) : Prop where
  threw : call.ending = .threw e
  commands : CommandsBut (some []) call.body.context.invocations
  unfiled : e.statusCode = 2 ->
    call.body.context.invocations.entries [] = none

theorem callbackThrew (hprotocol : host.FollowsProtocol)
    (htype : listener.serviceType = .service)
    (hservice : listener.serviceName = "ScriptRunnerAgent".toList)
    (hseparable : '|' ∉ commandPrefix event)
    (hcommands : CommandsBut (some []) event.context.invocations)
    (world : World sigma) :
    exists e, CallbackThrew (Call.ofResult listener
      (some runAndFixCallbackName)
      (invokeListener (requestModules host .reloaded) listener event
        (some runAndFixCallbackName) (world.setInvokeId []))) e := by
  have hfn : scriptRunnerAgent host.toInvokeHost .reloaded
      (calledFun listener (some runAndFixCallbackName)) =
        some (runAndFixCallback host.toInvokeHost .reloaded).toServiceFun := rfl
  rw [invokeListener_scriptRunner _ htype hservice hfn, ofResult_toServiceFun]
  cases hexec : (runAndFixCallback host.toInvokeHost .reloaded).exec
      ⟨event, world.setInvokeId [], []⟩ with
  | mk result next =>
      rcases runAndFixCallback_reloaded_throws rfl hexec with
        ⟨e, rfl, hunfiled⟩
      refine ⟨e, rfl, ?_, hunfiled⟩
      intro other hother hne
      have hdiffers : (world.setInvokeId []).invokeId ≠ some other :=
        fun heq => hne heq.symm
      have hkept := @entry_runAndFixCallback sigma host.toInvokeHost hprotocol
        .reloaded other hother ⟨event, world.setInvokeId [], []⟩ hseparable
        (Or.inr hdiffers)
      rw [hexec] at hkept
      exact hkept.trans (hcommands other hother hne)

end Refused

theorem calls_of_threw {modules : ModuleRef sigma} {listener : EventListener}
    {rest : List EventListener} {idx : Nat} {event : EventObject}
    {funName : Option Text} {world : World sigma} {r : LoopResult sigma}
    (h : LoopRun modules (listener :: rest) idx event funName world r)
    {e : Thrown}
    (hthrew : (Call.ofResult listener funName
      (invokeListener modules listener event funName world)).ending =
        .threw e) :
    r.calls = [Call.ofResult listener funName
      (invokeListener modules listener event funName world)] := by
  cases h with
  | stop hresult hcall hnone =>
      rw [hresult, hcall]
  | pass hresult hcall hpassed hrest hrun =>
      rw [hresult, hcall] at hthrew
      have hreturned := hpassed.left.symm.trans hthrew
      cases hreturned

theorem callback_run {host : RequestHost sigma}
    (hprotocol : host.FollowsProtocol) {listener : EventListener}
    (htype : listener.serviceType = .service)
    (hservice : listener.serviceName = "ScriptRunnerAgent".toList)
    (rest : List EventListener) {event : EventObject} (world : World sigma)
    (store : EventStore) (hstop : event.stopPropagation = false)
    (hseparable : '|' ∉ commandPrefix event)
    (hcommands : CommandsBut (some []) event.context.invocations) :
    exists call e after, CallbackThrew call e ∧
      RunShape (listener :: rest) event (some runAndFixCallbackName) store
        (invokeListeners (requestModules host .reloaded) (listener :: rest)
          event (some runAndFixCallbackName) (world.setInvokeId []) store)
        [] call after := by
  have hne := List.cons_ne_nil listener rest
  have hrun := invokeListeners_run (requestModules host .reloaded)
    (some runAndFixCallbackName) (world.setInvokeId []) hne hstop
  rcases @callbackThrew sigma host listener (processing event) hprotocol htype
    hservice hseparable hcommands world with ⟨e, hthrew⟩
  have hcalls := calls_of_threw hrun hthrew.threw
  rcases invokeListeners_shape (requestModules host .reloaded)
    (some runAndFixCallbackName) (world.setInvokeId []) store hne hstop with
    ⟨passed, call, after, hshape⟩
  rcases List.append_inj' (show passed ++ [call] = [] ++ _ from
    hshape.calls_eq.symm.trans hcalls) rfl with ⟨rfl, hlast⟩
  rw [← (List.cons.inj hlast).left] at hthrew
  exact ⟨call, e, after, hthrew, hshape⟩

section Answered

variable {row : EventRow} (invocation : InvokeStatus) (response : Value)

@[simp] theorem answered_toEventHeader :
    (answered row invocation response).toEventHeader = row.toEventHeader :=
  rfl

theorem answered_going_on (h : row.stopPropagation = false) :
    (answered row invocation response).stopPropagation = false :=
  h

theorem answered_separable (h : '|' ∉ commandPrefix row.toEventObject) :
    '|' ∉ commandPrefix (answered row invocation response) :=
  h

theorem answered_commands
    (h : CommandsBut (some []) row.context.invocations) :
    CommandsBut (some [])
      (answered row invocation response).context.invocations := by
  intro other hother hne
  have hne' : other ≠ [] := fun heq => hne (congrArg some heq)
  exact (Invocations.entries_set_of_ne _ _ hne').trans (h other hother hne)

end Answered

/-- While a request is pending, a key can name nothing but the direct
invocation its last call has asked for. -/
structure Closed (row : EventRow) (last : Call) : Prop where
  commands : CommandsBut (some []) row.context.invocations
  asked : row.statusCode = some 2 ->
    (row.context.invocations.entries []).isSome = true -> AsksDirectly last

theorem closed_of_row {row : EventRow} {last : Call}
    (hcontext : row.context = last.body.context)
    (hstatus : row.statusCode = some last.finalStatus)
    (hcommands : CommandsBut (some []) last.body.context.invocations)
    (hasked : last.finalStatus = 2 ->
      (last.body.context.invocations.entries []).isSome = true ->
        AsksDirectly last) : Closed row last := by
  constructor
  · rw [hcontext]
    exact hcommands
  · intro hpending
    rw [hcontext]
    exact hasked (Option.some.inj (hstatus.symm.trans hpending))

section Closing

variable {host : RequestHost sigma} {table : ListenerTable}
  {header : EventHeader} {s t : RunState sigma} {row : EventRow} {last : Call}
  {invokeKey : Text}

theorem closed_emit (hprotocol : host.FollowsProtocol) {kind : ObjectKind}
    {order : Database} {data : EventObject} {world : World sigma}
    {store : EventStore} {result : RunResult sigma}
    (hnew : data.stopPropagation = false) (hbetween : Between data)
    (hemit : emit (requestModules host kind) table order data world store =
      .ok result) :
    exists row last,
      Tracked table data.toEventHeader (.after [] result) row last ∧
        Closed row last := by
  rcases emit_ok hemit with ⟨listeners, hne, hordered, rfl⟩
  rcases invokeListeners_shape (requestModules host kind) none world store hne
    hnew with ⟨passed, last, after, hshape⟩
  rcases tracked_of_run hshape hne hnew (fun l hl => hordered.mem_iff.mp hl)
    [] with ⟨row, htracked, hcontext, hstatus⟩
  have hfiles : FilesOwn last := by
    refine LoopRun.last_of_step ?_ (invokeListeners_run
      (requestModules host kind) none world hne hnew)
      (show Between (processing data) from
        ⟨hbetween.separable, hbetween.commands⟩) passed last hshape.calls_eq
    intro listener event funName world hevent
    have hcall := @filesOwn_invokeListener sigma host kind event hprotocol
      listener funName world hevent
    exact ⟨hcall, fun hpassed => ⟨hevent.separable,
      hcall.between (not_asksDirectly_of_passed hpassed.left)⟩⟩
  exact ⟨row, last, htracked, closed_of_row hcontext hstatus hfiles.commands
    fun _ => hfiles.asked⟩

theorem invokeId_eq_nil {inv : Invocations}
    (hcommands : CommandsBut (some []) inv) {invocation : InvokeStatus}
    (h : inv.entries (parseInvokeKey invokeKey).invokeId = some invocation) :
    (parseInvokeKey invokeKey).invokeId = [] := by
  by_contra hne
  have hnone := hcommands _ (not_mem_substring_zero_indexOf invokeKey '-')
    fun heq => hne (Option.some.inj heq)
  change inv.entries (parseInvokeKey invokeKey).invokeId = none at hnone
  rw [h] at hnone
  cases hnone

theorem asksDirectly_of_resume {modules : ModuleRef sigma}
    (h : Tracked table header s row last) (hclosed : Closed row last)
    (hkey : (parseInvokeKey invokeKey).eventId = header.id) {order : Database}
    {response : Value} {world : World sigma} {result : RunResult sigma}
    (hresume : resume modules table order invokeKey response world s.store =
      .ok result) :
    row.statusCode = some 2 ∧
      parseInvokeKey invokeKey = ⟨[], header.id⟩ ∧ AsksDirectly last := by
  rcases h.resumed hkey hresume with ⟨event, listeners, hresumed⟩
  rcases setCallbackResponse_ok hresumed.callback with
    ⟨invocation, hentry, _⟩
  have hnil := invokeId_eq_nil hclosed.commands hentry
  refine ⟨hresumed.pending, ?_, hclosed.asked hresumed.pending ?_⟩
  · rw [← hnil, ← hkey]
  · rw [hnil] at hentry
    exact Option.isSome_iff_exists.mpr ⟨invocation, hentry⟩

theorem refused_of_not_asksDirectly (modules : ModuleRef sigma)
    (h : Tracked table header s row last) (hclosed : Closed row last)
    (hnot : ¬ AsksDirectly last) : Refused modules table s.store row := by
  intro invokeKey hkey order response world
  have hid : row.id = header.id := congrArg EventHeader.id h.header_eq
  cases hresume : resume modules table order invokeKey response world
      s.store with
  | error e => exact ⟨e, rfl⟩
  | ok result =>
      have hresumed := asksDirectly_of_resume h hclosed
        (hkey.eventId_eq.trans hid) hresume
      exact absurd hresumed.right.right hnot

theorem closed_resume (hprotocol : host.FollowsProtocol)
    {request : ResumeRequest sigma} (h : Tracked table header s row last)
    (hclosed : Closed row last)
    (hseparable : '|' ∉ commandPrefix row.toEventObject)
    (hkey : (parseInvokeKey request.invokeKey).eventId = header.id)
    (hstep : resumeStep (requestModules host .reloaded) table s request =
      some t) :
    exists row last, Tracked table header t row last ∧ Closed row last := by
  rcases resumeStep_some hstep with ⟨result, hresume, rfl⟩
  rcases asksDirectly_of_resume h hclosed hkey hresume with
    ⟨hpending, hparsed, hasks⟩
  have hwaiting := h.waiting hasks
  rcases resume_of_waiting (requestModules host .reloaded) h hwaiting hpending
    hparsed request.order request.response (s.elapse request.elapse) with
    ⟨invocation, rest, hresume', hsubscribers⟩
  rcases callback_run hprotocol hasks.serviceType_eq hasks.serviceName_eq
    rest (s.elapse request.elapse) s.store
    (answered_going_on invocation request.response hwaiting.going_on)
    (answered_separable invocation request.response hseparable)
    (answered_commands invocation request.response hclosed.commands) with
    ⟨call, e, after, hthrew, hshape⟩
  rcases tracked_of_run hshape (List.cons_ne_nil _ _)
    (answered_going_on invocation request.response hwaiting.going_on)
    hsubscribers s.calls with ⟨row', htracked, hcontext, hstatus⟩
  rw [hresume'] at hresume
  rw [Except.ok.inj hresume, answered_toEventHeader, h.header_eq] at htracked
  refine ⟨row', call, htracked, closed_of_row hcontext hstatus hthrew.commands
    fun hfinal hfiled => ?_⟩
  have hunfiled := hthrew.unfiled (by
    simpa [Call.finalStatus, hthrew.threw] using hfinal)
  rw [hunfiled] at hfiled
  cases hfiled

end Closing

/-! ## A shop with the seeded listeners -/

def seedListener (id : Text) (hid : id ≠ []) (dataType serviceName
    funName : Text) (priority : Int) : EventListener where
  id := id
  id_ne_nil := hid
  srcId := star
  eventType := "CLIENT_REQUEST".toList
  dataType := dataType
  priority := some priority
  serviceType := .service
  serviceName := serviceName
  funName := funName
  deletedAt := 0

/-- `initEventListeners` of the seed. -/
def seedListeners : ListenerTable where
  rows :=
    [seedListener "CR-ADAPTOR-PREPROCESS".toList (by decide) star
        "EntriesService".toList "preprocessClientRequest".toList 0,
      seedListener "CR-CEN-AUTH".toList (by decide) star
        "CallgentRealmsService".toList "checkCenAuth".toList 100,
      seedListener "CR-LOAD-TARGET".toList (by decide) star
        "EventStoresService".toList "loadClientEventHistories".toList 200,
      seedListener "CR-LOAD-ENDPOINTS".toList (by decide) star
        "EndpointsService".toList "loadEndpoints".toList 300,
      seedListener "CR-GENERATE-WEBPAGE".toList (by decide) "Webpage".toList
        "WebpageService".toList "genWebpages".toList 400,
      seedListener "CR-MAP-2-ENDPOINTS".toList (by decide) star
        "ScriptAgentService".toList "map2Endpoints".toList 500,
      scriptRunner]
  ids_nodup := by decide +kernel

/-- The shop of the mail entry, without a guard. -/
def shopHost : RequestHost Unit :=
  { mailHost with
      clientAdaptors := fun _ =>
        some ⟨fun reqEvent _ => return reqEvent.context.req⟩
      loadHistories := fun _ => return ()
      findEndpoints := fun _ _ => return [petEndpoint]
      generatePages := fun _ => return .null
      mapRequestArgs := fun _ _ => return none
      generateScript := fun _ _ => return .null
      installScriptFiles := fun _ _ => return () }

def keyRealm : CallgentRealm where
  pk := 1
  callgentId := "c1".toList
  authType := "apiKey".toList
  enabled := true
  scheme :=
    { perUser := none
      validationUrl := some "auth.shop/check".toList
      name := some "key".toList
      in_ := some "header".toList }
  secret := "secret".toList

/-- The same shop with a guard whose key is checked by url. -/
def guardedHost : RequestHost Unit :=
  { shopHost with
      findEntry := fun id =>
        return some ⟨id, "pets@shop".toList, [[⟨1, none, none⟩]]⟩
      findRealm := fun _ => return some keyRealm }

theorem shop_followsProtocol : mailHost.FollowsProtocol := by
  intro cwd cmdPrefix message hseparable state session next hsession
  have hlines : session.lines =
      [Separator.record '|' cmdPrefix "x:-1".toList "{}".toList] := by
    cases hsession
    rfl
  have hbar : '|' ∉ "x".toList := by decide
  have hcolon : ':' ∉ "x".toList := by decide
  apply @followsProtocol_of_client session
    (Pipe.PipeClient.init cmdPrefix "x".toList) hseparable hbar hcolon
  intro msg hmsg
  rw [hlines] at hmsg
  exact ⟨0, "{}".toList, List.mem_singleton.mp hmsg⟩

def firstRun (host : RequestHost Unit) (epName : Option Text) :
    Except Thrown (RunResult Unit) :=
  emit (requestModules host .constructed) seedListeners .stored
    (petEvent epName) ⟨none, ()⟩ .empty

/-- The status and the resume function that are stored, and whether the last
call asks for the answer to a direct invocation. -/
def firstOutcome (host : RequestHost Unit) (epName : Option Text) :
    Option (Option Int × Option Text × Bool) :=
  (firstRun host epName).toOption.bind fun result =>
    result.calls.getLast?.bind fun last =>
      (result.store "e1".toList).map fun row =>
        (row.statusCode, row.funName, decide (AsksDirectly last))

theorem firstRun_of_outcome {host : RequestHost Unit} {epName : Option Text}
    {status : Option Int} {funName : Option Text} {asks : Bool}
    (h : firstOutcome host epName = some (status, funName, asks)) :
    exists result last row, firstRun host epName = .ok result ∧
      result.calls.getLast? = some last ∧
      result.store "e1".toList = some row ∧ row.statusCode = status ∧
      row.funName = funName ∧ decide (AsksDirectly last) = asks := by
  unfold firstOutcome at h
  cases hemit : firstRun host epName with
  | error e =>
      rw [hemit] at h
      cases h
  | ok result =>
      rw [hemit] at h
      change (result.calls.getLast?.bind _) = _ at h
      rcases Option.bind_eq_some_iff.mp h with ⟨last, hlast, hfound⟩
      rcases Option.map_eq_some_iff.mp hfound with ⟨row, hrow, hfields⟩
      cases hfields
      exact ⟨result, last, row, rfl, hlast, hrow, rfl, rfl, rfl⟩

theorem shopHost_outcome :
    firstOutcome shopHost (some petEndpoint.name) =
      some (some 2, some runAndFixCallbackName, true) := by
  decide +kernel

theorem guardedHost_outcome :
    firstOutcome guardedHost none =
      some (some 2, some postValidateTokenName, false) := by
  decide +kernel

theorem petEvent_separable : '|' ∉ commandPrefix (petEvent none) := by
  decide +kernel

/-! ## Every pending request -/

/-- The last call that was made for the request asks for the answer to a
direct invocation. -/
def LastAsksDirectly (s : RunState sigma) : Prop :=
  exists last, s.calls.getLast? = some last ∧ AsksDirectly last

section Reached

variable {host : RequestHost sigma} {table : ListenerTable} {order : Database}
  {data : EventObject} {world : World sigma} {store : EventStore}
  {result : RunResult sigma} {requests : List (ResumeRequest sigma)}
  {t : RunState sigma}

theorem steps_of_keys
    (hkeys : forall request, request ∈ requests ->
      IsKeyOf data.id request.invokeKey) (s : RunState sigma) :
    StepsMeet (resumeStep (requestModules host .reloaded) table)
      (fun _ request =>
        (parseInvokeKey request.invokeKey).eventId = data.id) s requests :=
  stepsMeet_of_forall (fun _ request hmem => (hkeys request hmem).eventId_eq) s

theorem tracked_reached (hnew : data.stopPropagation = false)
    (hemit : emit (requestModules host .constructed) table order data world
      store = .ok result)
    (hkeys : forall request, request ∈ requests ->
      IsKeyOf data.id request.invokeKey)
    (hrun : run (resumeStep (requestModules host .reloaded) table)
      (.after [] result) requests = some t) :
    exists row last, Tracked table data.toEventHeader t row last := by
  have hstep : forall s request s',
      (exists row last, Tracked table data.toEventHeader s row last) ->
      (parseInvokeKey request.invokeKey).eventId = data.id ->
      resumeStep (requestModules host .reloaded) table s request = some s' ->
      exists row last, Tracked table data.toEventHeader s' row last := by
    rintro s request s' ⟨row, last, htracked⟩ hkey hresumed
    exact tracked_resume htracked hkey hresumed
  exact run_invariant_of_meets hstep (tracked_emit hnew hemit)
    (steps_of_keys hkeys _) hrun

theorem closed_reached (hprotocol : host.FollowsProtocol)
    (hnew : data.stopPropagation = false) (hbetween : Between data)
    (hemit : emit (requestModules host .constructed) table order data world
      store = .ok result)
    (hkeys : forall request, request ∈ requests ->
      IsKeyOf data.id request.invokeKey)
    (hrun : run (resumeStep (requestModules host .reloaded) table)
      (.after [] result) requests = some t) :
    exists row last,
      Tracked table data.toEventHeader t row last ∧ Closed row last := by
  have hstep : forall s request s',
      (exists row last,
        Tracked table data.toEventHeader s row last ∧ Closed row last) ->
      (parseInvokeKey request.invokeKey).eventId = data.id ->
      resumeStep (requestModules host .reloaded) table s request = some s' ->
      exists row last,
        Tracked table data.toEventHeader s' row last ∧ Closed row last := by
    rintro s request s' ⟨row, last, htracked, hclosed⟩ hkey hresumed
    have hseparable : '|' ∉ commandPrefix row.toEventObject := by
      rw [commandPrefix_congr htracked.header_eq]
      exact hbetween.separable
    exact closed_resume hprotocol htracked hclosed hseparable hkey hresumed
  exact run_invariant_of_meets hstep
    (closed_emit hprotocol hnew hbetween hemit) (steps_of_keys hkeys _) hrun

/-- An event that a run has left pending can be resumed if its last call asked
for the answer to a direct invocation.  Any other one is refused, as long as
the commands of the subprocesses are those of the pipe. -/
theorem pending_resumable_or_refused {row : EventRow}
    (hnew : data.stopPropagation = false)
    (hempty : data.context.invocations = .empty)
    (hemit : emit (requestModules host .constructed) table order data world
      store = .ok result)
    (hkeys : forall request, request ∈ requests ->
      IsKeyOf data.id request.invokeKey)
    (hrun : run (resumeStep (requestModules host .reloaded) table)
      (.after [] result) requests = some t)
    (hrow : t.store data.id = some row) (hpending : row.statusCode = some 2) :
    (LastAsksDirectly t ->
      Resumable (requestModules host .reloaded) table t.store row) ∧
    (host.FollowsProtocol -> '|' ∉ commandPrefix data ->
      ¬ LastAsksDirectly t ->
        Refused (requestModules host .reloaded) table t.store row) := by
  constructor
  · rintro ⟨last, hlast, hasks⟩
    rcases tracked_reached hnew hemit hkeys hrun with
      ⟨row', last', htracked⟩
    have hrow' := htracked.row_eq.symm.trans hrow
    have hlast' := htracked.last_eq.symm.trans hlast
    rw [Option.some.inj hrow', Option.some.inj hlast'] at htracked
    exact resumable_of_asksDirectly htracked hpending hasks
  · intro hprotocol hseparable hnot
    have hcommands : CommandsBut none data.context.invocations := by
      rw [hempty]
      exact fun _ _ _ => rfl
    rcases closed_reached hprotocol hnew ⟨hseparable, hcommands⟩ hemit hkeys
      hrun with ⟨row', last, htracked, hclosed⟩
    have hrow' := htracked.row_eq.symm.trans hrow
    rw [Option.some.inj hrow'] at htracked hclosed
    exact refused_of_not_asksDirectly _ htracked hclosed fun hasks =>
      hnot ⟨last, htracked.last_eq, hasks⟩

end Reached

/-- The request for the pets is resumable, the one whose client is being
checked is refused. -/
theorem pending_resumable_or_refused_pets :
    (exists result row,
      firstRun shopHost (some petEndpoint.name) = .ok result ∧
      result.store "e1".toList = some row ∧
      Resumable (requestModules shopHost .reloaded) seedListeners result.store
        row) ∧
    exists result row,
      firstRun guardedHost none = .ok result ∧
      result.store "e1".toList = some row ∧
      Refused (requestModules guardedHost .reloaded) seedListeners result.store
        row := by
  have hkeys : forall request : ResumeRequest Unit, request ∈ [] ->
      IsKeyOf "e1".toList request.invokeKey :=
    fun _ hmem => absurd hmem List.not_mem_nil
  constructor
  · rcases firstRun_of_outcome shopHost_outcome with
      ⟨result, last, row, hemit, hlast, hrow, hpending, _, hasks⟩
    have hboth := pending_resumable_or_refused rfl rfl hemit hkeys rfl hrow
      hpending
    exact ⟨result, row, hemit, hrow,
      hboth.left ⟨last, hlast, of_decide_eq_true hasks⟩⟩
  · rcases firstRun_of_outcome guardedHost_outcome with
      ⟨result, last, row, hemit, hlast, hrow, hpending, _, hasks⟩
    have hboth := pending_resumable_or_refused rfl rfl hemit hkeys rfl hrow
      hpending
    have hnot : ¬ LastAsksDirectly (.after [] result) := by
      rintro ⟨last', hlast', hasks'⟩
      have heq : last = last' := Option.some.inj (hlast.symm.trans hlast')
      exact of_decide_eq_false hasks (heq ▸ hasks')
    exact ⟨result, row, hemit, hrow,
      hboth.right shop_followsProtocol petEvent_separable hnot⟩

/-- A request whose client is being checked is pending, and no key resumes
it. -/
theorem guarded_request_not_resumable :
    exists result row, firstRun guardedHost none = .ok result ∧
      result.store "e1".toList = some row ∧ row.statusCode = some 2 ∧
      row.funName = some postValidateTokenName ∧
      ¬ Resumable (requestModules guardedHost .reloaded) seedListeners
        result.store row := by
  rcases firstRun_of_outcome guardedHost_outcome with
    ⟨result, last, row, hemit, hlast, hrow, hpending, hfunName, hasks⟩
  refine ⟨result, row, hemit, hrow, hpending, hfunName, ?_⟩
  rcases closed_emit shop_followsProtocol rfl
    ⟨petEvent_separable, fun _ _ _ => rfl⟩ hemit with
    ⟨row', last', htracked, hclosed⟩
  have hrow' := htracked.row_eq.symm.trans hrow
  have hlast' := htracked.last_eq.symm.trans hlast
  rw [Option.some.inj hrow', Option.some.inj hlast'] at htracked hclosed
  have hrefused := refused_of_not_asksDirectly
    (requestModules guardedHost .reloaded) htracked hclosed
    (of_decide_eq_false hasks)
  exact not_resumable_of_refused hrefused ⟨none, ()⟩

end Request
end CallgentApi
