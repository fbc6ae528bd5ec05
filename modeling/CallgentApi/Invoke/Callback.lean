import CallgentApi.Event.Loop
import CallgentApi.Invoke.Filing

/-!
# Callbacks of a reloaded event

A pending event is stored, read back as a plain record and handed to
`runAndFixCallback`.  After a direct invocation the callback returns nothing to
the result handler, which reads a status from it; a script's subprocess is
restored through a method of the event, which a record does not have.
-/

namespace CallgentApi
namespace Invoke

open Js Event Pipe Effect

variable {sigma : Type}

def noMethod : Thrown :=
  .typeError "reqEvent.getTaskCwd is not a function".toList

theorem chainStart_of_filed {invokeId : Text} {invocation : InvokeStatus}
    {s : CallState sigma} (hid : s.world.invokeId = some invokeId)
    (hentry : entry invokeId s = some invocation) (epName : Option Text)
    (args : Value) :
    chainStart epName args invokeId s = (invocation, s) := by
  unfold chainStart
  rw [hentry]
  have hworld : ({ s.world with invokeId := some invokeId } : World sigma) =
      s.world := by
    rw [← hid]
  rw [hworld]

theorem exec_invokeSEP_of_filed {invokeId : Text} {invocation : InvokeStatus}
    {s : CallState sigma} (hid : s.world.invokeId = some invokeId)
    (hentry : entry invokeId s = some invocation) (host : InvokeHost sigma) :
    (invokeSEP host none none (some invokeId)).exec s =
      match (chain host.toChainHost invocation).exec s with
      | (.ok (status, resp), next) =>
          (.ok resp, settle invokeId (some (status, resp)) next)
      | (.error e, next) => (.error e, settle invokeId none next) := by
  have hexec := exec_invokeSEP host none none (some invokeId) s
  rw [Option.getD_some, chainStart_of_filed hid hentry] at hexec
  exact hexec

theorem exec_invokeSEPsCallback {invokeId : Text} {invocation : InvokeStatus}
    {s : CallState sigma} (hid : s.world.invokeId = some invokeId)
    (hentry : entry invokeId s = some invocation) (host : InvokeHost sigma)
    (kind : ObjectKind) :
    (invokeSEPsCallback host kind).exec s =
      (invokeSEP host none none (some invokeId) >>=
        afterCallback host kind invokeId).exec s := by
  unfold entry at hentry
  unfold invokeSEPsCallback
  rw [exec_bind_of_ok (exec_get s), hid]
  dsimp only
  rw [hentry]

theorem exec_spawnOrRestoreSubprocess_reloaded (host : InvokeHost sigma)
    (response : Value) (invokeId : Text) (s : CallState sigma) :
    (spawnOrRestoreSubprocess host .reloaded response invokeId).exec s =
      (.error noMethod, s) := by
  unfold spawnOrRestoreSubprocess
  rw [exec_bind_of_ok (exec_getEvent s)]
  rfl

theorem exec_afterCallback_reloaded (host : InvokeHost sigma) (invokeId : Text)
    {resp : PendingOrResponse}
    (hdone : PendingOrResponse.isPending (some resp) = false)
    (s : CallState sigma) :
    (afterCallback host .reloaded invokeId (some resp)).exec s =
      if (truthy s.event.context.epName).isSome then
        (.ok none,
          { s with event :=
              { s.event with context :=
                  { s.event.context with resp := resp.value } } })
      else (.error noMethod, s) := by
  have hdata : (callbackData invokeId (some resp) : Action sigma Value).exec s =
      (.ok resp.value, s) := by
    simp only [callbackData, hdone, Bool.false_eq_true, if_false, exec_pure]
  unfold afterCallback
  rw [exec_bind_of_ok hdata, exec_bind_of_ok (exec_getEvent s)]
  split
  · rfl
  · exact exec_bind_of_error
      (exec_spawnOrRestoreSubprocess_reloaded host resp.value invokeId s) _

theorem exec_callbackData_error {invokeId : Text}
    {response : Option PendingOrResponse}
    (h : response = none ∨ PendingOrResponse.isPending response = true)
    (s : CallState sigma) :
    exists e, (callbackData invokeId response : Action sigma Value).exec s =
      (.error e, s) ∧ e.statusCode = -1 := by
  unfold callbackData
  by_cases hpending : PendingOrResponse.isPending response = true
  · rw [if_pos hpending]
    exact ⟨_, rfl, rfl⟩
  · rw [if_neg hpending]
    cases response with
    | none => exact ⟨_, rfl, rfl⟩
    | some resp =>
        rcases h with hnone | hpending'
        · cases hnone
        · exact absurd hpending' hpending

theorem exec_afterCallback_cases (host : InvokeHost sigma) (invokeId : Text)
    (response : Option PendingOrResponse) (s : CallState sigma) :
    (exists next,
      (afterCallback host .reloaded invokeId response).exec s =
        (.ok none, next)) ∨
    exists e,
      (afterCallback host .reloaded invokeId response).exec s =
        (.error e, s) ∧ e.statusCode = -1 := by
  by_cases hdata : response = none ∨
      PendingOrResponse.isPending response = true
  · rcases @exec_callbackData_error sigma invokeId response hdata s with
      ⟨e, herror, hstatus⟩
    exact Or.inr ⟨e, exec_bind_of_error herror _, hstatus⟩
  · rw [not_or] at hdata
    rcases Option.ne_none_iff_exists'.mp hdata.left with ⟨resp, rfl⟩
    rw [exec_afterCallback_reloaded host invokeId
      (Bool.eq_false_iff.mpr hdata.right)]
    split
    · exact Or.inl ⟨_, rfl⟩
    · exact Or.inr ⟨_, rfl, rfl⟩

/-- The same for the whole callback, unless the chain itself throws: then the
invocation is not filed any more. -/
theorem exec_invokeSEPsCallback_cases {host : InvokeHost sigma} {id : Text}
    {s next : CallState sigma}
    {result : Except Thrown (Option PendingOrResponse)}
    (hid : s.world.invokeId = some id)
    (h : (invokeSEPsCallback host .reloaded).exec s = (result, next)) :
    result = .ok none ∨
      exists e, result = .error e ∧
        (e.statusCode = -1 ∨ entry id next = none) := by
  cases hentry : entry id s with
  | none =>
      unfold entry at hentry
      unfold invokeSEPsCallback at h
      rw [exec_bind_of_ok (exec_get s), hid] at h
      dsimp only at h
      rw [hentry] at h
      exact Or.inr ⟨_, (congrArg Prod.fst h).symm, Or.inl rfl⟩
  | some invocation =>
      rw [exec_invokeSEPsCallback hid hentry host .reloaded] at h
      cases hinvoked : (invokeSEP host none none (some id)).exec s with
      | mk invoked middle =>
          cases invoked with
          | error e =>
              rw [exec_bind_of_error hinvoked] at h
              have hnext : middle = next := congrArg Prod.snd h
              have hself := entry_invokeSEP_self hinvoked
              refine Or.inr ⟨e, (congrArg Prod.fst h).symm, Or.inr ?_⟩
              rw [← hnext]
              exact Option.isNone_iff_eq_none.mp
                (Option.isSome_eq_false_iff.mp hself)
          | ok response =>
              rw [exec_bind_of_ok hinvoked] at h
              rcases exec_afterCallback_cases host id response middle with
                ⟨next', hok⟩ | ⟨e, herror, hstatus⟩
              · rw [hok] at h
                exact Or.inl (congrArg Prod.fst h).symm
              · rw [herror] at h
                exact Or.inr ⟨e, (congrArg Prod.fst h).symm, Or.inl hstatus⟩

/-- The callback of a record always throws; when the error has the status of
a pending event, the invocation is not filed any more. -/
theorem runAndFixCallback_reloaded_throws {host : InvokeHost sigma}
    {id : Text} {s next : CallState sigma}
    {result : Except Thrown (Option Returned)}
    (hid : s.world.invokeId = some id)
    (h : (runAndFixCallback host .reloaded).exec s = (result, next)) :
    exists e, result = .error e ∧
      (e.statusCode = 2 -> entry id next = none) := by
  have hnotTwo : forall e : Thrown, e.statusCode = -1 ->
      e.statusCode = 2 -> entry id next = none := by
    intro e hstatus htwo
    rw [hstatus] at htwo
    cases htwo
  unfold runAndFixCallback at h
  cases hcallback : (invokeSEPsCallback host .reloaded).exec s with
  | mk returned middle =>
      rcases exec_invokeSEPsCallback_cases hid hcallback with
        rfl | ⟨e, rfl, hstatus⟩
      · rw [exec_bind_of_ok hcallback] at h
        exact ⟨_, (congrArg Prod.fst h).symm, hnotTwo _ rfl⟩
      · rw [exec_bind_of_error hcallback] at h
        have hnext : middle = next := congrArg Prod.snd h
        refine ⟨e, (congrArg Prod.fst h).symm, ?_⟩
        rcases hstatus with hstatus | hunfiled
        · exact hnotTwo e hstatus
        · exact fun _ => hnext ▸ hunfiled

/-! ## A request from its pending to its callback -/

/-- A request that is run and stored in one world, and a response to one of
its invocations that comes in a later one. -/
structure CallbackInput (sigma : Type) where
  event : EventObject
  world : World sigma
  store : EventStore
  listener : EventListener
  invokeId : Text
  response : Value
  later : World sigma

def askedFun (outcome : Outcome) : Option Text :=
  match outcome with
  | .returned _ resumeFunName => resumeFunName
  | .threw _ => none

namespace CallbackInput

variable (host : InvokeHost sigma) (i : CallbackInput sigma)

def firstRun : CallResult sigma :=
  (runAndFix host .constructed).toServiceFun i.event i.world

/-- The row of the pending event, read back from the store. -/
def row : Option EventRow :=
  (i.store.upsertEvent
    (i.event.withBody { (i.firstRun host).event with statusCode := some 2 })
    (some runAndFixCallbackName) (some i.listener.id)).findOne i.event.id

/-- The record with the response filed under its invocation. -/
def reqEvent : Option EventObject :=
  (i.row host).bind fun row =>
    (setCallbackResponse i.invokeId i.response row.toEventObject).toOption

/-- The state in which the callback is called on a record. -/
def start (record : EventObject) : CallState sigma :=
  ⟨record, i.later.setInvokeId i.invokeId, []⟩

def chainData (record : EventObject) : Option Value :=
  match record.context.invocations.entries i.invokeId with
  | none => none
  | some invocation =>
      match ((chain host.toChainHost invocation).exec (i.start record)).1 with
      | .ok (_, some resp) =>
          if PendingOrResponse.isPending (some resp) then none
          else some resp.value
      | .ok (_, none) | .error _ => none

def callbackCall (record : EventObject) : Call :=
  .ofResult i.listener (some runAndFixCallbackName)
    ((runAndFixCallback host .reloaded).toServiceFun record
      (i.later.setInvokeId i.invokeId))

end CallbackInput

/-- `runAndFix` leaves the event pending, and the chain of the callback ends
with the data `d`. -/
structure PendingCallback (host : InvokeHost sigma) (i : CallbackInput sigma)
    (record : EventObject) (d : Value) : Prop where
  asked : askedFun (i.firstRun host).outcome = some runAndFixCallbackName
  reloaded : i.reqEvent host = some record
  completes : i.chainData host record = some d

/-- What the callback is to do with the data `d`. -/
structure CallbackCompletes (host : InvokeHost sigma) (i : CallbackInput sigma)
    (record : EventObject) (d : Value) : Prop where
  no_type_error : forall e next,
    (runAndFixCallback host .reloaded).exec (i.start record) =
      (.error e, next) -> e.isTypeError = false
  direct : (truthy record.context.epName).isSome = true ->
    (i.callbackCall host record).finalBody.context.resp = d ∧
      (i.callbackCall host record).finalBody.statusCode = some 0
  script : truthy record.context.epName = none ->
    exists cwd, getTaskCwd .constructed record host.uploadBaseDir = .ok cwd ∧
      SubprocessCall.spawnOrRestore cwd (commandPrefix record)
          (some (replyMessage (commandPrefix record) i.invokeId
            (payloadText d))) ∈
        ((runAndFixCallback host .reloaded).exec (i.start record)).2.subprocess

theorem chainData_eq_some {host : InvokeHost sigma} {i : CallbackInput sigma}
    {record : EventObject} {d : Value} (h : i.chainData host record = some d) :
    exists invocation status resp next,
      entry i.invokeId (i.start record) = some invocation ∧
      (chain host.toChainHost invocation).exec (i.start record) =
        (.ok (status, some resp), next) ∧
      PendingOrResponse.isPending (some resp) = false ∧ resp.value = d := by
  unfold CallbackInput.chainData at h
  split at h
  · cases h
  · rename_i invocation hentry
    split at h
    · rename_i status resp hchain
      split at h
      · cases h
      · rename_i hpending
        exact ⟨invocation, status, resp, _, hentry, Prod.ext hchain rfl,
          Bool.eq_false_iff.mpr hpending, Option.some.inj h⟩
    · cases h
    · cases h

theorem runAndFixCallback_reloaded {host : InvokeHost sigma}
    {i : CallbackInput sigma} {record : EventObject} {d : Value}
    (h : PendingCallback host i record d) :
    exists next, (runAndFixCallback host .reloaded).exec (i.start record) =
        (.error (if (truthy record.context.epName).isSome then
          Thrown.readUndefined "statusCode".toList else noMethod), next) ∧
      next.subprocess = [] := by
  rcases chainData_eq_some h.completes with ⟨invocation, status, resp, middle,
    hentry, hchain, hdone, _⟩
  have hkept := (kept_chain host.toChainHost invocation).of_ok hchain
  have hepName : middle.event.context.epName = record.context.epName :=
    congrArg Kept.epName hkept
  have hsubprocess : middle.subprocess = [] := congrArg Kept.subprocess hkept
  have hinvoked := exec_invokeSEP_of_filed (s := i.start record) rfl hentry
    host
  rw [hchain] at hinvoked
  have hcallback := exec_invokeSEPsCallback (s := i.start record) rfl hentry
    host .reloaded
  rw [exec_bind_of_ok hinvoked, exec_afterCallback_reloaded host _ hdone]
    at hcallback
  change _ = (if (truthy middle.event.context.epName).isSome = true then _
    else _) at hcallback
  rw [hepName] at hcallback
  unfold runAndFixCallback
  by_cases hdirect : (truthy record.context.epName).isSome = true
  · rw [if_pos hdirect] at hcallback
    rw [if_pos hdirect, exec_bind_of_ok hcallback]
    exact ⟨_, rfl, hsubprocess⟩
  · rw [if_neg hdirect] at hcallback
    rw [if_neg hdirect, exec_bind_of_error hcallback]
    exact ⟨_, rfl, hsubprocess⟩

theorem not_callbackCompletes {host : InvokeHost sigma}
    {i : CallbackInput sigma} {record : EventObject} {d : Value}
    {direct : Bool} {next : CallState sigma}
    (h : (runAndFixCallback host .reloaded).exec (i.start record) =
      (.error (if direct then Thrown.readUndefined "statusCode".toList
        else noMethod), next)) :
    ¬ CallbackCompletes host i record d := by
  intro hcompletes
  have hkind := hcompletes.no_type_error _ next h
  cases direct with
  | true => cases hkind
  | false => cases hkind

/-- Whatever event `runAndFix` has left pending, and whatever data its chain
ends with after the callback, the callback does not complete. -/
theorem callback_never_completes {host : InvokeHost sigma}
    {i : CallbackInput sigma} {record : EventObject} {d : Value}
    (h : PendingCallback host i record d) :
    ¬ CallbackCompletes host i record d := by
  rcases runAndFixCallback_reloaded h with ⟨next, hthrew, _⟩
  exact not_callbackCompletes hthrew

/-! ## A request to an endpoint that answers by mail -/

def petEndpoint : EndpointDto where
  id := "p1".toList
  name := "GET /pets".toList
  method := "GET".toList
  callgentId := "c1".toList
  adaptorKey := "Email".toList
  entryId := "m1".toList
  securities := []
  isAsync := true
  cacheKey := none
  cacheTtl := none

def mailAdaptor : ServerAdaptor Unit where
  invoke := fun _ _ _ _ _ => return some .pending
  postprocess := fun resp _ _ _ => return resp

/-- One mail entry, no cache, and scripts that send one command. -/
def mailHost : InvokeHost Unit where
  findEntry := fun id => return some ⟨id, "pets@shop".toList, []⟩
  findRealm := fun _ => return none
  findFirstUserIdentity := fun _ _ => return none
  serverAdaptors := fun _ => some mailAdaptor
  fromCached := fun _ _ _ => return ⟨none, none, none⟩
  toCache := fun _ _ _ _ => return ()
  updateCache := fun _ _ _ => return ()
  uploadBaseDir := "/upload".toList
  spawnOrRestore := fun _ cmdPrefix _ =>
    return { lines := [cmdPrefix ++ "|x:-1|{}".toList], exitCode := .ok none }
  freezeProcess := fun _ => return ()
  parseJson := fun _ =>
    .ok (.obj [("epName".toList, .str petEndpoint.name)])

/-- A request for the pets: with an endpoint name it is a direct one. -/
def petEvent (epName : Option Text) : EventObject :=
  .clientRequest "e1".toList "cen1".toList "restAPI".toList (.obj [])
    "241012-e1".toList [] [] none
    { callgentId := "c1".toList
      callgentName := "Shop".toList
      callerId := none
      epName := epName
      progressive := none } none

def petCall (epName : Option Text) : EventObject :=
  { petEvent epName with
      context :=
        { (petEvent epName).context with
            endpoints := some [petEndpoint]
            map2Endpoints := some ⟨none⟩ } }

def scriptRunner : EventListener where
  id := "CR-SCRIPT-RUNNER".toList
  srcId := star
  eventType := "CLIENT_REQUEST".toList
  dataType := star
  serviceType := .service
  serviceName := "ScriptRunnerAgent".toList
  funName := "runAndFix".toList
  priority := some 600
  deletedAt := 0

def petCallback (epName : Option Text) (invokeId : InvokeId) :
    CallbackInput Unit where
  event := petCall epName
  world := ⟨none, ()⟩
  store := .empty
  listener := scriptRunner
  invokeId := invokeId.text
  response := some (.str "Tom".toList)
  later := ⟨none, ()⟩

def petRecord (epName : Option Text) (invokeId : InvokeId)
    (h : ((petCallback epName invokeId).reqEvent mailHost).isSome = true) :
    EventObject :=
  ((petCallback epName invokeId).reqEvent mailHost).get h

theorem callback_never_completes_direct :
    ¬ CallbackCompletes mailHost (petCallback (some petEndpoint.name) .direct)
        (petRecord (some petEndpoint.name) .direct rfl)
        (some (.str "Tom".toList)) :=
  callback_never_completes ⟨rfl, (Option.some_get _).symm, rfl⟩

/-- A direct request and a script are both left pending, both chains end with
the response, and neither callback completes. -/
theorem petCallback_throws :
    (exists record d,
      PendingCallback mailHost (petCallback (some petEndpoint.name) .direct)
          record d ∧
        ¬ CallbackCompletes mailHost
          (petCallback (some petEndpoint.name) .direct) record d) ∧
      exists record d,
        PendingCallback mailHost (petCallback none (.command 0)) record d ∧
          ¬ CallbackCompletes mailHost (petCallback none (.command 0))
            record d := by
  have hdirect : PendingCallback mailHost
      (petCallback (some petEndpoint.name) .direct)
      (petRecord (some petEndpoint.name) .direct rfl)
      (some (.str "Tom".toList)) :=
    ⟨rfl, (Option.some_get _).symm, rfl⟩
  have hscript : PendingCallback mailHost (petCallback none (.command 0))
      (petRecord none (.command 0) (by decide +kernel))
      (((petCallback none (.command 0)).chainData mailHost
        (petRecord none (.command 0) (by decide +kernel))).get
          (by decide +kernel)) :=
    ⟨by decide +kernel, (Option.some_get _).symm, (Option.some_get _).symm⟩
  rcases runAndFixCallback_reloaded hdirect with ⟨next, hthrew, _⟩
  rcases runAndFixCallback_reloaded hscript with ⟨next', hthrew', _⟩
  exact ⟨⟨_, _, hdirect, not_callbackCompletes hthrew⟩,
    ⟨_, _, hscript, not_callbackCompletes hthrew'⟩⟩

end Invoke
end CallgentApi
