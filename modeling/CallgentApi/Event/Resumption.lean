import CallgentApi.Lib.Transition
import CallgentApi.Event.Loop
import CallgentApi.Event.Loading

/-!
# Runs of one event

An event is emitted once and resumed any number of times.  The state between
two of these runs is the store and the world; the calls made so far are kept
as a history.
-/

namespace CallgentApi
namespace Event

open Js Invoke Transition

variable {sigma : Type _}

/-- A request to resume: its key and response, the order of the query it makes
and what has happened in the world in the meantime. -/
structure ResumeRequest (sigma : Type _) where
  invokeKey : Text
  response : Value
  order : Database
  elapse : sigma -> sigma

structure RunState (sigma : Type _) where
  store : EventStore
  world : World sigma
  calls : List Call

namespace RunState

def elapse (s : RunState sigma) (f : sigma -> sigma) : World sigma :=
  { s.world with outside := f s.world.outside }

/-- The state after one more run of the listeners. -/
def after (calls : List Call) (result : RunResult sigma) : RunState sigma where
  store := result.store
  world := result.world
  calls := calls ++ result.calls

end RunState

/-- A successful `resume`. -/
def resumeStep (modules : ModuleRef sigma) (table : ListenerTable)
    (s : RunState sigma) (request : ResumeRequest sigma) :
    Option (RunState sigma) :=
  match resume modules table request.order request.invokeKey request.response
      (s.elapse request.elapse) s.store with
  | .error _ => none
  | .ok result => some (.after s.calls result)

/-- `emit` and the successful resumes that follow it, on one table. -/
def emitAndResume (modules : ModuleRef sigma) (table : ListenerTable)
    (order : Database) (data : EventObject) (world : World sigma)
    (store : EventStore) (requests : List (ResumeRequest sigma)) :
    Option (RunState sigma) :=
  match emit modules table order data world store with
  | .error _ => none
  | .ok result => run (resumeStep modules table) (.after [] result) requests

/-- A callback from outside: what has happened in the world until it comes,
the invocation it answers and the response. -/
structure Callback (sigma : Type _) where
  elapse : sigma -> sigma
  invokeId : Text
  response : Value

namespace Callback

/-- The event with the response filed under its invocation. -/
def event (callback : Callback sigma) (e : EventObject) : EventObject :=
  match e.context.invocations.entries callback.invokeId with
  | none => e
  | some invocation =>
      e.withInvocations (e.context.invocations.set callback.invokeId
        { invocation with response := callback.response })

def world (callback : Callback sigma) (w : World sigma) : World sigma where
  invokeId := some callback.invokeId
  outside := callback.elapse w.outside

end Callback

def ResumeRequest.callback (request : ResumeRequest sigma) :
    Callback sigma where
  elapse := request.elapse
  invokeId := (parseInvokeKey request.invokeKey).invokeId
  response := request.response

/-- A call that returns nothing, asks to be resumed, or stops the propagation,
but not the last two at once. -/
def Call.Allowed (call : Call) : Prop :=
  match call.ending with
  | .returned none => True
  | .returned (some _) => call.body.stopPropagation = false
  | .threw _ => False

instance (call : Call) : Decidable call.Allowed := by
  unfold Call.Allowed
  split <;> infer_instance

theorem Call.Allowed.returned {call : Call} (h : call.Allowed) :
    exists resumeFunName, call.ending = .returned resumeFunName := by
  unfold Call.Allowed at h
  cases hending : call.ending with
  | returned resumeFunName => exact ⟨resumeFunName, rfl⟩
  | threw e =>
      rw [hending] at h
      exact h.elim

theorem setCallbackResponse_ok {invokeId : Text} {response : Value}
    {reqEvent event : EventObject}
    (h : setCallbackResponse invokeId response reqEvent = .ok event) :
    exists invocation,
      reqEvent.context.invocations.entries invokeId = some invocation ∧
        event = reqEvent.withInvocations
          (reqEvent.context.invocations.set invokeId
            { invocation with response := response }) := by
  unfold setCallbackResponse at h
  cases hentry : reqEvent.context.invocations.entries invokeId with
  | none =>
      rw [hentry] at h
      cases h
  | some invocation =>
      rw [hentry] at h
      exact ⟨invocation, rfl, (Except.ok.inj h).symm⟩

/-- The checks a successful `resume` has passed and the run it has made. -/
structure Resumed (modules : ModuleRef sigma) (table : ListenerTable)
    (order : Database) (invokeKey : Text) (response : Value)
    (world : World sigma) (store : EventStore) (result : RunResult sigma)
    (row : EventRow) (event : EventObject)
    (listeners : List EventListener) : Prop where
  found : store (parseInvokeKey invokeKey).eventId = some row
  pending : row.statusCode = some 2
  callback : setCallbackResponse (parseInvokeKey invokeKey).invokeId response
    row.toEventObject = .ok event
  loaded : resumeListeners table order row = .ok listeners
  listeners_ne_nil : listeners ≠ []
  result_eq : result = invokeListeners modules listeners event row.funName
    (world.setInvokeId (parseInvokeKey invokeKey).invokeId) store

theorem findPending_ok {key : ParsedKey} {response : Value}
    {store : EventStore} {row : EventRow} {event : EventObject}
    (h : findPending key response store = .ok (row, event)) :
    store key.eventId = some row ∧ row.statusCode = some 2 ∧
      setCallbackResponse key.invokeId response row.toEventObject =
        .ok event := by
  unfold findPending EventStore.findOne at h
  cases hfound : store key.eventId with
  | none =>
      rw [hfound] at h
      cases h
  | some found =>
      rw [hfound] at h
      dsimp only at h
      by_cases hpending : found.statusCode = some 2
      · rw [if_neg (not_not.mpr hpending)] at h
        cases hcallback : setCallbackResponse key.invokeId response
            found.toEventObject with
        | error e =>
            rw [hcallback] at h
            cases h
        | ok filed =>
            rw [hcallback] at h
            cases h
            exact ⟨rfl, hpending, hcallback⟩
      · rw [if_pos hpending] at h
        cases h

theorem loadPending_ok {table : ListenerTable} {order : Database}
    {key : ParsedKey} {row : EventRow} {listeners : List EventListener}
    (h : loadPending table order key row = .ok listeners) :
    resumeListeners table order row = .ok listeners ∧ listeners ≠ [] := by
  unfold loadPending at h
  cases hloaded : resumeListeners table order row with
  | error e =>
      rw [hloaded] at h
      cases h
  | ok found =>
      rw [hloaded] at h
      dsimp only at h
      split at h
      · cases h
      · rename_i hne
        cases h
        refine ⟨rfl, ?_⟩
        intro hnil
        exact hne (by rw [hnil]; rfl)

theorem resume_parts {modules : ModuleRef sigma} {table : ListenerTable}
    {order : Database} {invokeKey : Text} {response : Value}
    {world : World sigma} {store : EventStore} {result : RunResult sigma}
    (h : resume modules table order invokeKey response world store =
      .ok result) :
    exists row event listeners,
      findPending (parseInvokeKey invokeKey) response store =
        .ok (row, event) ∧
      loadPending table order (parseInvokeKey invokeKey) row =
        .ok listeners ∧
      result = invokeListeners modules listeners event row.funName
        (world.setInvokeId (parseInvokeKey invokeKey).invokeId) store := by
  unfold resume at h
  dsimp only at h
  cases hfind : findPending (parseInvokeKey invokeKey) response store with
  | error e =>
      rw [hfind] at h
      cases h
  | ok found =>
      rcases found with ⟨row, event⟩
      rw [hfind] at h
      dsimp only at h
      cases hload : loadPending table order (parseInvokeKey invokeKey)
          row with
      | error e =>
          rw [hload] at h
          cases h
      | ok listeners =>
          rw [hload] at h
          exact ⟨row, event, listeners, rfl, hload, (Except.ok.inj h).symm⟩

theorem resume_ok {modules : ModuleRef sigma} {table : ListenerTable}
    {order : Database} {invokeKey : Text} {response : Value}
    {world : World sigma} {store : EventStore} {result : RunResult sigma}
    (h : resume modules table order invokeKey response world store =
      .ok result) :
    exists row event listeners,
      Resumed modules table order invokeKey response world store result row
        event listeners := by
  rcases resume_parts h with ⟨row, event, listeners, hfind, hload, heq⟩
  rcases findPending_ok hfind with ⟨hfound, hpending, hcallback⟩
  rcases loadPending_ok hload with ⟨hloaded, hne⟩
  exact ⟨row, event, listeners, hfound, hpending, hcallback, hloaded, hne,
    heq⟩

theorem resume_of_resumed {modules : ModuleRef sigma} {table : ListenerTable}
    {order : Database} {invokeKey : Text} {response : Value}
    {world : World sigma} {store : EventStore} {result : RunResult sigma}
    {row : EventRow} {event : EventObject} {listeners : List EventListener}
    (h : Resumed modules table order invokeKey response world store result
      row event listeners) :
    resume modules table order invokeKey response world store =
      .ok result := by
  have hne : listeners.isEmpty = false := by
    simpa using h.listeners_ne_nil
  have hfind : findPending (parseInvokeKey invokeKey) response store =
      .ok (row, event) := by
    simp only [findPending, EventStore.findOne, h.found, h.pending,
      h.callback]
    rfl
  have hload : loadPending table order (parseInvokeKey invokeKey) row =
      .ok listeners := by
    simp only [loadPending, h.loaded, hne]
    rfl
  simp only [resume, hfind, hload, h.result_eq]

theorem resumeStep_some {modules : ModuleRef sigma} {table : ListenerTable}
    {s t : RunState sigma} {request : ResumeRequest sigma}
    (h : resumeStep modules table s request = some t) :
    exists result,
      resume modules table request.order request.invokeKey request.response
        (s.elapse request.elapse) s.store = .ok result ∧
      t = .after s.calls result := by
  unfold resumeStep at h
  cases hresume : resume modules table request.order request.invokeKey
      request.response (s.elapse request.elapse) s.store with
  | error e =>
      rw [hresume] at h
      cases h
  | ok result =>
      rw [hresume] at h
      exact ⟨result, rfl, (Option.some.inj h).symm⟩

theorem emit_ok {modules : ModuleRef sigma} {table : ListenerTable}
    {order : Database} {data : EventObject} {world : World sigma}
    {store : EventStore} {result : RunResult sigma}
    (h : emit modules table order data world store = .ok result) :
    exists listeners,
      listeners ≠ [] ∧ Ordered table data.toEventHeader listeners ∧
      result = invokeListeners modules listeners data none world store := by
  unfold emit at h
  cases hload : loadListeners table order data.toEventHeader false with
  | error e =>
      rw [hload] at h
      cases h
  | ok listeners =>
      rw [hload] at h
      exact ⟨listeners, (loadListeners_ok hload).right,
        ordered_of_loadListeners hload, (Except.ok.inj h).symm⟩

theorem emitAndResume_some {modules : ModuleRef sigma}
    {table : ListenerTable} {order : Database} {data : EventObject}
    {world : World sigma} {store : EventStore}
    {requests : List (ResumeRequest sigma)} {t : RunState sigma}
    (h : emitAndResume modules table order data world store requests =
      some t) :
    exists result,
      emit modules table order data world store = .ok result ∧
      run (resumeStep modules table) (.after [] result) requests =
        some t := by
  unfold emitAndResume at h
  cases hemit : emit modules table order data world store with
  | error e =>
      rw [hemit] at h
      cases h
  | ok result =>
      rw [hemit] at h
      exact ⟨result, rfl, h⟩

theorem run_calls_prefix {modules : ModuleRef sigma} {table : ListenerTable}
    {s t : RunState sigma} {requests : List (ResumeRequest sigma)}
    (h : run (resumeStep modules table) s requests = some t) :
    s.calls <+: t.calls := by
  induction requests generalizing s with
  | nil =>
      have hst : s = t := by simpa using h
      exact hst ▸ List.prefix_refl _
  | cons request rest ih =>
      rcases run_cons_some h with ⟨s', hstep, hrest⟩
      rcases resumeStep_some hstep with ⟨result, _, rfl⟩
      exact (List.prefix_append _ _).trans (ih hrest)

theorem setCallbackResponse_callback {request : ResumeRequest sigma}
    {e event : EventObject}
    (h : setCallbackResponse (parseInvokeKey request.invokeKey).invokeId
      request.response e = .ok event) : event = request.callback.event e := by
  rcases setCallbackResponse_ok h with ⟨invocation, hentry, rfl⟩
  simp [Callback.event, ResumeRequest.callback, hentry]

@[simp] theorem Callback.event_toEventHeader (callback : Callback sigma)
    (e : EventObject) :
    (callback.event e).toEventHeader = e.toEventHeader := by
  unfold Callback.event
  split <;> rfl

@[simp] theorem Callback.event_stopPropagation (callback : Callback sigma)
    (e : EventObject) :
    (callback.event e).stopPropagation = e.stopPropagation := by
  unfold Callback.event
  split <;> rfl

/-- A resume after a run has found the listener that asked to be resumed and
calls the listeners loaded for it, the first one by the stored function. -/
theorem resume_after_run {modules : ModuleRef sigma} {table : ListenerTable}
    {listeners : List EventListener} {event : EventObject}
    {funName : Option Text} {store : EventStore}
    {result result' : RunResult sigma} {passed : List Call} {last : Call}
    {after : List EventListener} {request : ResumeRequest sigma}
    {world : World sigma}
    (h : RunShape listeners event funName store result passed last after)
    (hreturned : exists resumeFunName, last.ending = .returned resumeFunName)
    (hkey : (parseInvokeKey request.invokeKey).eventId = event.id)
    (hresume : resume modules table request.order request.invokeKey
      request.response world result.store = .ok result') :
    exists f listeners',
      last.ending = .returned (some f) ∧ listeners' ≠ [] ∧
      resumeListeners table request.order (last.pendingRow event f) =
        .ok listeners' ∧
      result' = invokeListeners modules listeners'
        (request.callback.event (event.withBody last.finalBody)) (some f)
        (world.setInvokeId request.callback.invokeId) result.store := by
  rcases resume_ok hresume with ⟨row, event', listeners', hresumed⟩
  have hfound := hresumed.found
  rw [hkey] at hfound
  rcases hreturned with ⟨resumeFunName, hending⟩
  cases resumeFunName with
  | none =>
      exfalso
      rcases h.row with ⟨row', hrow', hevent⟩
      rw [hfound] at hrow'
      have hstatus : row.statusCode = some last.finalStatus := by
        rw [Option.some.inj hrow', hevent]
        exact last.finalBody_statusCode
      rw [hresumed.pending] at hstatus
      simp [Call.finalStatus, hending] at hstatus
  | some f =>
      have hrow := h.row_of_asked hending
      rw [hfound] at hrow
      have hrow := Option.some.inj hrow
      have hevent : event' =
          request.callback.event (event.withBody last.finalBody) := by
        have hcallback := hresumed.callback
        rw [hrow] at hcallback
        exact setCallbackResponse_callback hcallback
      refine ⟨f, listeners', hending, hresumed.listeners_ne_nil,
        hrow ▸ hresumed.loaded, ?_⟩
      rw [hresumed.result_eq, hevent, hrow]
      rfl

/-!
## A small system

Two listeners with their services: the first one is called by a given function
and resumed by `go`, the second one returns nothing.
-/

def directStatus : InvokeStatus where
  invokeId := []
  epName := some "GET /pets".toList
  args := none
  response := none
  processor := none
  cacheKey := none
  cacheTtl := none

def quietFun : ServiceFun Unit := fun event world =>
  { event := event.toEventBody, outcome := .returned none none, world := world }

/-- Registers the direct invocation and asks to be resumed. -/
def askingFun : ServiceFun Unit := fun event world =>
  { event := (event.withInvocations
      (event.context.invocations.set [] directStatus)).toEventBody
    outcome := .returned none (some "go".toList)
    world := world }

def servicesWith (first : ServiceFun Unit) : ModuleRef Unit := fun name =>
  if name = "asking".toList then
    .ok (some fun f => if f = "start".toList then some first else some quietFun)
  else .ok (some fun _ => some quietFun)

def askingListener : EventListener where
  id := "A".toList
  srcId := star
  eventType := star
  dataType := star
  priority := some 0
  serviceType := .service
  serviceName := "asking".toList
  funName := "start".toList
  deletedAt := 0

def quietListener (priority : Int) : EventListener where
  id := "B".toList
  srcId := star
  eventType := star
  dataType := star
  priority := some priority
  serviceType := .service
  serviceName := "quiet".toList
  funName := "start".toList
  deletedAt := 0

def twoListeners (priority : Int) : ListenerTable where
  rows := [askingListener, quietListener priority]
  ids_nodup := by simp [askingListener, quietListener]

def petRequest : EventObject :=
  .clientRequest "e1".toList "entry".toList "restAPI".toList .null
    "250101-e1".toList "pets".toList "payer".toList none
    { callgentId := "c".toList
      callgentName := "pets".toList
      callerId := none
      epName := some "GET /pets".toList
      progressive := none } none

/-- The reply to the direct invocation of `petRequest`. -/
def petReply (order : Database) : ResumeRequest Unit where
  invokeKey := "-e1".toList
  response := some .null
  order := order
  elapse := id

end Event
end CallgentApi
