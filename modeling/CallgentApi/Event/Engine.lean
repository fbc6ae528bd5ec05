import CallgentApi.Event.Listener
import CallgentApi.Invoke.Key

/-!
# Emitting and resuming events

`EventListenersService` calls the listeners of an event one after the other
and stores the event when it stops: done, pending, or failed.  A pending event
is resumed with an invoke key, from the stored listener on.

A listener sees the data of the event and a world outside the program, which
includes the invoke id of the request's own context.
-/

namespace CallgentApi
namespace Event

open Js Invoke

variable {sigma : Type _}

structure Thrown where
  status : Option Int
  /-- `e.response?.data?.message`. -/
  responseMessage : Option Text
  message : Text
  /-- The error is a `TypeError` of the language. -/
  isTypeError : Bool
deriving DecidableEq

namespace Thrown

def plain (message : Text) : Thrown := ⟨none, none, message, false⟩

def badRequest (message : Text) : Thrown := ⟨some 400, none, message, false⟩

def unauthorized (message : Text) : Thrown := ⟨some 401, none, message, false⟩

def notFound (message : Text) : Thrown := ⟨some 404, none, message, false⟩

def unprocessable (message : Text) : Thrown :=
  ⟨some 422, none, message, false⟩

def typeError (message : Text) : Thrown := ⟨none, none, message, true⟩

/-- Reading a property of `undefined`. -/
def readUndefined (property : Text) : Thrown :=
  .typeError ("Cannot read properties of undefined (reading '".toList ++
    property ++ "')".toList)

/-- `e.status || -1`. -/
def statusCode (e : Thrown) : Int :=
  match e.status with
  | none => -1
  | some s => if s = 0 then -1 else s

/-- `e.response?.data?.message || e.message`. -/
def text (e : Thrown) : Text :=
  (truthy e.responseMessage).getD e.message

end Thrown

structure World (sigma : Type _) where
  /-- The invoke id in the context of the request. -/
  invokeId : Option Text
  outside : sigma

inductive Outcome where
  | returned (data : Option EventBody) (resumeFunName : Option Text)
  | threw (e : Thrown)

/-- A call of a listener: the event object as the call has left it, what the
call returned or threw, and the world afterwards. -/
structure CallResult (sigma : Type _) where
  event : EventBody
  outcome : Outcome
  world : World sigma

abbrev ServiceFun (sigma : Type _) :=
  EventObject -> World sigma -> CallResult sigma

abbrev Service (sigma : Type _) := Text -> Option (ServiceFun sigma)

/-- `moduleRef.get`, which throws when there is no such provider. -/
abbrev ModuleRef (sigma : Type _) := Text -> Except Thrown (Option (Service sigma))

/-- The name a listener is called by: `funName || target.funName`. -/
def calledFun (target : EventListener) (funName : Option Text) : Text :=
  (truthy funName).getD target.funName

def serviceNotFound (target : EventListener) : Thrown :=
  .plain ("Service ".toList ++ target.serviceName ++
    " not found for event listener#".toList ++ target.id)

def funNotFound (target : EventListener) : Thrown :=
  .plain ("Service ".toList ++ target.serviceName ++ '.' :: target.funName ++
    " not found for event listener#".toList ++ target.id)

def invokeService (modules : ModuleRef sigma) (target : EventListener)
    (event : EventObject) (funName : Option Text) (world : World sigma) :
    CallResult sigma :=
  let failed (e : Thrown) : CallResult sigma :=
    { event := event.toEventBody, outcome := .threw e, world := world }
  match modules target.serviceName with
  | .error e => failed e
  | .ok none => failed (serviceNotFound target)
  | .ok (some service) =>
      match service (calledFun target funName) with
      | none => failed (funNotFound target)
      | some fn => fn event world

def invokeCallgent (event : EventObject) (world : World sigma) :
    CallResult sigma where
  event := event.toEventBody
  outcome := .returned (some event.toEventBody) none
  world := world

def invokeListener (modules : ModuleRef sigma) (listener : EventListener)
    (event : EventObject) (funName : Option Text) (world : World sigma) :
    CallResult sigma :=
  match listener.serviceType with
  | .callgent => invokeCallgent event world
  | .service => invokeService modules listener event funName world

/-- How a call ended: with the function that is to be called next, if any, or
with an error. -/
inductive Ending where
  | returned (resumeFunName : Option Text)
  | threw (e : Thrown)
deriving DecidableEq

/-- A call that was made: the listener, the resume function it was called by
(missing when it was started), the event afterwards and the ending. -/
structure Call where
  listener : EventListener
  funName : Option Text
  body : EventBody
  ending : Ending

namespace Call

def ofResult (listener : EventListener) (funName : Option Text)
    (result : CallResult sigma) : Call :=
  match result.outcome with
  | .returned data resumeFunName =>
      -- `result?.data && (event = result.data)`
      { listener := listener
        funName := truthy funName
        body := data.getD result.event
        ending := .returned (truthy resumeFunName) }
  | .threw e =>
      { listener := listener
        funName := truthy funName
        body := result.event
        ending := .threw e }

/-- The listener and the function that was called on its service. -/
def target (call : Call) : EventListener × Text :=
  (call.listener, calledFun call.listener call.funName)

end Call

/-- Where `_invokeListeners` stands when it leaves its loop. -/
structure LoopResult (sigma : Type _) where
  idx : Nat
  event : EventObject
  funName : Option Text
  world : World sigma
  calls : List Call

namespace LoopResult

def prepend (call : Call) (r : LoopResult sigma) : LoopResult sigma :=
  { r with calls := call :: r.calls }

end LoopResult

/-- The loop of `_invokeListeners` over the listeners from `idx` on. -/
def invokeLoop (modules : ModuleRef sigma) (length : Nat) :
    List EventListener -> Nat -> EventObject -> Option Text -> World sigma ->
      LoopResult sigma
  | [], idx, event, funName, world => ⟨idx, event, funName, world, []⟩
  | listener :: rest, idx, event, funName, world =>
      if event.stopPropagation then ⟨idx, event, funName, world, []⟩
      else
        let result := invokeListener modules listener event funName world
        let call := Call.ofResult listener funName result
        let idx := idx + 1
        match call.ending with
        | .returned resumeFunName =>
            let statusCode : Int :=
              if resumeFunName.isSome then 2
              else if call.body.stopPropagation ∨ length ≤ idx then 0
              else 1
            let event := event.withBody
              { call.body with statusCode := some statusCode }
            if resumeFunName.isSome ∨ event.stopPropagation then
              ⟨idx, event, resumeFunName, result.world, [call]⟩
            else
              (invokeLoop modules length rest idx event resumeFunName
                result.world).prepend call
        | .threw e =>
            -- `funName` still is the function the listener was called by
            ⟨idx,
              event.withBody
                { call.body with
                    statusCode := some e.statusCode
                    message := some e.text },
              funName, result.world, [call]⟩

/-- The listener that the `finally` block stores. -/
def nextListener (listeners : List EventListener) (idx : Nat)
    (statusCode : Option Int) : Option EventListener :=
  match statusCode with
  | none => if idx = 0 then none else listeners[idx - 1]?
  | some s =>
      if s = 1 then listeners[idx]?
      else if s = 0 ∨ (2 < s ∧ s < 399) then none
      else if idx = 0 then none
      else listeners[idx - 1]?

/-- What a run of the listeners leaves behind. -/
structure RunResult (sigma : Type _) where
  event : EventObject
  store : EventStore
  world : World sigma
  calls : List Call

def processing (event : EventObject) : EventObject :=
  event.withBody { event.toEventBody with statusCode := some 1 }

/-- The `try` block of `_invokeListeners`. -/
def runLoop (modules : ModuleRef sigma) (listeners : List EventListener)
    (event : EventObject) (funName : Option Text) (world : World sigma) :
    LoopResult sigma :=
  invokeLoop modules listeners.length listeners 0 (processing event) funName
    world

/-- The `finally` block of `_invokeListeners`. -/
def finishRun (listeners : List EventListener) (r : LoopResult sigma)
    (store : EventStore) : EventStore :=
  let next := nextListener listeners r.idx r.event.statusCode
  store.upsertEvent r.event (truthy r.funName)
    (truthy (next.map EventListener.id))

/-- `_invokeListeners`. -/
def invokeListeners (modules : ModuleRef sigma)
    (listeners : List EventListener) (event : EventObject)
    (funName : Option Text) (world : World sigma) (store : EventStore) :
    RunResult sigma :=
  let r := runLoop modules listeners event funName world
  { event := r.event
    store := finishRun listeners r store
    world := r.world
    calls := r.calls }

/-- `loadListeners`, for one query of the table. -/
def loadListeners (table : ListenerTable) (order : Database)
    (event : EventHeader) (deleted : Bool) :
    Except Thrown (List EventListener) :=
  let listeners := (table.findMany order event deleted).filter fun listener =>
    (listener.eventType == event.eventType || listener.eventType == star) &&
      (listener.dataType == event.dataType || listener.dataType == star)
  let listeners := listeners.insertionSort EventListener.notAfter
  if listeners.isEmpty then
    .error (.badRequest ("No listeners found for event: ".toList ++
      event.eventType ++ ':' :: event.dataType))
  else .ok listeners

/-- The listeners from the stored one on, less the deleted ones. -/
def resumeListeners (table : ListenerTable) (order : Database)
    (row : EventRow) : Except Thrown (List EventListener) :=
  match loadListeners table order row.toEventHeader true with
  | .error e => .error e
  | .ok listeners =>
      match truthy row.listenerId with
      | none => .ok (listeners.filter EventListener.live)
      | some listenerId =>
          match listeners.findIdx? fun l => l.id == listenerId with
          | none =>
              .error (.notFound ("Invalid listener id ".toList ++ listenerId ++
                " for event ".toList ++ row.id))
          | some idx => .ok ((listeners.drop idx).filter EventListener.live)

def emit (modules : ModuleRef sigma) (table : ListenerTable)
    (order : Database) (data : EventObject) (world : World sigma)
    (store : EventStore) : Except Thrown (RunResult sigma) :=
  match loadListeners table order data.toEventHeader false with
  | .error e => .error e
  | .ok listeners =>
      .ok (invokeListeners modules listeners data none world store)

def invocationNotFound (invokeId : Text) : Thrown :=
  .plain ("invocation not found for invokeId ".toList ++ invokeId)

/-- `setCallbackResponse` on the invocations of an event. -/
def setCallbackResponse (invokeId : Text) (callbackResponse : Value)
    (reqEvent : EventObject) : Except Thrown EventObject :=
  match reqEvent.context.invocations.entries invokeId with
  | none => .error (invocationNotFound invokeId)
  | some invocation =>
      .ok (reqEvent.withInvocations
        (reqEvent.context.invocations.set invokeId
          { invocation with response := callbackResponse }))

def World.setInvokeId (world : World sigma) (invokeId : Text) : World sigma :=
  { world with invokeId := some invokeId }

/-- The first part of `resume`: the event is read, its status is checked, and
the response is filed. -/
def findPending (key : ParsedKey) (callbackResponse : Value)
    (store : EventStore) : Except Thrown (EventRow × EventObject) :=
  match store.findOne key.eventId with
  | none => .error (.notFound ("Event not found, id=".toList ++ key.invokeId))
  | some row =>
      if row.statusCode ≠ some 2 then
        .error (.badRequest ("Cannot resume event with status ".toList ++
          interpolate (row.statusCode.map decimal) ++ ", id=".toList ++
          key.invokeId))
      else
        match setCallbackResponse key.invokeId callbackResponse
            row.toEventObject with
        | .error e => .error e
        | .ok event => .ok (row, event)

/-- The second part of `resume`: there must be listeners to run. -/
def loadPending (table : ListenerTable) (order : Database) (key : ParsedKey)
    (row : EventRow) : Except Thrown (List EventListener) :=
  match resumeListeners table order row with
  | .error e => .error e
  | .ok listeners =>
      if listeners.isEmpty then
        .error (.unprocessable
          ("Failed to resume: no listeners found for event, id=".toList ++
            key.invokeId))
      else .ok listeners

/-- `resume`: every check that fails leaves the store as it is. -/
def resume (modules : ModuleRef sigma) (table : ListenerTable)
    (order : Database) (invokeKey : Text) (callbackResponse : Value)
    (world : World sigma) (store : EventStore) :
    Except Thrown (RunResult sigma) :=
  let key := parseInvokeKey invokeKey
  match findPending key callbackResponse store with
  | .error e => .error e
  | .ok (row, event) =>
      match loadPending table order key row with
      | .error e => .error e
      | .ok listeners =>
          .ok (invokeListeners modules listeners event row.funName
            (world.setInvokeId key.invokeId) store)

end Event
end CallgentApi
