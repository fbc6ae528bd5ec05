import Mathlib.Logic.Function.Basic
import CallgentApi.Lib.Json

/-!
# Events

An event carries a header that is fixed when it is created and a body that its
listeners work on.  The body of a client request keeps its invocations in
`context.invocations`, one entry for each service call in progress.
-/

namespace CallgentApi
namespace Event

open Js

/-- A value of the program; `none` is `undefined`. -/
abbrev Value := Option Json

/-- `a || b` where the empty text counts as missing. -/
def truthy (s : Option Text) : Option Text :=
  s.filter fun t => !t.isEmpty

@[simp] theorem truthy_none : truthy none = none := rfl

theorem ne_nil_of_truthy {s : Option Text} {t : Text}
    (h : truthy s = some t) : t ≠ [] := by
  have hfilter := (Option.filter_eq_some_iff.mp h).right
  intro hnil
  rw [hnil] at hfilter
  cases hfilter

theorem truthy_some_of_ne_nil {t : Text} (h : t ≠ []) :
    truthy (some t) = some t := by
  cases t with
  | nil => exact absurd rfl h
  | cons c rest => rfl

@[simp] theorem truthy_truthy (s : Option Text) :
    truthy (truthy s) = truthy s := by
  cases h : truthy s with
  | none => rfl
  | some t => exact truthy_some_of_ne_nil (ne_nil_of_truthy h)

/-- The processor of a chain that runs next and its own memory. -/
structure ProcessorState where
  name : Option Text
  ctx : Option Text
  breakCurrent : Option Bool

structure InvokeStatus where
  invokeId : Text
  epName : Option Text
  args : Value
  /-- Callback response before postprocess. -/
  response : Value
  processor : Option ProcessorState
  cacheKey : Option Text
  cacheTtl : Option Nat

/-- `context.invocations`: the invocations by their id, and the retry count
that `ScriptRunnerService` files under a name of its own. -/
structure Invocations where
  entries : Text -> Option InvokeStatus
  retry : Option Nat

namespace Invocations

def empty : Invocations where
  entries := fun _ => none
  retry := none

def set (inv : Invocations) (id : Text) (status : InvokeStatus) :
    Invocations :=
  { inv with entries := Function.update inv.entries id (some status) }

def delete (inv : Invocations) (id : Text) : Invocations :=
  { inv with entries := Function.update inv.entries id none }

@[simp] theorem entries_set_self (inv : Invocations) (id : Text)
    (status : InvokeStatus) : (inv.set id status).entries id = some status := by
  simp [set]

theorem entries_set_of_ne (inv : Invocations) {id other : Text}
    (status : InvokeStatus) (h : other ≠ id) :
    (inv.set id status).entries other = inv.entries other := by
  simp [set, h]

@[simp] theorem entries_delete_self (inv : Invocations) (id : Text) :
    (inv.delete id).entries id = none := by
  simp [delete]

theorem entries_delete_of_ne (inv : Invocations) {id other : Text}
    (h : other ≠ id) : (inv.delete id).entries other = inv.entries other := by
  simp [delete, h]

end Invocations

structure RealmSecurityItem where
  realmPk : Nat
  scopes : Option (List Text)
  attach : Option Bool

/-- The items of a security guard, in the order `Object.values` lists them. -/
abbrev RealmSecurityVO := List RealmSecurityItem

structure EndpointDto where
  id : Text
  name : Text
  method : Text
  callgentId : Text
  adaptorKey : Text
  entryId : Text
  securities : List RealmSecurityVO
  isAsync : Bool
  /-- A text, or the text of a function `(endpoint, request) => string`. -/
  cacheKey : Option Text
  /-- In seconds; below zero there is no cache. -/
  cacheTtl : Option Int

structure Map2Endpoints where
  requestArgs : Value

structure Context where
  req : Json
  /-- Event final response. -/
  resp : Value
  callgentId : Text
  callgentName : Text
  callerId : Option Text
  epName : Option Text
  progressive : Option Text
  invocations : Invocations
  security : Option RealmSecurityVO
  securityItem : Option RealmSecurityItem
  endpoints : Option (List EndpointDto)
  map2Endpoints : Option Map2Endpoints
  /-- What listeners add under other names. -/
  props : List (Text × Json)

inductive EventCallbackType where
  | url
  | event
deriving DecidableEq

/-- The fields an event is created with and keeps. -/
structure EventHeader where
  id : Text
  srcId : Text
  eventType : Text
  dataType : Text
  taskId : Text
  title : Text
  paidBy : Text
  calledBy : Option Text
  callbackType : EventCallbackType

structure EventBody where
  callback : Option Text
  context : Context
  stopPropagation : Bool
  /-- `<0`: error, `0`: done, `1`: processing, `2`: pending, others: http
  status. -/
  statusCode : Option Int
  message : Option Text

structure EventObject extends EventHeader, EventBody

/-- What the constructor of `ClientRequestEvent` copies into the context. -/
structure RequestContext where
  callgentId : Text
  callgentName : Text
  callerId : Option Text
  epName : Option Text
  progressive : Option Text

namespace EventObject

/-- The constructor of `ClientRequestEvent`, for an id and a task id. -/
def clientRequest (id entryId dataType : Text) (req : Json)
    (taskId title paidBy : Text) (calledBy : Option Text)
    (context : RequestContext) (callback : Option Text) : EventObject where
  id := id
  srcId := entryId
  eventType := "CLIENT_REQUEST".toList
  dataType := dataType
  taskId := taskId
  title := title
  paidBy := paidBy
  calledBy := calledBy
  callbackType := .url
  callback := callback
  context :=
    { req := req
      resp := none
      callgentId := context.callgentId
      callgentName := context.callgentName
      callerId := context.callerId
      epName := context.epName
      progressive := context.progressive
      invocations := .empty
      security := none
      securityItem := none
      endpoints := none
      map2Endpoints := none
      props := [] }
  stopPropagation := false
  statusCode := none
  message := none

def withBody (event : EventObject) (body : EventBody) : EventObject :=
  { event with toEventBody := body }

def withInvocations (event : EventObject) (inv : Invocations) : EventObject :=
  { event with context := { event.context with invocations := inv } }

@[simp] theorem withBody_toEventHeader (event : EventObject)
    (body : EventBody) :
    (event.withBody body).toEventHeader = event.toEventHeader := rfl

@[simp] theorem withBody_toEventBody (event : EventObject)
    (body : EventBody) : (event.withBody body).toEventBody = body := rfl

@[simp] theorem withInvocations_toEventHeader (event : EventObject)
    (inv : Invocations) :
    (event.withInvocations inv).toEventHeader = event.toEventHeader := rfl

end EventObject
end Event
end CallgentApi
