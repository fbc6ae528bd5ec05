import CallgentApi.Clients.Columns

/-!
# What `emit` resolves to

The run of the listeners is followed by the callback step, and it may have to
race a timeout, which answers with a copy of the event.  The controller reads
its response off whatever comes first.
-/

namespace CallgentApi
namespace Clients

open Js Event

variable {sigma : Type}

/-! ## `emit` -/

/-- The properties of a value that `emit` resolves to; the context and the
propagation are not enumerable and may be missing. -/
structure Emitted extends EventHeader where
  callback : Option Text
  context : Option Context
  stopPropagation : Option Bool
  statusCode : Option Int
  message : Option Text

def Emitted.ofEvent (event : EventObject) : Emitted where
  toEventHeader := event.toEventHeader
  callback := event.callback
  context := some event.context
  stopPropagation := some event.stopPropagation
  statusCode := event.statusCode
  message := event.message

/-- `_invokeCallback(data, urlOnly)`; `none` is `undefined`.  The step that
should call a url is missing. -/
def invokeCallback (resume : Text -> Option EventObject) (data : EventObject)
    (urlOnly : Bool) : Option EventObject :=
  if data.statusCode.getD 0 ≠ 0 then some data
  else
    match truthy data.callback with
    | none => some data
    | some callback =>
        match data.callbackType with
        | .event => if urlOnly then some data else resume callback
        | .url => none

def timeoutMessage (timeout : Int) : Text :=
  "Sync invocation timeout(".toList ++ decimal timeout ++
    "ms), will respond via callback".toList

/-- `{ ...data, statusCode: 1, message }`, of the event as it is by then. -/
def timeoutCopy (data : EventHeader) (seen : EventBody) (timeout : Int) :
    Emitted where
  toEventHeader := data
  callback := seen.callback
  context := none
  stopPropagation := none
  statusCode := some 1
  message := some (timeoutMessage timeout)

/-- Which of the two promises is first; the timeout finds the event as the
listeners have left it so far. -/
inductive Winner where
  | listeners
  | sleep (seen : EventBody)

/-- The value of `emit(data, timeout)` when its listeners come to a result;
without a timeout there is no race. -/
def resolved (resume : Text -> Option EventObject) (data : EventObject)
    (timeout : Int) (winner : Winner) (result : RunResult sigma) :
    Option Emitted :=
  let run := (invokeCallback resume result.event true).map Emitted.ofEvent
  match winner with
  | .listeners => run
  | .sleep seen =>
      if 0 < timeout then some (timeoutCopy data.toEventHeader seen timeout)
      else run

/-! ## The response -/

inductive ReplyBody where
  | response (data : Json)
  | event (data : Emitted) (statusCode : Option Int) (message : Option Text)

structure Reply where
  status : Value
  headers : List (Text × Json)
  body : ReplyBody

def replyHeaders (data : Emitted) : List (Text × Json) :=
  [("x-callgent-reqId".toList, .str data.id),
    ("x-callgent-taskId".toList, .str data.taskId)] ++
  ((data.statusCode.filter fun s => s != 0).map fun s =>
    ("x-callgent-status".toList, Json.num (.ofInt s))).toList ++
  ((truthy data.message).map fun m =>
    ("x-callgent-message".toList, Json.str m)).toList

/-- `Object.assign(headers, resp.headers)`. -/
def assignHeaders (headers : List (Text × Json)) (given : Value) :
    List (Text × Json) :=
  match given with
  | some (.obj fields) =>
      fields.foldl (fun headers field =>
        Json.setField headers field.1 field.2) headers
  | _ => headers

/-- `{ statusCode: resp.status, message: resp.statusText }`. -/
def statusBody (resp : Json) : Json :=
  .obj (((resp.field "status".toList).map fun v =>
      ("statusCode".toList, v)).toList ++
    ((resp.field "statusText".toList).map fun v =>
      ("message".toList, v)).toList)

def replyStatus (statusCode : Option Int) : Int :=
  match statusCode.filter fun s => s != 0 with
  | none => 200
  | some s => if s < 0 then 418 else if s < 200 then 202 else s

/-- What `invoke` makes of the value it gets from `emit`. -/
def reply (data : Option Emitted) : Except Thrown Reply :=
  match data with
  | none => .error (.readUndefined "id".toList)
  | some data =>
      match data.context with
      | none => .error (.readUndefined "resp".toList)
      | some context =>
          match context.resp.filter Json.truthy with
          | some resp =>
              .ok {
                status := resp.field "status".toList
                headers := assignHeaders (replyHeaders data)
                  (resp.field "headers".toList)
                body := .response
                  (((resp.field "data".toList).filter Json.truthy).getD
                    (statusBody resp)) }
          | none =>
              .ok {
                status := some (.num (.ofInt (replyStatus data.statusCode)))
                headers := replyHeaders data
                body := .event
                  { data with statusCode := none, message := none }
                  data.statusCode data.message }

/-! ## When the event comes back -/

def timesOut (timeout : Int) : Winner -> Bool
  | .listeners => false
  | .sleep _ => decide (0 < timeout)

/-- The context and the status that the event has in the end, or by the
time-out. -/
def expectedOf (result : RunResult sigma) (timeout : Int) :
    Winner -> Context × Option Int
  | .listeners => (result.event.context, result.event.statusCode)
  | .sleep seen =>
      if 0 < timeout then (seen.context, some 1)
      else (result.event.context, result.event.statusCode)

/-- A value is the emitted event, with its context and its final status. -/
def IsEvent (data : EventObject) (expected : Context × Option Int)
    (value : Option Emitted) : Prop :=
  exists e, value = some e ∧ e.id = data.id ∧ e.taskId = data.taskId ∧
    e.context = some expected.1 ∧ e.statusCode = expected.2

/-- The last listener leaves nothing to resume and a url to call back. -/
def CallsUrl (data : EventObject) (calls : List Call) : Prop :=
  data.callbackType = .url ∧
    exists last, calls.getLast? = some last ∧ last.ending = .returned none ∧
      (truthy last.body.callback).isSome = true

section Run

variable {modules : ModuleRef sigma} {table : ListenerTable}
  {order : Database} {data : EventObject} {world : World sigma}
  {store : EventStore} {result : RunResult sigma}

theorem invokeCallback_finalBody (resume : Text -> Option EventObject)
    (data : EventObject) (last : Call) :
    invokeCallback resume (data.withBody last.finalBody) true =
      if last.ending = .returned none ∧ data.callbackType = .url ∧
          (truthy last.body.callback).isSome = true then none
      else some (data.withBody last.finalBody) := by
  have hstatus : (data.withBody last.finalBody).statusCode =
      some last.finalStatus := last.finalBody_statusCode
  have hcallback : (data.withBody last.finalBody).callback =
      last.body.callback := callback_finalBody last
  have htype : (data.withBody last.finalBody).callbackType =
      data.callbackType := rfl
  have hdone := last.finalStatus_eq_zero_iff
  unfold invokeCallback
  rw [hstatus, hcallback, htype, Option.getD_some]
  by_cases hzero : last.finalStatus = 0
  · have hending := hdone.mp hzero
    rw [if_neg (not_not.mpr hzero)]
    cases htruthy : truthy last.body.callback with
    | none => simp
    | some callback =>
        cases data.callbackType with
        | url => simp [hending]
        | event => simp
  · rw [if_pos hzero, if_neg fun h => hzero (hdone.mpr h.left)]

theorem emit_cases
    (hemit : emit modules table order data world store = .ok result) :
    (result.calls = [] ∧ result.event = processing data) ∨
      exists last, result.calls.getLast? = some last ∧
        result.event = data.withBody last.finalBody := by
  rcases emit_ok hemit with ⟨listeners, hne, _, heq⟩
  cases hstop : data.stopPropagation with
  | true =>
      apply Or.inl
      cases listeners with
      | nil => exact absurd rfl hne
      | cons listener rest =>
          have hloop : runLoop modules (listener :: rest) data none world =
              ⟨0, processing data, none, world, []⟩ := by
            have hstop' : (processing data).stopPropagation = true := hstop
            rw [runLoop, invokeLoop, if_pos hstop']
          rw [heq]
          unfold invokeListeners
          dsimp only
          rw [hloop]
          exact ⟨rfl, rfl⟩
  | false =>
      apply Or.inr
      rcases invokeListeners_shape modules none world store hne hstop with
        ⟨passed, last, after, hshape⟩
      rw [← heq] at hshape
      refine ⟨last, ?_, hshape.event_eq⟩
      rw [hshape.calls_eq, List.getLast?_concat]

theorem invokeCallback_of_emit (resume : Text -> Option EventObject)
    (hemit : emit modules table order data world store = .ok result) :
    (CallsUrl data result.calls ∧
        invokeCallback resume result.event true = none) ∨
      (¬ CallsUrl data result.calls ∧
        invokeCallback resume result.event true = some result.event) := by
  rcases emit_cases hemit with ⟨hcalls, hevent⟩ | ⟨last, hlast, hevent⟩
  · apply Or.inr
    constructor
    · intro h
      rcases h with ⟨_, last, hlast, _⟩
      rw [hcalls] at hlast
      cases hlast
    · have hstatus : (processing data).statusCode.getD 0 ≠ 0 := one_ne_zero
      rw [hevent]
      exact if_pos hstatus
  · have hstep := invokeCallback_finalBody resume data last
    rw [← hevent] at hstep
    by_cases hurl : last.ending = .returned none ∧ data.callbackType = .url ∧
        (truthy last.body.callback).isSome = true
    · rw [if_pos hurl] at hstep
      exact Or.inl ⟨⟨hurl.right.left, last, hlast, hurl.left,
        hurl.right.right⟩, hstep⟩
    · rw [if_neg hurl] at hstep
      apply Or.inr
      refine ⟨?_, hstep⟩
      intro h
      rcases h with ⟨htype, other, hother, hending, hcallback⟩
      cases Option.some.inj (hlast.symm.trans hother)
      exact hurl ⟨hending, htype, hcallback⟩

theorem header_of_emit
    (hemit : emit modules table order data world store = .ok result) :
    result.event.toEventHeader = data.toEventHeader := by
  rcases emit_cases hemit with ⟨_, hevent⟩ | ⟨last, _, hevent⟩
  · rw [hevent]
    rfl
  · rw [hevent]
    rfl

theorem isEvent_run_iff (resume : Text -> Option EventObject)
    (hemit : emit modules table order data world store = .ok result) :
    IsEvent data (result.event.context, result.event.statusCode)
        ((invokeCallback resume result.event true).map Emitted.ofEvent) <->
      ¬ CallsUrl data result.calls := by
  rcases invokeCallback_of_emit resume hemit with
    ⟨hurl, hnone⟩ | ⟨hurl, hsome⟩
  · constructor
    · intro h
      rcases h with ⟨e, he, _⟩
      rw [hnone] at he
      cases he
    · intro hnot
      exact absurd hurl hnot
  · constructor
    · intro _
      exact hurl
    · intro _
      have hheader := header_of_emit hemit
      refine ⟨_, by rw [hsome]; rfl, ?_, ?_, rfl, rfl⟩
      · exact congrArg EventHeader.id hheader
      · exact congrArg EventHeader.taskId hheader

theorem not_isEvent_timeoutCopy (seen : EventBody) (timeout : Int)
    (expected : Context × Option Int) :
    ¬ IsEvent data expected
      (some (timeoutCopy data.toEventHeader seen timeout)) := by
  intro h
  rcases h with ⟨e, he, _, _, hcontext, _⟩
  rw [← Option.some.inj he] at hcontext
  cases hcontext

/-- What `emit` resolves to is the event exactly when no time-out is first and
the run does not end with a url to call back. -/
theorem resolved_isEvent_iff (resume : Text -> Option EventObject)
    (timeout : Int) (winner : Winner)
    (hemit : emit modules table order data world store = .ok result) :
    IsEvent data (expectedOf result timeout winner)
        (resolved resume data timeout winner result) <->
      timesOut timeout winner = false ∧ ¬ CallsUrl data result.calls := by
  have hrun := isEvent_run_iff resume hemit
  cases winner with
  | listeners =>
      constructor
      · intro h
        exact ⟨rfl, hrun.mp h⟩
      · intro h
        exact hrun.mpr h.right
  | sleep seen =>
      unfold expectedOf resolved timesOut
      dsimp only
      by_cases hpos : 0 < timeout
      · rw [if_pos hpos, if_pos hpos, decide_eq_true hpos]
        constructor
        · intro h
          exact absurd h (not_isEvent_timeoutCopy seen timeout _)
        · intro h
          cases h.left
      · rw [if_neg hpos, if_neg hpos, decide_eq_false hpos]
        constructor
        · intro h
          exact ⟨rfl, hrun.mp h⟩
        · intro h
          exact hrun.mpr h.right

theorem reply_ok_iff (resume : Text -> Option EventObject)
    (timeout : Int) (winner : Winner)
    (hemit : emit modules table order data world store = .ok result) :
    (exists r, reply (resolved resume data timeout winner result) = .ok r) <->
      timesOut timeout winner = false ∧ ¬ CallsUrl data result.calls := by
  have hiff := resolved_isEvent_iff resume timeout winner hemit
  constructor
  · intro h
    rcases h with ⟨r, hr⟩
    cases hresolved : resolved resume data timeout winner result with
    | none =>
        rw [hresolved] at hr
        cases hr
    | some e =>
        cases hcontext : e.context with
        | none =>
            rw [hresolved] at hr
            unfold reply at hr
            dsimp only at hr
            rw [hcontext] at hr
            cases hr
        | some context =>
            constructor
            · cases winner with
              | listeners => rfl
              | sleep seen =>
                  unfold timesOut
                  apply decide_eq_false
                  intro hpos
                  unfold resolved at hresolved
                  dsimp only at hresolved
                  rw [if_pos hpos] at hresolved
                  rw [← Option.some.inj hresolved] at hcontext
                  cases hcontext
            · intro hurl
              rcases invokeCallback_of_emit resume hemit with
                ⟨_, hnone⟩ | ⟨hnot, _⟩
              · unfold resolved at hresolved
                rw [hnone] at hresolved
                cases winner with
                | listeners => cases hresolved
                | sleep seen =>
                    dsimp only at hresolved
                    split at hresolved
                    · rw [← Option.some.inj hresolved] at hcontext
                      cases hcontext
                    · cases hresolved
              · exact hnot hurl
  · intro h
    rcases hiff.mpr h with ⟨e, he, _, _, hcontext, _⟩
    rw [he]
    unfold reply
    dsimp only
    rw [hcontext]
    dsimp only
    split
    · exact ⟨_, rfl⟩
    · exact ⟨_, rfl⟩

end Run

/-! ## An event with a callback and one that is late -/

def petRequestWith (callback : Option Text) : EventObject :=
  { petRequest with callback := callback }

def petEmitted (callback : Option Text) : Except Thrown (RunResult Unit) :=
  emit (servicesWith quietFun) (twoListeners 1) .stored
    (petRequestWith callback) ⟨none, ()⟩ .empty

theorem resolved_petRequest :
    exists result, petEmitted none = .ok result ∧
      (IsEvent (petRequestWith none) (expectedOf result 1000 .listeners)
          (resolved (fun _ => none) (petRequestWith none) 1000 .listeners
            result) <->
        timesOut 1000 .listeners = false ∧
          ¬ CallsUrl (petRequestWith none) result.calls) := by
  refine ⟨_, rfl, ?_⟩
  exact resolved_isEvent_iff (fun _ => none) 1000 .listeners
    (show petEmitted none = .ok _ from rfl)

def doneUrl : Option Text := some "https://a.b/done".toList

/-- A completed event with a callback is lost, and a time-out answers without
the context; the controller fails on both. -/
theorem emit_loses_event :
    exists result late, petEmitted doneUrl = .ok result ∧
      resolved (fun _ => none) (petRequestWith doneUrl) 0 .listeners result =
        none ∧
      reply none = .error (.readUndefined "id".toList) ∧
      resolved (fun _ => none) (petRequestWith doneUrl) 1000
          (.sleep (petRequestWith doneUrl).toEventBody) result = some late ∧
      late.context = none ∧
      reply (some late) = .error (.readUndefined "resp".toList) :=
  ⟨_, _, rfl, rfl, rfl, rfl, rfl, rfl⟩

end Clients
end CallgentApi
