import CallgentApi.Pipe.Server
import CallgentApi.Invoke.Chain

/-!
# The invoke service

A request is invoked directly, through one chain, or by a task script in a
subprocess that sends a command for each endpoint it needs.  A subprocess whose
command is pending is frozen, and restored when the response has come.
-/

namespace CallgentApi
namespace Invoke

open Js Event Pipe

variable {sigma : Type}

/-- What a subprocess does while the service waits for it: the lines it writes
and its exit code, which is missing when it was killed. -/
structure Session where
  lines : List Text
  exitCode : Except Thrown (Option Int)

structure InvokeHost (sigma : Type) extends ChainHost sigma where
  uploadBaseDir : Text
  spawnOrRestore : List Text -> Text -> Option Text ->
    Effect sigma Thrown Session
  freezeProcess : List Text -> Effect sigma Thrown Unit
  /-- `JSON.parse`; an error carries its stack. -/
  parseJson : Text -> Except Text Json

/-- `JSON.stringify(r)`. -/
def PendingOrResponse.toJson (r : PendingOrResponse) : Json :=
  .obj
    ((r.statusCode.map fun s => ("statusCode".toList, Json.num (.ofInt s))).toList ++
      (r.message.map fun m => ("message".toList, Json.str m)).toList ++
      (r.value.map fun d => ("data".toList, d)).toList)

/-- The `finally` block of `_invokeSEP`: the invocation is kept while it is
pending. -/
def settle (invokeId : Text)
    (result : Option (InvokeStatus × Option PendingOrResponse))
    (s : CallState sigma) : CallState sigma :=
  let resp := result.bind Prod.snd
  let inv := s.event.context.invocations
  let inv :=
    match result with
    | some (status, resp) =>
        if PendingOrResponse.isPending resp then inv.set invokeId status
        else inv.delete invokeId
    | none => inv.delete invokeId
  { s with
      event :=
        { s.event.withInvocations inv with
            message := resp.bind PendingOrResponse.message }
      world := { s.world with invokeId := none } }

/-- The invocation filed under an id; a new one is filed when there is none. -/
def openInvocation (epName : Option Text) (args : Value) (invokeId : Text) :
    Action sigma InvokeStatus := do
  let reqEvent ← Action.getEvent
  match reqEvent.context.invocations.entries invokeId with
  | some invocation => return invocation
  | none =>
      let invocation : InvokeStatus :=
        { invokeId := invokeId
          epName := epName
          args := args
          response := none
          processor := none
          cacheKey := none
          cacheTtl := none }
      Action.modifyInvocations fun inv => inv.set invokeId invocation
      return invocation

/-- `_invokeSEP`; a missing invoke id is the empty one. -/
def invokeSEP (host : InvokeHost sigma) (epName : Option Text) (args : Value)
    (invokeId : Option Text) : Action sigma (Option PendingOrResponse) := do
  let invokeId := invokeId.getD []
  let invocation ← openInvocation epName args invokeId
  Action.setInvokeId (some invokeId)
  let (_, resp) ←
    Effect.finally_ (chain host.toChainHost invocation) (settle invokeId)
  return resp

/-! ## Task scripts -/

/-- The variables that `onLine` assigns. -/
structure PipeState where
  finalResponse : Option Text
  finalError : Option Text
  frozenKilled : Bool

/-- The endpoint name and arguments of a command. -/
def commandOf (v : Json) : Option Text × Value :=
  (match v.field "epName".toList with
    | some (.str epName) => some epName
    | _ => none,
    v.field "args".toList)

/-- `onLine`; a command that throws is a rejected promise nobody waits for. -/
def onLine (host : InvokeHost sigma) (cwd : List Text) (cmdPrefix : Text)
    (pipe : PipeState) (msg : Text) : Action sigma PipeState :=
  match readLine cmdPrefix msg with
  | .ignored => return pipe
  | .finalResponse content => return { pipe with finalResponse := some content }
  | .finalError content => return { pipe with finalError := some content }
  | .command cmdCode content =>
      match host.parseJson content with
      | .error _ | .ok .null => return pipe
      | .ok v => do
          let (epName, args) := commandOf v
          match ← Effect.attempt (invokeSEP host epName args cmdCode) with
          | none => return pipe
          | some r =>
              if PendingOrResponse.isPending r then
                Action.callSubprocess (.freeze cwd)
                match ← Effect.attempt (Action.outside (host.freezeProcess cwd)) with
                | none => return pipe
                | some _ => return { pipe with frozenKilled := true }
              else
                Action.callSubprocess (.write (replyMessage cmdPrefix
                  (interpolate cmdCode)
                  (payloadText (r.map PendingOrResponse.toJson))))
                return pipe

def onLines (host : InvokeHost sigma) (cwd : List Text) (cmdPrefix : Text) :
    List Text -> PipeState -> Action sigma PipeState
  | [], pipe => return pipe
  | msg :: rest, pipe => do
      let pipe ← onLine host cwd cmdPrefix pipe msg
      onLines host cwd cmdPrefix rest pipe

def scriptError (message : Option Text) : PendingOrResponse where
  statusCode := some 1
  message := message
  data := none

/-- The result of a subprocess that has exited. -/
def exitResult (host : InvokeHost sigma) (pipe : PipeState)
    (exitCode : Option Int) : PendingOrResponse :=
  -- a frozen process was killed and exits with 128 + 9
  if exitCode.getD 0 ≠ 0 ∧ (pipe.frozenKilled = false ∨ exitCode ≠ some 137) then
    scriptError (some ("Task Subprocess exited with code ".toList ++
      decimal (exitCode.getD 0)))
  else if pipe.frozenKilled then
    { PendingOrResponse.pending with
        message := some "Subprocess frozen, waiting for callback".toList }
  else
    match pipe.finalResponse with
    | none => scriptError pipe.finalError
    | some [] => .ofData (some (.str []))
    | some text =>
        match host.parseJson text with
        | .ok data => .ofData (some data)
        | .error stack =>
            scriptError (some (Json.arr [.str text, .str stack]).stringify)

/-- The last three characters of the task id mark the lines of the pipe. -/
def commandPrefix (reqEvent : EventObject) : Text :=
  substringFrom reqEvent.taskId (Int.ofNat reqEvent.taskId.length - 3)

theorem commandPrefix_congr {a b : EventObject}
    (h : a.toEventHeader = b.toEventHeader) :
    commandPrefix a = commandPrefix b := by
  unfold commandPrefix
  rw [h]

/-- What is sent to the subprocess as soon as it connects. -/
def callbackMessage (cmdPrefix invokeId : Text) (response : Value) :
    Option Text :=
  if (response.map Json.truthy) = some true then
    some (replyMessage cmdPrefix invokeId (payloadText response))
  else none

/-- `_spawnOrRestoreSubprocess`. -/
def spawnOrRestoreSubprocess (host : InvokeHost sigma) (kind : ObjectKind)
    (response : Value) (invokeId : Text) : Action sigma PendingOrResponse := do
  let reqEvent ← Action.getEvent
  match getTaskCwd kind reqEvent host.uploadBaseDir with
  | .error e => throw e
  | .ok cwd =>
      let cmdPrefix := commandPrefix reqEvent
      let message := callbackMessage cmdPrefix invokeId response
      Action.callSubprocess (.spawnOrRestore cwd cmdPrefix message)
      let session ← Action.outside (host.spawnOrRestore cwd cmdPrefix message)
      let pipe ← onLines host cwd cmdPrefix session.lines ⟨none, none, false⟩
      match session.exitCode with
      | .error e => throw e
      | .ok exitCode => return exitResult host pipe exitCode

/-! ## The two entries -/

def invokeSEPs (host : InvokeHost sigma) (kind : ObjectKind) :
    Action sigma (Option PendingOrResponse) := do
  let reqEvent ← Action.getEvent
  match reqEvent.context.map2Endpoints with
  | none => throw (Thrown.readUndefined "requestArgs".toList)
  | some map2Endpoints =>
      match truthy reqEvent.context.epName with
      | some epName => invokeSEP host (some epName) map2Endpoints.requestArgs (some [])
      | none => return some (← spawnOrRestoreSubprocess host kind none [])

def invokeIdRequired : Thrown :=
  .plain "invokeId is required for invocation callback".toList

def callbackIsPending (invokeId : Text) : Thrown :=
  .plain ("Callback response should not be pending, invokeId=".toList ++
    invokeId)

/-- `response.data`, for the response of a callback. -/
def callbackData (invokeId : Text) (response : Option PendingOrResponse) :
    Action sigma Value :=
  if PendingOrResponse.isPending response then throw (callbackIsPending invokeId)
  else
    match response with
    | none => throw (Thrown.readUndefined "data".toList)
    | some response => return response.value

/-- `invokeSEPsCallback` once its chain has ended; nothing is returned after a
direct invocation. -/
def afterCallback (host : InvokeHost sigma) (kind : ObjectKind)
    (invokeId : Text) (response : Option PendingOrResponse) :
    Action sigma (Option PendingOrResponse) := do
  let data ← callbackData invokeId response
  let reqEvent ← Action.getEvent
  if (truthy reqEvent.context.epName).isSome then
    Action.modifyContext fun context => { context with resp := data }
    return none
  else return some (← spawnOrRestoreSubprocess host kind data invokeId)

def invokeSEPsCallback (host : InvokeHost sigma) (kind : ObjectKind) :
    Action sigma (Option PendingOrResponse) := do
  let s ← get
  match s.world.invokeId with
  | none => throw invokeIdRequired
  | some invokeId =>
      match s.event.context.invocations.entries invokeId with
      | none => throw (invocationNotFound invokeId)
      | some _ => do
          let response ← invokeSEP host none none (some invokeId)
          afterCallback host kind invokeId response

end Invoke
end CallgentApi
