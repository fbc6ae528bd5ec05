import CallgentApi.Invoke.Service

/-!
# The script runner

`runAndFix` invokes the endpoints of a request, and is to run a failed script
again once the script has been fixed.  `runAndFixCallback` goes on after a
pending invocation.
-/

namespace CallgentApi
namespace Invoke

open Js Event

variable {sigma : Type}

def runAndFixCallbackName : Text := "runAndFixCallback".toList

/-- `ScriptAgentService.fixScriptError`, which fixes nothing yet. -/
def fixScriptError (_message : Option Text) (_reqEvent : EventObject) : Bool :=
  false

/-- `_handleResult`; `again` is the next `runAndFix`. -/
def handleResult (again : Action sigma (Option Returned))
    (result : Option PendingOrResponse) : Action sigma (Option Returned) :=
  match result with
  | none => throw (Thrown.readUndefined "statusCode".toList)
  | some result =>
      if result.statusCode = some 2 then
        return some ⟨some runAndFixCallbackName⟩
      else
        match result.data with
        | some data => do
            Action.modifyContext fun context => { context with resp := data }
            return none
        | none => do
            let reqEvent ← Action.getEvent
            let retry := reqEvent.context.invocations.retry.getD 0
            if 3 < retry then
              throw (Thrown.plain ("Task script failed(3x), error: ".toList ++
                interpolate result.message))
            else if fixScriptError result.message reqEvent = false then
              throw (Thrown.plain
                ("Failed to fix task script, error: ".toList ++
                  interpolate result.message))
            else
              Action.modifyInvocations fun _ =>
                { Invocations.empty with retry := some (1 + retry) }
              again

/-- `runAndFix` with at most `n` more runs. -/
def runAndFixWithin (host : InvokeHost sigma) (kind : ObjectKind) :
    Nat -> Action sigma (Option Returned)
  | 0 => throw (Thrown.plain "Maximum call stack size exceeded".toList)
  | n + 1 => do
      let result ← invokeSEPs host kind
      handleResult (runAndFixWithin host kind n) result

/-- The retries are counted, and the fifth run is the last one. -/
def runAndFix (host : InvokeHost sigma) (kind : ObjectKind) :
    Action sigma (Option Returned) :=
  runAndFixWithin host kind 5

def runAndFixCallback (host : InvokeHost sigma) (kind : ObjectKind) :
    Action sigma (Option Returned) := do
  let result ← invokeSEPsCallback host kind
  handleResult (runAndFix host kind) result

/-- The functions of `ScriptRunnerAgent`. -/
def scriptRunnerAgent (host : InvokeHost sigma) (kind : ObjectKind) :
    Service sigma :=
  serviceOf
    [("runAndFix".toList, runAndFix host kind),
      (runAndFixCallbackName, runAndFixCallback host kind)]

/-! ## Spec of the result handler -/

open Effect

theorem handleResult_returned {again : Action sigma (Option Returned)}
    {result : Option PendingOrResponse} {returned : Option Returned}
    {s next : CallState sigma}
    (h : (handleResult again result).exec s = (.ok returned, next)) :
    returned = if PendingOrResponse.isPending result then
      some ⟨some runAndFixCallbackName⟩ else none := by
  unfold handleResult at h
  cases result with
  | none => cases h
  | some r =>
      dsimp only at h
      by_cases hstatus : r.statusCode = some 2
      · rw [if_pos hstatus] at h
        cases h
        simp [PendingOrResponse.isPending, hstatus]
      · rw [if_neg hstatus] at h
        have hpending : PendingOrResponse.isPending (some r) = false := by
          simpa [PendingOrResponse.isPending] using hstatus
        rw [hpending]
        cases hdata : r.data with
        | some data =>
            rw [hdata] at h
            rcases exec_bind_eq_ok h with ⟨_, _, _, hreturn⟩
            cases hreturn
            rfl
        | none =>
            rw [hdata] at h
            rcases exec_bind_eq_ok h with ⟨reqEvent, _, _, hthrew⟩
            dsimp only [fixScriptError] at hthrew
            split at hthrew
            · cases hthrew
            · cases hthrew

theorem exec_handleResult_of_pending {result : Option PendingOrResponse}
    (h : PendingOrResponse.isPending result = true)
    (again : Action sigma (Option Returned)) (s : CallState sigma) :
    (handleResult again result).exec s =
      (.ok (some ⟨some runAndFixCallbackName⟩), s) := by
  cases result with
  | none => cases h
  | some r =>
      have hstatus : r.statusCode = some 2 := by
        simpa [PendingOrResponse.isPending] using h
      simp only [handleResult, hstatus, if_true, exec_pure]

theorem kept_handleResult (again : Action sigma (Option Returned))
    (result : Option PendingOrResponse) :
    Keeps CallState.kept (handleResult again result) := by
  unfold handleResult
  split
  · exact Keeps.throw _
  · split
    · exact Keeps.pure _
    · split
      · refine Keeps.bind (kept_modifyContext (fun _ => rfl) fun _ => rfl) ?_
        exact fun _ => Keeps.pure _
      · refine Keeps.bind kept_getEvent fun reqEvent => ?_
        dsimp only [fixScriptError]
        split
        · exact Keeps.throw _
        · exact Keeps.throw _

end Invoke
end CallgentApi
