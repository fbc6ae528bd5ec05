import CallgentApi.Invoke.Outcome

/-!
# The result of a task script

The runner sends what `execute()` resolves with as the last line of the script.
It writes the text of the result into an array of arguments and the text of that
array into the line; the service reads one of the two texts.
-/

namespace CallgentApi
namespace Pipe

open Js

namespace PipeClient

/-- What the runner writes when `execute()` has resolved. -/
def sendResponse (client : PipeClient) (result : Json) : Text :=
  if result.truthy then client.sendResult 0 [.str result.stringify] else []

/-- A line that the client writes before a result: a heartbeat or a
command. -/
inductive Writes (client : PipeClient) : Text -> Prop where
  | heartbeat : Writes client "ping".toList
  | command (n : Nat) (cmd : Text) :
      Writes client (Separator.record '|' client.cmdPrefix
        (client.requestKey (Int.negSucc n)) cmd)

end PipeClient

theorem readLine_heartbeat (cmdPrefix : Text) :
    readLine cmdPrefix "ping".toList = .ignored := by
  have hstarts : ¬ startsWith "ping".toList (cmdPrefix ++ ['|']) = true := by
    intro h
    have hmem : '|' ∈ "ping".toList :=
      (List.isPrefixOf_iff_prefix.mp h).subset
        (List.mem_append_right cmdPrefix List.mem_cons_self)
    revert hmem
    decide
  unfold readLine
  rw [if_neg hstarts]

theorem readLine_result {client : PipeClient} (h : client.Separable)
    (content : Text) :
    readLine client.cmdPrefix
        (Separator.record '|' client.cmdPrefix (client.requestKey 0) content) =
      .finalResponse content := by
  have hread := Session.readLine_record "0".toList content h.bar_cmdPrefix
    h.bar_requestPrefix h.colon_requestPrefix (by decide) (by decide)
  have hzero : parseInt "0".toList = some 0 := by decide
  rw [hzero] at hread
  exact hread

theorem linesOf_sendResult {client : PipeClient} (h : client.Separable)
    (args : List Json) :
    Session.linesOf (client.sendResult 0 args) =
      [Separator.record '|' client.cmdPrefix (client.requestKey 0)
        (Json.arr args).stringify] := by
  have hkey : '\n' ∉ client.requestKey 0 := by
    have hzero : '\n' ∉ decimal 0 := by decide
    simp [PipeClient.requestKey, h.feed_requestPrefix, hzero]
  exact Session.linesOf_line h.feed_cmdPrefix hkey
    (Json.lineFeed_not_mem_stringify _)

end Pipe

namespace Invoke

open Js Event Pipe Effect

variable {sigma : Type}

theorem lastResponse_sendResponse {client : PipeClient}
    {before : List Text} (h : client.Separable)
    (hbefore : forall msg, msg ∈ before -> client.Writes msg) (v : Json) :
    lastResponse client.cmdPrefix
        (before ++ Session.linesOf (client.sendResponse v)) =
      if v.truthy then some (Json.arr [.str v.stringify]).stringify
      else none := by
  have hnone : lastResponse client.cmdPrefix before = none := by
    apply lastOf_eq_none
    intro msg hmsg
    unfold responseOf
    cases hbefore msg hmsg with
    | heartbeat => rw [readLine_heartbeat]
    | command n cmd =>
        rw [Session.readLine_requestLine h.bar_cmdPrefix h.bar_requestPrefix
          h.colon_requestPrefix]
  unfold PipeClient.sendResponse
  cases v.truthy with
  | false =>
      rw [if_neg Bool.false_ne_true, if_neg Bool.false_ne_true]
      have hempty : Session.linesOf [] = [] := rfl
      rw [hempty, List.append_nil]
      exact hnone
  | true =>
      rw [if_pos rfl, if_pos rfl, linesOf_sendResult h]
      apply (lastOf_append_singleton (responseOf client.cmdPrefix) before
        _).trans
      unfold responseOf
      rw [readLine_result h, Option.some_or]

section Result

variable {host : InvokeHost sigma} {kind : ObjectKind} {response : Value}
  {invokeId : Text} {s : CallState sigma} {client : PipeClient}
  {before : List Text} {v : Json}

/-- Whatever the script resolves with, the service does not return it: a falsy
result is never sent, and of any other the service returns the array that holds
its text. -/
theorem script_result_lost (hclient : client.Separable)
    (hhead : client.cmdPrefix = commandPrefix s.event)
    (hbefore : forall msg, msg ∈ before -> client.Writes msg)
    (hparse : host.parseJson (Json.arr [.str v.stringify]).stringify =
      .ok (.arr [.str v.stringify]))
    (h : Spawned host kind response invokeId s
      (before ++ Session.linesOf (client.sendResponse v)) (some 0)) :
    exists result last,
      (spawnOrRestoreSubprocess host kind response invokeId).exec s =
        (.ok result, last) ∧
      result ≠ .ofData (some v) := by
  rcases exec_spawnOrRestoreSubprocess h with
    ⟨pipe, last, _, hexec, hresponse, _, _⟩
  rw [← hhead, lastResponse_sendResponse hclient hbefore] at hresponse
  refine ⟨_, last, hexec, ?_⟩
  have hclean : ExitsClean pipe.frozenKilled (some 0) := Or.inl rfl
  rw [exitResult_of_clean hclean]
  cases hfrozen : pipe.frozenKilled with
  | true =>
      intro heq
      have hpending : PendingOrResponse.isPending
          (some (exitResult host pipe none)) = true :=
        exitResult_of_frozen hfrozen
      rw [heq] at hpending
      cases hpending
  | false =>
      rw [exitResult_of_running hfrozen, hresponse]
      cases v.truthy with
      | false =>
          rw [if_neg Bool.false_ne_true]
          intro heq
          cases heq
      | true =>
          rw [if_pos rfl]
          have hread : readResponse host (Json.arr [.str v.stringify]).stringify
              = .ok (.arr [.str v.stringify]) := hparse
          dsimp only
          rw [hread]
          intro heq
          have hdata := congrArg PendingOrResponse.value heq
          exact Json.arr_str_stringify_ne v (Option.some.inj hdata)

end Result

/-! ## A script that ends well -/

/-- A script that sends these lines and exits with code 0; every content of a
line is the text `"done"` in an array. -/
def doneHost (lines : List Text) : InvokeHost Unit :=
  { mailHost with
      spawnOrRestore := fun _ _ _ => return ⟨lines, .ok (some 0)⟩
      parseJson := fun _ => .ok (.arr [.str "\"done\"".toList]) }

def doneClient : PipeClient :=
  PipeClient.init "-e1".toList "x".toList

def doneLines (v : Json) : List Text :=
  ["ping".toList] ++ Session.linesOf (doneClient.sendResponse v)

def doneSpawned (lines : List Text) :
    Spawned (doneHost lines) .constructed none [] failingCall lines
      (some 0) where
  cwd := failingSpawned.cwd
  outside := ()
  taskCwd := failingSpawned.taskCwd
  session := rfl

theorem separable_doneClient : doneClient.Separable where
  bar_cmdPrefix := by decide
  feed_cmdPrefix := by decide
  bar_requestPrefix := by decide
  colon_requestPrefix := by decide
  feed_requestPrefix := by decide

theorem writes_heartbeat (client : PipeClient) :
    forall msg, msg ∈ ["ping".toList] -> client.Writes msg := by
  intro msg hmsg
  rw [List.mem_singleton.mp hmsg]
  exact PipeClient.Writes.heartbeat

/-- The script resolves with `"done"`. -/
theorem script_result_lost_done :
    exists result last,
      (spawnOrRestoreSubprocess (doneHost (doneLines (.str "done".toList)))
        .constructed none []).exec failingCall = (.ok result, last) ∧
      result ≠ .ofData (some (.str "done".toList)) := by
  have hhead : doneClient.cmdPrefix = commandPrefix failingCall.event :=
    commandPrefix_failingCall.symm
  have hparse : (doneHost (doneLines (.str "done".toList))).parseJson
      (Json.arr [.str (Json.str "done".toList).stringify]).stringify =
      .ok (.arr [.str (Json.str "done".toList).stringify]) := by
    rfl
  exact script_result_lost separable_doneClient hhead
    (writes_heartbeat doneClient) hparse (doneSpawned _)

/-- The script resolves with `false`, and the service reports a failure. -/
theorem false_result_fails :
    exists result last,
      (spawnOrRestoreSubprocess (doneHost (doneLines (.bool false)))
        .constructed none []).exec failingCall = (.ok result, last) ∧
      result.statusCode ≠ none ∧
      result ≠ .ofData (some (.bool false)) := by
  rcases exec_spawnOrRestoreSubprocess (doneSpawned (doneLines (.bool false)))
    with ⟨pipe, last, _, hexec, hresponse, _, _⟩
  have hsent := lastResponse_sendResponse separable_doneClient
    (writes_heartbeat doneClient) (.bool false)
  rw [commandPrefix_failingCall] at hresponse
  have hnone : pipe.finalResponse = none := hresponse.trans hsent
  have hstatus : (exitResult (doneHost (doneLines (.bool false))) pipe
      (some 0)).statusCode ≠ none := by
    rw [exitResult_of_clean (Or.inl rfl)]
    cases hfrozen : pipe.frozenKilled with
    | true =>
        intro hfailed
        have hpending : PendingOrResponse.isPending
            (some (exitResult (doneHost (doneLines (.bool false))) pipe none))
            = true :=
          exitResult_of_frozen hfrozen
        unfold PendingOrResponse.isPending at hpending
        rw [Option.bind_some, hfailed] at hpending
        cases hpending
    | false =>
        rw [exitResult_of_running hfrozen, hnone]
        exact Option.some_ne_none 1
  refine ⟨_, last, hexec, hstatus, ?_⟩
  intro heq
  rw [heq] at hstatus
  exact hstatus rfl

end Invoke
end CallgentApi
