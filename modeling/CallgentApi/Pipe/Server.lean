import CallgentApi.Lib.Separator
import CallgentApi.Lib.Json

/-!
# The server end of the pipe

What `onLine` of `_spawnOrRestoreSubprocess` makes of a line, and the message
it writes back for a command whose chain ended with a response.
-/

namespace CallgentApi
namespace Pipe

open Js

/-- The branches of `onLine`. -/
inductive Line where
  | ignored
  | finalResponse (content : Text)
  | finalError (content : Text)
  /-- `cmdCode` is missing when the request key has no colon. -/
  | command (cmdCode : Option Text) (content : Text)
deriving DecidableEq

/-- `onLine` up to the call of the chain. -/
def readLine (cmdPrefix msg : Text) : Line :=
  if startsWith msg (cmdPrefix ++ ['|']) then
    match msg.splitOn '|' with
    | _ :: requestKey :: cmd =>
        let cmdString := join '|' cmd
        let cmdCode := (requestKey.splitOn ':')[1]?
        match cmdCode.bind parseInt with
        | some code =>
            if code = 0 then .finalResponse cmdString
            else if 0 < code then .finalError cmdString
            else .command cmdCode cmdString
        -- `NaN` compares false with `0` both times
        | none => .command cmdCode cmdString
    | _ => .ignored
  else .ignored

/-- A reply message: `cmdPrefix|key|payload`, without a terminator. -/
def replyMessage (cmdPrefix key payload : Text) : Text :=
  Separator.record '|' cmdPrefix key payload

/-- `JSON.stringify(r)` in a template string; `none` is `undefined`. -/
def payloadText (r : Option Json) : Text :=
  interpolate (r.map Json.stringify)

theorem payloadText_ne_nil (r : Option Json) : payloadText r ≠ [] := by
  cases r with
  | none => decide
  | some v => exact Json.stringify_ne_nil v

theorem cmdCode_of_readLine {cmdPrefix msg content code : Text}
    (h : readLine cmdPrefix msg = .command (some code) content) :
    exists requestKey, requestKey ∈ msg.splitOn '|' ∧
      code ∈ requestKey.splitOn ':' := by
  unfold readLine at h
  split at h
  · split at h
    · rename_i requestKey cmd hsplit
      refine ⟨requestKey, by simp [hsplit], ?_⟩
      have hcode : (requestKey.splitOn ':')[1]? = some code := by
        dsimp only at h
        split at h
        · split_ifs at h
          exact (Line.command.inj h).left
        · exact (Line.command.inj h).left
      exact List.mem_of_getElem? hcode
    · cases h
  · cases h

theorem replyKey_of_readLine {cmdPrefix msg content : Text}
    {cmdCode : Option Text}
    (h : readLine cmdPrefix msg = .command cmdCode content) :
    ':' ∉ interpolate cmdCode ∧ '|' ∉ interpolate cmdCode := by
  cases cmdCode with
  | none => decide
  | some code =>
      rcases cmdCode_of_readLine h with ⟨requestKey, hkey, hcode⟩
      constructor
      · exact Separator.not_mem_of_mem_splitOn hcode
      · intro hbar
        exact Separator.not_mem_of_mem_splitOn hkey
          (Separator.mem_of_mem_splitOn hcode hbar)

end Pipe
end CallgentApi
