import Mathlib.Data.Finset.Basic
import CallgentApi.Lib.Separator
import CallgentApi.Lib.Json

/-!
# The pipe client of a task script

`PipeClient` numbers the commands of a task script, writes one line for each,
and resolves the promise of a command when a message with its request id
arrives.  A pending request is known by the request id it was stored under,
which is never used twice.
-/

namespace CallgentApi
namespace Pipe

open Js

structure PipeClient where
  cmdPrefix : Text
  requestPrefix : Text
  nextRequestId : Int
  pendingRequests : Finset Text
  /-- The promises resolved so far: request id and value. -/
  resolved : List (Text × Text)
  /-- The request ids logged as unexpected. -/
  unexpected : List Text

namespace PipeClient

def init (cmdPrefix requestPrefix : Text) : PipeClient where
  cmdPrefix := cmdPrefix
  requestPrefix := requestPrefix
  nextRequestId := 0
  pendingRequests := ∅
  resolved := []
  unexpected := []

/-- The request id of a command: `requestPrefix:code`. -/
def requestKey (client : PipeClient) (code : Int) : Text :=
  client.requestPrefix ++ ':' :: decimal code

/-- The line of a key and its content, with the line feed that ends it. -/
def line (client : PipeClient) (key content : Text) : Text :=
  Separator.record '|' client.cmdPrefix key content ++ ['\n']

/-- `sendCommand`: the client afterwards, the request id, the text written. -/
def sendCommand (client : PipeClient) (cmd : Text) :
    PipeClient × Text × Text :=
  let next := client.nextRequestId - 1
  let requestId := client.requestKey next
  ({ client with
      nextRequestId := next
      pendingRequests := insert requestId client.pendingRequests },
    requestId, client.line requestId cmd)

/-- The text `sendResult` writes for a code and the arguments, an error among
them replaced by its stack. -/
def sendResult (client : PipeClient) (code : Int) (args : List Json) : Text :=
  client.line (client.requestKey code) (Json.arr args).stringify

/-- The `data` handler: a chunk is read as one reply, whatever it holds. -/
def onData (client : PipeClient) (response : Text) : PipeClient :=
  match response.splitOn '|' with
  | cmdPrefix :: rest =>
      if cmdPrefix ≠ client.cmdPrefix then client
      else
        -- `requestId` is undefined when the chunk has no separator
        let requestId := rest.head?
        let fullResponse := rest.drop 1
        match requestId with
        | none =>
            { client with
                unexpected := client.unexpected ++ [interpolate none] }
        | some requestId =>
            if requestId ∈ client.pendingRequests then
              { client with
                  resolved :=
                    client.resolved ++ [(requestId, join '|' fullResponse)]
                  pendingRequests := client.pendingRequests.erase requestId }
            else
              { client with unexpected := client.unexpected ++ [requestId] }
  | [] => client

/-- What a chunk does to a client: it is dropped, logged, or resolves the
pending request whose id stands between its first two separators. -/
theorem onData_cases (client : PipeClient) (response : Text) :
    client.onData response = client ∨
    (exists id, client.onData response =
      { client with unexpected := client.unexpected ++ [id] }) ∨
    (exists id pieces,
      response.splitOn '|' = client.cmdPrefix :: id :: pieces ∧
      id ∈ client.pendingRequests ∧
      client.onData response =
        { client with
            resolved := client.resolved ++ [(id, join '|' pieces)]
            pendingRequests := client.pendingRequests.erase id }) := by
  unfold onData
  cases hsplit : response.splitOn '|' with
  | nil => exact Or.inl rfl
  | cons first rest =>
      by_cases hhead : first ≠ client.cmdPrefix
      · exact Or.inl (by simp [hhead])
      · have hfirst : first = client.cmdPrefix := not_not.mp hhead
        subst hfirst
        cases rest with
        | nil =>
            exact Or.inr (Or.inl ⟨interpolate none, by simp⟩)
        | cons id pieces =>
            by_cases hid : id ∈ client.pendingRequests
            · refine Or.inr (Or.inr ⟨id, pieces, rfl, hid, ?_⟩)
              simp [hid]
            · exact Or.inr (Or.inl ⟨id, by simp [hid]⟩)

theorem onData_of_pending {client : PipeClient} {response id : Text}
    {pieces : List Text}
    (hsplit : response.splitOn '|' = client.cmdPrefix :: id :: pieces)
    (hid : id ∈ client.pendingRequests) :
    client.onData response =
      { client with
          resolved := client.resolved ++ [(id, join '|' pieces)]
          pendingRequests := client.pendingRequests.erase id } := by
  simp [onData, hsplit, hid]

@[simp] theorem onData_cmdPrefix (client : PipeClient) (response : Text) :
    (client.onData response).cmdPrefix = client.cmdPrefix := by
  rcases onData_cases client response with h | ⟨id, h⟩ | ⟨id, _, _, _, h⟩ <;>
    rw [h]

@[simp] theorem onData_requestPrefix (client : PipeClient) (response : Text) :
    (client.onData response).requestPrefix = client.requestPrefix := by
  rcases onData_cases client response with h | ⟨id, h⟩ | ⟨id, _, _, _, h⟩ <;>
    rw [h]

theorem onData_pendingRequests_subset (client : PipeClient) (response : Text) :
    (client.onData response).pendingRequests ⊆ client.pendingRequests := by
  rcases onData_cases client response with h | ⟨id, h⟩ | ⟨id, _, _, _, h⟩
  · rw [h]
  · rw [h]
  · rw [h]
    exact Finset.erase_subset id client.pendingRequests

/-- The separators of the pipe can be told from the prefixes. -/
structure Separable (client : PipeClient) : Prop where
  bar_cmdPrefix : '|' ∉ client.cmdPrefix
  feed_cmdPrefix : '\n' ∉ client.cmdPrefix
  bar_requestPrefix : '|' ∉ client.requestPrefix
  colon_requestPrefix : ':' ∉ client.requestPrefix
  feed_requestPrefix : '\n' ∉ client.requestPrefix

theorem colon_mem_requestKey (client : PipeClient) (code : Int) :
    ':' ∈ client.requestKey code := by
  simp [requestKey]

end PipeClient
end Pipe
end CallgentApi
