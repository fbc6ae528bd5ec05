import CallgentApi.Clients.Controllers
import CallgentApi.Event.Resumption

/-!
# The columns of the event store

The texts of an event come from its request and from its listeners, and they
are stored in columns of a bounded width.  Which of them fit is decided by the
name of the endpoint and by the last listener that is called.
-/

namespace CallgentApi
namespace Clients

open Js Event

variable {sigma : Type}

/-- The texts of an event within the columns of `EventStore`. -/
structure FitsColumns (event : EventObject) : Prop where
  title : event.title.length ≤ 144
  message : (event.message.getD []).length ≤ 2047
  callback : (event.callback.getD []).length ≤ 1023
  taskId : event.taskId.length ≤ 35

instance (event : EventObject) : Decidable (FitsColumns event) :=
  decidable_of_iff
    (event.title.length ≤ 144 ∧ (event.message.getD []).length ≤ 2047 ∧
      (event.callback.getD []).length ≤ 1023 ∧ event.taskId.length ≤ 35)
    ⟨fun h => ⟨h.left, h.right.left, h.right.right.left, h.right.right.right⟩,
      fun h => ⟨h.title, h.message, h.callback, h.taskId⟩⟩

section Call

variable {db : Lookups} {call : ClientCall} {args : ClientRequestArgs}

theorem callback_finalBody (last : Call) :
    last.finalBody.callback = last.body.callback := by
  unfold Call.finalBody
  cases last.ending with
  | returned resumeFunName => rfl
  | threw e => rfl

end Call

/-! ## Names and messages of different lengths -/

/-- What is emitted for a direct invocation, to listeners of which the first
one is given. -/
def emitted (args : ClientRequestArgs) (first : ServiceFun Unit) :
    Except Thrown (RunResult Unit) :=
  emit (servicesWith first) (twoListeners 1) .stored
    (args.event someId newYear) ⟨none, ()⟩ .empty

end Clients
end CallgentApi
