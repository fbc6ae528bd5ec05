import CallgentApi.Event.Object

/-!
# The event store

One row for each event, found by the event's id.  A reloaded row is a plain
record with the fields of the event; `funName` and `listenerId` say where a
pending event goes on.
-/

namespace CallgentApi
namespace Event

open Js

structure EventRow extends EventObject where
  funName : Option Text
  listenerId : Option Text

structure EventStore where
  rows : Text -> Option EventRow
  rows_id : forall id row, rows id = some row -> row.id = id

namespace EventStore

instance : CoeFun EventStore fun _ => Text -> Option EventRow :=
  ⟨EventStore.rows⟩

def empty : EventStore where
  rows := fun _ => none
  rows_id := by simp

def findOne (store : EventStore) (eventId : Text) : Option EventRow :=
  store eventId

/-- The row `upsertEvent` writes over the one there is.  An event that has a row
has been read from it: what it lacks is `null`, which is written, and only
`funName` and `listenerId` are ever `undefined`. -/
def upsertRow (old : Option EventRow) (event : EventObject)
    (funName listenerId : Option Text) : EventRow :=
  if event.statusCode = some 0 then
    -- an undefined column is left as it is, or null in a new row
    { event with
        funName := (truthy funName).or (old.bind EventRow.funName)
        listenerId := (truthy listenerId).or (old.bind EventRow.listenerId) }
  else { event with funName := funName, listenerId := listenerId }

@[simp] theorem upsertRow_toEventObject (old : Option EventRow)
    (event : EventObject) (funName listenerId : Option Text) :
    (upsertRow old event funName listenerId).toEventObject = event := by
  unfold upsertRow
  split <;> rfl

theorem upsertRow_of_not_done {old : Option EventRow} {event : EventObject}
    (h : event.statusCode ≠ some 0) (funName listenerId : Option Text) :
    upsertRow old event funName listenerId =
      { event with funName := funName, listenerId := listenerId } :=
  if_neg h

def upsertEvent (store : EventStore) (event : EventObject)
    (funName listenerId : Option Text) : EventStore where
  rows := Function.update store event.id
    (some (upsertRow (store event.id) event funName listenerId))
  rows_id := by
    intro id row hrow
    by_cases hid : id = event.id
    · subst hid
      rw [Function.update_self] at hrow
      rw [← Option.some.inj hrow, upsertRow_toEventObject]
    · rw [Function.update_of_ne hid] at hrow
      exact store.rows_id id row hrow

@[simp] theorem upsertEvent_self (store : EventStore) (event : EventObject)
    (funName listenerId : Option Text) :
    store.upsertEvent event funName listenerId event.id =
      some (upsertRow (store event.id) event funName listenerId) := by
  simp [upsertEvent]

theorem upsertEvent_of_ne (store : EventStore) {event : EventObject}
    {id : Text} (h : id ≠ event.id) (funName listenerId : Option Text) :
    store.upsertEvent event funName listenerId id = store id := by
  simp [upsertEvent, h]

end EventStore
end Event
end CallgentApi
