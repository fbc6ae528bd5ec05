import CallgentApi.Lib.SortedCut
import CallgentApi.Event.Store

/-!
# Event listeners and their order

Listeners are rows of a table.  A query returns the rows that match an event
in an order of the database's own choosing; they are then sorted by priority
and by source, where `*` comes first.
-/

namespace CallgentApi
namespace Event

open Js SortedCut

inductive ServiceType where
  | callgent
  | service
deriving DecidableEq

structure EventListener where
  id : Text
  srcId : Text
  eventType : Text
  dataType : Text
  priority : Option Int
  serviceType : ServiceType
  serviceName : Text
  funName : Text
  /-- Logical deletion: the time, or `0`. -/
  deletedAt : Nat
  id_ne_nil : id ≠ [] := by decide
deriving DecidableEq

def star : Text := ['*']

namespace EventListener

def live (listener : EventListener) : Bool :=
  listener.deletedAt == 0

/-- The conditions of the query of `loadListeners` on the event. -/
def matchesEvent (listener : EventListener) (event : EventHeader) : Bool :=
  (listener.srcId == event.srcId || listener.srcId == star) &&
    (listener.eventType == event.eventType || listener.eventType == star) &&
    (listener.dataType == event.dataType || listener.dataType == star)

/-- The comparator of `loadListeners`; a null priority counts as `0`. -/
def compare (a b : EventListener) : Int :=
  let diff := a.priority.getD 0 - b.priority.getD 0
  if diff ≠ 0 then diff
  else (if a.srcId = star then -1 else 1) - (if b.srcId = star then -1 else 1)

/-- The comparator does not put the second listener before the first. -/
def notAfter (a b : EventListener) : Prop :=
  compare a b ≤ 0

instance : DecidableRel notAfter :=
  fun a b => inferInstanceAs (Decidable (compare a b ≤ 0))

theorem notAfter_iff (a b : EventListener) :
    a.notAfter b <->
      a.priority.getD 0 < b.priority.getD 0 ∨
        (a.priority.getD 0 = b.priority.getD 0 ∧
          (a.srcId = star ∨ b.srcId ≠ star)) := by
  unfold notAfter compare
  dsimp only
  by_cases hdiff : a.priority.getD 0 - b.priority.getD 0 = 0
  · rw [if_neg (not_not.mpr hdiff)]
    by_cases ha : a.srcId = star <;> by_cases hb : b.srcId = star <;>
      simp only [ha, hb, if_true, if_false, or_false, not_true_eq_false,
        not_false_eq_true, ne_eq, or_true, and_true, and_false] <;> omega
  · rw [if_pos hdiff]
    constructor
    · intro h
      exact Or.inl (by omega)
    · rintro (h | ⟨h, _⟩) <;> omega

instance : Std.Total notAfter where
  total := by
    intro a b
    rw [notAfter_iff, notAfter_iff]
    by_cases ha : a.srcId = star <;> by_cases hb : b.srcId = star <;>
      simp only [ha, hb, ne_eq, not_true_eq_false, not_false_eq_true,
        or_false, or_true, and_true, and_false] <;> omega

instance : IsTrans EventListener notAfter where
  trans := by
    intro a b c hab hbc
    rw [notAfter_iff] at hab hbc ⊢
    rcases hab with hab | ⟨hab, hstar⟩
    · rcases hbc with hbc | ⟨hbc, _⟩
      · exact Or.inl (Int.lt_trans hab hbc)
      · exact Or.inl (hbc ▸ hab)
    · rcases hbc with hbc | ⟨hbc, hstar'⟩
      · exact Or.inl (hab ▸ hbc)
      · refine Or.inr ⟨hab.trans hbc, ?_⟩
        rcases hstar with hstar | hstar
        · exact Or.inl hstar
        · exact Or.inr (hstar'.resolve_left hstar)

end EventListener

structure CreateEventListener where
  srcId : Text
  eventType : Option Text
  dataType : Option Text
  priority : Option Int
  serviceType : ServiceType
  serviceName : Text
  funName : Text

def CreateEventListener.listener (data : CreateEventListener) (id : Text)
    (hid : id ≠ []) : EventListener where
  id := id
  srcId := data.srcId
  eventType := (truthy data.eventType).getD star
  dataType := (truthy data.dataType).getD star
  priority := data.priority
  serviceType := data.serviceType
  serviceName := data.serviceName
  funName := data.funName
  deletedAt := 0
  id_ne_nil := hid

structure UpdateEventListener where
  srcId : Option Text
  eventType : Option Text
  dataType : Option Text
  priority : Option Int
  serviceType : Option ServiceType
  serviceName : Option Text
  funName : Option Text

/-- The rows that `removeListener` deletes; an empty type means `*`. -/
def UpdateEventListener.selects (data : UpdateEventListener)
    (listener : EventListener) : Bool :=
  let typeOf : Text -> Text := fun t => if t.isEmpty then star else t
  data.srcId.all (· == listener.srcId) &&
    data.eventType.all (fun t => typeOf t == listener.eventType) &&
    data.dataType.all (fun t => typeOf t == listener.dataType) &&
    data.priority.all (some · == listener.priority) &&
    data.serviceType.all (· == listener.serviceType) &&
    data.serviceName.all (· == listener.serviceName) &&
    data.funName.all (· == listener.funName)

structure ListenerTable where
  rows : List EventListener
  ids_nodup : (rows.map EventListener.id).Nodup := by decide

/-- The `where` of a query of the listeners: the event, and the places in which
it asks for `deletedAt: { gte: 0 }`. -/
structure ListenerWhere where
  event : EventHeader
  deletedAt : Bool
  /-- In one of the conditions of `AND`. -/
  deletedAtInAnd : Bool

/-- How one query is answered: the order of the rows, and whether the
middleware for soft deletion lets the `where` override its own condition, which
is that a row is live. -/
structure Database where
  arrange : List EventListener -> List EventListener
  arrange_perm : forall rows, (arrange rows).Perm rows
  overrides : ListenerWhere -> Bool
  overrides_plain : forall event, overrides ⟨event, false, false⟩ = false

namespace Database

/-- The rows as they are stored; a `deletedAt` anywhere overrides. -/
def stored : Database where
  arrange := id
  arrange_perm := List.Perm.refl
  overrides := fun where_ => where_.deletedAt || where_.deletedAtInAnd
  overrides_plain := fun _ => rfl

def reversed : Database :=
  { stored with
    arrange := List.reverse
    arrange_perm := List.reverse_perm }

/-- A `where` overrides the condition of the middleware only by a `deletedAt`
of its own. -/
def OverriddenAtTop (db : Database) : Prop :=
  forall where_ : ListenerWhere, where_.deletedAt = false ->
    db.overrides where_ = false

/-- The query of `loadListeners` returns deleted rows. -/
def shows (db : Database) (event : EventHeader) (deleted : Bool) : Bool :=
  db.overrides ⟨event, false, deleted⟩

theorem shows_false (db : Database) (event : EventHeader) :
    db.shows event false = false :=
  db.overrides_plain event

end Database

namespace ListenerTable

/-- The query of `loadListeners`; deleted rows are asked for within `AND`. -/
def findMany (table : ListenerTable) (order : Database) (event : EventHeader)
    (deleted : Bool) : List EventListener :=
  order.arrange
    (table.rows.filter fun listener =>
      listener.matchesEvent event &&
        (order.shows event deleted || listener.live))

/-- `addListener`, with the id `Utils.uuid` makes. -/
def addListener (table : ListenerTable) (data : CreateEventListener)
    (id : Text) (hid : id ≠ [])
    (hfresh : id ∉ table.rows.map EventListener.id) : ListenerTable where
  rows := table.rows ++ [data.listener id hid]
  ids_nodup := by
    rw [List.map_append, List.nodup_append]
    refine ⟨table.ids_nodup, by simp, ?_⟩
    intro a ha b hb heq
    have hb' : b = id := by
      simpa [CreateEventListener.listener] using hb
    exact hfresh (hb' ▸ heq ▸ ha)

/-- `removeListener`: the live rows that match are marked as deleted. -/
def removeListener (table : ListenerTable) (where_ : UpdateEventListener)
    (now : Nat) : ListenerTable where
  rows := table.rows.map fun listener =>
    if listener.live && where_.selects listener then
      { listener with deletedAt := now }
    else listener
  ids_nodup := by
    have hid : (fun listener : EventListener =>
        (if listener.live && where_.selects listener then
          { listener with deletedAt := now }
        else listener).id) = EventListener.id := by
      funext listener
      split <;> rfl
    rw [List.map_map]
    change (table.rows.map fun listener => _).Nodup
    simp only [Function.comp_apply, hid]
    exact table.ids_nodup

def subscribers (table : ListenerTable) (event : EventHeader) :
    List EventListener :=
  table.rows.filter fun listener => listener.matchesEvent event && listener.live

theorem eq_of_id_eq (table : ListenerTable) {a b : EventListener}
    (ha : a ∈ table.rows) (hb : b ∈ table.rows) (h : a.id = b.id) : a = b :=
  List.inj_on_of_nodup_map table.ids_nodup ha hb h

theorem rows_nodup (table : ListenerTable) : table.rows.Nodup :=
  List.Nodup.of_map EventListener.id table.ids_nodup

theorem subscribers_nodup (table : ListenerTable) (event : EventHeader) :
    (table.subscribers event).Nodup :=
  table.rows_nodup.filter _

end ListenerTable
end Event
end CallgentApi
