import CallgentApi.Event.Tasks
import CallgentApi.Lib.Chunks
import CallgentApi.Lib.Table
import Mathlib.Data.List.Dedup

/-!
# The pages of a list of tasks

A page of tasks is put together from three queries of the event store: how
many tasks there are, the keys of their first events, and the rows of these.
-/

namespace CallgentApi
namespace Event
namespace Tasks

open Js Effect

structure StoredEvent where
  calledBy : Option Text
  paidBy : Text
  title : Option Text
  taskId : Text
  eventType : Text
  dataType : Text
  statusCode : Int
  message : Option Text
  createdAt : Int
  updatedAt : Int
  deletedAt : Nat

abbrev StoredRow := TableRow Text StoredEvent

abbrev StoredEvents := Table Text StoredEvent

structure Texts where
  ilike : Text -> Text -> Bool
  collate : Text -> Text -> Ordering

/-- The order of the rows of a query that asks for none. -/
structure Arrangement where
  arrange : List StoredRow -> List StoredRow
  perm : forall rows, (arrange rows).Perm rows

/-! ## What the statements mean -/

def undefinedColumn : Thrown := .plain "42703".toList

def groupingError : Thrown := .plain "42803".toList

def syntaxError : Thrown := .plain "42601".toList

def undefinedFunction : Thrown := .plain "42883".toList

def columnOf (name : Text) : Option (StoredEvent -> Option Text) :=
  if name = "calledBy".toList then some fun e => e.calledBy
  else if name = "eventType".toList then some fun e => some e.eventType
  else if name = "dataType".toList then some fun e => some e.dataType
  else if name = "taskId".toList then some fun e => some e.taskId
  else if name = "title".toList then some fun e => e.title
  else none

section Meaning

variable (texts : Texts)

def likeCondition (key : Text) (value : Value) (pattern : Text -> Text) :
    Except Thrown (StoredRow -> Bool) :=
  match columnOf (toLowerCase key), value with
  | none, _ => .error undefinedColumn
  | some column, some (.str text) =>
      .ok fun row => (column row.value).any fun s =>
        texts.ilike s (pattern text)
  | some _, _ => .error undefinedFunction

def Condition.check : Condition -> Except Thrown (StoredRow -> Bool)
  | .contains key value =>
      likeCondition texts key value fun text => '%' :: (text ++ ['%'])
  | .startsWith key value =>
      likeCondition texts key value fun text => text ++ ['%']
  | .endsWith key value =>
      likeCondition texts key value fun text => '%' :: text
  | .equals key value =>
      match columnOf key, value with
      | none, _ => .error undefinedColumn
      | some column, some (.str text) =>
          .ok fun row => column row.value == some text
      | some _, some .null => .ok fun _ => false
      | some _, _ => .error undefinedFunction

def checkAll : List Condition -> Except Thrown (StoredRow -> Bool)
  | [] => .ok fun _ => true
  | condition :: rest => do
      let p ← condition.check texts
      let q ← checkAll rest
      return fun row => p row && q row

end Meaning

/-- The column that a name in `ORDER BY` is; only `pk` is one of the groups. -/
def orderOf (order : OrderBy) : Except Thrown (Nat -> Nat -> Ordering) :=
  if toLowerCase order.key = "pk".toList then
    if order.direction = "asc".toList then .ok compare
    else if order.direction = "desc".toList then .ok fun a b => compare b a
    else .error syntaxError
  else if ["id".toList, "title".toList, "callback".toList, "context".toList,
      "message".toList].contains (toLowerCase order.key) then
    .error groupingError
  else .error undefinedColumn

/-- `ORDER BY`. -/
def keyOrder (order : List OrderBy) :
    Except Thrown (Nat -> Nat -> Ordering) :=
  if order.isEmpty then .ok fun a b => compare b a
  else do
    let orders ← order.mapM orderOf
    return fun a b => orders.foldr (fun o rest => (o a b).then rest) .eq

def taskIds (rows : List StoredRow) : List Text :=
  (rows.map fun row => row.value.taskId).dedup

/-- `min("pk") ... group by "taskId"`. -/
def groupMin (rows : List StoredRow) : List Nat :=
  (taskIds rows).map fun taskId =>
    ((rows.filter fun row => row.value.taskId == taskId).map
      TableRow.pk).min?.getD 0

/-- The rows of the keys that are not deleted. -/
def liveRows (events : StoredEvents) (keys : List Nat) : List StoredRow :=
  events.rows.filter fun row =>
    keys.contains row.pk && row.value.deletedAt == 0

def stored (texts : Texts) (arrangement : Arrangement)
    (events : StoredEvents) : Database Nat StoredRow where
  count := fun conditions => do
    let p ← checkAll texts conditions
    return (taskIds (events.rows.filter p)).length
  keys := fun conditions order limit offset => do
    let p ← checkAll texts conditions
    let le ← keyOrder order
    return (((groupMin (events.rows.filter p)).mergeSort
      fun a b => le a b != .gt).drop offset).take limit
  findMany := fun keys => .ok (arrangement.arrange (liveRows events keys))

def naturals (read : Json -> Nat) : Arithmetic Nat where
  read := read
  one := 1
  ten := 10
  offset := fun perPage page => perPage * (page - 1)
  lastPage := fun total perPage => (total + (perPage - 1)) / perPage
  prev := fun page => if 1 < page then some (page - 1) else none
  next := fun page lastPage => if page < lastPage then some (page + 1) else none

/-! ## What is asked for -/

/-- What the tasks of a caller are filtered by. -/
structure TaskFilter where
  calledBy : Option Text
  eventType : Option Text
  dataType : Option Text
  taskId : Option Text
  title : Option Text

def TaskFilter.asked (filter : TaskFilter) : Where :=
  [("calledBy".toList, filter.calledBy.map Json.str),
    ("eventType".toList, filter.eventType.map Json.str),
    ("dataType".toList, filter.dataType.map Json.str),
    ("taskId".toList, filter.taskId.map Json.str)] ++
  (filter.title.map fun title =>
    ("title".toList,
      some (Json.obj [("contains".toList, .str title)]))).toList

def TaskFilter.Matches (filter : TaskFilter) (texts : Texts)
    (row : StoredRow) : Bool :=
  filter.calledBy.all (fun text => row.value.calledBy == some text) &&
    filter.eventType.all (fun text => row.value.eventType == text) &&
    filter.dataType.all (fun text => row.value.dataType == text) &&
    filter.taskId.all (fun text => row.value.taskId == text) &&
    filter.title.all fun text => row.value.title.any fun title =>
      texts.ilike title ('%' :: (text ++ ['%']))

def matching (texts : Texts) (events : StoredEvents) (filter : TaskFilter) :
    List StoredRow :=
  events.rows.filter (filter.Matches texts)

def FirstOfTask (rows : List StoredRow) (row : StoredRow) : Prop :=
  row ∈ rows ∧ forall other, other ∈ rows ->
    other.value.taskId = row.value.taskId -> row.pk ≤ other.pk

def nullsLast (collate : Text -> Text -> Ordering) :
    Option Text -> Option Text -> Ordering
  | some a, some b => collate a b
  | some _, none => .lt
  | none, some _ => .gt
  | none, none => .eq

def columnOrder (texts : Texts) (key : Text) (a b : StoredRow) : Ordering :=
  if key = "title".toList then
    nullsLast texts.collate a.value.title b.value.title
  else if key = "dataType".toList then
    texts.collate a.value.dataType b.value.dataType
  else if key = "eventType".toList then
    texts.collate a.value.eventType b.value.eventType
  else if key = "statusCode".toList then
    compare a.value.statusCode b.value.statusCode
  else if key = "updatedAt".toList then
    compare a.value.updatedAt b.value.updatedAt
  else compare a.pk b.pk

def rowOrder (texts : Texts) (order : List OrderBy) (a b : StoredRow) :
    Ordering :=
  order.foldr (fun o rest =>
    (if o.direction = "asc".toList then columnOrder texts o.key a b
      else columnOrder texts o.key b a).then rest) .eq

/-- The order that is asked for; none is newest first. -/
def askedOrder (order : Option (List OrderBy)) : List OrderBy :=
  match order with
  | none => newestFirst
  | some [] => newestFirst
  | some order => order

section Pages

variable (texts : Texts) (events : StoredEvents) (filter : TaskFilter)
  (order : Option (List OrderBy)) (perPage : Nat)

/-- The events that match and are not deleted. -/
def liveMatching : List StoredRow :=
  (matching texts events filter).filter fun row => row.value.deletedAt == 0

/-- What `findManyTasks` returns for a page. -/
def pageAt (arrangement : Arrangement) (page : Nat) :
    Except Thrown (Page Nat StoredRow) :=
  (exec (findManyTasks (naturals fun _ => 0) (stored texts arrangement events)
    filter.asked order (some page) (some perPage)) []).1

/-- The rows are the first events of the tasks, each of them once and in the
order that is asked for. -/
structure ListsFirst (data : List StoredRow) : Prop where
  nodup : data.Nodup
  mem : forall row, row ∈ data <->
    FirstOfTask (liveMatching texts events filter) row
  order : data.Pairwise fun a b =>
    rowOrder texts (askedOrder order) a b ≠ .gt

/-- However the database arranges its rows, the pages together list the first
events of the tasks, and each says how many tasks there are. -/
def ListsTasks : Prop :=
  forall arrangement : Arrangement, exists first pages,
    pageAt texts events filter order perPage arrangement 1 = .ok first ∧
    (List.range (first.pageMeta.lastPage.getD 0)).mapM (fun i =>
      pageAt texts events filter order perPage arrangement (i + 1)) =
        .ok pages ∧
    (forall page, page ∈ first :: pages -> page.pageMeta.total =
      (taskIds (liveMatching texts events filter)).length) ∧
    ListsFirst texts events filter order (pages.flatMap Page.data)

end Pages

end Tasks
end Event
end CallgentApi
