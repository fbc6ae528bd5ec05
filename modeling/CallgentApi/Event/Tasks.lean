import CallgentApi.Event.Engine
import CallgentApi.Lib.Effect
import CallgentApi.Lib.Fallible
import CallgentApi.Lib.Json

/-!
# The list of tasks

A query of the list of tasks is put into statements, whose texts are made of
what the code says, of names that are spliced in as they are, and of values
that are bound.
-/

namespace CallgentApi
namespace Event
namespace Tasks

open Js Effect

/-! ## Statements -/

/-- A part of a statement.  What is bound may be a value of the client or one
of the numbers that are computed. -/
inductive Piece (num : Type) where
  | fixed (text : String)
  | raw (text : Text)
  | bound (value : Value)
  | number (n : num)

abbrev Sql (num : Type) := List (Piece num)

inductive Condition where
  | contains (key : Text) (value : Value)
  | startsWith (key : Text) (value : Value)
  | endsWith (key : Text) (value : Value)
  | equals (key : Text) (value : Value)

/-- A column and `asc` or `desc`. -/
structure OrderBy where
  key : Text
  direction : Text
deriving DecidableEq

inductive Statement (num : Type) where
  | countTasks (conditions : List Condition)
  | taskKeys (conditions : List Condition) (order : List OrderBy)
      (limit offset : num)

variable {num : Type}

def Condition.sql : Condition -> Sql num
  | .contains key value =>
      [.raw key, .fixed " ILIKE '%' || ", .bound value, .fixed " || '%'"]
  | .startsWith key value =>
      [.raw key, .fixed " ILIKE ", .bound value, .fixed " || '%'"]
  | .endsWith key value =>
      [.raw key, .fixed " ILIKE '%' || ", .bound value]
  | .equals key value =>
      [.fixed "\"", .raw key, .fixed "\" = ", .bound value]

def OrderBy.sql (order : OrderBy) : Sql num :=
  [.raw order.key, .fixed " ", .raw order.direction]

/-- `Prisma.join`. -/
def joined (separator : String) : List (Sql num) -> Sql num
  | [] => []
  | [first] => first
  | first :: second :: rest =>
      first ++ .fixed separator :: joined separator (second :: rest)

/-- `WHERE` and the conditions, if there are any. -/
def whereSql (conditions : List Condition) : Sql num :=
  if conditions.isEmpty then []
  else .fixed "WHERE " :: joined " AND " (conditions.map Condition.sql)

def orderSql (order : List OrderBy) : Sql num :=
  if order.isEmpty then [.fixed "pk DESC"]
  else joined "," (order.map OrderBy.sql)

def Statement.sql : Statement num -> Sql num
  | .countTasks conditions =>
      .fixed "select count(distinct \"taskId\") as c from \"EventStore\" " ::
        whereSql conditions
  | .taskKeys conditions order limit offset =>
      .fixed "select min(\"pk\") as pk from \"EventStore\" " ::
        whereSql conditions ++
        .fixed " group by \"taskId\" ORDER BY " :: orderSql order ++
        [.fixed " limit ", .number limit, .fixed " offset ", .number offset]

/-! ## `EventStoresService` -/

/-- `where`; a value that is missing is `undefined`. -/
abbrev Where := List (Text × Value)

def operatorOf (key : Text) (fields : List (Text × Json)) :
    Except Thrown Condition :=
  let given (operator : String) := fields.lookup operator.toList
  if (given "contains").isSome then .ok (.contains key (given "contains"))
  else if (given "startsWith").isSome then
    .ok (.startsWith key (given "startsWith"))
  else if (given "endsWith").isSome then .ok (.endsWith key (given "endsWith"))
  else .error (.plain "Unsupported operator".toList)

/-- What an entry of `where` adds. -/
def conditionOf (key : Text) : Value -> Except Thrown (Option Condition)
  | none => .ok none
  | some (.obj fields) => (operatorOf key fields).map some
  | some (.arr _) => .error (.plain "Unsupported operator".toList)
  | some value => .ok (some (.equals key (some value)))

/-- `_whereToSql`. -/
def whereToSql (condition : Where) : Except Thrown (List Condition) := do
  let conditions ← condition.mapM fun entry => conditionOf entry.1 entry.2
  return conditions.filterMap id

structure Arithmetic (num : Type) where
  /-- `+value`. -/
  read : Json -> num
  one : num
  ten : num
  /-- `perPage * (page - 1)`. -/
  offset : num -> num -> num
  /-- `Math.ceil(total / perPage)`. -/
  lastPage : Nat -> num -> num
  /-- `page > 1 ? page - 1 : null`. -/
  prev : num -> Option num
  /-- `page < lastPage ? page + 1 : null`. -/
  next : num -> num -> Option num

structure Database (num row : Type) where
  count : List Condition -> Except Thrown Nat
  keys : List Condition -> List OrderBy -> num -> num ->
    Except Thrown (List Nat)
  /-- `eventStore.findMany({ where: { pk: { in: keys } } })`. -/
  findMany : List Nat -> Except Thrown (List row)

structure Meta (num : Type) where
  total : Nat
  lastPage : Option num
  currentPage : num
  perPage : num
  prev : Option num
  next : Option num

structure Page (num row : Type) where
  data : List row
  pageMeta : Meta num

variable {row : Type}

/-- The default of `orderBy`. -/
def newestFirst : List OrderBy := [⟨"pk".toList, "desc".toList⟩]

/-- `$queryRaw`: the statements that are sent are kept. -/
def queryRaw {a : Type} (statement : Statement num)
    (answer : Except Thrown a) : Effect (List (Statement num)) Thrown a := do
  modify fun sent => sent ++ [statement]
  ofResult answer

def pageOfTasks (arithmetic : Arithmetic num) (db : Database num row)
    (conditions : List Condition) (orderBy : List OrderBy)
    (page perPage : num) (total : Nat) :
    Effect (List (Statement num)) Thrown (Page num row) := do
  let offset := arithmetic.offset perPage page
  let keys ← queryRaw (.taskKeys conditions orderBy perPage offset)
    (db.keys conditions orderBy perPage offset)
  let data ← ofResult (db.findMany keys)
  let lastPage := arithmetic.lastPage total perPage
  return {
    data := data
    pageMeta :=
      { total := total
        lastPage := some lastPage
        currentPage := page
        perPage := perPage
        prev := arithmetic.prev page
        next := arithmetic.next page lastPage } }

def emptyPage (page perPage : num) : Page num row where
  data := []
  pageMeta := ⟨0, none, page, perPage, none, none⟩

/-- `findManyTasks`. -/
def findManyTasks (arithmetic : Arithmetic num) (db : Database num row)
    (condition : Where) (orderBy : Option (List OrderBy))
    (page perPage : Option num) :
    Effect (List (Statement num)) Thrown (Page num row) := do
  let page := page.getD arithmetic.one
  let perPage := perPage.getD arithmetic.ten
  let conditions ← ofResult (whereToSql condition)
  let total ← queryRaw (.countTasks conditions) (db.count conditions)
  if total = 0 then return emptyPage page perPage
  else
    pageOfTasks arithmetic db conditions (orderBy.getD newestFirst) page perPage
      total

/-! ## `Utils.parseOrderBy` -/

def fieldOrder (allowed : List Text) (field : Text) : Option OrderBy :=
  match field.splitOn ':' with
  | key :: order :: _ =>
      if key.isEmpty || order.isEmpty || !allowed.contains key then none
      else
        some ⟨key,
          if order = "asc".toList then "asc".toList else "desc".toList⟩
  | _ => none

/-- A text that is not given gives no order; what is no text has no `split`. -/
def parseOrderBy (orders : Value) (allowed : List Text) :
    Except Thrown (Option (List OrderBy)) :=
  match orders with
  | none => .ok none
  | some .null => .ok none
  | some (.str text) =>
      let orderBy := (text.splitOn ',').filterMap (fieldOrder allowed)
      .ok (if orderBy.isEmpty then none else some orderBy)
  | some _ => .error (.typeError "orders?.split is not a function".toList)

/-! ## `EventStoresController` -/

/-- The query of `GET /events/tasks`, as it is parsed. -/
structure TasksQuery where
  query : Value
  eventType : Value
  dataType : Value
  taskId : Value
  page : Value
  perPage : Value
  orderBy : Value

def allowedOrders : List Text :=
  ["title".toList, "dataType".toList, "eventType".toList, "statusCode".toList,
    "pk".toList, "updatedAt".toList]

/-- `title?.trim()`. -/
def trimmed : Value -> Except Thrown Value
  | none => .ok none
  | some .null => .ok none
  | some (.str text) => .ok (some (.str (trim text)))
  | some _ => .error (.typeError "title?.trim is not a function".toList)

def taskWhere (calledBy : Value) (query : TasksQuery) (title : Value) :
    Where :=
  [("calledBy".toList, calledBy),
    ("eventType".toList, query.eventType.filter Json.truthy),
    ("dataType".toList, query.dataType.filter Json.truthy),
    ("taskId".toList, query.taskId.filter Json.truthy)] ++
  match title.filter Json.truthy with
  | some title =>
      [("title".toList, some (.obj [("contains".toList, title)]))]
  | none => []

/-- `listMyTasks`, with `req.user.sub`. -/
def listMyTasks (arithmetic : Arithmetic num) (db : Database num row)
    (query : TasksQuery) (sub : Value) :
    Effect (List (Statement num)) Thrown (Page num row) := do
  let page := (query.page.filter Json.truthy).map arithmetic.read
  let perPage := (query.perPage.filter Json.truthy).map arithmetic.read
  let title ← ofResult (trimmed query.query)
  let orderBy ← ofResult (parseOrderBy query.orderBy allowedOrders)
  findManyTasks arithmetic db (taskWhere sub query title) orderBy page perPage

/-! ## What is spliced in -/

def filterColumns : List Text :=
  ["calledBy".toList, "eventType".toList, "dataType".toList, "taskId".toList,
    "title".toList]

def statementTexts : List String :=
  ["select count(distinct \"taskId\") as c from \"EventStore\" ",
    "select min(\"pk\") as pk from \"EventStore\" ", "WHERE ", " AND ",
    " ILIKE '%' || ", " ILIKE ", " || '%'", "\"", "\" = ",
    " group by \"taskId\" ORDER BY ", "pk DESC", " ", ",", " limit ",
    " offset "]

def Piece.Safe : Piece num -> Prop
  | .fixed text => text ∈ statementTexts
  | .raw text =>
      text ∈ filterColumns ∨ text ∈ allowedOrders ∨ text = "asc".toList ∨
        text = "desc".toList
  | .bound _ => True
  | .number _ => True

def Safe (sql : Sql num) : Prop :=
  forall piece, piece ∈ sql -> piece.Safe

def Condition.key : Condition -> Text
  | .contains key _ => key
  | .startsWith key _ => key
  | .endsWith key _ => key
  | .equals key _ => key

def OrderBy.Allowed (order : OrderBy) : Prop :=
  order.key ∈ allowedOrders ∧
    (order.direction = "asc".toList ∨ order.direction = "desc".toList)

theorem safe_nil : Safe ([] : Sql num) :=
  fun _ h => nomatch h

theorem Safe.cons {piece : Piece num} {sql : Sql num} (hpiece : piece.Safe)
    (h : Safe sql) : Safe (piece :: sql) := by
  intro other hother
  rcases List.mem_cons.mp hother with heq | hmem
  · rw [heq]
    exact hpiece
  · exact h other hmem

theorem Safe.append {sql sql' : Sql num} (h : Safe sql) (h' : Safe sql') :
    Safe (sql ++ sql') := by
  intro piece hpiece
  rcases List.mem_append.mp hpiece with hleft | hright
  · exact h piece hleft
  · exact h' piece hright

theorem safe_joined {separator : String} (hseparator : separator ∈ statementTexts)
    {parts : List (Sql num)} (h : forall part, part ∈ parts -> Safe part) :
    Safe (joined separator parts) := by
  induction parts with
  | nil => exact safe_nil
  | cons first rest ih =>
      have hfirst := h first List.mem_cons_self
      have hrest := ih fun part hpart => h part (List.mem_cons_of_mem _ hpart)
      cases rest with
      | nil => exact hfirst
      | cons second rest => exact hfirst.append (Safe.cons hseparator hrest)

theorem safe_condition {condition : Condition}
    (h : condition.key ∈ filterColumns) :
    Safe (condition.sql : Sql num) := by
  cases condition with
  | contains key value =>
      exact .cons (Or.inl h) (.cons (by simp [Piece.Safe, statementTexts])
        (.cons True.intro (.cons (by simp [Piece.Safe, statementTexts])
          safe_nil)))
  | startsWith key value =>
      exact .cons (Or.inl h) (.cons (by simp [Piece.Safe, statementTexts])
        (.cons True.intro (.cons (by simp [Piece.Safe, statementTexts])
          safe_nil)))
  | endsWith key value =>
      exact .cons (Or.inl h) (.cons (by simp [Piece.Safe, statementTexts])
        (.cons True.intro safe_nil))
  | equals key value =>
      exact .cons (by simp [Piece.Safe, statementTexts]) (.cons (Or.inl h)
        (.cons (by simp [Piece.Safe, statementTexts])
          (.cons True.intro safe_nil)))

theorem safe_order {order : OrderBy} (h : order.Allowed) :
    Safe (order.sql : Sql num) :=
  .cons (Or.inr (Or.inl h.left)) (.cons (by simp [Piece.Safe, statementTexts])
    (.cons (Or.inr (Or.inr h.right)) safe_nil))

theorem safe_whereSql {conditions : List Condition}
    (h : forall condition, condition ∈ conditions ->
      condition.key ∈ filterColumns) :
    Safe (whereSql conditions : Sql num) := by
  unfold whereSql
  split
  · exact safe_nil
  · apply Safe.cons (by simp [Piece.Safe, statementTexts])
    apply safe_joined (by simp [statementTexts])
    intro part hpart
    rcases List.mem_map.mp hpart with ⟨condition, hcondition, heq⟩
    rw [← heq]
    exact safe_condition (h condition hcondition)

theorem safe_orderSql {order : List OrderBy}
    (h : forall o, o ∈ order -> o.Allowed) :
    Safe (orderSql order : Sql num) := by
  unfold orderSql
  split
  · exact .cons (by simp [Piece.Safe, statementTexts]) safe_nil
  · apply safe_joined (by simp [statementTexts])
    intro part hpart
    rcases List.mem_map.mp hpart with ⟨o, ho, heq⟩
    rw [← heq]
    exact safe_order (h o ho)

theorem safe_taskKeys {conditions : List Condition} {order : List OrderBy}
    (hwhere : Safe (whereSql conditions : Sql num))
    (horder : forall o, o ∈ order -> o.Allowed) (limit offset : num) :
    Safe (Statement.taskKeys conditions order limit offset).sql := by
  apply Safe.cons (by simp [Piece.Safe, statementTexts])
  refine Safe.append (hwhere.append ?_) ?_
  · exact .cons (by simp [Piece.Safe, statementTexts]) (safe_orderSql horder)
  · exact .cons (by simp [Piece.Safe, statementTexts])
      (.cons True.intro (.cons (by simp [Piece.Safe, statementTexts])
        (.cons True.intro safe_nil)))

/-! ## Where the names come from -/

theorem key_of_conditionOf {key : Text} {value : Value} {condition : Condition}
    (h : conditionOf key value = .ok (some condition)) : condition.key = key := by
  unfold conditionOf at h
  split at h
  · cases h
  · rename_i fields
    unfold operatorOf at h
    simp only at h
    split at h
    · cases h
      rfl
    · split at h
      · cases h
        rfl
      · split at h
        · cases h
          rfl
        · cases h
  · cases h
  · cases h
    rfl

theorem mem_of_whereToSql {condition : Where} {conditions : List Condition}
    (h : whereToSql condition = .ok conditions) {c : Condition}
    (hc : c ∈ conditions) : c.key ∈ condition.map Prod.fst := by
  unfold whereToSql at h
  rcases Fallible.exists_of_bind_ok h with ⟨given, hgiven, h1⟩
  cases h1
  rcases List.mem_filterMap.mp hc with ⟨entry, hentry, heq⟩
  rcases Fallible.exists_of_mem_mapM hgiven hentry with ⟨named, hnamed, hof⟩
  rw [id_eq] at heq
  rw [heq] at hof
  rw [key_of_conditionOf hof]
  exact List.mem_map_of_mem hnamed

theorem mem_filterColumns_of_taskWhere {calledBy title : Value}
    {query : TasksQuery} {key : Text}
    (h : key ∈ (taskWhere calledBy query title).map Prod.fst) :
    key ∈ filterColumns := by
  unfold taskWhere at h
  unfold filterColumns
  rw [List.map_append] at h
  rcases List.mem_append.mp h with hfixed | htitle
  · exact List.mem_append_left ["title".toList] hfixed
  · split at htitle
    · exact List.mem_append_right ["calledBy".toList, "eventType".toList,
        "dataType".toList, "taskId".toList] htitle
    · cases htitle

theorem allowed_of_fieldOrder {field : Text} {order : OrderBy}
    (h : fieldOrder allowedOrders field = some order) : order.Allowed := by
  unfold fieldOrder at h
  split at h
  · rename_i key direction rest hsplit
    split at h
    · cases h
    · rename_i hnot
      cases h
      constructor
      · simp at hnot
        exact hnot.right
      · show (if _ then _ else _) = _ ∨ (if _ then _ else _) = _
        split
        · exact Or.inl rfl
        · exact Or.inr rfl
  · cases h

theorem allowed_of_parseOrderBy {orders : Value}
    {orderBy : Option (List OrderBy)}
    (h : parseOrderBy orders allowedOrders = .ok orderBy) :
    forall o, o ∈ orderBy.getD newestFirst -> o.Allowed := by
  have hdefault : forall o, o ∈ newestFirst -> o.Allowed := by
    intro o ho
    rw [List.mem_singleton.mp ho]
    exact ⟨by simp [allowedOrders], Or.inr rfl⟩
  unfold parseOrderBy at h
  split at h
  · cases h
    exact hdefault
  · cases h
    exact hdefault
  · simp only at h
    split at h
    · cases h
      exact hdefault
    · cases h
      intro o ho
      rcases List.mem_filterMap.mp ho with ⟨field, _, hfield⟩
      exact allowed_of_fieldOrder hfield
  · cases h

/-! ## Every statement that is sent -/

/-- The statements that have been sent splice in nothing of the client. -/
def Sent (sent : List (Statement num)) : Prop :=
  forall statement, statement ∈ sent -> Safe statement.sql

theorem triple_queryRaw {a : Type} {statement : Statement num}
    (h : Safe statement.sql) (answer : Except Thrown a) :
    Triple Sent (queryRaw statement answer) fun _ => Sent := by
  refine Triple.bind_inv ?_ ?_
  · apply Triple.modify
    intro sent hsent other hother
    rcases List.mem_append.mp hother with hold | hnew
    · exact hsent other hold
    · rw [List.mem_singleton.mp hnew]
      exact h
  · exact fun _ _ hsent => hsent

theorem triple_findManyTasks (arithmetic : Arithmetic num)
    (db : Database num row) {condition : Where}
    (hcondition : forall key, key ∈ condition.map Prod.fst ->
      key ∈ filterColumns)
    {orderBy : Option (List OrderBy)}
    (horder : forall o, o ∈ orderBy.getD newestFirst -> o.Allowed)
    (page perPage : Option num) :
    Triple Sent (findManyTasks arithmetic db condition orderBy page perPage)
      fun _ => Sent := by
  apply Triple.ofResult_bind
  · intro conditions hconditions
    have hwhere : Safe (whereSql conditions : Sql num) :=
      safe_whereSql fun c hc => hcondition _ (mem_of_whereToSql hconditions hc)
    refine Triple.bind_inv ?_ ?_
    · apply triple_queryRaw
      exact .cons (by simp [Piece.Safe, statementTexts]) hwhere
    · intro total
      split
      · exact fun _ hsent => hsent
      · refine Triple.bind_inv ?_ ?_
        · apply triple_queryRaw
          exact safe_taskKeys hwhere horder _ _
        · intro keys
          refine Triple.ofResult_bind ?_ fun _ _ hsent => hsent
          exact fun _ _ _ hsent => hsent
  · exact fun _ _ hsent => hsent

/-- Whatever the query of a list of tasks, its statements splice in columns of
the filter, allowed columns of the order, `asc` and `desc` only; everything
else of the query is bound. -/
theorem listMyTasks_safe (arithmetic : Arithmetic num) (db : Database num row)
    (query : TasksQuery) (sub : Value) :
    Sent (exec (listMyTasks arithmetic db query sub) []).2 := by
  have htriple : Triple Sent (listMyTasks arithmetic db query sub)
      fun _ => Sent := by
    apply Triple.ofResult_bind
    · intro title _
      apply Triple.ofResult_bind
      · intro orderBy horderBy
        apply triple_findManyTasks
        · exact fun key hkey => mem_filterColumns_of_taskWhere hkey
        · exact allowed_of_parseOrderBy horderBy
      · exact fun _ _ hsent => hsent
    · exact fun _ _ hsent => hsent
  exact htriple [] fun _ h => nomatch h

end Tasks
end Event
end CallgentApi
