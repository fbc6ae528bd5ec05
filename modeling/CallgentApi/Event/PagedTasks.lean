import CallgentApi.Event.TaskPages

/-!
# What the pages of tasks list

The keys of a page are in order, but the query of its rows asks for no order
and leaves out what is deleted.
-/

namespace CallgentApi
namespace Event
namespace Tasks

open Js Effect

/-! ## The filter -/

def TaskFilter.conditions (filter : TaskFilter) : List Condition :=
  (filter.calledBy.map fun t => .equals "calledBy".toList (some (.str t))).toList
    ++ ((filter.eventType.map fun t =>
      .equals "eventType".toList (some (.str t))).toList
    ++ ((filter.dataType.map fun t =>
      .equals "dataType".toList (some (.str t))).toList
    ++ ((filter.taskId.map fun t =>
      .equals "taskId".toList (some (.str t))).toList
    ++ ((filter.title.map fun t =>
      .contains "title".toList (some (.str t))).toList ++ []))))

theorem whereToSql_cons {entry : Text × Value} {rest : Where}
    {condition : Option Condition} {conditions : List Condition}
    (h : conditionOf entry.1 entry.2 = .ok condition)
    (hrest : whereToSql rest = .ok conditions) :
    whereToSql (entry :: rest) = .ok (condition.toList ++ conditions) := by
  unfold whereToSql at hrest ⊢
  rcases Fallible.exists_of_bind_ok hrest with ⟨given, hgiven, hfilter⟩
  rw [List.mapM_cons, h]
  show ((rest.mapM _ >>= _) >>= _) = _
  rw [hgiven]
  cases hfilter
  cases condition with
  | none => rfl
  | some c => rfl

theorem conditionOf_text (key : Text) (value : Option Text) :
    conditionOf key (value.map Json.str) =
      .ok (value.map fun t => .equals key (some (.str t))) := by
  cases value with
  | none => rfl
  | some t => rfl

theorem whereToSql_asked (filter : TaskFilter) :
    whereToSql filter.asked = .ok filter.conditions := by
  have htitle : whereToSql ((filter.title.map fun title =>
      ("title".toList,
        some (Json.obj [("contains".toList, .str title)]))).toList) =
      .ok ((filter.title.map fun t =>
        Condition.contains "title".toList (some (.str t))).toList ++ []) := by
    cases filter.title with
    | none => rfl
    | some t => rfl
  exact whereToSql_cons (conditionOf_text _ _)
    (whereToSql_cons (conditionOf_text _ _)
      (whereToSql_cons (conditionOf_text _ _)
        (whereToSql_cons (conditionOf_text _ _) htitle)))

theorem check_equals (texts : Texts) {key : Text}
    {column : StoredEvent -> Option Text} (h : columnOf key = some column)
    (t : Text) :
    (Condition.equals key (some (.str t))).check texts =
      .ok fun row => column row.value == some t := by
  simp only [Condition.check, h]

theorem check_asked (texts : Texts) (filter : TaskFilter) :
    checkAll texts filter.conditions = .ok (filter.Matches texts) := by
  have htext : forall {key : Text} {column : StoredEvent -> Option Text}
      (value : Option Text) {rest : List Condition} {q : StoredRow -> Bool},
      columnOf key = some column -> checkAll texts rest = .ok q ->
        checkAll texts
          ((value.map fun t => .equals key (some (.str t))).toList ++ rest) =
            .ok fun row =>
              value.all (fun text => column row.value == some text) && q row := by
    intro key column value rest q hcolumn hrest
    cases value with
    | none => exact hrest
    | some t =>
        show ((Condition.equals key (some (.str t))).check texts >>= _) = _
        rw [check_equals texts hcolumn]
        show (checkAll texts rest >>= _) = _
        rw [hrest]
        rfl
  have htitle : checkAll texts
      ((filter.title.map fun t =>
        .contains "title".toList (some (.str t))).toList ++ []) =
      .ok fun row => filter.title.all fun text =>
        row.value.title.any fun title =>
          texts.ilike title ('%' :: (text ++ ['%'])) := by
    cases filter.title with
    | none => rfl
    | some t =>
        show Except.ok _ = Except.ok _
        congr 1
        funext row
        exact Bool.and_true _
  have hcalledBy : columnOf "calledBy".toList = some fun e => e.calledBy := rfl
  have heventType : columnOf "eventType".toList =
      some fun e => some e.eventType := rfl
  have hdataType : columnOf "dataType".toList =
      some fun e => some e.dataType := rfl
  have htaskId : columnOf "taskId".toList = some fun e => some e.taskId := rfl
  have hall := htext filter.calledBy hcalledBy
    (htext filter.eventType heventType (htext filter.dataType hdataType
      (htext filter.taskId htaskId htitle)))
  refine hall.trans (congrArg Except.ok (funext fun row => ?_))
  unfold TaskFilter.Matches
  simp [Bool.and_assoc]

/-! ## The first events -/

theorem mem_taskIds {rows : List StoredRow} {taskId : Text} :
    taskId ∈ taskIds rows <->
      exists row, row ∈ rows ∧ row.value.taskId = taskId := by
  unfold taskIds
  rw [List.mem_dedup, List.mem_map]

theorem exists_first {rows : List StoredRow} {row : StoredRow}
    (h : row ∈ rows) :
    exists first, FirstOfTask rows first ∧
      first.value.taskId = row.value.taskId := by
  induction hpk : row.pk using Nat.strong_induction_on generalizing row with
  | h pk ih =>
      by_cases hleast : forall other, other ∈ rows ->
          other.value.taskId = row.value.taskId -> row.pk ≤ other.pk
      · exact ⟨row, ⟨h, hleast⟩, rfl⟩
      · push Not at hleast
        rcases hleast with ⟨other, hother, hsame, hlt⟩
        rw [hpk] at hlt
        rcases ih other.pk hlt hother rfl with ⟨first, hfirst, htask⟩
        exact ⟨first, hfirst, htask.trans hsame⟩

theorem min_of_first {rows : List StoredRow} {row : StoredRow}
    (h : FirstOfTask rows row) :
    ((rows.filter fun other =>
        other.value.taskId == row.value.taskId).map
      TableRow.pk).min?.getD 0 = row.pk := by
  have hmin : ((rows.filter fun other =>
      other.value.taskId == row.value.taskId).map TableRow.pk).min? =
        some row.pk := by
    apply List.min?_eq_some_iff.mpr
    constructor
    · exact List.mem_map_of_mem
        (List.mem_filter.mpr ⟨h.left, beq_self_eq_true _⟩)
    · intro pk hpk
      rcases List.mem_map.mp hpk with ⟨other, hother, heq⟩
      rcases List.mem_filter.mp hother with ⟨hmem, htask⟩
      rw [← heq]
      exact h.right other hmem (beq_iff_eq.mp htask)
  rw [hmin]
  rfl

theorem mem_groupMin {rows : List StoredRow} {pk : Nat} :
    pk ∈ groupMin rows <-> exists row, FirstOfTask rows row ∧ row.pk = pk := by
  unfold groupMin
  rw [List.mem_map]
  constructor
  · intro h
    rcases h with ⟨taskId, hmem, hmin⟩
    rcases mem_taskIds.mp hmem with ⟨row, hrow, htask⟩
    rcases exists_first hrow with ⟨first, hfirst, hsame⟩
    rw [← htask, ← hsame, min_of_first hfirst] at hmin
    exact ⟨first, hfirst, hmin⟩
  · intro h
    rcases h with ⟨row, hfirst, hpk⟩
    refine ⟨row.value.taskId, mem_taskIds.mpr ⟨row, hfirst.left, rfl⟩, ?_⟩
    rw [min_of_first hfirst, hpk]

theorem length_groupMin (rows : List StoredRow) :
    (groupMin rows).length = (taskIds rows).length :=
  List.length_map _

theorem nodup_groupMin {rows : List StoredRow}
    (hpk : forall a, a ∈ rows -> forall b, b ∈ rows -> a.pk = b.pk -> a = b) :
    (groupMin rows).Nodup := by
  apply List.Nodup.map_on _ (List.nodup_dedup _)
  intro t ht u hu hmin
  rcases mem_taskIds.mp ht with ⟨a, ha, hta⟩
  rcases mem_taskIds.mp hu with ⟨b, hb, htb⟩
  rcases exists_first ha with ⟨first, hfirst, hsame⟩
  rcases exists_first hb with ⟨second, hsecond, hsame'⟩
  rw [← hta, ← hsame, ← htb, ← hsame', min_of_first hfirst,
    min_of_first hsecond] at hmin
  rw [← hta, ← htb, ← hsame, ← hsame',
    hpk first hfirst.left second hsecond.left hmin]

/-! ## Orders by key -/

def byKey (up : Bool) (a b : Nat) : Ordering :=
  if up then compare a b else compare b a

theorem byKey_eq_iff {up : Bool} {a b : Nat} : byKey up a b = .eq <-> a = b := by
  unfold byKey
  cases up with
  | true => exact compare_eq_iff_eq
  | false => exact compare_eq_iff_eq.trans eq_comm

theorem foldr_byKey (up : Bool) (rest : List Bool) (a b : Nat) :
    (up :: rest).foldr (fun up later => (byKey up a b).then later) .eq =
      byKey up a b := by
  by_cases heq : a = b
  · rw [byKey_eq_iff.mpr heq]
    induction rest generalizing up with
    | nil =>
        rw [List.foldr_cons, byKey_eq_iff.mpr heq]
        rfl
    | cons next rest ih =>
        rw [List.foldr_cons, byKey_eq_iff.mpr heq]
        exact ih next
  · have hne : byKey up a b ≠ .eq := fun h => heq (byKey_eq_iff.mp h)
    rw [List.foldr_cons]
    cases hkey : byKey up a b with
    | lt => rfl
    | gt => rfl
    | eq => exact absurd hkey hne

def OrderBy.up (order : OrderBy) : Bool :=
  order.direction == "asc".toList

theorem orderOf_pk {order : OrderBy} (h : order.Allowed)
    (hkey : order.key = "pk".toList) : orderOf order = .ok (byKey order.up) := by
  unfold orderOf OrderBy.up byKey
  rw [hkey, if_pos (by rfl)]
  rcases h.right with hasc | hdesc
  · rw [hasc]
    rfl
  · rw [hdesc]
    rfl

theorem key_of_orderOf {order : OrderBy} (h : order.Allowed)
    {le : Nat -> Nat -> Ordering} (hok : orderOf order = .ok le) :
    order.key = "pk".toList := by
  have hfold : toLowerCase order.key = "pk".toList := by
    unfold orderOf at hok
    split at hok
    · assumption
    · split at hok
      · cases hok
      · cases hok
  have hkeys := h.left
  unfold allowedOrders at hkeys
  simp only [List.mem_cons, List.not_mem_nil, or_false] at hkeys
  rcases hkeys with hkey | hkey | hkey | hkey | hkey | hkey
  · rw [hkey] at hfold
    exact absurd hfold (by decide)
  · rw [hkey] at hfold
    exact absurd hfold (by decide)
  · rw [hkey] at hfold
    exact absurd hfold (by decide)
  · rw [hkey] at hfold
    exact absurd hfold (by decide)
  · exact hkey
  · rw [hkey] at hfold
    exact absurd hfold (by decide)

theorem key_of_keyOrder {order : List OrderBy}
    (h : forall o, o ∈ order -> o.Allowed) {le : Nat -> Nat -> Ordering}
    (hok : keyOrder order = .ok le) :
    forall o, o ∈ order -> o.key = "pk".toList := by
  intro o ho
  unfold keyOrder at hok
  rw [if_neg (by
    intro hempty
    rw [List.isEmpty_iff.mp hempty] at ho
    cases ho)] at hok
  rcases Fallible.exists_of_bind_ok hok with ⟨orders, horders, _⟩
  rcases List.forall₂_iff_get.mp (Fallible.forall₂_of_mapM horders) with
    ⟨hlength, hget⟩
  rcases List.mem_iff_get.mp ho with ⟨i, hi⟩
  have hone := hget i.val i.isLt (hlength ▸ i.isLt)
  apply key_of_orderOf (h o ho)
  rw [← hi]
  exact hone

theorem mapM_orderOf {order : List OrderBy}
    (h : forall o, o ∈ order -> o.Allowed)
    (hkey : forall o, o ∈ order -> o.key = "pk".toList) :
    order.mapM orderOf = .ok (order.map fun o => byKey o.up) := by
  induction order with
  | nil => rfl
  | cons o rest ih =>
      rw [List.mapM_cons, orderOf_pk (h o List.mem_cons_self)
        (hkey o List.mem_cons_self)]
      show (rest.mapM orderOf >>= _) = _
      rw [ih (fun o ho => h o (List.mem_cons_of_mem _ ho))
        (fun o ho => hkey o (List.mem_cons_of_mem _ ho))]
      rfl

theorem exists_keyOrder (texts : Texts) {order : Option (List OrderBy)}
    (h : forall o, o ∈ order.getD newestFirst -> o.Allowed)
    (hkey : forall o, o ∈ order.getD newestFirst -> o.key = "pk".toList) :
    exists up, keyOrder (order.getD newestFirst) = .ok (byKey up) ∧
      forall a b, rowOrder texts (askedOrder order) a b = byKey up a.pk b.pk := by
  have hdefault : forall a b,
      rowOrder texts newestFirst a b = byKey false a.pk b.pk := by
    intro a b
    show (compare b.pk a.pk).then .eq = compare b.pk a.pk
    cases compare b.pk a.pk with
    | lt => rfl
    | eq => rfl
    | gt => rfl
  have hcons : forall (first : OrderBy) (rest : List OrderBy),
      (forall o, o ∈ first :: rest -> o.Allowed) ->
      (forall o, o ∈ first :: rest -> o.key = "pk".toList) ->
      keyOrder (first :: rest) = .ok (byKey first.up) ∧
        forall a b, rowOrder texts (first :: rest) a b =
          byKey first.up a.pk b.pk := by
    intro first rest hall hkeys
    constructor
    · show ((first :: rest).mapM orderOf >>= _) = _
      rw [mapM_orderOf hall hkeys]
      apply congrArg Except.ok
      funext a b
      rw [List.foldr_map, ← foldr_byKey first.up (rest.map OrderBy.up) a b,
        ← List.map_cons, List.foldr_map]
    · intro a b
      rw [← foldr_byKey first.up (rest.map OrderBy.up) a.pk b.pk,
        ← List.map_cons, List.foldr_map]
      unfold rowOrder
      apply List.foldr_ext
      intro o ho later
      rw [hkeys o ho]
      unfold byKey OrderBy.up columnOrder
      by_cases hasc : o.direction = "asc".toList
      · rw [if_pos hasc, if_pos (beq_iff_eq.mpr hasc)]
        rfl
      · rw [if_neg hasc, if_neg (fun h => hasc (beq_iff_eq.mp h))]
        rfl
  cases order with
  | none => exact ⟨false, (hcons _ _ h hkey).left, hdefault⟩
  | some orders =>
      cases orders with
      | nil => exact ⟨false, rfl, hdefault⟩
      | cons first rest => exact ⟨first.up, hcons first rest h hkey⟩

/-! ## What a page is -/

section Pages

variable {texts : Texts} {arrangement : Arrangement} {events : StoredEvents}
  {filter : TaskFilter} {order : Option (List OrderBy)} {perPage : Nat}

theorem count_asked : (stored texts arrangement events).count filter.conditions =
    .ok (taskIds (matching texts events filter)).length := by
  show (checkAll texts filter.conditions >>= _) = _
  rw [check_asked]
  rfl

def sortedKeys (texts : Texts) (events : StoredEvents) (filter : TaskFilter)
    (le : Nat -> Nat -> Ordering) : List Nat :=
  (groupMin (matching texts events filter)).mergeSort fun a b => le a b != .gt

theorem keys_asked (order : List OrderBy) (limit offset : Nat) :
    (stored texts arrangement events).keys filter.conditions order limit offset =
      (keyOrder order).map fun le =>
        ((sortedKeys texts events filter le).drop offset).take limit := by
  show (checkAll texts filter.conditions >>= _) = _
  rw [check_asked]
  show (keyOrder order >>= _) = _
  cases keyOrder order with
  | ok le => rfl
  | error e => rfl

theorem pageAt_of_none (h : matching texts events filter = []) (page : Nat) :
    pageAt texts events filter order perPage arrangement page =
      .ok (emptyPage page perPage) := by
  unfold pageAt findManyTasks
  rw [whereToSql_asked, exec_ofResult_bind_ok rfl, count_asked, h]
  rfl

def taskPage (arrangement : Arrangement) (events : StoredEvents)
    (keys : List Nat) (total page perPage : Nat) : Page Nat StoredRow :=
  let lastPage := (total + (perPage - 1)) / perPage
  { data := arrangement.arrange (liveRows events keys)
    pageMeta :=
      { total := total
        lastPage := some lastPage
        currentPage := page
        perPage := perPage
        prev := if 1 < page then some (page - 1) else none
        next := if page < lastPage then some (page + 1) else none } }

theorem fst_exec_pageOfTasks {num row : Type} (arithmetic : Arithmetic num)
    (db : Database num row) (conditions : List Condition)
    (orderBy : List OrderBy) (page perPage : num) (total : Nat)
    (sent : List (Statement num)) :
    (exec (pageOfTasks arithmetic db conditions orderBy page perPage total)
        sent).1 = (do
      let keys ← db.keys conditions orderBy perPage
        (arithmetic.offset perPage page)
      let data ← db.findMany keys
      let lastPage := arithmetic.lastPage total perPage
      return {
        data := data
        pageMeta :=
          { total := total
            lastPage := some lastPage
            currentPage := page
            perPage := perPage
            prev := arithmetic.prev page
            next := arithmetic.next page lastPage } }) := by
  show (exec (queryRaw _ (db.keys conditions orderBy perPage
    (arithmetic.offset perPage page)) >>= _) sent).1 = _
  cases db.keys conditions orderBy perPage (arithmetic.offset perPage page) with
  | error e => rfl
  | ok keys =>
      show (exec (ofResult (db.findMany keys) >>= _) _).1 =
        (db.findMany keys >>= _)
      cases db.findMany keys with
      | error e => rfl
      | ok data => rfl

theorem pageAt_of_some (h : matching texts events filter ≠ []) (page : Nat) :
    pageAt texts events filter order perPage arrangement page =
      (keyOrder (order.getD newestFirst)).map fun le =>
        taskPage arrangement events
          (((sortedKeys texts events filter le).drop
            (perPage * (page - 1))).take perPage)
          (taskIds (matching texts events filter)).length page perPage := by
  have hpositive : (taskIds (matching texts events filter)).length ≠ 0 := by
    rcases List.exists_mem_of_ne_nil _ h with ⟨row, hrow⟩
    intro hzero
    have hmem := mem_taskIds.mpr ⟨row, hrow, rfl⟩
    rw [List.length_eq_zero_iff.mp hzero] at hmem
    cases hmem
  unfold pageAt findManyTasks
  rw [whereToSql_asked, exec_ofResult_bind_ok rfl, count_asked]
  show (exec (if _ then _ else _) _).1 = _
  rw [if_neg hpositive]
  show (exec (pageOfTasks (naturals fun _ => 0) (stored texts arrangement events)
    filter.conditions (order.getD newestFirst) page perPage
    (taskIds (matching texts events filter)).length) _).1 = _
  rw [fst_exec_pageOfTasks]
  show ((stored texts arrangement events).keys filter.conditions _ perPage
    (perPage * (page - 1)) >>= _) = _
  rw [keys_asked]
  cases keyOrder (order.getD newestFirst) with
  | error e => rfl
  | ok le => rfl

/-! ## What is in the pages -/

theorem eq_of_pk_of_matching {a b : StoredRow}
    (ha : a ∈ matching texts events filter)
    (hb : b ∈ matching texts events filter) (h : a.pk = b.pk) : a = b :=
  Table.eq_of_pk (List.mem_of_mem_filter ha) (List.mem_of_mem_filter hb) h

theorem mem_liveRows {keys : List Nat} {row : StoredRow} :
    row ∈ liveRows events keys <->
      row ∈ events.rows ∧ row.pk ∈ keys ∧ row.value.deletedAt = 0 := by
  unfold liveRows
  rw [List.mem_filter]
  simp

theorem mem_liveMatching {row : StoredRow} :
    row ∈ liveMatching texts events filter <->
      row ∈ matching texts events filter ∧ row.value.deletedAt = 0 := by
  unfold liveMatching
  rw [List.mem_filter]
  simp

/-- The rows of all pages, with the keys in the order `le`. -/
def allRows (texts : Texts) (arrangement : Arrangement) (events : StoredEvents)
    (filter : TaskFilter) (perPage : Nat) (le : Nat -> Nat -> Ordering) :
    List StoredRow :=
  (Chunks.chunks (sortedKeys texts events filter le) perPage
    (((taskIds (matching texts events filter)).length + (perPage - 1)) /
      perPage)).flatMap fun keys => arrangement.arrange (liveRows events keys)

theorem perm_sortedKeys (le : Nat -> Nat -> Ordering) :
    (sortedKeys texts events filter le).Perm
      (groupMin (matching texts events filter)) :=
  List.mergeSort_perm _ _

theorem length_sortedKeys (le : Nat -> Nat -> Ordering) :
    (sortedKeys texts events filter le).length =
      (taskIds (matching texts events filter)).length := by
  rw [(perm_sortedKeys le).length_eq, length_groupMin]

theorem flatten_pages (h : 0 < perPage) (le : Nat -> Nat -> Ordering) :
    (Chunks.chunks (sortedKeys texts events filter le) perPage
      (((taskIds (matching texts events filter)).length + (perPage - 1)) /
        perPage)).flatten = sortedKeys texts events filter le := by
  rw [Chunks.flatten_chunks]
  apply List.take_of_length_le
  rw [length_sortedKeys]
  exact Chunks.le_room h _

theorem mem_allRows (h : 0 < perPage) {le : Nat -> Nat -> Ordering}
    {row : StoredRow} :
    row ∈ allRows texts arrangement events filter perPage le <->
      FirstOfTask (matching texts events filter) row ∧
        row.value.deletedAt = 0 := by
  unfold allRows
  rw [List.mem_flatMap]
  constructor
  · intro hmem
    rcases hmem with ⟨keys, hkeys, hrow⟩
    rcases mem_liveRows.mp ((arrangement.perm _).mem_iff.mp hrow) with
      ⟨hstored, hpk, hlive⟩
    have hall := List.mem_flatten.mpr ⟨keys, hkeys, hpk⟩
    rw [flatten_pages h le] at hall
    rcases mem_groupMin.mp ((perm_sortedKeys le).mem_iff.mp hall) with
      ⟨first, hfirst, hsame⟩
    have heq := Table.eq_of_pk (List.mem_of_mem_filter hfirst.left) hstored
      hsame
    rw [← heq]
    exact ⟨hfirst, heq ▸ hlive⟩
  · intro hboth
    have hkey : row.pk ∈ sortedKeys texts events filter le :=
      (perm_sortedKeys le).mem_iff.mpr
        (mem_groupMin.mpr ⟨row, hboth.left, rfl⟩)
    rw [← flatten_pages h le] at hkey
    rcases List.mem_flatten.mp hkey with ⟨keys, hkeys, hpk⟩
    refine ⟨keys, hkeys, (arrangement.perm _).mem_iff.mpr ?_⟩
    exact mem_liveRows.mpr
      ⟨List.mem_of_mem_filter hboth.left.left, hpk, hboth.right⟩

theorem mapM_pageAt (h : matching texts events filter ≠ [])
    {le : Nat -> Nat -> Ordering}
    (hle : keyOrder (order.getD newestFirst) = .ok le) :
    exists pages : List (Page Nat StoredRow),
      (List.range (((taskIds (matching texts events filter)).length +
        (perPage - 1)) / perPage)).mapM (fun i =>
          pageAt texts events filter order perPage arrangement (i + 1)) =
        .ok pages ∧
      (forall page, page ∈ pages -> page.pageMeta.total =
        (taskIds (matching texts events filter)).length) ∧
      pages.flatMap Page.data =
        allRows texts arrangement events filter perPage le := by
  have hpage : (fun i =>
      pageAt texts events filter order perPage arrangement (i + 1)) =
      fun i => pure (taskPage arrangement events
        (((sortedKeys texts events filter le).drop (i * perPage)).take perPage)
        (taskIds (matching texts events filter)).length (i + 1) perPage) := by
    funext i
    rw [pageAt_of_some h, hle, Nat.add_sub_cancel, Nat.mul_comm perPage i]
    rfl
  rw [hpage, List.mapM_pure]
  refine ⟨_, rfl, ?_, ?_⟩
  · intro page hmem
    rcases List.mem_map.mp hmem with ⟨i, _, heq⟩
    rw [← heq]
    rfl
  · unfold allRows Chunks.chunks
    rw [List.flatMap_map, List.flatMap_map]
    rfl

/-! ## When the pages are right -/

def FirstsLive (texts : Texts) (events : StoredEvents) (filter : TaskFilter) :
    Prop :=
  forall row, FirstOfTask (matching texts events filter) row ->
    row.value.deletedAt = 0

theorem first_live_iff (h : FirstsLive texts events filter)
    {row : StoredRow} :
    FirstOfTask (liveMatching texts events filter) row <->
      FirstOfTask (matching texts events filter) row := by
  constructor
  · intro hfirst
    have hrow := (mem_liveMatching.mp hfirst.left).left
    refine ⟨hrow, ?_⟩
    intro other hother hsame
    rcases exists_first hrow with ⟨least, hleast, htask⟩
    have hlive := mem_liveMatching.mpr ⟨hleast.left, h least hleast⟩
    have hle := hfirst.right least hlive htask
    exact Nat.le_trans hle (hleast.right other hother (hsame.trans htask.symm))
  · intro hfirst
    refine ⟨mem_liveMatching.mpr ⟨hfirst.left, h row hfirst⟩, ?_⟩
    intro other hother hsame
    exact hfirst.right other (mem_liveMatching.mp hother).left hsame

theorem length_taskIds_live (h : FirstsLive texts events filter) :
    (taskIds (liveMatching texts events filter)).length =
      (taskIds (matching texts events filter)).length := by
  apply List.Perm.length_eq
  apply (List.perm_ext_iff_of_nodup (List.nodup_dedup _)
    (List.nodup_dedup _)).mpr
  intro taskId
  show taskId ∈ taskIds _ <-> taskId ∈ taskIds _
  rw [mem_taskIds, mem_taskIds]
  constructor
  · intro hmem
    rcases hmem with ⟨row, hrow, htask⟩
    exact ⟨row, (mem_liveMatching.mp hrow).left, htask⟩
  · intro hmem
    rcases hmem with ⟨row, hrow, htask⟩
    rcases exists_first hrow with ⟨first, hfirst, hsame⟩
    exact ⟨first, mem_liveMatching.mpr ⟨hfirst.left, h first hfirst⟩,
      hsame.trans htask⟩

def rowAt (events : StoredEvents) (pk : Nat) : Option StoredRow :=
  (events.findPk pk).filter fun row => row.value.deletedAt == 0

theorem rowAt_eq_some_iff {pk : Nat} {row : StoredRow} :
    rowAt events pk = some row <->
      row ∈ events.rows ∧ row.pk = pk ∧ row.value.deletedAt = 0 := by
  unfold rowAt
  rw [Option.filter_eq_some_iff]
  constructor
  · intro h
    have hpk := List.find?_some h.left
    exact ⟨List.mem_of_find?_eq_some h.left, beq_iff_eq.mp hpk,
      beq_iff_eq.mp h.right⟩
  · intro h
    refine ⟨?_, beq_iff_eq.mpr h.right.right⟩
    rw [← h.right.left]
    exact Table.findPk_of_mem h.left

theorem arrange_liveRows {keys : List Nat} (h : keys.length ≤ 1) :
    arrangement.arrange (liveRows events keys) =
      keys.filterMap (rowAt events) := by
  have hnodup : (liveRows events keys).Nodup :=
    (events.pk_unique.imp fun hpk heq => hpk (congrArg _ heq)).filter _
  have hperm : (liveRows events keys).Perm (keys.filterMap (rowAt events)) := by
    have hkeys : keys.Nodup := by
      cases keys with
      | nil => exact List.nodup_nil
      | cons pk rest =>
          rw [List.length_eq_zero_iff.mp (Nat.le_zero.mp (Nat.le_of_succ_le_succ h))]
          exact List.nodup_singleton pk
    apply (List.perm_ext_iff_of_nodup hnodup (hkeys.filterMap ?_)).mpr
    · intro row
      rw [mem_liveRows, List.mem_filterMap]
      constructor
      · intro hrow
        exact ⟨row.pk, hrow.right.left,
          rowAt_eq_some_iff.mpr ⟨hrow.left, rfl, hrow.right.right⟩⟩
      · intro hrow
        rcases hrow with ⟨pk, hpk, hat⟩
        rcases rowAt_eq_some_iff.mp hat with ⟨hstored, hsame, hlive⟩
        exact ⟨hstored, hsame ▸ hpk, hlive⟩
    · intro pk pk' row hrow hrow'
      rw [← (rowAt_eq_some_iff.mp hrow).right.left,
        (rowAt_eq_some_iff.mp hrow').right.left]
  have hlist := (arrangement.perm (liveRows events keys)).trans hperm
  have hshort : (keys.filterMap (rowAt events)).length ≤ 1 :=
    Nat.le_trans (List.length_filterMap_le _ _) h
  cases hrows : keys.filterMap (rowAt events) with
  | nil =>
      rw [hrows] at hlist
      exact hlist.eq_nil
  | cons row rest =>
      rw [hrows] at hlist hshort
      rw [List.length_eq_zero_iff.mp
        (Nat.le_zero.mp (Nat.le_of_succ_le_succ hshort))] at hlist ⊢
      exact List.perm_singleton.mp hlist

theorem byKey_ne_gt_iff {up : Bool} {a b : Nat} :
    byKey up a b ≠ .gt <-> if up = true then a ≤ b else b ≤ a := by
  unfold byKey
  cases up with
  | true => exact (not_congr Nat.compare_eq_gt).trans Nat.not_lt
  | false => exact (not_congr Nat.compare_eq_gt).trans Nat.not_lt

theorem pairwise_sortedKeys (up : Bool) :
    (sortedKeys texts events filter (byKey up)).Pairwise
      fun a b => byKey up a b ≠ .gt := by
  have hbool : forall a b, (byKey up a b != .gt) = true <->
      if up = true then a ≤ b else b ≤ a := by
    intro a b
    rw [bne_iff_ne, byKey_ne_gt_iff]
  have hsorted : (sortedKeys texts events filter (byKey up)).Pairwise
      fun a b => (byKey up a b != .gt) = true := by
    apply List.pairwise_mergeSort
    · intro a b c hab hbc
      rw [hbool] at hab hbc ⊢
      cases up with
      | true => exact Nat.le_trans hab hbc
      | false => exact Nat.le_trans hbc hab
    · intro a b
      rw [Bool.or_eq_true, hbool, hbool]
      cases up with
      | true => exact Nat.le_total a b
      | false => exact Nat.le_total b a
  exact hsorted.imp bne_iff_ne.mp

theorem sorted_allRows (h : 0 < perPage) {up : Bool}
    (hshort : perPage = 1 ∨
      (taskIds (matching texts events filter)).length ≤ 1) :
    (allRows texts arrangement events filter perPage (byKey up)).Nodup ∧
      (allRows texts arrangement events filter perPage (byKey up)).Pairwise
        fun a b => byKey up a.pk b.pk ≠ .gt := by
  have hpages : allRows texts arrangement events filter perPage (byKey up) =
      (sortedKeys texts events filter (byKey up)).filterMap (rowAt events) := by
    refine Eq.trans ?_ (congrArg (List.filterMap (rowAt events))
      (flatten_pages h (byKey up)))
    unfold allRows
    rw [List.filterMap_flatten, List.flatMap_def]
    congr 1
    apply List.map_congr_left
    intro keys hkeys
    apply arrange_liveRows
    rcases hshort with hone | hfew
    · rw [← hone]
      exact Chunks.length_le_of_mem_chunks hkeys
    · have hsub := List.sublist_flatten_of_mem hkeys
      rw [flatten_pages h (byKey up)] at hsub
      have hlength := hsub.length_le
      rw [length_sortedKeys] at hlength
      exact Nat.le_trans hlength hfew
  have hinj : forall pk pk' row, row ∈ rowAt events pk ->
      row ∈ rowAt events pk' -> pk = pk' := by
    intro pk pk' row hrow hrow'
    rw [← (rowAt_eq_some_iff.mp hrow).right.left,
      (rowAt_eq_some_iff.mp hrow').right.left]
  rw [hpages]
  constructor
  · apply List.Nodup.filterMap hinj
    apply (perm_sortedKeys _).nodup_iff.mpr
    exact nodup_groupMin fun a ha b hb => eq_of_pk_of_matching ha hb
  · apply (pairwise_sortedKeys up).filterMap
    intro pk pk' hle row hrow row' hrow'
    rw [(rowAt_eq_some_iff.mp hrow).right.left,
      (rowAt_eq_some_iff.mp hrow').right.left]
    exact hle

theorem length_of_both_ways {rows : List StoredRow} {up : Bool}
    (hpk : rows.Pairwise fun a b => a.pk ≠ b.pk)
    (h : rows.Pairwise fun a b => byKey up a.pk b.pk ≠ .gt)
    (h' : rows.reverse.Pairwise fun a b => byKey up a.pk b.pk ≠ .gt) :
    rows.length ≤ 1 := by
  cases rows with
  | nil => exact Nat.zero_le 1
  | cons first rest =>
      cases rest with
      | nil => exact Nat.le_refl 1
      | cons second rest =>
          have hlt := List.rel_of_pairwise_cons h List.mem_cons_self
          have hgt := List.rel_of_pairwise_cons (List.pairwise_reverse.mp h')
            List.mem_cons_self
          have hne := List.rel_of_pairwise_cons hpk List.mem_cons_self
          rw [byKey_ne_gt_iff] at hlt hgt
          cases up with
          | true => exact absurd (Nat.le_antisymm hlt hgt) hne
          | false => exact absurd (Nat.le_antisymm hgt hlt) hne

theorem two_le_liveRows (hlive : FirstsLive texts events filter)
    {le : Nat -> Nat -> Ordering} (hsize : 2 ≤ perPage)
    (hmany : 2 ≤ (taskIds (matching texts events filter)).length) :
    2 ≤ (liveRows events
      ((sortedKeys texts events filter le).take perPage)).length := by
  have hnodup : (sortedKeys texts events filter le).Nodup := by
    apply (perm_sortedKeys _).nodup_iff.mpr
    exact nodup_groupMin fun a ha b hb => eq_of_pk_of_matching ha hb
  have hsub : (sortedKeys texts events filter le).take perPage ⊆
      (liveRows events ((sortedKeys texts events filter le).take perPage)).map
        TableRow.pk := by
    intro pk hpk
    have hall := (perm_sortedKeys le).mem_iff.mp (List.mem_of_mem_take hpk)
    rcases mem_groupMin.mp hall with ⟨row, hrow, hsame⟩
    refine List.mem_map.mpr ⟨row, mem_liveRows.mpr ?_, hsame⟩
    exact ⟨List.mem_of_mem_filter hrow.left, hsame ▸ hpk, hlive row hrow⟩
  have hle := (List.subperm_of_subset hnodup.take hsub).length_le
  rw [List.length_map, List.length_take, length_sortedKeys] at hle
  exact Nat.le_trans (Nat.le_min.mpr ⟨hsize, hmany⟩) hle

theorem sublist_allRows (h : 0 < perPage)
    (hsome : matching texts events filter ≠ [])
    (le : Nat -> Nat -> Ordering) :
    (arrangement.arrange (liveRows events
        ((sortedKeys texts events filter le).take perPage))).Sublist
      (allRows texts arrangement events filter perPage le) := by
  have hpositive : 0 < (taskIds (matching texts events filter)).length := by
    rcases List.exists_mem_of_ne_nil _ hsome with ⟨row, hrow⟩
    exact List.length_pos_of_mem (mem_taskIds.mpr ⟨row, hrow, rfl⟩)
  apply List.sublist_flatten_of_mem
  refine List.mem_map.mpr ⟨_, ?_, rfl⟩
  refine List.mem_map.mpr ⟨0, List.mem_range.mpr ?_, ?_⟩
  · exact Nat.div_pos (by omega) h
  · rw [Nat.zero_mul, List.drop_zero]

theorem listsTasks_of_none (h : matching texts events filter = []) :
    ListsTasks texts events filter order perPage := by
  have hlive : liveMatching texts events filter = [] := by
    unfold liveMatching
    rw [h]
    rfl
  intro arrangement
  refine ⟨_, [], pageAt_of_none h 1, rfl, ?_, List.nodup_nil, ?_,
    List.Pairwise.nil⟩
  · intro page hpage
    rw [List.mem_singleton.mp hpage, hlive]
    rfl
  · intro row
    rw [hlive]
    constructor
    · intro hrow
      cases hrow
    · intro hfirst
      cases hfirst.left

theorem listsTasks_of_short (h : 0 < perPage)
    (hsome : matching texts events filter ≠ [])
    (hallowed : forall o, o ∈ order.getD newestFirst -> o.Allowed)
    (hkey : forall o, o ∈ order.getD newestFirst -> o.key = "pk".toList)
    (hlive : FirstsLive texts events filter)
    (hshort : perPage = 1 ∨
      (taskIds (matching texts events filter)).length ≤ 1) :
    ListsTasks texts events filter order perPage := by
  rcases exists_keyOrder texts hallowed hkey with ⟨up, hle, hrow⟩
  intro arrangement
  rcases @mapM_pageAt texts arrangement events filter order perPage
    hsome (byKey up) hle with ⟨pages, hpages, htotal, hdata⟩
  have hfirst : pageAt texts events filter order perPage arrangement 1 =
      .ok (taskPage arrangement events
        (((sortedKeys texts events filter (byKey up)).drop
          (perPage * (1 - 1))).take perPage)
        (taskIds (matching texts events filter)).length 1 perPage) := by
    rw [pageAt_of_some hsome, hle]
    rfl
  have hsorted := @sorted_allRows texts arrangement events filter perPage h up
    hshort
  refine ⟨_, pages, hfirst, hpages, ?_, ?_⟩
  · intro page hpage
    rw [length_taskIds_live hlive]
    rcases List.mem_cons.mp hpage with heq | hmem
    · rw [heq]
      rfl
    · exact htotal page hmem
  · rw [hdata]
    refine ⟨hsorted.left, ?_, ?_⟩
    · intro row
      rw [mem_allRows h, first_live_iff hlive]
      exact ⟨fun hboth => hboth.left, fun hrow => ⟨hrow, hlive row hrow⟩⟩
    · apply hsorted.right.imp
      intro a b hab
      rw [hrow]
      exact hab

/-- The arrangements that leave rows as they are, and that turn them round. -/
def asStored : Arrangement := ⟨id, fun rows => List.Perm.refl rows⟩

def turnedRound : Arrangement := ⟨List.reverse, List.reverse_perm⟩

theorem short_of_listsTasks (h : 0 < perPage)
    (hsome : matching texts events filter ≠ [])
    (hallowed : forall o, o ∈ order.getD newestFirst -> o.Allowed)
    (hlists : ListsTasks texts events filter order perPage) :
    (forall o, o ∈ order.getD newestFirst -> o.key = "pk".toList) ∧
      FirstsLive texts events filter ∧
      (perPage = 1 ∨ (taskIds (matching texts events filter)).length ≤ 1) := by
  have hkey : forall o, o ∈ order.getD newestFirst -> o.key = "pk".toList := by
    rcases hlists asStored with ⟨first, pages, hfirst, _⟩
    rw [pageAt_of_some hsome] at hfirst
    cases hle : keyOrder (order.getD newestFirst) with
    | ok le => exact key_of_keyOrder hallowed hle
    | error e =>
        rw [hle] at hfirst
        cases hfirst
  rcases exists_keyOrder texts hallowed hkey with ⟨up, hle, hrow⟩
  -- what every arrangement lists
  have hall : forall arrangement,
      ListsFirst texts events filter order
        (allRows texts arrangement events filter perPage (byKey up)) ∧
      (taskIds (matching texts events filter)).length =
        (taskIds (liveMatching texts events filter)).length := by
    intro arrangement
    rcases hlists arrangement with
      ⟨first, pages, hfirst, hpages, htotal, hlist⟩
    rw [pageAt_of_some hsome, hle] at hfirst
    cases hfirst
    rcases @mapM_pageAt texts arrangement events filter order perPage
      hsome (byKey up) hle with ⟨pages', hpages', _, hdata⟩
    have hsame := Except.ok.inj (hpages.symm.trans hpages')
    rw [hsame, hdata] at hlist
    exact ⟨hlist, htotal _ List.mem_cons_self⟩
  have hlive : FirstsLive texts events filter := by
    intro row hfirst
    rcases hall asStored with ⟨hlist, hlength⟩
    have hsub : taskIds (liveMatching texts events filter) ⊆
        taskIds (matching texts events filter) := by
      intro taskId hmem
      rcases mem_taskIds.mp hmem with ⟨other, hother, htask⟩
      exact mem_taskIds.mpr ⟨other, (mem_liveMatching.mp hother).left, htask⟩
    have hperm := (List.subperm_of_subset (List.nodup_dedup _)
      hsub).perm_of_length_le (Nat.le_of_eq hlength)
    have htask := hperm.mem_iff.mpr (mem_taskIds.mpr ⟨row, hfirst.left, rfl⟩)
    rcases mem_taskIds.mp htask with ⟨other, hother, hsame⟩
    rcases exists_first hother with ⟨least, hleast, hsame'⟩
    rcases (mem_allRows h).mp ((hlist.mem least).mpr hleast) with
      ⟨hleastAll, hkept⟩
    have htasks := hsame'.trans hsame
    have hpk := Nat.le_antisymm
      (hfirst.right least hleastAll.left htasks)
      (hleastAll.right row hfirst.left htasks.symm)
    rw [eq_of_pk_of_matching hfirst.left hleastAll.left hpk]
    exact hkept
  refine ⟨hkey, hlive, ?_⟩
  by_contra hlong
  rcases not_or.mp hlong with ⟨hone, hfew⟩
  have hpart : forall arrangement : Arrangement,
      (arrangement.arrange (liveRows events
        ((sortedKeys texts events filter (byKey up)).take perPage))).Pairwise
          fun a b => byKey up a.pk b.pk ≠ .gt := by
    intro arrangement
    apply ((hall arrangement).left.order.sublist
      (sublist_allRows h hsome (byKey up))).imp
    intro a b hab
    rw [← hrow]
    exact hab
  have hdistinct : (liveRows events
      ((sortedKeys texts events filter (byKey up)).take perPage)).Pairwise
        fun a b => a.pk ≠ b.pk :=
    events.pk_unique.filter _
  have hshort := length_of_both_ways hdistinct (hpart asStored)
    (hpart turnedRound)
  have htwo := @two_le_liveRows texts events filter perPage hlive (byKey up)
    (Nat.lt_of_le_of_ne h (Ne.symm hone)) (Nat.lt_of_not_le hfew)
  exact absurd (Nat.le_trans htwo hshort) (by decide)

/-- The pages list the tasks as they should exactly when no event matches, or
the order is one by `pk`, the first events are not deleted, and no page has
two rows. -/
theorem listsTasks_iff (h : 0 < perPage)
    (hallowed : forall o, o ∈ order.getD newestFirst -> o.Allowed) :
    ListsTasks texts events filter order perPage <->
      matching texts events filter = [] ∨
        ((forall o, o ∈ order.getD newestFirst -> o.key = "pk".toList) ∧
          FirstsLive texts events filter ∧
          (perPage = 1 ∨
            (taskIds (matching texts events filter)).length ≤ 1)) := by
  constructor
  · intro hlists
    by_cases hsome : matching texts events filter = []
    · exact Or.inl hsome
    · exact Or.inr (short_of_listsTasks h hsome hallowed hlists)
  · intro hcases
    by_cases hsome : matching texts events filter = []
    · exact listsTasks_of_none hsome
    · rcases hcases with hnone | ⟨hkey, hlive, hshort⟩
      · exact absurd hnone hsome
      · exact listsTasks_of_short h hsome hallowed hkey hlive hshort

end Pages

/-! ## Two tasks -/

def exactTexts : Texts where
  ilike := fun text pattern => text == pattern
  collate := fun _ _ => .eq

def callOf (taskId : String) : StoredEvent where
  calledBy := some "u1".toList
  paidBy := "u1".toList
  title := none
  taskId := taskId.toList
  eventType := "CLIENT_REQUEST".toList
  dataType := "API".toList
  statusCode := 0
  message := none
  createdAt := 0
  updatedAt := 0
  deletedAt := 0

def twoCalls : StoredEvents :=
  (Table.empty.insert "e1".toList (callOf "t1") rfl).insert "e2".toList
    (callOf "t2") rfl

def callerTasks : TaskFilter := ⟨some "u1".toList, none, none, none, none⟩

theorem allowed_newestFirst :
    forall o, o ∈ (none : Option (List OrderBy)).getD newestFirst ->
      o.Allowed := by
  intro o ho
  rw [List.mem_singleton.mp ho]
  exact ⟨by simp [allowedOrders], Or.inr rfl⟩

theorem listsTasks_oneByOne :
    ListsTasks exactTexts twoCalls callerTasks none 1 := by
  apply (listsTasks_iff Nat.one_pos allowed_newestFirst).mpr
  refine Or.inr ⟨?_, ?_, Or.inl rfl⟩
  · intro o ho
    rw [List.mem_singleton.mp ho]
  · intro row hrow
    have hmem := List.mem_of_mem_filter hrow.left
    rcases List.mem_cons.mp hmem with heq | hrest
    · rw [heq]
      rfl
    · rw [List.mem_singleton.mp hrest]
      rfl

/-- Both tasks are on one page, and the newest one comes second where the
database gives the rows in the order in which they are stored. -/
theorem not_listsTasks_twoCalls :
    ¬ ListsTasks exactTexts twoCalls callerTasks none 10 := by
  intro hlists
  have hsome : matching exactTexts twoCalls callerTasks ≠ [] :=
    List.cons_ne_nil _ _
  rcases (short_of_listsTasks (Nat.succ_pos 9) hsome allowed_newestFirst
    hlists).right.right with hone | hfew
  · cases hone
  · have htwo : (taskIds (matching exactTexts twoCalls callerTasks)).length =
        2 := by decide
    rw [htwo] at hfew
    exact absurd hfew (by decide)

end Tasks
end Event
end CallgentApi
