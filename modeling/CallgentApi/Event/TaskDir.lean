import CallgentApi.Lib.PosixPath
import CallgentApi.Event.Action
import CallgentApi.Event.TaskId

/-!
# Task directories

The working directory of a task is made of the pieces of its id.
-/

namespace CallgentApi
namespace Event

open Js Js.Place

/-- A client request on its way to `RestApiController.request`, with what the
constructor of its event draws. -/
structure TaskRequest where
  taskId : Option Text
  id : Uuid
  now : UtcDate
  entryId : Text
  dataType : Text
  req : Json
  title : Text
  paidBy : Text
  calledBy : Option Text
  context : RequestContext

namespace TaskRequest

def event (r : TaskRequest) : EventObject :=
  .clientRequest r.id.text r.entryId r.dataType r.req
    (getTaskId r.taskId r.id r.now) r.title r.paidBy r.calledBy r.context none

/-- `e.getTaskCwd(base)`, joined. -/
def cwd (r : TaskRequest) (base : Text) : Except Thrown Text :=
  (getTaskCwd .constructed r.event base).map joinPaths

end TaskRequest

/-! ## Task directories -/

/-- The segments that a task id is read as: `yyMM`, `dd`, the last letter of
the id behind the date, and that id. -/
def taskSegments (taskId : Text) : List Text :=
  let pieces := taskId.splitOn '-'
  let ts := pieces.headD []
  let id := join '-' pieces.tail
  [ts.take 4, ts.drop 4, id.getLast?.toList, id].flatMap fun part =>
    part.splitOn '/'

/-- The names that the segments of a task id leave, the last name first. -/
def taskNames (taskId : Text) : Option (List Text) :=
  walk [] (taskSegments taskId)

/-- The segments of a task id never climb above their start, and they enter a
name in the end. -/
def Descends (taskId : Text) : Prop :=
  exists names, taskNames taskId = some names ∧ names ≠ []

theorem Dated.splitOn_eq {taskId ts id : Text} (h : Dated taskId ts id) :
    taskId.splitOn '-' = ts :: id.splitOn '-' := by
  have hdash : '-' ∉ ts := by
    intro hmem
    exact absurd (h.digits '-' hmem) (by decide)
  rw [h.eq]
  exact List.splitOn_append_cons_self_of_not_mem hdash id

theorem isName_of_digits {s : Text} (hne : s ≠ [])
    (h : forall c, c ∈ s -> c.isDigit = true) : IsName s := by
  have hdot : '.' ∉ s := fun hmem => absurd (h '.' hmem) (by decide)
  constructor
  · exact hne
  · intro heq
    rw [heq] at hdot
    exact hdot List.mem_cons_self
  · intro heq
    rw [heq] at hdot
    exact hdot List.mem_cons_self
  · exact fun hmem => absurd (h '/' hmem) (by decide)

theorem exists_cwd (r : TaskRequest) (base : Text) :
    exists dir, r.cwd base = .ok dir ∧
      locate dir =
        (taskSegments r.event.taskId).foldl enter (locate base) := by
  rcases dated_getTaskId r.taskId r.id r.now with ⟨ts, id, hdated⟩
  have hsplit : r.event.taskId.splitOn '-' = ts :: id.splitOn '-' :=
    hdated.splitOn_eq
  have hid : join '-' (id.splitOn '-') = id := List.intercalate_splitOn '-'
  have hlast : id.getLast? = some (id.getLast hdated.ne_nil) :=
    List.getLast?_eq_some_getLast hdated.ne_nil
  have hname : IsName (ts.take 4) := by
    apply isName_of_digits
    · apply List.ne_nil_of_length_pos
      rw [List.length_take, hdated.length]
      decide
    · intro c hc
      exact hdated.digits c (List.mem_of_mem_take hc)
  have hparts : getTaskCwd .constructed r.event base =
      .ok [base, ts.take 4, ts.drop 4, [id.getLast hdated.ne_nil], id] := by
    unfold getTaskCwd
    dsimp only
    rw [hsplit, List.tail_cons, hid, hlast]
    rfl
  have hsegments : taskSegments r.event.taskId =
      [ts.take 4, ts.drop 4, [id.getLast hdated.ne_nil], id].flatMap
        fun part => part.splitOn '/' := by
    unfold taskSegments
    dsimp only
    rw [hsplit, List.tail_cons, hid, hlast]
    rfl
  refine ⟨joinPaths [base, ts.take 4, ts.drop 4,
    [id.getLast hdated.ne_nil], id], ?_, ?_⟩
  · unfold TaskRequest.cwd
    rw [hparts]
    rfl
  · rw [locate_joinPaths hname, foldl_visit, hsegments]

/-! ## Containment and separation -/

/-- From every base both requests get a directory strictly below it, and the
same one when their tasks are the same and only then. -/
def Separated (first second : TaskRequest) : Prop :=
  forall base, exists dir other,
    first.cwd base = .ok dir ∧ second.cwd base = .ok other ∧
      Below (locate base) (locate dir) ∧ Below (locate base) (locate other) ∧
      (locate dir = locate other <->
        first.event.taskId = second.event.taskId)

/-- The directories are as they should be exactly when the two task ids
descend and leave the same names only if they are the same. -/
theorem separated_iff (first second : TaskRequest) :
    Separated first second <->
      Descends first.event.taskId ∧ Descends second.event.taskId ∧
        (taskNames first.event.taskId = taskNames second.event.taskId ->
          first.event.taskId = second.event.taskId) := by
  constructor
  · intro h
    have hbelow : forall base : Text,
        Below (locate base)
            ((taskSegments first.event.taskId).foldl enter (locate base)) ∧
          Below (locate base)
            ((taskSegments second.event.taskId).foldl enter (locate base)) ∧
          ((taskSegments first.event.taskId).foldl enter (locate base) =
              (taskSegments second.event.taskId).foldl enter (locate base) ->
            first.event.taskId = second.event.taskId) := by
      intro base
      rcases h base with ⟨dir, other, hdir, hother, hleft, hright, hiff⟩
      rcases exists_cwd first base with ⟨dir', hdir', hplace⟩
      rcases exists_cwd second base with ⟨other', hother', hplace'⟩
      cases Except.ok.inj (hdir.symm.trans hdir')
      cases Except.ok.inj (hother.symm.trans hother')
      rw [hplace, hplace'] at hiff
      rw [hplace] at hleft
      rw [hplace'] at hright
      exact ⟨hleft, hright, hiff.mp⟩
    have hfirst := (forall_below_iff _).mp fun base => (hbelow base).left
    have hsecond := (forall_below_iff _).mp fun base =>
      (hbelow base).right.left
    refine ⟨hfirst, hsecond, ?_⟩
    intro hnames
    rcases hfirst with ⟨out, hout, _⟩
    rcases hsecond with ⟨out', hout', _⟩
    apply (hbelow []).right.right
    apply (foldl_enter_eq_iff hout hout' _).mpr
    exact Option.some.inj (hout.symm.trans (hnames.trans hout'))
  · intro h base
    rcases h with ⟨hfirst, hsecond, hnames⟩
    rcases exists_cwd first base with ⟨dir, hdir, hplace⟩
    rcases exists_cwd second base with ⟨other, hother, hplace'⟩
    refine ⟨dir, other, hdir, hother, ?_, ?_, ?_⟩
    · rw [hplace]
      exact (forall_below_iff _).mpr hfirst base
    · rw [hplace']
      exact (forall_below_iff _).mpr hsecond base
    · rcases hfirst with ⟨out, hout, _⟩
      rcases hsecond with ⟨out', hout', _⟩
      rw [hplace, hplace', foldl_enter_eq_iff hout hout']
      constructor
      · intro heq
        apply hnames
        rw [hout, hout', heq]
      · intro heq
        rw [heq] at hout
        exact Option.some.inj (hout.symm.trans hout')

theorem taskNames_of_no_slash {taskId ts id : Text} (h : Dated taskId ts id)
    (hslash : '/' ∉ id) (hdot : id ≠ dot) (hdots : id ≠ dots) :
    taskNames taskId =
      some (id :: ((if id.getLast h.ne_nil = '.' then []
        else [[id.getLast h.ne_nil]]) ++ [ts.drop 4, ts.take 4])) := by
  have hpart : forall part : Text, (forall c, c ∈ part -> c ∈ ts) ->
      part.splitOn '/' = [part] := by
    intro part hpart
    apply List.splitOn_eq_singleton
    intro hmem
    exact absurd (h.digits '/' (hpart '/' hmem)) (by decide)
  have htake : IsName (ts.take 4) := by
    apply isName_of_digits
    · apply List.ne_nil_of_length_pos
      rw [List.length_take, h.length]
      decide
    · intro c hc
      exact h.digits c (List.mem_of_mem_take hc)
  have hdrop : IsName (ts.drop 4) := by
    apply isName_of_digits
    · apply List.ne_nil_of_length_pos
      rw [List.length_drop, h.length]
      decide
    · intro c hc
      exact h.digits c (List.mem_of_mem_drop hc)
  have hlast : '/' ∉ [id.getLast h.ne_nil] := by
    intro hmem
    apply hslash
    rw [List.mem_singleton.mp hmem]
    exact List.getLast_mem h.ne_nil
  have hid : join '-' (id.splitOn '-') = id := List.intercalate_splitOn '-'
  have hsegments : taskSegments taskId =
      [ts.take 4, ts.drop 4, [id.getLast h.ne_nil], id] := by
    unfold taskSegments
    dsimp only
    rw [h.splitOn_eq, List.tail_cons, hid,
      List.getLast?_eq_some_getLast h.ne_nil]
    show (ts.take 4).splitOn '/' ++ ((ts.drop 4).splitOn '/' ++
      ([id.getLast h.ne_nil].splitOn '/' ++ (id.splitOn '/' ++ []))) = _
    rw [hpart _ fun c hc => List.mem_of_mem_take hc,
      hpart _ fun c hc => List.mem_of_mem_drop hc,
      List.splitOn_eq_singleton hlast, List.splitOn_eq_singleton hslash]
    rfl
  unfold taskNames
  rw [hsegments, walk_name htake, walk_name hdrop]
  have hname : IsName id := ⟨h.ne_nil, hdot, hdots, hslash⟩
  by_cases hend : id.getLast h.ne_nil = '.'
  · rw [if_pos hend, hend]
    show walk _ [id] = _
    rw [walk_name hname]
    rfl
  · rw [if_neg hend]
    have hlastName : IsName [id.getLast h.ne_nil] := by
      constructor
      · exact List.cons_ne_nil _ _
      · intro heq
        exact hend (List.head_eq_of_cons_eq heq)
      · intro heq
        have hlength : 1 = 2 := congrArg List.length heq
        cases hlength
      · exact hlast
    rw [walk_name hlastName, walk_name hname]
    rfl

theorem separated_of_no_slash {first second : TaskRequest}
    {ts id ts' id' : Text} (h : Dated first.event.taskId ts id)
    (h' : Dated second.event.taskId ts' id') (hid : IsName id)
    (hid' : IsName id') : Separated first second := by
  have hnames := taskNames_of_no_slash h hid.no_slash hid.ne_dot hid.ne_dots
  have hnames' :=
    taskNames_of_no_slash h' hid'.no_slash hid'.ne_dot hid'.ne_dots
  apply (separated_iff first second).mpr
  refine ⟨⟨_, hnames, List.cons_ne_nil _ _⟩,
    ⟨_, hnames', List.cons_ne_nil _ _⟩, ?_⟩
  intro heq
  rw [hnames, hnames'] at heq
  have hlist := Option.some.inj heq
  have hids : id = id' := List.head_eq_of_cons_eq hlist
  subst hids
  have hdates := List.append_cancel_left (List.tail_eq_of_cons_eq hlist)
  have hdrop : ts.drop 4 = ts'.drop 4 := List.head_eq_of_cons_eq hdates
  have htake : ts.take 4 = ts'.take 4 :=
    List.head_eq_of_cons_eq (List.tail_eq_of_cons_eq hdates)
  have hts : ts = ts' := by
    rw [← List.take_append_drop 4 ts, htake, hdrop, List.take_append_drop]
  rw [h.eq, h'.eq, hts]

/-! ## A task id that leaves the base -/

def taskOf (taskId : Text) : TaskRequest where
  taskId := some taskId
  id := someId
  now := newYear
  entryId := "entry".toList
  dataType := "restAPI".toList
  req := .null
  title := "Request: hi".toList
  paidBy := "u".toList
  calledBy := none
  context := ⟨"cg".toList, "cg".toList, none, none, none⟩

/-- The first id leads out of the base, and the two others to one
directory. -/
theorem not_separated :
    ((taskOf "250101-../../../../../../../../x".toList).cwd
        "/upload".toList).toOption = some "/x".toList ∧
      ¬ Below (locate "/upload".toList) (locate "/x".toList) ∧
      ((taskOf "250101-a//b/cccccccccccccccccccc".toList).cwd
          "/upload".toList).toOption =
        some "/upload/2501/01/c/a/b/cccccccccccccccccccc".toList ∧
      ((taskOf "250101-a/b//cccccccccccccccccccc".toList).cwd
          "/upload".toList).toOption =
        some "/upload/2501/01/c/a/b/cccccccccccccccccccc".toList ∧
      (taskOf "250101-a//b/cccccccccccccccccccc".toList).event.taskId ≠
        (taskOf "250101-a/b//cccccccccccccccccccc".toList).event.taskId := by
  refine ⟨by decide +kernel, ?_, by decide +kernel, by decide +kernel,
    by decide +kernel⟩
  intro h
  rcases h with ⟨names, _, heq⟩
  have hstack : (["x".toList] : List Text) = names ++ ["upload".toList] :=
    congrArg Place.stack heq
  have hlast := congrArg List.getLast? hstack
  rw [List.getLast?_concat] at hlast
  cases Option.some.inj hlast

end Event
end CallgentApi
