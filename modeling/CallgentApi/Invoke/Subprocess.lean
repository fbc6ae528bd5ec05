import CallgentApi.Event.Engine
import CallgentApi.Lib.Effect

/-!
# Subprocesses

`InvokeSubprocess` spawns the process of a task, freezes it with `criu` and is
to restore it in a later run.  All of a task's runs share one directory.
-/

namespace CallgentApi
namespace Subprocess

open Js Event Effect

abbrev Path := List Text

abbrev Files := Path -> Option Text

/-- What `spawnSync` returns. -/
structure SpawnSyncReturns where
  status : Option Int
  /-- `error?.message`. -/
  error : Option Text
  stderr : Text

inductive Command where
  | criuRestore (dir pidFile : Path)
  | criuDump (dir : Path) (pid : Int)
  | kill (pid : Int)
deriving DecidableEq

inductive Call where
  | spawn (cmd : Text) (args : List Text) (cwd : Path)
  | spawnSync (command : Command) (cwd : Option Path)
deriving DecidableEq

structure Os where
  /-- The process id, or the error the process is not started for. -/
  spawn : Text -> List Text -> Path -> Files -> Except Thrown Int
  spawnSync : Command -> Option Path -> Files -> SpawnSyncReturns × Files

structure Disk where
  files : Files
  calls : List Call

abbrev Action (a : Type) := Effect Disk Thrown a

def existsSync (path : Path) : Action Bool := do
  return ((← get).files path).isSome

def unlinkSync (path : Path) : Action Unit :=
  modify fun d => { d with files := Function.update d.files path none }

def unlinkIfExists (path : Path) : Action Unit := do
  if ← existsSync path then unlinkSync path

def readFileSync (path : Path) : Action Text := do
  match (← get).files path with
  | some text => return text
  | none => throw (Thrown.plain "ENOENT: no such file or directory".toList)

def spawn (os : Os) (cmd : Text) (args : List Text) (cwd : Path) :
    Action Int := do
  modify fun d => { d with calls := d.calls ++ [.spawn cmd args cwd] }
  match os.spawn cmd args cwd (← get).files with
  | .ok pid => return pid
  | .error e => throw e

def spawnSync (os : Os) (command : Command) (cwd : Option Path) :
    Action SpawnSyncReturns := do
  let (p, files) := os.spawnSync command cwd (← get).files
  modify fun d =>
    { files := files, calls := d.calls ++ [.spawnSync command cwd] }
  return p

/-! ## The functions of the class -/

def getCheckpointPath (cwd : Path) : Path :=
  cwd ++ ["checkpoint".toList]

def statusText (status : Option Int) : Text :=
  match status with
  | some code => decimal code
  | none => "null".toList

def printProcessError (p : SpawnSyncReturns) : Text :=
  statusText p.status ++ ": ".toList ++ (truthy p.error).getD p.stderr

/-- The process id that `criu` has written. -/
def readPid (pidFilePath : Path) : Action (Option Int) := do
  if ← existsSync pidFilePath then
    match parseInt (← readFileSync pidFilePath) with
    | some pid =>
        if 0 < pid then return some pid
        else throw (Thrown.plain ("restore pid failed,".toList ++ decimal pid))
    | none => throw (Thrown.plain "restore pid failed,NaN".toList)
  else throw (Thrown.plain "restore.pid not found, restore failed".toList)

def restoreProcess (os : Os) (cwd : Path) : Action (Option Int) := do
  let checkpointPath := getCheckpointPath cwd
  if ← existsSync checkpointPath then
    let pidFilePath := cwd ++ ["restore.pid".toList]
    unlinkIfExists pidFilePath
    let p ← spawnSync os (.criuRestore checkpointPath pidFilePath) (some cwd)
    if p.status = some 0 then readPid pidFilePath
    else
      throw (Thrown.plain ("restore subprocess failed with code".toList ++
        printProcessError p))
  else return none

/-- The directory that is restored from is the checkpoint's own. -/
def spawnOrRestore (os : Os) (cmd : Text) (args : List Text) (cwd : Path) :
    Action Int := do
  match ← restoreProcess os (getCheckpointPath cwd) with
  | some child => return child
  | none => spawn os cmd args cwd

/-- `!!status`; a process that was not started has none. -/
def failed (p : SpawnSyncReturns) : Bool :=
  p.status.getD 0 ≠ 0

def freezeProcess (os : Os) (child : Int) (cwd : Path) : Action Unit := do
  let pc ← spawnSync os (.criuDump (getCheckpointPath cwd) child) (some cwd)
  let pf ← spawnSync os (.kill child) none
  if failed pc || failed pf then
    throw (Thrown.plain
      ((if failed pc then "criu dump".toList
        else "Kill frozen subprocess".toList) ++
        " failed with code".toList ++
        printProcessError (if failed pc then pc else pf)))

/-! ## The runs of a task -/

/-- One run of a task: what happens to the files while its process runs, and
whether the process is frozen in the end. -/
structure Task where
  cmd : Text
  args : List Text
  work : Files -> Files
  freezes : Bool

/-- What a run has started for its process, from the files it found, and where
a freeze has written its checkpoint. -/
structure RunRecord where
  before : Files
  started : List Call
  checkpoint : Option Path

def checkpointOf (d : Disk) : Option Path :=
  d.calls.findSome? fun
    | .spawnSync (.criuDump dir _) _ =>
        if (d.files dir).isSome then some dir else none
    | _ => none

/-- The end of a run whose process is `child`. -/
def endTask (os : Os) (cwd : Path) (task : Task) (child : Int)
    (files : Files) : Option Path × Files :=
  if task.freezes then
    match exec (freezeProcess os child cwd) ⟨task.work files, []⟩ with
    | (.ok _, frozen) => (checkpointOf frozen, frozen.files)
    | (.error _, frozen) => (none, frozen.files)
  else (none, task.work files)

def runTask (os : Os) (cwd : Path) (task : Task) (files : Files) :
    RunRecord × Files :=
  match exec (spawnOrRestore os task.cmd task.args cwd) ⟨files, []⟩ with
  | (.ok child, d) =>
      let (checkpoint, after) := endTask os cwd task child d.files
      (⟨files, d.calls, checkpoint⟩, after)
  | (.error _, d) => (⟨files, d.calls, none⟩, d.files)

def runTasks (os : Os) (cwd : Path) : List Task -> Files -> List RunRecord
  | [], _ => []
  | task :: rest, files =>
      let (record, after) := runTask os cwd task files
      record :: runTasks os cwd rest after

/-! ## What the runs of a directory should do -/

/-- The run restores the checkpoint in a directory and spawns nothing. -/
def RunRecord.Restores (r : RunRecord) (dir : Path) : Prop :=
  exists pidFile cwd, r.started = [.spawnSync (.criuRestore dir pidFile) cwd]

def RunRecord.SpawnsAfresh (r : RunRecord) : Prop :=
  exists cmd args cwd, r.started = [.spawn cmd args cwd]

/-- After the checkpoint `last`, or none, each run restores the checkpoint that
the run before it has left. -/
def Resumes : Option Path -> List RunRecord -> Prop
  | _, [] => True
  | last, r :: rest =>
      (match last with
        | some dir => r.Restores dir
        | none => r.SpawnsAfresh) ∧ Resumes r.checkpoint rest

/-! ## What they do -/

def lookedAt (cwd : Path) : Path :=
  getCheckpointPath (getCheckpointPath cwd)

theorem lookedAt_ne (cwd : Path) : lookedAt cwd ≠ getCheckpointPath cwd := by
  intro h
  have hlength := congrArg List.length h
  simp [lookedAt, getCheckpointPath] at hlength

section Start

variable {os : Os} {cwd : Path} {files : Files} {calls : List Call}

theorem exec_existsSync (path : Path) :
    exec (existsSync path) ⟨files, calls⟩ =
      (.ok (files path).isSome, ⟨files, calls⟩) := rfl

theorem exec_restoreProcess_absent
    (h : files (getCheckpointPath cwd) = none) :
    exec (restoreProcess os cwd) ⟨files, calls⟩ =
      (.ok none, ⟨files, calls⟩) := by
  unfold restoreProcess
  dsimp only
  rw [exec_bind_of_ok (exec_existsSync _), h]
  rfl

theorem started_absent (os : Os) (cmd : Text) (args : List Text)
    (h : files (lookedAt cwd) = none) :
    (exec (spawnOrRestore os cmd args cwd) ⟨files, []⟩).2 =
      ⟨files, [.spawn cmd args cwd]⟩ := by
  unfold spawnOrRestore
  rw [exec_bind_of_ok (exec_restoreProcess_absent h)]
  dsimp only
  unfold spawn
  rw [exec_bind_of_ok (exec_modify _ _), exec_bind_of_ok (exec_get _)]
  dsimp only
  cases os.spawn cmd args cwd files with
  | ok pid => rfl
  | error e => rfl

theorem exec_unlinkIfExists (path : Path) (d : Disk) :
    exists files, exec (unlinkIfExists path) d = (.ok (), ⟨files, d.calls⟩) := by
  have hexists : exec (existsSync path) d = (.ok (d.files path).isSome, d) :=
    rfl
  unfold unlinkIfExists
  rw [exec_bind_of_ok hexists]
  split
  · exact ⟨_, rfl⟩
  · exact ⟨_, rfl⟩

theorem keeps_readPid (path : Path) : Keeps Disk.calls (readPid path) := by
  refine Keeps.bind (fun _ => rfl) fun found => ?_
  split
  · have hread : Keeps Disk.calls (readFileSync path) := by
      refine Keeps.bind Keeps.get fun d => ?_
      split
      · exact Keeps.pure _
      · exact Keeps.throw _
    refine Keeps.bind hread fun text => ?_
    split
    · split
      · exact Keeps.pure _
      · exact Keeps.throw _
    · exact Keeps.throw _
  · exact Keeps.throw _

theorem returns_readPid (path : Path) :
    Returns (fun child => child ≠ none) (readPid path) := by
  refine Returns.bind_any fun found => ?_
  split
  · refine Returns.bind_any fun text => ?_
    split
    · split
      · exact Returns.pure (Option.some_ne_none _)
      · exact Returns.throw _
    · exact Returns.throw _
  · exact Returns.throw _

theorem exec_spawnSync (command : Command) (dir : Option Path) (d : Disk) :
    exec (spawnSync os command dir) d =
      (.ok (os.spawnSync command dir d.files).1,
        ⟨(os.spawnSync command dir d.files).2,
          d.calls ++ [.spawnSync command dir]⟩) := rfl

theorem exec_restoreProcess_present (os : Os)
    (h : (files (getCheckpointPath cwd)).isSome = true) :
    exists result after,
      exec (restoreProcess os cwd) ⟨files, []⟩ = (result, after) ∧
      result ≠ .ok none ∧
      after.calls =
        [.spawnSync (.criuRestore (getCheckpointPath cwd)
          (cwd ++ ["restore.pid".toList])) (some cwd)] := by
  rcases exec_unlinkIfExists (cwd ++ ["restore.pid".toList]) ⟨files, []⟩ with
    ⟨files', hunlink⟩
  unfold restoreProcess
  dsimp only
  rw [exec_bind_of_ok (exec_existsSync _), h, if_pos rfl,
    exec_bind_of_ok hunlink, exec_bind_of_ok (exec_spawnSync _ _ _)]
  split
  · refine ⟨_, _, rfl, ?_, ?_⟩
    · intro hnone
      exact returns_readPid _ _ _ _ (Prod.ext hnone rfl) rfl
    · exact keeps_readPid _ _
  · refine ⟨_, _, rfl, ?_, rfl⟩
    intro hnone
    cases hnone

theorem started_present (os : Os) (cmd : Text) (args : List Text)
    (h : (files (lookedAt cwd)).isSome = true) :
    exists pidFile dir,
      (exec (spawnOrRestore os cmd args cwd) ⟨files, []⟩).2.calls =
        [.spawnSync (.criuRestore (lookedAt cwd) pidFile) dir] := by
  rcases exec_restoreProcess_present os h with
    ⟨result, after, hexec, hfound, hcalls⟩
  refine ⟨getCheckpointPath cwd ++ ["restore.pid".toList],
    some (getCheckpointPath cwd), ?_⟩
  unfold spawnOrRestore
  cases result with
  | error e =>
      rw [exec_bind_of_error hexec]
      exact hcalls
  | ok child =>
      rw [exec_bind_of_ok hexec]
      cases child with
      | none => exact absurd rfl hfound
      | some pid => exact hcalls

theorem exec_freezeProcess (os : Os) (cwd : Path) (files : Files)
    (child : Int) :
    (exec (freezeProcess os child cwd) ⟨files, []⟩).2 =
      ⟨(os.spawnSync (.kill child) none (os.spawnSync
          (.criuDump (getCheckpointPath cwd) child) (some cwd) files).2).2,
        [.spawnSync (.criuDump (getCheckpointPath cwd) child) (some cwd),
          .spawnSync (.kill child) none]⟩ := by
  unfold freezeProcess
  rw [exec_bind_of_ok (exec_spawnSync _ _ _),
    exec_bind_of_ok (exec_spawnSync _ _ _)]
  split
  · rfl
  · rfl

end Start

section Runs

variable {os : Os} {cwd : Path} {task : Task} {files : Files}

theorem before_runTask :
    (runTask os cwd task files).1.before = files := by
  unfold runTask
  split
  · rfl
  · rfl

theorem started_runTask :
    (runTask os cwd task files).1.started =
      (exec (spawnOrRestore os task.cmd task.args cwd) ⟨files, []⟩).2.calls := by
  unfold runTask
  split
  · rename_i hexec
    rw [hexec]
  · rename_i hexec
    rw [hexec]

theorem checkpointOf_eq {d : Disk} {dir : Path} {child : Int}
    (hcalls : d.calls = [.spawnSync (.criuDump (getCheckpointPath cwd) child)
      (some cwd), .spawnSync (.kill child) none])
    (h : checkpointOf d = some dir) : dir = getCheckpointPath cwd := by
  unfold checkpointOf at h
  rw [hcalls] at h
  simp only [List.findSome?_cons, List.findSome?_nil] at h
  split at h
  · rename_i hfound
    split at hfound
    · cases hfound
      exact (Option.some.inj h).symm
    · cases hfound
  · cases h

theorem checkpoint_endTask {child : Int} {dir : Path}
    (h : (endTask os cwd task child files).1 = some dir) :
    dir = getCheckpointPath cwd := by
  unfold endTask at h
  split at h
  · have hcalls := congrArg Disk.calls
      (exec_freezeProcess os cwd (task.work files) child)
    split at h
    · rename_i hexec
      rw [hexec] at hcalls
      exact checkpointOf_eq hcalls h
    · cases h
  · cases h

theorem checkpoint_runTask {dir : Path}
    (h : (runTask os cwd task files).1.checkpoint = some dir) :
    dir = getCheckpointPath cwd := by
  unfold runTask at h
  split at h
  · exact checkpoint_endTask h
  · cases h

theorem spawnsAfresh_runTask_iff :
    (runTask os cwd task files).1.SpawnsAfresh <->
      files (lookedAt cwd) = none := by
  unfold RunRecord.SpawnsAfresh
  rw [started_runTask]
  constructor
  · rintro ⟨cmd, args, dir, hstarted⟩
    cases hfound : files (lookedAt cwd) with
    | none => rfl
    | some text =>
        have hsome : (files (lookedAt cwd)).isSome = true := by
          rw [hfound]
          rfl
        rcases started_present os task.cmd task.args hsome with
          ⟨_, _, hcalls⟩
        rw [hcalls] at hstarted
        cases hstarted
  · intro habsent
    rw [started_absent os task.cmd task.args habsent]
    exact ⟨_, _, _, rfl⟩

theorem not_restores_runTask :
    ¬ (runTask os cwd task files).1.Restores (getCheckpointPath cwd) := by
  rintro ⟨pidFile, dir, hstarted⟩
  rw [started_runTask] at hstarted
  cases hfound : files (lookedAt cwd) with
  | none =>
      rw [started_absent os task.cmd task.args hfound] at hstarted
      cases hstarted
  | some text =>
      have hsome : (files (lookedAt cwd)).isSome = true := by
        rw [hfound]
        rfl
      rcases started_present os task.cmd task.args hsome with
        ⟨_, _, hcalls⟩
      rw [hcalls] at hstarted
      have hcall := List.head_eq_of_cons_eq hstarted
      injection hcall with hcommand _
      injection hcommand with hdir _
      exact lookedAt_ne cwd hdir

theorem forall_mem_dropLast_cons {alpha : Type} {p : alpha -> Prop}
    {x : alpha} {xs : List alpha} :
    (forall y, y ∈ (x :: xs).dropLast -> p y) <->
      (xs = [] ∨ p x) ∧ forall y, y ∈ xs.dropLast -> p y := by
  cases xs with
  | nil =>
      constructor
      · intro h
        exact ⟨Or.inl rfl, h⟩
      · exact And.right
  | cons z zs =>
      rw [List.dropLast_cons_cons, List.forall_mem_cons]
      constructor
      · exact fun ⟨hx, hrest⟩ => ⟨Or.inr hx, hrest⟩
      · rintro ⟨hnil | hx, hrest⟩
        · cases hnil
        · exact ⟨hx, hrest⟩

theorem runTasks_eq_nil {tasks : List Task} :
    runTasks os cwd tasks files = [] <-> tasks = [] := by
  cases tasks with
  | nil => exact iff_of_true rfl rfl
  | cons task rest =>
      constructor
      · intro h
        cases h
      · intro h
        cases h

theorem resumes_iff_from (os : Os) (tasks : List Task) {last : Option Path}
    (hlast : forall dir, last = some dir -> dir = getCheckpointPath cwd) :
    Resumes last (runTasks os cwd tasks files) <->
      (tasks = [] ∨ last = none) ∧
      (forall r, r ∈ runTasks os cwd tasks files ->
        r.before (lookedAt cwd) = none) ∧
      forall r, r ∈ (runTasks os cwd tasks files).dropLast ->
        r.checkpoint = none := by
  induction tasks generalizing files last with
  | nil =>
      apply iff_of_true True.intro
      refine ⟨Or.inl rfl, ?_, ?_⟩
      · intro r hr
        cases hr
      · intro r hr
        cases hr
  | cons task rest ih =>
      let record := (runTask os cwd task files).1
      let more := runTasks os cwd rest (runTask os cwd task files).2
      have hmore : Resumes record.checkpoint more <-> _ :=
        ih fun dir hdir => checkpoint_runTask hdir
      cases last with
      | some dir =>
          apply iff_of_false
          · rintro ⟨hrestores, _⟩
            rw [hlast dir rfl] at hrestores
            exact not_restores_runTask hrestores
          · rintro ⟨hnil | hnone, _⟩
            · cases hnil
            · cases hnone
      | none =>
          have hstart : record.SpawnsAfresh <->
              record.before (lookedAt cwd) = none := by
            rw [before_runTask]
            exact spawnsAfresh_runTask_iff
          show (record.SpawnsAfresh ∧ Resumes record.checkpoint more) <->
            ((task :: rest = [] ∨ (none : Option Path) = none) ∧
              (forall r, r ∈ record :: more -> r.before (lookedAt cwd) = none) ∧
              forall r, r ∈ (record :: more).dropLast -> r.checkpoint = none)
          rw [hstart, hmore, List.forall_mem_cons, forall_mem_dropLast_cons,
            runTasks_eq_nil]
          constructor
          · rintro ⟨hbefore, hnone, hall, hlasts⟩
            exact ⟨Or.inr rfl, ⟨hbefore, hall⟩, hnone, hlasts⟩
          · rintro ⟨_, ⟨hbefore, hall⟩, hnone, hlasts⟩
            exact ⟨hbefore, hnone, hall, hlasts⟩

/-- Each run restores what the run before it has frozen, and no other run does,
exactly when no run but the last is frozen and nothing is ever found where a
restore looks. -/
theorem resumes_iff (os : Os) (cwd : Path) (tasks : List Task)
    (files : Files) :
    Resumes none (runTasks os cwd tasks files) <->
      (forall r, r ∈ runTasks os cwd tasks files ->
        r.before (lookedAt cwd) = none) ∧
      forall r, r ∈ (runTasks os cwd tasks files).dropLast ->
        r.checkpoint = none := by
  have hnone : forall dir, (none : Option Path) = some dir ->
      dir = getCheckpointPath cwd := by
    intro dir h
    cases h
  rw [resumes_iff_from os tasks hnone]
  constructor
  · rintro ⟨_, hrest⟩
    exact hrest
  · intro hrest
    exact ⟨Or.inr rfl, hrest⟩

/-! ## A directory of its own -/

def Leaves (cwd : Path) (work : Files -> Files) : Prop :=
  forall files, files (lookedAt cwd) = none ->
    work files (lookedAt cwd) = none

theorem absent_runTask
    (hos : forall command dir, Leaves cwd fun f => (os.spawnSync command dir f).2)
    (hwork : Leaves cwd task.work) (h : files (lookedAt cwd) = none) :
    (runTask os cwd task files).2 (lookedAt cwd) = none := by
  have hstarted := started_absent os task.cmd task.args h
  have hend : forall child, (endTask os cwd task child files).2 (lookedAt cwd) =
      none := by
    intro child
    have hworked := hwork files h
    have hfrozen := exec_freezeProcess os cwd (task.work files) child
    have habsent : (exec (freezeProcess os child cwd)
        ⟨task.work files, []⟩).2.files (lookedAt cwd) = none := by
      rw [hfrozen]
      exact hos (.kill child) none _
        (hos (.criuDump (getCheckpointPath cwd) child) (some cwd) _ hworked)
    unfold endTask
    split
    · split
      · rename_i hexec
        rw [hexec] at habsent
        exact habsent
      · rename_i hexec
        rw [hexec] at habsent
        exact habsent
    · exact hworked
  unfold runTask
  split
  · rename_i child d hexec
    rw [hexec] at hstarted
    have hfiles : d.files = files := congrArg Disk.files hstarted
    dsimp only
    rw [hfiles]
    exact hend child
  · rename_i e d hexec
    rw [hexec] at hstarted
    have hfiles : d.files = files := congrArg Disk.files hstarted
    dsimp only
    rw [hfiles]
    exact h

theorem absent_runTasks {tasks : List Task}
    (hos : forall command dir, Leaves cwd fun f => (os.spawnSync command dir f).2)
    (hwork : forall task, task ∈ tasks -> Leaves cwd task.work)
    (h : files (lookedAt cwd) = none) :
    forall r, r ∈ runTasks os cwd tasks files ->
      r.before (lookedAt cwd) = none := by
  induction tasks generalizing files with
  | nil =>
      intro r hr
      cases hr
  | cons task rest ih =>
      have hfirst := hwork task List.mem_cons_self
      have hrest := ih (fun t ht => hwork t (List.mem_cons_of_mem task ht))
        (absent_runTask hos hfirst h)
      intro r hr
      rcases List.mem_cons.mp hr with heq | hmem
      · have hbefore : r.before = files := by
          rw [heq]
          exact before_runTask
        rw [hbefore]
        exact h
      · exact hrest r hmem

theorem resumes_iff_of_absent {tasks : List Task}
    (hos : forall command dir, Leaves cwd fun f => (os.spawnSync command dir f).2)
    (hwork : forall task, task ∈ tasks -> Leaves cwd task.work)
    (h : files (lookedAt cwd) = none) :
    Resumes none (runTasks os cwd tasks files) <->
      forall r, r ∈ (runTasks os cwd tasks files).dropLast ->
        r.checkpoint = none := by
  have hnone : forall dir, (none : Option Path) = some dir ->
      dir = getCheckpointPath cwd := by
    intro dir hdir
    cases hdir
  rw [resumes_iff_from os tasks hnone]
  constructor
  · rintro ⟨_, _, hlasts⟩
    exact hlasts
  · intro hlasts
    exact ⟨Or.inr rfl, absent_runTasks hos hwork h, hlasts⟩

end Runs

/-! ## A task that is frozen and run again -/

/-- Every command succeeds; a dump leaves something in its directory. -/
def quietOs : Os where
  spawn := fun _ _ _ _ => .ok 7
  spawnSync := fun command _ files =>
    (⟨some 0, none, []⟩,
      match command with
      | .criuDump dir _ => Function.update files dir (some "img".toList)
      | _ => files)

def taskDir : Path := ["upload".toList, "2410".toList]

def frozenTask : Task := ⟨"npx".toList, ["tsx".toList], id, true⟩

def lastTask : Task := { frozenTask with freezes := false }

/-- The second run does not restore the checkpoint that the first has left. -/
theorem frozen_task_not_restored :
    (runTask quietOs taskDir frozenTask fun _ => none).1.checkpoint =
      some (getCheckpointPath taskDir) ∧
    ¬ Resumes none
      (runTasks quietOs taskDir [frozenTask, lastTask] fun _ => none) := by
  have hcheckpoint : (runTask quietOs taskDir frozenTask
      fun _ => none).1.checkpoint = some (getCheckpointPath taskDir) := by
    rfl
  refine ⟨hcheckpoint, ?_⟩
  rintro ⟨_, hsecond, _⟩
  have hrestores : (runTask quietOs taskDir lastTask
      (runTask quietOs taskDir frozenTask fun _ => none).2).1.Restores
        (getCheckpointPath taskDir) := hsecond
  exact not_restores_runTask hrestores

end Subprocess
end CallgentApi
