import CallgentApi.Lib.Effect
import CallgentApi.Event.Engine

/-!
# Service functions as computations

The functions of the services work on the event object they are given, on the
invoke id of the request's context and on what lies outside; they may start a
subprocess.
-/

namespace CallgentApi
namespace Event

open Js

variable {sigma a : Type}

/-- A constructed event has the methods of its class; one that was read from
the store is a plain record without them. -/
inductive ObjectKind where
  | constructed
  | reloaded
deriving DecidableEq

/-- What is asked of the subprocess of a task. -/
inductive SubprocessCall where
  | spawnOrRestore (cwd : List Text) (cmdPrefix : Text)
      (onConnect : Option Text)
  | write (message : Text)
  | freeze (cwd : List Text)
deriving DecidableEq

structure CallState (sigma : Type) where
  event : EventObject
  world : World sigma
  subprocess : List SubprocessCall

abbrev Action (sigma a : Type) := Effect (CallState sigma) Thrown a

/-- `{ data: reqEvent, resumeFunName? }`. -/
structure Returned where
  resumeFunName : Option Text
deriving DecidableEq

def noTaskCwd : Thrown :=
  .typeError "The path argument must be of type string. Received undefined".toList

/-- `reqEvent.getTaskCwd(base)`: the parts of the path, from a task id
`yyMMdd-id`. -/
def getTaskCwd (kind : ObjectKind) (reqEvent : EventObject) (base : Text) :
    Except Thrown (List Text) :=
  match kind with
  | .reloaded =>
      .error (.typeError "reqEvent.getTaskCwd is not a function".toList)
  | .constructed =>
      let pieces := reqEvent.taskId.splitOn '-'
      let ts := pieces.headD []
      let id := join '-' pieces.tail
      match id.getLast? with
      | none => .error noTaskCwd
      | some last => .ok [base, ts.take 4, ts.drop 4, [last], id]

namespace Action

def getEvent : Action sigma EventObject := do
  return (← get).event

def modifyContext (f : Context -> Context) : Action sigma Unit :=
  modify fun s => { s with event := { s.event with context := f s.event.context } }

def modifyInvocations (f : Invocations -> Invocations) : Action sigma Unit :=
  modifyContext fun context => { context with invocations := f context.invocations }

/-- `cls.set(CTX_KEY_INVOKE_ID, invokeId)`. -/
def setInvokeId (invokeId : Option Text) : Action sigma Unit :=
  modify fun s => { s with world := { s.world with invokeId := invokeId } }

def callSubprocess (call : SubprocessCall) : Action sigma Unit :=
  modify fun s => { s with subprocess := s.subprocess ++ [call] }

def outside (x : Effect sigma Thrown a) : Action sigma a :=
  x.zoom (fun s => s.world.outside)
    (fun s next => { s with world := { s.world with outside := next } })

/-- A function that returns `void` or `{ data, resumeFunName? }`, as a function
of a service. -/
def toServiceFun (x : Action sigma (Option Returned)) : ServiceFun sigma :=
  fun event world =>
    let (result, s) := x.exec ⟨event, world, []⟩
    { event := s.event.toEventBody
      outcome :=
        match result with
        | .ok none => .returned none none
        | .ok (some returned) =>
            .returned (some s.event.toEventBody) returned.resumeFunName
        | .error e => .threw e
      world := s.world }

end Action

def serviceOf (functions : List (Text × Action sigma (Option Returned))) :
    Service sigma :=
  fun funName => (functions.lookup funName).map Action.toServiceFun

theorem mem_of_lookup {b : Type} {table : List (Text × b)} {name : Text}
    {value : b} (h : table.lookup name = some value) :
    (name, value) ∈ table := by
  rcases List.lookup_eq_some_iff.mp h with ⟨before, after, rfl, _⟩
  exact List.mem_append_right before List.mem_cons_self

theorem serviceOf_eq_some
    {functions : List (Text × Action sigma (Option Returned))} {funName : Text}
    {fn : ServiceFun sigma} (h : serviceOf functions funName = some fn) :
    exists x, (funName, x) ∈ functions ∧ fn = Action.toServiceFun x := by
  rcases Option.map_eq_some_iff.mp h with ⟨x, hlookup, hfn⟩
  exact ⟨x, mem_of_lookup hlookup, hfn.symm⟩

/-! ## What the small actions leave alone -/

open Effect

@[simp] theorem exec_getEvent (s : CallState sigma) :
    (Action.getEvent : Action sigma EventObject).exec s = (.ok s.event, s) :=
  rfl

theorem exec_outside {x : Effect sigma Thrown a} {s : CallState sigma}
    {result : Except Thrown a} {next : sigma}
    (h : exec x s.world.outside = (result, next)) :
    (Action.outside x).exec s =
      (result, { s with world := { s.world with outside := next } }) := by
  unfold Action.outside
  rw [exec_zoom, h]

theorem triple_getEvent (pre : CallState sigma -> Prop) :
    Triple pre (Action.getEvent : Action sigma EventObject)
      fun result s => result = .ok s.event ∧ pre s :=
  fun _ hpre => ⟨rfl, hpre⟩

theorem triple_outside {p : a -> Prop} {x : Effect sigma Thrown a}
    (h : Returns p x) (pre : EventObject -> Prop) :
    Triple (fun s => pre s.event) (Action.outside x)
      fun result s =>
        (forall value, result = .ok value -> p value) ∧ pre s.event := by
  intro s hpre
  constructor
  · intro value hvalue
    exact h s.world.outside value _ (Prod.ext hvalue rfl)
  · exact hpre

/-- What a call leaves alone unless it invokes an endpoint. -/
structure Kept where
  header : EventHeader
  stopPropagation : Bool
  epName : Option Text
  invocations : Invocations
  subprocess : List SubprocessCall

def CallState.kept (s : CallState sigma) : Kept where
  header := s.event.toEventHeader
  stopPropagation := s.event.stopPropagation
  epName := s.event.context.epName
  invocations := s.event.context.invocations
  subprocess := s.subprocess

theorem kept_getEvent :
    Keeps CallState.kept (Action.getEvent : Action sigma EventObject) :=
  fun _ => rfl

theorem kept_outside (x : Effect sigma Thrown a) :
    Keeps CallState.kept (Action.outside x) :=
  fun _ => rfl

theorem returns_outside {p : a -> Prop} {x : Effect sigma Thrown a}
    (h : Returns p x) : Returns p (Action.outside x) :=
  h.zoom

theorem kept_modifyContext {f : Context -> Context}
    (hepName : forall c, (f c).epName = c.epName)
    (hinvocations : forall c, (f c).invocations = c.invocations) :
    Keeps CallState.kept (Action.modifyContext f : Action sigma Unit) := by
  intro s
  show Kept.mk _ _ (f s.event.context).epName (f s.event.context).invocations
    _ = s.kept
  rw [hepName, hinvocations]
  rfl

/-- The value of `f` depends neither on what a check writes to the context nor
on anything but what lies outside. -/
def ContextFree {t : Type} (f : CallState sigma -> t) : Prop :=
  forall g : Context -> Context,
    (forall c, (g c).epName = c.epName) ->
    (forall c, (g c).invocations = c.invocations) ->
      Keeps f (Action.modifyContext g : Action sigma Unit)

theorem contextFree_kept :
    ContextFree (CallState.kept : CallState sigma -> Kept) := by
  intro g hepName hinvocations
  exact kept_modifyContext hepName hinvocations

theorem ContextFree.comp {t r : Type} {f : CallState sigma -> t}
    (h : ContextFree f) (g : t -> r) : ContextFree fun s => g (f s) := by
  intro change hepName hinvocations
  exact (h change hepName hinvocations).comp g

def ofOutside {t : Type} (f : sigma -> t) (s : CallState sigma) : t :=
  f s.world.outside

theorem contextFree_ofOutside {t : Type} (f : sigma -> t) :
    ContextFree (ofOutside f) := by
  intro g _ _ s
  rfl

theorem keeps_getEvent {t : Type} (f : CallState sigma -> t) :
    Keeps f (Action.getEvent : Action sigma EventObject) :=
  fun _ => rfl

theorem keeps_ofOutside {t : Type} {f : sigma -> t}
    {x : Effect sigma Thrown a} (h : Keeps f x) :
    Keeps (ofOutside f) (Action.outside x) := by
  intro s
  exact h s.world.outside

end Event
end CallgentApi
