import CallgentApi.Event.Resumption

/-!
# How a run leaves the event in the store

A stored event should be done, pending on the listener that asked to be
resumed, or failed on the listener that threw.  Two things break this: a row
stored with its propagation stopped, and a thrown error whose status is no
error status.
-/

namespace CallgentApi
namespace Event

open Js Invoke Transition

variable {sigma : Type _}

def ErrorStatus (s : Int) : Prop :=
  s < 0 ∨ 399 < s

instance (s : Int) : Decidable (ErrorStatus s) :=
  inferInstanceAs (Decidable (s < 0 ∨ 399 < s))

/-- The errors that listeners have thrown carry no status, or an error
status. -/
def ThrowErrors (calls : List Call) : Prop :=
  forall call, call ∈ calls -> forall e, call.ending = .threw e ->
    ErrorStatus e.statusCode

/-- A row after a run with the given last call: done, pending on the listener
that asked, or failed on the listener that threw. -/
inductive Settled (row : EventRow) (last : Call) : Prop where
  | done (hstatus : row.statusCode = some 0)
  | pending (f : Text) (hstatus : row.statusCode = some 2)
      (hasked : last.ending = .returned (some f))
      (hfunName : row.funName = some f)
      (hlistener : row.listenerId = some last.listener.id)
  | failed (e : Thrown) (s : Int) (hthrew : last.ending = .threw e)
      (hstatus : row.statusCode = some s) (herror : ErrorStatus s)
      (hlistener : row.listenerId = some last.listener.id)

theorem Settled.not_processing {row : EventRow} {last : Call}
    (h : Settled row last) : row.statusCode ≠ some 1 := by
  intro hone
  cases h with
  | done hstatus =>
      rw [hone] at hstatus
      cases hstatus
  | pending f hstatus hasked hfunName hlistener =>
      rw [hone] at hstatus
      cases hstatus
  | failed e s hthrew hstatus herror hlistener =>
      rw [hone] at hstatus
      have hs := Option.some.inj hstatus
      rw [← hs] at herror
      rcases herror with h | h
      · exact absurd h (by decide)
      · exact absurd h (by decide)

/-- The stored row of an event is settled with respect to the last call. -/
def SettledAt (id : Text) (s : RunState sigma) : Prop :=
  exists row last, s.store id = some row ∧ s.calls.getLast? = some last ∧
    Settled row last

/-!
## One run of the listeners
-/

/-- A run that starts with the propagation stopped calls nobody and stores the
event as processing. -/
theorem invokeListeners_stopped (modules : ModuleRef sigma)
    {listeners : List EventListener} {event : EventObject}
    (funName : Option Text) (world : World sigma) (store : EventStore)
    (hne : listeners ≠ []) (hstop : event.stopPropagation = true) :
    (invokeListeners modules listeners event funName world store).calls = [] ∧
      exists row,
        (invokeListeners modules listeners event funName world store).store
          event.id = some row ∧ row.toEventObject = processing event := by
  cases listeners with
  | nil => exact absurd rfl hne
  | cons listener rest =>
      have hloop : runLoop modules (listener :: rest) event funName world =
          ⟨0, processing event, funName, world, []⟩ := by
        have hstop' : (processing event).stopPropagation = true := hstop
        rw [runLoop, invokeLoop, if_pos hstop']
      simp only [invokeListeners, finishRun, hloop]
      refine ⟨True.intro, _, EventStore.upsertEvent_self store _ _ _, ?_⟩
      exact EventStore.upsertRow_toEventObject _ _ _ _

theorem settled_of_shape {listeners : List EventListener}
    {event : EventObject} {funName : Option Text} {store : EventStore}
    {result : RunResult sigma} {passed : List Call} {last : Call}
    {after : List EventListener}
    (h : RunShape listeners event funName store result passed last after)
    (herrors : ThrowErrors result.calls) :
    exists row, result.store event.id = some row ∧ Settled row last := by
  have hlast : last ∈ result.calls := by
    rw [h.calls_eq]
    simp
  cases hending : last.ending with
  | returned resumeFunName =>
      cases resumeFunName with
      | none =>
          rcases h.row with ⟨row, hrow, hevent⟩
          refine ⟨row, hrow, .done ?_⟩
          rw [hevent]
          simp [EventObject.withBody, Call.finalStatus, hending]
      | some f =>
          refine ⟨_, h.row_of_asked hending, .pending f ?_ hending rfl rfl⟩
          simp [Call.pendingRow, EventObject.withBody, Call.finalStatus,
            hending]
  | threw e =>
      have hstatus : last.finalStatus = e.statusCode := by
        simp [Call.finalStatus, hending]
      have herror := herrors last hlast e hending
      have hlistener : last.storedListener after = some last.listener := by
        unfold Call.storedListener
        rw [hstatus]
        rcases herror with hneg | hbig
        · rw [if_neg (by omega), if_neg (by omega)]
        · rw [if_neg (by omega), if_neg (by omega)]
      refine ⟨_, h.row_of_not_done ?_,
        .failed e e.statusCode hending ?_ herror ?_⟩
      · rw [hstatus]
        exact e.statusCode_ne_zero
      · simp [EventObject.withBody, hstatus]
      · simp [hlistener]

theorem throwErrors_of_settled {listeners : List EventListener}
    {event : EventObject} {funName : Option Text} {store : EventStore}
    {result : RunResult sigma} {passed : List Call} {last : Call}
    {after : List EventListener} {row : EventRow}
    (h : RunShape listeners event funName store result passed last after)
    (hrow : result.store event.id = some row) (hsettled : Settled row last) :
    ThrowErrors result.calls := by
  intro call hcall e hthrew
  rw [h.calls_eq] at hcall
  rcases List.mem_append.mp hcall with hpassed | hlast
  · have hnone := (h.passed_passed call hpassed).left
    rw [hthrew] at hnone
    cases hnone
  · rw [List.mem_singleton.mp hlast] at hthrew
    rcases h.row with ⟨row', hrow', hevent⟩
    rw [hrow] at hrow'
    have hstatus : row.statusCode = some e.statusCode := by
      rw [Option.some.inj hrow', hevent]
      simp [EventObject.withBody, Call.finalStatus, hthrew]
    cases hsettled with
    | done hdone =>
        rw [hstatus] at hdone
        exact absurd (Option.some.inj hdone) e.statusCode_ne_zero
    | pending f _ hasked _ _ =>
        rw [hthrew] at hasked
        cases hasked
    | failed e' s _ hs herror _ =>
        rw [hstatus] at hs
        exact Option.some.inj hs ▸ herror

theorem settled_iff (modules : ModuleRef sigma)
    {listeners : List EventListener} {event : EventObject}
    (funName : Option Text) (world : World sigma) (store : EventStore)
    (calls : List Call) (hne : listeners ≠ []) :
    SettledAt event.id
        (.after calls
          (invokeListeners modules listeners event funName world store)) <->
      event.stopPropagation = false ∧
        ThrowErrors
          (invokeListeners modules listeners event funName world
            store).calls := by
  cases hstop : event.stopPropagation with
  | true =>
      rcases invokeListeners_stopped modules funName world store hne hstop with
        ⟨_, row, hrow, hevent⟩
      have hstatus : row.statusCode = some 1 := by
        rw [hevent]
        rfl
      constructor
      · rintro ⟨row', last, hrow', _, hsettled⟩
        have heq : row' = row := by
          exact (Option.some.inj (hrow.symm.trans hrow')).symm
        exact absurd hstatus (heq ▸ hsettled.not_processing)
      · rintro ⟨hfalse, _⟩
        cases hfalse
  | false =>
      rcases invokeListeners_shape modules funName world store hne hstop with
        ⟨passed, last, after, hshape⟩
      have hgetLast : (RunState.after calls (invokeListeners modules listeners
          event funName world store)).calls.getLast? = some last := by
        simp [RunState.after, hshape.calls_eq]
      constructor
      · rintro ⟨row, last', hrow, hlast', hsettled⟩
        rw [hgetLast] at hlast'
        refine ⟨rfl, throwErrors_of_settled hshape hrow ?_⟩
        exact Option.some.inj hlast' ▸ hsettled
      · rintro ⟨_, herrors⟩
        rcases settled_of_shape hshape herrors with ⟨row, hrow, hsettled⟩
        exact ⟨row, last, hrow, hgetLast, hsettled⟩

/-!
## Whole histories
-/

def resumeOn (modules : ModuleRef sigma) (s : RunState sigma)
    (action : ListenerTable × ResumeRequest sigma) :
    Option (RunState sigma) :=
  resumeStep modules action.1 s action.2

/-- The resumed row does not have its propagation stopped, and the listeners
called in this resume throw errors only. -/
def SettlesNext (modules : ModuleRef sigma) (s : RunState sigma)
    (action : ListenerTable × ResumeRequest sigma) : Prop :=
  (forall row,
    s.store (parseInvokeKey action.2.invokeKey).eventId = some row ->
      row.stopPropagation = false) ∧
  forall result,
    resume modules action.1 action.2.order action.2.invokeKey
      action.2.response (s.elapse action.2.elapse) s.store = .ok result ->
    ThrowErrors result.calls

theorem settledAt_resumeOn_iff {modules : ModuleRef sigma} {id : Text}
    {s s' : RunState sigma} {action : ListenerTable × ResumeRequest sigma}
    (hkey : (parseInvokeKey action.2.invokeKey).eventId = id)
    (hstep : resumeOn modules s action = some s') :
    SettledAt id s' <-> SettlesNext modules s action := by
  rcases resumeStep_some hstep with ⟨result, hresume, rfl⟩
  rcases resume_ok hresume with ⟨row, event, listeners, hresumed⟩
  rcases setCallbackResponse_ok hresumed.callback with
    ⟨invocation, _, hevent⟩
  have hid : event.id = id := by
    rw [hevent, ← hkey]
    exact s.store.rows_id _ row hresumed.found
  have hrowStop : row.stopPropagation = event.stopPropagation := by
    rw [hevent]
    rfl
  have hiff := @settled_iff sigma modules listeners event row.funName
    ((s.elapse action.2.elapse).setInvokeId
      (parseInvokeKey action.2.invokeKey).invokeId)
    s.store s.calls hresumed.listeners_ne_nil
  rw [← hresumed.result_eq, hid] at hiff
  rw [hiff]
  constructor
  · rintro ⟨hstop, herrors⟩
    refine ⟨?_, ?_⟩
    · intro row' hrow'
      rw [hresumed.found] at hrow'
      rw [← Option.some.inj hrow', hrowStop]
      exact hstop
    · intro result' hresult'
      rw [hresume] at hresult'
      exact Except.ok.inj hresult' ▸ herrors
  · rintro ⟨hstop, herrors⟩
    exact ⟨hrowStop ▸ hstop row hresumed.found, herrors result hresume⟩

/-- An event is settled after its emission and after every later resume
exactly when no row is resumed with its propagation stopped and no listener
throws an error without an error status. -/
theorem always_settled_iff {modules : ModuleRef sigma}
    {table : ListenerTable} {order : Database} {data : EventObject}
    {world : World sigma} {store : EventStore} {result : RunResult sigma}
    {actions : List (ListenerTable × ResumeRequest sigma)}
    {t : RunState sigma}
    (hemit : emit modules table order data world store = .ok result)
    (hkeys : forall action, action ∈ actions ->
      (parseInvokeKey action.2.invokeKey).eventId = data.id)
    (hrun : run (resumeOn modules) (.after [] result) actions = some t) :
    Along (resumeOn modules) (SettledAt data.id) (.after [] result) actions <->
      (data.stopPropagation = false ∧ ThrowErrors result.calls) ∧
        StepsMeet (resumeOn modules) (SettlesNext modules) (.after [] result)
          actions := by
  rcases emit_ok hemit with ⟨listeners, hne, _, rfl⟩
  rw [along_iff_stepsMeet
    (fun s a s' ha hstep => settledAt_resumeOn_iff (hkeys a ha) hstep) hrun,
    settled_iff modules none world store [] hne]

theorem always_settled_iff_asking :
    let result := (emit (servicesWith askingFun) (twoListeners 1) .stored
      petRequest ⟨none, ()⟩ .empty).toOption.get rfl
    let actions := [(twoListeners 1, petReply .stored)]
    Along (resumeOn (servicesWith askingFun)) (SettledAt petRequest.id)
        (.after [] result) actions <->
      (petRequest.stopPropagation = false ∧ ThrowErrors result.calls) ∧
        StepsMeet (resumeOn (servicesWith askingFun))
          (SettlesNext (servicesWith askingFun)) (.after [] result)
          actions :=
  @always_settled_iff Unit (servicesWith askingFun) (twoListeners 1) .stored
    petRequest ⟨none, ()⟩ .empty _ _ _ rfl (by decide)
    (Option.some_get rfl).symm

def stoppingFun : ServiceFun Unit := fun event world =>
  { event :=
      { (event.withInvocations
          (event.context.invocations.set [] directStatus)).toEventBody with
        stopPropagation := true }
    outcome := .returned none (some "go".toList)
    world := world }

/-- The resumed event is stored as processing. -/
theorem stoppingFun_processing :
    exists result t,
      emit (servicesWith stoppingFun) (twoListeners 1) .stored petRequest
          ⟨none, ()⟩ .empty = .ok result ∧
        run (resumeOn (servicesWith stoppingFun)) (.after [] result)
          [(twoListeners 1, petReply .stored)] = some t ∧
        (t.store petRequest.id).bind (fun row => row.statusCode) = some 1 ∧
        ¬ SettledAt petRequest.id t := by
  refine ⟨_, _, rfl, rfl, rfl, ?_⟩
  rintro ⟨row, last, hrow, _, hsettled⟩
  apply hsettled.not_processing
  rw [← Option.some.inj hrow]
  rfl

end Event
end CallgentApi
