import CallgentApi.Event.Settled
import CallgentApi.Invoke.Callback
import CallgentApi.Request.Services

/-!
# Pending requests that can be resumed

A listener leaves a request pending by naming a function to be resumed with.
`resume` also wants an invocation that its key can name.  Only a direct
invocation files one, so that only these requests can be resumed.
-/

namespace CallgentApi
namespace Request

open Js Event Realms Invoke Effect Transition

variable {sigma : Type}

/-- The call of the script runner that leaves a request pending on the direct
invocation of the endpoint it names. -/
structure AsksDirectly (call : Call) : Prop where
  serviceType_eq : call.listener.serviceType = .service
  serviceName_eq : call.listener.serviceName = "ScriptRunnerAgent".toList
  called_eq : calledFun call.listener call.funName = "runAndFix".toList
  epName_isSome : (truthy call.body.context.epName).isSome = true
  asked : call.ending = .returned (some runAndFixCallbackName)

instance (call : Call) : Decidable (AsksDirectly call) :=
  decidable_of_iff
    (call.listener.serviceType = .service ∧
      call.listener.serviceName = "ScriptRunnerAgent".toList ∧
      calledFun call.listener call.funName = "runAndFix".toList ∧
      (truthy call.body.context.epName).isSome = true ∧
      call.ending = .returned (some runAndFixCallbackName))
    ⟨fun ⟨htype, hservice, hcalled, hepName, hasked⟩ =>
        ⟨htype, hservice, hcalled, hepName, hasked⟩,
      fun ⟨htype, hservice, hcalled, hepName, hasked⟩ =>
        ⟨htype, hservice, hcalled, hepName, hasked⟩⟩

theorem not_asksDirectly_of_passed {call : Call}
    (h : call.ending = .returned none) : ¬ AsksDirectly call := by
  intro hasks
  have hasked := h.symm.trans hasks.asked
  cases hasked

/-! ## Calls of the script runner -/

def endingOf (result : Except Thrown (Option Returned)) : Ending :=
  match result with
  | .ok none => .returned none
  | .ok (some returned) => .returned (truthy returned.resumeFunName)
  | .error e => .threw e

theorem endingOf_eq_asked_iff {result : Except Thrown (Option Returned)} :
    endingOf result = .returned (some runAndFixCallbackName) <->
      result = .ok (some ⟨some runAndFixCallbackName⟩) := by
  constructor
  · intro h
    cases result with
    | error e => cases h
    | ok value =>
        cases value with
        | none => cases h
        | some returned =>
            rcases returned with ⟨resumeFunName⟩
            have htruthy : truthy resumeFunName = some runAndFixCallbackName :=
              Ending.returned.inj h
            rw [(Option.filter_eq_some_iff.mp htruthy).left]
  · rintro rfl
    rfl

section ScriptRunner

variable {host : RequestHost sigma} {kind : ObjectKind}
  {listener : EventListener} {funName : Option Text} {event : EventObject}
  {world : World sigma} {call : Call}

theorem ofResult_toServiceFun (x : Action sigma (Option Returned)) :
    Call.ofResult listener funName (x.toServiceFun event world) =
      { listener := listener
        funName := truthy funName
        body := (x.exec ⟨event, world, []⟩).2.event.toEventBody
        ending := endingOf (x.exec ⟨event, world, []⟩).1 } := by
  unfold Action.toServiceFun Call.ofResult endingOf
  rcases x.exec ⟨event, world, []⟩ with ⟨result, next⟩
  cases result with
  | error e => rfl
  | ok value =>
      cases value with
      | none => rfl
      | some returned => rfl

@[simp] theorem calledFun_truthy (listener : EventListener)
    (funName : Option Text) :
    calledFun listener (truthy funName) = calledFun listener funName := by
  simp [calledFun]

theorem invokeListener_scriptRunner (world : World sigma)
    (htype : listener.serviceType = .service)
    (hservice : listener.serviceName = "ScriptRunnerAgent".toList)
    {fn : ServiceFun sigma}
    (hfn : scriptRunnerAgent host.toInvokeHost kind
      (calledFun listener funName) = some fn) :
    invokeListener (requestModules host kind) listener event funName world =
      fn event world := by
  have hmodule : requestModules host kind "ScriptRunnerAgent".toList =
      .ok (some (scriptRunnerAgent host.toInvokeHost kind)) := rfl
  simp only [invokeListener, htype, invokeService, hservice, hmodule, hfn]

theorem settings_of_runAndFix {next : CallState sigma}
    {result : Except Thrown (Option Returned)}
    (h : (Invoke.runAndFix host.toInvokeHost kind).exec ⟨event, world, []⟩ =
      (result, next)) :
    next.event.stopPropagation = event.stopPropagation ∧
      next.event.context.epName = event.context.epName := by
  have hsettings := settings_runAndFix host.toInvokeHost kind ⟨event, world, []⟩
  rw [h] at hsettings
  have hrest := congrArg Prod.snd hsettings
  exact ⟨congrArg Prod.fst hrest, congrArg Prod.snd hrest⟩

theorem filed_of_asksDirectly
    (hcall : Call.ofResult listener funName
      (invokeListener (requestModules host kind) listener event funName world) =
        call)
    (hasks : AsksDirectly call) :
    (call.body.context.invocations.entries []).isSome = true ∧
      call.body.stopPropagation = event.stopPropagation := by
  have hlistener : call.listener = listener := by
    rw [← hcall]
    exact Call.ofResult_listener _ _ _
  have hcalled : calledFun listener funName = "runAndFix".toList := by
    have hname := hasks.called_eq
    rw [← hcall, Call.ofResult_listener, Call.ofResult_funName,
      calledFun_truthy] at hname
    exact hname
  have hfn : scriptRunnerAgent host.toInvokeHost kind
      (calledFun listener funName) =
        some (Invoke.runAndFix host.toInvokeHost kind).toServiceFun := by
    rw [hcalled]
    rfl
  rw [invokeListener_scriptRunner world (hlistener ▸ hasks.serviceType_eq)
    (hlistener ▸ hasks.serviceName_eq) hfn, ofResult_toServiceFun] at hcall
  subst hcall
  cases hexec : (Invoke.runAndFix host.toInvokeHost kind).exec
      ⟨event, world, []⟩ with
  | mk result next =>
      rcases settings_of_runAndFix hexec with ⟨hstop, hepName⟩
      rw [hexec] at hasks
      have hresult := endingOf_eq_asked_iff.mp hasks.asked
      have hdirect := hasks.epName_isSome
      change (truthy next.event.context.epName).isSome = true at hdirect
      rw [hepName] at hdirect
      change result = _ at hresult
      rw [hresult] at hexec
      exact ⟨entry_runAndFix_asked hexec hdirect, hstop⟩

end ScriptRunner

/-! ## What a run stores -/

/-- The stored row of a request that waits for the answer to a direct
invocation. -/
structure Waiting (table : ListenerTable) (row : EventRow) (last : Call) :
    Prop where
  filed : (row.context.invocations.entries []).isSome = true
  going_on : row.stopPropagation = false
  funName_eq : row.funName = some runAndFixCallbackName
  listenerId_eq : row.listenerId = some last.listener.id
  subscribed : last.listener ∈ table.subscribers row.toEventHeader

/-- The stored row of a request and the last call that was made for it. -/
structure Tracked (table : ListenerTable) (header : EventHeader)
    (s : RunState sigma) (row : EventRow) (last : Call) : Prop where
  row_eq : s.store header.id = some row
  last_eq : s.calls.getLast? = some last
  header_eq : row.toEventHeader = header
  waiting : AsksDirectly last -> Waiting table row last

theorem finalBody_context (call : Call) :
    call.finalBody.context = call.body.context := by
  unfold Call.finalBody
  split
  · rfl
  · rfl

section Runs

variable {table : ListenerTable} {listeners : List EventListener}
  {event : EventObject} {funName : Option Text} {store : EventStore}
  {result : RunResult sigma} {passed : List Call} {last : Call}
  {after : List EventListener}

theorem tracked_of_shape
    (h : RunShape listeners event funName store result passed last after)
    (hlisteners : forall l, l ∈ listeners ->
      l ∈ table.subscribers event.toEventHeader)
    (hfiled : AsksDirectly last ->
      (last.body.context.invocations.entries []).isSome = true ∧
        last.body.stopPropagation = false)
    (calls : List Call) :
    exists row,
      Tracked table event.toEventHeader (.after calls result) row last ∧
      row.context = last.body.context ∧
      row.statusCode = some last.finalStatus := by
  rcases h.row with ⟨row, hrow, hevent⟩
  have hcontext : row.context = last.body.context := by
    rw [hevent]
    exact finalBody_context last
  have hheader : row.toEventHeader = event.toEventHeader := by
    rw [hevent]
    rfl
  have hwaiting : AsksDirectly last -> Waiting table row last := by
    intro hasks
    have hpending := h.row_of_asked hasks.asked
    rw [hrow] at hpending
    have hfields := Option.some.inj hpending
    refine ⟨?_, ?_, ?_, ?_, ?_⟩
    · rw [hcontext]
      exact (hfiled hasks).left
    · rw [hevent]
      exact last.finalBody_stopPropagation.trans (hfiled hasks).right
    · rw [hfields]
      rfl
    · rw [hfields]
      rfl
    · rw [hheader]
      apply hlisteners
      rw [h.listeners_eq]
      simp
  refine ⟨row, ⟨hrow, ?_, hheader, hwaiting⟩, hcontext, ?_⟩
  · simp [RunState.after, h.calls_eq]
  · rw [hevent]
    exact last.finalBody_statusCode

variable {host : RequestHost sigma} {kind : ObjectKind}

theorem last_filed
    (h : RunShape listeners event funName store
      (invokeListeners (requestModules host kind) listeners event funName world
        store) passed last after)
    (hne : listeners ≠ []) (hstop : event.stopPropagation = false) :
    AsksDirectly last ->
      (last.body.context.invocations.entries []).isSome = true ∧
        last.body.stopPropagation = false := by
  have hrun := invokeListeners_run (requestModules host kind) funName world hne
    hstop
  refine @LoopRun.last_of_step sigma _
    (fun event => event.stopPropagation = false)
    (fun call => AsksDirectly call ->
      (call.body.context.invocations.entries []).isSome = true ∧
        call.body.stopPropagation = false)
    _ _ _ _ _ _ ?_ hrun hstop passed last h.calls_eq
  intro listener event funName world hgoing
  refine ⟨fun hasks => ?_, fun hpassed => hpassed.right⟩
  rcases filed_of_asksDirectly rfl hasks with ⟨hfiled, hkept⟩
  exact ⟨hfiled, hkept.trans hgoing⟩

theorem tracked_of_run
    (h : RunShape listeners event funName store
      (invokeListeners (requestModules host kind) listeners event funName world
        store) passed last after)
    (hne : listeners ≠ []) (hstop : event.stopPropagation = false)
    (hlisteners : forall l, l ∈ listeners ->
      l ∈ table.subscribers event.toEventHeader)
    (calls : List Call) :
    exists row,
      Tracked table event.toEventHeader
        (.after calls (invokeListeners (requestModules host kind) listeners
          event funName world store)) row last ∧
      row.context = last.body.context ∧
      row.statusCode = some last.finalStatus :=
  tracked_of_shape h hlisteners (last_filed h hne hstop) calls

theorem tracked_emit {order : Database} {data : EventObject}
    (hnew : data.stopPropagation = false)
    (hemit : emit (requestModules host kind) table order data world store =
      .ok result) :
    exists row last,
      Tracked table data.toEventHeader (.after [] result) row last := by
  rcases emit_ok hemit with ⟨listeners, hne, hordered, rfl⟩
  rcases invokeListeners_shape (requestModules host kind) none world store hne
    hnew with ⟨passed, last, after, hshape⟩
  rcases tracked_of_run hshape hne hnew (fun l hl => hordered.mem_iff.mp hl)
    [] with ⟨row, htracked, _⟩
  exact ⟨row, last, htracked⟩

end Runs

section Resumes

variable {host : RequestHost sigma} {kind : ObjectKind}
  {table : ListenerTable} {header : EventHeader} {s t : RunState sigma}
  {row : EventRow} {last : Call} {invokeKey : Text}

theorem Tracked.resumed {modules : ModuleRef sigma} {order : Database}
    {response : Value} {world : World sigma} {result : RunResult sigma}
    (h : Tracked table header s row last)
    (hkey : (parseInvokeKey invokeKey).eventId = header.id)
    (hresume : resume modules table order invokeKey response world s.store =
      .ok result) :
    exists event listeners,
      Resumed modules table order invokeKey response world s.store result row
        event listeners := by
  rcases resume_ok hresume with ⟨found, event, listeners, hresumed⟩
  have hfound := hresumed.found
  rw [hkey, h.row_eq] at hfound
  rw [← Option.some.inj hfound] at hresumed
  exact ⟨event, listeners, hresumed⟩

theorem tracked_resume {request : ResumeRequest sigma}
    (h : Tracked table header s row last)
    (hkey : (parseInvokeKey request.invokeKey).eventId = header.id)
    (hstep : resumeStep (requestModules host kind) table s request = some t) :
    exists row last, Tracked table header t row last := by
  rcases resumeStep_some hstep with ⟨result, hresume, rfl⟩
  rcases h.resumed hkey hresume with ⟨event, listeners, hresumed⟩
  rcases setCallbackResponse_ok hresumed.callback with ⟨_, _, hevent⟩
  have hheader : event.toEventHeader = header := by
    rw [hevent]
    exact h.header_eq
  have hlisteners : forall l, l ∈ listeners ->
      l ∈ table.subscribers event.toEventHeader := by
    intro l hl
    have hmem := mem_subscribers_of_resumeListeners hresumed.loaded hl
    rw [h.header_eq] at hmem
    rw [hheader]
    exact hmem
  cases hstop : event.stopPropagation with
  | false =>
      rcases invokeListeners_shape (requestModules host kind) row.funName
        ((s.elapse request.elapse).setInvokeId
          (parseInvokeKey request.invokeKey).invokeId)
        s.store hresumed.listeners_ne_nil hstop with
        ⟨passed, last', after, hshape⟩
      rcases tracked_of_run hshape hresumed.listeners_ne_nil hstop hlisteners
        s.calls with ⟨row', htracked, _⟩
      rw [← hresumed.result_eq, hheader] at htracked
      exact ⟨row', last', htracked⟩
  | true =>
      -- nobody is called, and the event was not waiting for an answer
      rcases invokeListeners_stopped (requestModules host kind) row.funName
        ((s.elapse request.elapse).setInvokeId
          (parseInvokeKey request.invokeKey).invokeId)
        s.store hresumed.listeners_ne_nil hstop with
        ⟨hcalls, row', hrow', hevent'⟩
      rw [← hresumed.result_eq] at hcalls hrow'
      refine ⟨row', last, ?_, ?_, ?_, ?_⟩
      · rw [← hheader]
        exact hrow'
      · rw [RunState.after, hcalls, List.append_nil]
        exact h.last_eq
      · rw [hevent']
        exact hheader
      · intro hasks
        have hgoing := (h.waiting hasks).going_on
        rw [hevent] at hstop
        have hconflict := hgoing.symm.trans hstop
        cases hconflict

/-- The record that the callback of a direct invocation is called on. -/
def answered (row : EventRow) (invocation : InvokeStatus) (response : Value) :
    EventObject :=
  row.toEventObject.withInvocations
    (row.context.invocations.set []
      { invocation with response := response })

/-- A request that waits for the answer to a direct invocation is resumed by
the key of the empty id. -/
theorem resume_of_waiting (modules : ModuleRef sigma)
    (h : Tracked table header s row last) (hwaiting : Waiting table row last)
    (hpending : row.statusCode = some 2)
    (hkey : parseInvokeKey invokeKey = ⟨[], header.id⟩) (order : Database)
    (response : Value) (world : World sigma) :
    exists invocation after,
      resume modules table order invokeKey response world s.store =
        .ok (invokeListeners modules (last.listener :: after)
          (answered row invocation response) (some runAndFixCallbackName)
          (world.setInvokeId []) s.store) ∧
      forall l, l ∈ last.listener :: after ->
        l ∈ table.subscribers row.toEventHeader := by
  rcases Option.isSome_iff_exists.mp hwaiting.filed with ⟨invocation, hentry⟩
  rcases mem_subscribers_iff.mp hwaiting.subscribed with
    ⟨hrows, hmatch, hlive⟩
  rcases resumeListeners_of_mem order hwaiting.listenerId_eq hrows hmatch
    (Or.inr hlive) with
    ⟨before, after, _, hload⟩
  rw [List.filter_cons, if_pos hlive] at hload
  have hresumed : Resumed modules table order invokeKey response world s.store
      (invokeListeners modules
        (last.listener :: after.filter EventListener.live)
        (answered row invocation response) row.funName
        (world.setInvokeId (parseInvokeKey invokeKey).invokeId) s.store)
      row (answered row invocation response)
      (last.listener :: after.filter EventListener.live) :=
    { found := by
        rw [hkey]
        exact h.row_eq
      pending := hpending
      callback := by
        rw [hkey]
        simp only [setCallbackResponse, hentry]
        rfl
      loaded := hload
      listeners_ne_nil := List.cons_ne_nil _ _
      result_eq := rfl }
  have hresume := resume_of_resumed hresumed
  rw [hkey, hwaiting.funName_eq] at hresume
  exact ⟨invocation, after.filter EventListener.live, hresume,
    fun l hl => mem_subscribers_of_resumeListeners hload hl⟩

end Resumes

/-! ## Requests that can be resumed -/

/-- The run begins with the pending listener, which is called by its resume
function. -/
def BeginsWithPending (modules : ModuleRef sigma) (row : EventRow)
    (result : RunResult sigma) : Prop :=
  exists call funName service fn,
    result.calls.head? = some call ∧
    row.listenerId = some call.listener.id ∧
    row.funName = some funName ∧ call.funName = some funName ∧
    call.listener.serviceType = .service ∧
    modules call.listener.serviceName = .ok (some service) ∧
    service funName = some fn

/-- There is a key of the event with which every resume gets past its checks
and calls the resume function of the pending listener. -/
def Resumable (modules : ModuleRef sigma) (table : ListenerTable)
    (store : EventStore) (row : EventRow) : Prop :=
  exists invokeKey, IsKeyOf row.id invokeKey ∧
    forall order response world, exists result,
      resume modules table order invokeKey response world store = .ok result ∧
        BeginsWithPending modules row result

/-- No key of the event gets past the checks of `resume`. -/
def Refused (modules : ModuleRef sigma) (table : ListenerTable)
    (store : EventStore) (row : EventRow) : Prop :=
  forall invokeKey, IsKeyOf row.id invokeKey ->
    forall order response world, exists e,
      resume modules table order invokeKey response world store = .error e

theorem not_resumable_of_refused {modules : ModuleRef sigma}
    {table : ListenerTable} {store : EventStore} {row : EventRow}
    (h : Refused modules table store row) (world : World sigma) :
    ¬ Resumable modules table store row := by
  rintro ⟨invokeKey, hkey, hresumes⟩
  rcases hresumes .stored none world with ⟨result, hresume, _⟩
  rcases h invokeKey hkey .stored none world with ⟨e, herror⟩
  rw [hresume] at herror
  cases herror

theorem runAndFixCallbackName_ne_nil : runAndFixCallbackName ≠ [] := by
  decide

theorem resumable_of_asksDirectly {host : RequestHost sigma}
    {kind : ObjectKind} {table : ListenerTable} {header : EventHeader}
    {s : RunState sigma} {row : EventRow} {last : Call}
    (h : Tracked table header s row last) (hpending : row.statusCode = some 2)
    (hasks : AsksDirectly last) :
    Resumable (requestModules host kind) table s.store row := by
  have hwaiting := h.waiting hasks
  have hkey := parseInvokeKey_of_not_mem List.not_mem_nil header.id
  refine ⟨composeInvokeKey [] header.id, ?_, ?_⟩
  · rw [h.header_eq]
    exact isKeyOf_direct header.id
  · intro order response world
    rcases resume_of_waiting (requestModules host kind) h hwaiting hpending
      hkey order response world with ⟨invocation, after, hresume, _⟩
    refine ⟨_, hresume, ?_⟩
    rcases invokeListeners_shape (requestModules host kind)
      (some runAndFixCallbackName) (world.setInvokeId []) s.store
      (List.cons_ne_nil last.listener after)
      (show (answered row invocation response).stopPropagation = false from
        hwaiting.going_on) with ⟨passed, final, rest, hshape⟩
    rcases hshape.head_call with ⟨call, calls, hcalls, hlistener, hfunName, _⟩
    rw [truthy_some_of_ne_nil runAndFixCallbackName_ne_nil] at hfunName
    refine ⟨call, runAndFixCallbackName,
      scriptRunnerAgent host.toInvokeHost kind,
      (runAndFixCallback host.toInvokeHost kind).toServiceFun,
      congrArg List.head? hcalls, ?_, hwaiting.funName_eq, hfunName, ?_, ?_,
      rfl⟩
    · rw [hlistener]
      exact hwaiting.listenerId_eq
    · rw [hlistener]
      exact hasks.serviceType_eq
    · rw [hlistener, hasks.serviceName_eq]
      rfl

end Request
end CallgentApi
