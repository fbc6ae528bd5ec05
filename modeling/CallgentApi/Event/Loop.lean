import CallgentApi.Event.Engine

/-!
# What a run of the listeners can do

A run passes listeners that return nothing and stops at the first one that
asks to be resumed, stops the propagation, throws, or has no successor.  Every
result about the engine is read off this shape.
-/

namespace CallgentApi
namespace Event

open Js Invoke

variable {sigma : Type _}

theorem Thrown.statusCode_ne_zero (e : Thrown) : e.statusCode ≠ 0 := by
  unfold statusCode
  split
  · decide
  · split
    · decide
    · assumption

namespace Call

/-- The call returned nothing and the event goes on to the next listener. -/
def Passed (call : Call) : Prop :=
  call.ending = .returned none ∧ call.body.stopPropagation = false

/-- The status of an event after its last call. -/
def finalStatus (call : Call) : Int :=
  match call.ending with
  | .returned resumeFunName => if resumeFunName.isSome then 2 else 0
  | .threw e => e.statusCode

theorem finalStatus_eq_zero_iff (call : Call) :
    call.finalStatus = 0 <-> call.ending = .returned none := by
  unfold finalStatus
  cases call.ending with
  | returned resumeFunName => cases resumeFunName <;> simp
  | threw e => simpa using e.statusCode_ne_zero

def finalBody (call : Call) : EventBody :=
  match call.ending with
  | .returned _ =>
      { call.body with statusCode := some call.finalStatus }
  | .threw e =>
      { call.body with
          statusCode := some call.finalStatus
          message := some e.text }

@[simp] theorem finalBody_statusCode (call : Call) :
    call.finalBody.statusCode = some call.finalStatus := by
  unfold finalBody
  split <;> rfl

@[simp] theorem finalBody_stopPropagation (call : Call) :
    call.finalBody.stopPropagation = call.body.stopPropagation := by
  unfold finalBody
  split <;> rfl

/-- The resume function stored after the last call; a listener that throws
leaves the one it was called by. -/
def finalFunName (call : Call) (funName : Option Text) : Option Text :=
  match call.ending with
  | .returned resumeFunName => resumeFunName
  | .threw _ => funName

@[simp] theorem ofResult_listener (listener : EventListener)
    (funName : Option Text) (result : CallResult sigma) :
    (ofResult listener funName result).listener = listener := by
  unfold ofResult
  split <;> rfl

@[simp] theorem ofResult_funName (listener : EventListener)
    (funName : Option Text) (result : CallResult sigma) :
    (ofResult listener funName result).funName = truthy funName := by
  unfold ofResult
  split <;> rfl

theorem ofResult_ending_ne_nil {listener : EventListener}
    {funName : Option Text} {result : CallResult sigma} {f : Text}
    (h : (ofResult listener funName result).ending = .returned (some f)) :
    f ≠ [] := by
  unfold ofResult at h
  split at h
  · exact ne_nil_of_truthy (Ending.returned.inj h)
  · cases h

end Call

/-- The two things the loop can do with a listener: stop after it, or pass it
and run the others. -/
inductive LoopRun (modules : ModuleRef sigma) :
    List EventListener -> Nat -> EventObject -> Option Text -> World sigma ->
      LoopResult sigma -> Prop where
  | stop {listener : EventListener} {rest : List EventListener} {idx : Nat}
      {event : EventObject} {funName : Option Text} {world : World sigma}
      {result : CallResult sigma} {call : Call}
      (hresult :
        invokeListener modules listener event funName world = result)
      (hcall : Call.ofResult listener funName result = call)
      (hnone : call.ending = .returned none ->
        call.body.stopPropagation = true ∨ rest = []) :
      LoopRun modules (listener :: rest) idx event funName world
        ⟨idx + 1, event.withBody call.finalBody, call.finalFunName funName,
          result.world, [call]⟩
  | pass {listener : EventListener} {rest : List EventListener} {idx : Nat}
      {event : EventObject} {funName : Option Text} {world : World sigma}
      {result : CallResult sigma} {call : Call} {r : LoopResult sigma}
      (hresult :
        invokeListener modules listener event funName world = result)
      (hcall : Call.ofResult listener funName result = call)
      (hpassed : call.Passed) (hrest : rest ≠ [])
      (hrun : LoopRun modules rest (idx + 1)
        (event.withBody { call.body with statusCode := some 1 }) none
        result.world r) :
      LoopRun modules (listener :: rest) idx event funName world
        (r.prepend call)

theorem invokeLoop_run (modules : ModuleRef sigma) {length : Nat}
    {listeners : List EventListener} {idx : Nat} {event : EventObject}
    (funName : Option Text) (world : World sigma)
    (hlength : idx + listeners.length = length) (hne : listeners ≠ [])
    (hstop : event.stopPropagation = false) :
    LoopRun modules listeners idx event funName world
      (invokeLoop modules length listeners idx event funName world) := by
  induction listeners generalizing idx event funName world with
  | nil => exact absurd rfl hne
  | cons listener rest ih =>
      generalize hresult :
        invokeListener modules listener event funName world = result
      generalize hcall : Call.ofResult listener funName result = call
      have hlast : length ≤ idx + 1 <-> rest = [] := by
        rw [← List.length_eq_zero_iff]
        rw [List.length_cons] at hlength
        omega
      have hstopped := @LoopRun.stop sigma modules listener rest idx event
        funName world result call hresult hcall
      simp only [invokeLoop, hstop, hresult, hcall, Bool.false_eq_true,
        if_false]
      cases hending : call.ending with
      | threw e =>
          simpa [Call.finalBody, Call.finalFunName, Call.finalStatus, hending]
            using hstopped
      | returned resumeFunName =>
          cases resumeFunName with
          | some f =>
              simpa [Call.finalBody, Call.finalFunName, Call.finalStatus,
                hending] using hstopped
          | none =>
              by_cases hbody : call.body.stopPropagation = true
              · simpa [Call.finalBody, Call.finalFunName, Call.finalStatus,
                  hending, hbody] using hstopped
              · by_cases hrest : rest = []
                · subst hrest
                  simpa [Call.finalBody, Call.finalFunName, Call.finalStatus,
                    hending, hbody, hlast, invokeLoop, LoopResult.prepend]
                    using hstopped
                · have hgo : ¬ length ≤ idx + 1 := fun h =>
                    hrest (hlast.mp h)
                  have hlength' : idx + 1 + rest.length = length := by
                    rw [List.length_cons] at hlength
                    omega
                  have hpassed : call.Passed :=
                    ⟨hending, Bool.eq_false_iff.mpr hbody⟩
                  have hrun := @ih (idx + 1)
                    (event.withBody { call.body with statusCode := some 1 })
                    none result.world hlength' hrest hpassed.right
                  simpa [hbody, hgo] using
                    LoopRun.pass hresult hcall hpassed hrest hrun

/-!
## The shape of a run
-/

/-- The run passed some listeners and stopped after one more, with `after`
still to come. -/
structure LoopShape (listeners : List EventListener) (idx : Nat)
    (event : EventObject) (funName : Option Text) (r : LoopResult sigma)
    (passed : List Call) (last : Call) (after : List EventListener) :
    Prop where
  listeners_eq :
    listeners = passed.map Call.listener ++ last.listener :: after
  calls_eq : r.calls = passed ++ [last]
  idx_eq : r.idx = idx + passed.length + 1
  passed_passed : forall call, call ∈ passed -> call.Passed
  -- only the first listener is called by the given function
  funNames_eq : r.calls.map Call.funName =
    truthy funName :: List.replicate passed.length none
  event_eq : r.event = event.withBody last.finalBody
  funName_eq : r.funName =
    last.finalFunName (if passed.isEmpty then funName else none)
  returned_none : last.ending = .returned none ->
    last.body.stopPropagation = true ∨ after = []
  asked_ne_nil : forall f, last.ending = .returned (some f) -> f ≠ []

theorem LoopRun.shape {modules : ModuleRef sigma}
    {listeners : List EventListener} {idx : Nat} {event : EventObject}
    {funName : Option Text} {world : World sigma} {r : LoopResult sigma}
    (h : LoopRun modules listeners idx event funName world r) :
    exists passed last after,
      LoopShape listeners idx event funName r passed last after := by
  induction h with
  | @stop listener rest idx event funName world result call hresult hcall
      hnone =>
      refine ⟨[], call, rest, ?_⟩
      exact
        { listeners_eq := by simp [← hcall]
          calls_eq := rfl
          idx_eq := rfl
          passed_passed := by simp
          funNames_eq := by simp [← hcall]
          event_eq := rfl
          funName_eq := rfl
          returned_none := hnone
          asked_ne_nil := by
            intro f hf
            rw [← hcall] at hf
            exact Call.ofResult_ending_ne_nil hf }
  | @pass listener rest idx event funName world result call r hresult hcall
      hpassed hrest hrun ih =>
      rcases ih with ⟨passed, last, after, h⟩
      have hfunName := h.funName_eq
      refine ⟨call :: passed, last, after, ?_⟩
      exact
        { listeners_eq := by simp [h.listeners_eq, ← hcall]
          calls_eq := by simp [LoopResult.prepend, h.calls_eq]
          idx_eq := by
            simp only [LoopResult.prepend, h.idx_eq, List.length_cons]
            omega
          passed_passed := by
            intro c hc
            rcases List.mem_cons.mp hc with heq | hmem
            · exact heq ▸ hpassed
            · exact h.passed_passed c hmem
          funNames_eq := by
            simp [LoopResult.prepend, h.funNames_eq, ← hcall,
              List.replicate_succ]
          event_eq := h.event_eq
          funName_eq := by
            simpa [LoopResult.prepend] using hfunName
          returned_none := h.returned_none
          asked_ne_nil := h.asked_ne_nil }

/-- The rule for what holds of the event between its calls: if it holds when
the run starts and every call that is passed keeps it, then the last call was
made while it held. -/
theorem LoopRun.last_of_step {modules : ModuleRef sigma}
    {holds : EventObject -> Prop} {made : Call -> Prop}
    {listeners : List EventListener} {idx : Nat} {event : EventObject}
    {funName : Option Text} {world : World sigma} {r : LoopResult sigma}
    (hstep : forall listener event funName world, holds event ->
      let call := Call.ofResult listener funName
        (invokeListener modules listener event funName world)
      made call ∧ (call.Passed ->
        holds (event.withBody { call.body with statusCode := some 1 })))
    (h : LoopRun modules listeners idx event funName world r)
    (hevent : holds event) :
    forall passed last, r.calls = passed ++ [last] -> made last := by
  induction h with
  | @stop listener rest idx event funName world result call hresult hcall
      hnone =>
      intro passed last hcalls
      have hlast : last = call := by
        have hends := (List.append_inj'
          (show [] ++ [call] = passed ++ [last] from hcalls) rfl).right
        exact (List.cons.inj hends).left.symm
      have hmade := (hstep listener event funName world hevent).left
      rw [hresult, hcall] at hmade
      exact hlast ▸ hmade
  | @pass listener rest idx event funName world result call r hresult hcall
      hpassed hrest hrun ih =>
      intro passed last hcalls
      have hkept := (hstep listener event funName world hevent).right
      rw [hresult, hcall] at hkept
      rcases hrun.shape with ⟨front, tail, _, hshape⟩
      have hlast : last = tail := by
        have hcalls' : (call :: front) ++ [tail] = passed ++ [last] := by
          rw [← hcalls, LoopResult.prepend, hshape.calls_eq]
          rfl
        have hends := (List.append_inj' hcalls' rfl).right
        exact (List.cons.inj hends).left.symm
      rw [hlast]
      exact ih (hkept hpassed) front tail hshape.calls_eq

/-!
## What is stored
-/

theorem truthy_listener_id (listener : Option EventListener) :
    truthy (listener.map EventListener.id) =
      listener.map EventListener.id := by
  cases listener with
  | none => rfl
  | some l => exact truthy_some_of_ne_nil l.id_ne_nil

/-- The listener stored with an event after its last call. -/
def Call.storedListener (last : Call) (after : List EventListener) :
    Option EventListener :=
  if last.finalStatus = 1 then after.head?
  else if last.finalStatus = 0 ∨
      (2 < last.finalStatus ∧ last.finalStatus < 399) then none
  else some last.listener

/-- A pending event is stored with the function that was asked for and the
listener that asked. -/
def Call.pendingRow (last : Call) (event : EventObject) (f : Text) :
    EventRow :=
  { event.withBody last.finalBody with
      funName := some f
      listenerId := some last.listener.id }

/-- The shape of a whole run of `_invokeListeners` and what it stores. -/
structure RunShape (listeners : List EventListener) (event : EventObject)
    (funName : Option Text) (store : EventStore) (result : RunResult sigma)
    (passed : List Call) (last : Call) (after : List EventListener) :
    Prop where
  listeners_eq :
    listeners = passed.map Call.listener ++ last.listener :: after
  calls_eq : result.calls = passed ++ [last]
  passed_passed : forall call, call ∈ passed -> call.Passed
  funNames_eq : result.calls.map Call.funName =
    truthy funName :: List.replicate passed.length none
  returned_none : last.ending = .returned none ->
    last.body.stopPropagation = true ∨ after = []
  asked_ne_nil : forall f, last.ending = .returned (some f) -> f ≠ []
  event_eq : result.event = event.withBody last.finalBody
  store_eq : result.store =
    store.upsertEvent (event.withBody last.finalBody)
      (truthy (last.finalFunName (if passed.isEmpty then funName else none)))
      ((last.storedListener after).map EventListener.id)

theorem nextListener_eq {listeners passed after : List EventListener}
    {last : Call} (h : listeners = passed ++ last.listener :: after) :
    nextListener listeners (passed.length + 1) (some last.finalStatus) =
      last.storedListener after := by
  have hnext : listeners[passed.length + 1]? = after.head? := by
    rw [h, List.getElem?_append_right (Nat.le_add_right _ _)]
    simp [List.head?_eq_getElem?]
  have hlast : listeners[passed.length]? = some last.listener := by
    rw [h, List.getElem?_append_right (Nat.le_refl _)]
    simp
  simp [nextListener, Call.storedListener, hnext, hlast]

@[simp] theorem processing_processing (event : EventObject) :
    processing (processing event) = processing event := rfl

theorem LoopShape.runShape {modules : ModuleRef sigma}
    {listeners : List EventListener} {event : EventObject}
    {funName : Option Text} {world : World sigma} {passed : List Call}
    {last : Call} {after : List EventListener}
    (h : LoopShape listeners 0 (processing event) funName
      (runLoop modules listeners event funName world) passed last after)
    (store : EventStore) :
    RunShape listeners event funName store
      (invokeListeners modules listeners event funName world store)
      passed last after := by
  have hidx := h.idx_eq
  have hevent := h.event_eq
  have hfunName := h.funName_eq
  have hnext := nextListener_eq h.listeners_eq
  rw [List.length_map] at hnext
  exact
    { listeners_eq := h.listeners_eq
      calls_eq := h.calls_eq
      passed_passed := h.passed_passed
      funNames_eq := h.funNames_eq
      returned_none := h.returned_none
      asked_ne_nil := h.asked_ne_nil
      event_eq := hevent
      store_eq := by
        simp only [invokeListeners, finishRun, hidx, hevent, hfunName,
          Nat.zero_add, truthy_listener_id]
        simp only [EventObject.withBody, processing,
          Call.finalBody_statusCode, hnext] }

theorem invokeListeners_run (modules : ModuleRef sigma)
    {listeners : List EventListener} {event : EventObject}
    (funName : Option Text) (world : World sigma)
    (hne : listeners ≠ []) (hstop : event.stopPropagation = false) :
    LoopRun modules listeners 0 (processing event) funName world
      (runLoop modules listeners event funName world) :=
  invokeLoop_run modules funName world (Nat.zero_add _) hne hstop

theorem invokeListeners_shape (modules : ModuleRef sigma)
    {listeners : List EventListener} {event : EventObject}
    (funName : Option Text) (world : World sigma) (store : EventStore)
    (hne : listeners ≠ []) (hstop : event.stopPropagation = false) :
    exists passed last after,
      RunShape listeners event funName store
        (invokeListeners modules listeners event funName world store)
        passed last after := by
  rcases (invokeListeners_run modules funName world hne hstop).shape with
    ⟨passed, last, after, h⟩
  exact ⟨passed, last, after, h.runShape store⟩

namespace RunShape

variable {listeners : List EventListener} {event : EventObject}
  {funName : Option Text} {store : EventStore} {result : RunResult sigma}
  {passed : List Call} {last : Call} {after : List EventListener}

theorem head_call {listener : EventListener} {rest : List EventListener}
    (h : RunShape (listener :: rest) event funName store result passed last
      after) :
    exists call calls, result.calls = call :: calls ∧
      call.listener = listener ∧ call.funName = truthy funName ∧
      forall c, c ∈ calls -> c.funName = none := by
  have hlisteners : listener :: rest =
      result.calls.map Call.listener ++ after := by
    rw [h.calls_eq, h.listeners_eq]
    simp
  have hfunNames := h.funNames_eq
  cases hcalls : result.calls with
  | nil =>
      rw [h.calls_eq] at hcalls
      exact absurd hcalls (by simp)
  | cons call calls =>
      rw [hcalls] at hlisteners hfunNames
      rcases List.cons.inj hfunNames with ⟨hcall, hrest⟩
      refine ⟨call, calls, rfl, (List.cons.inj hlisteners).left.symm, hcall, ?_⟩
      intro c hc
      have hmem : c.funName ∈ calls.map Call.funName := List.mem_map_of_mem hc
      rw [hrest] at hmem
      exact List.eq_of_mem_replicate hmem

theorem row (h : RunShape listeners event funName store result passed last
    after) :
    exists row, result.store event.id = some row ∧
      row.toEventObject = event.withBody last.finalBody := by
  have hself := EventStore.upsertEvent_self store
    (event.withBody last.finalBody)
    (truthy (last.finalFunName (if passed.isEmpty then funName else none)))
    ((last.storedListener after).map EventListener.id)
  rw [← h.store_eq] at hself
  exact ⟨_, hself, EventStore.upsertRow_toEventObject _ _ _ _⟩

theorem row_of_not_done (h : RunShape listeners event funName store result
    passed last after) (hstatus : last.finalStatus ≠ 0) :
    result.store event.id = some
      { event.withBody last.finalBody with
          funName := truthy
            (last.finalFunName (if passed.isEmpty then funName else none))
          listenerId := (last.storedListener after).map EventListener.id } := by
  have hself := EventStore.upsertEvent_self store
    (event.withBody last.finalBody)
    (truthy (last.finalFunName (if passed.isEmpty then funName else none)))
    ((last.storedListener after).map EventListener.id)
  have hdone : (event.withBody last.finalBody).statusCode ≠ some 0 := by
    simpa [EventObject.withBody] using hstatus
  rw [← h.store_eq, EventStore.upsertRow_of_not_done hdone] at hself
  exact hself

theorem row_of_asked (h : RunShape listeners event funName store result
    passed last after) {f : Text} (hasked : last.ending = .returned (some f)) :
    result.store event.id = some (last.pendingRow event f) := by
  have hstatus : last.finalStatus = 2 := by
    simp [Call.finalStatus, hasked]
  have hfunName : truthy (last.finalFunName
      (if passed.isEmpty then funName else none)) = some f := by
    simp only [Call.finalFunName, hasked]
    exact truthy_some_of_ne_nil (h.asked_ne_nil f hasked)
  have hlistener : last.storedListener after = some last.listener := by
    simp [Call.storedListener, hstatus]
  have hrow := h.row_of_not_done (by rw [hstatus]; decide)
  rw [hfunName, hlistener] at hrow
  exact hrow

theorem store_of_ne (h : RunShape listeners event funName store result
    passed last after) {id : Text} (hid : id ≠ event.id) :
    result.store id = store id := by
  have hid' : id ≠ (event.withBody last.finalBody).id := hid
  rw [h.store_eq]
  exact store.upsertEvent_of_ne hid' _ _

end RunShape

/-!
## Which listeners are started
-/

/-- The listeners that were called by their own function. -/
def started (calls : List Call) : List EventListener :=
  (calls.filter fun call => call.funName.isNone).map Call.listener

def toStart (listeners : List EventListener) (funName : Option Text) :
    List EventListener :=
  if (truthy funName).isNone then listeners else listeners.tail

theorem started_cons (call : Call) (calls : List Call) :
    started (call :: calls) =
      if call.funName.isNone then call.listener :: started calls
      else started calls := by
  unfold started
  rw [List.filter_cons]
  split <;> rfl

theorem started_append (first second : List Call) :
    started (first ++ second) = started first ++ started second := by
  simp [started]

theorem started_of_funNames_none {calls : List Call}
    (h : forall call, call ∈ calls -> call.funName = none) :
    started calls = calls.map Call.listener := by
  induction calls with
  | nil => rfl
  | cons call rest ih =>
      have hrest := ih fun c hc => h c (List.mem_cons_of_mem call hc)
      rw [started_cons, h call List.mem_cons_self, hrest]
      rfl

theorem RunShape.started_append_after {listeners : List EventListener}
    {event : EventObject} {funName : Option Text} {store : EventStore}
    {result : RunResult sigma} {passed : List Call} {last : Call}
    {after : List EventListener}
    (h : RunShape listeners event funName store result passed last after) :
    started result.calls ++ after = toStart listeners funName := by
  have hlisteners : listeners = result.calls.map Call.listener ++ after := by
    rw [h.listeners_eq, h.calls_eq]
    simp
  cases listeners with
  | nil =>
      have hlength := congrArg List.length h.listeners_eq
      simp at hlength
  | cons listener rest =>
      rcases h.head_call with ⟨call, calls, hcalls, _, hcall, hnone⟩
      rw [hlisteners, hcalls, started_cons, started_of_funNames_none hnone,
        hcall, toStart]
      cases truthy funName <;> rfl

end Event
end CallgentApi
