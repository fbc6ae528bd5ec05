import CallgentApi.Event.Resumption

/-!
# Emit and resume refine one uninterrupted run

An uninterrupted run calls the listeners in order.  When a listener asks to be
resumed it waits for the callback and then calls the resume function of that
same listener.  Emitting an event and resuming it from the store makes the
same calls, wherever the run is cut.
-/

namespace CallgentApi
namespace Event

open Js Invoke Transition SortedCut

variable {sigma : Type _}

structure Uninterrupted where
  calls : List Call
  event : EventObject

namespace Uninterrupted

def prepend (calls : List Call) (u : Uninterrupted) : Uninterrupted :=
  { u with calls := calls ++ u.calls }

@[simp] theorem prepend_calls (calls : List Call) (u : Uninterrupted) :
    (u.prepend calls).calls = calls ++ u.calls := rfl

@[simp] theorem prepend_event (calls : List Call) (u : Uninterrupted) :
    (u.prepend calls).event = u.event := rfl

end Uninterrupted

/-- One run over the listeners that waits for each callback in place; without
a callback to come it ends pending. -/
def uninterrupted (modules : ModuleRef sigma) :
    List EventListener -> Option Text -> EventObject -> World sigma ->
      List (Callback sigma) -> Uninterrupted
  | [], _, event, _, _ => ⟨[], event⟩
  | listener :: rest, funName, event, world, callbacks =>
      let result :=
        invokeListener modules listener (processing event) funName world
      let call := Call.ofResult listener funName result
      let event := event.withBody call.finalBody
      match call.ending with
      | .threw _ => ⟨[call], event⟩
      | .returned none =>
          if call.body.stopPropagation = true ∨ rest = [] then ⟨[call], event⟩
          else
            (uninterrupted modules rest none event result.world
              callbacks).prepend [call]
      | .returned (some f) =>
          match callbacks with
          | [] => ⟨[call], event⟩
          | callback :: later =>
              (uninterrupted modules (listener :: rest) (some f)
                (callback.event event) (callback.world result.world)
                later).prepend [call]
termination_by listeners _ _ _ callbacks =>
  (callbacks.length, listeners.length)

/-- The rest of a run whose first listener has asked for `f`. -/
def continued (modules : ModuleRef sigma) (listeners : List EventListener)
    (f : Text) (event : EventObject) (world : World sigma) :
    List (Callback sigma) -> Uninterrupted
  | [] => ⟨[], event⟩
  | callback :: later =>
      uninterrupted modules listeners (some f) (callback.event event)
        (callback.world world) later

theorem uninterrupted_processing (modules : ModuleRef sigma)
    {listeners : List EventListener} (hne : listeners ≠ [])
    (funName : Option Text) (event : EventObject) (world : World sigma)
    (callbacks : List (Callback sigma)) :
    uninterrupted modules listeners funName (processing event) world
        callbacks =
      uninterrupted modules listeners funName event world callbacks := by
  cases listeners with
  | nil => exact absurd rfl hne
  | cons listener rest =>
      rw [uninterrupted, uninterrupted]
      rfl

theorem LoopRun.uninterrupted {modules : ModuleRef sigma}
    {listeners : List EventListener} {idx : Nat} {event : EventObject}
    {funName : Option Text} {world : World sigma} {r : LoopResult sigma}
    (h : LoopRun modules listeners idx event funName world r)
    (hprocessing : processing event = event)
    (hallowed : forall call, call ∈ r.calls -> call.Allowed)
    (callbacks : List (Callback sigma)) :
    Event.uninterrupted modules listeners funName event world callbacks =
      (match r.funName with
      | none => (⟨[], r.event⟩ : Uninterrupted)
      | some f =>
          continued modules (listeners.drop (r.idx - idx - 1)) f r.event
            r.world callbacks).prepend r.calls := by
  induction h with
  | @stop listener rest idx event funName world result call hresult hcall
      hnone =>
      rw [Event.uninterrupted, hprocessing, hresult]
      simp only [hcall]
      rcases (hallowed call List.mem_cons_self).returned with
        ⟨resumeFunName, hending⟩
      cases resumeFunName with
      | none =>
          have hstop := hnone hending
          simp [hending, hstop, Call.finalFunName, Uninterrupted.prepend]
      | some f =>
          cases callbacks with
          | nil =>
              simp [hending, Call.finalFunName, Uninterrupted.prepend,
                continued]
          | cons callback later =>
              simp [hending, Call.finalFunName, Uninterrupted.prepend,
                continued]
  | @pass listener rest idx event funName world result call r hresult hcall
      hpassed hrest hrun ih =>
      have hnext : processing (event.withBody call.finalBody) =
          event.withBody { call.body with statusCode := some 1 } := by
        simp [processing, Call.finalBody, hpassed.left, EventObject.withBody]
      have hdrop : (listener :: rest).drop ((r.prepend call).idx - idx - 1) =
          rest.drop (r.idx - (idx + 1) - 1) := by
        rcases hrun.shape with ⟨passed, last, after, hshape⟩
        have hidx : (r.prepend call).idx - idx - 1 =
            r.idx - (idx + 1) - 1 + 1 := by
          simp only [LoopResult.prepend, hshape.idx_eq]
          omega
        rw [hidx, List.drop_succ_cons]
      have hgo : ¬ (call.body.stopPropagation = true ∨ rest = []) := by
        simp [hpassed.right, hrest]
      have hcalls : forall c, c ∈ r.calls -> c.Allowed :=
        fun c hc => hallowed c (List.mem_cons_of_mem call hc)
      rw [Event.uninterrupted, hprocessing, hresult]
      simp only [hcall, hpassed.left, if_neg hgo]
      rw [← uninterrupted_processing modules hrest, hnext, ih rfl hcalls,
        hdrop]
      rfl

/-!
## The simulation
-/

/-- What the uninterrupted run does after the last call of a run of the
listeners. -/
def Call.goOn (modules : ModuleRef sigma) (last : Call)
    (after : List EventListener) (result : RunResult sigma)
    (callbacks : List (Callback sigma)) : Uninterrupted :=
  match last.ending with
  | .returned (some f) =>
      continued modules (last.listener :: after) f result.event result.world
        callbacks
  | _ => ⟨[], result.event⟩

theorem uninterrupted_invokeListeners (modules : ModuleRef sigma)
    {listeners : List EventListener} {event : EventObject}
    (funName : Option Text) (world : World sigma) (store : EventStore)
    (hne : listeners ≠ []) (hstop : event.stopPropagation = false)
    (hallowed : forall call,
      call ∈ (invokeListeners modules listeners event funName world
        store).calls -> call.Allowed) :
    exists passed last after,
      RunShape listeners event funName store
        (invokeListeners modules listeners event funName world store)
        passed last after ∧
      forall callbacks,
        uninterrupted modules listeners funName event world callbacks =
          (last.goOn modules after
            (invokeListeners modules listeners event funName world store)
            callbacks).prepend
              (invokeListeners modules listeners event funName world
                store).calls := by
  have hloop := invokeListeners_run modules funName world hne hstop
  rcases hloop.shape with ⟨passed, last, after, hshape⟩
  refine ⟨passed, last, after, hshape.runShape store, ?_⟩
  intro callbacks
  have heq := hloop.uninterrupted rfl hallowed callbacks
  rw [uninterrupted_processing modules hne] at heq
  have hlast : last ∈ (invokeListeners modules listeners event funName world
      store).calls := by
    rw [(hshape.runShape store).calls_eq]
    simp
  have hdrop : listeners.drop (passed.length + 1 - 1) =
      last.listener :: after := by
    rw [hshape.listeners_eq]
    simp
  rcases (hallowed last hlast).returned with ⟨resumeFunName, hending⟩
  rw [heq, hshape.funName_eq, hshape.idx_eq]
  simp only [Call.finalFunName, Call.goOn, hending, Nat.zero_add,
    Nat.sub_zero, hdrop]
  cases resumeFunName <;> rfl

theorem resumeListeners_eq {table : ListenerTable} {order : Database}
    {row : EventRow} {listener : EventListener}
    {before after listeners : List EventListener}
    (hties : NoTies EventListener.notAfter table.rows)
    (hordered : Ordered table row.toEventHeader (before ++ listener :: after))
    (hid : row.listenerId = some listener.id)
    (h : resumeListeners table order row = .ok listeners) :
    listeners = listener :: after := by
  have hmem : listener ∈ table.subscribers row.toEventHeader :=
    hordered.mem_iff.mp (by simp)
  rcases ordered_of_resumeListeners h hid hmem with
    ⟨before', after', hordered', rfl⟩
  have hties' : NoTies EventListener.notAfter (before ++ listener :: after) :=
    fun a ha b hb => hties a (mem_subscribers_iff.mp (hordered.mem_iff.mp ha)).left
      b (mem_subscribers_iff.mp (hordered.mem_iff.mp hb)).left
  have heq := eq_of_perm_of_sorted hties' hordered.sorted hordered'.sorted
    (hordered.perm.trans hordered'.perm.symm)
  have hnotMem := List.nodup_append.mp hordered.nodup
  have hbefore : listener ∉ before := fun hin =>
    hnotMem.right.right listener hin listener List.mem_cons_self rfl
  have hafter : listener ∉ after :=
    (List.nodup_cons.mp hnotMem.right.left).left
  rw [((List.append_cons_inj_of_notMem hbefore hafter).mp heq).right.right]

theorem resume_eq {modules : ModuleRef sigma} {table : ListenerTable}
    {before listeners : List EventListener} {event : EventObject}
    {funName : Option Text} {store : EventStore}
    {result result' : RunResult sigma} {passed : List Call} {last : Call}
    {after : List EventListener} {request : ResumeRequest sigma}
    {world : World sigma}
    (hties : NoTies EventListener.notAfter table.rows)
    (hordered : Ordered table event.toEventHeader (before ++ listeners))
    (h : RunShape listeners event funName store result passed last after)
    (hallowed : last.Allowed)
    (hkey : (parseInvokeKey request.invokeKey).eventId = event.id)
    (hresume : resume modules table request.order request.invokeKey
      request.response world result.store = .ok result') :
    exists f,
      last.ending = .returned (some f) ∧
      last.body.stopPropagation = false ∧
      result' = invokeListeners modules (last.listener :: after)
        (request.callback.event (event.withBody last.finalBody)) (some f)
        (world.setInvokeId request.callback.invokeId) result.store := by
  rcases resume_after_run h hallowed.returned hkey hresume with
    ⟨f, listeners', hending, _, hloaded, rfl⟩
  have hstop : last.body.stopPropagation = false := by
    simpa [Call.Allowed, hending] using hallowed
  have hsplit : before ++ listeners =
      (before ++ passed.map Call.listener) ++ last.listener :: after := by
    rw [h.listeners_eq, List.append_assoc]
  have hordered' : Ordered table (last.pendingRow event f).toEventHeader
      ((before ++ passed.map Call.listener) ++ last.listener :: after) :=
    hsplit ▸ hordered
  have hlisteners : listeners' = last.listener :: after :=
    resumeListeners_eq hties hordered' rfl hloaded
  exact ⟨f, hending, hstop, by rw [hlisteners]⟩

theorem run_refines {modules : ModuleRef sigma} {table : ListenerTable}
    (hties : NoTies EventListener.notAfter table.rows)
    {requests : List (ResumeRequest sigma)}
    {before listeners : List EventListener} {event : EventObject}
    {funName : Option Text} {world : World sigma} {store : EventStore}
    {calls : List Call} {t : RunState sigma}
    (hordered : Ordered table event.toEventHeader (before ++ listeners))
    (hne : listeners ≠ []) (hstop : event.stopPropagation = false)
    (hrun : run (resumeStep modules table)
      (.after calls
        (invokeListeners modules listeners event funName world store))
      requests = some t)
    (hallowed : forall call, call ∈ t.calls -> call.Allowed)
    (hkeys : forall request, request ∈ requests ->
      (parseInvokeKey request.invokeKey).eventId = event.id) :
    t.calls = calls ++
        (uninterrupted modules listeners funName event world
          (requests.map ResumeRequest.callback)).calls ∧
      (t.store event.id).map EventRow.toEventObject =
        some (uninterrupted modules listeners funName event world
          (requests.map ResumeRequest.callback)).event := by
  induction requests generalizing before listeners event funName world store
      calls with
  | nil =>
      have ht := Option.some.inj hrun
      subst ht
      rcases uninterrupted_invokeListeners modules funName world store hne
        hstop (fun call hcall =>
          hallowed call (List.mem_append_right calls hcall)) with
        ⟨passed, last, after, hshape, heq⟩
      rcases hshape.row with ⟨row, hrow, hevent⟩
      have hdone : last.goOn modules after
          (invokeListeners modules listeners event funName world store) [] =
            ⟨[], event.withBody last.finalBody⟩ := by
        unfold Call.goOn
        split <;> simp [continued, hshape.event_eq]
      rw [List.map_nil, heq, hdone]
      exact ⟨by simp [RunState.after], by simp [RunState.after, hrow, hevent]⟩
  | cons request rest ih =>
      rcases run_cons_some hrun with ⟨s', hstep, hrest⟩
      rcases resumeStep_some hstep with ⟨result', hresume, rfl⟩
      have hhead := run_calls_prefix hrest
      rcases uninterrupted_invokeListeners modules funName world store hne
        hstop (fun call hcall => hallowed call (hhead.mem (by
          simp [RunState.after, hcall]))) with
        ⟨passed, last, after, hshape, heq⟩
      have hlast : last ∈ (invokeListeners modules listeners event funName
          world store).calls := by
        rw [hshape.calls_eq]
        simp
      rcases resume_eq hties hordered hshape
        (hallowed last (hhead.mem (by simp [RunState.after, hlast])))
        (hkeys request List.mem_cons_self) hresume with
        ⟨f, hending, hbody, rfl⟩
      have hordered' : Ordered table
          (request.callback.event
            (event.withBody last.finalBody)).toEventHeader
          ((before ++ passed.map Call.listener) ++ last.listener :: after) := by
        rw [Callback.event_toEventHeader, List.append_assoc,
          ← hshape.listeners_eq]
        exact hordered
      have hid : (request.callback.event (event.withBody last.finalBody)).id =
          event.id :=
        congrArg EventHeader.id (Callback.event_toEventHeader _ _)
      have hrefines := ih hordered' (List.cons_ne_nil _ _)
        (by simpa [EventObject.withBody] using hbody) hrest
        (fun other hother => by
          rw [hid]
          exact hkeys other (List.mem_cons_of_mem request hother))
      have hgoOn : last.goOn modules after
          (invokeListeners modules listeners event funName world store)
          ((request :: rest).map ResumeRequest.callback) =
            uninterrupted modules (last.listener :: after) (some f)
              (request.callback.event (event.withBody last.finalBody))
              (request.callback.world
                (invokeListeners modules listeners event funName world
                  store).world)
              (rest.map ResumeRequest.callback) := by
        simp only [Call.goOn, hending, List.map_cons, continued,
          hshape.event_eq]
      rw [hid] at hrefines
      rw [heq, hgoOn, Uninterrupted.prepend_calls, Uninterrupted.prepend_event,
        ← List.append_assoc]
      exact hrefines

/-!
## The order of the calls
-/

/-- Listeners called in order, each as often as it asks to be resumed: a call
that asks for a function is followed by the call of that function on the same
listener, and a call that passes by the start of the next listener. -/
inductive InSequence :
    List EventListener -> Option Text -> List Call -> EventBody -> Prop where
  | nil (funName : Option Text) (body : EventBody) :
      InSequence [] funName [] body
  | stop {listener : EventListener} {rest : List EventListener}
      {funName : Option Text} {call : Call}
      (hlistener : call.listener = listener)
      (hfunName : call.funName = truthy funName)
      (hnone : call.ending = .returned none ->
        call.body.stopPropagation = true ∨ rest = []) :
      InSequence (listener :: rest) funName [call] call.finalBody
  | next {listener : EventListener} {rest : List EventListener}
      {funName : Option Text} {call : Call} {calls : List Call}
      {body : EventBody}
      (hlistener : call.listener = listener)
      (hfunName : call.funName = truthy funName) (hpassed : call.Passed)
      (htail : InSequence rest none calls body) :
      InSequence (listener :: rest) funName (call :: calls) body
  | again {listener : EventListener} {rest : List EventListener}
      {funName : Option Text} {f : Text} {call : Call} {calls : List Call}
      {body : EventBody}
      (hlistener : call.listener = listener)
      (hfunName : call.funName = truthy funName)
      (hasked : call.ending = .returned (some f)) (hf : f ≠ [])
      (htail : InSequence (listener :: rest) (some f) calls body) :
      InSequence (listener :: rest) funName (call :: calls) body

theorem uninterrupted_inSequence (modules : ModuleRef sigma)
    (listeners : List EventListener) (funName : Option Text)
    (event : EventObject) (world : World sigma)
    (callbacks : List (Callback sigma)) :
    InSequence listeners funName
      (uninterrupted modules listeners funName event world callbacks).calls
      (uninterrupted modules listeners funName event world
        callbacks).event.toEventBody := by
  fun_induction uninterrupted with
  | case1 funName event world callbacks => exact .nil funName _
  | case2 listener rest funName event world callbacks result call _ e hending =>
      refine .stop (Call.ofResult_listener _ _ _) (Call.ofResult_funName _ _ _)
        (fun hnone => ?_)
      rw [hending] at hnone
      cases hnone
  | case3 listener rest funName event world callbacks result call _ hending
      hstop =>
      exact .stop (Call.ofResult_listener _ _ _) (Call.ofResult_funName _ _ _)
        (fun _ => hstop)
  | case4 listener rest funName event world callbacks result call _ hending hgo
      ih =>
      have hpassed : call.Passed :=
        ⟨hending, Bool.eq_false_iff.mpr fun h => hgo (Or.inl h)⟩
      exact .next (Call.ofResult_listener _ _ _) (Call.ofResult_funName _ _ _)
        hpassed ih
  | case5 listener rest funName event world result call _ f hending =>
      refine .stop (Call.ofResult_listener _ _ _) (Call.ofResult_funName _ _ _)
        (fun hnone => ?_)
      rw [hending] at hnone
      cases hnone
  | case6 listener rest funName event world result call _ f hending callback
      later ih =>
      exact .again (Call.ofResult_listener _ _ _) (Call.ofResult_funName _ _ _)
        hending (Call.ofResult_ending_ne_nil hending) ih

theorem InSequence.started_prefix {listeners : List EventListener}
    {funName : Option Text} {calls : List Call} {body : EventBody}
    (h : InSequence listeners funName calls body) :
    started calls <+: toStart listeners funName := by
  induction h with
  | nil funName body => exact List.nil_prefix
  | @stop listener rest funName call hlistener hfunName hnone =>
      rw [started_cons, hfunName, hlistener, toStart]
      cases htruthy : truthy funName with
      | none => exact List.cons_prefix_cons.mpr ⟨rfl, List.nil_prefix⟩
      | some f => exact List.nil_prefix
  | @next listener rest funName call calls body hlistener hfunName hpassed
      htail ih =>
      rw [started_cons, hfunName, hlistener, toStart]
      cases htruthy : truthy funName with
      | none => exact List.cons_prefix_cons.mpr ⟨rfl, ih⟩
      | some f => exact ih
  | @again listener rest funName f call calls body hlistener hfunName hasked
      hf htail ih =>
      have hrest : toStart (listener :: rest) (some f) = rest := by
        simp [toStart, truthy_some_of_ne_nil hf]
      rw [hrest] at ih
      rw [started_cons, hfunName, hlistener, toStart]
      cases htruthy : truthy funName with
      | none => exact List.cons_prefix_cons.mpr ⟨rfl, ih⟩
      | some f => exact ih

theorem InSequence.started_eq {listeners : List EventListener}
    {funName : Option Text} {calls : List Call} {body : EventBody}
    (h : InSequence listeners funName calls body)
    (hdone : body.statusCode = some 0)
    (hstop : body.stopPropagation = false) :
    started calls = toStart listeners funName := by
  induction h with
  | nil funName body => simp [started, toStart]
  | @stop listener rest funName call hlistener hfunName hnone =>
      rw [Call.finalBody_statusCode, Option.some_inj,
        Call.finalStatus_eq_zero_iff] at hdone
      rw [Call.finalBody_stopPropagation] at hstop
      have hrest : rest = [] := (hnone hdone).resolve_left (by simp [hstop])
      subst hrest
      rw [started_cons, hfunName, hlistener, toStart]
      cases htruthy : truthy funName with
      | none => rfl
      | some f => rfl
  | @next listener rest funName call calls body hlistener hfunName hpassed
      htail ih =>
      rw [started_cons, hfunName, hlistener, toStart, ih hdone hstop]
      cases htruthy : truthy funName with
      | none => rfl
      | some f => rfl
  | @again listener rest funName f call calls body hlistener hfunName hasked
      hf htail ih =>
      have hrest : toStart (listener :: rest) (some f) = rest := by
        simp [toStart, truthy_some_of_ne_nil hf]
      rw [started_cons, hfunName, hlistener, toStart, ih hdone hstop, hrest]
      cases htruthy : truthy funName with
      | none => rfl
      | some f => rfl

/-!
## The refinement
-/

/-- The live listeners of an event in sorted order. -/
def ListenerTable.inOrder (table : ListenerTable) (event : EventHeader) :
    List EventListener :=
  (table.subscribers event).insertionSort EventListener.notAfter

theorem ordered_inOrder (table : ListenerTable) (event : EventHeader) :
    Ordered table event (table.inOrder event) where
  sorted := List.pairwise_insertionSort _ _
  perm := List.perm_insertionSort _ _

theorem Ordered.eq_inOrder {table : ListenerTable} {event : EventHeader}
    {listeners : List EventListener}
    (hties : NoTies EventListener.notAfter table.rows)
    (h : Ordered table event listeners) :
    listeners = table.inOrder event := by
  refine eq_of_perm_of_sorted ?_ h.sorted (ordered_inOrder table event).sorted
    (h.perm.trans (ordered_inOrder table event).perm.symm)
  intro a ha b hb
  exact hties a (mem_subscribers_iff.mp (h.mem_iff.mp ha)).left
    b (mem_subscribers_iff.mp (h.mem_iff.mp hb)).left

/-- Emitting a new event and resuming it makes the calls of the uninterrupted
run over the sorted listeners and stores the event that run ends with. -/
theorem emitAndResume_refines_uninterrupted {modules : ModuleRef sigma}
    {table : ListenerTable} {order : Database} {data : EventObject}
    {world : World sigma} {store : EventStore}
    {requests : List (ResumeRequest sigma)} {t : RunState sigma}
    (hties : NoTies EventListener.notAfter table.rows)
    (hnew : data.stopPropagation = false)
    (hkeys : forall request, request ∈ requests ->
      (parseInvokeKey request.invokeKey).eventId = data.id)
    (hrun : emitAndResume modules table order data world store requests =
      some t)
    (hallowed : forall call, call ∈ t.calls -> call.Allowed) :
    let u := uninterrupted modules (table.inOrder data.toEventHeader) none data
      world (requests.map ResumeRequest.callback)
    t.calls = u.calls ∧
      (t.store data.id).map EventRow.toEventObject = some u.event ∧
      InSequence (table.inOrder data.toEventHeader) none t.calls
        u.event.toEventBody := by
  rcases emitAndResume_some hrun with ⟨result, hemit, hresumes⟩
  rcases emit_ok hemit with ⟨listeners, hne, hordered, rfl⟩
  have hlisteners := hordered.eq_inOrder hties
  have hrefines := run_refines hties
    (@List.nil_append _ listeners ▸ hordered) hne hnew hresumes hallowed hkeys
  rw [List.nil_append, hlisteners] at hrefines
  refine ⟨hrefines.left, hrefines.right, ?_⟩
  rw [hrefines.left]
  exact uninterrupted_inSequence modules _ none data world _

def petRun (priority : Int) (first second : Database) :
    Option (RunState Unit) :=
  emitAndResume (servicesWith askingFun) (twoListeners priority) first petRequest
    ⟨none, ()⟩ .empty [petReply second]

theorem emitAndResume_refines_uninterrupted_two :
    let t := (petRun 1 .stored .reversed).get rfl
    let u := uninterrupted (servicesWith askingFun)
      ((twoListeners 1).inOrder petRequest.toEventHeader) none petRequest
      ⟨none, ()⟩ ([petReply .reversed].map ResumeRequest.callback)
    t.calls = u.calls ∧
      (t.store petRequest.id).map EventRow.toEventObject = some u.event ∧
      InSequence ((twoListeners 1).inOrder petRequest.toEventHeader) none
        t.calls u.event.toEventBody :=
  emitAndResume_refines_uninterrupted (by decide) rfl (by decide)
    (Option.some_get _).symm (by decide)

end Event
end CallgentApi
