import CallgentApi.Event.Resumption

/-!
# Each listener is started once

The order of listeners with equal sort keys is up to the database, anew for
each query.  A resume continues behind the pending listener in an order of its
own, so it starts what the runs before it have left only if that listener
shares its sort key with no other.
-/

namespace CallgentApi
namespace Event

open Js Invoke Transition SortedCut

variable {sigma : Type _}

def Call.Smooth (call : Call) : Prop :=
  match call.ending with
  | .returned _ => call.body.stopPropagation = false
  | .threw _ => False

theorem Call.smooth_iff_of_returned {call : Call}
    {resumeFunName : Option Text}
    (h : call.ending = .returned resumeFunName) :
    call.body.stopPropagation = false <-> call.Smooth := by
  unfold Call.Smooth
  rw [h]

theorem Call.not_smooth_of_threw {call : Call} {e : Thrown}
    (h : call.ending = .threw e) : ¬ call.Smooth := by
  unfold Call.Smooth
  rw [h]
  exact id

instance (call : Call) : Decidable call.Smooth :=
  match h : call.ending with
  | .returned _ => decidable_of_iff _ (Call.smooth_iff_of_returned h)
  | .threw _ => isFalse (Call.not_smooth_of_threw h)

theorem Call.Smooth.returned {call : Call} (h : call.Smooth) :
    (exists resumeFunName, call.ending = .returned resumeFunName) ∧
      call.body.stopPropagation = false := by
  unfold Call.Smooth at h
  cases hending : call.ending with
  | returned resumeFunName =>
      rw [hending] at h
      exact ⟨⟨resumeFunName, rfl⟩, h⟩
  | threw e =>
      rw [hending] at h
      exact h.elim

/-- The stored listener of the resumed event shares its sort key with no other
live listener of the event. -/
def PendingUntied (table : ListenerTable) (s : RunState sigma)
    (request : ResumeRequest sigma) : Prop :=
  forall row,
    s.store (parseInvokeKey request.invokeKey).eventId = some row ->
    forall listener, listener ∈ table.subscribers row.toEventHeader ->
      row.listenerId = some listener.id ->
      Untied EventListener.notAfter listener
        (table.subscribers row.toEventHeader)

theorem RunShape.started_of_done {listeners : List EventListener}
    {event : EventObject} {funName : Option Text} {store : EventStore}
    {result : RunResult sigma} {passed : List Call} {last : Call}
    {after : List EventListener}
    (h : RunShape listeners event funName store result passed last after)
    (hbody : last.body.stopPropagation = false)
    (hdone : (result.store event.id).bind (fun row => row.statusCode) =
      some 0) :
    started result.calls = toStart listeners funName := by
  rcases h.row with ⟨row, hrow, hevent⟩
  have hreturned : last.ending = .returned none := by
    rw [← Call.finalStatus_eq_zero_iff]
    simp only [hrow, Option.bind_some, hevent] at hdone
    simpa [EventObject.withBody] using hdone
  have hafter : after = [] :=
    (h.returned_none hreturned).resolve_left (by simp [hbody])
  have hstarted := h.started_append_after
  rw [hafter, List.append_nil] at hstarted
  exact hstarted

theorem after_perm_of_untied {table : ListenerTable} {event : EventHeader}
    {listener : EventListener} {before after before' after' :
      List EventListener}
    (hordered : Ordered table event (before ++ listener :: after))
    (hordered' : Ordered table event (before' ++ listener :: after'))
    (huntied : Untied EventListener.notAfter listener
      (table.subscribers event)) : after.Perm after' :=
  after_perm_after hordered.sorted hordered'.sorted hordered.nodup
    (huntied.of_perm hordered.perm.symm)
    (hordered.perm.trans hordered'.perm.symm)

theorem run_started {modules : ModuleRef sigma} {table : ListenerTable}
    {requests : List (ResumeRequest sigma)}
    {before listeners : List EventListener} {event : EventObject}
    {funName : Option Text} {world : World sigma} {store : EventStore}
    {calls : List Call} {t : RunState sigma}
    (hordered : Ordered table event.toEventHeader (before ++ listeners))
    (hne : listeners ≠ []) (hstop : event.stopPropagation = false)
    (hstart : (started calls ++ toStart listeners funName).Perm
      (table.subscribers event.toEventHeader))
    (hmeets : StepsMeet (resumeStep modules table) (PendingUntied table)
      (.after calls
        (invokeListeners modules listeners event funName world store))
      requests)
    (hrun : run (resumeStep modules table)
      (.after calls
        (invokeListeners modules listeners event funName world store))
      requests = some t)
    (hsmooth : forall call, call ∈ t.calls -> call.Smooth)
    (hkeys : forall request, request ∈ requests ->
      (parseInvokeKey request.invokeKey).eventId = event.id)
    (hdone : (t.store event.id).bind (fun row => row.statusCode) = some 0) :
    (started t.calls).Perm (table.subscribers event.toEventHeader) := by
  induction requests generalizing before listeners event funName world store
      calls with
  | nil =>
      have ht := Option.some.inj hrun
      subst ht
      rcases invokeListeners_shape modules funName world store hne hstop with
        ⟨passed, last, after, hshape⟩
      have hlast : last ∈ calls ++ (invokeListeners modules listeners event
          funName world store).calls := by
        rw [hshape.calls_eq]
        simp
      have hbody := (hsmooth last hlast).returned.right
      rw [RunState.after, started_append, hshape.started_of_done hbody hdone]
      exact hstart
  | cons request rest ih =>
      rcases run_cons_some hrun with ⟨s', hstep, hrest⟩
      rcases resumeStep_some hstep with ⟨result', hresume, rfl⟩
      have hhead := run_calls_prefix hrest
      rcases invokeListeners_shape modules funName world store hne hstop with
        ⟨passed, last, after, hshape⟩
      have hlast : last ∈ t.calls := by
        apply hhead.mem
        simp [RunState.after, hshape.calls_eq]
      rcases (hsmooth last hlast).returned with ⟨hreturned, hbody⟩
      have hkey := hkeys request List.mem_cons_self
      rcases resume_after_run hshape hreturned hkey hresume with
        ⟨f, listeners', hending, _, hloaded, rfl⟩
      have hmem : last.listener ∈ table.subscribers event.toEventHeader := by
        rw [← hordered.mem_iff, hshape.listeners_eq]
        simp
      rcases ordered_of_resumeListeners hloaded rfl hmem with
        ⟨before', after', hordered', rfl⟩
      have huntied : Untied EventListener.notAfter last.listener
          (table.subscribers event.toEventHeader) := by
        have hrow := hshape.row_of_asked hending
        rw [← hkey] at hrow
        exact hmeets.left _ hrow last.listener hmem rfl
      have hsplit : before ++ listeners =
          (before ++ passed.map Call.listener) ++ last.listener :: after := by
        rw [hshape.listeners_eq, List.append_assoc]
      rw [hsplit] at hordered
      have hafter : after.Perm after' :=
        after_perm_of_untied hordered hordered' huntied
      have htail : toStart (last.listener :: after') (some f) = after' := by
        simp [toStart, truthy_some_of_ne_nil (hshape.asked_ne_nil f hending)]
      have hstart' : (started (calls ++ (invokeListeners modules listeners
          event funName world store).calls) ++
            toStart (last.listener :: after') (some f)).Perm
              (table.subscribers event.toEventHeader) := by
        rw [htail, started_append, List.append_assoc]
        refine List.Perm.trans ?_ hstart
        rw [← hshape.started_append_after]
        exact ((hafter.symm.append_left _).append_left _)
      have hheader : (request.callback.event
          (event.withBody last.finalBody)).toEventHeader =
            event.toEventHeader :=
        Callback.event_toEventHeader _ _
      have hstop' : (request.callback.event
          (event.withBody last.finalBody)).stopPropagation = false := by
        simpa [EventObject.withBody] using hbody
      have hid := congrArg EventHeader.id hheader
      have hstarted := @ih before' (last.listener :: after')
        (request.callback.event (event.withBody last.finalBody)) (some f) _ _ _
        (by rw [hheader]; exact hordered') (List.cons_ne_nil _ _) hstop'
        (by rw [hheader]; exact hstart') (hmeets.right _ hstep) hrest
        (fun other hother => by
          rw [hid]
          exact hkeys other (List.mem_cons_of_mem request hother))
        (by rw [hid]; exact hdone)
      rw [hheader] at hstarted
      exact hstarted

theorem pendingUntied_of_noTies {table : ListenerTable}
    (hties : NoTies EventListener.notAfter table.rows) (s : RunState sigma)
    (request : ResumeRequest sigma) : PendingUntied table s request := by
  intro row _ listener hlistener _ other hother hle hge
  exact hties other (mem_subscribers_iff.mp hother).left
    listener (mem_subscribers_iff.mp hlistener).left hge hle

/-- When no pending listener shares its sort key with another live listener
of the event, a run that ends done has started each listener exactly once,
whatever order the database returns the rows in. -/
theorem each_listener_started_once {modules : ModuleRef sigma}
    {table : ListenerTable} {order : Database} {data : EventObject}
    {world : World sigma} {store : EventStore}
    {requests : List (ResumeRequest sigma)} {t : RunState sigma}
    (hnew : data.stopPropagation = false)
    (hkeys : forall request, request ∈ requests ->
      (parseInvokeKey request.invokeKey).eventId = data.id)
    (hmeets : forall result,
      emit modules table order data world store = .ok result ->
        StepsMeet (resumeStep modules table) (PendingUntied table)
          (.after [] result) requests)
    (hrun : emitAndResume modules table order data world store requests =
      some t)
    (hsmooth : forall call, call ∈ t.calls -> call.Smooth)
    (hdone : (t.store data.id).bind (fun row => row.statusCode) = some 0) :
    (started t.calls).Perm (table.subscribers data.toEventHeader) := by
  rcases emitAndResume_some hrun with ⟨result, hemit, hresumes⟩
  have hmeets := hmeets result hemit
  rcases emit_ok hemit with ⟨listeners, hne, hordered, rfl⟩
  have hordered' : Ordered table data.toEventHeader ([] ++ listeners) :=
    hordered
  have hstart : (started [] ++ toStart listeners none).Perm
      (table.subscribers data.toEventHeader) := by
    simpa [started, toStart] using hordered.perm
  exact run_started hordered' hne hnew hstart hmeets hresumes hsmooth hkeys
    hdone

theorem each_listener_started_once_two :
    let t := (emitAndResume (servicesWith askingFun) (twoListeners 1) .stored
      petRequest ⟨none, ()⟩ .empty [petReply .reversed]).get rfl
    (started t.calls).Perm
      ((twoListeners 1).subscribers petRequest.toEventHeader) := by
  have hties : NoTies EventListener.notAfter (twoListeners 1).rows := by
    decide
  exact each_listener_started_once rfl (by decide)
    (fun _ _ => stepsMeet_of_forall
      (fun s request _ => pendingUntied_of_noTies hties s request) _)
    (Option.some_get _).symm (by decide) rfl

/-- With equal sort keys and a resume that reads the rows in the other order,
the second listener is never started. -/
theorem tied_listener_skipped :
    exists result t,
      emit (servicesWith askingFun) (twoListeners 0) .stored petRequest
          ⟨none, ()⟩ .empty = .ok result ∧
        run (resumeStep (servicesWith askingFun) (twoListeners 0))
          (.after [] result) [petReply .reversed] = some t ∧
        (forall call, call ∈ t.calls -> call.Smooth) ∧
        (t.store petRequest.id).bind (fun row => row.statusCode) = some 0 ∧
        quietListener 0 ∈
          (twoListeners 0).subscribers petRequest.toEventHeader ∧
        quietListener 0 ∉ started t.calls := by
  refine ⟨_, _, rfl, rfl, by decide, rfl, by decide, by decide⟩

end Event
end CallgentApi
