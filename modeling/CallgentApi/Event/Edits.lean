import CallgentApi.Event.Settled

/-!
# Resuming after the table was edited

Listeners may be added and deleted while an event is pending.  `resume` looks
for the stored listener among the deleted ones as well, and leaves these out
only after it has cut the list.  Whether it finds them is up to the middleware
for soft deletion: it may leave them out of the query.
-/

namespace CallgentApi
namespace Event

open Js Invoke SortedCut

variable {sigma : Type _}

inductive TableEdit where
  | add (data : CreateEventListener) (id : Text) (hid : id ≠ [])
  | remove (where_ : UpdateEventListener) (now : Nat)

section

theorem lawfulBEq_text : LawfulBEq Text := inferInstance

attribute [local instance] lawfulBEq_text

/-- An edit; a row whose id is taken is refused by the database. -/
def TableEdit.apply (table : ListenerTable) : TableEdit -> ListenerTable
  | .add data id hid =>
      if hfresh : id ∈ table.rows.map EventListener.id then table
      else table.addListener data id hid hfresh
  | .remove where_ now => table.removeListener where_ now

end

def ListenerTable.edit (table : ListenerTable) (edits : List TableEdit) :
    ListenerTable :=
  edits.foldl TableEdit.apply table

def ListenerTable.IsLive (table : ListenerTable) (id : Text) : Prop :=
  exists listener, listener ∈ table.rows ∧ listener.id = id ∧
    listener.live = true

theorem exists_mem_apply {table : ListenerTable} {listener : EventListener}
    (hmem : listener ∈ table.rows) (edit : TableEdit) :
    exists time, { listener with deletedAt := time } ∈
      (edit.apply table).rows := by
  cases edit with
  | add data id hid =>
      refine ⟨listener.deletedAt, ?_⟩
      by_cases hfresh : id ∈ table.rows.map EventListener.id
      · have happly : (TableEdit.add data id hid).apply table = table :=
          dif_pos hfresh
        rw [happly]
        exact hmem
      · have happly : (TableEdit.add data id hid).apply table =
            table.addListener data id hid hfresh := dif_neg hfresh
        rw [happly]
        exact List.mem_append_left _ hmem
  | remove where_ now =>
      by_cases hselected : (listener.live && where_.selects listener) = true
      · exact ⟨now, List.mem_map.mpr ⟨listener, hmem, if_pos hselected⟩⟩
      · exact ⟨listener.deletedAt,
          List.mem_map.mpr ⟨listener, hmem, if_neg hselected⟩⟩

theorem exists_mem_edit {table : ListenerTable} {listener : EventListener}
    (hmem : listener ∈ table.rows) (edits : List TableEdit) :
    exists time, { listener with deletedAt := time } ∈
      (table.edit edits).rows := by
  induction edits generalizing table listener with
  | nil => exact ⟨listener.deletedAt, hmem⟩
  | cons edit rest ih =>
      rcases exists_mem_apply hmem edit with ⟨time, hstep⟩
      rcases ih hstep with ⟨time', hrest⟩
      exact ⟨time', hrest⟩

def Database.leading (db : Database) (id : Text) : Database :=
  { db with
    arrange := fun rows =>
      rows.filter (fun l => l.id == id) ++ rows.filter (fun l => !(l.id == id))
    arrange_perm := fun rows => List.filter_append_perm _ rows }

theorem leading_sublist {first other : EventListener} (db : Database)
    (rows : List EventListener) (hfirst : first ∈ rows) (hother : other ∈ rows)
    (hne : other.id ≠ first.id) :
    List.Sublist [first, other] ((db.leading first.id).arrange rows) := by
  have hhead : List.Sublist [first]
      (rows.filter fun l => l.id == first.id) :=
    List.singleton_sublist.mpr (List.mem_filter.mpr ⟨hfirst, by simp⟩)
  have htail : List.Sublist [other]
      (rows.filter fun l => !(l.id == first.id)) :=
    List.singleton_sublist.mpr (List.mem_filter.mpr ⟨hother, by simp [hne]⟩)
  exact hhead.append htail

theorem mem_rows_filter {table : ListenerTable} {event : EventHeader}
    {db : Database} {listener : EventListener} (hmem : listener ∈ table.rows)
    (hmatch : listener.matchesEvent event = true)
    (hshows : db.shows event true = true) :
    listener ∈ table.rows.filter fun l =>
      l.matchesEvent event && (db.shows event true || l.live) :=
  List.mem_filter.mpr ⟨hmem, by simp [hmatch, hshows]⟩

/-- A resume hands the stored function to the pending listener only, starts
the others by their own function, and is refused when that listener is gone. -/
structure ResumesOnly (table : ListenerTable) (id f : Text)
    (outcome : Except Thrown (RunResult sigma)) : Prop where
  own : forall result, outcome = .ok result ->
    forall call, call ∈ result.calls ->
      call.funName = none ∨ (call.funName = some f ∧ call.listener.id = id)
  gone : ¬ table.IsLive id -> exists e, outcome = .error e

/-- The event is stored as pending on the listener, with a registered
invocation that the invoke key names. -/
structure PendingOn (store : EventStore) (invokeKey : Text)
    (listener : EventListener) (f : Text) (row : EventRow) : Prop where
  found : store (parseInvokeKey invokeKey).eventId = some row
  pending : row.statusCode = some 2
  funName_eq : row.funName = some f
  funName_ne_nil : f ≠ []
  listenerId_eq : row.listenerId = some listener.id
  matches_event : listener.matchesEvent row.toEventHeader = true
  registered : exists invocation,
    row.context.invocations.entries (parseInvokeKey invokeKey).invokeId =
      some invocation

theorem pendingOn_of_shape {table : ListenerTable}
    {listeners : List EventListener} {event : EventObject}
    {funName : Option Text} {store : EventStore} {result : RunResult sigma}
    {passed : List Call} {last : Call} {after : List EventListener}
    {f invokeKey : Text}
    (h : RunShape listeners event funName store result passed last after)
    (hlisteners : forall l, l ∈ listeners ->
      l ∈ table.subscribers event.toEventHeader)
    (hasked : last.ending = .returned (some f))
    (hkey : (parseInvokeKey invokeKey).eventId = event.id)
    (hregistered : exists invocation,
      last.body.context.invocations.entries
        (parseInvokeKey invokeKey).invokeId = some invocation) :
    PendingOn result.store invokeKey last.listener f
        (last.pendingRow event f) ∧
      last.listener ∈ table.rows := by
  have hmem := hlisteners last.listener (by rw [h.listeners_eq]; simp)
  rcases mem_subscribers_iff.mp hmem with ⟨hrows, hmatch, _⟩
  have hbody : last.finalBody.context = last.body.context := by
    simp [Call.finalBody, hasked]
  refine ⟨⟨hkey ▸ h.row_of_asked hasked, ?_, rfl, h.asked_ne_nil f hasked, rfl,
    hmatch, ?_⟩, hrows⟩
  · simp [Call.pendingRow, EventObject.withBody, Call.finalStatus, hasked]
  · simpa [Call.pendingRow, EventObject.withBody, hbody] using hregistered

variable {modules : ModuleRef sigma} {table : ListenerTable}
  {store : EventStore} {invokeKey f : Text} {listener : EventListener}
  {row : EventRow}

theorem resume_pending (h : PendingOn store invokeKey listener f row)
    (order : Database) (response : Value) (world : World sigma)
    {listeners : List EventListener}
    (hloaded : resumeListeners table order row = .ok listeners) :
    (listeners = [] ->
      exists e, resume modules table order invokeKey response world store =
        .error e) ∧
    (listeners ≠ [] ->
      exists event,
        resume modules table order invokeKey response world store =
          .ok (invokeListeners modules listeners event (some f)
            (world.setInvokeId (parseInvokeKey invokeKey).invokeId)
            store)) := by
  rcases h.registered with ⟨invocation, hentry⟩
  have hcallback : setCallbackResponse (parseInvokeKey invokeKey).invokeId
      response row.toEventObject =
        .ok (row.toEventObject.withInvocations
          (row.context.invocations.set (parseInvokeKey invokeKey).invokeId
            { invocation with response := response })) := by
    simp only [setCallbackResponse, hentry]
  constructor
  · intro hnil
    cases hresume : resume modules table order invokeKey response world
        store with
    | error e => exact ⟨e, rfl⟩
    | ok result =>
        rcases resume_ok hresume with ⟨row', event, listeners', hresumed⟩
        have hrow : row' = row :=
          Option.some.inj (hresumed.found.symm.trans h.found)
        have hlisteners : listeners' = listeners :=
          Except.ok.inj ((hrow ▸ hresumed.loaded).symm.trans hloaded)
        exact absurd (hlisteners.trans hnil) hresumed.listeners_ne_nil
  · intro hne
    have hresume := resume_of_resumed
      (⟨h.found, h.pending, hcallback, hloaded, hne, rfl⟩ :
        Resumed modules table order invokeKey response world store _ row _
          listeners)
    rw [h.funName_eq] at hresume
    exact ⟨_, hresume⟩

theorem invokeListeners_funName {listener : EventListener}
    {rest : List EventListener} {event : EventObject} {world : World sigma}
    {call : Call} (hf : f ≠ [])
    (hcall : call ∈ (invokeListeners modules (listener :: rest) event (some f)
      world store).calls) :
    call.funName = none ∨
      (call.funName = some f ∧ call.listener = listener) := by
  cases hstop : event.stopPropagation with
  | true =>
      rw [(invokeListeners_stopped modules (some f) world store
        (List.cons_ne_nil listener rest) hstop).left] at hcall
      cases hcall
  | false =>
      rcases invokeListeners_shape modules (some f) world store
        (List.cons_ne_nil listener rest) hstop with
        ⟨passed, last, after, hshape⟩
      rcases hshape.head_call with ⟨first, calls, hcalls, hfirst, hname, hnone⟩
      rw [hcalls] at hcall
      cases hcall with
      | head tail =>
          right
          rw [truthy_some_of_ne_nil hf] at hname
          exact ⟨hname, hfirst⟩
      | tail head htail =>
          left
          exact hnone call htail

theorem PendingOn.deleted (h : PendingOn store invokeKey listener f row)
    (time : Nat) :
    PendingOn store invokeKey { listener with deletedAt := time } f row where
  found := h.found
  pending := h.pending
  funName_eq := h.funName_eq
  funName_ne_nil := h.funName_ne_nil
  listenerId_eq := h.listenerId_eq
  matches_event := h.matches_event
  registered := h.registered

theorem isLive_iff (hmem : listener ∈ table.rows) :
    table.IsLive listener.id <-> listener.live = true := by
  constructor
  · rintro ⟨other, hother, hid, hlive⟩
    exact table.eq_of_id_eq hother hmem hid ▸ hlive
  · intro hlive
    exact ⟨listener, hmem, rfl, hlive⟩

theorem resumesOnly_of_live (hmem : listener ∈ table.rows)
    (hpending : PendingOn store invokeKey listener f row)
    (hlive : listener.live = true) (order : Database) (response : Value)
    (world : World sigma) :
    ResumesOnly table listener.id f
      (resume modules table order invokeKey response world store) := by
  rcases resumeListeners_of_mem order hpending.listenerId_eq hmem
    hpending.matches_event (Or.inr hlive) with ⟨before, after, _, hloaded⟩
  rw [List.filter_cons, if_pos hlive] at hloaded
  rcases (@resume_pending sigma modules table store invokeKey f listener row
    hpending order response world _ hloaded).right (List.cons_ne_nil _ _) with
    ⟨event, hresume⟩
  constructor
  · intro result hok call hcall
    rw [hresume] at hok
    rw [← Except.ok.inj hok] at hcall
    rcases invokeListeners_funName hpending.funName_ne_nil hcall with
      hnone | ⟨hcalled, hcalledOn⟩
    · exact Or.inl hnone
    · exact Or.inr ⟨hcalled, by rw [hcalledOn]⟩
  · intro hgone
    exact absurd ((isLive_iff hmem).mpr hlive) hgone

theorem resume_refused_of_error
    (hpending : PendingOn store invokeKey listener f row) {order : Database}
    (hloaded : exists e, resumeListeners table order row = .error e)
    (response : Value) (world : World sigma) :
    exists e, resume modules table order invokeKey response world store =
      .error e := by
  rcases hloaded with ⟨e, hloaded⟩
  cases hresume : resume modules table order invokeKey response world store with
  | error e => exact ⟨e, rfl⟩
  | ok result =>
      rcases resume_ok hresume with ⟨row', event, listeners, hresumed⟩
      have hrow : row' = row :=
        Option.some.inj (hresumed.found.symm.trans hpending.found)
      cases (hrow ▸ hresumed.loaded).symm.trans hloaded

theorem resume_refused_of_behind (hmem : listener ∈ table.rows)
    (hpending : PendingOn store invokeKey listener f row)
    (hdead : ¬ listener.live = true)
    (hbehind : forall other, other ∈ table.subscribers row.toEventHeader ->
      ¬ listener.notAfter other)
    {order : Database}
    (hshows : order.shows row.toEventHeader true = true)
    (response : Value) (world : World sigma) :
    exists e, resume modules table order invokeKey response world store =
      .error e := by
  rcases resumeListeners_of_mem order hpending.listenerId_eq hmem
    hpending.matches_event (Or.inl hshows) with
    ⟨before, after, hsplit, hloaded⟩
  have hsorted := sorted_pairwise table order row.toEventHeader true
  rw [hsplit, List.pairwise_append] at hsorted
  apply (@resume_pending sigma modules table store invokeKey f listener row
    hpending order response world _ hloaded).left
  rw [List.filter_eq_nil_iff]
  intro other hother hlive
  have hsubscriber := mem_subscribers_of_resumeListeners hloaded
    (List.mem_filter.mpr ⟨hother, hlive⟩)
  rcases List.mem_cons.mp hother with heq | hafter
  · exact hdead (heq ▸ hlive)
  · have hle := (List.pairwise_cons.mp hsorted.right.left).left other hafter
    exact hbehind other hsubscriber hle

theorem resume_handed_over (hmem : listener ∈ table.rows)
    (hpending : PendingOn store invokeKey listener f row)
    (hdead : ¬ listener.live = true) {other : EventListener}
    (hother : other ∈ table.subscribers row.toEventHeader)
    (hle : listener.notAfter other) {db : Database}
    (hshows : db.shows row.toEventHeader true = true) (response : Value)
    (world : World sigma) :
    exists result, resume modules table (db.leading listener.id) invokeKey
      response world store = .ok result := by
  rcases mem_subscribers_iff.mp hother with ⟨hotherIn, hotherMatch, hlive⟩
  have hne : other.id ≠ listener.id := by
    intro hid
    exact hdead (table.eq_of_id_eq hotherIn hmem hid ▸ hlive)
  rcases resumeListeners_of_mem (db.leading listener.id)
    hpending.listenerId_eq hmem hpending.matches_event (Or.inl hshows) with
    ⟨before, after, hsplit, hloaded⟩
  have hafter : other ∈ after := by
    have hsub : List.Sublist [listener, other]
        (table.sorted (db.leading listener.id) row.toEventHeader true) :=
      List.sublist_insertionSort (by simpa using hle)
        (leading_sublist db _
          (mem_rows_filter hmem hpending.matches_event hshows)
          (mem_rows_filter hotherIn hotherMatch hshows) hne)
    have hnodup := sorted_nodup table (db.leading listener.id)
      row.toEventHeader true
    rw [hsplit] at hsub hnodup
    exact mem_after_of_sublist hnodup hsub
  have hlisteners : (listener :: after).filter EventListener.live ≠ [] :=
    List.ne_nil_of_mem
      (List.mem_filter.mpr ⟨List.mem_cons_of_mem listener hafter, hlive⟩)
  rcases (@resume_pending sigma modules table store invokeKey f listener row
    hpending (db.leading listener.id) response world _ hloaded).right
    hlisteners with ⟨event, hresume⟩
  exact ⟨_, hresume⟩

theorem resumesOnly_iff (hmem : listener ∈ table.rows)
    (hpending : PendingOn store invokeKey listener f row)
    (edits : List TableEdit) (world : World sigma) (db : Database) :
    (forall order response, order.overrides = db.overrides ->
      ResumesOnly (table.edit edits) listener.id f
        (resume modules (table.edit edits) order invokeKey response world
          store)) <->
      db.shows row.toEventHeader true = false ∨
        (table.edit edits).IsLive listener.id ∨
        forall other,
          other ∈ (table.edit edits).subscribers row.toEventHeader ->
            ¬ listener.notAfter other := by
  -- the row of the listener is still there, up to the time of its deletion
  rcases exists_mem_edit hmem edits with ⟨time, hin⟩
  have hkept := hpending.deleted time
  have hlive := isLive_iff hin
  have hrefused : forall order : Database, forall response,
      ((exists e, resume modules (table.edit edits) order invokeKey response
        world store = .error e) ->
      ResumesOnly (table.edit edits) listener.id f
        (resume modules (table.edit edits) order invokeKey response world
          store)) := by
    rintro order response ⟨e, herror⟩
    refine ⟨?_, fun _ => ⟨e, herror⟩⟩
    intro result hok
    cases herror.symm.trans hok
  constructor
  · intro honly
    by_contra hcond
    simp only [not_or, Bool.not_eq_false] at hcond
    rcases hcond with ⟨hshows, hgone, hlater⟩
    simp only [not_forall, not_not] at hlater
    rcases hlater with ⟨other, hother, hle⟩
    rcases @resume_handed_over sigma modules _ store invokeKey f _ row hin hkept
      (fun hdead => hgone (hlive.mpr hdead)) other hother hle db hshows none
      world with ⟨result, hresume⟩
    rcases (honly (db.leading listener.id) none rfl).gone hgone with ⟨e, herror⟩
    cases hresume.symm.trans herror
  · intro hcond order response hsame
    have hshown : order.shows row.toEventHeader true =
        db.shows row.toEventHeader true :=
      congrFun hsame _
    by_cases hlives : (table.edit edits).IsLive listener.id
    · exact resumesOnly_of_live hin hkept (hlive.mp hlives) order response
        world
    · have hdead := fun hdead => hlives (hlive.mpr hdead)
      apply hrefused
      cases hshows : db.shows row.toEventHeader true with
      | false =>
          exact resume_refused_of_error hkept
            (resumeListeners_of_hidden order hkept.listenerId_eq hin
              (hshown.trans hshows) hdead) response world
      | true =>
          rw [hshows] at hcond
          exact resume_refused_of_behind hin hkept hdead
            ((hcond.resolve_left Bool.noConfusion).resolve_left hlives)
            (hshown.trans hshows) response world

/-- Where only a `where` with its own `deletedAt` overrides the middleware, a
resume hands the stored function to the listener that has left it only, and is
refused when that listener is gone, whatever has been edited. -/
theorem resumesOnly_of_overriddenAtTop (hmem : listener ∈ table.rows)
    (hpending : PendingOn store invokeKey listener f row)
    (edits : List TableEdit) {order : Database} (htop : order.OverriddenAtTop)
    (response : Value) (world : World sigma) :
    ResumesOnly (table.edit edits) listener.id f
      (resume modules (table.edit edits) order invokeKey response world
        store) :=
  (resumesOnly_iff hmem hpending edits world order).mpr
    (Or.inl (htop _ rfl)) order response rfl

/-- The store after `petRequest` was left pending on the first listener. -/
def petStore : EventStore :=
  ((emit (servicesWith askingFun) (twoListeners 1) .stored petRequest
    ⟨none, ()⟩ .empty).toOption.map RunResult.store).getD .empty

def petRow : EventRow :=
  (petStore petRequest.id).get rfl

theorem petRow_pendingOn :
    PendingOn petStore "-e1".toList askingListener "go".toList petRow where
  found := (Option.some_get _).symm
  pending := rfl
  funName_eq := rfl
  funName_ne_nil := by decide
  listenerId_eq := rfl
  matches_event := by decide
  registered := ⟨directStatus, rfl⟩

def removeAsking : TableEdit :=
  .remove
    { srcId := none, eventType := none, dataType := none, priority := none
      serviceType := none, serviceName := some "asking".toList
      funName := none } 5

/-- The rows as they are stored, where only a `deletedAt` of the `where` itself
overrides. -/
def topOnly : Database :=
  { Database.stored with
    overrides := ListenerWhere.deletedAt
    overrides_plain := fun _ => rfl }

theorem resumesOnly_removeAsking :
    ResumesOnly ((twoListeners 1).edit [removeAsking]) askingListener.id
      "go".toList
      (resume (servicesWith askingFun) ((twoListeners 1).edit [removeAsking])
        topOnly "-e1".toList none ⟨none, ()⟩ petStore) :=
  resumesOnly_of_overriddenAtTop (by decide) petRow_pendingOn [removeAsking]
    (fun _ h => h) none ⟨none, ()⟩

theorem removed_listener_handed_over :
    exists result,
      resume (servicesWith askingFun) ((twoListeners 1).edit [removeAsking])
          .stored "-e1".toList none ⟨none, ()⟩ petStore = .ok result ∧
        result.calls.map Call.target =
          [(quietListener 1, "go".toList)] ∧
        ¬ ResumesOnly ((twoListeners 1).edit [removeAsking])
          askingListener.id "go".toList
          (resume (servicesWith askingFun)
            ((twoListeners 1).edit [removeAsking]) .stored "-e1".toList none
            ⟨none, ()⟩ petStore) := by
  have hdeleted : forall l, l ∈ ((twoListeners 1).edit [removeAsking]).rows ->
      l.id = askingListener.id -> l.live = false := by decide
  have hgone : ¬ ((twoListeners 1).edit [removeAsking]).IsLive
      askingListener.id := by
    rintro ⟨l, hl, hid, hlive⟩
    rw [hdeleted l hl hid] at hlive
    cases hlive
  refine ⟨_, rfl, by decide, ?_⟩
  intro honly
  rcases honly.gone hgone with ⟨e, herror⟩
  cases herror

end Event
end CallgentApi
