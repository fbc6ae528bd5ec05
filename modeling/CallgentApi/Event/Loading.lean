import CallgentApi.Event.Engine

/-!
# The listeners a run starts from

`emit` runs the live listeners of an event in sorted order.  `resume` sorts
all of them again, the deleted ones included, finds the stored listener by its
id, cuts the list there, and only then leaves the deleted ones out.
-/

namespace CallgentApi
namespace Event

open Js Invoke SortedCut

variable {sigma : Type _}

/-- A sorted order of the live listeners of an event. -/
structure Ordered (table : ListenerTable) (event : EventHeader)
    (listeners : List EventListener) : Prop where
  sorted : listeners.Pairwise EventListener.notAfter
  perm : listeners.Perm (table.subscribers event)

namespace Ordered

variable {table : ListenerTable} {event : EventHeader}
  {listeners : List EventListener}

theorem nodup (h : Ordered table event listeners) : listeners.Nodup :=
  h.perm.nodup_iff.mpr (table.subscribers_nodup event)

theorem mem_iff (h : Ordered table event listeners)
    {listener : EventListener} :
    listener ∈ listeners <-> listener ∈ table.subscribers event :=
  h.perm.mem_iff

end Ordered

theorem mem_subscribers_iff {table : ListenerTable} {event : EventHeader}
    {listener : EventListener} :
    listener ∈ table.subscribers event <->
      listener ∈ table.rows ∧ listener.matchesEvent event = true ∧
        listener.live = true := by
  simp [ListenerTable.subscribers]

theorem filter_findMany (table : ListenerTable) (order : Database)
    (event : EventHeader) (deleted : Bool) :
    ((table.findMany order event deleted).filter fun listener =>
      (listener.eventType == event.eventType || listener.eventType == star) &&
        (listener.dataType == event.dataType || listener.dataType == star)) =
      table.findMany order event deleted := by
  rw [List.filter_eq_self]
  intro listener hmem
  have hrow := (order.arrange_perm _).mem_iff.mp hmem
  have hmatch := (List.mem_filter.mp hrow).right
  simp only [EventListener.matchesEvent, Bool.and_eq_true] at hmatch
  rw [Bool.and_eq_true]
  exact ⟨hmatch.left.left.right, hmatch.left.right⟩

def ListenerTable.sorted (table : ListenerTable) (order : Database)
    (event : EventHeader) (deleted : Bool) : List EventListener :=
  (table.findMany order event deleted).insertionSort EventListener.notAfter

theorem sorted_pairwise (table : ListenerTable) (order : Database)
    (event : EventHeader) (deleted : Bool) :
    (table.sorted order event deleted).Pairwise EventListener.notAfter :=
  List.pairwise_insertionSort _ _

theorem sorted_perm (table : ListenerTable) (order : Database)
    (event : EventHeader) (deleted : Bool) :
    (table.sorted order event deleted).Perm
      (table.rows.filter fun listener =>
        listener.matchesEvent event &&
          (order.shows event deleted || listener.live)) :=
  (List.perm_insertionSort _ _).trans (order.arrange_perm _)

theorem mem_sorted_iff {table : ListenerTable} {order : Database}
    {event : EventHeader} {listener : EventListener} :
    listener ∈ table.sorted order event true <->
      listener ∈ table.rows ∧ listener.matchesEvent event = true ∧
        (order.shows event true = true ∨ listener.live = true) := by
  rw [(sorted_perm table order event true).mem_iff]
  simp

theorem sorted_nodup (table : ListenerTable) (order : Database)
    (event : EventHeader) (deleted : Bool) :
    (table.sorted order event deleted).Nodup :=
  (sorted_perm table order event deleted).nodup_iff.mpr
    (table.rows_nodup.filter _)

theorem loadListeners_eq (table : ListenerTable) (order : Database)
    (event : EventHeader) (deleted : Bool) :
    loadListeners table order event deleted =
      if (table.sorted order event deleted).isEmpty then
        .error (.badRequest ("No listeners found for event: ".toList ++
          event.eventType ++ ':' :: event.dataType))
      else .ok (table.sorted order event deleted) := by
  unfold loadListeners
  rw [filter_findMany]
  rfl

theorem loadListeners_ok {table : ListenerTable} {order : Database}
    {event : EventHeader} {deleted : Bool} {listeners : List EventListener}
    (h : loadListeners table order event deleted = .ok listeners) :
    listeners = table.sorted order event deleted ∧ listeners ≠ [] := by
  rw [loadListeners_eq] at h
  split at h
  · cases h
  · rename_i hne
    have heq := Except.ok.inj h
    refine ⟨heq.symm, ?_⟩
    intro hnil
    rw [heq, hnil] at hne
    exact hne rfl

theorem ordered_of_loadListeners {table : ListenerTable} {order : Database}
    {event : EventHeader} {listeners : List EventListener}
    (h : loadListeners table order event false = .ok listeners) :
    Ordered table event listeners := by
  rw [(loadListeners_ok h).left]
  refine ⟨sorted_pairwise table order event false, ?_⟩
  simpa [ListenerTable.subscribers, order.shows_false] using
    sorted_perm table order event false

theorem resumeListeners_of_mem {table : ListenerTable} {row : EventRow}
    {listener : EventListener} (order : Database)
    (hid : row.listenerId = some listener.id) (hmem : listener ∈ table.rows)
    (hmatch : listener.matchesEvent row.toEventHeader = true)
    (hshown : order.shows row.toEventHeader true = true ∨
      listener.live = true) :
    exists before after,
      table.sorted order row.toEventHeader true =
        before ++ listener :: after ∧
      resumeListeners table order row =
        .ok ((listener :: after).filter EventListener.live) := by
  generalize hall : table.sorted order row.toEventHeader true = all
  have hin : listener ∈ all := hall ▸ mem_sorted_iff.mpr ⟨hmem, hmatch, hshown⟩
  have hload : loadListeners table order row.toEventHeader true = .ok all := by
    have hne : all.isEmpty = false := by
      simpa using List.ne_nil_of_mem hin
    rw [loadListeners_eq, hall, hne]
    rfl
  cases hidx : all.findIdx? (fun l => l.id == listener.id) with
  | none =>
      have hnone := List.findIdx?_eq_none_iff.mp hidx listener hin
      simp at hnone
  | some idx =>
      rcases List.findIdx?_eq_some_iff_getElem.mp hidx with ⟨hlt, hfound, _⟩
      have hsorted :
          all[idx] ∈ table.sorted order row.toEventHeader true := by
        rw [hall]
        exact List.getElem_mem hlt
      have hrows := (mem_sorted_iff.mp hsorted).left
      have hlistener : all[idx] = listener :=
        table.eq_of_id_eq hrows hmem (by simpa using hfound)
      have hdrop : all.drop idx = listener :: all.drop (idx + 1) := by
        rw [← hlistener, List.getElem_cons_drop]
      refine ⟨all.take idx, all.drop (idx + 1), ?_, ?_⟩
      · rw [← hdrop, List.take_append_drop]
      · unfold resumeListeners
        simp only [hload, hid, truthy_some_of_ne_nil listener.id_ne_nil, hidx,
          hdrop]

theorem resumeListeners_of_hidden {table : ListenerTable} {row : EventRow}
    {listener : EventListener} (order : Database)
    (hid : row.listenerId = some listener.id) (hmem : listener ∈ table.rows)
    (hhidden : order.shows row.toEventHeader true = false)
    (hdead : ¬ listener.live = true) :
    exists e, resumeListeners table order row = .error e := by
  unfold resumeListeners
  cases hload : loadListeners table order row.toEventHeader true with
  | error e => exact ⟨e, rfl⟩
  | ok all =>
      have hall := (loadListeners_ok hload).left
      have hnone : all.findIdx? (fun l => l.id == listener.id) = none := by
        rw [List.findIdx?_eq_none_iff]
        intro l hl
        rw [hall, mem_sorted_iff, hhidden] at hl
        rcases hl with ⟨hrow, _, hshown⟩
        apply beq_false_of_ne
        intro heq
        rw [table.eq_of_id_eq hrow hmem heq] at hshown
        exact hdead (hshown.resolve_left Bool.false_ne_true)
      dsimp only
      rw [hid, truthy_some_of_ne_nil listener.id_ne_nil]
      dsimp only
      rw [hnone]
      exact ⟨_, rfl⟩

theorem mem_subscribers_of_resumeListeners {table : ListenerTable}
    {order : Database} {row : EventRow} {listeners : List EventListener}
    (h : resumeListeners table order row = .ok listeners)
    {listener : EventListener} (hmem : listener ∈ listeners) :
    listener ∈ table.subscribers row.toEventHeader := by
  unfold resumeListeners at h
  cases hload : loadListeners table order row.toEventHeader true with
  | error e =>
      rw [hload] at h
      cases h
  | ok all =>
      have hall := (loadListeners_ok hload).left
      have hsub : listener ∈ all ∧ listener.live = true := by
        rw [hload] at h
        dsimp only at h
        split at h
        · rw [← Except.ok.inj h] at hmem
          exact List.mem_filter.mp hmem
        · split at h
          · cases h
          · rw [← Except.ok.inj h] at hmem
            rcases List.mem_filter.mp hmem with ⟨hdrop, hlive⟩
            exact ⟨List.mem_of_mem_drop hdrop, hlive⟩
      rw [hall] at hsub
      rcases mem_sorted_iff.mp hsub.left with ⟨hrows, hmatch, _⟩
      exact mem_subscribers_iff.mpr ⟨hrows, hmatch, hsub.right⟩

/-- While the stored listener is live, `resume` runs the live listeners from it
on, in an order of its own. -/
theorem ordered_of_resumeListeners {table : ListenerTable} {order : Database}
    {row : EventRow} {listener : EventListener}
    {listeners : List EventListener}
    (h : resumeListeners table order row = .ok listeners)
    (hid : row.listenerId = some listener.id)
    (hmem : listener ∈ table.subscribers row.toEventHeader) :
    exists before after,
      Ordered table row.toEventHeader (before ++ listener :: after) ∧
      listeners = listener :: after := by
  rcases mem_subscribers_iff.mp hmem with ⟨hrows, hmatch, hlive⟩
  rcases resumeListeners_of_mem order hid hrows hmatch (Or.inr hlive) with
    ⟨before, after, hsplit, hok⟩
  have hsorted := sorted_pairwise table order row.toEventHeader true
  have hperm := sorted_perm table order row.toEventHeader true
  rw [hsplit] at hsorted hperm
  have hlisteners := Except.ok.inj (h.symm.trans hok)
  have hfilter : (before ++ listener :: after).filter EventListener.live =
      before.filter EventListener.live ++
        listener :: after.filter EventListener.live := by
    simp [hlive]
  refine ⟨before.filter EventListener.live, after.filter EventListener.live,
    ⟨?_, ?_⟩, ?_⟩
  · rw [← hfilter]
    exact hsorted.filter _
  · rw [← hfilter]
    have hlivePerm := hperm.filter EventListener.live
    rw [List.filter_filter] at hlivePerm
    have hlive : forall l : EventListener,
        (l.live && (l.matchesEvent row.toEventHeader &&
          (order.shows row.toEventHeader true || l.live))) =
            (l.matchesEvent row.toEventHeader && l.live) := by
      intro l
      cases l.live with
      | true => simp
      | false => simp
    simpa only [ListenerTable.subscribers, hlive] using hlivePerm
  · rw [hlisteners, List.filter_cons, if_pos hlive]

end Event
end CallgentApi
