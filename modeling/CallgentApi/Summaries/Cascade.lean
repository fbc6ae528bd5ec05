import CallgentApi.Lib.Fallible
import CallgentApi.Summaries.Listeners

/-!
# How far a change goes

An event of endpoints has the model asked four times at most, and comes to an
end.  What the listeners change is summaries, and every summary of an entry
that has changed has been told to the listener of its callgent.
-/

namespace CallgentApi
namespace Summaries

open Js Event Cached Hub

/-! ## What is left to do -/

section Stage

variable {info new old : Type}

/-- The parts of `handleEvent` that are left. -/
def Stage.work : Stage info new old -> Nat
  | .queued _ => 5
  | .loaded _ => 4
  | .answered _ _ => 3
  | .listed _ _ => 2
  | .concluding _ _ => 1

/-- The questions to the model that may be left. -/
def Stage.questions : Stage info new old -> Nat
  | .queued _ => 2
  | .loaded _ => 2
  | .answered _ _ => 1
  | .listed _ _ => 1
  | .concluding _ _ => 0

/-- A part of `handleEvent` leaves less to do, and only its end tells of an
entry. -/
structure Advance.Spends (a : Advance info new old)
    (stage : Stage info new old) : Prop where
  work : (a.stage.map Stage.work).getD 0 + 1 ≤ stage.work
  questions : (a.stage.map Stage.questions).getD 0 + a.asked.toList.length ≤
    stage.questions
  emitted : a.emitted ≠ none -> a.stage = none

theorem Stage.one_le_work (stage : Stage info new old) : 1 ≤ stage.work := by
  cases stage with
  | queued data => exact Nat.le_add_left 1 4
  | loaded handling => exact Nat.le_add_left 1 3
  | answered handling result => exact Nat.le_add_left 1 2
  | listed handling news => exact Nat.le_add_left 1 1
  | concluding handling result => exact Nat.le_refl 1

theorem Advance.spends_end {a : Advance info new old}
    (hstage : a.stage = none) (hasked : a.asked = none)
    (stage : Stage info new old) : a.Spends stage := by
  constructor
  · rw [hstage]
    exact Nat.le_trans (Nat.le_of_eq (Nat.zero_add 1)) stage.one_le_work
  · rw [hstage, hasked]
    exact Nat.zero_le _
  · intro _
    exact hstage

theorem Listener.spends_finish (listener : Listener info new old) (c : Tables)
    (handling : Handling info new old) (result : Summary)
    (stage : Stage info new old) :
    (listener.finish c handling result).Spends stage := by
  unfold Listener.finish
  split
  · exact Advance.spends_end rfl rfl stage
  · exact Advance.spends_end rfl rfl stage

theorem Listener.spends_advance (listener : Listener info new old)
    (c : Tables) (answer : Except Thrown Summary)
    (stage : Stage info new old) :
    (listener.advance c answer stage).Spends stage := by
  cases stage with
  | queued data =>
      unfold Listener.advance
      dsimp only
      split
      · exact Advance.spends_end rfl rfl _
      · constructor
        · exact Nat.le_refl 5
        · exact Nat.le_refl 2
        · intro h
          exact absurd rfl h
  | loaded handling =>
      constructor
      · cases answer with
        | error e => exact Nat.le_add_left 1 3
        | ok result => exact Nat.le_refl 4
      · cases answer with
        | error e => exact Nat.le_add_left 1 1
        | ok result => exact Nat.le_refl 2
      · intro h
        exact absurd rfl h
  | answered handling result =>
      unfold Listener.advance
      dsimp only
      split
      · split
        · exact Advance.spends_end rfl rfl _
        · constructor
          · exact Nat.le_refl 3
          · exact Nat.le_refl 1
          · intro h
            exact absurd rfl h
      · exact listener.spends_finish c handling result _
  | listed handling news =>
      constructor
      · cases answer with
        | error e => exact Nat.le_add_left 1 1
        | ok result => exact Nat.le_refl 2
      · cases answer with
        | error e => exact Nat.le_refl 1
        | ok result => exact Nat.le_refl 1
      · intro h
        exact absurd rfl h
  | concluding handling result =>
      exact listener.spends_finish c handling result _

end Stage

theorem emitted_entriesChanged (c : Tables) (answer : Except Thrown Summary)
    (stage : CallgentStage) :
    (entriesChanged.advance c answer stage).emitted = none := by
  have hfinish : forall handling result,
      (entriesChanged.finish c handling result).emitted = none := by
    intro handling result
    unfold Listener.finish entriesChanged
    dsimp only
    cases updateCallgentSummary (handling.writes c) handling.data.target.id
        result with
    | error e => rfl
    | ok next => rfl
  cases stage with
  | queued data =>
      unfold Listener.advance
      dsimp only
      split
      · rfl
      · rfl
  | loaded handling => rfl
  | answered handling result =>
      unfold Listener.advance
      dsimp only
      split
      · split
        · rfl
        · rfl
      · exact hfinish handling result
  | listed handling news => rfl
  | concluding handling result => exact hfinish handling result

theorem sum_put {stage : Type} (f : stage -> Nat) {stages : List stage}
    {i : Nat} {replaced : stage} (h : stages[i]? = some replaced)
    (next : Option stage) :
    ((put stages i next).map f).sum + f replaced =
      (stages.map f).sum + (next.map f).getD 0 := by
  induction stages generalizing i with
  | nil => cases h
  | cons first rest ih =>
      cases i with
      | zero =>
          have hfirst : first = replaced := Option.some.inj h
          rw [hfirst]
          cases next with
          | none =>
              show (rest.map f).sum + f replaced =
                ((replaced :: rest).map f).sum + 0
              rw [List.map_cons, List.sum_cons]
              omega
          | some stage =>
              show ((stage :: rest).map f).sum + f replaced =
                ((replaced :: rest).map f).sum + f stage
              rw [List.map_cons, List.map_cons, List.sum_cons, List.sum_cons]
              omega
      | succ i =>
          have hput : put (first :: rest) (i + 1) next =
              first :: put rest i next := by
            cases next with
            | none => rfl
            | some stage => rfl
          have hrest := ih h
          rw [hput, List.map_cons, List.map_cons, List.sum_cons,
            List.sum_cons]
          omega

/-- What is left, where an entry may have its callgent summarized for `k`. -/
def State.total (s : State) (f : EntryStage -> Nat) (g : CallgentStage -> Nat)
    (k : Nat) : Nat :=
  (s.entries.map fun stage => f stage + k).sum + (s.callgents.map g).sum

theorem total_advanceEntry {s : State} {i : Nat} {stage : EntryStage}
    {a : Advance EntryInfo StoredEndpointRow StoredEndpointRow}
    {f : EntryStage -> Nat} {g : CallgentStage -> Nat} {k paid : Nat}
    (hstage : s.entries[i]? = some stage)
    (hemitted : a.emitted ≠ none -> a.stage = none)
    (hg : forall data, g (.queued data) = k)
    (hpaid : (a.stage.map f).getD 0 + paid ≤ f stage) :
    (s.advanceEntry i a).total f g k + paid ≤ s.total f g k := by
  have hput := sum_put (fun stage => f stage + k) hstage a.stage
  have htotal : (s.advanceEntry i a).total f g k =
      ((put s.entries i a.stage).map fun stage => f stage + k).sum +
        ((s.callgents.map g).sum + (a.emitted.toList.map fun _ => k).sum) := by
    unfold State.total State.advanceEntry
    simp [List.sum_append, Function.comp_def, hg]
  rw [htotal, State.total]
  cases hnext : a.stage with
  | none =>
      rw [hnext] at hput hpaid
      cases a.emitted with
      | none => simp at hput hpaid ⊢; omega
      | some data => simp at hput hpaid ⊢; omega
  | some next =>
      have hnone : a.emitted = none := by
        by_contra hsome
        have hend := hemitted hsome
        rw [hnext] at hend
        cases hend
      rw [hnext] at hput hpaid
      rw [hnone]
      simp at hput hpaid ⊢
      omega

theorem total_advanceCallgent {s : State} {i : Nat} {stage : CallgentStage}
    {a : Advance CallgentInfo StoredEntryRow OldEntry}
    {f : EntryStage -> Nat} {g : CallgentStage -> Nat} {k paid : Nat}
    (hstage : s.callgents[i]? = some stage) (hemitted : a.emitted = none)
    (hpaid : (a.stage.map g).getD 0 + paid ≤ g stage) :
    (s.advanceCallgent i a).total f g k + paid ≤ s.total f g k := by
  have hput := sum_put g hstage a.stage
  have htotal : (s.advanceCallgent i a).total f g k =
      (s.entries.map fun stage => f stage + k).sum +
        ((put s.callgents i a.stage).map g).sum := by
    unfold State.total State.advanceCallgent
    simp [hemitted]
  rw [htotal, State.total]
  omega

theorem sum_eraseIdx_le {stage : Type} (f : stage -> Nat) {stages : List stage}
    {i : Nat} {dropped : stage} (h : stages[i]? = some dropped) :
    ((stages.eraseIdx i).map f).sum ≤ (stages.map f).sum := by
  have hput := sum_put f h none
  change ((stages.eraseIdx i).map f).sum + f dropped = _ + 0 at hput
  omega

def State.work (s : State) : Nat := s.total Stage.work Stage.work 5

def State.questions (s : State) : Nat :=
  s.total Stage.questions Stage.questions 2

def State.asked (s : State) : Nat :=
  s.summarizeEntry.length + s.summarizeCallgent.length

namespace Label

def isEndpointsChanged : Label -> Bool
  | endpointsChanged _ => true
  | _ => false

def isEntriesChanged : Label -> Bool
  | entriesChanged _ => true
  | _ => false

/-- A part of `handleEvent`. -/
def isHandling : Label -> Bool
  | entry _ _ => true
  | callgent _ _ => true
  | _ => false

def cost (label : Label) : Nat := if label.isHandling then 1 else 0

/-- What an event adds, of which one of entries adds `k`. -/
def gain (k : Nat) (label : Label) : Nat :=
  if label.isEndpointsChanged then 2 * k
  else if label.isEntriesChanged then k
  else 0

theorem sum_cost (labels : List Label) :
    (labels.map cost).sum = labels.countP isHandling := by
  induction labels with
  | nil => rfl
  | cons label rest ih =>
      rw [List.map_cons, List.sum_cons, List.countP_cons, ih, cost]
      omega

theorem sum_gain (k : Nat) (labels : List Label) :
    (labels.map (gain k)).sum =
      2 * k * labels.countP isEndpointsChanged +
        k * labels.countP isEntriesChanged := by
  induction labels with
  | nil => rfl
  | cons label rest ih =>
      rw [List.map_cons, List.sum_cons, List.countP_cons, List.countP_cons, ih]
      cases label <;>
        simp [gain, isEndpointsChanged, isEntriesChanged, Nat.mul_add] <;>
        omega

end Label

theorem total_publish {s s' : State} {label : Label} {f : EntryStage -> Nat}
    {g : CallgentStage -> Nat} {k : Nat}
    (hf : forall data, f (.queued data) = k)
    (hg : forall data, g (.queued data) = k)
    (hlabel : label.isHandling = false) (hstep : step s label = some s') :
    s'.total f g k ≤ s.total f g k + label.gain k := by
  cases label with
  | endpointsChanged data =>
      cases hstep
      simp [State.total, Label.gain, Label.isEndpointsChanged, hf]
      omega
  | entriesChanged data =>
      cases hstep
      simp [State.total, Label.gain, Label.isEndpointsChanged,
        Label.isEntriesChanged, hg]
      omega
  | outside tables =>
      cases hstep
      exact Nat.le_add_right _ _
  | entry i answer => cases hlabel
  | callgent i answer => cases hlabel
  | abortEntry i =>
      rcases Option.map_eq_some_iff.mp hstep with ⟨stage, hstage, hnext⟩
      cases hnext
      have hle := sum_eraseIdx_le (fun stage => f stage + k) hstage
      simp only [State.total]
      omega
  | abortCallgent i =>
      rcases Option.map_eq_some_iff.mp hstep with ⟨stage, hstage, hnext⟩
      cases hnext
      have hle := sum_eraseIdx_le g hstage
      simp only [State.total]
      omega

theorem work_step {s s' : State} {label : Label}
    (hstep : step s label = some s') :
    s'.work + label.cost ≤ s.work + label.gain 5 := by
  cases hlabel : label.isHandling with
  | false =>
      have hle := total_publish (f := Stage.work) (g := Stage.work) (k := 5)
        (fun _ => rfl) (fun _ => rfl) hlabel hstep
      rw [Label.cost, hlabel]
      exact hle
  | true =>
      cases label with
      | entry i answer =>
          rcases Option.map_eq_some_iff.mp hstep with ⟨stage, hstage, hnext⟩
          cases hnext
          have hspends :=
            endpointsChanged.spends_advance s.tables answer stage
          exact total_advanceEntry hstage hspends.emitted (fun _ => rfl)
            hspends.work
      | callgent i answer =>
          rcases Option.map_eq_some_iff.mp hstep with ⟨stage, hstage, hnext⟩
          cases hnext
          have hspends := entriesChanged.spends_advance s.tables answer stage
          exact total_advanceCallgent hstage
            (emitted_entriesChanged s.tables answer stage) hspends.work
      | endpointsChanged data => cases hlabel
      | entriesChanged data => cases hlabel
      | outside tables => cases hlabel
      | abortEntry i => cases hlabel
      | abortCallgent i => cases hlabel

theorem asked_of_not_handling {s s' : State} {label : Label}
    (hlabel : label.isHandling = false) (hstep : step s label = some s') :
    s'.asked = s.asked := by
  cases label with
  | entry i answer => cases hlabel
  | callgent i answer => cases hlabel
  | endpointsChanged data => cases hstep; rfl
  | entriesChanged data => cases hstep; rfl
  | outside tables => cases hstep; rfl
  | abortEntry i =>
      rcases Option.map_eq_some_iff.mp hstep with ⟨stage, _, hnext⟩
      cases hnext
      rfl
  | abortCallgent i =>
      rcases Option.map_eq_some_iff.mp hstep with ⟨stage, _, hnext⟩
      cases hnext
      rfl

/-- What the model has been asked, and may still be. -/
def State.due (s : State) : Nat := s.questions + s.asked

theorem due_step {s s' : State} {label : Label}
    (hstep : step s label = some s') :
    s'.due + 0 ≤ s.due + label.gain 2 := by
  unfold State.due
  cases hlabel : label.isHandling with
  | false =>
      have hle := total_publish (f := Stage.questions) (g := Stage.questions)
        (k := 2) (fun _ => rfl) (fun _ => rfl) hlabel hstep
      have hasked := asked_of_not_handling hlabel hstep
      simp only [State.questions]
      omega
  | true =>
      cases label with
      | entry i answer =>
          rcases Option.map_eq_some_iff.mp hstep with ⟨stage, hstage, hnext⟩
          cases hnext
          have hspends :=
            endpointsChanged.spends_advance s.tables answer stage
          have hle := total_advanceEntry (g := Stage.questions) hstage
            hspends.emitted (fun _ => rfl) hspends.questions
          simp only [State.questions, State.asked, State.advanceEntry,
            List.length_append] at hle ⊢
          omega
      | callgent i answer =>
          rcases Option.map_eq_some_iff.mp hstep with ⟨stage, hstage, hnext⟩
          cases hnext
          have hspends := entriesChanged.spends_advance s.tables answer stage
          have hle := total_advanceCallgent (f := Stage.questions) (k := 2)
            hstage (emitted_entriesChanged s.tables answer stage)
            hspends.questions
          simp only [State.questions, State.asked, State.advanceCallgent,
            List.length_append] at hle ⊢
          omega
      | endpointsChanged data => cases hlabel
      | entriesChanged data => cases hlabel
      | outside tables => cases hlabel
      | abortEntry i => cases hlabel
      | abortCallgent i => cases hlabel

/-- Whatever the models answer, however the listeners interleave and whatever
others write meanwhile: an event of endpoints is handled in ten parts at most
and asks four times at most, one of entries in five parts and twice. -/
theorem cascade_bounded {c : Tables} {labels : List Label} {s : State}
    (hrun : Transition.run step (.start c) labels = some s) :
    labels.countP Label.isHandling ≤
        10 * labels.countP Label.isEndpointsChanged +
          5 * labels.countP Label.isEntriesChanged ∧
      s.summarizeEntry.length + s.summarizeCallgent.length ≤
        4 * labels.countP Label.isEndpointsChanged +
          2 * labels.countP Label.isEntriesChanged := by
  constructor
  · have hwork := Transition.run_potential (fun _ _ _ h => work_step h) hrun
    rw [Label.sum_cost, Label.sum_gain] at hwork
    have hstart : (State.start c).work = 0 := rfl
    omega
  · have hdue := Transition.run_potential (fun _ _ _ h => due_step h) hrun
    rw [Label.sum_gain] at hdue
    have hstart : (State.start c).due = 0 := rfl
    have hasked : s.summarizeEntry.length + s.summarizeCallgent.length ≤
        s.due := Nat.le_add_left _ _
    omega

/-! ## What the listeners change -/

def unsummarized (c : Tables) : Tables :=
  { c with
      callgents := c.callgents.image fun callgent =>
        { callgent with summary := none, instruction := none, viewed := 0 }
      entries := c.entries.image fun entry =>
        { entry with summary := none, instruction := none } }

theorem unsummarized_viewed (pk : Nat) (c : Tables) :
    unsummarized (viewed pk c) = unsummarized c := by
  unfold unsummarized viewed
  dsimp only
  rw [Table.image_edit]
  intro callgent
  rfl

theorem unsummarized_writes {info new old : Type}
    (handling : Handling info new old) (c : Tables) :
    unsummarized (handling.writes c) = unsummarized c := by
  unfold Handling.writes
  split
  · rfl
  · exact unsummarized_viewed _ c

theorem entries_writes {info new old : Type}
    (handling : Handling info new old) (c : Tables) :
    (handling.writes c).entries = c.entries := by
  unfold Handling.writes
  split
  · rfl
  · rfl

/-- An entry is summarized: its row is the one that is told, and nothing else
is changed. -/
structure Resummarized (c c' : Tables) (id : Text) (new : StoredEntryRow) :
    Prop where
  unsummarized : unsummarized c' = unsummarized c
  new : c'.entries.findUnique id = some new
  others : forall other, other ≠ id ->
    c'.entries.findUnique other = c.entries.findUnique other

theorem resummarized_of_update {c c' : Tables} {id : Text} {result : Summary}
    {new : StoredEntryRow}
    (h : updateEntrySummary c id result = .ok (c', new)) :
    Resummarized c c' id new := by
  unfold updateEntrySummary at h
  rcases Fallible.exists_of_bind_ok h with ⟨row, hrow, hrest⟩
  rcases Fallible.exists_of_bind_ok hrest with ⟨summary, _, hrest⟩
  rcases Fallible.exists_of_bind_ok hrest with ⟨instruction, _, hlast⟩
  have hfound : c.entries.findUnique id = some row := by
    unfold findEntry Config.written at hrow
    split at hrow
    · cases hrow
    · rename_i found hfound
      cases hrow
      exact hfound
  cases hlast
  constructor
  · unfold unsummarized
    dsimp only
    rw [Table.image_edit]
    intro entry
    rfl
  · exact Table.findUnique_edit_self hfound _
  · intro other hne
    exact Table.findUnique_edit_of_ne hfound hne _

theorem unsummarized_updateCallgent {c c' : Tables} {id : Text}
    {result : Summary} (h : updateCallgentSummary c id result = .ok c') :
    unsummarized c' = unsummarized c ∧ c'.entries = c.entries := by
  unfold updateCallgentSummary at h
  split at h
  · cases h
    exact ⟨rfl, rfl⟩
  · rcases Fallible.exists_of_bind_ok h with ⟨row, _, hrest⟩
    rcases Fallible.exists_of_bind_ok hrest with ⟨summary, _, hrest⟩
    rcases Fallible.exists_of_bind_ok hrest with ⟨instruction, _, hlast⟩
    cases hlast
    refine ⟨?_, rfl⟩
    unfold unsummarized
    dsimp only
    rw [Table.image_edit]
    intro callgent
    rfl

/-! ## Every change is told -/

section Stage

variable {info new old : Type}

def Stage.target : Stage info new old -> info
  | .queued data => data.target
  | .loaded handling => handling.data.target
  | .answered handling _ => handling.data.target
  | .listed handling _ => handling.data.target
  | .concluding handling _ => handling.data.target

def Stage.isQueued : Stage info new old -> Bool
  | .queued _ => true
  | _ => false

end Stage

/-- What a part of the listener of endpoints does to the rows: it tells of the
entry that it changes, if any. -/
structure Tells (c : Tables) (stage : EntryStage)
    (a : Advance EntryInfo StoredEndpointRow StoredEndpointRow) : Prop where
  unsummarized : unsummarized a.tables = unsummarized c
  told : (a.emitted = none ∧ a.tables.entries = c.entries) ∨
    exists data new, a.emitted = some data ∧ stage.isQueued = false ∧
      data.target.id = stage.target.callgentId ∧ data.news = some [new] ∧
      Resummarized c a.tables stage.target.id new

theorem Tells.unchanged {c : Tables} {stage : EntryStage}
    {a : Advance EntryInfo StoredEndpointRow StoredEndpointRow}
    (htables : a.tables = c) (hemitted : a.emitted = none) :
    Tells c stage a := by
  constructor
  · rw [htables]
  · rw [htables]
    exact Or.inl ⟨hemitted, rfl⟩

theorem tells_finish (c : Tables)
    (handling : Handling EntryInfo StoredEndpointRow StoredEndpointRow)
    (result : Summary) {stage : EntryStage} (hqueued : stage.isQueued = false)
    (htarget : stage.target = handling.data.target) :
    Tells c stage (endpointsChanged.finish c handling result) := by
  unfold Listener.finish
  split
  · exact Tells.unchanged rfl rfl
  · rename_i c' emitted hconclude
    unfold endpointsChanged at hconclude
    dsimp only at hconclude
    split at hconclude
    · cases hconclude
      constructor
      · exact unsummarized_writes handling c
      · exact Or.inl ⟨rfl, entries_writes handling c⟩
    · rcases Fallible.exists_of_bind_ok hconclude with ⟨⟨next, new⟩, hupdate, h⟩
      cases h
      have hresummarized := resummarized_of_update hupdate
      have hframe : unsummarized next = unsummarized c :=
        hresummarized.unsummarized.trans (unsummarized_writes handling c)
      constructor
      · exact hframe
      · refine Or.inr ⟨_, new, rfl, hqueued, ?_, rfl, ?_⟩
        · rw [htarget]
        · rw [htarget]
          constructor
          · exact hframe
          · exact hresummarized.new
          · intro other hne
            rw [hresummarized.others other hne, entries_writes]

theorem tells_advance (c : Tables) (answer : Except Thrown Summary)
    (stage : EntryStage) :
    Tells c stage (endpointsChanged.advance c answer stage) := by
  cases stage with
  | queued data =>
      unfold Listener.advance
      dsimp only
      split
      · exact Tells.unchanged rfl rfl
      · exact Tells.unchanged rfl rfl
  | loaded handling => exact Tells.unchanged rfl rfl
  | answered handling result =>
      unfold Listener.advance
      dsimp only
      split
      · split
        · constructor
          · exact unsummarized_writes handling c
          · exact Or.inl ⟨rfl, entries_writes handling c⟩
        · exact Tells.unchanged rfl rfl
      · exact tells_finish c handling result rfl rfl
  | listed handling news => exact Tells.unchanged rfl rfl
  | concluding handling result => exact tells_finish c handling result rfl rfl

theorem keeps_entriesChanged (c : Tables) (answer : Except Thrown Summary)
    (stage : CallgentStage) :
    unsummarized (entriesChanged.advance c answer stage).tables =
        unsummarized c ∧
      (entriesChanged.advance c answer stage).tables.entries = c.entries := by
  have hfinish : forall handling result,
      unsummarized (entriesChanged.finish c handling result).tables =
          unsummarized c ∧
        (entriesChanged.finish c handling result).tables.entries =
          c.entries := by
    intro handling result
    unfold Listener.finish
    split
    · exact ⟨rfl, rfl⟩
    · rename_i c' emitted hconclude
      rcases Fallible.exists_of_bind_ok hconclude with ⟨next, hupdate, h⟩
      cases h
      rcases unsummarized_updateCallgent hupdate with ⟨hframe, hentries⟩
      exact ⟨hframe.trans (unsummarized_writes handling c),
        hentries.trans (entries_writes handling c)⟩
  cases stage with
  | queued data =>
      unfold Listener.advance
      dsimp only
      split
      · exact ⟨rfl, rfl⟩
      · exact ⟨rfl, rfl⟩
  | loaded handling => exact ⟨rfl, rfl⟩
  | answered handling result =>
      unfold Listener.advance
      dsimp only
      split
      · split
        · exact ⟨unsummarized_writes handling c, entries_writes handling c⟩
        · exact ⟨rfl, rfl⟩
      · exact hfinish handling result
  | listed handling news => exact ⟨rfl, rfl⟩
  | concluding handling result => exact hfinish handling result

def callgentOf (c : Tables) (id : Text) : Option Text :=
  (c.entries.findUnique id).map fun row => row.value.callgentId

theorem callgentOf_of_unsummarized {c c' : Tables}
    (h : unsummarized c' = unsummarized c) (id : Text) :
    callgentOf c' id = callgentOf c id := by
  have hsame : forall c : Tables,
      callgentOf (unsummarized c) id = callgentOf c id := by
    intro c
    unfold callgentOf unsummarized
    rw [Table.findUnique_image, Option.map_map]
    rfl
  rw [← hsame, h, hsame]

/-- The callgent that is given of a stored entry is its own. -/
def EntryInfo.Known (c : Tables) (entry : EntryInfo) : Prop :=
  forall callgentId, callgentOf c entry.id = some callgentId ->
    entry.callgentId = [] ∨ entry.callgentId = callgentId

def KnownStage (c : Tables) (stage : EntryStage) : Prop :=
  forall callgentId, callgentOf c stage.target.id = some callgentId ->
    (stage.isQueued = true ∧ stage.target.callgentId = []) ∨
      stage.target.callgentId = callgentId

theorem KnownStage.same_target {c : Tables} {stage next : EntryStage}
    (h : KnownStage c stage) (hqueued : stage.isQueued = false)
    (htarget : next.target = stage.target) : KnownStage c next := by
  intro callgentId hcallgent
  rw [htarget] at hcallgent ⊢
  rcases h callgentId hcallgent with ⟨habsurd, _⟩ | hsame
  · rw [hqueued] at habsurd
    cases habsurd
  · exact Or.inr hsame

theorem KnownStage.advance {c : Tables} {stage next : EntryStage}
    (h : KnownStage c stage) (answer : Except Thrown Summary)
    (hnext : (endpointsChanged.advance c answer stage).stage = some next) :
    KnownStage c next := by
  have hfinish : forall handling result,
      (endpointsChanged.finish c handling result).stage = none := by
    intro handling result
    unfold Listener.finish
    split
    · rfl
    · rfl
  cases stage with
  | queued data =>
      unfold Listener.advance endpointsChanged at hnext
      dsimp only at hnext
      split at hnext
      · cases hnext
      · rename_i target views hload
        cases hnext
        split at hload
        · split at hload
          · cases hload
          · rename_i row hfound
            cases hload
            intro callgentId hcallgent
            have hkey := Table.key_of_findUnique hfound
            change callgentOf c row.key = some callgentId at hcallgent
            rw [hkey, callgentOf, hfound] at hcallgent
            exact Or.inr (Option.some.inj hcallgent)
        · rename_i hgiven
          cases hload
          intro callgentId hcallgent
          rcases h callgentId hcallgent with ⟨_, hempty⟩ | hsame
          · change data.target.callgentId = [] at hempty
            rw [hempty] at hgiven
            exact absurd rfl hgiven
          · exact Or.inr hsame
  | loaded handling =>
      cases answer with
      | error e => cases hnext
      | ok result =>
          cases hnext
          exact h.same_target rfl rfl
  | answered handling result =>
      unfold Listener.advance at hnext
      dsimp only at hnext
      split at hnext
      · split at hnext
        · cases hnext
        · cases hnext
          exact h.same_target rfl rfl
      · rw [hfinish] at hnext
        cases hnext
  | listed handling news =>
      cases answer with
      | error e => cases hnext
      | ok result =>
          cases hnext
          exact h.same_target rfl rfl
  | concluding handling result =>
      unfold Listener.advance at hnext
      rw [hfinish] at hnext
      cases hnext

/-- The row of an entry is the first one, or the one that has been told to the
listener of its callgent. -/
structure State.Told (c : Tables) (s : State) : Prop where
  unsummarized : unsummarized s.tables = unsummarized c
  known : forall stage, stage ∈ s.entries -> KnownStage c stage
  told : forall id row, s.tables.entries.findUnique id = some row ->
    c.entries.findUnique id = some row ∨
      exists data, data ∈ s.emitted ∧
        data.target.id = row.value.callgentId ∧ data.news = some [row]

namespace State.Told

variable {c : Tables} {s s' : State}

theorem start (c : Tables) : (State.start c).Told c := by
  constructor
  · rfl
  · intro stage hmem
    cases hmem
  · intro id row hrow
    exact Or.inl hrow

theorem mem_of_mem_put {stage : Type} {stages : List stage} {i : Nat}
    {next : Option stage} {found : stage} (h : found ∈ put stages i next) :
    found ∈ stages ∨ next = some found := by
  cases next with
  | none => exact Or.inl (List.mem_of_mem_eraseIdx h)
  | some stage =>
      rcases List.mem_or_eq_of_mem_set h with hold | hnew
      · exact Or.inl hold
      · rw [hnew]
        exact Or.inr rfl

theorem advanceEntry (h : s.Told c) {i : Nat} {stage : EntryStage}
    (hstage : s.entries[i]? = some stage) (answer : Except Thrown Summary) :
    (s.advanceEntry i
      (endpointsChanged.advance s.tables answer stage)).Told c := by
  have htells := tells_advance s.tables answer stage
  have hknown : KnownStage s.tables stage := by
    intro callgentId hcallgent
    rw [callgentOf_of_unsummarized h.unsummarized] at hcallgent
    exact h.known stage (List.mem_of_getElem? hstage) callgentId hcallgent
  constructor
  · exact htells.unsummarized.trans h.unsummarized
  · intro found hmem
    rcases mem_of_mem_put hmem with hold | hnew
    · exact h.known found hold
    · intro callgentId hcallgent
      rw [← callgentOf_of_unsummarized h.unsummarized] at hcallgent
      exact hknown.advance answer hnew callgentId hcallgent
  · intro id row hrow
    change Table.findUnique (endpointsChanged.advance s.tables answer
      stage).tables.entries id = some row at hrow
    rcases htells.told with ⟨_, hentries⟩ |
      ⟨data, new, hemitted, hqueued, htarget, hnews, hresummarized⟩
    · rw [hentries] at hrow
      rcases h.told id row hrow with hfirst | ⟨data, hmem, hdata⟩
      · exact Or.inl hfirst
      · exact Or.inr ⟨data, List.mem_append_left _ hmem, hdata⟩
    · by_cases hid : id = stage.target.id
      · rw [hid, hresummarized.new] at hrow
        have hnew : new = row := Option.some.inj hrow
        have hcallgent : callgentOf s.tables stage.target.id =
            some new.value.callgentId := by
          rw [← callgentOf_of_unsummarized hresummarized.unsummarized,
            callgentOf, hresummarized.new]
          rfl
        refine Or.inr ⟨data, ?_, ?_, ?_⟩
        · apply List.mem_append_right
          rw [hemitted]
          exact List.mem_singleton_self data
        · rw [htarget, ← hnew]
          rcases hknown _ hcallgent with ⟨habsurd, _⟩ | hsame
          · rw [hqueued] at habsurd
            cases habsurd
          · exact hsame
        · rw [hnews, hnew]
      · rw [hresummarized.others id hid] at hrow
        rcases h.told id row hrow with hfirst | ⟨data, hmem, hdata⟩
        · exact Or.inl hfirst
        · exact Or.inr ⟨data, List.mem_append_left _ hmem, hdata⟩

theorem advanceCallgent (h : s.Told c) (i : Nat) (stage : CallgentStage)
    (answer : Except Thrown Summary) :
    (s.advanceCallgent i
      (entriesChanged.advance s.tables answer stage)).Told c := by
  rcases keeps_entriesChanged s.tables answer stage with ⟨hframe, hentries⟩
  constructor
  · exact hframe.trans h.unsummarized
  · exact h.known
  · intro id row hrow
    change Table.findUnique (entriesChanged.advance s.tables answer
      stage).tables.entries id = some row at hrow
    rw [hentries] at hrow
    rcases h.told id row hrow with hfirst | ⟨data, hmem, hdata⟩
    · exact Or.inl hfirst
    · exact Or.inr ⟨data, List.mem_append_left _ hmem, hdata⟩

end State.Told

/-- Others leave the rows alone, and an event of endpoints gives no wrong
callgent. -/
def Label.Quiet (c : Tables) : Label -> Prop
  | .outside _ => False
  | .endpointsChanged data => data.target.Known c
  | _ => True

theorem State.Told.step {c : Tables} {s s' : State} {label : Label}
    (h : s.Told c) (hquiet : label.Quiet c)
    (hstep : Summaries.step s label = some s') : s'.Told c := by
  cases label with
  | endpointsChanged data =>
      cases hstep
      constructor
      · exact h.unsummarized
      · intro stage hmem
        rcases List.mem_append.mp hmem with hold | hnew
        · exact h.known stage hold
        · rw [List.mem_singleton.mp hnew]
          intro callgentId hcallgent
          rcases hquiet callgentId hcallgent with hempty | hsame
          · exact Or.inl ⟨rfl, hempty⟩
          · exact Or.inr hsame
      · exact h.told
  | entriesChanged data =>
      cases hstep
      exact ⟨h.unsummarized, h.known, h.told⟩
  | outside tables => exact absurd hquiet id
  | entry i answer =>
      rcases Option.map_eq_some_iff.mp hstep with ⟨stage, hstage, hnext⟩
      cases hnext
      exact h.advanceEntry hstage answer
  | callgent i answer =>
      rcases Option.map_eq_some_iff.mp hstep with ⟨stage, _, hnext⟩
      cases hnext
      exact h.advanceCallgent i stage answer
  | abortEntry i =>
      rcases Option.map_eq_some_iff.mp hstep with ⟨stage, _, hnext⟩
      cases hnext
      exact ⟨h.unsummarized, fun stage hmem =>
        h.known stage (List.mem_of_mem_eraseIdx hmem), h.told⟩
  | abortCallgent i =>
      rcases Option.map_eq_some_iff.mp hstep with ⟨stage, _, hnext⟩
      cases hnext
      exact ⟨h.unsummarized, h.known, h.told⟩

/-- However the listeners interleave, where nobody else writes: they change
summaries and views only, and every entry whose row has changed has been told,
as it is now, to the listener of its callgent. -/
theorem changes_told {c : Tables} {labels : List Label} {s : State}
    (hquiet : forall label, label ∈ labels -> label.Quiet c)
    (hrun : Transition.run step (.start c) labels = some s) :
    unsummarized s.tables = unsummarized c ∧
      forall id row, s.tables.entries.findUnique id = some row ->
        c.entries.findUnique id = some row ∨
          exists data, data ∈ s.emitted ∧
            data.target.id = row.value.callgentId ∧
            data.news = some [row] := by
  have hmeets : Transition.StepsMeet step (fun _ label => label.Quiet c)
      (.start c) labels :=
    Transition.stepsMeet_of_forall (fun _ label hmem => hquiet label hmem) _
  have htold : s.Told c :=
    Transition.run_invariant_of_meets (fun _ _ _ h hmeet hstep =>
      h.step hmeet hstep) (State.Told.start c) hmeets hrun
  exact ⟨htold.unsummarized, htold.told⟩

/-! ## The summary of a shop -/

def shopEntry : StoredEntry where
  callgentId := "shop".toList
  type := .server
  adaptorKey := "restAPI".toList
  name := "https://shop".toList
  summary := none
  instruction := none
  priority := 0
  host := "https://shop".toList
  initParams := none
  content := none
  securities := []

def shop : Callgent where
  tenantPk := 1
  name := "Shop".toList
  avatar := none
  summary := none
  instruction := none
  viewed := 0
  forked := 0
  forkedPk := none

def shopTables : Tables where
  callgents := Table.empty.insert "shop".toList shop rfl
  entries := Table.empty.insert "entry".toList shopEntry rfl
  realms := .empty
  endpoints := .empty

def shopSummary : Except Thrown Summary :=
  .ok ⟨some (.str "Sells".toList), none, false⟩

/-- An endpoint of the entry has been deleted; both listeners are run to their
ends. -/
def shopLabels : List Label :=
  [.endpointsChanged ⟨"user".toList, ⟨"entry".toList, none, none, []⟩, none,
      some [], false⟩,
    .entry 0 shopSummary, .entry 0 shopSummary, .entry 0 shopSummary,
    .callgent 0 shopSummary, .callgent 0 shopSummary, .callgent 0 shopSummary]

def shopSummarized : State :=
  (Transition.run step (.start shopTables) shopLabels).getD (.start shopTables)

theorem run_shopLabels :
    Transition.run step (.start shopTables) shopLabels =
      some shopSummarized := rfl

theorem cascade_shop :
    shopLabels.countP Label.isHandling ≤
        10 * shopLabels.countP Label.isEndpointsChanged +
          5 * shopLabels.countP Label.isEntriesChanged ∧
      shopSummarized.summarizeEntry.length +
          shopSummarized.summarizeCallgent.length ≤
        4 * shopLabels.countP Label.isEndpointsChanged +
          2 * shopLabels.countP Label.isEntriesChanged :=
  cascade_bounded run_shopLabels

theorem told_shop :
    unsummarized shopSummarized.tables = unsummarized shopTables ∧
      forall id row,
        shopSummarized.tables.entries.findUnique id = some row ->
        shopTables.entries.findUnique id = some row ∨
          exists data, data ∈ shopSummarized.emitted ∧
            data.target.id = row.value.callgentId ∧
            data.news = some [row] := by
  refine changes_told ?_ run_shopLabels
  intro label hmem
  simp only [shopLabels, List.mem_cons, List.not_mem_nil, or_false] at hmem
  rcases hmem with h | h | h | h | h | h | h
  · rw [h]
    intro _ _
    exact Or.inl rfl
  all_goals
    rw [h]
    exact True.intro

end Summaries
end CallgentApi
