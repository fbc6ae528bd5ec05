import CallgentApi.Event.Edits

/-!
# Concurrent resumes of one event

Resume calls with the same invoke key run at the same time.  Each reads the
row and checks it, loads the listeners, calls them, and only then writes the
row.  Nothing keeps two calls from reading the same pending row.

The row's version counts its writes: an execution of the pending resume
function belongs to the version that its call has read.
-/

namespace CallgentApi
namespace Event

open Js Invoke Transition

variable {sigma : Type _}

/-- Where a resume call stands, with the version of the row it has read. -/
inductive Phase (sigma : Type _) where
  | waiting
  | checked (version : Nat) (row : EventRow) (event : EventObject)
  | loaded (version : Nat) (row : EventRow) (event : EventObject)
      (listeners : List EventListener)
  | called (version : Nat) (listeners : List EventListener)
      (r : LoopResult sigma)
  | finished

def Phase.inFlight : Phase sigma -> Option Nat
  | waiting => none
  | checked version _ _ => some version
  | loaded version _ _ _ => some version
  | called version _ _ => some version
  | finished => none

/-- A call of a resume function, by a resume call that read some version. -/
structure Execution where
  caller : Nat
  version : Nat
  call : Call

structure Shared (sigma : Type _) where
  store : EventStore
  outside : sigma
  version : Nat
  phase : Nat -> Phase sigma
  executed : List Execution

/-- The store reads and writes of a resume call, and its listeners in between. -/
inductive Move where
  | find (i : Nat) (response : Value)
  | load (i : Nat) (order : Database)
  | call (i : Nat)
  | write (i : Nat)

/-- The calls of a run that were made by a resume function. -/
def resumed (calls : List Call) : List Call :=
  calls.filter fun call => call.funName.isSome

namespace Shared

def init (store : EventStore) (outside : sigma) : Shared sigma where
  store := store
  outside := outside
  version := 0
  phase := fun _ => .waiting
  executed := []

def setPhase (s : Shared sigma) (i : Nat) (p : Phase sigma) : Shared sigma :=
  { s with phase := Function.update s.phase i p }

def find (key : ParsedKey) (s : Shared sigma) (i : Nat) (response : Value) :
    Option (Shared sigma) :=
  match s.phase i with
  | .waiting =>
      match findPending key response s.store with
      | .error _ => some (s.setPhase i .finished)
      | .ok (row, event) => some (s.setPhase i (.checked s.version row event))
  | _ => none

def load (table : ListenerTable) (key : ParsedKey) (s : Shared sigma)
    (i : Nat) (order : Database) : Option (Shared sigma) :=
  match s.phase i with
  | .checked version row event =>
      match loadPending table order key row with
      | .error _ => some (s.setPhase i .finished)
      | .ok listeners =>
          some (s.setPhase i (.loaded version row event listeners))
  | _ => none

def call (modules : ModuleRef sigma) (key : ParsedKey) (s : Shared sigma)
    (i : Nat) : Option (Shared sigma) :=
  match s.phase i with
  | .loaded version row event listeners =>
      let r := runLoop modules listeners event row.funName
        { invokeId := some key.invokeId, outside := s.outside }
      some
        { s with
            outside := r.world.outside
            phase := Function.update s.phase i (.called version listeners r)
            executed := s.executed ++
              (resumed r.calls).map fun call => ⟨i, version, call⟩ }
  | _ => none

def write (s : Shared sigma) (i : Nat) : Option (Shared sigma) :=
  match s.phase i with
  | .called _ listeners r =>
      some
        { s with
            store := finishRun listeners r s.store
            version := s.version + 1
            phase := Function.update s.phase i .finished }
  | _ => none

def step (modules : ModuleRef sigma) (table : ListenerTable)
    (key : ParsedKey) (s : Shared sigma) : Move -> Option (Shared sigma)
  | .find i response => s.find key i response
  | .load i order => s.load table key i order
  | .call i => s.call modules key i
  | .write i => s.write i

/-- No pending version of the row has its resume function executed twice. -/
def AtMostOnce (s : Shared sigma) : Prop :=
  forall version,
    (s.executed.filter fun e => e.version == version).length ≤ 1

/-- A resume reads the row only while no other is between its read and its
write. -/
def ReadsAlone (s : Shared sigma) : Move -> Prop
  | .find _ _ => forall j, (s.phase j).inFlight = none
  | _ => True

@[simp] theorem setPhase_self (s : Shared sigma) (i : Nat)
    (p : Phase sigma) : (s.setPhase i p).phase i = p := by
  simp [setPhase]

theorem setPhase_of_ne (s : Shared sigma) {i j : Nat} (h : j ≠ i)
    (p : Phase sigma) : (s.setPhase i p).phase j = s.phase j := by
  simp [setPhase, h]

theorem find_some {key : ParsedKey} {s s' : Shared sigma} {i : Nat}
    {response : Value} (h : s.find key i response = some s') :
    s.phase i = .waiting ∧
      exists p, s' = s.setPhase i p ∧
        (p = .finished ∨ exists row event, p = .checked s.version row event) := by
  unfold find at h
  cases hphase : s.phase i with
  | waiting =>
      rw [hphase] at h
      cases hfind : findPending key response s.store with
      | error e =>
          rw [hfind] at h
          exact ⟨rfl, .finished, (Option.some.inj h).symm, Or.inl rfl⟩
      | ok found =>
          rw [hfind] at h
          exact ⟨rfl, _, (Option.some.inj h).symm,
            Or.inr ⟨found.1, found.2, rfl⟩⟩
  | checked | loaded | called | finished =>
      rw [hphase] at h
      cases h

theorem load_some {table : ListenerTable} {key : ParsedKey}
    {s s' : Shared sigma} {i : Nat} {order : Database}
    (h : s.load table key i order = some s') :
    exists version row event p,
      s.phase i = .checked version row event ∧ s' = s.setPhase i p ∧
        (p = .finished ∨
          exists listeners, p = .loaded version row event listeners) := by
  unfold load at h
  cases hphase : s.phase i with
  | checked version row event =>
      rw [hphase] at h
      cases hload : loadPending table order key row with
      | error e =>
          simp only [hload] at h
          exact ⟨version, row, event, .finished, rfl,
            (Option.some.inj h).symm, Or.inl rfl⟩
      | ok listeners =>
          simp only [hload] at h
          exact ⟨version, row, event, _, rfl, (Option.some.inj h).symm,
            Or.inr ⟨listeners, rfl⟩⟩
  | waiting | loaded | called | finished =>
      rw [hphase] at h
      cases h

theorem call_some {modules : ModuleRef sigma} {key : ParsedKey}
    {s s' : Shared sigma} {i : Nat} (h : s.call modules key i = some s') :
    exists version row event listeners,
      s.phase i = .loaded version row event listeners ∧
        exists r, r = runLoop modules listeners event row.funName
            { invokeId := some key.invokeId, outside := s.outside } ∧
          s' =
            { s with
                outside := r.world.outside
                phase := Function.update s.phase i (.called version listeners r)
                executed := s.executed ++
                  (resumed r.calls).map fun call => ⟨i, version, call⟩ } := by
  unfold call at h
  cases hphase : s.phase i with
  | loaded version row event listeners =>
      rw [hphase] at h
      exact ⟨version, row, event, listeners, rfl, _, rfl,
        (Option.some.inj h).symm⟩
  | waiting | checked | called | finished =>
      rw [hphase] at h
      cases h

theorem write_some {s s' : Shared sigma} {i : Nat}
    (h : s.write i = some s') :
    exists version listeners r,
      s.phase i = .called version listeners r ∧
        s' =
          { s with
              store := finishRun listeners r s.store
              version := s.version + 1
              phase := Function.update s.phase i .finished } := by
  unfold write at h
  cases hphase : s.phase i with
  | called version listeners r =>
      rw [hphase] at h
      exact ⟨version, listeners, r, rfl, (Option.some.inj h).symm⟩
  | waiting | checked | loaded | finished =>
      rw [hphase] at h
      cases h

theorem resumed_length_le_one (modules : ModuleRef sigma)
    (listeners : List EventListener) (event : EventObject)
    (funName : Option Text) (world : World sigma) :
    (resumed (runLoop modules listeners event funName world).calls).length ≤
      1 := by
  cases hstop : event.stopPropagation with
  | true =>
      have hcalls : (runLoop modules listeners event funName world).calls =
          [] := by
        have hstop' : (processing event).stopPropagation = true := hstop
        cases listeners with
        | nil => rfl
        | cons listener rest => rw [runLoop, invokeLoop, if_pos hstop']
      simp [hcalls, resumed]
  | false =>
      cases listeners with
      | nil => exact Nat.zero_le 1
      | cons listener rest =>
          rcases (invokeListeners_run modules funName world
            (List.cons_ne_nil listener rest) hstop).shape with
            ⟨passed, last, after, hshape⟩
          have hfunNames := hshape.funNames_eq
          have hlength : (resumed (runLoop modules (listener :: rest) event
              funName world).calls).length =
              ((truthy funName :: List.replicate passed.length none).filter
                Option.isSome).length := by
            rw [← hfunNames, List.filter_map, List.length_map]
            rfl
          rw [hlength, List.filter_cons]
          have hnone : (List.replicate passed.length
              (none : Option Text)).filter Option.isSome = [] := by
            simp
          split <;> simp [hnone]

/-!
## At most one execution
-/

/-- At most one call is in flight, it has read the current version, and an
execution of the current version belongs to a call still to write. -/
structure Exclusive (s : Shared sigma) : Prop where
  single : forall i j v w, (s.phase i).inFlight = some v ->
    (s.phase j).inFlight = some w -> i = j
  current : forall i v, (s.phase i).inFlight = some v -> v = s.version
  past : forall e, e ∈ s.executed -> e.version < s.version ∨
    (e.version = s.version ∧
      exists i version listeners r,
        s.phase i = .called version listeners r)
  once : s.AtMostOnce

theorem exclusive_init (store : EventStore) (outside : sigma) :
    Exclusive (init store outside) where
  single := by
    intro i j v w hi _
    cases hi
  current := by
    intro i v hi
    cases hi
  past := by
    intro e he
    cases he
  once := by
    intro version
    exact Nat.zero_le 1

theorem Exclusive.setPhase {s : Shared sigma} (h : Exclusive s) {i : Nat}
    {p : Phase sigma}
    (hcalled : forall version listeners r,
      s.phase i ≠ .called version listeners r)
    (halone : forall j, j ≠ i -> (s.phase j).inFlight = none)
    (hp : forall v, p.inFlight = some v -> v = s.version) :
    Exclusive (s.setPhase i p) where
  single := by
    have honly : forall j v, ((s.setPhase i p).phase j).inFlight = some v ->
        j = i := by
      intro j v hj
      by_contra hne
      rw [setPhase_of_ne s hne, halone j hne] at hj
      cases hj
    intro j k v w hj hk
    rw [honly j v hj, honly k w hk]
  current := by
    intro j v hj
    by_cases hji : j = i
    · subst hji
      rw [setPhase_self] at hj
      exact hp v hj
    · rw [setPhase_of_ne s hji] at hj
      exact h.current j v hj
  past := by
    intro e he
    rcases h.past e he with hlt | ⟨heq, j, version, listeners, r, hj⟩
    · exact Or.inl hlt
    · refine Or.inr ⟨heq, j, version, listeners, r, ?_⟩
      have hji : j ≠ i := fun hji => hcalled version listeners r (hji ▸ hj)
      rw [setPhase_of_ne s hji]
      exact hj
  once := h.once

theorem Exclusive.alone {s : Shared sigma} (h : Exclusive s) {i v : Nat}
    (hi : (s.phase i).inFlight = some v) (j : Nat) (hne : j ≠ i) :
    (s.phase j).inFlight = none := by
  cases hj : (s.phase j).inFlight with
  | none => rfl
  | some w => exact absurd (h.single j i w v hj hi) hne

theorem exclusive_call {modules : ModuleRef sigma} {key : ParsedKey}
    {s s' : Shared sigma} {i : Nat} (h : Exclusive s)
    (hstep : s.call modules key i = some s') : Exclusive s' := by
  rcases call_some hstep with
    ⟨version, row, event, listeners, hphase, r, hr, rfl⟩
  have hflight : (s.phase i).inFlight = some version := by
    rw [hphase]
    rfl
  have hversion := h.current i version hflight
  have hset : Exclusive (s.setPhase i (.called version listeners r)) := by
    refine h.setPhase ?_ (h.alone hflight) ?_
    · intro version' listeners' r' heq
      rw [hphase] at heq
      cases heq
    · intro v hv
      exact Option.some.inj hv ▸ hversion
  -- the call is the only one in flight, so nobody has executed this version
  have hfresh : forall e, e ∈ s.executed -> e.version ≠ s.version := by
    intro e he heq
    rcases h.past e he with hlt | ⟨_, j, version', listeners', r', hj⟩
    · exact absurd heq (Nat.ne_of_lt hlt)
    · have hjFlight : (s.phase j).inFlight = some version' := by
        rw [hj]
        rfl
      have hji := h.single j i version' version hjFlight hflight
      rw [hji, hphase] at hj
      cases hj
  refine ⟨hset.single, hset.current, ?_, ?_⟩
  · intro e he
    rcases List.mem_append.mp he with hold | hnew
    · exact hset.past e hold
    · rcases List.mem_map.mp hnew with ⟨call, _, rfl⟩
      refine Or.inr ⟨hversion, i, version, listeners, r, ?_⟩
      exact s.setPhase_self i (.called version listeners r)
  · intro v
    have hlength := resumed_length_le_one modules listeners event row.funName
      { invokeId := some key.invokeId, outside := s.outside }
    rw [← hr] at hlength
    simp only [List.filter_append, List.length_append]
    by_cases hv : v = s.version
    · have hold : (s.executed.filter fun e => e.version == v) = [] := by
        rw [List.filter_eq_nil_iff]
        intro e he
        simpa [hv] using hfresh e he
      rw [hold, List.length_nil, Nat.zero_add]
      refine Nat.le_trans (List.length_filter_le _ _) ?_
      simpa using hlength
    · have hnew : (((resumed r.calls).map fun call =>
          (⟨i, version, call⟩ : Execution)).filter
            fun e => e.version == v) = [] := by
        rw [List.filter_eq_nil_iff]
        intro e he
        rcases List.mem_map.mp he with ⟨call, _, rfl⟩
        simpa [hversion] using fun h => hv h.symm
      rw [hnew, List.length_nil, Nat.add_zero]
      exact h.once v

theorem exclusive_write {s s' : Shared sigma} {i : Nat} (h : Exclusive s)
    (hstep : s.write i = some s') : Exclusive s' := by
  rcases write_some hstep with ⟨version, listeners, r, hphase, rfl⟩
  have hflight : (s.phase i).inFlight = some version := by
    rw [hphase]
    rfl
  have hnone : forall j, ((s.setPhase i .finished).phase j).inFlight =
      none := by
    intro j
    by_cases hji : j = i
    · rw [hji, setPhase_self]
      rfl
    · rw [setPhase_of_ne s hji]
      exact h.alone hflight j hji
  refine ⟨?_, ?_, ?_, h.once⟩
  · intro j k v w hj _
    exact absurd ((hnone j).symm.trans hj) (by simp)
  · intro j v hj
    exact absurd ((hnone j).symm.trans hj) (by simp)
  · intro e he
    left
    rcases h.past e he with hlt | ⟨heq, _⟩
    · exact Nat.lt_succ_of_lt hlt
    · exact heq ▸ Nat.lt_succ_self _

theorem exclusive_step {modules : ModuleRef sigma} {table : ListenerTable}
    {key : ParsedKey} (s : Shared sigma) (move : Move) (s' : Shared sigma)
    (h : Exclusive s) (halone : s.ReadsAlone move)
    (hstep : step modules table key s move = some s') : Exclusive s' := by
  cases move with
  | find i response =>
      rcases find_some hstep with ⟨hphase, p, rfl, hp⟩
      refine h.setPhase ?_ (fun j _ => halone j) ?_
      · intro version listeners r heq
        rw [hphase] at heq
        cases heq
      · intro v hv
        rcases hp with rfl | ⟨row, event, rfl⟩
        · cases hv
        · exact (Option.some.inj hv).symm
  | load i order =>
      rcases load_some hstep with ⟨version, row, event, p, hphase, rfl, hp⟩
      have hflight : (s.phase i).inFlight = some version := by
        rw [hphase]
        rfl
      refine h.setPhase ?_ ?_ ?_
      · intro version' listeners r heq
        rw [hphase] at heq
        cases heq
      · exact h.alone hflight
      · intro v hv
        rcases hp with rfl | ⟨listeners, rfl⟩
        · cases hv
        · exact Option.some.inj hv ▸ h.current i version hflight
  | call i => exact exclusive_call h hstep
  | write i => exact exclusive_write h hstep

/-- In every interleaving in which a resume reads the row only while no other
is between its read and its write, every pending version of the row has its
resume function executed at most once. -/
theorem executed_at_most_once {modules : ModuleRef sigma}
    {table : ListenerTable} {key : ParsedKey} {store : EventStore}
    {outside : sigma} {moves : List Move} {t : Shared sigma}
    (hmeets : StepsMeet (step modules table key) ReadsAlone
      (init store outside) moves)
    (hrun : run (step modules table key) (init store outside) moves =
      some t) : t.AtMostOnce :=
  (run_invariant_of_meets exclusive_step (exclusive_init store outside)
    hmeets hrun).once

theorem executed_at_most_once_alone :
    ((run (step (servicesWith askingFun) (twoListeners 1)
        (parseInvokeKey "-e1".toList)) (init petStore ())
      [.find 0 (some .null), .load 0 .stored, .call 0, .write 0,
        .find 1 (some .null)]).get rfl).AtMostOnce := by
  refine @executed_at_most_once Unit (servicesWith askingFun)
    (twoListeners 1) (parseInvokeKey "-e1".toList) petStore ()
    [.find 0 (some .null), .load 0 .stored, .call 0, .write 0,
      .find 1 (some .null)] _ ?_ (Option.some_get _).symm
  refine ⟨fun _ => rfl, fun s1 h1 => ⟨True.intro, fun s2 h2 =>
    ⟨True.intro, fun s3 h3 => ⟨True.intro, fun s4 h4 => ⟨?_, ?_⟩⟩⟩⟩⟩
  · rcases Option.some.inj h1
    rcases Option.some.inj h2
    rcases Option.some.inj h3
    rcases Option.some.inj h4
    intro j
    cases j <;> rfl
  · exact fun _ _ => True.intro

/-!
## One resume after the other
-/

theorem run_moves_eq_resume (modules : ModuleRef sigma)
    (table : ListenerTable) (order : Database) (invokeKey : Text)
    (response : Value) {s : Shared sigma} {i : Nat} (world : World sigma)
    (hworld : world.outside = s.outside) (hwaiting : s.phase i = .waiting)
    {result : RunResult sigma}
    (hresume : resume modules table order invokeKey response world s.store =
      .ok result) :
    exists t,
      run (step modules table (parseInvokeKey invokeKey)) s
          [.find i response, .load i order, .call i, .write i] = some t ∧
        t.store = result.store ∧ t.outside = result.world.outside ∧
        t.executed = s.executed ++
          (resumed result.calls).map fun call => ⟨i, s.version, call⟩ := by
  rcases resume_parts hresume with ⟨row, event, listeners, hfind, hload, rfl⟩
  have hset : world.setInvokeId (parseInvokeKey invokeKey).invokeId =
      { invokeId := some (parseInvokeKey invokeKey).invokeId
        outside := s.outside } := by
    rw [← hworld]
    rfl
  rw [hset]
  simp [run, step, find, load, call, write, hwaiting, hfind, hload, setPhase,
    invokeListeners]

/-- Two deliveries of one reply: both read the pending row, both load the
listeners, and both call them. -/
def redelivered : List Move :=
  [.find 0 (some .null), .find 1 (some .null), .load 0 .stored,
    .load 1 .stored, .call 0, .call 1, .write 0, .write 1]

theorem redelivered_executed_twice :
    exists t,
      run (step (servicesWith askingFun) (twoListeners 1)
          (parseInvokeKey "-e1".toList)) (init petStore ()) redelivered =
            some t ∧
        t.executed.map (fun e => (e.caller, e.version, e.call.target)) =
          [(0, 0, askingListener, "go".toList),
            (1, 0, askingListener, "go".toList)] ∧
        ¬ t.AtMostOnce := by
  refine ⟨_, rfl, by decide, ?_⟩
  intro h
  exact absurd (h 0) (by decide)

end Shared
end Event
end CallgentApi
