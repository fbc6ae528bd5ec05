import Mathlib

/-!
# Labelled step functions and their runs

A system is given by a partial step function: `none` means that the label is
not enabled in the state.  A run folds the step function over a list of
labels.  The invariant rules below package the induction over runs once, with
and without a condition that every step of the run has to meet.
-/

namespace CallgentApi
namespace Transition

variable {state label : Type _}

/-- Fold a step function over a list of labels. -/
def run (step : state -> label -> Option state) :
    state -> List label -> Option state
  | s, [] => some s
  | s, a :: rest =>
      match step s a with
      | none => none
      | some s' => run step s' rest

/-- Every step that a run takes meets a condition on its state and label. -/
def StepsMeet (step : state -> label -> Option state)
    (ok : state -> label -> Prop) : state -> List label -> Prop
  | _, [] => True
  | s, a :: rest =>
      ok s a ∧ forall s', step s a = some s' -> StepsMeet step ok s' rest

/-- A property of every state that a run goes through. -/
def Along (step : state -> label -> Option state) (P : state -> Prop) :
    state -> List label -> Prop
  | s, [] => P s
  | s, a :: rest =>
      P s ∧ forall s', step s a = some s' -> Along step P s' rest

@[simp] theorem run_nil (step : state -> label -> Option state) (s : state) :
    run step s [] = some s := rfl

theorem run_cons_some {step : state -> label -> Option state}
    {s t : state} {a : label} {rest : List label}
    (h : run step s (a :: rest) = some t) :
    exists s', step s a = some s' ∧ run step s' rest = some t := by
  cases hstep : step s a with
  | none =>
      simp [run, hstep] at h
  | some s' =>
      refine ⟨s', rfl, ?_⟩
      simpa [run, hstep] using h

theorem run_singleton {step : state -> label -> Option state} {s s' : state}
    {a : label} (h : step s a = some s') : run step s [a] = some s' := by
  unfold run
  rw [h]
  rfl

theorem run_append {step : state -> label -> Option state} {s t : state}
    {labels : List label} (h : run step s labels = some t)
    (later : List label) : run step s (labels ++ later) = run step t later := by
  induction labels generalizing s with
  | nil =>
      cases h
      rfl
  | cons a rest ih =>
      rcases run_cons_some h with ⟨s', hstep, hrest⟩
      rw [List.cons_append, run, hstep]
      exact ih hrest

theorem Along.last {step : state -> label -> Option state}
    {P : state -> Prop} {s t : state} {labels : List label}
    (h : Along step P s labels) (hrun : run step s labels = some t) : P t := by
  induction labels generalizing s with
  | nil =>
      cases hrun
      exact h
  | cons a rest ih =>
      rcases run_cons_some hrun with ⟨s', hstep, hrest⟩
      exact ih (h.right s' hstep) hrest

theorem exists_run_of_total {step : state -> label -> Option state}
    (htotal : forall s a, exists s', step s a = some s') (s : state)
    (labels : List label) : exists t, run step s labels = some t := by
  induction labels generalizing s with
  | nil => exact ⟨s, rfl⟩
  | cons a rest ih =>
      rcases htotal s a with ⟨s', hs'⟩
      rcases ih s' with ⟨t, ht⟩
      exists t
      rw [run, hs']
      exact ht

/-- An invariant that every step meeting the condition preserves holds at the
end of every run whose steps meet the condition. -/
theorem run_invariant_of_meets {step : state -> label -> Option state}
    {ok : state -> label -> Prop} {Inv : state -> Prop}
    (hpres : forall s a s', Inv s -> ok s a -> step s a = some s' -> Inv s')
    {s t : state} {labels : List label}
    (hs : Inv s) (hmeets : StepsMeet step ok s labels)
    (hrun : run step s labels = some t) : Inv t := by
  induction labels generalizing s with
  | nil =>
      have hst : s = t := by simpa using hrun
      exact hst ▸ hs
  | cons a rest ih =>
      rcases run_cons_some hrun with ⟨s', hstep, hrest⟩
      exact ih (hpres s a s' hs hmeets.left hstep)
        (hmeets.right s' hstep) hrest

/-- When every step from a good state leads to a good state exactly if it
meets a condition, a run goes through good states only exactly if all of its
steps meet it; an invariant of the labels at hand may be used. -/
theorem along_iff_stepsMeet_of_inv {step : state -> label -> Option state}
    {ok : state -> label -> Prop} {Inv P : state -> Prop} {s t : state}
    {labels : List label}
    (hinv : forall s a s', a ∈ labels -> Inv s -> step s a = some s' ->
      Inv s')
    (hiff : forall s a s', a ∈ labels -> Inv s -> P s ->
      step s a = some s' -> (P s' <-> ok s a))
    (hs : Inv s) (hrun : run step s labels = some t) :
    Along step P s labels <-> P s ∧ StepsMeet step ok s labels := by
  induction labels generalizing s with
  | nil => exact (and_iff_left True.intro).symm
  | cons a rest ih =>
      rcases run_cons_some hrun with ⟨s', hstep, hrest⟩
      have hrestIff := ih (fun s a s' ha => hinv s a s' (.tail _ ha))
        (fun s a s' ha => hiff s a s' (.tail _ ha))
        (hinv s a s' List.mem_cons_self hs hstep) hrest
      have honly : forall s'', step s a = some s'' -> s'' = s' := by
        intro s'' hs
        rw [hstep] at hs
        exact (Option.some.inj hs).symm
      have hhead := fun hgood =>
        hiff s a s' List.mem_cons_self hs hgood hstep
      constructor
      · rintro ⟨hgood, halong⟩
        have hrest := hrestIff.mp (halong s' hstep)
        refine ⟨hgood, (hhead hgood).mp hrest.left, ?_⟩
        intro s'' hs'
        rw [honly s'' hs']
        exact hrest.right
      · rintro ⟨hgood, hok, hmeets⟩
        refine ⟨hgood, ?_⟩
        intro s'' hs'
        rw [honly s'' hs']
        exact hrestIff.mpr ⟨(hhead hgood).mpr hok, hmeets s' hstep⟩

theorem along_iff_stepsMeet {step : state -> label -> Option state}
    {ok : state -> label -> Prop} {P : state -> Prop} {s t : state}
    {labels : List label}
    (hiff : forall s a s', a ∈ labels -> step s a = some s' ->
      (P s' <-> ok s a))
    (hrun : run step s labels = some t) :
    Along step P s labels <-> P s ∧ StepsMeet step ok s labels := by
  have hinv : forall s a s', a ∈ labels -> True -> step s a = some s' ->
      True :=
    fun _ _ _ _ h _ => h
  exact along_iff_stepsMeet_of_inv hinv
    (fun s a s' ha _ _ hstep => hiff s a s' ha hstep) True.intro hrun

theorem StepsMeet.and {step : state -> label -> Option state}
    {ok ok' : state -> label -> Prop} {s : state} {labels : List label}
    (h : StepsMeet step ok s labels) (h' : StepsMeet step ok' s labels) :
    StepsMeet step (fun s a => ok s a ∧ ok' s a) s labels := by
  induction labels generalizing s with
  | nil => exact True.intro
  | cons a rest ih =>
      refine ⟨⟨h.left, h'.left⟩, ?_⟩
      intro s' hstep
      exact ih (h.right s' hstep) (h'.right s' hstep)

theorem StepsMeet.imp_of_inv {step : state -> label -> Option state}
    {ok good : state -> label -> Prop} {Inv : state -> Prop}
    (hinv : forall s a s', Inv s -> step s a = some s' -> Inv s')
    (hgood : forall s a, Inv s -> ok s a -> good s a) {s : state}
    {labels : List label} (hs : Inv s) (h : StepsMeet step ok s labels) :
    StepsMeet step good s labels := by
  induction labels generalizing s with
  | nil => exact True.intro
  | cons a rest ih =>
      constructor
      · exact hgood s a hs h.left
      · intro s' hstep
        exact ih (hinv s a s' hs hstep) (h.right s' hstep)

/-- When a step that does not meet a condition leads into a trap, the steps of
a run that ends outside of the trap meet the condition. -/
theorem stepsMeet_of_trap {step : state -> label -> Option state}
    {given ok : state -> label -> Prop} {Inv Trap : state -> Prop}
    (hinv : forall s a s', Inv s -> given s a -> step s a = some s' -> Inv s')
    (hfalls : forall s a s', Inv s -> given s a -> ¬ ok s a ->
      step s a = some s' -> Trap s')
    (htrap : forall s a s', Trap s -> given s a -> step s a = some s' ->
      Trap s')
    {s t : state} {labels : List label} (hs : Inv s)
    (hgiven : StepsMeet step given s labels)
    (hrun : run step s labels = some t) (ht : ¬ Trap t) :
    StepsMeet step ok s labels := by
  induction labels generalizing s with
  | nil => exact True.intro
  | cons a rest ih =>
      rcases run_cons_some hrun with ⟨s', hstep, hrest⟩
      have hgiven' := hgiven.right s' hstep
      constructor
      · by_contra hok
        have hfall := hfalls s a s' hs hgiven.left hok hstep
        exact ht (run_invariant_of_meets htrap hfall hgiven' hrest)
      · intro s'' hstep'
        rw [hstep] at hstep'
        rw [← Option.some.inj hstep']
        exact ih (hinv s a s' hs hgiven.left hstep) hgiven' hrest

theorem stepsMeet_of_forall {step : state -> label -> Option state}
    {ok : state -> label -> Prop} {labels : List label}
    (h : forall s a, a ∈ labels -> ok s a) (s : state) :
    StepsMeet step ok s labels := by
  induction labels generalizing s with
  | nil => exact True.intro
  | cons a rest ih =>
      have hrest := ih fun s b hb => h s b (List.mem_cons_of_mem a hb)
      exact ⟨h s a List.mem_cons_self, fun s' _ => hrest s'⟩

/-- A condition on the labels alone is met by the steps of a run exactly if
all labels of the run meet it. -/
theorem stepsMeet_iff_forall {step : state -> label -> Option state}
    {P : label -> Prop} {s t : state} {labels : List label}
    (hrun : run step s labels = some t) :
    StepsMeet step (fun _ a => P a) s labels <->
      forall a, a ∈ labels -> P a := by
  induction labels generalizing s with
  | nil => exact iff_of_true True.intro fun _ hmem => nomatch hmem
  | cons a rest ih =>
      rcases run_cons_some hrun with ⟨s', hstep, hrest⟩
      rw [List.forall_mem_cons, ← ih hrest]
      refine and_congr_right fun _ => ⟨fun h => h s' hstep, ?_⟩
      intro h s'' hstep'
      rw [hstep] at hstep'
      rw [← Option.some.inj hstep']
      exact h

theorem run_invariant {step : state -> label -> Option state}
    {Inv : state -> Prop}
    (hpres : forall s a s', Inv s -> step s a = some s' -> Inv s')
    {s t : state} {labels : List label}
    (hs : Inv s) (hrun : run step s labels = some t) : Inv t := by
  have hpres' : forall s a s', Inv s -> True -> step s a = some s' -> Inv s' :=
    fun s a s' hinv _ hstep => hpres s a s' hinv hstep
  have htrue : forall (s : state) (a : label), a ∈ labels -> True :=
    fun _ _ _ => True.intro
  exact run_invariant_of_meets hpres' hs (stepsMeet_of_forall htrue s) hrun

/-- What every step pays for out of a potential and its own gain, a run pays
for out of the potential it starts with and all gains. -/
theorem run_potential {step : state -> label -> Option state}
    {potential : state -> Nat} {cost gain : label -> Nat}
    (hpays : forall s a s', step s a = some s' ->
      potential s' + cost a ≤ potential s + gain a)
    {s t : state} {labels : List label} (hrun : run step s labels = some t) :
    potential t + (labels.map cost).sum ≤
      potential s + (labels.map gain).sum := by
  induction labels generalizing s with
  | nil =>
      have hst : s = t := by simpa using hrun
      simp [hst]
  | cons a rest ih =>
      rcases run_cons_some hrun with ⟨s', hstep, hrest⟩
      have hfirst := hpays s a s' hstep
      have hlater := ih hrest
      simp only [List.map_cons, List.sum_cons]
      omega

end Transition
end CallgentApi
