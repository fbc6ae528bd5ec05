import Mathlib

/-!
# Computations that fail

What is known of the parts of a computation in `Except` that has not failed.
-/

namespace CallgentApi
namespace Fallible

variable {e a b s : Type}

theorem exists_of_bind_ok {x : Except e a} {f : a -> Except e b} {result : b}
    (h : (x >>= f) = .ok result) :
    exists value, x = .ok value ∧ f value = .ok result := by
  cases hx : x with
  | error error =>
      rw [hx] at h
      cases h
  | ok value =>
      rw [hx] at h
      exact ⟨value, rfl, h⟩

theorem ok_bind (value : a) (f : a -> Except e b) :
    (Except.ok value >>= f) = f value := rfl

theorem exists_of_mem_mapM {f : a -> Except e b} {inputs : List a}
    {results : List b} (h : inputs.mapM f = .ok results) {result : b}
    (hmem : result ∈ results) :
    exists input, input ∈ inputs ∧ f input = .ok result := by
  induction inputs generalizing results with
  | nil =>
      have hnil : results = [] := by
        cases h
        rfl
      rw [hnil] at hmem
      cases hmem
  | cons first rest ih =>
      rw [List.mapM_cons] at h
      rcases exists_of_bind_ok h with ⟨value, hvalue, h⟩
      rcases exists_of_bind_ok h with ⟨values, hvalues, h⟩
      have hresults : value :: values = results := Except.ok.inj h
      rw [← hresults] at hmem
      rcases List.mem_cons.mp hmem with heq | hrest
      · rw [heq]
        exact ⟨first, List.mem_cons_self, hvalue⟩
      · rcases ih hvalues hrest with ⟨input, hinput, hresult⟩
        exact ⟨input, List.mem_cons_of_mem first hinput, hresult⟩

theorem length_of_mapM {f : a -> Except e b} {inputs : List a}
    {results : List b} (h : inputs.mapM f = .ok results) :
    results.length = inputs.length := by
  induction inputs generalizing results with
  | nil =>
      cases h
      rfl
  | cons first rest ih =>
      rw [List.mapM_cons] at h
      rcases exists_of_bind_ok h with ⟨value, _, h⟩
      rcases exists_of_bind_ok h with ⟨values, hvalues, h⟩
      rw [← show value :: values = results from Except.ok.inj h,
        List.length_cons, List.length_cons, ih hvalues]

theorem forall₂_of_mapM {f : a -> Except e b} {inputs : List a}
    {results : List b} (h : inputs.mapM f = .ok results) :
    List.Forall₂ (fun input result => f input = .ok result) inputs
      results := by
  induction inputs generalizing results with
  | nil =>
      cases h
      exact List.Forall₂.nil
  | cons first rest ih =>
      rw [List.mapM_cons] at h
      rcases exists_of_bind_ok h with ⟨value, hvalue, h⟩
      rcases exists_of_bind_ok h with ⟨values, hvalues, h⟩
      rw [← show value :: values = results from Except.ok.inj h]
      exact List.Forall₂.cons hvalue (ih hvalues)

theorem foldlM_appends {r : Type} {R : a -> List r -> Prop}
    (rows : s -> List r) {f : s -> a -> Except e s} {inputs : List a}
    {start stop : s}
    (hstep : forall state input next, f state input = .ok next ->
      exists added, rows next = rows state ++ added ∧ R input added)
    (h : inputs.foldlM f start = .ok stop) :
    exists added, rows stop = rows start ++ added.flatten ∧
      List.Forall₂ R inputs added := by
  induction inputs generalizing start with
  | nil =>
      have hstop : start = stop := Except.ok.inj h
      rw [← hstop]
      exact ⟨[], (List.append_nil _).symm, List.Forall₂.nil⟩
  | cons first rest ih =>
      rw [List.foldlM_cons] at h
      rcases exists_of_bind_ok h with ⟨next, hnext, h⟩
      rcases hstep start first next hnext with ⟨added, hadded, hfirst⟩
      rcases ih h with ⟨others, hothers, hrest⟩
      refine ⟨added :: others, ?_, List.Forall₂.cons hfirst hrest⟩
      rw [hothers, hadded, List.flatten_cons, List.append_assoc]

theorem foldlM_appends_one {r : Type} {R : a -> r -> Prop}
    (rows : s -> List r) {f : s -> a -> Except e s} {inputs : List a}
    {start stop : s}
    (hstep : forall state input next, f state input = .ok next ->
      exists row, rows next = rows state ++ [row] ∧ R input row)
    (h : inputs.foldlM f start = .ok stop) :
    exists added, rows stop = rows start ++ added ∧
      List.Forall₂ R inputs added := by
  have hsingle : forall state input next, f state input = .ok next ->
      exists added, rows next = rows state ++ added ∧
        exists row, added = [row] ∧ R input row := by
    intro state input next hnext
    rcases hstep state input next hnext with ⟨row, hrow, hresult⟩
    exact ⟨[row], hrow, row, rfl, hresult⟩
  rcases foldlM_appends rows hsingle h with ⟨added, hadded, hall⟩
  refine ⟨added.flatten, hadded, ?_⟩
  clear hadded h
  induction hall with
  | nil => exact List.Forall₂.nil
  | cons hfirst _ ih =>
      rcases hfirst with ⟨row, heq, hrow⟩
      rw [heq]
      exact List.Forall₂.cons hrow ih

theorem foldlM_invariant (Inv : s -> Prop) {f : s -> a -> Except e s}
    {inputs : List a} {start stop : s}
    (hstep : forall state input next, input ∈ inputs -> Inv state ->
      f state input = .ok next -> Inv next)
    (hstart : Inv start) (h : inputs.foldlM f start = .ok stop) : Inv stop := by
  induction inputs generalizing start with
  | nil =>
      have hstop : start = stop := Except.ok.inj h
      exact hstop ▸ hstart
  | cons first rest ih =>
      rw [List.foldlM_cons] at h
      rcases exists_of_bind_ok h with ⟨next, hnext, hrest⟩
      have hkept := hstep start first next List.mem_cons_self hstart hnext
      apply ih _ hkept hrest
      intro state input next hmem
      exact hstep state input next (List.mem_cons_of_mem first hmem)

theorem forall_of_allM {f : a -> Except e Bool} {inputs : List a}
    (h : inputs.allM f = .ok true) :
    forall input, input ∈ inputs -> f input = .ok true := by
  induction inputs with
  | nil =>
      intro input hinput
      cases hinput
  | cons first rest ih =>
      rw [List.allM_cons] at h
      rcases exists_of_bind_ok h with ⟨passed, hfirst, hrest⟩
      cases passed with
      | false => cases hrest
      | true =>
          intro input hinput
          rcases List.mem_cons.mp hinput with heq | hinput
          · rw [heq]
            exact hfirst
          · exact ih hrest input hinput

theorem foldlM_history (Inv : List a -> s -> Prop) {f : s -> a -> Except e s}
    {inputs : List a} {start stop : s}
    (hstep : forall taken state input next, Inv taken state ->
      f state input = .ok next -> Inv (taken ++ [input]) next)
    (hstart : Inv [] start) (h : inputs.foldlM f start = .ok stop) :
    Inv inputs stop := by
  have hrun : forall taken, Inv taken start -> Inv (taken ++ inputs) stop := by
    clear hstart
    induction inputs generalizing start with
    | nil =>
        intro taken htaken
        have hstop : start = stop := Except.ok.inj h
        rw [List.append_nil, ← hstop]
        exact htaken
    | cons first rest ih =>
        intro taken htaken
        rw [List.foldlM_cons] at h
        rcases exists_of_bind_ok h with ⟨next, hnext, hrest⟩
        have hlater := ih hrest (taken ++ [first])
          (hstep taken start first next htaken hnext)
        rw [List.append_assoc] at hlater
        exact hlater
  exact hrun [] hstart

theorem foldlM_ok_iff (Inv : s -> Prop) (p : a -> Prop)
    {f : s -> a -> Except e s} {inputs : List a} {start : s}
    (hiff : forall state input, input ∈ inputs -> Inv state ->
      ((exists next, f state input = .ok next) <-> p input))
    (hstep : forall state input next, input ∈ inputs -> Inv state ->
      f state input = .ok next -> Inv next)
    (hstart : Inv start) :
    (exists stop, inputs.foldlM f start = .ok stop) <->
      forall input, input ∈ inputs -> p input := by
  induction inputs generalizing start with
  | nil => exact iff_of_true ⟨start, rfl⟩ fun _ h => (nomatch h)
  | cons first rest ih =>
      have hfirstIff := hiff start first List.mem_cons_self hstart
      rw [List.forall_mem_cons, List.foldlM_cons, ← hfirstIff]
      cases hfirst : f start first with
      | error error =>
          apply iff_of_false
          · intro h
            rcases h with ⟨stop, hstop⟩
            cases hstop
          · intro h
            rcases h.left with ⟨next, hnext⟩
            cases hnext
      | ok next =>
          have hrest := ih
            (fun state input hmem => hiff state input (.tail _ hmem))
            (fun state input next hmem => hstep state input next (.tail _ hmem))
            (hstep start first next List.mem_cons_self hstart hfirst)
          exact hrest.trans (and_iff_right ⟨next, rfl⟩).symm

theorem exists_mapM {p : b -> Prop} {f : a -> Except e b} {inputs : List a}
    (h : forall input, input ∈ inputs ->
      exists result, f input = .ok result ∧ p result) :
    exists results, inputs.mapM f = .ok results ∧
      forall result, result ∈ results -> p result := by
  induction inputs with
  | nil => exact ⟨[], rfl, fun _ hmem => (nomatch hmem)⟩
  | cons first rest ih =>
      rcases h first List.mem_cons_self with ⟨result, hfirst, hresult⟩
      rcases ih (fun input hmem => h input (.tail _ hmem)) with
        ⟨results, hrest, hresults⟩
      refine ⟨result :: results, ?_, List.forall_mem_cons.mpr
        ⟨hresult, hresults⟩⟩
      rw [List.mapM_cons, hfirst, ok_bind, hrest]
      rfl

/-! ## What is thrown -/

/-- If the computation fails, its error satisfies `p`. -/
def Throws (p : e -> Prop) (x : Except e a) : Prop :=
  forall error, x = .error error -> p error

namespace Throws

variable {p : e -> Prop}

theorem ok (value : a) : Throws p (.ok value : Except e a) := by
  intro error h
  cases h

theorem error {error : e} (h : p error) :
    Throws p (.error error : Except e a) := by
  intro other heq
  cases heq
  exact h

theorem bind {x : Except e a} {f : a -> Except e b} (hx : Throws p x)
    (hf : forall value, x = .ok value -> Throws p (f value)) :
    Throws p (x >>= f) := by
  cases hvalue : x with
  | error error =>
      intro other heq
      cases heq
      exact hx error hvalue
  | ok value => exact hf value hvalue

theorem map {x : Except e a} (hx : Throws p x) (f : a -> b) :
    Throws p (x.map f) := by
  cases hvalue : x with
  | error error =>
      intro other heq
      cases heq
      exact hx error hvalue
  | ok value => exact ok _

theorem foldlM {f : s -> a -> Except e s}
    (hf : forall state input, Throws p (f state input)) (inputs : List a)
    (start : s) : Throws p (inputs.foldlM f start) := by
  induction inputs generalizing start with
  | nil => exact ok start
  | cons first rest ih =>
      rw [List.foldlM_cons]
      exact bind (hf start first) fun next _ => ih next

theorem mapM {f : a -> Except e b} (hf : forall input, Throws p (f input))
    (inputs : List a) : Throws p (inputs.mapM f) := by
  induction inputs with
  | nil => exact ok []
  | cons first rest ih =>
      rw [List.mapM_cons]
      apply bind (hf first)
      intro value _
      exact bind ih fun values _ => ok _

end Throws

end Fallible
end CallgentApi
