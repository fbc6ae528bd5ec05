import Mathlib

/-!
# Alternatives of requirements

A list of alternatives is met when one of them is, and an alternative is met
when all that it requires is.  Without alternatives nothing is required.
-/

namespace CallgentApi
namespace Alternatives

variable {a b : Type} {s : a -> Prop}

def Meets (s : a -> Prop) (requirement : List a) : Prop :=
  forall x, x ∈ requirement -> s x

def Accepts (s : a -> Prop) (alternatives : List (List a)) : Prop :=
  alternatives = [] ∨
    exists requirement, requirement ∈ alternatives ∧ Meets s requirement

theorem accepts_nil : Accepts s [] :=
  Or.inl rfl

theorem accepts_of_mem {requirement : List a} {alternatives : List (List a)}
    (hmem : requirement ∈ alternatives) (h : Meets s requirement) :
    Accepts s alternatives :=
  Or.inr ⟨requirement, hmem, h⟩

theorem accepts_iff_of_mem {requirement : List a}
    {alternatives : List (List a)} (hmem : requirement ∈ alternatives) :
    Accepts s alternatives <->
      exists other, other ∈ alternatives ∧ Meets s other := by
  constructor
  · intro h
    rcases h with hnil | hsome
    · rw [hnil] at hmem
      cases hmem
    · exact hsome
  · exact Or.inr

theorem accepts_congr {t : b -> Prop} {alternatives : List (List a)}
    {others : List (List b)}
    (h : List.Forall₂ (fun p q => Meets s p <-> Meets t q) alternatives
      others) :
    Accepts s alternatives <-> Accepts t others := by
  have hmeets : (exists p, p ∈ alternatives ∧ Meets s p) <->
      exists q, q ∈ others ∧ Meets t q := by
    induction h with
    | nil => simp
    | cons hfirst hrest ih => simp [hfirst, ih]
  unfold Accepts
  rw [hmeets]
  cases h with
  | nil => simp
  | cons hfirst hrest => simp

/-- Each of the added alternatives requires all of some own one; where there is
none, it adds nothing or the one that requires nothing. -/
def Absorbed (added own : List (List a)) : Prop :=
  if own = [] then added = [] ∨ [] ∈ added
  else forall requirement, requirement ∈ added ->
    exists other, other ∈ own ∧ forall x, x ∈ other -> x ∈ requirement

theorem absorbed_iff (added own : List (List a)) :
    Absorbed added own <->
      forall s : a -> Prop, Accepts s (added ++ own) <-> Accepts s own := by
  unfold Absorbed
  by_cases hown : own = []
  · rw [if_pos hown, hown, List.append_nil]
    constructor
    · intro h s
      apply iff_of_true _ accepts_nil
      rcases h with hnil | hempty
      · exact Or.inl hnil
      · apply accepts_of_mem hempty
        intro x hx
        cases hx
    · intro h
      -- where nothing is given, only an empty alternative is met
      rcases (h fun _ => False).mpr accepts_nil with hnil | hsome
      · exact Or.inl hnil
      · rcases hsome with ⟨requirement, hmem, hmeets⟩
        have hempty : requirement = [] :=
          List.eq_nil_iff_forall_not_mem.mpr hmeets
        exact Or.inr (hempty ▸ hmem)
  · rw [if_neg hown]
    rcases List.exists_mem_of_ne_nil own hown with ⟨first, hfirst⟩
    constructor
    · intro h s
      rw [accepts_iff_of_mem (List.mem_append_right added hfirst),
        accepts_iff_of_mem hfirst]
      constructor
      · intro hmet
        rcases hmet with ⟨requirement, hmem, hmeets⟩
        rcases List.mem_append.mp hmem with hadded | hmem
        · rcases h requirement hadded with ⟨other, hother, hsubset⟩
          exact ⟨other, hother, fun x hx => hmeets x (hsubset x hx)⟩
        · exact ⟨requirement, hmem, hmeets⟩
      · intro hmet
        rcases hmet with ⟨requirement, hmem, hmeets⟩
        exact ⟨requirement, List.mem_append_right added hmem, hmeets⟩
    · intro h requirement hadded
      -- exactly what the added alternative requires is given
      have hmet : Accepts (· ∈ requirement) (added ++ own) :=
        accepts_of_mem (List.mem_append_left own hadded) fun x hx => hx
      exact (accepts_iff_of_mem hfirst).mp
        ((h (· ∈ requirement)).mp hmet)

end Alternatives
end CallgentApi
