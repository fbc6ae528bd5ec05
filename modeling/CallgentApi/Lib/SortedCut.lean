import Mathlib

/-!
# Sorted lists and what stands after one of their elements

Two lists sorted by a relation without ties agree as soon as they have the
same elements.  With ties this fails, but the elements after one that shares
its rank with no other are still the same, whatever the order of the others.
-/

namespace CallgentApi
namespace SortedCut

variable {alpha : Type _}

/-- No two distinct elements of the list have the same rank. -/
def NoTies (le : alpha -> alpha -> Prop) (l : List alpha) : Prop :=
  forall a, a ∈ l -> forall b, b ∈ l -> le a b -> le b a -> a = b

/-- The element shares its rank with no other element of the list. -/
def Untied (le : alpha -> alpha -> Prop) (x : alpha) (l : List alpha) : Prop :=
  forall y, y ∈ l -> le x y -> le y x -> y = x

instance [DecidableEq alpha] (le : alpha -> alpha -> Prop) [DecidableRel le]
    (l : List alpha) : Decidable (NoTies le l) :=
  inferInstanceAs (Decidable
    (forall a, a ∈ l -> forall b, b ∈ l -> le a b -> le b a -> a = b))

instance [DecidableEq alpha] (le : alpha -> alpha -> Prop) [DecidableRel le]
    (x : alpha) (l : List alpha) : Decidable (Untied le x l) :=
  inferInstanceAs (Decidable
    (forall y, y ∈ l -> le x y -> le y x -> y = x))

theorem Untied.of_perm {le : alpha -> alpha -> Prop} {l l' : List alpha}
    {x : alpha} (h : Untied le x l) (hperm : l.Perm l') : Untied le x l' :=
  fun y hy => h y (hperm.mem_iff.mpr hy)

theorem eq_of_perm_of_sorted {le : alpha -> alpha -> Prop}
    {l l' : List alpha} (hties : NoTies le l)
    (hl : l.Pairwise le) (hl' : l'.Pairwise le) (hperm : l.Perm l') :
    l = l' := by
  refine List.Perm.eq_of_pairwise ?_ hl hl' hperm
  intro a b ha hb hab hba
  exact hties a ha b (hperm.mem_iff.mpr hb) hab hba

theorem mem_after_iff {le : alpha -> alpha -> Prop}
    {before after : List alpha} {x y : alpha}
    (hsorted : (before ++ x :: after).Pairwise le)
    (hnodup : (before ++ x :: after).Nodup)
    (huntied : Untied le x (before ++ x :: after)) :
    y ∈ after <-> y ∈ before ++ x :: after ∧ y ≠ x ∧ le x y := by
  rw [List.pairwise_append] at hsorted
  rcases hsorted with ⟨_, htail, hcross⟩
  have hafter : forall z, z ∈ after -> le x z :=
    (List.pairwise_cons.mp htail).left
  have hbefore : forall z, z ∈ before -> le z x :=
    fun z hz => hcross z hz x List.mem_cons_self
  have hxAfter : x ∉ after :=
    (List.nodup_cons.mp (List.nodup_append.mp hnodup).right.left).left
  constructor
  · intro hy
    refine ⟨by simp [hy], ?_, hafter y hy⟩
    intro hyx
    exact hxAfter (hyx ▸ hy)
  · rintro ⟨hy, hyx, hle⟩
    rcases List.mem_append.mp hy with hyBefore | hyTail
    · exact absurd (huntied y hy hle (hbefore y hyBefore)) hyx
    · rcases List.mem_cons.mp hyTail with heq | hyAfter
      · exact absurd heq hyx
      · exact hyAfter

theorem after_perm_after {le : alpha -> alpha -> Prop}
    {before after before' after' : List alpha} {x : alpha}
    (hsorted : (before ++ x :: after).Pairwise le)
    (hsorted' : (before' ++ x :: after').Pairwise le)
    (hnodup : (before ++ x :: after).Nodup)
    (huntied : Untied le x (before ++ x :: after))
    (hperm : (before ++ x :: after).Perm (before' ++ x :: after')) :
    after.Perm after' := by
  have hnodup' : (before' ++ x :: after').Nodup := hperm.nodup_iff.mp hnodup
  have htail : after.Nodup :=
    (List.nodup_cons.mp (List.nodup_append.mp hnodup).right.left).right
  have htail' : after'.Nodup :=
    (List.nodup_cons.mp (List.nodup_append.mp hnodup').right.left).right
  rw [List.perm_ext_iff_of_nodup htail htail']
  intro y
  rw [mem_after_iff hsorted hnodup huntied,
    mem_after_iff hsorted' hnodup' (huntied.of_perm hperm),
    hperm.mem_iff]

theorem mem_after_of_sublist {before after : List alpha} {x y : alpha}
    (hnodup : (before ++ x :: after).Nodup)
    (hsub : List.Sublist [x, y] (before ++ x :: after)) : y ∈ after := by
  rcases List.nodup_append.mp hnodup with ⟨_, htail, hcross⟩
  have hxAfter : x ∉ after := (List.nodup_cons.mp htail).left
  have hxBefore : x ∉ before := fun h =>
    hcross x h x List.mem_cons_self rfl
  rcases List.sublist_append_iff.mp hsub with ⟨first, second, heq, hfirst, hsecond⟩
  cases first with
  | nil =>
      rw [List.nil_append] at heq
      rw [← heq] at hsecond
      cases hsecond with
      | cons _ h => exact absurd (h.mem List.mem_cons_self) hxAfter
      | cons_cons _ h => exact List.singleton_sublist.mp h
  | cons z rest =>
      have hz : x = z := (List.cons.inj heq).left
      exact absurd (hz ▸ hfirst.mem List.mem_cons_self) hxBefore

end SortedCut
end CallgentApi
