import Mathlib

/-!
# Lists in correspondence

What is known of lists whose elements are related one by one, and of lists
whose elements can be paired.
-/

namespace CallgentApi
namespace Correspondence

variable {a b d : Type}

theorem exists_of_mem_forall₂ {R : a -> b -> Prop} {xs : List a} {ys : List b}
    (h : List.Forall₂ R xs ys) {y : b} (hy : y ∈ ys) :
    exists x, x ∈ xs ∧ R x y := by
  induction h with
  | nil => cases hy
  | cons hfirst _ ih =>
      rcases List.mem_cons.mp hy with heq | hrest
      · rw [heq]
        exact ⟨_, List.mem_cons_self, hfirst⟩
      · rcases ih hrest with ⟨x, hx, hxy⟩
        exact ⟨x, List.mem_cons_of_mem _ hx, hxy⟩

theorem exists_zip_of_forall₂ {R : a -> b -> Prop} {xs : List a} {ys : List b}
    (h : List.Forall₂ R xs ys) {x : a} (hx : x ∈ xs) :
    exists y, (x, y) ∈ xs.zip ys ∧ R x y := by
  induction h with
  | nil => cases hx
  | cons hfirst _ ih =>
      rcases List.mem_cons.mp hx with heq | hrest
      · rw [heq]
        exact ⟨_, List.mem_cons_self, hfirst⟩
      · rcases ih hrest with ⟨y, hy, hxy⟩
        exact ⟨y, List.mem_cons_of_mem _ hy, hxy⟩

theorem getElem?_of_forall₂ {R : a -> b -> Prop} {xs : List a} {ys : List b}
    (h : List.Forall₂ R xs ys) {i : Nat} {x : a} (hx : xs[i]? = some x) :
    exists y, ys[i]? = some y ∧ R x y := by
  induction h generalizing i with
  | nil => cases hx
  | cons hfirst _ ih =>
      cases i with
      | zero =>
          cases hx
          exact ⟨_, rfl, hfirst⟩
      | succ i => exact ih hx

theorem forall₂_comp {R : a -> b -> Prop} {S : b -> d -> Prop} {xs : List a}
    {ys : List b} {zs : List d} (h : List.Forall₂ R xs ys)
    (h' : List.Forall₂ S ys zs) :
    List.Forall₂ (fun x z => exists y, y ∈ ys ∧ R x y ∧ S y z) xs zs := by
  induction h generalizing zs with
  | nil =>
      cases h'
      exact List.Forall₂.nil
  | cons hfirst _ ih =>
      cases h' with
      | cons hsecond hrest =>
          apply List.Forall₂.cons
          · exact ⟨_, List.mem_cons_self, hfirst, hsecond⟩
          · apply (ih hrest).imp
            intro x z hxz
            rcases hxz with ⟨y, hy, hR, hS⟩
            exact ⟨y, List.mem_cons_of_mem _ hy, hR, hS⟩

/-- Where related elements agree exactly if the first of them is good, the
lists agree exactly if all elements of the first are good. -/
theorem forall₂_iff_forall {R S : a -> b -> Prop} {good : a -> Prop}
    {xs : List a} {ys : List b} (h : List.Forall₂ R xs ys)
    (hiff : forall x y, x ∈ xs -> R x y -> (S x y <-> good x)) :
    List.Forall₂ S xs ys <-> forall x, x ∈ xs -> good x := by
  induction h with
  | nil => simp
  | cons hfirst _ ih =>
      rw [List.forall₂_cons, List.forall_mem_cons,
        hiff _ _ List.mem_cons_self hfirst, ih]
      intro x y hx hxy
      exact hiff x y (List.mem_cons_of_mem _ hx) hxy

theorem map_eq_of_forall₂ {R : a -> b -> Prop} {f : a -> d} {g : b -> d}
    {xs : List a} {ys : List b} (h : List.Forall₂ R xs ys)
    (heq : forall x y, R x y -> f x = g y) : xs.map f = ys.map g := by
  induction h with
  | nil => rfl
  | cons hfirst _ ih => rw [List.map_cons, List.map_cons, ih, heq _ _ hfirst]

theorem forall₂_flatten {R : a -> b -> Prop} {xss : List (List a)}
    {yss : List (List b)} (h : List.Forall₂ (List.Forall₂ R) xss yss) :
    List.Forall₂ R xss.flatten yss.flatten :=
  List.rel_flatten h

def Correspond (R : a -> b -> Prop) (xs : List a) (ys : List b) : Prop :=
  exists pairs : List (a × b), (pairs.map Prod.fst).Perm xs ∧
    (pairs.map Prod.snd).Perm ys ∧
    forall pair, pair ∈ pairs -> R pair.1 pair.2

theorem correspond_of_forall₂ {R : a -> b -> Prop} {xs xs' : List a}
    {ys : List b} (h : List.Forall₂ R xs ys) (hperm : xs.Perm xs') :
    Correspond R xs' ys := by
  refine ⟨xs.zip ys, ?_, ?_, ?_⟩
  · rw [List.map_fst_zip (Nat.le_of_eq h.length_eq)]
    exact hperm
  · rw [List.map_snd_zip (Nat.le_of_eq h.length_eq.symm)]
  · intro pair hpair
    exact List.forall₂_zip h hpair

theorem Correspond.exists_of_left {R : a -> b -> Prop} {xs : List a}
    {ys : List b} (h : Correspond R xs ys) {x : a} (hx : x ∈ xs) :
    exists y, y ∈ ys ∧ R x y := by
  rcases h with ⟨pairs, hfst, hsnd, hall⟩
  rcases List.mem_map.mp (hfst.mem_iff.mpr hx) with ⟨pair, hpair, heq⟩
  refine ⟨pair.2, hsnd.mem_iff.mp (List.mem_map_of_mem hpair), ?_⟩
  rw [← heq]
  exact hall pair hpair

theorem Correspond.exists_of_right {R : a -> b -> Prop} {xs : List a}
    {ys : List b} (h : Correspond R xs ys) {y : b} (hy : y ∈ ys) :
    exists x, x ∈ xs ∧ R x y := by
  rcases h with ⟨pairs, hfst, hsnd, hall⟩
  rcases List.mem_map.mp (hsnd.mem_iff.mpr hy) with ⟨pair, hpair, heq⟩
  refine ⟨pair.1, hfst.mem_iff.mp (List.mem_map_of_mem hpair), ?_⟩
  rw [← heq]
  exact hall pair hpair

end Correspondence
end CallgentApi
