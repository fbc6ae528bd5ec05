import Mathlib

/-!
# The bracket that closes a list

Over any alphabet, with a number of brackets open at the start: the place
where as many have been closed is the end of the first part that closes them.
-/

namespace CallgentApi
namespace Brackets

variable {a : Type} [DecidableEq a]

/-- How far the list reaches up to the bracket that closes the first of
`count` open ones. -/
def closeIndex (opening closing : a) (count : Nat) : List a -> Option Nat
  | [] => none
  | x :: rest =>
      if x = opening then
        (closeIndex opening closing (count + 1) rest).map (· + 1)
      else if x = closing then
        if count = 1 then some 1
        else (closeIndex opening closing (count - 1) rest).map (· + 1)
      else (closeIndex opening closing count rest).map (· + 1)

/-- The list closes `count` open brackets with its last element, and no part
of it before does. -/
structure Closes (opening closing : a) (count : Nat) (s : List a) : Prop where
  total : count + s.count opening = s.count closing
  before : forall front rest, front ++ rest = s -> rest ≠ [] ->
    front.count closing < count + front.count opening

variable {opening closing : a} {count : Nat} {s : List a}

theorem not_closes_nil (h : 0 < count) : ¬ Closes opening closing count [] := by
  intro hcloses
  have htotal := hcloses.total
  rw [List.count_nil, List.count_nil] at htotal
  omega

theorem closes_cons {x : a} {count' : Nat} (hcount : 0 < count)
    (htotal : count + (x :: s).count opening = (x :: s).count closing <->
      count' + s.count opening = s.count closing)
    (hbefore : forall front : List a,
      (x :: front).count closing < count + (x :: front).count opening <->
        front.count closing < count' + front.count opening) :
    Closes opening closing count (x :: s) <->
      Closes opening closing count' s := by
  constructor
  · intro h
    constructor
    · exact htotal.mp h.total
    · intro front rest hsplit hrest
      have hcons : (x :: front) ++ rest = x :: s := by
        rw [List.cons_append, hsplit]
      exact (hbefore front).mp (h.before (x :: front) rest hcons hrest)
  · intro h
    constructor
    · exact htotal.mpr h.total
    · intro front rest hsplit hrest
      cases front with
      | nil =>
          rw [List.count_nil, List.count_nil]
          exact hcount
      | cons y front =>
          injection hsplit with hx hsplit
          rw [hx]
          exact (hbefore front).mpr (h.before front rest hsplit hrest)

theorem closes_opening (hne : opening ≠ closing) (hcount : 0 < count) :
    Closes opening closing count (opening :: s) <->
      Closes opening closing (count + 1) s := by
  apply closes_cons hcount
  · rw [List.count_cons_self, List.count_cons_of_ne hne]
    omega
  · intro front
    rw [List.count_cons_self, List.count_cons_of_ne hne]
    omega

theorem closes_other {x : a} (hopening : x ≠ opening) (hclosing : x ≠ closing)
    (hcount : 0 < count) :
    Closes opening closing count (x :: s) <->
      Closes opening closing count s := by
  apply closes_cons hcount
  · rw [List.count_cons_of_ne hopening, List.count_cons_of_ne hclosing]
  · intro front
    rw [List.count_cons_of_ne hopening, List.count_cons_of_ne hclosing]

theorem closes_closing (hne : opening ≠ closing) (hcount : 1 < count) :
    Closes opening closing count (closing :: s) <->
      Closes opening closing (count - 1) s := by
  apply closes_cons (Nat.lt_of_succ_lt hcount)
  · rw [List.count_cons_self, List.count_cons_of_ne hne.symm]
    omega
  · intro front
    rw [List.count_cons_self, List.count_cons_of_ne hne.symm]
    omega

theorem closes_last (hne : opening ≠ closing) :
    Closes opening closing 1 (closing :: s) <-> s = [] := by
  constructor
  · intro h
    cases s with
    | nil => rfl
    | cons x rest =>
        have hbefore := h.before [closing] (x :: rest) rfl
          (List.cons_ne_nil _ _)
        rw [List.count_cons_self, List.count_cons_of_ne hne.symm] at hbefore
        simp at hbefore
  · intro hs
    rw [hs]
    constructor
    · rw [List.count_cons_self, List.count_cons_of_ne hne.symm]
      rfl
    · intro front rest hsplit hrest
      cases front with
      | nil => exact Nat.one_pos
      | cons y front =>
          injection hsplit with _ hsplit
          exact absurd (List.append_eq_nil_iff.mp hsplit).right hrest

theorem closeIndex_eq_some_iff (hne : opening ≠ closing) (hcount : 0 < count)
    (n : Nat) :
    closeIndex opening closing count s = some n <->
      exists front rest, s = front ++ rest ∧ front.length = n ∧
        Closes opening closing count front := by
  induction s generalizing count n with
  | nil =>
      constructor
      · intro h
        cases h
      · intro h
        rcases h with ⟨front, rest, hsplit, _, hcloses⟩
        rw [(List.append_eq_nil_iff.mp hsplit.symm).left] at hcloses
        exact absurd hcloses (not_closes_nil hcount)
  | cons x s ih =>
      have hstep : forall count', 0 < count' ->
          (forall front, Closes opening closing count (x :: front) <->
            Closes opening closing count' front) ->
          ((closeIndex opening closing count' s).map (· + 1) = some n <->
            exists front rest, x :: s = front ++ rest ∧ front.length = n ∧
              Closes opening closing count front) := by
        intro count' hcount' hcloses
        constructor
        · intro h
          rcases Option.map_eq_some_iff.mp h with ⟨m, hm, hn⟩
          rcases (ih hcount' m).mp hm with ⟨front, rest, hsplit, hlength, hfront⟩
          exists x :: front, rest
          constructor
          · rw [hsplit]
            rfl
          constructor
          · rw [List.length_cons, hlength]
            exact hn
          · exact (hcloses front).mpr hfront
        · intro h
          rcases h with ⟨front, rest, hsplit, hlength, hfront⟩
          cases front with
          | nil => exact absurd hfront (not_closes_nil hcount)
          | cons y front =>
              injection hsplit with hx hsplit
              rw [← hx] at hfront
              have hindex := (ih hcount' front.length).mpr
                ⟨front, rest, hsplit, rfl, (hcloses front).mp hfront⟩
              rw [hindex]
              exact congrArg some hlength
      unfold closeIndex
      by_cases hopening : x = opening
      · rw [if_pos hopening]
        apply hstep _ (Nat.succ_pos count)
        intro front
        rw [hopening]
        exact closes_opening hne hcount
      · rw [if_neg hopening]
        by_cases hclosing : x = closing
        · rw [if_pos hclosing]
          by_cases hone : count = 1
          · rw [if_pos hone, hone, hclosing]
            constructor
            · intro h
              injection h with hn
              exists [closing], s
              exact ⟨rfl, hn, (closes_last hne).mpr rfl⟩
            · intro h
              rcases h with ⟨front, rest, hsplit, hlength, hfront⟩
              cases front with
              | nil => exact absurd hfront (not_closes_nil Nat.one_pos)
              | cons y front =>
                  injection hsplit with hx hsplit
                  rw [← hx] at hfront
                  rw [(closes_last hne).mp hfront] at hlength
                  exact congrArg some hlength
          · rw [if_neg hone]
            have hmany : 1 < count := by omega
            apply hstep _ (by omega)
            intro front
            rw [hclosing]
            exact closes_closing hne hmany
        · rw [if_neg hclosing]
          apply hstep _ hcount
          intro front
          exact closes_other hopening hclosing hcount

theorem Closes.getLast (h : Closes opening closing count s) (hs : s ≠ []) :
    s.getLast hs = closing := by
  have hsplit := List.dropLast_concat_getLast hs
  have hbefore := h.before s.dropLast [s.getLast hs] hsplit
    (List.cons_ne_nil _ _)
  have htotal := h.total
  rw [← hsplit, List.count_append, List.count_append] at htotal
  apply Classical.byContradiction
  intro hne
  have hzero : [s.getLast hs].count closing = 0 :=
    List.count_eq_zero_of_not_mem fun hmem =>
      hne (List.mem_singleton.mp hmem).symm
  omega

end Brackets
end CallgentApi
