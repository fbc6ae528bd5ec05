import CallgentApi.Agents.Answer

/-!
# Where code fences stand

A fence starts at the start of a line, and goes on over words and space up to
the last end of a line that it reaches.
-/

namespace CallgentApi
namespace Agents

open Js

theorem isSpace_of_isLineEnd {c : Char} (h : isLineEnd c = true) :
    isSpace c = true := by
  unfold isLineEnd at h
  unfold isSpace
  simp only [decide_eq_true_eq] at h ⊢
  omega

theorem isWordOrSpace_of_isSpace {c : Char} (h : isSpace c = true) :
    isWordOrSpace c = true := by
  unfold isWordOrSpace
  rw [h, Bool.or_true]

theorem isWordOrSpace_of_isLineEnd {c : Char} (h : isLineEnd c = true) :
    isWordOrSpace c = true :=
  isWordOrSpace_of_isSpace (isSpace_of_isLineEnd h)

theorem isLineEnd_eq_false {c : Char} (h : isWordOrSpace c = false) :
    isLineEnd c = false := by
  cases hend : isLineEnd c with
  | false => rfl
  | true =>
      rw [isWordOrSpace_of_isLineEnd hend] at h
      cases h

/-! ## What follows the backticks -/

/-- Where a line ends: at the end of the text or before what ends a line. -/
def AtLineEnd (r : Text) : Prop :=
  forall c, r.head? = some c -> isLineEnd c = true

theorem matchTail_stop {z : Char} (hz : isWordOrSpace z = false) (y : Text) :
    matchTail (z :: y) = none := by
  unfold matchTail
  simp [hz, isLineEnd_eq_false hz]

theorem matchTail_of_some {c : Char} (hc : isWordOrSpace c = true) {y : Text}
    {n : Nat} (hy : matchTail y = some n) :
    matchTail (c :: y) = some (n + 1) := by
  unfold matchTail
  rw [if_pos hc, hy]

theorem matchTail_of_none {y : Text} (hy : matchTail y = none) (c : Char) :
    matchTail (c :: y) = if isLineEnd c then some 0 else none := by
  unfold matchTail
  rw [hy]
  split
  · rename_i n hn
    split at hn
    · cases hn
    · cases hn
  · rfl

theorem exists_matchTail {r : Text} (hr : AtLineEnd r) :
    exists n, matchTail r = some n := by
  cases r with
  | nil => exact ⟨0, rfl⟩
  | cons c y =>
      have hc := hr c rfl
      cases hy : matchTail y with
      | none =>
          rw [matchTail_of_none hy, if_pos hc]
          exact ⟨0, rfl⟩
      | some n =>
          exact ⟨n + 1, matchTail_of_some (isWordOrSpace_of_isLineEnd hc) hy⟩

theorem matchTail_append_stop {z : Char} (hz : isWordOrSpace z = false)
    (x y : Text) : matchTail (x ++ z :: y) = matchTail (x ++ [z]) := by
  induction x with
  | nil => exact (matchTail_stop hz y).trans (matchTail_stop hz []).symm
  | cons c x ih => rw [List.cons_append, List.cons_append, matchTail, matchTail, ih]

theorem exists_of_matchTail {s : Text} {n : Nat} (h : matchTail s = some n) :
    exists t r, s = t ++ r ∧ t.length = n ∧
      (forall c, c ∈ t -> isWordOrSpace c = true) ∧ AtLineEnd r := by
  induction s generalizing n with
  | nil =>
      cases h
      refine ⟨[], [], rfl, rfl, ?_, ?_⟩
      · intro c hc
        cases hc
      · intro c hc
        cases hc
  | cons c rest ih =>
      cases hrest : matchTail rest with
      | none =>
          rw [matchTail_of_none hrest] at h
          split at h
          · rename_i hend
            cases h
            refine ⟨[], c :: rest, rfl, rfl, ?_, ?_⟩
            · intro d hd
              cases hd
            · intro d hd
              cases hd
              exact hend
          · cases h
      | some m =>
          cases hc : isWordOrSpace c with
          | false =>
              rw [matchTail_stop hc] at h
              cases h
          | true =>
              rw [matchTail_of_some hc hrest] at h
              cases h
              rcases ih hrest with ⟨t, r, hsplit, hlength, hall, hend⟩
              exists c :: t, r
              constructor
              · rw [hsplit]
                rfl
              constructor
              · rw [List.length_cons, hlength]
              constructor
              · intro d hd
                cases hd with
                | head => exact hc
                | tail _ hd => exact hall d hd
              · exact hend

/-! ## The pieces of a split -/

/-- Whether a line starts after the text, when one does or does not start
before it. -/
def lineStart (atStart : Bool) (s : Text) : Bool :=
  (s.getLast?.map isLineEnd).getD atStart

theorem lineStart_cons (atStart : Bool) (c : Char) (s : Text) :
    lineStart atStart (c :: s) = lineStart (isLineEnd c) s := by
  unfold lineStart
  rw [List.getLast?_cons]
  cases s.getLast? with
  | none => rfl
  | some d => rfl

theorem lineStart_append (atStart : Bool) (p s : Text) :
    lineStart atStart (p ++ s) = lineStart (lineStart atStart p) s := by
  induction p generalizing atStart with
  | nil => rfl
  | cons c p ih => rw [List.cons_append, lineStart_cons, lineStart_cons, ih]

theorem splitFences_skip (fence : Text -> Option Nat) (atStart : Bool)
    (p r : Text) :
    splitFences fence atStart p.length (p ++ r) =
      splitFences fence (lineStart atStart p) 0 r := by
  induction p generalizing atStart with
  | nil => rfl
  | cons c p ih =>
      rw [lineStart_cons, ← ih (isLineEnd c)]
      rfl

theorem splitFences_match {fence : Text -> Option Nat} {c : Char}
    {rest : Text} {n : Nat} (h : fence (c :: rest) = some n) :
    splitFences fence true 0 (c :: rest) =
      [] :: splitFences fence (isLineEnd c) (n - 1) rest := by
  rw [splitFences, if_pos rfl, h]

theorem splitFences_prefix {fence : Text -> Option Nat} {p r : Text}
    (hp : p ≠ []) (h : fence (p ++ r) = some p.length) :
    splitFences fence true 0 (p ++ r) =
      [] :: splitFences fence (lineStart true p) 0 r := by
  cases p with
  | nil => exact absurd rfl hp
  | cons c p =>
      have hskip := splitFences_skip fence (isLineEnd c) p r
      rw [List.cons_append] at h ⊢
      rw [splitFences_match h, lineStart_cons, ← hskip]
      rfl

theorem splitFences_other {fence : Text -> Option Nat} {atStart : Bool}
    {c : Char} {rest : Text}
    (h : atStart = true -> fence (c :: rest) = none) :
    splitFences fence atStart 0 (c :: rest) =
      consPiece c (splitFences fence (isLineEnd c) 0 rest) := by
  rw [splitFences]
  cases hstart : atStart with
  | false => rfl
  | true =>
      rw [if_pos rfl, h hstart]

theorem exists_splitFences (fence : Text -> Option Nat) (atStart : Bool)
    (s : Text) (skip : Nat) :
    exists piece rest, splitFences fence atStart skip s = piece :: rest := by
  induction s generalizing atStart skip with
  | nil => exact ⟨[], [], rfl⟩
  | cons c s ih =>
      cases skip with
      | succ n => exact ih (isLineEnd c) n
      | zero =>
          cases hfence : (if atStart then fence (c :: s) else none) with
          | some n =>
              rw [splitFences, hfence]
              exact ⟨_, _, rfl⟩
          | none =>
              rcases ih (isLineEnd c) 0 with ⟨piece, rest, hrest⟩
              rw [splitFences, hfence, hrest]
              exact ⟨_, _, rfl⟩

theorem exists_splitFences_other {fence : Text -> Option Nat} {atStart : Bool}
    {c : Char} {s : Text} (h : atStart = true -> fence (c :: s) = none) :
    exists piece rest,
      splitFences fence (isLineEnd c) 0 s = piece :: rest ∧
      splitFences fence atStart 0 (c :: s) = (c :: piece) :: rest := by
  rcases exists_splitFences fence (isLineEnd c) s 0 with ⟨piece, rest, hrest⟩
  exists piece, rest
  constructor
  · exact hrest
  · rw [splitFences_other h, hrest]
    rfl

/-! ## Fences at the start of a line -/

theorem matchFence_of_ne {c : Char} (hc : c ≠ '`') (s : Text) :
    matchFence (c :: s) = none := by
  have hstart : startsWith (c :: s) "```".toList = false := by
    show List.isPrefixOf ['`', '`', '`'] (c :: s) = false
    rw [List.isPrefixOf, beq_false_of_ne hc.symm, Bool.false_and]
  unfold matchFence
  rw [hstart]
  rfl

theorem exists_of_matchFence {s : Text} {n : Nat}
    (h : matchFence s = some n) :
    exists t r, s = "```".toList ++ (t ++ r) ∧ n = t.length + 3 ∧
      (forall c, c ∈ t -> isWordOrSpace c = true) ∧ AtLineEnd r := by
  unfold matchFence at h
  split at h
  · rename_i hstart
    rcases List.isPrefixOf_iff_prefix.mp hstart with ⟨rest, hrest⟩
    rcases Option.map_eq_some_iff.mp h with ⟨m, hm, hn⟩
    have hdrop : s.drop 3 = rest := by
      rw [← hrest]
      rfl
    rw [hdrop] at hm
    rcases exists_of_matchTail hm with ⟨t, r, hsplit, hlength, hall, hend⟩
    exists t, r
    constructor
    · rw [← hsplit]
      exact hrest.symm
    constructor
    · omega
    · exact ⟨hall, hend⟩
  · cases h

theorem matchFence_append_stop {z : Char} (hz : isWordOrSpace z = false)
    (hne : z ≠ '`') (x y : Text) :
    matchFence (x ++ z :: y) = matchFence (x ++ [z]) := by
  have hstart : startsWith (x ++ z :: y) "```".toList =
      startsWith (x ++ [z]) "```".toList := by
    rcases x with _ | ⟨a, _ | ⟨b, _ | ⟨c, x⟩⟩⟩
    · simp [startsWith, List.isPrefixOf, beq_false_of_ne hne.symm]
    · simp [startsWith, List.isPrefixOf, beq_false_of_ne hne.symm]
    · simp [startsWith, List.isPrefixOf, beq_false_of_ne hne.symm]
    · simp [startsWith, List.isPrefixOf]
  unfold matchFence
  rw [hstart]
  split
  · rename_i h
    rcases x with _ | ⟨a, _ | ⟨b, _ | ⟨c, x⟩⟩⟩
    · simp [startsWith, List.isPrefixOf, beq_false_of_ne hne.symm] at h
    · simp [startsWith, List.isPrefixOf, beq_false_of_ne hne.symm] at h
    · simp [startsWith, List.isPrefixOf, beq_false_of_ne hne.symm] at h
    · exact congrArg (Option.map (3 + ·)) (matchTail_append_stop hz x y)
  · rfl

end Agents
end CallgentApi
