import CallgentApi.Lib.JsString

/-!
# The first and the last occurrence in a text

A needle is not found in a text that stands apart from it, not even across the
end of the text.  A needle that stands apart from its own tail is found where
it is put, unless it occurs before.
-/

namespace CallgentApi
namespace Js

variable {needle front text : Text}

/-- No part of the needle begins in `front`. -/
def apart (needle : Text) : Text -> Bool
  | [] => true
  | c :: rest =>
      !startsWith (c :: rest) needle && !startsWith needle (c :: rest) &&
        apart needle rest

theorem startsWith_iff {s head : Text} :
    startsWith s head = true <-> head <+: s :=
  List.isPrefixOf_iff_prefix

theorem apart_cons {c : Char} (h : apart needle (c :: front) = true) :
    ¬ needle <+: c :: front ∧ ¬ c :: front <+: needle ∧
      apart needle front = true := by
  rcases Bool.and_eq_true_iff.mp h with ⟨hboth, hrest⟩
  rcases Bool.and_eq_true_iff.mp hboth with ⟨hneedle, hfront⟩
  constructor
  · intro hpre
    rw [startsWith_iff.mpr hpre] at hneedle
    cases hneedle
  constructor
  · intro hpre
    rw [startsWith_iff.mpr hpre] at hfront
    cases hfront
  · exact hrest

theorem not_prefix_append_of_apart {c : Char}
    (h : apart needle (c :: front) = true) (text : Text) :
    ¬ needle <+: c :: front ++ text := by
  intro hpre
  rcases apart_cons h with ⟨hneedle, hfront, _⟩
  rcases List.prefix_or_prefix_of_prefix hpre
    (List.prefix_append (c :: front) text) with hin | hin
  · exact hneedle hin
  · exact hfront hin

theorem findText_append_of_apart (h : apart needle front = true) :
    findText needle (front ++ text) =
      (findText needle text).map fun n => front.length + n := by
  induction front with
  | nil =>
      rw [List.nil_append]
      cases findText needle text with
      | none => rfl
      | some n => simp
  | cons c rest ih =>
      have hhead : ¬ startsWith (c :: (rest ++ text)) needle = true := by
        rw [startsWith_iff]
        exact not_prefix_append_of_apart h text
      rw [List.cons_append, findText, if_neg hhead, ih (apart_cons h).right.right]
      cases findText needle text with
      | none => rfl
      | some n => simp [Nat.add_right_comm]

theorem not_prefix_of_suffix_of_apart (h : apart needle front = true)
    {piece : Text} (hne : piece ≠ []) (hsuffix : piece <:+ front) :
    ¬ piece <+: needle := by
  induction front with
  | nil => exact absurd (List.suffix_nil.mp hsuffix) hne
  | cons c rest ih =>
      rcases apart_cons h with ⟨_, hfront, hrest⟩
      rcases List.suffix_cons_iff.mp hsuffix with heq | hin
      · rw [heq]
        exact hfront
      · exact ih hrest hin

theorem not_prefix_append_needle (hneedle : apart needle needle.tail = true)
    {c : Char} (h : ¬ needle <+: c :: front) (text : Text) :
    ¬ needle <+: c :: front ++ (needle ++ text) := by
  intro hpre
  rcases List.prefix_or_prefix_of_prefix hpre
    (List.prefix_append (c :: front) (needle ++ text)) with hin | hin
  · exact h hin
  · rcases hin with ⟨piece, hpiece⟩
    cases piece with
    | nil =>
        rw [List.append_nil] at hpiece
        rw [hpiece] at h
        exact h (List.prefix_refl needle)
    | cons d rest =>
        have hsuffix : d :: rest <:+ needle.tail := by
          rw [← hpiece]
          exact List.suffix_append front (d :: rest)
        have hover : d :: rest <+: needle ++ text := by
          rcases hpre with ⟨last, hlast⟩
          have hsplit : c :: front ++ (d :: rest ++ last) =
              c :: front ++ (needle ++ text) := by
            rw [← hlast, ← List.append_assoc, hpiece]
          have hrest := List.append_cancel_left hsplit
          exact ⟨last, hrest⟩
        have hlength : (d :: rest).length ≤ needle.length := by
          rw [← hpiece, List.length_append]
          exact Nat.le_add_left _ _
        have hbegins : d :: rest <+: needle :=
          List.prefix_of_prefix_length_le hover (List.prefix_append _ _)
            hlength
        exact not_prefix_of_suffix_of_apart hneedle (List.cons_ne_nil d rest)
          hsuffix hbegins

/-- The part of a text before the needle, or the whole text. -/
def before (needle text : Text) : Text :=
  match findText needle text with
  | some n => text.take n
  | none => text

theorem findText_append_needle (hneedle : apart needle needle.tail = true)
    (front text : Text) :
    findText needle (front ++ (needle ++ text)) =
      some (before needle front).length := by
  induction front with
  | nil =>
      rw [List.nil_append, findText_append_self]
      unfold before
      cases findText needle [] with
      | none => rfl
      | some n => simp
  | cons c rest ih =>
      rw [List.cons_append, findText]
      by_cases hhead : needle <+: c :: rest
      · have hlong : needle <+: c :: (rest ++ (needle ++ text)) :=
          hhead.trans (List.prefix_append (c :: rest) _)
        rw [if_pos (startsWith_iff.mpr hlong)]
        unfold before
        rw [findText, if_pos (startsWith_iff.mpr hhead)]
        rfl
      · have hlong : ¬ startsWith (c :: (rest ++ (needle ++ text))) needle =
            true := by
          rw [startsWith_iff]
          exact not_prefix_append_needle hneedle hhead text
        have hshort : ¬ startsWith (c :: rest) needle = true := by
          rw [startsWith_iff]
          exact hhead
        rw [if_neg hlong, ih]
        unfold before
        rw [findText, if_neg hshort]
        cases findText needle rest with
        | none => rfl
        | some n => rfl

theorem before_prefix (needle text : Text) : before needle text <+: text := by
  unfold before
  split
  · exact List.take_prefix _ _
  · exact List.prefix_refl _

/-! ## The last occurrence of a character -/

/-- What follows the last occurrence; without one it is the whole text. -/
def afterLast (s : Text) (c : Char) : Text :=
  substringFrom s (lastIndexOf s c + 1)

theorem afterLast_append_cons {tail : Text} {c : Char} (h : c ∉ tail)
    (front : Text) : afterLast (front ++ c :: tail) c = tail := by
  have hmem : c ∈ front ++ c :: tail :=
    List.mem_append_right _ List.mem_cons_self
  have hrev : (front ++ c :: tail).reverse =
      tail.reverse ++ c :: front.reverse := by simp
  have hnot : c ∉ tail.reverse := by
    rw [List.mem_reverse]
    exact h
  have hidx : (front ++ c :: tail).reverse.idxOf c = tail.length := by
    rw [hrev, List.idxOf_append_of_notMem hnot]
    simp
  have hlast : lastIndexOf (front ++ c :: tail) c = Int.ofNat front.length := by
    unfold lastIndexOf
    rw [if_pos hmem, hidx]
    simp
  unfold afterLast
  rw [hlast]
  exact substringFrom_append_cons front tail c

theorem afterLast_of_not_mem {s : Text} {c : Char} (h : c ∉ s) :
    afterLast s c = s := by
  unfold afterLast lastIndexOf
  rw [if_neg h]
  simp [substringFrom, substring, clamp]

theorem exists_last {s : Text} {c : Char} (h : c ∈ s) :
    exists front tail, s = front ++ c :: tail ∧ c ∉ tail := by
  have hrev : c ∈ s.reverse := List.mem_reverse.mpr h
  rcases List.eq_append_cons_of_mem hrev with ⟨tail, front, heq, hnot⟩
  exists front.reverse, tail.reverse
  constructor
  · have hback := congrArg List.reverse heq
    simpa using hback
  · rw [List.mem_reverse]
    exact hnot

/-- Behind every prefix the same text follows the last occurrence exactly when
the text ends in the character and what follows. -/
theorem forall_afterLast_iff (s tail : Text) (c : Char) :
    (forall front, afterLast (front ++ s) c = tail) <->
      c ∉ tail ∧ c :: tail <:+ s := by
  constructor
  · intro hall
    by_cases hmem : c ∈ s
    · rcases exists_last hmem with ⟨u, v, hs, hv⟩
      have hread := hall []
      rw [List.nil_append, hs, afterLast_append_cons hv] at hread
      rw [hs, ← hread]
      exact ⟨hv, List.suffix_append u (c :: v)⟩
    · have hnone : afterLast s c = tail := hall []
      rw [afterLast_of_not_mem hmem] at hnone
      have hother : exists d : Char, c ≠ d := by
        by_cases ha : c = 'a'
        · exists 'b'
          rw [ha]
          decide
        · exact ⟨'a', ha⟩
      rcases hother with ⟨d, hd⟩
      have hmarked : afterLast (d :: s) c = tail := hall [d]
      have hnot : c ∉ d :: s := by
        rw [List.mem_cons, not_or]
        exact ⟨hd, hmem⟩
      rw [afterLast_of_not_mem hnot, ← hnone] at hmarked
      have hlength := congrArg List.length hmarked
      rw [List.length_cons] at hlength
      exact absurd hlength (Nat.succ_ne_self _)
  · intro htail front
    rcases htail with ⟨hnot, u, hu⟩
    rw [← hu, ← List.append_assoc]
    exact afterLast_append_cons hnot (front ++ u)

end Js
end CallgentApi
