import Mathlib

/-!
# Rounding half away from zero

The nearest integer, and of two that are as near the one further from zero.
The rounding commutes with adding an integer except at a half that the
integer moves across zero.
-/

namespace CallgentApi
namespace HalfAway

variable {k : Type} [Field k] [LinearOrder k] [IsStrictOrderedRing k]
  [FloorRing k]

def roundAway (x : k) : Int :=
  if 0 ≤ x then round x else -round (-x)

/-- As far from the integer below as from the one above. -/
def IsHalf (x : k) : Prop :=
  Int.fract x = 1 / 2

theorem isHalf_int_add (n : Int) (x : k) : IsHalf (n + x) <-> IsHalf x := by
  unfold IsHalf
  rw [Int.fract_intCast_add]

@[simp] theorem not_isHalf_intCast (n : Int) : ¬ IsHalf (n : k) := by
  unfold IsHalf
  rw [Int.fract_intCast]
  norm_num

theorem round_neg_of_not_isHalf {x : k} (h : ¬ IsHalf x) :
    round (-x) = -round x := by
  have hx := Int.floor_add_fract x
  have hlow := sub_half_lt_round x
  have hhigh := round_le_add_half x
  have hne : (round x : k) ≠ x + 1 / 2 := by
    intro heq
    apply h
    have hx : x = ((round x - 1 : Int) : k) + 1 / 2 := by
      push_cast
      linarith
    unfold IsHalf
    rw [hx, Int.fract_intCast_add, Int.fract_eq_self]
    norm_num
  have hlt := lt_of_le_of_ne hhigh hne
  rw [round_eq_iff, Set.mem_Ico]
  push_cast
  constructor
  · linarith
  · linarith

theorem roundAway_of_not_isHalf {x : k} (h : ¬ IsHalf x) :
    roundAway x = round x := by
  unfold roundAway
  split
  · rfl
  · rw [round_neg_of_not_isHalf h, neg_neg]

theorem roundAway_of_isHalf {x : k} (h : IsHalf x) :
    roundAway x = Int.floor x + if 0 < x then 1 else 0 := by
  have hx := Int.floor_add_fract x
  rw [h] at hx
  have hne : x ≠ 0 := by
    intro hzero
    have hnot := not_isHalf_intCast (k := k) 0
    rw [Int.cast_zero, ← hzero] at hnot
    exact hnot h
  rcases lt_or_gt_of_ne hne with hneg | hpos
  · unfold roundAway
    rw [if_neg (not_le.mpr hneg), if_neg (not_lt.mpr hneg.le), add_zero,
      neg_eq_iff_eq_neg, round_eq_iff, Set.mem_Ico]
    push_cast
    constructor
    · linarith
    · linarith
  · unfold roundAway
    rw [if_pos hpos.le, if_pos hpos, round_eq_iff, Set.mem_Ico]
    push_cast
    constructor
    · linarith
    · linarith

@[simp] theorem roundAway_intCast (n : Int) : roundAway (n : k) = n := by
  rw [roundAway_of_not_isHalf (not_isHalf_intCast n), round_intCast]

/-- Rounding a sum with an integer is adding the rounded number, unless the
number is a half and the sum lies on the other side of zero. -/
theorem roundAway_int_add_iff (n : Int) (x : k) :
    roundAway (n + x) = n + roundAway x <->
      (IsHalf x -> (0 < n + x <-> 0 < x)) := by
  by_cases h : IsHalf x
  · have hsum := (isHalf_int_add n x).mpr h
    rw [roundAway_of_isHalf h, roundAway_of_isHalf hsum,
      Int.floor_intCast_add]
    by_cases hx : 0 < x <;> by_cases hn : 0 < n + x <;> simp [h, hx, hn]
    omega
  · have hsum : ¬ IsHalf (n + x) := fun hs => h ((isHalf_int_add n x).mp hs)
    rw [roundAway_of_not_isHalf h, roundAway_of_not_isHalf hsum,
      round_intCast_add]
    exact iff_of_true rfl fun hhalf => absurd hhalf h

theorem roundAway_neg_iff (x : k) : roundAway x < 0 <-> x ≤ -(1 / 2) := by
  unfold roundAway
  split
  · rename_i hx
    have hround : 0 ≤ round x := by
      by_contra hneg
      have hle : (round x : k) ≤ -1 := by
        exact_mod_cast Int.le_sub_one_of_lt (not_le.mp hneg)
      have hlow := sub_half_lt_round x
      linarith
    apply iff_of_false (not_lt.mpr hround)
    linarith
  · rw [neg_lt_zero]
    constructor
    · intro hpos
      have hone : (1 : k) ≤ round (-x) := by exact_mod_cast hpos
      have hhigh := round_le_add_half (-x)
      linarith
    · intro hx
      by_contra hneg
      have hle : (round (-x) : k) ≤ 0 := by exact_mod_cast not_lt.mp hneg
      have hlow := sub_half_lt_round (-x)
      linarith

end HalfAway
end CallgentApi
