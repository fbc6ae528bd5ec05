import Mathlib

/-!
# Chunks of a list

The front of a list, cut into chunks of one size.
-/

namespace CallgentApi
namespace Chunks

variable {a : Type}

def chunks (xs : List a) (size n : Nat) : List (List a) :=
  (List.range n).map fun i => (xs.drop (i * size)).take size

theorem flatten_chunks (xs : List a) (size n : Nat) :
    (chunks xs size n).flatten = xs.take (n * size) := by
  unfold chunks
  induction n with
  | zero => simp
  | succ n ih =>
      rw [List.range_succ, List.map_append, List.flatten_append, ih,
        Nat.succ_mul, List.take_add]
      simp

theorem length_le_of_mem_chunks {xs chunk : List a} {size n : Nat}
    (h : chunk ∈ chunks xs size n) : chunk.length ≤ size := by
  rcases List.mem_map.mp h with ⟨i, _, heq⟩
  rw [← heq]
  exact List.length_take_le _ _

/-! ## How much of the list the chunks hold -/

/-- Room for `d` elements in whole chunks. -/
def room (d size : Nat) : Nat :=
  (d + (size - 1)) / size * size

theorem le_room {size : Nat} (h : 0 < size) (d : Nat) : d ≤ room d size := by
  have hdiv := Nat.div_add_mod (d + (size - 1)) size
  have hmod := Nat.mod_lt (d + (size - 1)) h
  unfold room
  rw [Nat.mul_comm]
  omega

theorem room_eq_iff {size : Nat} (h : 0 < size) (d : Nat) :
    room d size = d <-> size ∣ d := by
  constructor
  · intro heq
    rw [← heq]
    exact Nat.dvd_mul_left size _
  · intro hdvd
    rcases hdvd with ⟨n, heq⟩
    have hdiv : (size * n + (size - 1)) / size = n := by
      rw [Nat.mul_add_div h, Nat.div_eq_of_lt (Nat.sub_lt h Nat.one_pos),
        Nat.add_zero]
    unfold room
    rw [heq, hdiv, Nat.mul_comm]

/-! ## Elements that stand once -/

variable [DecidableEq a]

theorem length_of_once {xs ys : List a} (hys : ys.Nodup)
    (hmem : forall x, x ∈ ys <-> x ∈ xs) : ys.length = xs.dedup.length := by
  have hperm : ys.Perm xs.dedup := by
    apply (List.perm_ext_iff_of_nodup hys (List.nodup_dedup xs)).mpr
    intro x
    rw [hmem, List.mem_dedup]
  exact hperm.length_eq

theorem nodup_of_length_dedup {xs : List a}
    (h : xs.length = xs.dedup.length) : xs.Nodup := by
  rw [← (List.dedup_sublist xs).eq_of_length h.symm]
  exact List.nodup_dedup xs

theorem mem_of_length_dedup {xs front : List a} (hnodup : front.Nodup)
    (hsubset : forall x, x ∈ front -> x ∈ xs)
    (hlength : xs.dedup.length ≤ front.length) {x : a} (hx : x ∈ xs) :
    x ∈ front := by
  have hsub : front ⊆ xs.dedup := by
    intro y hy
    exact List.mem_dedup.mpr (hsubset y hy)
  have hperm := (List.subperm_of_subset hnodup hsub).perm_of_length_le
    hlength
  exact hperm.mem_iff.mpr (List.mem_dedup.mpr hx)

/-- A front with room for the distinct elements has each of them once exactly
if none is repeated at all, or the front ends with the last new one. -/
theorem front_once_iff {xs : List a} {m : Nat} (hm : xs.dedup.length ≤ m) :
    ((xs.take m).Nodup ∧ forall x, x ∈ xs.take m <-> x ∈ xs) <->
      xs.Nodup ∨ (m = xs.dedup.length ∧ (xs.take m).Nodup) := by
  constructor
  · intro h
    have hlength := length_of_once h.left h.right
    rw [List.length_take] at hlength
    by_cases hle : xs.length ≤ m
    · rw [Nat.min_eq_right hle] at hlength
      exact Or.inl (nodup_of_length_dedup hlength)
    · rw [Nat.min_eq_left (Nat.le_of_not_le hle)] at hlength
      exact Or.inr ⟨hlength, h.left⟩
  · intro h
    rcases h with hnodup | ⟨heq, hnodup⟩
    · rw [hnodup.dedup] at hm
      rw [List.take_of_length_le hm]
      exact ⟨hnodup, fun x => Iff.rfl⟩
    · refine ⟨hnodup, ?_⟩
      intro x
      constructor
      · exact List.mem_of_mem_take
      · intro hx
        have hlength : xs.dedup.length ≤ (xs.take m).length := by
          have hle := (List.dedup_sublist xs).length_le
          rw [List.length_take, heq]
          omega
        exact mem_of_length_dedup hnodup (fun y => List.mem_of_mem_take)
          hlength hx

end Chunks
end CallgentApi
