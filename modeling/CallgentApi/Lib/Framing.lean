import Mathlib

/-!
# Blocks of a stream and the chunks it arrives in

A writer appends blocks to a stream without any terminator, and a reader
receives the stream cut into non-empty chunks.  If no block is a proper prefix
of another, then a reader that sees every block as one of its chunks sees
exactly the blocks, in the order they were written.
-/

namespace CallgentApi
namespace Framing

variable {alpha : Type _}

def PrefixFree (blocks : List (List alpha)) : Prop :=
  forall a, a ∈ blocks -> forall b, b ∈ blocks -> a <+: b -> a = b

theorem flatten_length_le_of_sublist {small large : List (List alpha)}
    (hsub : small.Sublist large) :
    small.flatten.length ≤ large.flatten.length := by
  induction hsub with
  | slnil => exact Nat.le_refl _
  | cons c _ ih =>
      simp only [List.flatten_cons, List.length_append]
      omega
  | cons_cons c _ ih =>
      simp only [List.flatten_cons, List.length_append]
      omega

theorem eq_of_sublist_of_flatten_length_eq
    {small large : List (List alpha)} (hsub : small.Sublist large)
    (hne : forall c, c ∈ large -> c ≠ [])
    (hlen : small.flatten.length = large.flatten.length) :
    small = large := by
  induction hsub with
  | slnil => rfl
  | cons c hsub ih =>
      rename_i small large
      exfalso
      have hpos : 0 < c.length :=
        List.length_pos_of_ne_nil (hne c List.mem_cons_self)
      have hle : small.flatten.length ≤ large.flatten.length :=
        flatten_length_le_of_sublist hsub
      simp only [List.flatten_cons, List.length_append] at hlen
      omega
  | cons_cons c hsub ih =>
      simp only [List.flatten_cons, List.length_append] at hlen
      rw [ih (fun d hd => hne d (List.mem_cons_of_mem c hd)) (by omega)]

theorem perm_of_subperm_of_flatten_eq
    {chunks blocks : List (List alpha)} (hsub : blocks.Subperm chunks)
    (hne : forall c, c ∈ chunks -> c ≠ [])
    (hflat : chunks.flatten = blocks.flatten) :
    chunks.Perm blocks := by
  rcases hsub with ⟨middle, hperm, hsublist⟩
  have hlen : middle.flatten.length = chunks.flatten.length := by
    rw [hperm.flatten.length_eq, hflat]
  have heq : middle = chunks :=
    eq_of_sublist_of_flatten_length_eq hsublist hne hlen
  exact heq ▸ hperm

theorem eq_of_perm_of_flatten_eq
    {chunks blocks : List (List alpha)} (hperm : chunks.Perm blocks)
    (hfree : PrefixFree blocks)
    (hflat : chunks.flatten = blocks.flatten) :
    chunks = blocks := by
  induction blocks generalizing chunks with
  | nil => exact hperm.eq_nil
  | cons b blocks ih =>
      cases chunks with
      | nil => exact absurd hperm.length_eq (by simp)
      | cons c chunks =>
          have hc : c ∈ b :: blocks :=
            hperm.mem_iff.mp List.mem_cons_self
          have hb : b ∈ b :: blocks := List.mem_cons_self
          have hcStream : c <+: (b :: blocks).flatten := by
            rw [← hflat]
            exact List.prefix_append c chunks.flatten
          have hbStream : b <+: (b :: blocks).flatten :=
            List.prefix_append b blocks.flatten
          have hcb : c = b := by
            rcases List.prefix_or_prefix_of_prefix hcStream hbStream
              with hle | hge
            · exact hfree c hc b hb hle
            · exact (hfree b hb c hc hge).symm
          subst hcb
          have hflat' : chunks.flatten = blocks.flatten := by
            simpa using hflat
          have hfree' : PrefixFree blocks := fun a ha d hd =>
            hfree a (List.mem_cons_of_mem c ha) d (List.mem_cons_of_mem c hd)
          rw [ih (List.Perm.cons_inv hperm) hfree' hflat']

/-- If every block of a prefix-free stream without repetitions is one of the
non-empty chunks the stream arrives in, the chunks are the blocks. -/
theorem chunks_eq_blocks {chunks blocks : List (List alpha)}
    (hnodup : blocks.Nodup) (hfree : PrefixFree blocks)
    (hseen : forall b, b ∈ blocks -> b ∈ chunks)
    (hne : forall c, c ∈ chunks -> c ≠ [])
    (hflat : chunks.flatten = blocks.flatten) :
    chunks = blocks :=
  eq_of_perm_of_flatten_eq
    (perm_of_subperm_of_flatten_eq
      (List.subperm_of_subset hnodup hseen) hne hflat)
    hfree hflat

end Framing
end CallgentApi
