import Mathlib

/-!
# Texts cut at a separator

Splitting a text at every occurrence of a separator and joining the pieces
again.  A record of fields is written as `first ++ sep :: second ++ ...`; the
facts here say which fields a split gives back, and that a piece of a split
never contains the separator.
-/

namespace CallgentApi
namespace Separator

variable {alpha : Type _} [DecidableEq alpha]

theorem not_mem_of_mem_splitOn {sep : alpha} {text piece : List alpha}
    (h : piece ∈ text.splitOn sep) : sep ∉ piece := by
  induction text generalizing piece with
  | nil =>
      have hpiece : piece = [] := by simpa using h
      simp [hpiece]
  | cons x rest ih =>
      rw [List.splitOn_cons_eq_if_modifyHead] at h
      by_cases hx : x = sep
      · have hcases : piece = [] ∨ piece ∈ rest.splitOn sep := by
          simpa [hx] using h
        rcases hcases with hnil | hmem
        · simp [hnil]
        · exact ih hmem
      · cases hsplit : rest.splitOn sep with
        | nil =>
            exact absurd hsplit (List.splitOn_ne_nil sep rest)
        | cons head tail =>
            have hcases : piece = x :: head ∨ piece ∈ tail := by
              simpa [hx, hsplit] using h
            rcases hcases with hhead | htail
            · have hhead' : sep ∉ head := ih (by simp [hsplit])
              intro hmem
              rw [hhead] at hmem
              rcases List.mem_cons.mp hmem with heq | hin
              · exact hx heq.symm
              · exact hhead' hin
            · exact ih (by simp [hsplit, htail])

theorem mem_of_mem_splitOn {sep x : alpha} {text piece : List alpha}
    (h : piece ∈ text.splitOn sep) (hx : x ∈ piece) : x ∈ text := by
  induction text generalizing piece with
  | nil =>
      have hpiece : piece = [] := by simpa using h
      simp [hpiece] at hx
  | cons y rest ih =>
      rw [List.splitOn_cons_eq_if_modifyHead] at h
      by_cases hy : y = sep
      · have hcases : piece = [] ∨ piece ∈ rest.splitOn sep := by
          simpa [hy] using h
        rcases hcases with hnil | hmem
        · simp [hnil] at hx
        · exact List.mem_cons_of_mem y (ih hmem hx)
      · cases hsplit : rest.splitOn sep with
        | nil =>
            exact absurd hsplit (List.splitOn_ne_nil sep rest)
        | cons head tail =>
            have hcases : piece = y :: head ∨ piece ∈ tail := by
              simpa [hy, hsplit] using h
            rcases hcases with hhead | htail
            · rw [hhead] at hx
              rcases List.mem_cons.mp hx with heq | hin
              · simp [heq]
              · exact List.mem_cons_of_mem y (ih (by simp [hsplit]) hin)
            · exact List.mem_cons_of_mem y (ih (by simp [hsplit, htail]) hx)

theorem exists_mem_splitOn {sep x : alpha} {text : List alpha}
    (h : x ∈ text) (hne : x ≠ sep) :
    exists piece, piece ∈ text.splitOn sep ∧ x ∈ piece := by
  induction text with
  | nil => cases h
  | cons y rest ih =>
      rw [List.splitOn_cons_eq_if_modifyHead]
      by_cases hy : y = sep
      · have hrest : x ∈ rest := by
          rcases List.mem_cons.mp h with heq | hrest
          · exact absurd (heq.trans hy) hne
          · exact hrest
        rcases ih hrest with ⟨piece, hpiece, hx⟩
        exact ⟨piece, by simp [hy, hpiece], hx⟩
      · cases hsplit : rest.splitOn sep with
        | nil => exact absurd hsplit (List.splitOn_ne_nil sep rest)
        | cons head tail =>
            have hpieces : (if y == sep then [] :: head :: tail
                else (head :: tail).modifyHead (List.cons y)) =
                  (y :: head) :: tail := by
              simp [hy]
            rw [hpieces]
            rcases List.mem_cons.mp h with heq | hrest
            · exact ⟨y :: head, List.mem_cons_self,
                List.mem_cons.mpr (Or.inl heq)⟩
            · rcases ih hrest with ⟨piece, hpiece, hx⟩
              rw [hsplit] at hpiece
              rcases List.mem_cons.mp hpiece with rfl | htail
              · exact ⟨y :: piece, List.mem_cons_self,
                  List.mem_cons_of_mem y hx⟩
              · exact ⟨piece, List.mem_cons_of_mem _ htail, hx⟩

/-- A record of two fields and a rest, written with the separator. -/
def record (sep : alpha) (first second rest : List alpha) : List alpha :=
  first ++ sep :: (second ++ sep :: rest)

theorem splitOn_record {sep : alpha} {first second : List alpha}
    (rest : List alpha) (hfirst : sep ∉ first) (hsecond : sep ∉ second) :
    (record sep first second rest).splitOn sep =
      first :: second :: rest.splitOn sep := by
  unfold record
  rw [List.splitOn_append_cons_self_of_not_mem hfirst,
    List.splitOn_append_cons_self_of_not_mem hsecond]

theorem eq_record_of_splitOn {sep : alpha}
    {text first second : List alpha} {pieces : List (List alpha)}
    (h : text.splitOn sep = first :: second :: pieces)
    (hpieces : pieces ≠ []) :
    text = record sep first second ([sep].intercalate pieces) := by
  have hjoin : [sep].intercalate (text.splitOn sep) = text :=
    List.intercalate_splitOn sep
  rw [h] at hjoin
  cases pieces with
  | nil =>
      exact absurd rfl hpieces
  | cons third others =>
      rw [← hjoin]
      simp [record, List.intercalate]

omit [DecidableEq alpha] in
theorem record_rest_inj {sep : alpha} {first second rest rest' : List alpha}
    (h : record sep first second rest = record sep first second rest') :
    rest = rest' := by
  unfold record at h
  have htail := (List.cons.inj (List.append_cancel_left h)).right
  exact (List.cons.inj (List.append_cancel_left htail)).right

theorem record_prefix_inj {sep : alpha}
    {first second second' rest rest' : List alpha}
    (hsecond : sep ∉ second) (hsecond' : sep ∉ second')
    (h : record sep first second rest <+:
      record sep first second' rest') :
    second = second' := by
  unfold record at h
  have htail : second ++ sep :: rest <+: second' ++ sep :: rest' := by
    rw [List.prefix_append_right_inj] at h
    exact (List.cons_prefix_cons.mp h).right
  rcases htail with ⟨more, hmore⟩
  rw [List.append_assoc, List.cons_append] at hmore
  have hleft : (second ++ sep :: (rest ++ more)).splitOn sep =
      second :: (rest ++ more).splitOn sep :=
    List.splitOn_append_cons_self_of_not_mem hsecond _
  have hright : (second' ++ sep :: rest').splitOn sep =
      second' :: rest'.splitOn sep :=
    List.splitOn_append_cons_self_of_not_mem hsecond' _
  rw [hmore, hright] at hleft
  exact (List.cons.inj hleft).left.symm

omit [DecidableEq alpha] in
theorem intercalate_cons_cons' (sep : alpha) (n n' : List alpha)
    (ns : List (List alpha)) :
    [sep].intercalate (n :: n' :: ns) =
      n ++ sep :: [sep].intercalate (n' :: ns) := by
  rw [List.intercalate_cons_cons]
  simp

omit [DecidableEq alpha] in
theorem append_cons_eq_iff {sep : alpha} {n m x y : List alpha} :
    n ++ sep :: x = m ++ sep :: y <->
      (n = m ∧ x = y) ∨
      (exists more, m = n ++ sep :: more ∧ x = more ++ sep :: y) ∨
      (exists more, n = m ++ sep :: more ∧ y = more ++ sep :: x) := by
  have hlonger : forall {n m x y more : List alpha}, m = n ++ more ->
      sep :: x = more ++ sep :: y ->
        (n = m ∧ x = y) ∨
          exists more, m = n ++ sep :: more ∧ x = more ++ sep :: y := by
    intro n m x y more hm h
    cases more with
    | nil =>
        rw [List.append_nil] at hm
        exact Or.inl ⟨hm.symm, (List.cons.inj h).right⟩
    | cons c more =>
        rcases List.cons.inj h with ⟨hc, hx⟩
        exact Or.inr ⟨more, by rw [hm, hc], hx⟩
  constructor
  · intro h
    rcases List.append_eq_append_iff.mp h with
      ⟨more, hm, hx⟩ | ⟨more, hn, hy⟩
    · rcases hlonger hm hx with hsame | hinside
      · exact Or.inl hsame
      · exact Or.inr (Or.inl hinside)
    · rcases hlonger hn hy with hsame | hinside
      · exact Or.inl ⟨hsame.left.symm, hsame.right.symm⟩
      · exact Or.inr (Or.inr hinside)
  · intro h
    rcases h with ⟨hn, hx⟩ | ⟨more, hm, hx⟩ | ⟨more, hn, hy⟩
    · rw [hn, hx]
    · rw [hm, hx, List.append_assoc, List.cons_append]
    · rw [hn, hy, List.append_assoc, List.cons_append]

/-- In the first field in which they differ the second fields go on past a
separator, and what follows is written alike. -/
def Shifts (sep : alpha) : List (List alpha) -> List (List alpha) -> Prop
  | n :: n' :: ns, m :: m' :: ms =>
      (exists more, m = n ++ sep :: more ∧
        [sep].intercalate (n' :: ns) =
          more ++ sep :: [sep].intercalate (m' :: ms)) ∨
      (n = m ∧ Shifts sep (n' :: ns) (m' :: ms))
  | _, _ => False

omit [DecidableEq alpha] in
theorem ne_of_shifts {sep : alpha} {ns ms : List (List alpha)}
    (h : Shifts sep ns ms) : ns.dropLast ≠ ms.dropLast := by
  induction ns generalizing ms with
  | nil => exact absurd h id
  | cons n ns ih =>
      match ns, ms, h with
      | n' :: ns, m :: m' :: ms, h =>
          intro heq
          rw [List.dropLast_cons_cons, List.dropLast_cons_cons] at heq
          rcases List.cons.inj heq with ⟨hn, hrest⟩
          rcases h with ⟨more, hm, _⟩ | ⟨_, htail⟩
          · have hlength := congrArg List.length (hn.trans hm)
            rw [List.length_append, List.length_cons] at hlength
            omega
          · exact ih htail hrest

omit [DecidableEq alpha] in
/-- As many fields are written alike when they agree, or when a separator
stands inside one of them. -/
theorem intercalate_eq_iff {sep : alpha} {ns ms : List (List alpha)}
    (hlength : ns.length = ms.length) :
    [sep].intercalate ns = [sep].intercalate ms <->
      ns = ms ∨ Shifts sep ns ms ∨ Shifts sep ms ns := by
  induction ns generalizing ms with
  | nil =>
      rw [List.length_eq_zero_iff.mp hlength.symm]
      simp
  | cons n ns ih =>
      match ns, ms, hlength with
      | [], [m], _ => simp [Shifts]
      | n' :: ns, m :: m' :: ms, hlength =>
          have hrest := @ih (m' :: ms) (Nat.succ.inj hlength)
          have hcons : n :: n' :: ns = m :: m' :: ms <->
              n = m ∧ n' :: ns = m' :: ms :=
            List.cons_eq_cons
          rw [intercalate_cons_cons', intercalate_cons_cons',
            append_cons_eq_iff, hrest, hcons]
          show _ <-> _ ∨ (_ ∨ _) ∨ (_ ∨ _)
          constructor
          · intro h
            rcases h with ⟨hn, heq | hfirst | hsecond⟩ | hinside | hinside
            · exact Or.inl ⟨hn, heq⟩
            · exact Or.inr (Or.inl (Or.inr ⟨hn, hfirst⟩))
            · exact Or.inr (Or.inr (Or.inr ⟨hn.symm, hsecond⟩))
            · exact Or.inr (Or.inl (Or.inl hinside))
            · exact Or.inr (Or.inr (Or.inl hinside))
          · intro h
            rcases h with heq | (hinside | ⟨hn, hfirst⟩) |
              (hinside | ⟨hn, hsecond⟩)
            · exact Or.inl ⟨heq.left, Or.inl heq.right⟩
            · exact Or.inr (Or.inl hinside)
            · exact Or.inl ⟨hn, Or.inr (Or.inl hfirst)⟩
            · exact Or.inr (Or.inr hinside)
            · exact Or.inl ⟨hn.symm, Or.inr (Or.inr hsecond)⟩

end Separator
end CallgentApi
