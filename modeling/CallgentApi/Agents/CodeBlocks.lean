import CallgentApi.Agents.Fences

/-!
# Code blocks read from an answer

The pattern of a fence goes on over line breaks, so what follows the language
of a block may belong to the fence and not to the block.
-/

namespace CallgentApi
namespace Agents

open Js Event

/-! ## Texts up to space at their ends -/

def Blank (s : Text) : Prop :=
  forall c, c ∈ s -> isSpace c = true

def SameUpToSpace (s t : Text) : Prop :=
  exists w w', Blank w ∧ Blank w' ∧ s ++ w = t ++ w'

theorem blank_nil : Blank [] := by
  intro c hc
  cases hc

theorem not_blank {s : Text} {c : Char} (hmem : c ∈ s)
    (hc : isSpace c = false) : ¬ Blank s := by
  intro hblank
  rw [hblank c hmem] at hc
  cases hc

theorem dropWhile_blank {s : Text} (hs : Blank s) :
    s.dropWhile isSpace = [] :=
  List.dropWhile_eq_nil_iff.mpr hs

theorem SameUpToSpace.refl (s : Text) : SameUpToSpace s s :=
  ⟨[], [], blank_nil, blank_nil, rfl⟩

theorem SameUpToSpace.cons {s t : Text} (h : SameUpToSpace s t) (c : Char) :
    SameUpToSpace (c :: s) (c :: t) := by
  rcases h with ⟨w, w', hw, hw', heq⟩
  exact ⟨w, w', hw, hw', congrArg (List.cons c) heq⟩

theorem trim_blank_append {w : Text} (hw : Blank w) (s : Text) :
    trim (w ++ s) = trim s := by
  unfold trim
  rw [List.dropWhile_append_of_pos hw]

theorem trim_append_blank {w : Text} (hw : Blank w) (s : Text) :
    trim (s ++ w) = trim s := by
  have hreverse : forall t : Text, ((t ++ w).reverse).dropWhile isSpace =
      t.reverse.dropWhile isSpace := by
    intro t
    rw [List.reverse_append, List.dropWhile_append_of_pos]
    intro c hc
    exact hw c (List.mem_reverse.mp hc)
  unfold trim
  rw [List.dropWhile_append]
  split
  · rename_i hempty
    rw [dropWhile_blank hw, List.isEmpty_iff.mp hempty]
  · rw [hreverse]

theorem SameUpToSpace.trim {s t : Text} (h : SameUpToSpace s t) :
    trim s = trim t := by
  rcases h with ⟨w, w', hw, hw', heq⟩
  rw [← trim_append_blank hw, heq, trim_append_blank hw']

/-! ## Lines that start with backticks -/

def opensFence (s : Text) : Bool :=
  startsWith (s.dropWhile isSpace) "```".toList

def fenceFree (atStart : Bool) : Text -> Bool
  | [] => true
  | c :: rest =>
      !(atStart && opensFence (c :: rest)) && fenceFree (isLineEnd c) rest

theorem fenceFree_cons {atStart : Bool} {c : Char} {rest : Text}
    (h : fenceFree atStart (c :: rest) = true) :
    (atStart = true -> opensFence (c :: rest) = false) ∧
      fenceFree (isLineEnd c) rest = true := by
  unfold fenceFree at h
  rw [Bool.and_eq_true, Bool.not_eq_true'] at h
  constructor
  · intro hstart
    rw [hstart, Bool.true_and] at h
    exact h.left
  · exact h.right

theorem opensFence_eq_false {s : Text} (h : fenceFree true s = true) :
    opensFence s = false := by
  cases s with
  | nil => rfl
  | cons c rest => exact (fenceFree_cons h).left rfl

theorem fenceFree_drop {atStart : Bool} {p q : Text}
    (h : fenceFree atStart (p ++ q) = true) :
    fenceFree (lineStart atStart p) q = true := by
  induction p generalizing atStart with
  | nil => exact h
  | cons c p ih =>
      rw [lineStart_cons]
      exact ih (fenceFree_cons h).right

theorem startsWith_append_stop {z : Char} (hne : z ≠ '`') (x y : Text) :
    startsWith (x ++ z :: y) "```".toList = startsWith x "```".toList := by
  match x with
  | [] => simp [startsWith, List.isPrefixOf, beq_false_of_ne hne.symm]
  | [a] => simp [startsWith, List.isPrefixOf, beq_false_of_ne hne.symm]
  | [a, b] => simp [startsWith, List.isPrefixOf, beq_false_of_ne hne.symm]
  | a :: b :: c :: x => simp [startsWith, List.isPrefixOf]

theorem opensFence_append {s : Text} (hs : ¬ Blank s) (y : Text) :
    opensFence (s ++ '\n' :: y) = opensFence s := by
  have hne : s.dropWhile isSpace ≠ [] := by
    intro hnil
    exact hs (List.dropWhile_eq_nil_iff.mp hnil)
  unfold opensFence
  rw [List.dropWhile_append, if_neg (by simpa using hne)]
  exact startsWith_append_stop (by decide) _ y

theorem opensFence_blank {s : Text} (hs : Blank s) (y : Text) :
    opensFence (s ++ y) = opensFence y := by
  unfold opensFence
  rw [List.dropWhile_append_of_pos hs]

theorem fenceFree_append {atStart : Bool} {s t : Text}
    (hs : fenceFree atStart s = true) (ht : fenceFree true t = true) :
    fenceFree atStart (s ++ '\n' :: t) = true := by
  have hopens : opensFence ('\n' :: t) = false := by
    have hsame : opensFence (['\n'] ++ t) = opensFence t := by
      apply opensFence_blank
      intro c hc
      rw [List.mem_singleton.mp hc]
      decide
    rw [← opensFence_eq_false ht, ← hsame]
    rfl
  induction s generalizing atStart with
  | nil =>
      have hend : isLineEnd '\n' = true := by decide
      rw [List.nil_append, fenceFree, hopens, hend, ht]
      simp
  | cons c s ih =>
      rcases fenceFree_cons hs with ⟨hfirst, hrest⟩
      rw [List.cons_append, fenceFree, ih hrest, Bool.and_true,
        Bool.not_eq_true']
      cases atStart with
      | false => rfl
      | true =>
          rw [Bool.true_and]
          show opensFence ((c :: s) ++ '\n' :: t) = false
          by_cases hblank : Blank (c :: s)
          · rw [opensFence_blank hblank, hopens]
          · rw [opensFence_append hblank, hfirst rfl]

/-! ## The split of a text at its fences -/

theorem matchIndentedFence_blank {w : Text} (hw : Blank w) (r : Text) :
    matchIndentedFence (w ++ "```".toList ++ r) =
      (matchTail r).map (w.length + 3 + ·) := by
  have htake : (w ++ "```".toList ++ r).takeWhile isSpace = w := by
    rw [List.append_assoc, List.takeWhile_append_of_pos hw]
    show w ++ List.takeWhile isSpace ('`' :: _) = w
    rw [List.takeWhile_cons_of_neg (by decide), List.append_nil]
  have hfence : matchFence ("```".toList ++ r) = (matchTail r).map (3 + ·) := by
    unfold matchFence
    have hstart : startsWith ("```".toList ++ r) "```".toList = true :=
      List.isPrefixOf_iff_prefix.mpr (List.prefix_append _ _)
    rw [if_pos hstart]
    rfl
  unfold matchIndentedFence
  rw [htake]
  dsimp only
  rw [List.append_assoc, List.drop_left, hfence, Option.map_map]
  congr 1
  funext n
  simp [Nat.add_assoc]

theorem matchIndentedFence_eq_none {s : Text} (h : opensFence s = false) :
    matchIndentedFence s = none := by
  have hdrop : s.drop (s.takeWhile isSpace).length = s.dropWhile isSpace := by
    have hsplit := congrArg (List.drop (s.takeWhile isSpace).length)
      (List.takeWhile_append_dropWhile (p := isSpace) (l := s))
    rw [List.drop_left] at hsplit
    exact hsplit.symm
  unfold matchIndentedFence matchFence
  unfold opensFence at h
  dsimp only
  rw [hdrop, h]
  rfl

theorem splitFences_fenceFree {atStart : Bool} {u : Text}
    (hu : fenceFree atStart u = true) :
    splitFences matchIndentedFence atStart 0 u = [u] := by
  induction u generalizing atStart with
  | nil => rfl
  | cons c u ih =>
      rcases fenceFree_cons hu with ⟨hfirst, hrest⟩
      rw [splitFences_other fun hstart =>
        matchIndentedFence_eq_none (hfirst hstart), ih hrest]
      rfl

theorem splitFences_taken {w r : Text} (hw : Blank w) {m : Nat}
    (hm : matchTail r = some m) :
    splitFences matchIndentedFence true 0 (w ++ "```".toList ++ r) =
      [] :: splitFences matchIndentedFence (lineStart false (r.take m)) 0
        (r.drop m) := by
  have hfence : matchIndentedFence (w ++ "```".toList ++ r) =
      some (w.length + 3 + m) := by
    rw [matchIndentedFence_blank hw, hm]
    rfl
  rcases exists_of_matchTail hm with ⟨t, q, hsplit, hlength, _, _⟩
  have htake : r.take m = t := by
    rw [hsplit, ← hlength, List.take_left]
  have hdrop : r.drop m = q := by
    rw [hsplit, ← hlength, List.drop_left]
  have hflag : lineStart true (w ++ "```".toList ++ t) =
      lineStart false t := by
    rw [lineStart_append, lineStart_append]
    rfl
  have hall : w ++ "```".toList ++ r = (w ++ "```".toList ++ t) ++ q := by
    rw [hsplit, List.append_assoc _ t q]
  rw [hall] at hfence
  rw [htake, hdrop, ← hflag, hall]
  apply splitFences_prefix
  · simp
  · rw [hfence, ← hlength]
    simp only [List.length_append]
    rfl

theorem exists_piece {atStart : Bool} {u r : Text} {m : Nat}
    (hu : fenceFree atStart u = true) (hm : matchTail r = some m) :
    exists piece,
      splitFences matchIndentedFence atStart 0
          (u ++ '\n' :: ("```".toList ++ r)) =
        piece :: splitFences matchIndentedFence (lineStart false (r.take m)) 0
          (r.drop m) ∧
      SameUpToSpace piece u := by
  have hbreak : Blank ['\n'] := by
    intro c hc
    rw [List.mem_singleton.mp hc]
    decide
  induction u generalizing atStart with
  | nil =>
      cases atStart with
      | true =>
          exists []
          constructor
          · exact splitFences_taken hbreak hm
          · exact SameUpToSpace.refl []
      | false =>
          exists ['\n']
          constructor
          · have hend : isLineEnd '\n' = true := by decide
            rw [List.nil_append, splitFences_other (fun h =>
              absurd h Bool.false_ne_true), hend]
            have htaken := splitFences_taken blank_nil hm
            rw [List.nil_append] at htaken
            rw [htaken]
            rfl
          · exact ⟨[], ['\n'], blank_nil, hbreak, rfl⟩
  | cons c u ih =>
      rcases fenceFree_cons hu with ⟨hfirst, hrest⟩
      rcases ih hrest with ⟨piece, hpiece, hsame⟩
      by_cases hfence : atStart = true ∧ Blank (c :: u)
      · -- the match starts here, and takes the blank rest of the text
        rcases hfence with ⟨hstart, hblank⟩
        have hspace : Blank ((c :: u) ++ ['\n']) := by
          intro d hd
          rcases List.mem_append.mp hd with hd | hd
          · exact hblank d hd
          · exact hbreak d hd
        have htaken := splitFences_taken hspace hm
        exists []
        constructor
        · rw [hstart, ← htaken]
          simp
        · exact ⟨c :: u, [], hblank, blank_nil, by simp⟩
      · exists c :: piece
        constructor
        · have hnone : atStart = true -> matchIndentedFence
              (c :: (u ++ '\n' :: ("```".toList ++ r))) = none := by
            intro hstart
            have hblank : ¬ Blank (c :: u) := fun h => hfence ⟨hstart, h⟩
            apply matchIndentedFence_eq_none
            rw [← hfirst hstart]
            exact opensFence_append hblank _
          rw [List.cons_append, splitFences_other hnone, hpiece]
          rfl
        · exact hsame.cons c

/-! ## The pieces of a document -/

/-- What follows a fence: the rest of its line and the text up to the next. -/
def document (u : Text) (fenced : List Text) : Text :=
  u ++ fenced.flatMap fun v => '\n' :: ("```".toList ++ v)

def afterFence (v : Text) : Text :=
  v.drop ((matchTail v).getD 0)

structure Fenced (v : Text) : Prop where
  free : fenceFree false v = true
  matched : exists m, matchTail v = some m

theorem Fenced.exists_after {v : Text} (h : Fenced v) :
    exists m, matchTail v = some m ∧ m ≤ v.length ∧
      fenceFree (lineStart false (v.take m)) (v.drop m) = true ∧
      v.drop m = afterFence v := by
  rcases h with ⟨hfree, m, hm⟩
  exists m
  constructor
  · exact hm
  constructor
  · rcases exists_of_matchTail hm with ⟨t, r, hsplit, hlength, _⟩
    rw [hsplit, List.length_append, hlength]
    exact Nat.le_add_right _ _
  constructor
  · apply fenceFree_drop
    rw [List.take_append_drop]
    exact hfree
  · unfold afterFence
    rw [hm]
    rfl

theorem matchTail_document (v : Text) (fenced : List Text) :
    matchTail (document v fenced) = matchTail v := by
  cases fenced with
  | nil =>
      unfold document
      rw [List.flatMap_nil, List.append_nil]
  | cons next rest =>
      have hstop : isWordOrSpace '`' = false := by decide
      have hbreak : forall y, matchTail ('\n' :: '`' :: y) = some 0 := by
        intro y
        rw [matchTail_of_none (matchTail_stop hstop y)]
        rfl
      unfold document
      rw [List.flatMap_cons]
      show matchTail (v ++ '\n' :: '`' :: _) = matchTail v
      induction v with
      | nil => exact hbreak _
      | cons c v ih => rw [List.cons_append, matchTail, matchTail, ih]

theorem drop_document {v : Text} {m : Nat} (h : m ≤ v.length)
    (fenced : List Text) :
    (document v fenced).drop m = document (v.drop m) fenced :=
  List.drop_append_of_le_length h

theorem take_document {v : Text} {m : Nat} (h : m ≤ v.length)
    (fenced : List Text) : (document v fenced).take m = v.take m :=
  List.take_append_of_le_length h

theorem exists_pieces {atStart : Bool} {u : Text} {fenced : List Text}
    (hu : fenceFree atStart u = true)
    (hfenced : forall v, v ∈ fenced -> Fenced v) :
    List.Forall₂ SameUpToSpace
      (splitFences matchIndentedFence atStart 0 (document u fenced))
      (u :: fenced.map afterFence) := by
  induction fenced generalizing atStart u with
  | nil =>
      unfold document
      rw [List.flatMap_nil, List.append_nil, splitFences_fenceFree hu]
      exact List.Forall₂.cons (SameUpToSpace.refl u) List.Forall₂.nil
  | cons v fenced ih =>
      rcases (hfenced v List.mem_cons_self).exists_after with
        ⟨m, hm, hle, hrest, hafter⟩
      have hdocument : document u (v :: fenced) =
          u ++ '\n' :: ("```".toList ++ document v fenced) := by
        unfold document
        rw [List.flatMap_cons]
        rfl
      rcases exists_piece hu ((matchTail_document v fenced).trans hm) with
        ⟨piece, hpiece, hsame⟩
      rw [hdocument, hpiece, take_document hle, drop_document hle]
      apply List.Forall₂.cons hsame
      rw [List.map_cons, ← hafter]
      exact ih hrest fun w hw => hfenced w (List.mem_cons_of_mem v hw)

theorem exists_pieces_start {v : Text} {fenced : List Text}
    (hv : Fenced v) (hfenced : forall w, w ∈ fenced -> Fenced w) :
    List.Forall₂ SameUpToSpace
      (splitFences matchIndentedFence true 0
        ("```".toList ++ document v fenced))
      ([] :: (v :: fenced).map afterFence) := by
  rcases hv.exists_after with ⟨m, hm, hle, hrest, hafter⟩
  have htaken := splitFences_taken blank_nil
    ((matchTail_document v fenced).trans hm)
  rw [List.nil_append, take_document hle, drop_document hle] at htaken
  rw [htaken]
  apply List.Forall₂.cons (SameUpToSpace.refl [])
  rw [List.map_cons, ← hafter]
  exact exists_pieces hrest hfenced

/-! ## What a fence takes of a block -/

/-- The first line that is not blank, without the space in front of it. -/
def firstLine (content : Text) : Text :=
  (content.dropWhile isSpace).takeWhile fun c => !isLineEnd c

/-- The first line that is not blank has a character that is neither a letter,
a digit, an underscore nor space. -/
def Kept (content : Text) : Prop :=
  exists c, c ∈ firstLine content ∧ isWordOrSpace c = false

theorem exists_of_firstLine (content : Text) :
    exists w q, content = w ++ (firstLine content ++ q) ∧ Blank w ∧
      AtLineEnd q := by
  let rest := content.dropWhile isSpace
  exists content.takeWhile isSpace, rest.dropWhile fun c => !isLineEnd c
  constructor
  · unfold firstLine
    rw [List.takeWhile_append_dropWhile, List.takeWhile_append_dropWhile]
  constructor
  · intro c hc
    exact List.mem_takeWhile_imp hc
  · intro c hc
    have hnot := List.head?_dropWhile_not (fun c => !isLineEnd c) rest
    rw [hc] at hnot
    simpa using hnot

theorem matchTail_append_words {t : Text}
    (ht : forall c, c ∈ t -> isWordOrSpace c = true) {s : Text} {n : Nat}
    (h : matchTail s = some n) : matchTail (t ++ s) = some (t.length + n) := by
  induction t with
  | nil =>
      rw [List.nil_append, h, List.length_nil, Nat.zero_add]
  | cons c t ih =>
      have hc := ht c List.mem_cons_self
      have hrest := ih fun d hd => ht d (List.mem_cons_of_mem c hd)
      rw [List.cons_append, matchTail_of_some hc hrest, List.length_cons]
      congr 1
      omega

theorem matchTail_line {line : Text}
    (hline : forall c, c ∈ line -> isLineEnd c = false) {s : Text}
    (h : matchTail s = none) : matchTail (line ++ s) = none := by
  induction line with
  | nil => exact h
  | cons c line ih =>
      have hrest := ih fun d hd => hline d (List.mem_cons_of_mem c hd)
      rw [List.cons_append, matchTail_of_none hrest,
        hline c List.mem_cons_self]
      rfl

theorem matchTail_blank {w s : Text} (hw : Blank w)
    (h : matchTail s = none) :
    matchTail (w ++ s) = none ∨
      exists n, matchTail (w ++ s) = some n ∧ n < w.length := by
  induction w with
  | nil => exact Or.inl h
  | cons c w ih =>
      have hc := isWordOrSpace_of_isSpace (hw c List.mem_cons_self)
      rcases ih fun d hd => hw d (List.mem_cons_of_mem c hd) with
        hnone | ⟨n, hn, hlt⟩
      · rw [List.cons_append, matchTail_of_none hnone]
        split
        · exact Or.inr ⟨0, rfl, Nat.succ_pos _⟩
        · exact Or.inl rfl
      · apply Or.inr
        exists n + 1
        rw [List.cons_append, matchTail_of_some hc hn]
        exact ⟨rfl, Nat.succ_lt_succ hlt⟩

def countVisible (s : Text) : Nat :=
  s.countP fun c => !isSpace c

theorem countVisible_blank {w : Text} (hw : Blank w) : countVisible w = 0 := by
  apply List.countP_eq_zero.mpr
  intro c hc
  rw [hw c hc]
  decide

theorem countVisible_append (s t : Text) :
    countVisible (s ++ t) = countVisible s + countVisible t :=
  List.countP_append

theorem exists_of_trim (s : Text) :
    exists w w', s = w ++ (trim s ++ w') ∧ Blank w ∧ Blank w' := by
  let rest := s.dropWhile isSpace
  exists s.takeWhile isSpace, (rest.reverse.takeWhile isSpace).reverse
  constructor
  · have hrest : trim s ++ (rest.reverse.takeWhile isSpace).reverse = rest := by
      unfold trim
      rw [← List.reverse_append, List.takeWhile_append_dropWhile,
        List.reverse_reverse]
    rw [hrest, List.takeWhile_append_dropWhile]
  constructor
  · intro c hc
    exact List.mem_takeWhile_imp hc
  · intro c hc
    exact List.mem_takeWhile_imp (List.mem_reverse.mp hc)

theorem countVisible_trim (s : Text) :
    countVisible (trim s) = countVisible s := by
  rcases exists_of_trim s with ⟨w, w', hsplit, hw, hw'⟩
  conv_rhs => rw [hsplit]
  rw [countVisible_append, countVisible_append, countVisible_blank hw,
    countVisible_blank hw', Nat.zero_add, Nat.add_zero]

theorem isWordOrSpace_of_isAlphanum {c : Char} (h : c.isAlphanum = true) :
    isWordOrSpace c = true := by
  unfold isWordOrSpace
  rw [h]
  rfl

theorem afterFence_tag {tag : Text}
    (htag : forall c, c ∈ tag -> c.isAlphanum = true) {s : Text} {n : Nat}
    (h : matchTail s = some n) : afterFence (tag ++ s) = s.drop n := by
  have hwords : forall c, c ∈ tag -> isWordOrSpace c = true :=
    fun c hc => isWordOrSpace_of_isAlphanum (htag c hc)
  unfold afterFence
  rw [matchTail_append_words hwords h, Option.getD_some,
    List.drop_append, List.drop_of_length_le (Nat.le_add_right _ _),
    Nat.add_sub_cancel_left, List.nil_append]

theorem blank_lineFeed {w : Text} (hw : Blank w) : Blank ('\n' :: w) := by
  intro c hc
  cases hc with
  | head => decide
  | tail _ hc => exact hw c hc

theorem firstLine_visible {content : Text} (h : ¬ Blank content) :
    0 < countVisible (firstLine content) := by
  cases hdrop : content.dropWhile isSpace with
  | nil => exact absurd (List.dropWhile_eq_nil_iff.mp hdrop) h
  | cons c rest =>
      have hc : isSpace c = false := by
        have hnot := List.head?_dropWhile_not isSpace content
        rw [hdrop] at hnot
        exact hnot
      have hline : isLineEnd c = false := by
        cases hend : isLineEnd c with
        | false => rfl
        | true =>
            rw [isSpace_of_isLineEnd hend] at hc
            cases hc
      unfold firstLine countVisible
      rw [hdrop, List.takeWhile_cons_of_pos (by rw [hline]; rfl)]
      apply List.countP_pos_iff.mpr
      exists c
      constructor
      · exact List.mem_cons_self
      · rw [hc]
        rfl

theorem trim_afterFence_ne {tag content : Text}
    (htag : forall c, c ∈ tag -> c.isAlphanum = true)
    (hcontent : ¬ Blank content) (h : ¬ Kept content) :
    trim (afterFence (tag ++ '\n' :: content)) ≠ trim content := by
  rcases exists_of_firstLine content with ⟨w, q, hsplit, hw, hq⟩
  have hline : forall c, c ∈ firstLine content -> isWordOrSpace c = true := by
    intro c hc
    cases hword : isWordOrSpace c with
    | true => rfl
    | false => exact absurd ⟨c, hc, hword⟩ h
  have hwords : forall c, c ∈ ('\n' :: w) ++ firstLine content ->
      isWordOrSpace c = true := by
    intro c hc
    rcases List.mem_append.mp hc with hc | hc
    · exact isWordOrSpace_of_isSpace (blank_lineFeed hw c hc)
    · exact hline c hc
  rcases exists_matchTail hq with ⟨n, hn⟩
  have hmatch := matchTail_append_words hwords hn
  have htext : '\n' :: content = (('\n' :: w) ++ firstLine content) ++ q := by
    conv_lhs => rw [hsplit]
    simp
  have hdrop : ((('\n' :: w) ++ firstLine content) ++ q).drop
      ((('\n' :: w) ++ firstLine content).length + n) = q.drop n := by
    rw [List.drop_append, List.drop_of_length_le (Nat.le_add_right _ _),
      Nat.add_sub_cancel_left, List.nil_append]
  have hcontentCount : countVisible content =
      countVisible (firstLine content) + countVisible q := by
    conv_lhs => rw [hsplit]
    rw [countVisible_append, countVisible_append, countVisible_blank hw,
      Nat.zero_add]
  have hle : countVisible (q.drop n) ≤ countVisible q :=
    (List.drop_sublist n q).countP_le
  have hvisible := firstLine_visible hcontent
  rw [htext, afterFence_tag htag hmatch, hdrop]
  intro heq
  have hcount := congrArg countVisible heq
  rw [countVisible_trim, countVisible_trim] at hcount
  omega

theorem trim_afterFence_of_kept {tag content : Text}
    (htag : forall c, c ∈ tag -> c.isAlphanum = true) (h : Kept content) :
    trim (afterFence (tag ++ '\n' :: content)) = trim content := by
  rcases exists_of_firstLine content with ⟨w, q, hsplit, hw, _⟩
  rcases h with ⟨c, hc, hstop⟩
  rcases List.mem_iff_append.mp hc with ⟨front, back, hline⟩
  have hnone : matchTail (firstLine content ++ q) = none := by
    rw [hline, List.append_assoc]
    apply matchTail_line
    · intro d hd
      have hmem : d ∈ firstLine content := by
        rw [hline]
        exact List.mem_append_left _ hd
      have hnot := List.mem_takeWhile_imp hmem
      simpa using hnot
    · exact matchTail_stop hstop _
  have htext : '\n' :: content = ('\n' :: w) ++ (firstLine content ++ q) := by
    conv_lhs => rw [hsplit]
    rfl
  have hend : AtLineEnd (('\n' :: w) ++ (firstLine content ++ q)) := by
    intro d hd
    cases hd
    decide
  rcases matchTail_blank (blank_lineFeed hw) hnone with hnot | ⟨n, hn, hlt⟩
  · rcases exists_matchTail hend with ⟨n, hn⟩
    rw [hn] at hnot
    cases hnot
  · have hblank : Blank (('\n' :: w).drop n) := fun d hd =>
      blank_lineFeed hw d ((List.drop_sublist n _).subset hd)
    rw [htext, afterFence_tag htag hn,
      List.drop_append_of_le_length (Nat.le_of_lt hlt),
      trim_blank_append hblank]
    conv_rhs => rw [hsplit]
    exact (trim_blank_append hw _).symm

/-! ## Markdown -/

structure CodeBlock where
  tag : Text
  content : Text
  after : List Text
  tag_alphanumeric : forall c, c ∈ tag -> c.isAlphanum = true
  content_visible : ¬ Blank content
  content_free : fenceFree true content = true
  after_free : forall text, text ∈ after -> fenceFree true text = true

def CodeBlock.lines (b : CodeBlock) : List Text :=
  ("```".toList ++ b.tag) :: b.content :: "```".toList :: b.after

structure Markdown where
  before : List Text
  first : CodeBlock
  rest : List CodeBlock
  before_free : forall text, text ∈ before -> fenceFree true text = true

namespace Markdown

def blocks (m : Markdown) : List CodeBlock :=
  m.first :: m.rest

def render (m : Markdown) : Text :=
  join '\n' (m.before ++ m.blocks.flatMap CodeBlock.lines)

end Markdown

def moreLines (lines : List Text) : Text :=
  lines.flatMap fun line => '\n' :: line

theorem join_cons (line : Text) (lines : List Text) :
    join '\n' (line :: lines) = line ++ moreLines lines := by
  induction lines generalizing line with
  | nil => simp [join, moreLines]
  | cons next lines ih =>
      rw [join_cons_cons, ih]
      rfl

def CodeBlock.fenced (b : CodeBlock) : List Text :=
  [b.tag ++ '\n' :: b.content, moreLines b.after]

theorem moreLines_blocks (blocks : List CodeBlock) :
    moreLines (blocks.flatMap CodeBlock.lines) =
      document [] (blocks.flatMap CodeBlock.fenced) := by
  induction blocks with
  | nil => rfl
  | cons b blocks ih =>
      unfold moreLines document at ih ⊢
      rw [List.flatMap_cons, List.flatMap_append, ih, List.flatMap_cons,
        List.flatMap_append]
      simp [CodeBlock.lines, CodeBlock.fenced, moreLines]

theorem fenceFree_moreLines {text : Text} {lines : List Text}
    {atStart : Bool} (htext : fenceFree atStart text = true)
    (hlines : forall line, line ∈ lines -> fenceFree true line = true) :
    fenceFree atStart (text ++ moreLines lines) = true := by
  induction lines generalizing text atStart with
  | nil =>
      unfold moreLines
      rw [List.flatMap_nil, List.append_nil]
      exact htext
  | cons line lines ih =>
      have hline := hlines line List.mem_cons_self
      have hrest := ih hline fun l hl => hlines l (List.mem_cons_of_mem line hl)
      exact fenceFree_append htext hrest

theorem isLineEnd_of_isAlphanum {c : Char} (h : c.isAlphanum = true) :
    isLineEnd c = false := by
  cases hend : isLineEnd c with
  | false => rfl
  | true =>
      have hcode : c.toNat = 10 ∨ c.toNat = 13 ∨ c.toNat = 0x2028 ∨
          c.toNat = 0x2029 := by
        simpa [isLineEnd] using hend
      rw [← Char.ofNat_toNat c] at h
      rcases hcode with hc | hc | hc | hc
      all_goals
        rw [hc] at h
        revert h
        decide

theorem fenceFree_tag {tag : Text}
    (htag : forall c, c ∈ tag -> c.isAlphanum = true) :
    fenceFree false tag = true := by
  induction tag with
  | nil => rfl
  | cons c tag ih =>
      have hend := isLineEnd_of_isAlphanum (htag c List.mem_cons_self)
      rw [fenceFree, hend, ih fun d hd => htag d (List.mem_cons_of_mem c hd)]
      rfl

theorem CodeBlock.fenced_fenced (b : CodeBlock) {v : Text}
    (h : v ∈ b.fenced) : Fenced v := by
  have hblock : v = b.tag ++ '\n' :: b.content ∨ v = moreLines b.after := by
    simpa [CodeBlock.fenced] using h
  rcases hblock with hv | hv
  · rw [hv]
    constructor
    · exact fenceFree_append (fenceFree_tag b.tag_alphanumeric) b.content_free
    · have hend : AtLineEnd ('\n' :: b.content) := by
        intro c hc
        cases hc
        decide
      rcases exists_matchTail hend with ⟨n, hn⟩
      exact ⟨_, matchTail_append_words (fun c hc =>
        isWordOrSpace_of_isAlphanum (b.tag_alphanumeric c hc)) hn⟩
  · rw [hv]
    constructor
    · have hnil : fenceFree false [] = true := rfl
      exact fenceFree_moreLines hnil b.after_free
    · apply exists_matchTail
      intro c hc
      cases hafter : b.after with
      | nil =>
          rw [hafter] at hc
          cases hc
      | cons line lines =>
          rw [hafter] at hc
          cases hc
          decide

theorem exists_render_pieces (m : Markdown) :
    exists u, List.Forall₂ SameUpToSpace
      (splitFences matchIndentedFence true 0 m.render)
      (u :: (m.blocks.flatMap CodeBlock.fenced).map afterFence) := by
  have hfenced : forall v, v ∈ m.blocks.flatMap CodeBlock.fenced ->
      Fenced v := by
    intro v hv
    rcases List.mem_flatMap.mp hv with ⟨b, _, hb⟩
    exact b.fenced_fenced hb
  have hlines := moreLines_blocks m.blocks
  unfold Markdown.render
  cases hbefore : m.before with
  | nil =>
      let v := m.first.tag ++ '\n' :: m.first.content
      let vs := moreLines m.first.after :: m.rest.flatMap CodeBlock.fenced
      have hshape : m.blocks.flatMap CodeBlock.fenced = v :: vs := rfl
      have hrender : '\n' :: join '\n' (m.blocks.flatMap CodeBlock.lines) =
          moreLines (m.blocks.flatMap CodeBlock.lines) := by
        show '\n' :: join '\n' (_ :: _) = moreLines (_ :: _)
        rw [join_cons]
        rfl
      rw [hlines, hshape] at hrender
      injection hrender with _ hrender
      rw [hshape] at hfenced
      exists []
      rw [List.nil_append, hrender, hshape]
      exact exists_pieces_start (hfenced v List.mem_cons_self)
        fun w hw => hfenced w (List.mem_cons_of_mem v hw)
  | cons text before =>
      have hbeforeFree := m.before_free
      rw [hbefore] at hbeforeFree
      have hfree : fenceFree true (text ++ moreLines before) = true :=
        fenceFree_moreLines (hbeforeFree text List.mem_cons_self)
          fun line hline => hbeforeFree line (List.mem_cons_of_mem text hline)
      have hrender : join '\n' (text :: before ++
          m.blocks.flatMap CodeBlock.lines) =
          document (text ++ moreLines before)
            (m.blocks.flatMap CodeBlock.fenced) := by
        have hmore : moreLines (before ++ m.blocks.flatMap CodeBlock.lines) =
            moreLines before ++ moreLines (m.blocks.flatMap CodeBlock.lines) :=
          List.flatMap_append
        rw [List.cons_append, join_cons, hmore, hlines, ← List.append_assoc]
        rfl
      exists text ++ moreLines before
      rw [hrender]
      exact exists_pieces hfree hfenced

/-! ## The blocks that are picked -/

def everySecond {a : Type} : List a -> List a
  | _ :: y :: rest => y :: everySecond rest
  | _ => []

theorem everySecond_picked {a b : Type} (f : a -> b) (fallback : a) {n : Nat}
    {pieces : List a} (h : pieces.length = 2 * n + 1) :
    (List.range n).map (fun k =>
        f (pieces.getD (pieces.length - 2 * (n - k)) fallback)) =
      (everySecond pieces).map f := by
  induction n generalizing pieces with
  | zero =>
      match pieces, h with
      | [x], _ => rfl
  | succ n ih =>
      match pieces, h with
      | x :: y :: rest, h =>
          have hrest : rest.length = 2 * n + 1 := by
            simp only [List.length_cons] at h
            omega
          rw [List.range_succ_eq_map, List.map_cons, List.map_map]
          have hfirst : (x :: y :: rest).length - 2 * (n + 1 - 0) = 1 := by
            rw [h]
            omega
          rw [hfirst, everySecond, List.map_cons, ← ih hrest]
          congr 1
          apply List.map_congr_left
          intro k hk
          have hlt := List.mem_range.mp hk
          have hindex : (x :: y :: rest).length - 2 * (n + 1 - (k + 1)) =
              rest.length - 2 * (n - k) + 2 := by
            simp only [List.length_cons]
            omega
          show f ((x :: y :: rest).getD _ fallback) = _
          rw [hindex]
          rfl

theorem everySecond_forall {a b : Type} {r : a -> b -> Prop} {xs : List a}
    {ys : List b} (h : List.Forall₂ r xs ys) :
    List.Forall₂ r (everySecond xs) (everySecond ys) := by
  match xs, ys, h with
  | [], [], _ => exact List.Forall₂.nil
  | [x], [y], _ => exact List.Forall₂.nil
  | x :: x' :: xs, y :: y' :: ys, .cons _ (.cons h hrest) =>
      exact List.Forall₂.cons h (everySecond_forall hrest)

theorem everySecond_fenced (u : Text) (blocks : List CodeBlock) :
    everySecond (u :: (blocks.flatMap CodeBlock.fenced).map afterFence) =
      blocks.map fun b => afterFence (b.tag ++ '\n' :: b.content) := by
  induction blocks generalizing u with
  | nil => rfl
  | cons b blocks ih =>
      rw [List.map_cons, ← ih (afterFence (moreLines b.after))]
      rfl

theorem length_fenced (blocks : List CodeBlock) :
    (blocks.flatMap CodeBlock.fenced).length = 2 * blocks.length := by
  induction blocks with
  | nil => rfl
  | cons b blocks ih =>
      rw [List.flatMap_cons, List.length_append, ih, List.length_cons]
      have htwo : b.fenced.length = 2 := rfl
      omega

theorem map_trim {xs ys : List Text} (h : List.Forall₂ SameUpToSpace xs ys) :
    xs.map (fun piece => Json.str (trim piece)) =
      ys.map fun piece => Json.str (trim piece) := by
  induction h with
  | nil => rfl
  | cons hsame _ ih => rw [List.map_cons, List.map_cons, hsame.trim, ih]

theorem codeBlocks_render (m : Markdown) :
    codeBlocks m.blocks.length m.render =
      .ok (m.blocks.map fun b =>
        .str (trim (afterFence (b.tag ++ '\n' :: b.content)))) := by
  rcases exists_render_pieces m with ⟨u, hpieces⟩
  have hlength : (splitFences matchIndentedFence true 0 m.render).length =
      2 * m.blocks.length + 1 := by
    rw [hpieces.length_eq, List.length_cons, List.length_map, length_fenced]
  unfold codeBlocks
  dsimp only
  rw [if_neg (by omega)]
  rw [everySecond_picked (fun piece => Json.str (trim piece)) [] hlength]
  have hsecond := everySecond_forall hpieces
  rw [everySecond_fenced] at hsecond
  rw [map_trim hsecond, List.map_map]
  rfl

/-- An array of `n` holes, as it is given for `n` code blocks. -/
def holes (n : Nat) : Json :=
  .arr (List.replicate n .null)

theorem parse_codeBlocks (reader : JsonReader) (m : Markdown) :
    parseResultSchema reader (some (holes m.blocks.length)) .codeBlock
        (some m.render) =
      .ok (some (.arr (m.blocks.map fun b =>
        .str (trim (afterFence (b.tag ++ '\n' :: b.content)))))) := by
  have hrender : truthy (some m.render) = some m.render := by
    cases hm : m.render with
    | nil =>
        have hcount := codeBlocks_render m
        rw [hm] at hcount
        cases hcount
    | cons c rest => rfl
  have hlength : lengthOf (holes m.blocks.length) = some m.blocks.length := by
    show some (List.replicate _ _).length = _
    rw [List.length_replicate]
  have hschema : (some (holes m.blocks.length)).filter Json.truthy =
      some (holes m.blocks.length) := rfl
  unfold parseResultSchema
  rw [hrender]
  dsimp only
  rw [hschema]
  dsimp only
  rw [hlength]
  dsimp only
  rw [codeBlocks_render]
  rfl

/-- The contents are read, trimmed and in order, exactly when the first line
of each that is not blank is not all words and space. -/
theorem codeBlocks_iff (reader : JsonReader) (m : Markdown) :
    parseResultSchema reader (some (holes m.blocks.length)) .codeBlock
        (some m.render) =
      .ok (some (.arr (m.blocks.map fun b => .str (trim b.content)))) <->
      forall b, b ∈ m.blocks -> Kept b.content := by
  rw [parse_codeBlocks]
  constructor
  · intro h b hb
    injection h with h
    injection h with h
    injection h with h
    have heq := List.map_inj_left.mp h b hb
    injection heq with heq
    apply Classical.byContradiction
    intro hkept
    exact trim_afterFence_ne b.tag_alphanumeric b.content_visible hkept heq
  · intro h
    congr 3
    apply List.map_congr_left
    intro b hb
    rw [trim_afterFence_of_kept b.tag_alphanumeric (h b hb)]

/-! ## An estimate in words -/

def estimate : Markdown where
  before := ["The estimated time:".toList]
  first :=
    { tag := "text".toList
      content := "about 2 hours".toList
      after := []
      tag_alphanumeric := List.all_eq_true.mp (by decide)
      content_visible := not_blank (c := 'a') (by decide) (by decide)
      content_free := by decide
      after_free := fun _ h => nomatch h }
  rest := []
  before_free := by decide

/-- The line is taken for a part of the fence, and nothing is left of the
block. -/
theorem not_codeBlocks_estimate :
    parseResultSchema ⟨fun text => .ok text, fun _ => .ok .null⟩
        (some (holes 1)) .codeBlock (some estimate.render) =
      .ok (some (.arr [.str []])) ∧
    parseResultSchema ⟨fun text => .ok text, fun _ => .ok .null⟩
        (some (holes 1)) .codeBlock (some estimate.render) ≠
      .ok (some (.arr (estimate.blocks.map fun b => .str (trim b.content)))) := by
  constructor
  · rfl
  · intro h
    injection h with h
    injection h with h
    injection h with h
    injection h with h _
    injection h with h
    revert h
    decide

end Agents
end CallgentApi
