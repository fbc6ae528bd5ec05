import CallgentApi.Lib.JsString
import CallgentApi.Lib.Separator

/-!
# Paths and the places they name

A path is read segment by segment: an empty segment and `.` stay, `..` leaves
the last name, and any other segment enters a name.  The place a path names is
the stack of names that is left; a relative path may also climb above its
start.
-/

namespace CallgentApi
namespace Js

structure Place where
  absolute : Bool
  ups : Nat
  stack : List Text
deriving DecidableEq

namespace Place

def dot : Text := ['.']

def dots : Text := ['.', '.']

def enter (p : Place) (segment : Text) : Place :=
  if segment = [] ∨ segment = dot then p
  else if segment = dots then
    match p.stack with
    | _ :: rest => { p with stack := rest }
    | [] => if p.absolute then p else { p with ups := p.ups + 1 }
  else { p with stack := segment :: p.stack }

def root (absolute : Bool) : Place := ⟨absolute, 0, []⟩

def isAbsolute (path : Text) : Bool :=
  startsWith path ['/']

def visit (p : Place) (path : Text) : Place :=
  (path.splitOn '/').foldl enter p

def locate (path : Text) : Place :=
  visit (root (isAbsolute path)) path

/-- The segments of the shortest path to a place. -/
def segments (p : Place) : List Text :=
  List.replicate p.ups dots ++ p.stack.reverse

end Place

open Place

/-- `path.normalize(path)`. -/
def normalize (path : Text) : Text :=
  let p := locate path
  let body := join '/' p.segments
  let trailing := path.getLast? == some '/'
  if body.isEmpty then
    if p.absolute then ['/'] else if trailing then ['.', '/'] else ['.']
  else
    (if p.absolute then ['/'] else []) ++ body ++
      (if trailing then ['/'] else [])

/-- `path.join(...parts)`. -/
def joinPaths (parts : List Text) : Text :=
  let joined := join '/' (parts.filter fun part => !part.isEmpty)
  if joined.isEmpty then ['.'] else normalize joined

namespace Place

/-! ## Names -/

structure IsName (n : Text) : Prop where
  ne_nil : n ≠ []
  ne_dot : n ≠ dot
  ne_dots : n ≠ dots
  no_slash : '/' ∉ n

structure WellFormed (p : Place) : Prop where
  names : forall n, n ∈ p.stack -> IsName n
  ups_eq : p.absolute = true -> p.ups = 0

theorem wellFormed_enter {p : Place} (h : p.WellFormed) {segment : Text}
    (hslash : '/' ∉ segment) : (p.enter segment).WellFormed := by
  unfold enter
  split
  · exact h
  · rename_i hstay
    rw [not_or] at hstay
    split
    · split
      · rename_i n rest hstack
        constructor
        · intro m hm
          apply h.names
          rw [hstack]
          exact List.mem_cons_of_mem n hm
        · exact h.ups_eq
      · split
        · exact h
        · rename_i hrelative
          constructor
          · exact h.names
          · intro habsolute
            exact absurd habsolute hrelative
    · rename_i hdots
      constructor
      · intro m hm
        rcases List.mem_cons.mp hm with heq | hin
        · rw [heq]
          exact ⟨hstay.left, hstay.right, hdots, hslash⟩
        · exact h.names m hin
      · exact h.ups_eq

theorem wellFormed_foldl {segs : List Text} {p : Place} (h : p.WellFormed)
    (hslash : forall segment, segment ∈ segs -> '/' ∉ segment) :
    (segs.foldl enter p).WellFormed := by
  induction segs generalizing p with
  | nil => exact h
  | cons segment rest ih =>
      apply ih
      · exact wellFormed_enter h (hslash segment List.mem_cons_self)
      · intro other hother
        exact hslash other (List.mem_cons_of_mem segment hother)

/-! ## Entering what stands for nothing -/

theorem enter_nil (p : Place) : p.enter [] = p :=
  if_pos (Or.inl rfl)

theorem enter_name {p : Place} {n : Text} (h : IsName n) :
    p.enter n = { p with stack := n :: p.stack } := by
  unfold enter
  rw [if_neg (not_or.mpr ⟨h.ne_nil, h.ne_dot⟩), if_neg h.ne_dots]

theorem foldl_enter_names {names : List Text}
    (h : forall n, n ∈ names -> IsName n) (p : Place) :
    names.foldl enter p = { p with stack := names.reverse ++ p.stack } := by
  induction names generalizing p with
  | nil => rfl
  | cons n rest ih =>
      rw [List.foldl_cons, enter_name (h n List.mem_cons_self),
        ih fun m hm => h m (List.mem_cons_of_mem n hm)]
      simp

theorem foldl_enter_dots (n ups : Nat) :
    (List.replicate n dots).foldl enter ⟨false, ups, []⟩ =
      ⟨false, ups + n, []⟩ := by
  induction n generalizing ups with
  | zero => rfl
  | succ n ih =>
      rw [List.replicate_succ, List.foldl_cons]
      show (List.replicate n dots).foldl enter ⟨false, ups + 1, []⟩ = _
      rw [ih]
      congr 1
      omega

theorem foldl_enter_segments {p : Place} (h : p.WellFormed) :
    p.segments.foldl enter (root p.absolute) = p := by
  have hnames : forall n, n ∈ p.stack.reverse -> IsName n := by
    intro n hn
    exact h.names n (List.mem_reverse.mp hn)
  rcases p with ⟨absolute, ups, stack⟩
  unfold segments root
  rw [List.foldl_append]
  cases absolute with
  | true =>
      have hups : ups = 0 := h.ups_eq rfl
      rw [hups]
      show stack.reverse.foldl enter ⟨true, 0, []⟩ = _
      rw [foldl_enter_names hnames]
      simp
  | false =>
      rw [foldl_enter_dots, foldl_enter_names hnames]
      simp

/-! ## Paths put together -/

@[simp] theorem visit_nil (p : Place) : visit p [] = p := enter_nil p

theorem visit_append (p : Place) (front back : Text) :
    visit p (front ++ '/' :: back) = visit (visit p front) back := by
  unfold visit
  rw [List.splitOn_append_cons_self, List.foldl_append]

theorem visit_cons (p : Place) (path : Text) :
    visit p ('/' :: path) = visit p path := by
  have h := visit_append p [] path
  rw [visit_nil] at h
  exact h

theorem visit_join (parts : List Text) (p : Place) :
    visit p (join '/' parts) = parts.foldl visit p := by
  induction parts generalizing p with
  | nil => exact visit_nil p
  | cons part rest ih =>
      cases rest with
      | nil => simp [join, List.intercalate]
      | cons next rest =>
          rw [join_cons_cons, visit_append, ih]
          rfl

theorem foldl_visit_filter (parts : List Text) (p : Place) :
    (parts.filter fun part => !part.isEmpty).foldl visit p =
      parts.foldl visit p := by
  induction parts generalizing p with
  | nil => rfl
  | cons part rest ih =>
      cases part with
      | nil =>
          rw [List.foldl_cons, visit_nil, List.filter_cons_of_neg (by simp)]
          exact ih p
      | cons c part =>
          rw [List.filter_cons_of_pos (by simp), List.foldl_cons,
            List.foldl_cons]
          exact ih _

/-! ## The normal form -/

theorem wellFormed_locate (path : Text) : (locate path).WellFormed := by
  apply wellFormed_foldl
  · constructor
    · intro n hn
      cases hn
    · intro _
      rfl
  · intro segment hsegment
    exact Separator.not_mem_of_mem_splitOn hsegment

theorem visit_segments {p : Place} (h : p.WellFormed) :
    visit (root p.absolute) (join '/' p.segments) = p := by
  have hslash : forall segment, segment ∈ p.segments -> '/' ∉ segment := by
    intro segment hsegment
    rcases List.mem_append.mp hsegment with hdots | hname
    · rw [List.eq_of_mem_replicate hdots]
      decide
    · exact (h.names segment (List.mem_reverse.mp hname)).no_slash
  cases hsegments : p.segments with
  | nil =>
      have hfold := foldl_enter_segments h
      rw [hsegments] at hfold
      exact (visit_nil _).trans hfold
  | cons first rest =>
      have hne : p.segments ≠ [] := by
        rw [hsegments]
        exact List.cons_ne_nil _ _
      have hsplit : (join '/' p.segments).splitOn '/' = p.segments :=
        List.splitOn_intercalate '/' hslash hne
      rw [← hsegments]
      unfold visit
      rw [hsplit]
      exact foldl_enter_segments h

theorem join_segments_cases {p : Place} (h : p.WellFormed) :
    (join '/' p.segments = [] ∧ p.segments = []) ∨
      exists c rest, join '/' p.segments = c :: rest ∧ c ≠ '/' := by
  cases hsegments : p.segments with
  | nil => exact Or.inl ⟨rfl, rfl⟩
  | cons first others =>
      apply Or.inr
      have hmem : first ∈ p.segments := by
        rw [hsegments]
        exact List.mem_cons_self
      have hfirst : first ≠ [] ∧ '/' ∉ first := by
        rcases List.mem_append.mp hmem with hdots | hname
        · rw [List.eq_of_mem_replicate hdots]
          decide
        · have hn := h.names first (List.mem_reverse.mp hname)
          exact ⟨hn.ne_nil, hn.no_slash⟩
      cases first with
      | nil => exact absurd rfl hfirst.left
      | cons c rest =>
          have hc : c ≠ '/' := by
            intro heq
            apply hfirst.right
            rw [heq]
            exact List.mem_cons_self
          cases others with
          | nil =>
              have hone : join '/' [c :: rest] = c :: rest := by
                simp [join, List.intercalate]
              exact ⟨c, rest, hone, hc⟩
          | cons next others =>
              exact ⟨c, rest ++ '/' :: join '/' (next :: others),
                join_cons_cons _ _ _ _, hc⟩

theorem visit_trailing (p : Place) (path : Text) (trailing : Bool) :
    visit p (path ++ if trailing then ['/'] else []) = visit p path := by
  cases trailing with
  | true => exact (visit_append p path []).trans (visit_nil _)
  | false =>
      rw [if_neg Bool.false_ne_true, List.append_nil]

theorem locate_normalize (path : Text) :
    locate (normalize path) = locate path := by
  have hformed := wellFormed_locate path
  unfold normalize
  dsimp only
  rcases join_segments_cases hformed with ⟨hbody, hnone⟩ | ⟨c, rest, hbody, hc⟩
  · have hplace : locate path = root (locate path).absolute := by
      have hfold := foldl_enter_segments hformed
      rw [hnone] at hfold
      exact hfold.symm
    rw [hbody, hplace]
    cases (locate path).absolute with
    | true => rfl
    | false =>
        cases path.getLast? == some '/' with
        | true => rfl
        | false => rfl
  · have hvisit := visit_segments hformed
    rw [hbody] at hvisit ⊢
    rw [if_neg (by simp)]
    cases habsolute : (locate path).absolute with
    | true =>
        rw [habsolute] at hvisit
        show visit (root true) ('/' :: (c :: rest ++ _)) = _
        rw [visit_cons, visit_trailing, hvisit]
    | false =>
        rw [habsolute] at hvisit
        have hrelative : isAbsolute (c :: rest ++
            if (path.getLast? == some '/') = true then ['/'] else []) =
              false := by
          have hbeq : ('/' == c) = false := beq_false_of_ne hc.symm
          simp [isAbsolute, startsWith, List.isPrefixOf, hbeq]
        show visit (root (isAbsolute (c :: rest ++ _))) (c :: rest ++ _) = _
        rw [hrelative, visit_trailing, hvisit]

/-! ## Descents -/

/-- The names that segments leave, the last name first; `none` when they climb
above their start. -/
def walk (names : List Text) : List Text -> Option (List Text)
  | [] => some names
  | segment :: rest =>
      if segment = [] ∨ segment = dot then walk names rest
      else if segment = dots then
        match names with
        | _ :: above => walk above rest
        | [] => none
      else walk (segment :: names) rest

/-- Strictly below: a name is entered from the base. -/
def Below (base p : Place) : Prop :=
  exists names, names ≠ [] ∧ p = { base with stack := names ++ base.stack }

theorem foldl_enter_of_walk {segs names out : List Text}
    (h : walk names segs = some out) (p : Place) :
    segs.foldl enter { p with stack := names ++ p.stack } =
      { p with stack := out ++ p.stack } := by
  induction segs generalizing names with
  | nil => rw [Option.some.inj h, List.foldl_nil]
  | cons segment rest ih =>
      rw [List.foldl_cons]
      unfold walk at h
      unfold enter
      split at h
      · rename_i hstay
        rw [if_pos hstay]
        exact ih h
      · rename_i hstay
        rw [if_neg hstay]
        split at h
        · rename_i hdots
          rw [if_pos hdots]
          cases names with
          | nil => cases h
          | cons n above => exact ih h
        · rename_i hdots
          rw [if_neg hdots]
          exact ih h

theorem mem_stack_enter {p : Place} {segment n : Text}
    (h : n ∈ (p.enter segment).stack) : n ∈ p.stack ∨ n = segment := by
  unfold enter at h
  split at h
  · exact Or.inl h
  · split at h
    · split at h
      · rename_i top rest hstack
        rw [hstack]
        exact Or.inl (List.mem_cons_of_mem top h)
      · split at h
        · exact Or.inl h
        · exact Or.inl h
    · rcases List.mem_cons.mp h with heq | hmem
      · exact Or.inr heq
      · exact Or.inl hmem

theorem mem_stack_foldl {segs : List Text} {p : Place} {n : Text}
    (h : n ∈ (segs.foldl enter p).stack) : n ∈ p.stack ∨ n ∈ segs := by
  induction segs generalizing p with
  | nil => exact Or.inl h
  | cons segment rest ih =>
      rcases ih h with hstack | hrest
      · rcases mem_stack_enter hstack with hmem | heq
        · exact Or.inl hmem
        · rw [heq]
          exact Or.inr List.mem_cons_self
      · exact Or.inr (List.mem_cons_of_mem segment hrest)

theorem walk_name {n : Text} (h : IsName n) (names rest : List Text) :
    walk names (n :: rest) = walk (n :: names) rest := by
  conv => lhs; unfold walk
  rw [if_neg (not_or.mpr ⟨h.ne_nil, h.ne_dot⟩), if_neg h.ne_dots]

theorem not_mem_foldl_of_walk_none {segs names : List Text} {base : Text}
    (h : walk names segs = none) (hnames : base ∉ names) (hsegs : base ∉ segs)
    (absolute : Bool) (ups : Nat) :
    base ∉ (segs.foldl enter ⟨absolute, ups, names ++ [base]⟩).stack := by
  induction segs generalizing names with
  | nil => cases h
  | cons segment rest ih =>
      rw [List.foldl_cons]
      rw [List.mem_cons, not_or] at hsegs
      unfold walk at h
      unfold enter
      split at h
      · rename_i hstay
        rw [if_pos hstay]
        exact ih h hnames hsegs.right
      · rename_i hstay
        rw [if_neg hstay]
        split at h
        · rename_i hdots
          rw [if_pos hdots]
          cases names with
          | nil =>
              intro hmem
              rcases mem_stack_foldl hmem with hnil | hrest
              · cases hnil
              · exact hsegs.right hrest
          | cons n above =>
              exact ih h (List.not_mem_of_not_mem_cons hnames) hsegs.right
        · rename_i hdots
          rw [if_neg hdots]
          apply ih h
          · exact List.not_mem_cons_of_ne_of_not_mem hsegs.left hnames
          · exact hsegs.right

theorem below_iff_of_walk {segs out : List Text} (h : walk [] segs = some out)
    (base : Place) : Below base (segs.foldl enter base) <-> out ≠ [] := by
  have hfold := foldl_enter_of_walk h base
  rw [List.nil_append] at hfold
  rw [hfold]
  constructor
  · intro hbelow hout
    rcases hbelow with ⟨names, hnames, heq⟩
    have hstack := congrArg Place.stack heq
    rw [hout] at hstack
    exact hnames (List.append_cancel_right hstack).symm
  · intro hout
    exact ⟨out, hout, rfl⟩

def freshName (segs : List Text) : Text :=
  List.replicate (segs.flatten.length + 1) 'b'

theorem freshName_not_mem (segs : List Text) : freshName segs ∉ segs := by
  intro hmem
  have hle := (List.sublist_flatten_of_mem hmem).length_le
  unfold freshName at hle
  rw [List.length_replicate] at hle
  omega

theorem isName_freshName (segs : List Text) : IsName (freshName segs) := by
  have hall : forall c, c ∈ freshName segs -> c = 'b' := by
    intro c hc
    exact List.eq_of_mem_replicate hc
  have hfirst : 'b' ∈ freshName segs :=
    List.mem_replicate.mpr ⟨Nat.succ_ne_zero _, rfl⟩
  constructor
  · exact List.ne_nil_of_mem hfirst
  · intro heq
    rw [heq] at hfirst
    exact absurd hfirst (by decide)
  · intro heq
    rw [heq] at hfirst
    exact absurd hfirst (by decide)
  · intro hslash
    exact absurd (hall '/' hslash) (by decide)

/-- Segments lead below every base exactly when they never climb above their
start and enter a name in the end. -/
theorem forall_below_iff (segs : List Text) :
    (forall base : Text, Below (locate base) (segs.foldl enter (locate base)))
      <-> exists out, walk [] segs = some out ∧ out ≠ [] := by
  constructor
  · intro hall
    cases hwalk : walk [] segs with
    | none =>
        let name := freshName segs
        have hplace : locate ('/' :: name) = ⟨true, 0, [name]⟩ := by
          show visit (root true) ('/' :: name) = _
          rw [visit_cons]
          unfold visit
          rw [List.splitOn_eq_singleton (isName_freshName segs).no_slash,
            List.foldl_cons, enter_name (isName_freshName segs)]
          rfl
        rcases hall ('/' :: name) with ⟨names, _, heq⟩
        have hleft := not_mem_foldl_of_walk_none hwalk List.not_mem_nil
          (freshName_not_mem segs) true 0
        rw [hplace] at heq
        rw [List.nil_append, heq] at hleft
        exact absurd (List.mem_append_right names List.mem_cons_self) hleft
    | some out =>
        exact ⟨out, rfl, (below_iff_of_walk hwalk _).mp (hall [])⟩
  · intro h base
    rcases h with ⟨out, hwalk, hout⟩
    exact (below_iff_of_walk hwalk _).mpr hout

theorem foldl_enter_eq_iff {first second out other : List Text}
    (hfirst : walk [] first = some out) (hsecond : walk [] second = some other)
    (base : Place) :
    first.foldl enter base = second.foldl enter base <-> out = other := by
  have hleft := foldl_enter_of_walk hfirst base
  have hright := foldl_enter_of_walk hsecond base
  rw [List.nil_append] at hleft hright
  rw [hleft, hright]
  constructor
  · intro heq
    exact List.append_cancel_right (congrArg Place.stack heq)
  · intro heq
    rw [heq]

/-! ## Parts behind a base -/

theorem foldl_visit (parts : List Text) (p : Place) :
    parts.foldl visit p =
      (parts.flatMap fun part => part.splitOn '/').foldl enter p := by
  induction parts generalizing p with
  | nil => rfl
  | cons part rest ih =>
      rw [List.foldl_cons, ih, List.flatMap_cons, List.foldl_append]
      rfl

theorem locate_joinPaths {name : Text} (hname : IsName name) (base : Text)
    (rest : List Text) :
    locate (joinPaths (base :: name :: rest)) =
      (name :: rest).foldl visit (locate base) := by
  have hempty : name.isEmpty = false := List.isEmpty_eq_false_iff.mpr hname.ne_nil
  have hjoined : forall tail : List Text,
      (join '/' (name :: tail)).isEmpty = false ∧
        isAbsolute (join '/' (name :: tail)) = false := by
    intro tail
    rcases List.exists_cons_of_ne_nil hname.ne_nil with ⟨c, cs, heq⟩
    have hc : ('/' == c) = false := by
      apply beq_false_of_ne
      intro hslash
      apply hname.no_slash
      rw [heq, hslash]
      exact List.mem_cons_self
    rw [heq]
    cases tail with
    | nil => simp [join, List.intercalate, isAbsolute, startsWith,
        List.isPrefixOf, hc]
    | cons next others =>
        rw [join_cons_cons]
        simp [isAbsolute, startsWith, List.isPrefixOf, hc]
  have hfilter : (name :: rest).filter (fun part => !part.isEmpty) =
      name :: rest.filter fun part => !part.isEmpty := by
    rw [List.filter_cons_of_pos (by rw [hempty]; rfl)]
  have hvisit := foldl_visit_filter (name :: rest)
  rw [hfilter] at hvisit
  unfold joinPaths
  cases base with
  | nil =>
      rw [List.filter_cons_of_neg (by simp), hfilter]
      dsimp only
      rw [if_neg (by rw [(hjoined _).left]; exact Bool.false_ne_true),
        locate_normalize]
      unfold locate
      rw [(hjoined _).right, visit_join, hvisit]
      rfl
  | cons c base =>
      rw [List.filter_cons_of_pos (by simp), hfilter, join_cons_cons]
      dsimp only
      rw [if_neg (by simp), locate_normalize]
      have habsolute : forall tail : Text,
          isAbsolute (c :: base ++ '/' :: tail) = isAbsolute (c :: base) := by
        intro tail
        simp [isAbsolute, startsWith, List.isPrefixOf]
      unfold locate
      rw [habsolute, visit_append, visit_join, hvisit]

end Place
end Js
end CallgentApi
