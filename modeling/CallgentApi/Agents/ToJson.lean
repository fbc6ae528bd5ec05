import CallgentApi.Lib.Brackets
import CallgentApi.Agents.Fences

/-!
# Values cut out of an answer

A value is found again in the text around it when nothing in its strings is
taken for a bracket or a code fence.
-/

namespace CallgentApi
namespace Agents

open Js Event

/-! ## Fences in a text -/

def fencesFrom (atStart : Bool) : Text -> Nat
  | [] => 0
  | c :: rest =>
      (if atStart && (matchFence (c :: rest)).isSome then 1 else 0) +
        fencesFrom (isLineEnd c) rest

def fences (s : Text) : Nat :=
  fencesFrom true s

theorem fencesFrom_of_ne {c : Char} (hc : c ≠ '`') (atStart : Bool)
    (s : Text) : fencesFrom atStart (c :: s) = fencesFrom (isLineEnd c) s := by
  rw [fencesFrom, matchFence_of_ne hc]
  simp

theorem fencesFrom_append {p : Text} (hp : '`' ∉ p) (atStart : Bool)
    (s : Text) :
    fencesFrom atStart (p ++ s) = fencesFrom (lineStart atStart p) s := by
  induction p generalizing atStart with
  | nil => rfl
  | cons c p ih =>
      rw [List.mem_cons, not_or] at hp
      rw [List.cons_append, fencesFrom_of_ne (Ne.symm hp.left),
        lineStart_cons, ih hp.right]

theorem fencesFrom_eq_zero {p : Text} (hp : '`' ∉ p) (atStart : Bool) :
    fencesFrom atStart p = 0 := by
  have happend := fencesFrom_append hp atStart []
  rw [List.append_nil] at happend
  exact happend

theorem fencesFrom_append_stop {z : Char} (hz : isWordOrSpace z = false)
    (hne : z ≠ '`') {y : Text} (hy : '`' ∉ y) (atStart : Bool) (x : Text) :
    fencesFrom atStart (x ++ z :: y) = fencesFrom atStart (x ++ [z]) := by
  induction x generalizing atStart with
  | nil =>
      rw [List.nil_append, List.nil_append, fencesFrom_of_ne hne,
        fencesFrom_of_ne hne, fencesFrom_eq_zero hy]
      rfl
  | cons c x ih =>
      have hfence := matchFence_append_stop hz hne (c :: x) y
      rw [List.cons_append, List.cons_append] at hfence ⊢
      rw [fencesFrom, fencesFrom, hfence, ih]

theorem fence_induction {motive : Bool -> Text -> Prop}
    (nil : forall atStart, motive atStart [])
    (other : forall atStart c s,
      (atStart = true -> matchFence (c :: s) = none) ->
      motive (isLineEnd c) s -> motive atStart (c :: s))
    (fence : forall t r,
      matchFence ("```".toList ++ (t ++ r)) = some (t.length + 3) ->
      (forall c, c ∈ t -> isWordOrSpace c = true) -> AtLineEnd r ->
      motive (lineStart false t) r ->
      motive true ("```".toList ++ (t ++ r)))
    (atStart : Bool) (s : Text) : motive atStart s := by
  induction hn : s.length using Nat.strong_induction_on
    generalizing atStart s with
  | h n ih =>
      cases s with
      | nil => exact nil atStart
      | cons c s =>
          have hrest : motive (isLineEnd c) s := by
            apply ih s.length _ (isLineEnd c) s rfl
            rw [← hn]
            exact Nat.lt_succ_self _
          cases hfence : matchFence (c :: s) with
          | none => exact other atStart c s (fun _ => hfence) hrest
          | some m =>
              cases atStart with
              | false => exact other false c s (fun h => nomatch h) hrest
              | true =>
                  rcases exists_of_matchFence hfence with
                    ⟨t, r, hsplit, hm, hall, hend⟩
                  rw [hsplit] at hfence hn ⊢
                  rw [hm] at hfence
                  apply fence t r hfence hall hend
                  apply ih r.length _ (lineStart false t) r rfl
                  rw [← hn]
                  simp only [List.length_append]
                  have hthree : "```".toList.length = 3 := rfl
                  omega

theorem splitFences_fence {t r : Text}
    (h : matchFence ("```".toList ++ (t ++ r)) = some (t.length + 3)) :
    splitFences matchFence true 0 ("```".toList ++ (t ++ r)) =
      [] :: splitFences matchFence (lineStart false t) 0 r := by
  rw [← splitFences_skip]
  exact splitFences_match h

theorem backtick_not_mem {t : Text}
    (h : forall c, c ∈ t -> isWordOrSpace c = true) : '`' ∉ t := by
  intro hmem
  have hword := h '`' hmem
  revert hword
  decide

theorem fencesFrom_fence {t r : Text}
    (h : matchFence ("```".toList ++ (t ++ r)) = some (t.length + 3))
    (hall : forall c, c ∈ t -> isWordOrSpace c = true) :
    fencesFrom true ("```".toList ++ (t ++ r)) =
      fencesFrom (lineStart false t) r + 1 := by
  rw [← fencesFrom_append (backtick_not_mem hall)]
  show fencesFrom true ('`' :: '`' :: '`' :: (t ++ r)) = _
  have hsome : matchFence ('`' :: '`' :: '`' :: (t ++ r)) =
      some (t.length + 3) := h
  rw [fencesFrom, fencesFrom, fencesFrom, hsome, Nat.add_comm]
  have htick : isLineEnd '`' = false := by decide
  simp [htick]

theorem length_splitFences (atStart : Bool) (s : Text) :
    (splitFences matchFence atStart 0 s).length = fencesFrom atStart s + 1 := by
  induction atStart, s using fence_induction with
  | nil atStart => rfl
  | other atStart c s hnone ih =>
      rcases exists_splitFences_other hnone with ⟨piece, rest, hrest, hsplit⟩
      rw [hrest] at ih
      rw [hsplit, List.length_cons, fencesFrom]
      rw [List.length_cons] at ih
      cases atStart with
      | false => simpa using ih
      | true =>
          rw [hnone rfl]
          simpa using ih
  | fence t r h hall hend ih =>
      rw [splitFences_fence h, fencesFrom_fence h hall, List.length_cons, ih]

/-! ## The pieces between fences -/

def Inner (pieces : List Text) (piece : Text) : Prop :=
  exists l r, pieces = l ++ piece :: r ∧ l ≠ [] ∧ r ≠ []

theorem inner_getD {pieces : List Text} (h : 2 < pieces.length) :
    Inner pieces (pieces.getD (pieces.length - 2) []) := by
  have hlt : pieces.length - 2 < pieces.length := by omega
  exists pieces.take (pieces.length - 2), pieces.drop (pieces.length - 2 + 1)
  constructor
  · rw [← List.getElem_eq_getD (h := hlt), ← List.drop_eq_getElem_cons hlt,
      List.take_append_drop]
  constructor
  · apply List.ne_nil_of_length_pos
    rw [List.length_take]
    omega
  · apply List.ne_nil_of_length_pos
    rw [List.length_drop]
    omega

theorem splitFences_atLineEnd {r : Text} (hr : AtLineEnd r)
    (atStart : Bool) :
    splitFences matchFence atStart 0 r = [[]] ∨
      exists c s piece rest, r = c :: s ∧ isLineEnd c = true ∧
        splitFences matchFence atStart 0 r = (c :: piece) :: rest := by
  cases r with
  | nil => exact Or.inl rfl
  | cons c s =>
      have hend := hr c rfl
      have hne : c ≠ '`' := by
        intro hc
        rw [hc] at hend
        revert hend
        decide
      have hnone : atStart = true -> matchFence (c :: s) = none :=
        fun _ => matchFence_of_ne hne s
      rcases exists_splitFences_other hnone with ⟨piece, rest, _, hsplit⟩
      exact Or.inr ⟨c, s, piece, rest, rfl, hend, hsplit⟩

theorem inner_lineEnd {atStart : Bool} {s piece : Text}
    (h : Inner (splitFences matchFence atStart 0 s) piece) :
    exists c rest, piece = c :: rest ∧ isLineEnd c = true ∧ c ∈ s := by
  induction atStart, s using fence_induction generalizing piece with
  | nil atStart =>
      rcases h with ⟨l, r, hsplit, hl, hr⟩
      cases l with
      | nil => exact absurd rfl hl
      | cons first l =>
          injection hsplit with _ hsplit
          exact absurd hsplit.symm (by simp)
  | other atStart c s hnone ih =>
      rcases exists_splitFences_other hnone with ⟨first, rest, hrest, hsplit⟩
      rcases h with ⟨l, r, heq, hl, hr⟩
      rw [hsplit] at heq
      cases l with
      | nil => exact absurd rfl hl
      | cons front l =>
          injection heq with _ heq
          have hinner : Inner (splitFences matchFence (isLineEnd c) 0 s)
              piece := by
            exists first :: l, r
            rw [hrest, heq]
            exact ⟨rfl, List.cons_ne_nil _ _, hr⟩
          rcases ih hinner with ⟨d, tail, hpiece, hend, hmem⟩
          exact ⟨d, tail, hpiece, hend, List.mem_cons_of_mem c hmem⟩
  | fence t r hmatch hall hend ih =>
      rw [splitFences_fence hmatch] at h
      rcases h with ⟨l, after, heq, hl, hafter⟩
      have hsub : forall c, c ∈ r -> c ∈ "```".toList ++ (t ++ r) := fun c hc =>
        List.mem_append_right _ (List.mem_append_right _ hc)
      cases l with
      | nil => exact absurd rfl hl
      | cons front l =>
          injection heq with _ heq
          cases l with
          | nil =>
              rcases splitFences_atLineEnd hend (lineStart false t) with
                hlast | ⟨c, s, first, rest, hr, hc, hfirst⟩
              · rw [hlast] at heq
                injection heq with _ heq
                exact absurd heq.symm hafter
              · rw [hfirst] at heq
                injection heq with hpiece _
                exists c, first
                constructor
                · exact hpiece.symm
                constructor
                · exact hc
                · apply hsub
                  rw [hr]
                  exact List.mem_cons_self
          | cons second l =>
              have hinner : Inner (splitFences matchFence
                  (lineStart false t) 0 r) piece := by
                exists second :: l, after
                rw [heq]
                exact ⟨rfl, List.cons_ne_nil _ _, hafter⟩
              rcases ih hinner with ⟨c, tail, hpiece, hc, hmem⟩
              exact ⟨c, tail, hpiece, hc, hsub c hmem⟩

theorem exists_splitFences_front {p : Text} (hp : '`' ∉ p) (atStart : Bool)
    (s : Text) :
    exists piece piece' rest,
      splitFences matchFence atStart 0 (p ++ s) = piece :: rest ∧
      splitFences matchFence (lineStart atStart p) 0 s = piece' :: rest := by
  induction p generalizing atStart with
  | nil =>
      rcases exists_splitFences matchFence atStart s 0 with ⟨piece, rest, h⟩
      exact ⟨piece, piece, rest, h, h⟩
  | cons c p ih =>
      rw [List.mem_cons, not_or] at hp
      rcases ih hp.right (isLineEnd c) with ⟨piece, piece', rest, hfront, hs⟩
      have hsplit : splitFences matchFence atStart 0 (c :: (p ++ s)) =
          consPiece c (splitFences matchFence (isLineEnd c) 0 (p ++ s)) :=
        splitFences_other fun _ => matchFence_of_ne (Ne.symm hp.left) _
      rw [lineStart_cons]
      exists c :: piece, piece', rest
      constructor
      · rw [List.cons_append, hsplit, hfront]
        rfl
      · exact hs

theorem length_of_matchFence {z : Char} (hz : isWordOrSpace z = false)
    (hne : z ≠ '`') {x : Text} {n : Nat}
    (h : matchFence (x ++ [z]) = some n) : n ≤ x.length := by
  rcases exists_of_matchFence h with ⟨t, r, hsplit, hn, hall, _⟩
  cases r with
  | nil =>
      have hmem : z ∈ "```".toList ++ (t ++ []) := by
        rw [← hsplit]
        exact List.mem_append_right _ List.mem_cons_self
      rw [List.append_nil] at hmem
      rcases List.mem_append.mp hmem with htick | ht
      · exact absurd (List.eq_of_mem_replicate (n := 3) htick) hne
      · rw [hall z ht] at hz
        cases hz
  | cons c r =>
      have hlength := congrArg List.length hsplit
      simp only [List.length_append, List.length_cons, List.length_nil]
        at hlength
      have hthree : "```".toList.length = 3 := rfl
      omega

theorem exists_splitFences_back {z : Char} (hz : isWordOrSpace z = false)
    (hne : z ≠ '`') {y : Text} (hy : '`' ∉ y) (x : Text) (atStart : Bool)
    {skip : Nat} (hskip : skip ≤ x.length) :
    exists pieces last last',
      splitFences matchFence atStart skip (x ++ z :: y) = pieces ++ [last] ∧
      splitFences matchFence atStart skip (x ++ [z]) = pieces ++ [last'] := by
  induction x generalizing atStart skip with
  | nil =>
      have hzero : skip = 0 := Nat.le_zero.mp hskip
      rcases exists_splitFences_front hy (isLineEnd z) [] with
        ⟨piece, piece', rest, hsplit, hnil⟩
      have hrest : rest = [] := by
        injection hnil with _ hrest
        exact hrest.symm
      rw [List.append_nil, hrest] at hsplit
      exists [], z :: piece, [z]
      rw [hzero]
      constructor
      · show splitFences matchFence atStart 0 (z :: y) = _
        rw [splitFences_other fun _ => matchFence_of_ne hne y, hsplit]
        rfl
      · show splitFences matchFence atStart 0 [z] = _
        rw [splitFences_other fun _ => matchFence_of_ne hne []]
        rfl
  | cons c x ih =>
      cases skip with
      | succ n => exact ih (isLineEnd c) (Nat.le_of_succ_le_succ hskip)
      | zero =>
          have hsame : matchFence (c :: (x ++ z :: y)) =
              matchFence (c :: (x ++ [z])) :=
            matchFence_append_stop hz hne (c :: x) y
          rw [List.cons_append, List.cons_append, splitFences, splitFences,
            hsame]
          cases hfence : (if atStart then matchFence (c :: (x ++ [z]))
              else none) with
          | none =>
              rcases ih (isLineEnd c) (Nat.zero_le _) with
                ⟨pieces, last, last', hlast, hlast'⟩
              dsimp only
              rw [hlast, hlast']
              cases pieces with
              | nil => exact ⟨[], c :: last, c :: last', rfl, rfl⟩
              | cons piece pieces =>
                  exact ⟨(c :: piece) :: pieces, last, last', rfl, rfl⟩
          | some n =>
              have hsome : matchFence (c :: (x ++ [z])) = some n := by
                cases atStart with
                | false => cases hfence
                | true => exact hfence
              have hlength : n ≤ (c :: x).length := by
                apply length_of_matchFence hz hne
                exact hsome
              have hle : n - 1 ≤ x.length := by
                rw [List.length_cons] at hlength
                omega
              rcases ih (isLineEnd c) hle with
                ⟨pieces, last, last', hlast, hlast'⟩
              dsimp only
              rw [hlast, hlast']
              exact ⟨[] :: pieces, last, last', rfl, rfl⟩

/-! ## The text of a value -/

def openingOf (isArray : Bool) : Char :=
  if isArray then '[' else '{'

def closingOf (isArray : Bool) : Char :=
  if isArray then ']' else '}'

/-- An array when one is asked for, else an object. -/
def Container (isArray : Bool) (v : Json) : Prop :=
  if isArray then exists items, v = .arr items
  else exists fields, v = .obj fields

theorem stringifyItems_closed (items : List Json) :
    exists front, Json.stringifyItems items = front ++ [']'] := by
  induction items with
  | nil => exact ⟨[], rfl⟩
  | cons item rest ih =>
      cases rest with
      | nil => exact ⟨item.stringify, rfl⟩
      | cons next rest =>
          rcases ih with ⟨front, hfront⟩
          exists item.stringify ++ ',' :: front
          rw [Json.stringifyItems, hfront, List.append_assoc]
          · rfl
          · exact List.cons_ne_nil _ _

theorem stringifyFields_closed (fields : List (Text × Json)) :
    exists front, Json.stringifyFields fields = front ++ ['}'] := by
  induction fields with
  | nil => exact ⟨[], rfl⟩
  | cons field rest ih =>
      rcases field with ⟨key, value⟩
      cases rest with
      | nil =>
          exists Json.quote key ++ ':' :: value.stringify
          rw [Json.stringifyFields, List.append_assoc]
          rfl
      | cons next rest =>
          rcases ih with ⟨front, hfront⟩
          exists Json.quote key ++ ':' :: (value.stringify ++ ',' :: front)
          rw [Json.stringifyFields, hfront]
          · simp
          · exact List.cons_ne_nil _ _

theorem exists_body {isArray : Bool} {v : Json} (h : Container isArray v) :
    exists body,
      v.stringify = openingOf isArray :: (body ++ [closingOf isArray]) := by
  cases isArray with
  | true =>
      rcases h with ⟨items, hv⟩
      rcases stringifyItems_closed items with ⟨front, hfront⟩
      exists front
      rw [hv, Json.stringify, hfront]
      rfl
  | false =>
      rcases h with ⟨fields, hv⟩
      rcases stringifyFields_closed fields with ⟨front, hfront⟩
      exists front
      rw [hv, Json.stringify, hfront]
      rfl

/-- What the parser of the language does with the text of an array or an
object: it is read, but not a part of it in front, nor with more behind it
than space; and no white space of the language ends a line in it. -/
structure ParsesText (parse : Text -> Except Thrown Json) (v : Json) :
    Prop where
  text : parse v.stringify = .ok v
  cut : forall front rest, front ++ rest = v.stringify -> rest ≠ [] ->
    exists e, parse front = .error e
  more : forall rest, (exists c, c ∈ rest ∧ isSpace c = false) ->
    exists e, parse (v.stringify ++ rest) = .error e
  lineEnd : forall c rest, isLineEnd c = true -> c ∈ v.stringify ->
    exists e, parse (c :: rest) = .error e

def KeepsValid (reader : JsonReader) : Prop :=
  forall text v, reader.parse text = .ok v -> reader.jsonrepair text = .ok text

/-- The text around a value has neither backticks nor the opening bracket. -/
structure Surrounding (isArray : Bool) (text : Text) : Prop where
  backtick : '`' ∉ text
  bracket : openingOf isArray ∉ text

/-- In the text of the value, at most one line starts with a code fence, and
the count of the brackets comes back to zero at its last character and not
before. -/
structure Extractable (isArray : Bool) (v : Json) : Prop where
  fences : fences v.stringify ≤ 1
  brackets : exists body, v.stringify = openingOf isArray :: body ∧
    Brackets.Closes (openingOf isArray) (closingOf isArray) 1 body

theorem enclosed_eq_closeIndex (opening closing : Char) (count : Nat)
    (s : Text) : enclosed opening closing count s =
      Brackets.closeIndex opening closing count s := by
  induction s generalizing count with
  | nil => rfl
  | cons c s ih => rw [enclosed, Brackets.closeIndex, ih, ih, ih]

theorem mem_trim {s : Text} {c : Char} (h : c ∈ s)
    (hc : isSpace c = false) : c ∈ trim s := by
  have hdrop : forall t : Text, c ∈ t -> c ∈ t.dropWhile isSpace := by
    intro t ht
    rw [← List.takeWhile_append_dropWhile (p := isSpace) (l := t)] at ht
    rcases List.mem_append.mp ht with htake | hdrop
    · rw [List.mem_takeWhile_imp htake] at hc
      cases hc
    · exact hdrop
  unfold trim
  apply List.mem_reverse.mpr
  apply hdrop
  apply List.mem_reverse.mpr
  exact hdrop s h

/-! ## What is read -/

theorem openingOf_ne (isArray : Bool) : openingOf isArray ≠ closingOf isArray := by
  cases isArray <;> decide

section Read

variable {reader : JsonReader} {isArray : Bool} {txt : Text}

theorem readJson_of_parse (hreader : KeepsValid reader) {str : Text} {v : Json}
    (h : reader.parse str = .ok v) :
    readJson reader txt isArray str = .ok (some v) := by
  unfold readJson
  have hread : (Except.ok str >>= reader.parse) = .ok v := h
  rw [hreader str v h, hread]

def strict (parse : Text -> Except Thrown Json) : JsonReader where
  jsonrepair := fun text => (parse text).map fun _ => text
  parse := parse

theorem keepsValid_strict (parse : Text -> Except Thrown Json) :
    KeepsValid (strict parse) := by
  intro text v h
  have hparse : parse text = .ok v := h
  unfold strict
  dsimp only
  rw [hparse]
  rfl

theorem readJson_strict {parse : Text -> Except Thrown Json} {str : Text}
    (h : exists e, parse str = .error e) (v : Value) :
    readJson (strict parse) txt isArray str ≠ .ok v := by
  rcases h with ⟨e, he⟩
  unfold readJson strict
  dsimp only
  rw [he]
  intro hok
  cases hok

theorem toLowerCase_trim_ne (h : openingOf isArray ∈ txt) :
    toLowerCase (trim txt) ≠ "null".toList := by
  intro hnull
  have hspace : isSpace (openingOf isArray) = false := by
    cases isArray <;> decide
  have hmem : (openingOf isArray).toLower ∈ toLowerCase (trim txt) :=
    List.mem_map_of_mem (mem_trim h hspace)
  rw [hnull] at hmem
  revert hmem
  cases isArray <;> decide

theorem toJSON_fenced (h : openingOf isArray ∈ txt)
    (hpieces : 2 < (splitFences matchFence true 0 txt).length) :
    toJSON reader txt isArray =
      readJson reader txt isArray ((splitFences matchFence true 0 txt).getD
        ((splitFences matchFence true 0 txt).length - 2) []) := by
  have hempty : txt.isEmpty = false := by
    cases txt with
    | nil => cases h
    | cons c rest => rfl
  unfold toJSON
  rw [hempty, if_neg Bool.false_ne_true, if_neg (toLowerCase_trim_ne h)]
  dsimp only
  rw [if_pos hpieces]

theorem toJSON_cut (reader : JsonReader) {pre rest : Text}
    (hpre : openingOf isArray ∉ pre)
    (htxt : txt = pre ++ openingOf isArray :: rest)
    (hpieces : ¬ 2 < (splitFences matchFence true 0 txt).length) :
    (enclosed (openingOf isArray) (closingOf isArray) 1 rest = none ∧
        forall v, toJSON reader txt isArray ≠ .ok v) ∨
      exists n,
        enclosed (openingOf isArray) (closingOf isArray) 1 rest = some n ∧
        toJSON reader txt isArray =
          readJson reader txt isArray (openingOf isArray :: rest.take n) := by
  have hmem : openingOf isArray ∈ txt := by
    rw [htxt]
    exact List.mem_append_right _ List.mem_cons_self
  have hempty : txt.isEmpty = false := by
    cases txt with
    | nil => cases hmem
    | cons c rest => rfl
  have hdrop : txt.dropWhile (fun c => c != openingOf isArray) =
      openingOf isArray :: rest := by
    rw [htxt, List.dropWhile_append_of_pos]
    · simp
    · intro c hc
      have hne : c ≠ openingOf isArray := fun heq => hpre (heq ▸ hc)
      simpa using hne
  unfold openingOf at hdrop
  unfold toJSON
  rw [hempty, if_neg Bool.false_ne_true, if_neg (toLowerCase_trim_ne hmem)]
  dsimp only
  rw [if_neg hpieces, hdrop]
  dsimp only
  unfold openingOf closingOf
  cases enclosed (if isArray then '[' else '{') (if isArray then ']' else '}') 1
      rest with
  | none =>
      apply Or.inl
      constructor
      · rfl
      · intro v hok
        cases hok
  | some n => exact Or.inr ⟨n, rfl, rfl⟩

end Read

/-! ## A value in its surroundings -/

section Extract

variable {isArray : Bool} {v : Json} {pre suf : Text}

theorem openingOf_ne_backtick (isArray : Bool) : openingOf isArray ≠ '`' := by
  cases isArray <;> decide

theorem closingOf_ne_backtick (isArray : Bool) : closingOf isArray ≠ '`' := by
  cases isArray <;> decide

theorem closingOf_stops (isArray : Bool) :
    isWordOrSpace (closingOf isArray) = false := by
  cases isArray <;> decide

theorem fences_surrounded (hv : Container isArray v) (hpre : '`' ∉ pre)
    (hsuf : '`' ∉ suf) :
    fences (pre ++ v.stringify ++ suf) = fences v.stringify := by
  rcases exists_body hv with ⟨body, hbody⟩
  have htail := fencesFrom_append_stop (closingOf_stops isArray)
    (closingOf_ne_backtick isArray) hsuf (isLineEnd (openingOf isArray)) body
  unfold fences
  rw [hbody, List.append_assoc, fencesFrom_append hpre, List.cons_append,
    fencesFrom_of_ne (openingOf_ne_backtick isArray),
    fencesFrom_of_ne (openingOf_ne_backtick isArray), List.append_assoc]
  exact htail

theorem inner_surrounded (hv : Container isArray v) (hpre : '`' ∉ pre)
    (hsuf : '`' ∉ suf) {piece : Text}
    (h : Inner (splitFences matchFence true 0 (pre ++ v.stringify ++ suf))
      piece) :
    Inner (splitFences matchFence (lineStart true pre) 0 v.stringify)
      piece := by
  rcases exists_body hv with ⟨body, hbody⟩
  rcases exists_splitFences_front hpre true (v.stringify ++ suf) with
    ⟨first, first', rest, hfirst, hrest⟩
  have htext : v.stringify =
      (openingOf isArray :: body) ++ [closingOf isArray] := hbody
  have hmore : v.stringify ++ suf =
      (openingOf isArray :: body) ++ closingOf isArray :: suf := by
    rw [htext, List.append_assoc]
    rfl
  rcases exists_splitFences_back (closingOf_stops isArray)
      (closingOf_ne_backtick isArray) hsuf (openingOf isArray :: body)
      (lineStart true pre) (Nat.zero_le _) with
    ⟨pieces, last, last', hlast, hlast'⟩
  rw [← hmore, hrest] at hlast
  rw [← htext] at hlast'
  rw [List.append_assoc, hfirst] at h
  rcases h with ⟨l, r, hsplit, hl, hr⟩
  cases l with
  | nil => exact absurd rfl hl
  | cons front l =>
      injection hsplit with _ hsplit
      rcases List.eq_nil_or_concat r with hnil | ⟨r', final, hconcat⟩
      · exact absurd hnil hr
      · have hpieces : pieces = (first' :: l) ++ piece :: r' := by
          rw [hsplit, hconcat] at hlast
          have hends : (first' :: l ++ piece :: r') ++ [final] =
              pieces ++ [last] := by
            rw [← hlast]
            simp
          exact (List.append_inj' hends rfl).left.symm
        exists first' :: l, r' ++ [last']
        constructor
        · rw [hlast', hpieces]
          simp
        constructor
        · exact List.cons_ne_nil _ _
        · simp

theorem toJSON_strict_fenced {parse : Text -> Except Thrown Json}
    (hv : Container isArray v) (hparse : ParsesText parse v)
    (hpre : '`' ∉ pre) (hsuf : '`' ∉ suf)
    (hfences : 1 < fences v.stringify) (ret : Value) :
    toJSON (strict parse) (pre ++ v.stringify ++ suf) isArray ≠ .ok ret := by
  have hlength := length_splitFences true (pre ++ v.stringify ++ suf)
  have hsame := fences_surrounded hv hpre hsuf
  unfold fences at hsame hfences
  rw [hsame] at hlength
  rcases exists_body hv with ⟨body, hbody⟩
  have hmem : openingOf isArray ∈ pre ++ v.stringify ++ suf := by
    rw [hbody]
    simp
  have htwo : 2 < (splitFences matchFence true 0
      (pre ++ v.stringify ++ suf)).length := by omega
  rw [toJSON_fenced hmem htwo]
  have hinner : Inner (splitFences matchFence true 0
      (pre ++ v.stringify ++ suf)) ((splitFences matchFence true 0
        (pre ++ v.stringify ++ suf)).getD ((splitFences matchFence true 0
          (pre ++ v.stringify ++ suf)).length - 2) []) := by
    generalize splitFences matchFence true 0 (pre ++ v.stringify ++ suf) =
      pieces at htwo
    exact inner_getD htwo
  rcases inner_lineEnd (inner_surrounded hv hpre hsuf hinner) with
    ⟨c, rest, hpiece, hend, hc⟩
  rw [hpiece]
  exact readJson_strict (hparse.lineEnd c rest hend hc) ret

theorem closingOf_not_space (isArray : Bool) :
    isSpace (closingOf isArray) = false := by
  cases isArray <;> decide

theorem closing_mem_of_closes {front body more : Text} {c : Char}
    (h : Brackets.Closes (openingOf isArray) (closingOf isArray) 1 front)
    (hfront : front = body ++ c :: more) :
    closingOf isArray ∈ c :: more := by
  have hne : front ≠ [] := by
    rw [hfront]
    exact List.append_ne_nil_of_right_ne_nil _ (List.cons_ne_nil _ _)
  have hlast := h.getLast hne
  have hmore : front.getLast hne =
      (c :: more).getLast (List.cons_ne_nil _ _) := by
    simp only [hfront, List.getLast_append_of_ne_nil _ (List.cons_ne_nil _ _)]
  rw [← hlast, hmore]
  exact List.getLast_mem _

theorem toJSON_surrounded (reader : JsonReader) {body : Text}
    (hbody : v.stringify = openingOf isArray :: body)
    (hpre : openingOf isArray ∉ pre)
    (hpieces : ¬ 2 < (splitFences matchFence true 0
      (pre ++ v.stringify ++ suf)).length) :
    (forall ret, toJSON reader (pre ++ v.stringify ++ suf) isArray ≠ .ok ret) ∨
      exists front rest, body ++ suf = front ++ rest ∧
        Brackets.Closes (openingOf isArray) (closingOf isArray) 1 front ∧
        toJSON reader (pre ++ v.stringify ++ suf) isArray =
          readJson reader (pre ++ v.stringify ++ suf) isArray
            (openingOf isArray :: front) := by
  have htxt : pre ++ v.stringify ++ suf =
      pre ++ openingOf isArray :: (body ++ suf) := by
    rw [hbody, List.append_assoc]
    rfl
  rcases toJSON_cut reader hpre htxt hpieces with
    ⟨_, hnone⟩ | ⟨n, hn, hread⟩
  · exact Or.inl hnone
  · rw [enclosed_eq_closeIndex] at hn
    rcases (Brackets.closeIndex_eq_some_iff (openingOf_ne isArray) Nat.one_pos
      n).mp hn with ⟨front, rest, hsplit, hlength, hcloses⟩
    have htake : (body ++ suf).take n = front := by
      rw [hsplit, ← hlength, List.take_left]
    rw [htake] at hread
    exact Or.inr ⟨front, rest, hsplit, hcloses, hread⟩

/-- For every package that repairs nothing in valid texts, a value is found
again in the text around it exactly when neither its fences nor its brackets
mislead. -/
theorem toJSON_iff {parse : Text -> Except Thrown Json}
    (hv : Container isArray v) (hparse : ParsesText parse v)
    (hpre : Surrounding isArray pre) (hsuf : Surrounding isArray suf) :
    (forall jsonrepair, KeepsValid ⟨jsonrepair, parse⟩ ->
        toJSON ⟨jsonrepair, parse⟩ (pre ++ v.stringify ++ suf) isArray =
          .ok (some v)) <->
      Extractable isArray v := by
  rcases exists_body hv with ⟨inner, hinner⟩
  have hbody : v.stringify =
      openingOf isArray :: (inner ++ [closingOf isArray]) := hinner
  generalize inner ++ [closingOf isArray] = body at hbody
  have hlength : (splitFences matchFence true 0
      (pre ++ v.stringify ++ suf)).length = fences v.stringify + 1 := by
    rw [← fences_surrounded hv hpre.backtick hsuf.backtick]
    exact length_splitFences true _
  constructor
  · intro h
    have hstrict : toJSON (strict parse) (pre ++ v.stringify ++ suf) isArray =
        .ok (some v) := h _ (keepsValid_strict parse)
    by_cases hfences : 1 < fences v.stringify
    · exact absurd hstrict (toJSON_strict_fenced hv hparse hpre.backtick
        hsuf.backtick hfences _)
    · have hpieces : ¬ 2 < (splitFences matchFence true 0
          (pre ++ v.stringify ++ suf)).length := by omega
      constructor
      · exact Nat.le_of_not_lt hfences
      · exists body
        constructor
        · exact hbody
        rcases toJSON_surrounded (strict parse) hbody hpre.bracket
          hpieces with hnone | ⟨front, rest, hsplit, hcloses, hread⟩
        · exact absurd hstrict (hnone _)
        · rw [hread] at hstrict
          rcases List.append_eq_append_iff.mp hsplit with
            ⟨more, hfront, hsuffix⟩ | ⟨cut, hwhole, _⟩
          · -- the brackets are closed in the text behind the value
            cases more with
            | nil =>
                rw [List.append_nil] at hfront
                rw [← hfront]
                exact hcloses
            | cons c more =>
                have hcloser := closing_mem_of_closes hcloses hfront
                have htext : v.stringify ++ c :: more =
                    openingOf isArray :: front := by
                  rw [hbody, hfront]
                  rfl
                have herror := hparse.more (c :: more)
                  ⟨closingOf isArray, hcloser, closingOf_not_space isArray⟩
                rw [htext] at herror
                exact absurd hstrict (readJson_strict herror _)
          · -- the brackets are closed inside the value
            cases cut with
            | nil =>
                rw [List.append_nil] at hwhole
                rw [hwhole]
                exact hcloses
            | cons c cut =>
                have htext : (openingOf isArray :: front) ++ c :: cut =
                    v.stringify := by
                  rw [hbody, hwhole]
                  rfl
                have herror := hparse.cut _ _ htext (List.cons_ne_nil _ _)
                exact absurd hstrict (readJson_strict herror _)
  · intro h jsonrepair hkeeps
    have hfences := h.fences
    have hpieces : ¬ 2 < (splitFences matchFence true 0
        (pre ++ v.stringify ++ suf)).length := by omega
    rcases h.brackets with ⟨body', hbody', hcloses⟩
    have htxt : pre ++ v.stringify ++ suf =
        pre ++ openingOf isArray :: (body' ++ suf) := by
      rw [hbody', List.append_assoc]
      rfl
    have hindex : enclosed (openingOf isArray) (closingOf isArray) 1
        (body' ++ suf) = some body'.length := by
      rw [enclosed_eq_closeIndex]
      exact (Brackets.closeIndex_eq_some_iff (openingOf_ne isArray) Nat.one_pos
        _).mpr ⟨body', suf, rfl, rfl, hcloses⟩
    rcases toJSON_cut ⟨jsonrepair, parse⟩ hpre.bracket htxt hpieces with
      ⟨hnone, _⟩ | ⟨n, hn, hread⟩
    · rw [hindex] at hnone
      cases hnone
    · rw [hindex] at hn
      cases hn
      rw [hread, List.take_left, ← hbody']
      exact readJson_of_parse hkeeps hparse.text

end Extract

/-! ## A summary, and a template that opens a brace -/

def parseOnly (v : Json) (text : Text) : Except Thrown Json :=
  if text = v.stringify then .ok v
  else .error (.plain "Unexpected token".toList)

theorem parsesText_only {v : Json} (hbreak : forall c rest,
      isLineEnd c = true -> v.stringify ≠ c :: rest) :
    ParsesText (parseOnly v) v := by
  have herror : forall text, text ≠ v.stringify ->
      exists e, parseOnly v text = .error e := by
    intro text hne
    exact ⟨_, if_neg hne⟩
  constructor
  · exact if_pos rfl
  · intro front rest hsplit hrest
    apply herror
    intro hfront
    rw [hfront] at hsplit
    exact hrest (List.append_right_eq_self.mp hsplit)
  · intro rest hspace
    apply herror
    intro hsplit
    rcases hspace with ⟨c, hc, _⟩
    rw [List.append_right_eq_self.mp hsplit] at hc
    cases hc
  · intro c rest hend _
    apply herror
    intro htext
    exact hbreak c rest hend htext.symm

def summaryJson : Json :=
  .obj [("summary".toList, .str "A shop".toList)]

/-- The summary is found in what a model says about it. -/
theorem toJSON_iff_summary :
    (forall jsonrepair, KeepsValid ⟨jsonrepair, parseOnly summaryJson⟩ ->
        toJSON ⟨jsonrepair, parseOnly summaryJson⟩
          ("Here it is: ".toList ++ summaryJson.stringify ++ "Done".toList)
            false = .ok (some summaryJson)) <->
      Extractable false summaryJson := by
  apply toJSON_iff
  · exact ⟨_, rfl⟩
  · apply parsesText_only
    intro c rest hend htext
    injection htext with hc _
    rw [← hc] at hend
    revert hend
    decide
  · constructor <;> decide
  · constructor <;> decide

def templateJson : Json :=
  .obj [("template".toList, .str "\x7b".toList)]

/-- Without anything around it, the value is not found. -/
theorem not_toJSON_template :
    ParsesText (parseOnly templateJson) templateJson ∧
      KeepsValid ⟨fun text => .ok text, parseOnly templateJson⟩ ∧
      toJSON ⟨fun text => .ok text, parseOnly templateJson⟩
        templateJson.stringify false =
        .error (.plain ("Cannot parse to JSON, brackets\x7b\x7d not " ++
          "enclosed: toJSON(\x7b\"template\":\"\x7b\"\x7d, false)").toList) := by
  constructor
  · apply parsesText_only
    intro c rest hend htext
    injection htext with hc _
    rw [← hc] at hend
    revert hend
    decide
  constructor
  · intro text v _
    rfl
  · rfl

end Agents
end CallgentApi
