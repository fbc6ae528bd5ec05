import Mathlib

/-!
# JavaScript string operations

The string functions of the language that the model uses, on lists of
characters: positions are integers, `-1` stands for an absent character, and
`substring` clamps and swaps its bounds.
-/

namespace CallgentApi
namespace Js

abbrev Text := List Char

/-- `s.indexOf(c)` for a single character. -/
def indexOf (s : Text) (c : Char) : Int :=
  if c ∈ s then Int.ofNat (s.idxOf c) else -1

def clamp (s : Text) (i : Int) : Nat :=
  min i.toNat s.length

/-- `s.substring(start, stop)`. -/
def substring (s : Text) (start stop : Int) : Text :=
  let a := clamp s start
  let b := clamp s stop
  (s.drop (min a b)).take (max a b - min a b)

/-- `s.substring(start)`. -/
def substringFrom (s : Text) (start : Int) : Text :=
  substring s start (Int.ofNat s.length)

/-- `s.startsWith(head)`. -/
def startsWith (s head : Text) : Bool :=
  head.isPrefixOf s

def findText (needle : Text) : Text -> Option Nat
  | [] => if needle.isEmpty then some 0 else none
  | c :: rest =>
      if startsWith (c :: rest) needle then some 0
      else (findText needle rest).map Nat.succ

/-- `s.indexOf(needle, start)`. -/
def indexOfText (s needle : Text) (start : Int) : Int :=
  match findText needle (s.drop (clamp s start)) with
  | none => -1
  | some n => Int.ofNat (clamp s start + n)

/-- `s.lastIndexOf(c)` for a single character. -/
def lastIndexOf (s : Text) (c : Char) : Int :=
  if c ∈ s then Int.ofNat (s.length - 1 - s.reverse.idxOf c) else -1

/-- `s.endsWith(tail)`. -/
def endsWith (s tail : Text) : Bool :=
  tail.isSuffixOf s

/-- `s.substr(start)`; a negative start counts from the end. -/
def substr (s : Text) (start : Int) : Text :=
  if start < 0 then s.drop (s.length - start.natAbs) else s.drop start.toNat

/-- `s.toLowerCase()`, on the letters that methods and header names have. -/
def toLowerCase (s : Text) : Text :=
  s.map Char.toLower

/-- `s.toUpperCase()`, on the same letters. -/
def toUpperCase (s : Text) : Text :=
  s.map Char.toUpper

/-- `pieces.join(sep)` for a single character. -/
def join (sep : Char) (pieces : List Text) : Text :=
  [sep].intercalate pieces

def interpolate : Option Text -> Text
  | some s => s
  | none => "undefined".toList

def decimal (n : Int) : Text :=
  (toString n).toList

def parseDigits (s : Text) : Option Nat :=
  match s.takeWhile Char.isDigit with
  | [] => none
  | ds => some (Nat.ofDigitChars 10 ds 0)

/-- `parseInt(s, 10)`; `none` is `NaN`. -/
def parseInt (s : Text) : Option Int :=
  match s.dropWhile Char.isWhitespace with
  | '-' :: rest => (parseDigits rest).map fun n => -Int.ofNat n
  | '+' :: rest => (parseDigits rest).map Int.ofNat
  | rest => (parseDigits rest).map Int.ofNat

/-- The characters `encodeURIComponent` leaves as they are. -/
def isUnescaped (c : Char) : Bool :=
  c.isAlphanum || "-_.!~*'()".toList.contains c

def hexDigitUpper (n : Nat) : Char :=
  if n < 10 then Char.ofNat ('0'.toNat + n)
  else Char.ofNat ('A'.toNat + (n - 10))

def escapeByte (b : UInt8) : Text :=
  ['%', hexDigitUpper (b.toNat / 16), hexDigitUpper (b.toNat % 16)]

/-- `s.length`, which counts the code units. -/
def units (s : Text) : Nat :=
  (s.map fun c => if c.toNat < 0x10000 then 1 else 2).sum

/-- The characters that `trim` and `\s` take for space. -/
def isSpace (c : Char) : Bool :=
  let n := c.toNat
  (9 ≤ n ∧ n ≤ 13) ∨ n = 32 ∨ n = 160 ∨ n = 0x1680 ∨
    (0x2000 ≤ n ∧ n ≤ 0x200a) ∨ n = 0x2028 ∨ n = 0x2029 ∨ n = 0x202f ∨
    n = 0x205f ∨ n = 0x3000 ∨ n = 0xfeff

/-- `s.trim()`. -/
def trim (s : Text) : Text :=
  ((s.dropWhile isSpace).reverse.dropWhile isSpace).reverse

/-- The characters that end a line, which `.` does not match. -/
def isLineEnd (c : Char) : Bool :=
  let n := c.toNat
  n = 10 ∨ n = 13 ∨ n = 0x2028 ∨ n = 0x2029

/-- `encodeURIComponent(s)`, on the bytes of the text in UTF-8. -/
def encodeURIComponent (s : Text) : Text :=
  s.flatMap fun c =>
    if isUnescaped c then [c] else (String.utf8EncodeChar c).flatMap escapeByte

theorem join_cons_cons (sep : Char) (piece next : Text) (rest : List Text) :
    join sep (piece :: next :: rest) =
      piece ++ sep :: join sep (next :: rest) := by
  simp [join, List.intercalate]

theorem toLower_of_not_upper {c : Char}
    (h : ¬ (c.val ≥ 'A'.val ∧ c.val ≤ 'Z'.val)) : c.toLower = c := by
  unfold Char.toLower
  rw [dif_neg h]

theorem eq_space_of_toUpper {c : Char} (h : c.toUpper = ' ') : c = ' ' := by
  by_cases hlower : c.val ≥ 'a'.val ∧ c.val ≤ 'z'.val
  · have hval := congrArg Char.val h
    unfold Char.toUpper at hval
    rw [dif_pos hlower] at hval
    have hfirst := hlower.left
    have hlast := hlower.right
    have hnat := congrArg UInt32.toNat hval
    simp [UInt32.le_iff_toNat_le] at hnat hfirst hlast
    omega
  · unfold Char.toUpper at h
    rw [dif_neg hlower] at h
    exact h

theorem toLower_toLower (c : Char) : c.toLower.toLower = c.toLower := by
  by_cases h : c.val ≥ 'A'.val ∧ c.val ≤ 'Z'.val
  · apply toLower_of_not_upper
    rintro ⟨_, hupper⟩
    unfold Char.toLower at hupper
    rw [dif_pos h] at hupper
    have hfirst := h.left
    have hlast := h.right
    simp [UInt32.le_iff_toNat_le] at hupper hfirst hlast
    omega
  · rw [toLower_of_not_upper h, toLower_of_not_upper h]

@[simp] theorem toLowerCase_toLowerCase (s : Text) :
    toLowerCase (toLowerCase s) = toLowerCase s := by
  unfold toLowerCase
  rw [List.map_map]
  apply List.map_congr_left
  intro c _
  exact toLower_toLower c

theorem indexOf_append_cons {head tail : Text} {c : Char} (h : c ∉ head) :
    indexOf (head ++ c :: tail) c = Int.ofNat head.length := by
  have hmem : c ∈ head ++ c :: tail := by simp
  rw [indexOf, if_pos hmem, List.idxOf_append_of_notMem h]
  simp

theorem findText_append_cons {head : Text} {c : Char} (h : c ∉ head)
    (tail : Text) : findText [c] (head ++ c :: tail) = some head.length := by
  induction head with
  | nil => simp [findText, startsWith, List.isPrefixOf]
  | cons d rest ih =>
      rw [List.mem_cons, not_or] at h
      have hne : (c == d) = false := beq_false_of_ne h.left
      simp [findText, startsWith, List.isPrefixOf, hne, ih h.right]

theorem findText_append_of_not_mem {front : Text} {c : Char} (h : c ∉ front)
    (needle text : Text) :
    findText (c :: needle) (front ++ text) =
      (findText (c :: needle) text).map fun n => front.length + n := by
  induction front with
  | nil =>
      rw [List.nil_append]
      cases hfound : findText (c :: needle) text with
      | none => rfl
      | some n => simp
  | cons d rest ih =>
      rw [List.mem_cons, not_or] at h
      have hhead : startsWith (d :: (rest ++ text)) (c :: needle) = false := by
        simp [startsWith, List.isPrefixOf, beq_false_of_ne h.left]
      rw [List.cons_append, findText, hhead, ih h.right]
      cases findText (c :: needle) text with
      | none => rfl
      | some n => simp [Nat.add_right_comm]

theorem findText_eq_none {needle url : Text} {c : Char} (hneedle : c ∈ needle)
    (hurl : c ∉ url) : findText needle url = none := by
  induction url with
  | nil =>
      cases needle with
      | nil => cases hneedle
      | cons d rest => rfl
  | cons d rest ih =>
      have hnot : startsWith (d :: rest) needle = false := by
        rw [Bool.eq_false_iff]
        intro hstarts
        exact hurl ((List.isPrefixOf_iff_prefix.mp hstarts).subset hneedle)
      have hrest := ih fun hmem => hurl (List.mem_cons_of_mem d hmem)
      rw [findText, if_neg (by simp [hnot]), hrest]
      rfl

theorem findText_append_self (needle text : Text) :
    findText needle (needle ++ text) = some 0 := by
  have hstart : startsWith (needle ++ text) needle = true :=
    List.isPrefixOf_iff_prefix.mpr (List.prefix_append _ _)
  cases htext : needle ++ text with
  | nil =>
      rw [(List.append_eq_nil_iff.mp htext).left]
      rfl
  | cons c rest =>
      rw [htext] at hstart
      rw [findText, if_pos hstart]

theorem indexOfText_append_cons {head : Text} {c : Char} (h : c ∉ head)
    (front tail : Text) :
    indexOfText (front ++ (head ++ c :: tail)) [c] (Int.ofNat front.length) =
      Int.ofNat (front.length + head.length) := by
  have hclamp : clamp (front ++ (head ++ c :: tail))
      (Int.ofNat front.length) = front.length := by
    simp [clamp]
  unfold indexOfText
  rw [hclamp, List.drop_left, findText_append_cons h]

theorem substr_append (front rest : Text) :
    substr (front ++ rest) (Int.ofNat front.length) = rest := by
  have hpos : ¬ Int.ofNat front.length < 0 :=
    Int.not_lt.mpr (Int.natCast_nonneg _)
  unfold substr
  rw [if_neg hpos]
  exact List.drop_left

theorem substring_zero_append (head tail : Text) :
    substring (head ++ tail) 0 (Int.ofNat head.length) = head := by
  simp [substring, clamp]

theorem substring_append (front middle rest : Text) :
    substring (front ++ (middle ++ rest)) (Int.ofNat front.length)
      (Int.ofNat (front.length + middle.length)) = middle := by
  have hstart : clamp (front ++ (middle ++ rest)) (Int.ofNat front.length) =
      front.length := by
    simp [clamp]
  have hstop : clamp (front ++ (middle ++ rest))
      (Int.ofNat (front.length + middle.length)) =
        front.length + middle.length := by
    simp only [clamp, Int.ofNat_eq_natCast, Int.toNat_natCast,
      List.length_append]
    omega
  unfold substring
  rw [hstart, hstop]
  dsimp only
  rw [Nat.min_eq_left (Nat.le_add_right _ _),
    Nat.max_eq_right (Nat.le_add_right _ _), Nat.add_sub_cancel_left,
    List.drop_left, List.take_left]

theorem substringFrom_append_cons (head tail : Text) (c : Char) :
    substringFrom (head ++ c :: tail) (Int.ofNat head.length + 1) = tail := by
  have hstart : clamp (head ++ c :: tail) (Int.ofNat head.length + 1) =
      (head ++ [c]).length := by
    simp [clamp]
  have hstop : clamp (head ++ c :: tail)
      (Int.ofNat (head ++ c :: tail).length) =
        (head ++ [c]).length + tail.length := by
    simp [clamp]
    omega
  have hsplit : head ++ c :: tail = (head ++ [c]) ++ tail := by simp
  unfold substringFrom substring
  rw [hstart, hstop]
  simp only [Nat.le_add_right, Nat.min_eq_left, Nat.max_eq_right,
    Nat.add_sub_cancel_left]
  rw [hsplit, List.drop_left, List.take_length]

/-- What stands before the first occurrence of a character does not hold it;
without an occurrence the position is `-1` and nothing is taken. -/
theorem not_mem_substring_zero_indexOf (s : Text) (c : Char) :
    c ∉ substring s 0 (indexOf s c) := by
  by_cases hmem : c ∈ s
  · have hidx : indexOf s c = Int.ofNat (s.idxOf c) := by
      rw [indexOf, if_pos hmem]
    have htake : substring s 0 (indexOf s c) = s.take (s.idxOf c) := by
      have hlt := List.idxOf_lt_length_of_mem hmem
      simp [hidx, substring, clamp, Nat.min_eq_left (Nat.le_of_lt hlt)]
    rw [htake, List.mem_take_iff_idxOf_lt hmem]
    exact Nat.lt_irrefl _
  · have hidx : indexOf s c = -1 := by rw [indexOf, if_neg hmem]
    simp [hidx, substring, clamp]

theorem hexDigitUpper_isAlphanum :
    forall n, n < 16 -> (hexDigitUpper n).isAlphanum = true := by
  decide

theorem mem_encodeURIComponent {s : Text} {c : Char}
    (h : c ∈ encodeURIComponent s) : isUnescaped c = true ∨ c = '%' := by
  rcases List.mem_flatMap.mp h with ⟨d, _, hc⟩
  by_cases hd : isUnescaped d = true
  · rw [if_pos hd] at hc
    rw [List.mem_singleton.mp hc]
    exact Or.inl hd
  · rw [if_neg hd] at hc
    rcases List.mem_flatMap.mp hc with ⟨b, _, hb⟩
    have hbyte : b.toNat < 256 := b.toNat_lt
    simp only [escapeByte, List.mem_cons, List.not_mem_nil, or_false] at hb
    rcases hb with rfl | rfl | rfl
    · exact Or.inr rfl
    · refine Or.inl ?_
      unfold isUnescaped
      rw [hexDigitUpper_isAlphanum _ (by omega)]
      rfl
    · refine Or.inl ?_
      unfold isUnescaped
      rw [hexDigitUpper_isAlphanum _ (Nat.mod_lt _ (by decide))]
      rfl

theorem decimal_negSucc (n : Nat) :
    decimal (Int.negSucc n) = '-' :: Nat.toDigits 10 (n + 1) := by
  have h : toString (Int.negSucc n) = "-" ++ toString (n + 1) := rfl
  rw [decimal, h, String.toList_append, Nat.toString_eq_ofList_toDigits,
    String.toList_ofList]
  simp

theorem decimal_ofNat (n : Nat) :
    decimal (Int.ofNat n) = Nat.toDigits 10 n := by
  have h : toString (Int.ofNat n) = toString n := rfl
  rw [decimal, h, Nat.toString_eq_ofList_toDigits, String.toList_ofList]

theorem decimal_ne_nil (n : Int) : decimal n ≠ [] := by
  cases n with
  | ofNat n =>
      rw [decimal_ofNat]
      exact Nat.toDigits_ne_nil
  | negSucc n =>
      rw [decimal_negSucc]
      exact List.cons_ne_nil _ _

theorem eq_minus_or_isDigit_of_mem_decimal {n : Int} {c : Char}
    (h : c ∈ decimal n) : c = '-' ∨ c.isDigit = true := by
  cases n with
  | ofNat n =>
      rw [decimal_ofNat] at h
      exact Or.inr (Nat.isDigit_of_mem_toDigits (by decide) (by decide) h)
  | negSucc n =>
      rw [decimal_negSucc] at h
      cases h with
      | head => exact Or.inl rfl
      | tail _ h =>
          exact Or.inr (Nat.isDigit_of_mem_toDigits (by decide) (by decide) h)

theorem mem_digits_of_isDigit {c : Char} (h : c.isDigit = true) :
    c ∈ "0123456789".toList := by
  have hrange : 48 ≤ c.val.toNat ∧ c.val.toNat ≤ 57 := by
    simpa [Char.isDigit, UInt32.le_iff_toNat_le] using h
  have hdigits : forall n, n < 58 -> 48 ≤ n ->
      Char.ofNat n ∈ "0123456789".toList := by
    decide
  have hc : c = Char.ofNat c.val.toNat := by
    rw [← Char.toNat, Char.ofNat_toNat]
  rw [hc]
  exact hdigits _ (Nat.lt_succ_of_le hrange.right) hrange.left

theorem parseDigits_toDigits (n : Nat) :
    parseDigits (Nat.toDigits 10 n) = some n := by
  have hall : forall c, c ∈ Nat.toDigits 10 n -> c.isDigit = true :=
    fun c hc => Nat.isDigit_of_mem_toDigits (by decide) (by decide) hc
  have htake : (Nat.toDigits 10 n).takeWhile Char.isDigit =
      Nat.toDigits 10 n := List.takeWhile_eq_self_iff.mpr hall
  unfold parseDigits
  rw [htake]
  cases hdigits : Nat.toDigits 10 n with
  | nil => exact absurd hdigits Nat.toDigits_ne_nil
  | cons d ds =>
      simp only
      rw [← hdigits, Nat.ofDigitChars_ten_toDigits]

theorem parseInt_decimal_negSucc (n : Nat) :
    parseInt (decimal (Int.negSucc n)) = some (Int.negSucc n) := by
  rw [decimal_negSucc]
  have hdrop : ('-' :: Nat.toDigits 10 (n + 1)).dropWhile Char.isWhitespace =
      '-' :: Nat.toDigits 10 (n + 1) := by
    simp [Char.isWhitespace]
  unfold parseInt
  rw [hdrop]
  simp only [parseDigits_toDigits, Option.map_some]
  rfl

theorem not_mem_decimal_negSucc {c : Char} (hdigit : c.isDigit = false)
    (hminus : c ≠ '-') (n : Nat) : c ∉ decimal (Int.negSucc n) := by
  rw [decimal_negSucc]
  intro h
  rcases List.mem_cons.mp h with heq | hmem
  · exact hminus heq
  · have hc : c.isDigit = true :=
      Nat.isDigit_of_mem_toDigits (by decide) (by decide) hmem
    rw [hdigit] at hc
    cases hc

end Js
end CallgentApi
