import Mathlib.Data.Nat.Digits.Lemmas
import CallgentApi.Lib.JsString
import CallgentApi.Lib.Separator

/-!
# Task ids

A client may name the task its request belongs to.  An id of the expected
length that begins with a number is taken as it is; any other is replaced by
the date and the id of the event.
-/

namespace CallgentApi
namespace Event

open Js

/-! ## Ids of events -/

def UrlSafe (c : Char) : Prop :=
  c.isAlphanum = true ∨ c = '-' ∨ c = '_'

/-- `urlAlphabet` of the library that draws ids. -/
structure UrlAlphabet where
  letter : Fin 64 -> Char
  urlSafe : forall i, UrlSafe (letter i)

/-- What `nanoid()` draws. -/
structure NanoId where
  text : Text
  length_eq : text.length = 21
  urlSafe : forall c, c ∈ text -> UrlSafe c

/-- `Utils.intToBase64(num)`: the digits to the base 64, of which a number
below zero has none. -/
def intToBase64 (alphabet : UrlAlphabet) (num : Int) : Text :=
  if num = 0 then ['0']
  else ((Nat.digits 64 num.toNat).map fun d =>
    alphabet.letter (Fin.ofNat 64 d)).reverse

/-- What `Utils.uuid()` starts from: the minutes since the epoch, as a signed
number of 32 bits, and the letters that are drawn. -/
structure Uuid where
  alphabet : UrlAlphabet
  minutes : Int
  minutes_lt : minutes < 2 ^ 31
  nanoid : NanoId

/-- `Utils.uuid()`. -/
def Uuid.text (id : Uuid) : Text :=
  intToBase64 id.alphabet (id.minutes - 28656451) ++ id.nanoid.text

/-! ## Dates -/

/-- The date that `new Date()` has in UTC; months count from zero. -/
structure UtcDate where
  year : Nat
  month : Fin 12
  day : Nat
  day_le : day ≤ 31

/-- `String(n).padStart(2, '0')`. -/
def twoDigits (n : Nat) : Text :=
  (decimal (Int.ofNat n)).leftpad 2 '0'

/-- `_getUTCDateString()`. -/
def getUTCDateString (now : UtcDate) : Text :=
  twoDigits (now.year % 100) ++ twoDigits (now.month.val + 1) ++
    twoDigits now.day

/-- `parseInt(s) + ''`.  A text with a radix prefix is no decimal text, so it
differs from what is printed in any radix. -/
def reprint (s : Text) : Text :=
  match parseInt s with
  | some n => decimal n
  | none => "NaN".toList

/-- Whether `_getTaskId` keeps the id of the client. -/
def keepsTaskId (taskId : Text) (id : Uuid) : Bool :=
  let first := (taskId.splitOn '-').headD []
  units taskId == units id.text + 7 && units first == 6 &&
    reprint first == first

/-- `_getTaskId(taskId)`, for the id of the event and the date. -/
def getTaskId (taskId : Option Text) (id : Uuid) (now : UtcDate) : Text :=
  match taskId with
  | some given =>
      if keepsTaskId given id then given
      else join '-' [getUTCDateString now, id.text]
  | none => join '-' [getUTCDateString now, id.text]

/-! ## What a task id consists of -/

/-- A task id that is a number of six digits and an id behind it. -/
structure Dated (taskId ts id : Text) : Prop where
  eq : taskId = ts ++ '-' :: id
  length : ts.length = 6
  digits : forall c, c ∈ ts -> c.isDigit = true
  ne_nil : id ≠ []

theorem units_append (s t : Text) : units (s ++ t) = units s + units t := by
  unfold units
  rw [List.map_append, List.sum_append]

theorem units_eq_length {s : Text}
    (h : forall c, c ∈ s -> c.toNat < 0x10000) : units s = s.length := by
  induction s with
  | nil => rfl
  | cons c rest ih =>
      have hrest := ih fun d hd => h d (List.mem_cons_of_mem c hd)
      unfold units at hrest ⊢
      rw [List.map_cons, List.sum_cons, if_pos (h c List.mem_cons_self), hrest,
        List.length_cons, Nat.add_comm]

theorem lt_of_urlSafe {c : Char} (h : UrlSafe c) : c.toNat < 0x10000 := by
  have hval : c.toNat = c.val.toNat := rfl
  rcases h with halnum | heq | heq
  · simp only [Char.isAlphanum, Char.isAlpha, Char.isUpper, Char.isLower,
      Char.isDigit, Bool.or_eq_true, Bool.and_eq_true, decide_eq_true_eq,
      ge_iff_le, UInt32.le_iff_toNat_le] at halnum
    have hle : c.val.toNat ≤ 122 := by
      rcases halnum with (⟨_, hle⟩ | ⟨_, hle⟩) | ⟨_, hle⟩
      · exact hle.trans (by decide)
      · exact hle
      · exact hle.trans (by decide)
    omega
  · rw [heq]
    decide
  · rw [heq]
    decide

theorem urlSafe_of_isDigit {c : Char} (h : c.isDigit = true) : UrlSafe c := by
  apply Or.inl
  unfold Char.isAlphanum
  rw [h, Bool.or_true]

theorem units_of_digits {s : Text} (h : forall c, c ∈ s -> c.isDigit = true) :
    units s = s.length :=
  units_eq_length fun c hc => lt_of_urlSafe (urlSafe_of_isDigit (h c hc))

namespace Uuid

theorem ne_nil (id : Uuid) : id.text ≠ [] := by
  intro hnil
  have hnanoid := (List.append_eq_nil_iff.mp hnil).right
  have hlength := id.nanoid.length_eq
  rw [hnanoid] at hlength
  cases hlength

end Uuid

theorem units_pos {s : Text} (h : s ≠ []) : 0 < units s := by
  cases s with
  | nil => exact absurd rfl h
  | cons c rest =>
      unfold units
      rw [List.map_cons, List.sum_cons]
      split
      · omega
      · omega

theorem digits_of_reprint {s : Text} (h : reprint s = s) (hunits : units s = 6)
    (hdash : '-' ∉ s) : forall c, c ∈ s -> c.isDigit = true := by
  unfold reprint at h
  split at h
  · rename_i n _
    intro c hc
    rw [← h] at hc
    rcases eq_minus_or_isDigit_of_mem_decimal hc with heq | hdigit
    · rw [heq, h] at hc
      exact absurd hc hdash
    · exact hdigit
  · rw [← h] at hunits
    cases hunits

theorem length_twoDigits {n : Nat} (h : n < 100) :
    (twoDigits n).length = 2 := by
  have hall : forall m, m < 100 -> (twoDigits m).length = 2 := by
    decide +kernel
  exact hall n h

theorem isDigit_of_mem_twoDigits {n : Nat} {c : Char} (h : c ∈ twoDigits n) :
    c.isDigit = true := by
  unfold twoDigits at h
  rcases List.mem_append.mp h with hpad | hdigit
  · rw [List.eq_of_mem_replicate hpad]
    rfl
  · rw [decimal_ofNat] at hdigit
    exact Nat.isDigit_of_mem_toDigits (by decide) (by decide) hdigit

theorem dated_generated (id : Uuid) (now : UtcDate) :
    Dated (join '-' [getUTCDateString now, id.text]) (getUTCDateString now)
      id.text := by
  constructor
  · rw [join_cons_cons]
    simp [join, List.intercalate]
  · have hyear : now.year % 100 < 100 := Nat.mod_lt _ (by decide)
    have hmonth : now.month.val + 1 < 100 := by
      have hlt := now.month.isLt
      omega
    have hday : now.day < 100 := by
      have hle := now.day_le
      omega
    unfold getUTCDateString
    rw [List.length_append, List.length_append, length_twoDigits hyear,
      length_twoDigits hmonth, length_twoDigits hday]
  · intro c hc
    unfold getUTCDateString at hc
    rcases List.mem_append.mp hc with hfront | hday
    · rcases List.mem_append.mp hfront with hyear | hmonth
      · exact isDigit_of_mem_twoDigits hyear
      · exact isDigit_of_mem_twoDigits hmonth
    · exact isDigit_of_mem_twoDigits hday
  · exact id.ne_nil

theorem dated_of_keeps {taskId : Text} {id : Uuid}
    (h : keepsTaskId taskId id = true) :
    exists ts rest, Dated taskId ts rest := by
  have hjoin : join '-' (taskId.splitOn '-') = taskId :=
    List.intercalate_splitOn '-'
  unfold keepsTaskId at h
  rcases Bool.and_eq_true_iff.mp h with ⟨hfront, hprint⟩
  rcases Bool.and_eq_true_iff.mp hfront with ⟨hlength, hsix⟩
  have hlength' := eq_of_beq hlength
  have hid := units_pos id.ne_nil
  cases hsplit : taskId.splitOn '-' with
  | nil => exact absurd hsplit (List.splitOn_ne_nil '-' taskId)
  | cons ts pieces =>
      rw [hsplit] at hjoin hprint hsix
      have hunits : units ts = 6 := eq_of_beq hsix
      have hreprint : reprint ts = ts := eq_of_beq hprint
      have hdash : '-' ∉ ts := by
        apply Separator.not_mem_of_mem_splitOn
        rw [hsplit]
        exact List.mem_cons_self
      have hdigits := digits_of_reprint hreprint hunits hdash
      cases pieces with
      | nil =>
          have hwhole : ts = taskId := by
            rw [← hjoin]
            simp [join, List.intercalate]
          rw [← hwhole, hunits] at hlength'
          omega
      | cons next others =>
          rw [join_cons_cons] at hjoin
          refine ⟨ts, join '-' (next :: others), hjoin.symm, ?_, hdigits, ?_⟩
          · rw [← units_of_digits hdigits, hunits]
          · intro hnil
            rw [hnil] at hjoin
            have hdash' : units ['-'] = 1 := by decide
            rw [← hjoin, units_append, hunits, hdash'] at hlength'
            omega

theorem dated_getTaskId (taskId : Option Text) (id : Uuid) (now : UtcDate) :
    exists ts rest, Dated (getTaskId taskId id now) ts rest := by
  cases taskId with
  | none => exact ⟨_, _, dated_generated id now⟩
  | some given =>
      unfold getTaskId
      dsimp only
      split
      · rename_i hkeeps
        exact dated_of_keeps hkeeps
      · exact ⟨_, _, dated_generated id now⟩

def someId : Uuid where
  alphabet := ⟨fun _ => '0', fun _ => Or.inl rfl⟩
  minutes := 28918595
  minutes_lt := by decide
  nanoid := ⟨List.replicate 21 'a', rfl, fun _ hc => by
    rw [List.eq_of_mem_replicate hc]
    exact Or.inl rfl⟩

def newYear : UtcDate := ⟨2025, 0, 1, by decide⟩

example : getTaskId none someId newYear =
    "250101-0000".toList ++ List.replicate 21 'a' := by
  decide +kernel

end Event
end CallgentApi
