import CallgentApi.Event.TaskId

/-!
# Ids over the years

An id begins with the minutes since the end of the year 2024, written to the
base 64.  Its length and its first letter change with the time.
-/

namespace CallgentApi
namespace Event

open Js

/-! ## The alphabet and the digits -/

def urlLetters : List Char :=
  "useandom-26T198340PX75pxJACKVERYMINDBUSHWOLF_GQZbfghjklqvwyzrict".toList

theorem length_urlLetters : 64 = urlLetters.length := by decide

/-- `urlAlphabet`, as the library has it. -/
def urlAlphabet : UrlAlphabet where
  letter := fun i => urlLetters.get (i.cast length_urlLetters)
  urlSafe := by
    have hall : (urlLetters.all fun c =>
        c.isAlphanum || (c == '-' || c == '_')) = true :=
      rfl
    intro i
    have hletter := List.all_eq_true.mp hall
      (urlLetters.get (i.cast length_urlLetters)) (List.get_mem urlLetters _)
    rw [Bool.or_eq_true, Bool.or_eq_true, beq_iff_eq, beq_iff_eq] at hletter
    exact hletter

/-- The loop of `Utils.intToBase64(num)`. -/
def base64Loop (alphabet : UrlAlphabet) (num : Nat) (result : Text) : Text :=
  if h : 0 < num then
    base64Loop alphabet (num >>> 6)
      (alphabet.letter (Fin.ofNat 64 (num &&& 63)) :: result)
  else result
termination_by num
decreasing_by
  rw [Nat.shiftRight_eq_div_pow]
  exact Nat.div_lt_self h (by decide)

theorem base64Loop_eq (alphabet : UrlAlphabet) (num : Nat) (result : Text) :
    base64Loop alphabet num result =
      ((Nat.digits 64 num).map fun d =>
        alphabet.letter (Fin.ofNat 64 d)).reverse ++ result := by
  induction num using Nat.strong_induction_on generalizing result with
  | h num ih =>
      unfold base64Loop
      by_cases hpos : 0 < num
      · have hand : num &&& 63 = num % 64 := Nat.and_two_pow_sub_one_eq_mod num 6
        have hshift : num >>> 6 = num / 64 := Nat.shiftRight_eq_div_pow num 6
        have hlt : num / 64 < num := Nat.div_lt_self hpos (by decide)
        rw [dif_pos hpos, hand, hshift, ih _ hlt,
          Nat.digits_def' (by decide) hpos, List.map_cons, List.reverse_cons,
          List.append_assoc]
        rfl
      · rw [dif_neg hpos, Nat.eq_zero_of_not_pos hpos, Nat.digits_zero]
        rfl

theorem intToBase64_eq_loop (alphabet : UrlAlphabet) {num : Int}
    (h : num ≠ 0) :
    intToBase64 alphabet num = base64Loop alphabet num.toNat [] := by
  unfold intToBase64
  rw [if_neg h, base64Loop_eq, List.append_nil]

/-! ## The time of an id -/

/-- `n | 0`, as a signed number of 32 bits. -/
def toInt32 (n : Int) : Int :=
  Int.bmod n (2 ^ 32)

theorem toInt32_lt (n : Int) : toInt32 n < 2 ^ 31 :=
  Int.bmod_lt (by decide)

/-- The id that `Utils.uuid()` gives, by the milliseconds of `Date.now()`. -/
def uuid (now : Nat) (nanoid : NanoId) : Uuid where
  alphabet := urlAlphabet
  minutes := toInt32 (now / 60000 : Nat)
  minutes_lt := toInt32_lt _
  nanoid := nanoid

theorem minutes_uuid (now : Nat) (nanoid : NanoId) :
    (uuid now nanoid).minutes = toInt32 (now / 60000 : Nat) := by
  unfold uuid
  dsimp only

/-- An instant of the 31 years from `2024-12-25 08:35` on, of which seven have
a leap day. -/
structure Instant where
  millis : Nat
  since : 1735115700000 ≤ millis
  within : millis ≤ 1735115700000 + (31 * 365 + 7) * 86400000

/-- The id has 25 letters, and does not start with `-`. -/
def Documented (id : Text) : Prop :=
  id.length = 25 ∧ id.head? ≠ some '-'

theorem toInt32_of_lt {n : Nat} (h : n < 2 ^ 31) : toInt32 n = n :=
  Int.bmod_eq_of_le (by omega) (by omega)

theorem digits_of_four {n : Nat} (hlow : 64 ^ 3 ≤ n) (hhigh : n < 64 ^ 4) :
    exists a b c, Nat.digits 64 n = [a, b, c, n / 64 ^ 3] := by
  have hb : 1 < 64 := by decide
  refine ⟨n % 64, n / 64 % 64, n / 64 / 64 % 64, ?_⟩
  rw [Nat.digits_def' hb (by omega), Nat.digits_def' hb (by omega),
    Nat.digits_def' hb (by omega), Nat.digits_of_lt 64 _ (by omega) (by omega)]
  congr 4
  omega

theorem letter_eq_dash : forall i : Fin 64,
    urlAlphabet.letter i = '-' <-> i = 8 := by
  decide +kernel

theorem intToBase64_of_four {n : Nat} (hlow : 64 ^ 3 ≤ n)
    (hhigh : n < 64 ^ 4) :
    (intToBase64 urlAlphabet n).length = 4 ∧
      ((intToBase64 urlAlphabet n).head? = some '-' <-> n / 64 ^ 3 = 8) := by
  rcases digits_of_four hlow hhigh with ⟨a, b, c, hdigits⟩
  have hne : (n : Int) ≠ 0 := by omega
  have htext : intToBase64 urlAlphabet n =
      [urlAlphabet.letter (Fin.ofNat 64 (n / 64 ^ 3)),
        urlAlphabet.letter (Fin.ofNat 64 c),
        urlAlphabet.letter (Fin.ofNat 64 b),
        urlAlphabet.letter (Fin.ofNat 64 a)] := by
    unfold intToBase64
    rw [if_neg hne, Int.toNat_natCast, hdigits]
    rfl
  rw [htext]
  constructor
  · rfl
  · rw [List.head?_cons, Option.some.injEq, letter_eq_dash]
    have hdigit : n / 64 ^ 3 < 64 := by omega
    rw [Fin.ext_iff, Fin.val_ofNat, Nat.mod_eq_of_lt hdigit]
    exact Iff.rfl

/-- In these years an id is as documented, except from `2028-06-21 16:03` until
`2028-12-20 17:07`, when it starts with `-`. -/
theorem documented_iff (now : Instant) (nanoid : NanoId) :
    Documented (uuid now.millis nanoid).text <->
      now.millis / 60000 < 30753603 ∨ 31015747 ≤ now.millis / 60000 := by
  have hsince := now.since
  have hwithin := now.within
  have hminutes : (uuid now.millis nanoid).minutes =
      (now.millis / 60000 : Nat) := by
    rw [minutes_uuid, toInt32_of_lt (by omega)]
  have hnum : (uuid now.millis nanoid).minutes - 28656451 =
      ((now.millis / 60000 - 28656451 : Nat) : Int) := by
    rw [hminutes]
    omega
  have hfour := @intToBase64_of_four (now.millis / 60000 - 28656451)
    (by omega) (by omega)
  rcases hfour with ⟨hlength, hhead⟩
  have htext : (uuid now.millis nanoid).text =
      intToBase64 urlAlphabet (now.millis / 60000 - 28656451 : Nat) ++
        nanoid.text := by
    unfold Uuid.text
    rw [hnum]
    rfl
  have hfront : intToBase64 urlAlphabet (now.millis / 60000 - 28656451 : Nat) ≠
      [] := by
    intro hnil
    rw [hnil] at hlength
    cases hlength
  unfold Documented
  rw [htext, List.length_append, hlength, nanoid.length_eq,
    List.head?_append_of_ne_nil _ hfront, Ne, hhead]
  omega

/-- An instant of the first minute in which an id starts with `-`. -/
def june2028 : Instant where
  millis := 30753603 * 60000
  since := by decide
  within := by decide

def drawn : NanoId where
  text := List.replicate 21 'u'
  length_eq := rfl
  urlSafe := by
    intro c hc
    rw [List.eq_of_mem_replicate hc]
    exact Or.inl rfl

theorem not_documented_june2028 :
    ¬Documented (uuid june2028.millis drawn).text := by
  have hnum : (uuid june2028.millis drawn).minutes - 28656451 =
      ((8 * 64 ^ 3 : Nat) : Int) := by
    decide
  have hfour := @intToBase64_of_four (8 * 64 ^ 3) (by decide) (by decide)
  have hdash := hfour.right.mpr (by decide)
  intro h
  apply h.right
  unfold Uuid.text
  rw [hnum, List.head?_append]
  exact congrArg (Option.or · _) hdash

end Event
end CallgentApi
