import CallgentApi.Lib.Json

/-!
# Loose equality, and the order of properties

`==` converts what it compares, a `Set` does not; and an object lists the
properties whose names are indices before the others.
-/

namespace CallgentApi

open Js

/-! ## Numbers -/

def HasWords (s : Text) : Prop :=
  exists front c d back, s = front ++ c :: ' ' :: d :: back ∧
    isSpace c = false ∧ isSpace d = false

theorem HasWords.space_mem {s : Text} (h : HasWords s) : ' ' ∈ s := by
  rcases h with ⟨front, c, d, back, hs, _, _⟩
  rw [hs]
  exact List.mem_append_right _ (List.mem_cons_of_mem c List.mem_cons_self)

theorem JsonNumber.space_not_mem_text (n : JsonNumber) : ' ' ∉ n.text := by
  intro h
  exact absurd (n.text_printable ' ' h) (by decide)

/-- `Number(s)`, where `none` is `NaN`. -/
structure NumberReader where
  numberOf : Text -> Option JsonNumber
  numberOf_words : forall s, HasWords s -> numberOf s = none

namespace Json

/-! ## `==` -/

/-- An array or an object, which is the same as itself only. -/
def hasIdentity : Json -> Bool
  | arr _ => true
  | obj _ => true
  | _ => false

def toPrimitive (v : Json) : Json :=
  if v.hasIdentity then str v.display else v

def toNumber (numbers : NumberReader) : Json -> Option JsonNumber
  | bool b => some (JsonNumber.ofInt (if b then 1 else 0))
  | num n => some n
  | str s => numbers.numberOf s
  | _ => none

/-- `undefined` or `null`. -/
def isNullish : Option Json -> Bool
  | none => true
  | some null => true
  | some _ => false

def equalNumbers (a b : Option JsonNumber) : Bool :=
  match a, b with
  | some a, some b => a.text == b.text
  | _, _ => false

/-- `v == w`, where two objects are never the same. -/
def looseEq (numbers : NumberReader) (v w : Option Json) : Bool :=
  match v, w with
  | none, w => isNullish w
  | some null, w => isNullish w
  | _, none => false
  | _, some null => false
  | some v, some w =>
      if v.hasIdentity && w.hasIdentity then false
      else
        match v.toPrimitive, w.toPrimitive with
        | str s, str t => s == t
        | v, w => equalNumbers (v.toNumber numbers) (w.toNumber numbers)

theorem equalNumbers_comm (a b : Option JsonNumber) :
    equalNumbers a b = equalNumbers b a := by
  cases a with
  | none => cases b with
    | none => rfl
    | some b => rfl
  | some a => cases b with
    | none => rfl
    | some b => exact Bool.beq_comm

theorem looseEq_comm (numbers : NumberReader) (v w : Option Json) :
    looseEq numbers v w = looseEq numbers w v := by
  unfold looseEq
  cases v with
  | none => cases w with
    | none => rfl
    | some w => cases w <;> rfl
  | some v => cases w with
    | none => cases v <;> rfl
    | some w =>
        cases v <;> cases w <;>
          first
            | rfl
            | exact equalNumbers_comm _ _
            | exact Bool.beq_comm

theorem looseEq_words_iff (numbers : NumberReader) {s : Text}
    (h : HasWords s) (v : Json) :
    looseEq numbers (some (str s)) (some v) = true <->
      (v.hasIdentity = true ∨ exists t, v = str t) ∧ v.display = s := by
  have hs : (str s).toNumber numbers = none := numbers.numberOf_words s h
  have hnever : equalNumbers ((str s).toNumber numbers)
      (v.toNumber numbers) ≠ true := by
    rw [hs]
    exact Bool.false_ne_true
  have htext : forall t : Text, (s == t) = true <-> t = s := by
    intro t
    rw [beq_iff_eq]
    exact eq_comm
  cases v with
  | null =>
      constructor
      · intro hfalse
        cases hfalse
      · intro hvalue
        rcases hvalue with ⟨hfalse | ⟨t, ht⟩, _⟩
        · cases hfalse
        · cases ht
  | bool b =>
      constructor
      · intro hequal
        exact absurd hequal hnever
      · intro hvalue
        rcases hvalue with ⟨hfalse | ⟨t, ht⟩, _⟩
        · cases hfalse
        · cases ht
  | num n =>
      constructor
      · intro hequal
        exact absurd hequal hnever
      · intro hvalue
        rcases hvalue with ⟨hfalse | ⟨t, ht⟩, _⟩
        · cases hfalse
        · cases ht
  | str t =>
      constructor
      · intro hequal
        exact ⟨Or.inr ⟨t, rfl⟩, (htext t).mp hequal⟩
      · intro hvalue
        exact (htext t).mpr hvalue.right
  | arr items =>
      constructor
      · intro hequal
        exact ⟨Or.inl rfl, (htext _).mp hequal⟩
      · intro hvalue
        exact (htext _).mpr hvalue.right
  | obj fields =>
      constructor
      · intro hequal
        exact ⟨Or.inl rfl, (htext _).mp hequal⟩
      · intro hvalue
        exact (htext _).mpr hvalue.right

/-! ## Membership in a `Set` -/

/-- The values are one element of a set, where an object is only itself. -/
def sameValue : Option Json -> Option Json -> Bool
  | none, none => true
  | some null, some null => true
  | some (bool a), some (bool b) => a == b
  | some (num a), some (num b) => a.text == b.text
  | some (str s), some (str t) => s == t
  | _, _ => false

end Json

/-! ## The order of properties -/

section Order

variable {v : Type}

def arrayIndex (key : Text) : Option Nat :=
  (parseDigits key).filter fun n => decimal n == key && n < 4294967295

/-- `Object.entries` of an object to which the entries have been added. -/
def inOrder (entries : List (Text × v)) : List (Text × v) :=
  (entries.filter fun e => (arrayIndex e.1).isSome).mergeSort
      (fun a b => (arrayIndex a.1).getD 0 ≤ (arrayIndex b.1).getD 0) ++
    entries.filter fun e => (arrayIndex e.1).isNone

theorem inOrder_perm (entries : List (Text × v)) :
    (inOrder entries).Perm entries := by
  have hsplit := List.filter_append_perm
    (fun e : Text × v => (arrayIndex e.1).isSome) entries
  have hnone : (fun e : Text × v => !(arrayIndex e.1).isSome) =
      fun e => (arrayIndex e.1).isNone := by
    funext e
    exact Option.not_isSome _
  rw [hnone] at hsplit
  exact ((List.mergeSort_perm _ _).append_right _).trans hsplit

/-- `Object.values`. -/
def valuesOf (entries : List (Text × v)) : List v :=
  (inOrder entries).map Prod.snd

theorem valuesOf_perm (entries : List (Text × v)) :
    (valuesOf entries).Perm (entries.map Prod.snd) :=
  (inOrder_perm entries).map Prod.snd

theorem mem_valuesOf {entries : List (Text × v)} {value : v} :
    value ∈ valuesOf entries <-> exists key, (key, value) ∈ entries := by
  rw [(valuesOf_perm entries).mem_iff, List.mem_map]
  constructor
  · intro h
    rcases h with ⟨entry, hentry, heq⟩
    cases heq
    exact ⟨entry.1, hentry⟩
  · intro h
    rcases h with ⟨key, hentry⟩
    exact ⟨(key, value), hentry, rfl⟩

theorem valuesOf_names {entries : List (Text × v)}
    (h : entries.all (fun e => (arrayIndex e.1).isNone) = true) :
    valuesOf entries = entries.map Prod.snd := by
  have hnone := List.all_eq_true.mp h
  have hindices : entries.filter (fun e => (arrayIndex e.1).isSome) = [] := by
    rw [List.filter_eq_nil_iff]
    intro e he hsome
    rw [Option.isNone_iff_eq_none.mp (hnone e he)] at hsome
    cases hsome
  unfold valuesOf inOrder
  rw [hindices, List.mergeSort_nil, List.nil_append,
    List.filter_eq_self.mpr hnone]

end Order
end CallgentApi
