import CallgentApi.Lib.JsString

/-!
# JSON values and their texts

The values a JSON text can denote and the text `JSON.stringify` writes for
them.  A number is kept as the text the language prints for it.
-/

namespace CallgentApi

open Js

structure JsonNumber where
  text : Text
  text_ne_nil : text ≠ [] := by decide
  text_printable : forall c, c ∈ text -> c ∈ "0123456789+-.e".toList := by decide

/-- An integer is printed by its decimal digits. -/
def JsonNumber.ofInt (n : Int) : JsonNumber where
  text := decimal n
  text_ne_nil := decimal_ne_nil n
  text_printable := by
    intro c hc
    rcases eq_minus_or_isDigit_of_mem_decimal hc with rfl | hdigit
    · decide
    · have hmem := mem_digits_of_isDigit hdigit
      exact List.mem_append_left "+-.e".toList hmem

/-! ## Objects as lists of entries -/

section Entries

variable {v : Type}

/-- The entries of an object after `entries[key] = value`. -/
def setEntry (entries : List (Text × v)) (key : Text) (value : v) :
    List (Text × v) :=
  match entries with
  | [] => [(key, value)]
  | (k, old) :: rest =>
      if k = key then (k, value) :: rest
      else (k, old) :: setEntry rest key value

theorem setEntry_cases (entries : List (Text × v)) (key : Text) (value : v) :
    (exists before old after, entries = before ++ (key, old) :: after ∧
        key ∉ before.map Prod.fst ∧
        setEntry entries key value = before ++ (key, value) :: after) ∨
      (key ∉ entries.map Prod.fst ∧
        setEntry entries key value = entries ++ [(key, value)]) := by
  induction entries with
  | nil => exact Or.inr ⟨List.not_mem_nil, rfl⟩
  | cons entry rest ih =>
      rcases entry with ⟨k, old⟩
      by_cases hkey : k = key
      · refine Or.inl ⟨[], old, rest, by rw [hkey]; rfl, List.not_mem_nil, ?_⟩
        unfold setEntry
        rw [if_pos hkey, hkey]
        rfl
      · have hset : setEntry ((k, old) :: rest) key value =
            (k, old) :: setEntry rest key value := by
          rw [setEntry, if_neg hkey]
        rw [hset]
        rcases ih with ⟨before, old', after, hrest, hnot, hafter⟩ | ⟨hnot, hafter⟩
        · refine Or.inl ⟨(k, old) :: before, old', after, by rw [hrest]; rfl,
            ?_, by rw [hafter]; rfl⟩
          rw [List.map_cons, List.mem_cons]
          rintro (heq | hmem)
          · exact hkey heq.symm
          · exact hnot hmem
        · refine Or.inr ⟨?_, by rw [hafter]; rfl⟩
          rw [List.map_cons, List.mem_cons]
          rintro (heq | hmem)
          · exact hkey heq.symm
          · exact hnot hmem

@[simp] theorem lookup_setEntry_self (entries : List (Text × v)) (key : Text)
    (value : v) : (setEntry entries key value).lookup key = some value := by
  induction entries with
  | nil => simp [setEntry]
  | cons entry rest ih =>
      rcases entry with ⟨k, old⟩
      unfold setEntry
      by_cases hkey : k = key
      · simp [hkey]
      · have hbeq : (key == k) = false := beq_false_of_ne (Ne.symm hkey)
        rw [if_neg hkey, List.lookup_cons, hbeq]
        exact ih

theorem lookup_setEntry_of_ne {key other : Text} (h : other ≠ key)
    (entries : List (Text × v)) (value : v) :
    (setEntry entries key value).lookup other = entries.lookup other := by
  have hother : (other == key) = false := beq_false_of_ne h
  induction entries with
  | nil => rw [setEntry, List.lookup_cons, hother]
  | cons entry rest ih =>
      rcases entry with ⟨k, old⟩
      unfold setEntry
      by_cases hkey : k = key
      · rw [if_pos hkey, hkey, List.lookup_cons, List.lookup_cons, hother]
      · rw [if_neg hkey, List.lookup_cons, List.lookup_cons, ih]

def protoName : Text :=
  "__proto__".toList

/-- The entries of an object after `entries[key] = value`, where `key` may be
any text: `__proto__` sets the prototype, unless the object has an entry of
that name. -/
def assignEntry (entries : List (Text × v)) (key : Text) (value : v) :
    List (Text × v) :=
  if key = protoName ∧ (entries.lookup key).isNone = true then entries
  else setEntry entries key value

theorem assignEntry_of_ne {key : Text} (h : key ≠ protoName)
    (entries : List (Text × v)) (value : v) :
    assignEntry entries key value = setEntry entries key value :=
  if_neg fun hproto => h hproto.left

theorem assignEntry_protoName {entries : List (Text × v)}
    (h : entries.lookup protoName = none) (value : v) :
    assignEntry entries protoName value = entries :=
  if_pos ⟨rfl, by rw [h]; rfl⟩

theorem lookup_assignEntry_of_ne {key other : Text} (h : other ≠ key)
    (entries : List (Text × v)) (value : v) :
    (assignEntry entries key value).lookup other = entries.lookup other := by
  unfold assignEntry
  split
  · rfl
  · exact lookup_setEntry_of_ne h entries value

theorem lookup_protoName_assignEntry {entries : List (Text × v)}
    (h : entries.lookup protoName = none) (key : Text) (value : v) :
    (assignEntry entries key value).lookup protoName = none := by
  by_cases hkey : key = protoName
  · rw [hkey, assignEntry_protoName h]
    exact h
  · rw [lookup_assignEntry_of_ne (Ne.symm hkey)]
    exact h

theorem setEntry_of_lookup {entries : List (Text × v)} {key : Text} {value : v}
    (h : entries.lookup key = some value) :
    setEntry entries key value = entries := by
  induction entries with
  | nil => cases h
  | cons entry rest ih =>
      rcases entry with ⟨k, old⟩
      rw [List.lookup_cons] at h
      unfold setEntry
      by_cases hkey : k = key
      · rw [hkey, beq_self_eq_true] at h
        rw [if_pos hkey, Option.some.inj h]
      · rw [beq_false_of_ne (Ne.symm hkey)] at h
        rw [if_neg hkey, ih h]

theorem keys_setEntry (entries : List (Text × v)) (key : Text) (value : v) :
    (setEntry entries key value).map Prod.fst =
      if key ∈ entries.map Prod.fst then entries.map Prod.fst
      else entries.map Prod.fst ++ [key] := by
  rcases setEntry_cases entries key value with
    ⟨before, old, after, rfl, _, hset⟩ | ⟨hnot, hset⟩
  · have hmem : key ∈ (before ++ (key, old) :: after).map Prod.fst :=
      List.mem_map_of_mem (List.mem_append_right _ List.mem_cons_self)
    rw [if_pos hmem, hset, List.map_append, List.map_append]
    rfl
  · rw [if_neg hnot, hset, List.map_append]
    rfl

theorem lookup_iff_mem {entries : List (Text × v)}
    (h : (entries.map Prod.fst).Nodup) {key : Text} {value : v} :
    entries.lookup key = some value <-> (key, value) ∈ entries := by
  induction entries with
  | nil =>
      constructor
      · intro hnil
        cases hnil
      · intro hnil
        cases hnil
  | cons entry rest ih =>
      rcases entry with ⟨k, old⟩
      rw [List.map_cons, List.nodup_cons] at h
      rw [List.lookup_cons, List.mem_cons]
      by_cases hkey : key = k
      · rw [hkey, beq_self_eq_true]
        constructor
        · intro hsome
          cases hsome
          exact Or.inl rfl
        · intro hmem
          rcases hmem with heq | hmem
          · cases heq
            rfl
          · exact absurd (List.mem_map_of_mem hmem) h.left
      · rw [beq_false_of_ne hkey]
        dsimp only
        rw [ih h.right]
        constructor
        · exact Or.inr
        · intro hmem
          rcases hmem with heq | hmem
          · cases heq
            exact absurd rfl hkey
          · exact hmem

theorem nodup_keys_setEntry {entries : List (Text × v)}
    (h : (entries.map Prod.fst).Nodup) (key : Text) (value : v) :
    ((setEntry entries key value).map Prod.fst).Nodup := by
  rw [keys_setEntry]
  split
  · exact h
  · rename_i hnot
    rw [List.nodup_append]
    refine ⟨h, List.pairwise_singleton _ key, ?_⟩
    intro k hk other hother heq
    rw [List.mem_singleton.mp hother] at heq
    exact hnot (heq ▸ hk)

end Entries

inductive Json where
  | null
  | bool (b : Bool)
  | num (n : JsonNumber)
  | str (s : Text)
  | arr (items : List Json)
  | obj (fields : List (Text × Json))

namespace Json

def hexDigit (n : Nat) : Char :=
  if n < 10 then Char.ofNat ('0'.toNat + n) else Char.ofNat ('a'.toNat + (n - 10))

def escapeChar (c : Char) : Text :=
  if c = '"' then ['\\', '"']
  else if c = '\\' then ['\\', '\\']
  else if c.toNat = 8 then ['\\', 'b']
  else if c.toNat = 12 then ['\\', 'f']
  else if c = '\n' then ['\\', 'n']
  else if c = '\r' then ['\\', 'r']
  else if c = '\t' then ['\\', 't']
  else if c.toNat < 32 then
    ['\\', 'u', '0', '0', hexDigit (c.toNat / 16), hexDigit (c.toNat % 16)]
  else [c]

def quote (s : Text) : Text :=
  '"' :: (s.flatMap escapeChar ++ ['"'])

mutual

/-- `JSON.stringify(v)`. -/
def stringify : Json -> Text
  | null => "null".toList
  | bool b => if b then "true".toList else "false".toList
  | num n => n.text
  | str s => quote s
  | arr items => '[' :: stringifyItems items
  | obj fields => '{' :: stringifyFields fields

/-- The items of an array and the closing bracket. -/
def stringifyItems : List Json -> Text
  | [] => [']']
  | [item] => stringify item ++ [']']
  | item :: rest => stringify item ++ ',' :: stringifyItems rest

/-- The properties of an object and the closing brace. -/
def stringifyFields : List (Text × Json) -> Text
  | [] => ['}']
  | [(key, value)] => quote key ++ ':' :: (stringify value ++ ['}'])
  | (key, value) :: rest =>
      quote key ++ ':' :: (stringify value ++ ',' :: stringifyFields rest)

end

mutual

/-- `String(v)`, as a template string writes it, for objects that have no
`toString` of their own. -/
def display : Json -> Text
  | null => "null".toList
  | bool b => if b then "true".toList else "false".toList
  | num n => n.text
  | str s => s
  | arr items => displayItems items
  | obj _ => "[object Object]".toList

/-- `items.join()`, which writes nothing for `null`. -/
def displayItems : List Json -> Text
  | [] => []
  | [null] => []
  | [item] => display item
  | null :: rest => ',' :: displayItems rest
  | item :: rest => display item ++ ',' :: displayItems rest

end

/-- `!!v`. -/
def truthy : Json -> Bool
  | null => false
  | bool b => b
  | num n => n.text != ['0']
  | str s => !s.isEmpty
  | arr _ => true
  | obj _ => true

/-- `v[key]`; only objects have properties here. -/
def field (v : Json) (key : Text) : Option Json :=
  match v with
  | obj fields => fields.lookup key
  | _ => none

/-- The properties of an object after `v[key] = value`. -/
def setField (fields : List (Text × Json)) (key : Text) (value : Json) :
    List (Text × Json) :=
  match fields with
  | [] => [(key, value)]
  | (k, old) :: rest =>
      if k = key then (k, value) :: rest
      else (k, old) :: setField rest key value

theorem setField_eq_setEntry (fields : List (Text × Json)) (key : Text)
    (value : Json) : setField fields key value = setEntry fields key value := by
  induction fields with
  | nil => rfl
  | cons entry rest ih =>
      rw [setField, setEntry, ih]

@[simp] theorem lookup_setField_self (fields : List (Text × Json)) (key : Text)
    (value : Json) : (setField fields key value).lookup key = some value := by
  rw [setField_eq_setEntry, lookup_setEntry_self]

theorem lookup_setField_of_ne {key other : Text} (h : other ≠ key)
    (fields : List (Text × Json)) (value : Json) :
    (setField fields key value).lookup other = fields.lookup other := by
  rw [setField_eq_setEntry, lookup_setEntry_of_ne h]

theorem stringify_ne_nil (v : Json) : stringify v ≠ [] := by
  cases v with
  | null => simp [stringify]
  | bool b => cases b <;> simp [stringify]
  | num n => simpa [stringify] using n.text_ne_nil
  | str s => simp [stringify, quote]
  | arr items => simp [stringify]
  | obj fields => simp [stringify]

theorem escapeChar_ne_nil (c : Char) : escapeChar c ≠ [] := by
  unfold escapeChar
  split_ifs
  all_goals exact List.cons_ne_nil _ _

theorem length_lt_length_quote (s : Text) : s.length < (quote s).length := by
  have hbody : s.length ≤ (s.flatMap escapeChar).length := by
    induction s with
    | nil => exact Nat.le_refl 0
    | cons c rest ih =>
        have hc := List.length_pos_iff.mpr (escapeChar_ne_nil c)
        rw [List.flatMap_cons, List.length_append, List.length_cons]
        omega
  simp only [quote, List.length_cons, List.length_append]
  omega

theorem arr_str_stringify_ne (v : Json) : arr [str v.stringify] ≠ v := by
  intro h
  have htext := congrArg (fun w => w.stringify.length) h
  have hquote := length_lt_length_quote v.stringify
  simp only [stringify, stringifyItems, List.length_cons,
    List.length_append] at htext
  omega

theorem hexDigit_ne_lineFeed : forall n, n < 16 -> hexDigit n ≠ '\n' := by
  decide

theorem lineFeed_not_mem_escapeChar (c : Char) : '\n' ∉ escapeChar c := by
  unfold escapeChar
  split_ifs with _ _ _ _ hlf _ _ hlt
  all_goals try decide
  · have hhigh : hexDigit (c.toNat / 16) ≠ '\n' :=
      hexDigit_ne_lineFeed _ (by omega)
    have hlow : hexDigit (c.toNat % 16) ≠ '\n' :=
      hexDigit_ne_lineFeed _ (by omega)
    simp [hhigh.symm, hlow.symm]
  · simpa using fun h => hlf h.symm

theorem lineFeed_not_mem_quote (s : Text) : '\n' ∉ quote s := by
  have hbody : '\n' ∉ s.flatMap escapeChar := by
    intro h
    rcases List.mem_flatMap.mp h with ⟨c, _, hc⟩
    exact lineFeed_not_mem_escapeChar c hc
  simp [quote, hbody]

mutual

theorem lineFeed_not_mem_stringify : forall v : Json, '\n' ∉ stringify v
  | null => by simp [stringify]
  | bool b => by cases b <;> simp [stringify]
  | num n => by
      intro h
      have hmem := n.text_printable '\n' (by simpa [stringify] using h)
      exact absurd hmem (by decide)
  | str s => by simpa [stringify] using lineFeed_not_mem_quote s
  | arr items => by
      have h := lineFeed_not_mem_stringifyItems items
      simp [stringify, h]
  | obj fields => by
      have h := lineFeed_not_mem_stringifyFields fields
      simp [stringify, h]

theorem lineFeed_not_mem_stringifyItems :
    forall items : List Json, '\n' ∉ stringifyItems items
  | [] => by simp [stringifyItems]
  | [item] => by
      have h := lineFeed_not_mem_stringify item
      simp [stringifyItems, h]
  | item :: next :: rest => by
      have h := lineFeed_not_mem_stringify item
      have hrest := lineFeed_not_mem_stringifyItems (next :: rest)
      simp [stringifyItems, h, hrest]

theorem lineFeed_not_mem_stringifyFields :
    forall fields : List (Text × Json), '\n' ∉ stringifyFields fields
  | [] => by simp [stringifyFields]
  | [(key, value)] => by
      have hkey := lineFeed_not_mem_quote key
      have h := lineFeed_not_mem_stringify value
      simp [stringifyFields, hkey, h]
  | (key, value) :: next :: rest => by
      have hkey := lineFeed_not_mem_quote key
      have h := lineFeed_not_mem_stringify value
      have hrest := lineFeed_not_mem_stringifyFields (next :: rest)
      simp [stringifyFields, hkey, h, hrest]

end

end Json
end CallgentApi
