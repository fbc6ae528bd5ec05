import CallgentApi.Agents.Answer
import CallgentApi.Event.Engine
import CallgentApi.Lib.Fallible
import CallgentApi.Lib.Loose

/-!
# The states of stores

The state that a component imports is merged into the state of its store, in
place.  A value is an array or another object with its own properties, where an
array may come to have properties that are no elements.
-/

namespace CallgentApi
namespace Web

open Js Event Agents

inductive Node where
  | null
  | bool (b : Bool)
  | num (n : JsonNumber)
  | str (s : Text)
  | object (length : Option Nat) (fields : List (Text × Node))

namespace Node

mutual

def ofJson : Json -> Node
  | .null => null
  | .bool b => bool b
  | .num n => num n
  | .str s => str s
  | .arr items => object (some items.length) (ofItems 0 items)
  | .obj fields => object none (ofFields fields)

def ofItems (index : Nat) : List Json -> List (Text × Node)
  | [] => []
  | item :: rest => (decimal index, ofJson item) :: ofItems (index + 1) rest

def ofFields : List (Text × Json) -> List (Text × Node)
  | [] => []
  | (key, value) :: rest => (key, ofJson value) :: ofFields rest

end

/-- `!!v`. -/
def truthy : Node -> Bool
  | null => false
  | bool b => b
  | num n => n.text != ['0']
  | str s => !s.isEmpty
  | object _ _ => true

inductive Kind where
  | null
  | boolean
  | number
  | string
  | array
  | object
deriving DecidableEq

def kind : Node -> Kind
  | null => .null
  | bool _ => .boolean
  | num _ => .number
  | str _ => .string
  | object (some _) _ => .array
  | object none _ => .object

end Node

/-! ## Properties -/

structure Container where
  length : Option Nat
  fields : List (Text × Node)

/-- What a property is: missing, a value, the length of an array, a function of
the prototype, with or without parameters, or the prototype itself. -/
inductive Found where
  | missing
  | own (v : Node)
  | length
  | function (parameters : Bool)
  | prototype

def withoutParameters : List Text :=
  ["toString", "toLocaleString", "valueOf", "pop", "reverse", "shift", "keys",
    "entries", "values", "flat", "toReversed"].map String.toList

namespace Container

def node (c : Container) : Node := .object c.length c.fields

def functions (c : Container) : List Text :=
  if c.length.isSome then arrayPrototype ++ objectPrototype
  else objectPrototype

section

theorem lawfulBEq_text : LawfulBEq Text := inferInstance

attribute [local instance] lawfulBEq_text

/-- `c[key]`. -/
def get (c : Container) (key : Text) : Found :=
  match c.fields.lookup key with
  | some v => .own v
  | none =>
      if c.length.isSome ∧ key = "length".toList then .length
      else if key = "__proto__".toList then .prototype
      else if key ∈ c.functions then .function (key ∉ withoutParameters)
      else .missing

end

/-- `c[key] = v`; an array is as long as its last element says. -/
def set (c : Container) (key : Text) (v : Node) : Container where
  length :=
    match arrayIndex key with
    | some index => c.length.map fun n => max n (index + 1)
    | none => c.length
  fields := setEntry c.fields key v

end Container

/-! ## `_deepMerge` -/

/-- Why a merge stops: the declared type conflict, with the first elements that
its message shows, another error, or a write to what is no part of the two
states, which are the prototypes, their functions and the length of an array. -/
inductive MergeError where
  | conflict (src target : Node)
  | thrown (e : Thrown)
  | outside

/-- What is to be done where a value of the source meets what the target has. -/
inductive Meeting where
  | stop (e : MergeError)
  | keep
  | assign
  | replaceFirst (g : Container) (first : Node)
  | enterFirst (g element : Container)
  | enter (g : Container)

def zero : Text := ['0']

/-- `Object.entries(null)`. -/
def noEntries : MergeError :=
  .thrown (.typeError "Cannot convert undefined or null to object".toList)

/-- Reading a property of `null`. -/
def readNull : MergeError :=
  .thrown (.typeError "Cannot read properties of null".toList)

def cannotAssign (s : Text) : MergeError :=
  .thrown (.typeError
    ("Cannot assign to read only property '0' of string '".toList ++
      (s ++ ['\''])))

/-- `target[key][0]` is an object or `null`, and so is walked into. -/
def meetElement (g : Container) (element first : Node) : Meeting :=
  match first with
  | .null => .stop noEntries
  | .object _ fields =>
      match element with
      | .object length inner => .enterFirst g ⟨length, inner⟩
      | _ =>
          if fields.any fun entry => entry.2.truthy then .stop readNull
          else .keep
  | _ => .stop (.conflict first element)

/-- `target[key]?.length`, of an object. -/
def Container.hasLength (g : Container) : Bool :=
  match g.length with
  | some n => n != 0
  | none => (g.fields.lookup "length".toList).any Node.truthy

/-- The source has an array with this first element. -/
def meetArray (g first : Node) : Meeting :=
  match g with
  | .str s => .stop (cannotAssign s)
  | .object length fields =>
      if (Container.mk length fields).hasLength then
        match fields.lookup zero with
        | some (.object length' fields') =>
            meetElement ⟨length, fields⟩ (.object length' fields') first
        | some .null => meetElement ⟨length, fields⟩ .null first
        | _ => .replaceFirst ⟨length, fields⟩ first
      else .assign
  | _ => .assign

/-- A truthy value of the source meets one of the target. -/
def meetOwn (g val : Node) : Meeting :=
  if !g.truthy then .assign
  else
    match val with
    | .object (some _) [] => .keep
    | .object (some _) ((_, first) :: _) => meetArray g first
    | .object none _ =>
        match g with
        | .object length fields => .enter ⟨length, fields⟩
        | _ => .assign
    | _ => .assign

/-- The branches of the merge of one property. -/
def meeting (found : Found) (val : Node) : Meeting :=
  if !val.truthy then .keep
  else
    match found with
    | .missing => .assign
    | .own g => meetOwn g val
    | .length => .stop .outside
    | .prototype => .stop .outside
    | .function parameters =>
        match val with
        | .object (some _) [] => .keep
        | .object (some _) (_ :: _) =>
            if parameters then .stop .outside else .assign
        | _ => .assign

/-- The target with what is written under a key. -/
def Container.write (c : Container) (key : Text) (written : Option Node) :
    Container :=
  match written with
  | some v => c.set key v
  | none => c

mutual

/-- What is written under a key where a value of the source is merged. -/
def mergeFound (found : Found) : Node -> Except MergeError (Option Node)
  | .object length fields =>
      match meeting found (.object length fields) with
      | .stop e => .error e
      | .keep => .ok none
      | .assign => .ok (some (.object length fields))
      | .replaceFirst g first => .ok (some (g.set zero first).node)
      | .enterFirst g element =>
          match fields with
          | (_, .object _ inner) :: _ => do
              let merged ← deepMerge element inner
              return some (g.set zero merged.node).node
          | _ => .ok none
      | .enter g => do
          let merged ← deepMerge g fields
          return some merged.node
  | val =>
      match meeting found val with
      | .stop e => .error e
      | .assign => .ok (some val)
      | _ => .ok none

/-- `_deepMerge`, of the properties of the source. -/
def deepMerge (target : Container) :
    List (Text × Node) -> Except MergeError Container
  | [] => .ok target
  | (key, val) :: rest => do
      let written ← mergeFound (target.get key) val
      deepMerge (target.write key written) rest

end

end Web
end CallgentApi
