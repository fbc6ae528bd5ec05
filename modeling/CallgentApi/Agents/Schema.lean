import CallgentApi.Agents.Answer

/-!
# Properties of a schema

A name is looked up along the schema, and what has been looked up is gone for
the alternatives that are tried after.
-/

namespace CallgentApi
namespace Agents

open Js Event

/-! ## Properties of a value -/

/-- What stands under a name: a value, a function being none, or a prototype
of the language with so many others behind it. -/
inductive Target where
  | value (v : Value)
  | prototype (height : Nat)

/-- `v[name]`; the characters of a text are texts, which have no part in what
follows. -/
def propertyAt (v : Json) (name : Text) : Target :=
  let behind (height : Nat) : Target :=
    if name = "__proto__".toList then .prototype height else .value none
  match v with
  | .obj fields =>
      match fields.lookup name with
      | some value => .value (some value)
      | none => behind 0
  | .arr items =>
      match (indexed items).lookup name with
      | some value => .value (some value)
      | none => behind 1
  | _ => behind 1

def truthyField (fields : List (Text × Json)) (key : String) : Value :=
  (fields.lookup key.toList).filter Json.truthy

theorem sizeOf_lookup {fields : List (Text × Json)} {key : Text} {v : Json}
    (h : fields.lookup key = some v) : sizeOf v < sizeOf fields := by
  induction fields with
  | nil => cases h
  | cons field rest ih =>
      rcases field with ⟨k, w⟩
      rw [List.lookup_cons] at h
      have hcons : sizeOf ((k, w) :: rest) =
          1 + (1 + sizeOf k + sizeOf w) + sizeOf rest := rfl
      split at h
      · cases h
        omega
      · have hrest := ih h
        omega

theorem sizeOf_truthyField {fields : List (Text × Json)} {key : String}
    {v : Json} (h : truthyField fields key = some v) :
    sizeOf v < sizeOf fields :=
  sizeOf_lookup (Option.filter_eq_some_iff.mp h).left

theorem sizeOf_lookup_indexed {items : List Json} {name : Text} {v : Json}
    (h : (indexed items).lookup name = some v) : sizeOf v < sizeOf items := by
  rcases List.lookup_eq_some_iff.mp h with ⟨front, back, hsplit, _⟩
  have hmem : (name, v) ∈ indexed items := by
    rw [hsplit]
    exact List.mem_append_right _ List.mem_cons_self
  rcases List.mem_map.mp hmem with ⟨item, hitem, heq⟩
  cases heq
  exact List.sizeOf_lt_of_mem (List.fst_mem_of_mem_zipIdx hitem)

theorem sizeOf_propertyAt {v w : Json} {name : Text}
    (h : propertyAt v name = .value (some w)) : sizeOf w < sizeOf v := by
  have hbehind : forall height : Nat, (if name = "__proto__".toList then
      Target.prototype height else .value none) ≠ .value (some w) := by
    intro height hvalue
    split at hvalue
    · cases hvalue
    · cases hvalue
  unfold propertyAt at h
  dsimp only at h
  split at h
  · rename_i fields
    split at h
    · rename_i value hlookup
      cases h
      have hlt := sizeOf_lookup hlookup
      have hobj := Json.obj.sizeOf_spec fields
      omega
    · exact absurd h (hbehind 0)
  · rename_i items
    split at h
    · rename_i value hlookup
      cases h
      have hlt := sizeOf_lookup_indexed hlookup
      have harr := Json.arr.sizeOf_spec items
      omega
    · exact absurd h (hbehind 1)
  · exact absurd h (hbehind 1)

/-- A prototype has no property that is an object but the one behind it. -/
def hasPrototype : Nat -> List Text -> Bool × List Text
  | _, [] => (true, [])
  | 0, _ :: rest => (false, rest)
  | height + 1, name :: rest =>
      if name = "__proto__".toList then hasPrototype height rest
      else (false, rest)

/-! ## Schemas -/

/-- `typeof v === 'object'`, without `null`. -/
def isObject : Json -> Bool
  | .arr _ => true
  | .obj _ => true
  | _ => false

inductive Shape where
  /-- `anyOf` or `oneOf` -/
  | any (alternatives : List Json)
  | all (members : List Json)
  | items (schema : Value)
  /-- where a name is looked up: in the properties, or in the schema itself -/
  | names (properties : Bool) (v : Json)
  | nothing
  | refused (error : Thrown)

/-- The `switch` on the type. -/
def typed (fields : List (Text × Json)) : Shape :=
  match fields.lookup "type".toList with
  | some (.str type) =>
      if type = "array".toList then .items (fields.lookup "items".toList)
      else if type = "object".toList then
        match truthyField fields "properties" with
        | some properties => .names true properties
        | none => .nothing
      else .names false (.obj fields)
  | _ => .names false (.obj fields)

/-- The keywords, in the order in which they are looked for. -/
def shapeOf : Json -> Shape
  | .obj fields =>
      match truthyField fields "anyOf", truthyField fields "oneOf",
          truthyField fields "allOf" with
      | some (.arr alternatives), _, _ => .any alternatives
      | some _, _, _ => .refused (refuses "schema.anyOf.some is not a function")
      | none, some (.arr alternatives), _ => .any alternatives
      | none, some _, _ =>
          .refused (refuses "schema.oneOf.some is not a function")
      | none, none, some (.arr members) => .all members
      | none, none, some _ =>
          .refused (refuses "schema.allOf.every is not a function")
      | none, none, none => typed fields
  | v => .names false v

theorem sizeOf_list_of_truthyField {fields : List (Text × Json)}
    {key : String} {l : List Json}
    (h : truthyField fields key = some (.arr l)) :
    sizeOf l < sizeOf (Json.obj fields) := by
  have hlt := sizeOf_truthyField h
  have harr := Json.arr.sizeOf_spec l
  have hobj := Json.obj.sizeOf_spec fields
  omega

/-- The parts of a schema are smaller than `n`. -/
def Shape.Below (n : Nat) : Shape -> Prop
  | .any l => sizeOf l < n
  | .all l => sizeOf l < n
  | .items (some schema) => sizeOf schema < n
  | .names _ v => sizeOf v ≤ n
  | _ => True

theorem typed_below (fields : List (Text × Json)) :
    (typed fields).Below (sizeOf (Json.obj fields)) := by
  have hobj := Json.obj.sizeOf_spec fields
  unfold typed
  split
  · split
    · cases hitems : fields.lookup "items".toList with
      | none => exact True.intro
      | some items =>
          have hlt := sizeOf_lookup hitems
          show sizeOf items < _
          omega
    · split
      · split
        · rename_i properties hproperties
          have hlt := sizeOf_truthyField hproperties
          show sizeOf properties ≤ _
          omega
        · exact True.intro
      · exact Nat.le_refl _
  · exact Nat.le_refl _

theorem shapeOf_below (v : Json) : (shapeOf v).Below (sizeOf v) := by
  cases v with
  | obj fields =>
      unfold shapeOf
      dsimp only
      split
      · rename_i h
        exact sizeOf_list_of_truthyField h
      · exact True.intro
      · rename_i h
        exact sizeOf_list_of_truthyField h
      · exact True.intro
      · rename_i h
        exact sizeOf_list_of_truthyField h
      · exact True.intro
      · exact typed_below fields
  | null => exact Nat.le_refl _
  | bool b => exact Nat.le_refl _
  | num n => exact Nat.le_refl _
  | str s => exact Nat.le_refl _
  | arr items => exact Nat.le_refl _

theorem below_of_shapeOf {v : Json} {shape : Shape} (h : shapeOf v = shape) :
    shape.Below (sizeOf v) := by
  rw [← h]
  exact shapeOf_below v

mutual

/-- `_hasOpenAPIProperty`, with the names that are left of `props`. -/
def hasOpenAPIProperty (schema : Json) (props : List Text) :
    Except Thrown (Bool × List Text) :=
  if !isObject schema then .ok (false, props)
  else
    match props with
    | [] => .ok (true, [])
    | name :: rest =>
        match _h : shapeOf schema with
        | .any alternatives => someHas alternatives (name :: rest)
        | .all members => everyHas members (name :: rest)
        | .items (some items) => hasOpenAPIProperty items (name :: rest)
        | .items none => .ok (false, name :: rest)
        | .names _ v =>
            match _hname : propertyAt v name with
            | .value (some property) => hasOpenAPIProperty property rest
            | .value none => .ok (false, rest)
            | .prototype height => .ok (hasPrototype height rest)
        | .nothing => .ok (false, name :: rest)
        | .refused e => .error e
termination_by sizeOf schema
decreasing_by
  · exact below_of_shapeOf _h
  · exact below_of_shapeOf _h
  · exact below_of_shapeOf _h
  · exact Nat.lt_of_lt_of_le (sizeOf_propertyAt _hname) (below_of_shapeOf _h)

/-- `schemas.some(…)`, which stops at the first that has the property. -/
def someHas (schemas : List Json) (props : List Text) :
    Except Thrown (Bool × List Text) :=
  match schemas with
  | [] => .ok (false, props)
  | schema :: rest =>
      match hasOpenAPIProperty schema props with
      | .error e => .error e
      | .ok (true, left) => .ok (true, left)
      | .ok (false, left) => someHas rest left
termination_by sizeOf schemas

/-- `schemas.every(…)`, which stops at the first that has it not. -/
def everyHas (schemas : List Json) (props : List Text) :
    Except Thrown (Bool × List Text) :=
  match schemas with
  | [] => .ok (true, props)
  | schema :: rest =>
      match hasOpenAPIProperty schema props with
      | .error e => .error e
      | .ok (false, left) => .ok (false, left)
      | .ok (true, left) => everyHas rest left
termination_by sizeOf schemas

end

/-! ## What is returned, shape by shape -/

section Equations

variable {schema : Json} {name : Text} {rest props : List Text}

theorem has_of_not_object (h : isObject schema = false) :
    hasOpenAPIProperty schema props = .ok (false, props) := by
  unfold hasOpenAPIProperty
  rw [h]
  rfl

theorem has_nil (h : isObject schema = true) :
    hasOpenAPIProperty schema [] = .ok (true, []) := by
  unfold hasOpenAPIProperty
  rw [h]
  rfl

/-- The property of a name that has been looked up. -/
def hasTarget (target : Target) (rest : List Text) :
    Except Thrown (Bool × List Text) :=
  match target with
  | .value (some property) => hasOpenAPIProperty property rest
  | .value none => .ok (false, rest)
  | .prototype height => .ok (hasPrototype height rest)

theorem has_cons (h : isObject schema = true) :
    hasOpenAPIProperty schema (name :: rest) =
      match shapeOf schema with
      | .any alternatives => someHas alternatives (name :: rest)
      | .all members => everyHas members (name :: rest)
      | .items (some items) => hasOpenAPIProperty items (name :: rest)
      | .items none => .ok (false, name :: rest)
      | .names _ v => hasTarget (propertyAt v name) rest
      | .nothing => .ok (false, name :: rest)
      | .refused e => .error e := by
  conv_lhs => unfold hasOpenAPIProperty
  rw [h, Bool.not_true, if_neg Bool.false_ne_true]
  dsimp only
  split
  · rename_i hshape
    rw [hshape]
  · rename_i hshape
    rw [hshape]
  · rename_i hshape
    rw [hshape]
  · rename_i hshape
    rw [hshape]
  · rename_i hshape
    rw [hshape]
    dsimp only
    split
    · rename_i htarget
      rw [htarget]
      rfl
    · rename_i htarget
      rw [htarget]
      rfl
    · rename_i htarget
      rw [htarget]
      rfl
  · rename_i hshape
    rw [hshape]
  · rename_i hshape
    rw [hshape]

end Equations

end Agents
end CallgentApi
