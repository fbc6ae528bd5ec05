import CallgentApi.Agents.Schema

/-!
# The parameters in a mail

An endpoint that is called by mail shows each of its parameters with a value
from the arguments of the call.  A script sends the parameters of a call as one
of its arguments.
-/

namespace CallgentApi
namespace Emails

open Js Event Agents

structure ParameterObject where
  name : Text
  others : List (Text × Json)

structure RequestBody where
  required : Value
  description : Value

/-- `params` of an endpoint. -/
structure EndpointParams where
  parameters : Option (List ParameterObject)
  requestBody : Option RequestBody

structure MailParam where
  name : Text
  others : List (Text × Json)
  value : Target

/-- A field of an item that is set where it is truthy. -/
def given (key : String) (value : Value) : List (Text × Json) :=
  ((value.filter Json.truthy).map fun v => (key.toList, v)).toList

def ParameterObject.shown (p : ParameterObject) (value : Target) : MailParam :=
  ⟨p.name, p.others.filter fun field => field.1 != "value".toList, value⟩

def RequestBody.shown (body : RequestBody) (value : Target) : MailParam :=
  ⟨"requestBody".toList,
    given "required" body.required ++ given "description" body.description,
    value⟩

/-- `_params30x`. -/
def params30x (params : EndpointParams) (args : Json) : List MailParam :=
  (params.parameters.getD []).map (fun p =>
    p.shown (propertyAt args p.name)) ++
  (params.requestBody.map fun body =>
    body.shown (propertyAt args "requestBody".toList)).toList

/-! ## The arguments that scripts send -/

/-- `args` of `invokeService`. -/
structure CommandArgs where
  parameters : Option (List (Text × Json))
  requestBody : Value

namespace CommandArgs

def toJson (args : CommandArgs) : Json :=
  .obj ((args.parameters.map fun values =>
      ("parameters".toList, Json.obj values)).toList ++
    (args.requestBody.map fun body => ("requestBody".toList, body)).toList)

def value (args : CommandArgs) (name : Text) : Value :=
  (args.parameters.getD []).lookup name

end CommandArgs

/-- Every declared parameter is shown with its value, the request body with the
given one, and what is given is declared. -/
structure ShowsAll (params : EndpointParams) (args : CommandArgs) : Prop where
  shown : params30x params args.toJson =
    (params.parameters.getD []).map (fun p =>
      p.shown (.value (args.value p.name))) ++
    (params.requestBody.map fun body =>
      body.shown (.value args.requestBody)).toList
  declared : forall name v, args.value name = some v ->
    exists p, p ∈ params.parameters.getD [] ∧ p.name = name
  body : args.requestBody.isSome -> params.requestBody.isSome

/-- The value of a parameter is what the arguments have under its name. -/
def Coincides (args : CommandArgs) (name : Text) : Prop :=
  if name = "parameters".toList then args.parameters = none
  else if name = "requestBody".toList then args.requestBody = args.value name
  else args.value name = none ∧ name ≠ "__proto__".toList

/-! ## What the arguments have under a name -/

theorem propertyAt_obj (fields : List (Text × Json)) (name : Text) :
    propertyAt (.obj fields) name =
      match fields.lookup name with
      | some v => .value (some v)
      | none =>
          if name = "__proto__".toList then .prototype 0 else .value none := by
  unfold propertyAt
  rfl

theorem lookup_toJson (args : CommandArgs) (name : Text) :
    propertyAt args.toJson name =
      if name = "parameters".toList then .value (args.parameters.map Json.obj)
      else if name = "requestBody".toList then .value args.requestBody
      else if name = "__proto__".toList then .prototype 0
      else .value none := by
  have hone : forall (key : Text) (v : Json) (rest : List (Text × Json)),
      ((key, v) :: rest).lookup name =
        if name = key then some v else rest.lookup name := by
    intro key v rest
    rw [List.lookup_cons]
    by_cases heq : name = key
    · rw [if_pos heq, heq, beq_self_eq_true]
    · rw [if_neg heq, beq_false_of_ne heq]
  rcases args with ⟨parameters, requestBody⟩
  unfold CommandArgs.toJson
  rw [propertyAt_obj]
  by_cases hparameters : name = "parameters".toList
  · rw [if_pos hparameters, hparameters]
    cases parameters with
    | none =>
        cases requestBody with
        | none => rfl
        | some body => rfl
    | some values => rfl
  · rw [if_neg hparameters]
    by_cases hbody : name = "requestBody".toList
    · rw [if_pos hbody, hbody]
      cases parameters with
      | none =>
          cases requestBody with
          | none => rfl
          | some body => rfl
      | some values =>
          cases requestBody with
          | none => rfl
          | some body => rfl
    · rw [if_neg hbody]
      have hnone : ((Option.map (fun values =>
            ("parameters".toList, Json.obj values)) parameters).toList ++
          (requestBody.map fun body =>
            ("requestBody".toList, body)).toList).lookup name = none := by
        cases parameters with
        | none =>
            cases requestBody with
            | none => rfl
            | some body => exact (hone _ _ _).trans (if_neg hbody)
        | some values =>
            refine (hone _ _ _).trans ((if_neg hparameters).trans ?_)
            cases requestBody with
            | none => rfl
            | some body => exact (hone _ _ _).trans (if_neg hbody)
      rw [hnone]

theorem value_ne_self {values : List (Text × Json)} {name : Text} :
    values.lookup name ≠ some (.obj values) := by
  intro h
  have hlt := sizeOf_lookup h
  have hobj := Json.obj.sizeOf_spec values
  omega

theorem coincides_iff (args : CommandArgs) (name : Text) :
    propertyAt args.toJson name = .value (args.value name) <->
      Coincides args name := by
  rw [lookup_toJson]
  unfold Coincides
  split
  · rename_i hname
    cases hparameters : args.parameters with
    | none =>
        unfold CommandArgs.value
        rw [hparameters]
        simp
    | some values =>
        unfold CommandArgs.value
        rw [hparameters]
        apply iff_of_false
        · intro h
          exact value_ne_self (Target.value.inj h).symm
        · exact Option.some_ne_none values
  · split
    · rw [Target.value.injEq]
    · split
      · rename_i hproto
        apply iff_of_false
        · intro h
          cases h
        · exact fun h => h.right hproto
      · rename_i hproto
        rw [Target.value.injEq, eq_comm]
        exact (and_iff_left hproto).symm

/-- The mail shows everything exactly when what a script gives for a declared
parameter stands under the name of the parameter in the arguments themselves,
and nothing is given that is not declared. -/
theorem showsAll_iff (params : EndpointParams) (args : CommandArgs) :
    ShowsAll params args <->
      (forall p, p ∈ params.parameters.getD [] -> Coincides args p.name) ∧
        (forall name v, args.value name = some v ->
          exists p, p ∈ params.parameters.getD [] ∧ p.name = name) ∧
        (args.requestBody.isSome -> params.requestBody.isSome) := by
  have hbody : propertyAt args.toJson "requestBody".toList =
      .value args.requestBody := by
    rw [lookup_toJson]
    rfl
  have hshown : params30x params args.toJson =
      (params.parameters.getD []).map (fun p =>
        p.shown (.value (args.value p.name))) ++
      (params.requestBody.map fun body =>
        body.shown (.value args.requestBody)).toList <->
        forall p, p ∈ params.parameters.getD [] -> Coincides args p.name := by
    unfold params30x
    rw [hbody, List.append_cancel_right_eq, List.map_inj_left]
    apply forall₂_congr
    intro p _
    rw [← coincides_iff]
    constructor
    · intro h
      exact congrArg MailParam.value h
    · intro h
      rw [h]
  constructor
  · intro h
    exact ⟨hshown.mp h.shown, h.declared, h.body⟩
  · intro h
    exact ⟨hshown.mpr h.left, h.right.left, h.right.right⟩

/-- A pet is asked for by its id, which the mail does not show. -/
theorem not_showsAll_petId :
    params30x ⟨some [⟨"petId".toList, []⟩], none⟩
        (CommandArgs.toJson
          ⟨some [("petId".toList, .str "7".toList)], none⟩) =
      [⟨"petId".toList, [], .value none⟩] ∧
      ¬ ShowsAll ⟨some [⟨"petId".toList, []⟩], none⟩
        ⟨some [("petId".toList, .str "7".toList)], none⟩ := by
  constructor
  · rfl
  · intro h
    cases h.shown

end Emails
end CallgentApi
