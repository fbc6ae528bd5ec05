import CallgentApi.Agents.Confirm
import CallgentApi.Agents.Schema

/-!
# Where the arguments come from

The model is asked for the sources of every argument, and asked again about
those that are uncertain.  What is left to be clarified is put to the user.
-/

namespace CallgentApi
namespace Agents

open Js Event Effect Config

/-- `v?.key`, for a name that no prototype has. -/
def readSome (v : Value) (key : String) : Value :=
  v.bind fun v => v.field key.toList

/-- The elements that a method of arrays goes through. -/
def elementsOf (v : Value) (method : String) : Except Thrown (List Json) :=
  match v with
  | some (.arr items) => .ok items
  | v => do
      let _ ← read v method
      throw (refuses (method ++ " is not a function"))

/-! ## The parameters of an endpoint -/

/-- What stands behind the own properties of an object. -/
inductive Behind where
  | objectPrototype
  | value (v : Json)
  | nothing

/-- `params`: its own properties, and what a parameter may have put behind
them. -/
structure ParamTable where
  own : List (Text × Value)
  behind : Behind

/-- `params[name] = schema`; under `__proto__` an object is put behind it, as
long as the setter is found there. -/
def ParamTable.set (params : ParamTable) (name : Text) (schema : Value) :
    ParamTable :=
  let shadowed :=
    match params.behind with
    | .objectPrototype => false
    | .value v => (v.field name).isSome
    | .nothing => true
  if name ≠ "__proto__".toList || shadowed then
    { params with own := setEntry params.own name schema }
  else
    match schema with
    | some .null => { params with behind := .nothing }
    | some (.arr items) => { params with behind := .value (.arr items) }
    | some (.obj fields) => { params with behind := .value (.obj fields) }
    | _ => params

/-- `params[name]`. -/
def ParamTable.get (params : ParamTable) (name : Text) : Target :=
  match params.own.lookup name with
  | some schema => .value schema
  | none =>
      match params.behind with
      | .objectPrototype =>
          if name = "__proto__".toList then .prototype 0 else .value none
      | .value v =>
          if name = "__proto__".toList && (v.field name).isNone then
            .value (some v)
          else propertyAt v name
      | .nothing => .value none

def addParameter (params : ParamTable) (p : Json) :
    Except Thrown ParamTable := do
  let name ← read (some p) "name"
  let schema ← read (some p) "schema"
  return params.set (displayText name) schema

def bodySchema (requestBody : Value) : Except Thrown Json := do
  if !isTruthy requestBody then return .obj []
  match valuesOf (← entriesOf (readSome requestBody "content")) with
  | [] => return .obj []
  | first :: _ =>
      let schema ← read (some first) "schema"
      return (schema.filter Json.truthy).getD (.obj [])

/-- The schemas of the parameters by their names, and that of the request
body. -/
def paramTable (params : Value) : Except Thrown ParamTable := do
  let parameters ← elementsOf
    (readSome (params.filter Json.truthy) "parameters") "forEach"
  let table ← parameters.foldlM addParameter ⟨[], .objectPrototype⟩
  let body ← bodySchema (readSome (params.filter Json.truthy) "requestBody")
  return table.set "requestBody".toList (some body)

/-! ## The validator -/

def fromAPIKey : String := "retrieved-from-API-calls"

def fromUserKey : String := "extracted-from-user-info-or-files"

/-- A text, as the value of which `startsWith` is called. -/
def textOf (v : Value) : Except Thrown Text :=
  match v with
  | some (.str s) => .ok s
  | v => do
      let _ ← read v "startsWith"
      throw (refuses "argName.startsWith is not a function")

/-- `s.replace(needle, '')`. -/
def dropFirst (needle s : Text) : Text :=
  match findText needle s with
  | some n => s.take n ++ s.drop (n + needle.length)
  | none => s

/-- The name without the first `parameters.`, where it starts with
`parameters`. -/
def shortName (argName : Text) : Text :=
  if startsWith argName "parameters".toList then
    dropFirst "parameters.".toList argName
  else argName

/-- The parameter has the property that the dotted name stands for. -/
def hasArgument (params : ParamTable) (name : Text) : Except Thrown Bool :=
  match name.splitOn '.' with
  | [] => .ok false
  | first :: props => (hasTarget (params.get first) props).map Prod.fst

def hasSource (arg : Json) : Except Thrown Bool := do
  let fromUser := arg.field fromUserKey.toList
  if isTruthy (readSome fromUser "flag") then return true
  let needConfirm ← read fromUser "needConfirm"
  return isTruthy needConfirm || hasLength (arg.field fromAPIKey.toList) ||
    isTruthy (readSome (arg.field "mapping".toList) "optional")

def noSuchParameter (name epName : Text) : Thrown :=
  .plain ("There is no such parameter '".toList ++ name ++
    "' on endpoint '".toList ++ epName ++ "'".toList)

def noSource (name epName : Text) : Thrown :=
  .plain ("There must be at least one source for argument '".toList ++ name ++
    "' on endpoint '".toList ++ epName ++ "'".toList)

def checkArgument (params : ParamTable) (epName : Text) (arg : Json) :
    Except Thrown Bool := do
  let name := shortName (← textOf (← read (some arg) "argName"))
  if !(← hasArgument params name) then throw (noSuchParameter name epName)
  if !(← hasSource arg) then throw (noSource name epName)
  return true

def noSuchPurpose (purposeKey : Value) : Thrown :=
  .plain ("There is no such purposeKey: ".toList ++ displayText purposeKey)

/-- The arguments of a chosen purpose, against its endpoint. -/
def checkPurpose (numbers : NumberReader) (endpoints : List (Option Endpoint))
    (purposes : List UsedEndpoint) (item : Json) : Except Thrown Bool := do
  let purposeKey ← read (some item) "purposeKey"
  let args ← read (some item) "args"
  match purposes.find? fun p =>
      Json.looseEq numbers p.purposeKey purposeKey with
  | none => throw (noSuchPurpose purposeKey)
  | some purpose =>
      match ← findEndpoint numbers purpose.epName endpoints with
      | none => throw (.readUndefined "params".toList)
      | some ep =>
          let params ← paramTable ep.params
          every args (checkArgument params ep.name)

/-- `validate`. -/
def validHints (numbers : NumberReader) (endpoints : List (Option Endpoint))
    (purposes : List UsedEndpoint) (gen : Value) : Except Thrown Bool :=
  every gen (checkPurpose numbers endpoints purposes)

def hintsExample : Json :=
  .arr [example_ [("purposeKey", emptyText),
    ("args", .arr [example_ [("argName", emptyText),
      (fromAPIKey, .arr [emptyText]),
      (fromUserKey, example_ [("flag", .bool false),
        ("userProvided", emptyText), ("needConfirm", emptyText)]),
      ("mapping", example_ [("from", emptyText), ("to", emptyText),
        ("optional", .bool false), ("mismatch", .bool false),
        ("conversion", example_ [("steps", .arr []),
          ("missing", .bool false)])])]])]]

def argsQuestion (numbers : NumberReader) (endpoints : List (Option Endpoint))
    (purposes : List UsedEndpoint) : Question where
  topic := .confirmEndpointsArgs endpoints purposes
  parseType := .json
  parseSchema := hintsExample
  validate := validHints numbers endpoints purposes

/-! ## Hints in an answer -/

def readHint (arg : Json) : Except Thrown ArgHint := do
  let argName ← read (some arg) "argName"
  return {
    argName := argName
    fromAPI := arg.field fromAPIKey.toList
    fromUser := arg.field fromUserKey.toList
    mapping := arg.field "mapping".toList }

def readPurpose (item : Json) : Except Thrown PurposeHints := do
  let purposeKey ← read (some item) "purposeKey"
  let args ← read (some item) "args"
  return ⟨purposeKey, ← (← elementsOf args "forEach").mapM readHint⟩

def readHints (answer : Value) : Except Thrown (List PurposeHints) := do
  (← elementsOf answer "forEach").mapM readPurpose

/-! ## What is put under a purpose -/

structure KeyGroup (a : Type) where
  purposeKey : Value
  args : List a

/-- `groups[purposeKey] || (groups[purposeKey] = …)`, and `args.push(x)`; what
an inherited name stands for has no `args`. -/
def pushUnder {a : Type} (groups : List (Text × KeyGroup a))
    (purposeKey : Value) (x : a) :
    Except Thrown (List (Text × KeyGroup a)) :=
  match groups.lookup (displayText purposeKey) with
  | some g =>
      .ok (setEntry groups (displayText purposeKey)
        { g with args := g.args ++ [x] })
  | none =>
      if isInherited (displayText purposeKey) then
        .error (.readUndefined "push".toList)
      else .ok (setEntry groups (displayText purposeKey) ⟨purposeKey, [x]⟩)

/-! ## Asking again -/

def ArgHint.flag (arg : ArgHint) : Bool :=
  isTruthy (readSome arg.fromUser "flag")

/-- `fromUser.needConfirm` where `fromUser` has been found to be there. -/
def ArgHint.needConfirm (arg : ArgHint) : Bool :=
  isTruthy (readSome arg.fromUser "needConfirm")

/-- `(fromUser?.flag && fromUser.needConfirm) || mapping.mismatch`. -/
def ArgHint.isUncertain (arg : ArgHint) : Except Thrown Bool := do
  if arg.flag && arg.needConfirm then return true
  return isTruthy (← read arg.mapping "mismatch")

def addUncertain (purposeKey : Value) (groups : List (Text × KeyGroup Value))
    (arg : ArgHint) : Except Thrown (List (Text × KeyGroup Value)) := do
  if ← arg.isUncertain then pushUnder groups purposeKey arg.argName
  else return groups

/-- `Object.values(reConfirms)`. -/
def reConfirmArgs (argsHints : List PurposeHints) :
    Except Thrown (List ReConfirm) := do
  let groups ← argsHints.foldlM
    (fun groups hints => hints.args.foldlM (addUncertain hints.purposeKey)
      groups) []
  return (valuesOf groups).map fun g => ⟨g.purposeKey, g.args⟩

/-- `items.find((x) => x[key] == wanted)`. -/
def findBy (numbers : NumberReader) (key : String) (wanted : Value) :
    List Json -> Except Thrown (Option Json)
  | [] => .ok none
  | x :: rest => do
      let value ← read (some x) key
      if Json.looseEq numbers value wanted then return some x
      else findBy numbers key wanted rest

def missedPurpose (purposeKey : Value) : Thrown :=
  .plain ("You should not miss the uncertain purposeKey: ".toList ++
    displayText purposeKey)

def missedArg (argName purposeKey : Value) : Thrown :=
  .plain ("You should not miss the uncertain arg: '".toList ++
    displayText argName ++ "' on purposeKey '".toList ++
    displayText purposeKey ++ "'".toList)

/-- The answer has every argument of a purpose that is asked for again. -/
def covers (numbers : NumberReader) (gen : Value) (r : ReConfirm) :
    Except Thrown Bool := do
  let items ← elementsOf gen "find"
  match ← findBy numbers "purposeKey" r.purposeKey items with
  | none => throw (missedPurpose r.purposeKey)
  | some p =>
      r.args.allM fun argName => do
        let args ← elementsOf (p.field "args".toList) "find"
        match ← findBy numbers "argName" argName args with
        | some _ => return true
        | none => throw (missedArg argName r.purposeKey)

def validAgain (numbers : NumberReader) (endpoints : List (Option Endpoint))
    (purposes : List UsedEndpoint) (again : List ReConfirm) (gen : Value) :
    Except Thrown Bool := do
  if ← again.allM (covers numbers gen) then
    validHints numbers endpoints purposes gen
  else return false

def reConfirmQuestion (numbers : NumberReader)
    (endpoints : List (Option Endpoint)) (purposes : List UsedEndpoint)
    (again : List ReConfirm) : Question where
  topic := .reConfirmEndpointsArgs endpoints purposes again
  parseType := .json
  parseSchema := hintsExample
  validate := validAgain numbers endpoints purposes again

/-- The first element that satisfies `p` is replaced. -/
def updateFirst {a : Type} (p : a -> Bool) (f : a -> a) : List a -> List a
  | [] => []
  | x :: rest => if p x then f x :: rest else x :: updateFirst p f rest

/-- `p.args[idx] = arg` for an argument of the same name. -/
def replaceArg (numbers : NumberReader) (args : List ArgHint)
    (arg : ArgHint) : List ArgHint :=
  updateFirst (fun a => Json.looseEq numbers a.argName arg.argName)
    (fun _ => arg) args

/-- The hints of one purpose take the place of those there are. -/
def trust (numbers : NumberReader) (argsHints : List PurposeHints)
    (later : PurposeHints) : Except Thrown (List PurposeHints) :=
  let isOf (hints : PurposeHints) : Bool :=
    Json.looseEq numbers hints.purposeKey later.purposeKey
  if !later.args.isEmpty && !argsHints.any isOf then
    .error (.readUndefined "args".toList)
  else
    .ok (updateFirst isOf
      (fun hints =>
        { hints with args := later.args.foldl (replaceArg numbers) hints.args })
      argsHints)

def trustHints (numbers : NumberReader) (argsHints : List PurposeHints)
    (answer : Value) : Except Thrown (List PurposeHints) := do
  (← readHints answer).foldlM (trust numbers) argsHints

/-! ## Clearing the hints -/

/-- What has been found while the hints are cleared. -/
structure Findings where
  needConfirms : List (Text × KeyGroup (Value × Value))
  mismatches : List (Text × KeyGroup ArgHint)

/-- `delete v.key`. -/
def deleteField (v : Value) (key : String) : Value :=
  match v with
  | some (.obj fields) =>
      some (.obj (fields.filter fun entry => entry.1 != key.toList))
  | v => v

/-- What the user has provided; a question that is left stays. -/
def clearFromUser (purposeKey : Value) (found : Findings) (arg : ArgHint) :
    Except Thrown (Findings × ArgHint) :=
  if arg.flag then
    if arg.needConfirm then do
      let needConfirms ← pushUnder found.needConfirms purposeKey
        (arg.argName, readSome arg.fromUser "needConfirm")
      return ({ found with needConfirms := needConfirms }, arg)
    else
      .ok (found,
        { arg with fromUser := readSome arg.fromUser "userProvided" })
  else .ok (found, { arg with fromUser := none })

def clearFromAPI (arg : ArgHint) : ArgHint :=
  if hasLength arg.fromAPI then arg else { arg with fromAPI := none }

/-- A conversion is kept where one is missing that nobody is asked about. -/
def clearMapping (purposeKey fromUser : Value) (found : Findings)
    (arg : ArgHint) : Except Thrown (Findings × ArgHint) := do
  if !isTruthy arg.mapping then return (found, arg)
  let mapping := deleteField arg.mapping "mismatch"
  let needConfirm ← read fromUser "needConfirm"
  if !isTruthy needConfirm &&
      isTruthy (readSome (readSome mapping "conversion") "missing") then
    let kept := { arg with mapping := mapping }
    let mismatches ← pushUnder found.mismatches purposeKey kept
    return ({ found with mismatches := mismatches }, kept)
  else
    return (found, { arg with mapping := deleteField mapping "conversion" })

def clearArg (purposeKey : Value) (state : Findings × List ArgHint)
    (arg : ArgHint) : Except Thrown (Findings × List ArgHint) := do
  let (found, cleared) ← clearFromUser purposeKey state.1 arg
  let (found, cleared) ← clearMapping purposeKey arg.fromUser found
    (clearFromAPI cleared)
  return (found, state.2 ++ [cleared])

def clearPurpose (state : Findings × List PurposeHints)
    (hints : PurposeHints) : Except Thrown (Findings × List PurposeHints) := do
  let (found, args) ← hints.args.foldlM (clearArg hints.purposeKey)
    (state.1, [])
  return (found, state.2 ++ [{ hints with args := args }])

def missingConversion : Thrown :=
  .plain "FIXME: re-choose eps or mission impossible".toList

def clarification (needConfirm : List (KeyGroup (Value × Value))) : Thrown :=
  .badRequest ("Need some clarification to fulfill the request:\n".toList ++
    "\n".toList.intercalate (needConfirm.map fun g =>
      "\n".toList.intercalate (g.args.map fun a =>
        "- [".toList ++ displayText g.purposeKey ++ "] ".toList ++
          displayText a.1 ++ ": ".toList ++ displayText a.2)))

def clearHints (argsHints : List PurposeHints) :
    Except Thrown (List PurposeHints) := do
  let (found, cleared) ← argsHints.foldlM clearPurpose (⟨[], []⟩, [])
  if !(valuesOf found.mismatches).isEmpty then throw missingConversion
  if !(valuesOf found.needConfirms).isEmpty then
    throw (clarification (valuesOf found.needConfirms))
  return cleared

/-! ## `confirmEndpointArgs` -/

section Talk

variable {omega : Type}

/-- The hints after those that are uncertain have been asked for again. -/
def confirmAgain (t : Task omega) (endpoints : List (Option Endpoint))
    (purposes : List UsedEndpoint) (argsHints : List PurposeHints) :
    Talk omega (List PurposeHints) := do
  let again ← ofResult (reConfirmArgs argsHints)
  if again.isEmpty then return argsHints
  else
    pop
    let answer ← ask t (reConfirmQuestion t.numbers endpoints purposes again)
    ofResult (trustHints t.numbers argsHints answer)

def confirmEndpointArgs (t : Task omega) (endpoints : List (Option Endpoint))
    (purposes : List UsedEndpoint) : Talk omega (List PurposeHints) := do
  let answer ← ask t (argsQuestion t.numbers endpoints purposes)
  let argsHints ← ofResult (readHints answer)
  let argsHints ← confirmAgain t endpoints purposes argsHints
  ofResult (clearHints argsHints)

end Talk

end Agents
end CallgentApi
