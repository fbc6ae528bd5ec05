import CallgentApi.Agents.Purposes

/-!
# The endpoints that are used

A purpose with one candidate uses it; where a purpose has two, the model is
asked to confirm the endpoints.
-/

namespace CallgentApi
namespace Agents

open Js Event Effect Config

/-! ## Groups -/

/-- The purposes with none, one and two candidates. -/
structure Groups where
  unaddressed : List Purpose
  single : List Purpose
  double : List Purpose

/-- `grouped[ep.candidateEndpoints.length].push(ep)`. -/
def addToGroup (grouped : Groups) (ep : Purpose) : Except Thrown Groups :=
  match ep.candidateEndpoints with
  | [] => .ok { grouped with unaddressed := grouped.unaddressed ++ [ep] }
  | [_] => .ok { grouped with single := grouped.single ++ [ep] }
  | [_, _] => .ok { grouped with double := grouped.double ++ [ep] }
  | _ => .error (.readUndefined "push".toList)

def group (purposes : List Purpose) : Except Thrown Groups :=
  purposes.foldlM addToGroup ⟨[], [], []⟩

/-- The purposes that need an API and have none. -/
def Groups.impossible (grouped : Groups) : List Purpose :=
  grouped.unaddressed.filter fun ep => isTruthy ep.needExternalAPI

def missionImpossible (unaddressedAPI : List Purpose) : Thrown :=
  .badRequest (("Mission Impossible: current service APIs is not sufficient " ++
      "to fulfill your request.\nUnaddressed APIs:\n").toList ++
    "\n".toList.intercalate (unaddressedAPI.map fun ep =>
      "- ".toList ++ displayText ep.purposeKey ++ ": ".toList ++
        displayText ep.usedFor))

/-- The groups, where no purpose needs an API that is missing. -/
def possibleGroups (purposes : List Purpose) : Except Thrown Groups := do
  let grouped ← group purposes
  if grouped.impossible.isEmpty then return grouped
  else throw (missionImpossible grouped.impossible)

def confirmedEndpoint (ep : Purpose) : UsedEndpoint where
  purposeKey := ep.purposeKey
  usedFor := ep.usedFor
  epName := ep.candidateEndpoints.head?.bind Candidate.epName
  description := ep.candidateEndpoints.head?.bind Candidate.description

/-! ## The question -/

/-- `endpoints.find((ep) => ep.name == epName)` where an endpoint may be
missing. -/
def findEndpoint (numbers : NumberReader) (epName : Value) :
    List (Option Endpoint) -> Except Thrown (Option Endpoint)
  | [] => .ok none
  | none :: _ => .error (.readUndefined "name".toList)
  | some ep :: rest =>
      if ep.isNamed numbers epName then .ok (some ep)
      else findEndpoint numbers epName rest

/-- An element that names no endpoint, or one of the list. -/
def hasCandidate (numbers : NumberReader) (endpoints : List (Option Endpoint))
    (ep0 : Json) : Except Thrown Bool := do
  let epName ← read (some ep0) "epName"
  if !isTruthy epName then return true
  let found ← findEndpoint numbers epName endpoints
  if found.isSome then return true
  else throw (noSuchEndpoint epName)

def validConfirmation (numbers : NumberReader)
    (endpoints : List (Option Endpoint)) (gen : Value) :
    Except Thrown Bool := do
  let someConfirmed ← readLength gen
  if someConfirmed then every gen (hasCandidate numbers endpoints)
  else return false

def confirmationExample : Json :=
  .arr [example_ [("purposeKey", emptyText), ("epName", emptyText),
    ("description", emptyText), ("usedFor", emptyText)]]

def confirmQuestion (numbers : NumberReader)
    (endpoints : List (Option Endpoint))
    (confirmedEndpoints : List UsedEndpoint) (optEndpoints : List Purpose) :
    Question where
  topic := .confirmEndpoints endpoints confirmedEndpoints optEndpoints
  parseType := .json
  parseSchema := confirmationExample
  validate := validConfirmation numbers endpoints

def usedEndpoint (ep : Json) : UsedEndpoint where
  purposeKey := ep.field "purposeKey".toList
  usedFor := ep.field "usedFor".toList
  epName := ep.field "epName".toList
  description := ep.field "description".toList

/-- An answer in the place of `usedEndpoints`. -/
def usedEndpointsOf (answer : Value) : List UsedEndpoint :=
  match answer with
  | some (.arr items) => items.map usedEndpoint
  | _ => []

/-! ## `_confirmEndpoints` and `chooseEndpoints` -/

/-- The endpoints under the names that are used. -/
def chosenEndpoints (numbers : NumberReader)
    (epsMap : List (Text × Option Endpoint)) (purposes : List UsedEndpoint) :
    List (Option Endpoint) :=
  valuesOf (epsMap.filter fun entry =>
    purposes.any fun p =>
      Json.looseEq numbers p.epName (some (.str entry.1)))

section Talk

variable {omega : Type}

/-- `_confirmEndpoints`. -/
def confirmEndpoints (t : Task omega) (endpoints : List (Option Endpoint))
    (purposes : List Purpose) : Talk omega (List UsedEndpoint) := do
  let grouped ← ofResult (possibleGroups purposes)
  let confirmedEndpoints := grouped.single.map confirmedEndpoint
  if grouped.double.isEmpty then return confirmedEndpoints
  else
    let answer ← ask t
      (confirmQuestion t.numbers endpoints confirmedEndpoints grouped.double)
    return usedEndpointsOf answer

def chooseEndpoints (t : Task omega) (endpoints : List Endpoint) :
    Talk omega (List (Option Endpoint) × List UsedEndpoint) := do
  let choices ← choose t endpoints
  let purposes ← confirmEndpoints t (valuesOf choices.epsMap)
    (valuesOf choices.purposesSet)
  return (chosenEndpoints t.numbers choices.epsMap purposes, purposes)

end Talk

end Agents
end CallgentApi
