import CallgentApi.Agents.Templates
import CallgentApi.Lib.Fallible

/-!
# Candidate endpoints

The endpoints are chosen twice, the second time among those that are left.
What was chosen for a purpose becomes the list of its candidates, under the
text of its key.
-/

namespace CallgentApi
namespace Agents

open Js Event Effect Config

/-! ## `Utils.uniqueBy` -/

/-- What follows the elements whose keys are in `existing`. -/
def uniqueFrom (key : String) (existing : List Value) :
    List Json -> Except Thrown (List Json)
  | [] => .ok []
  | x :: rest => do
      let value ← read (some x) key
      if existing.any (Json.sameValue value) then
        uniqueFrom key existing rest
      else
        let kept ← uniqueFrom key (existing ++ [value]) rest
        return x :: kept

def uniqueBy (arr : List Json) (key : String) : Except Thrown (List Json) :=
  uniqueFrom key [] arr

/-! ## The questions -/

def emptyText : Json := .str []

/-- An object with the properties of an example. -/
def example_ (keys : List (String × Json)) : Json :=
  .obj (keys.map fun entry => (entry.1.toList, entry.2))

def choicesExample : Json :=
  example_ [
    ("unaddressedAPI", .arr [example_ [("purposeKey", emptyText),
      ("usedFor", emptyText), ("needExternalAPI", .bool false)]]),
    ("usedEndpoints", .arr [example_ [("purposeKey", emptyText),
      ("epName", emptyText), ("description", emptyText),
      ("usedFor", emptyText), ("needExternalAPI", .bool false)]])]

/-- `ep.name == epName`. -/
def Endpoint.isNamed (numbers : NumberReader) (ep : Endpoint)
    (epName : Value) : Bool :=
  Json.looseEq numbers (some (.str ep.name)) epName

def noSuchEndpoint (epName : Value) : Thrown :=
  .plain ("There is no such endpoint named: ".toList ++ displayText epName)

/-- An element that names no endpoint, or one of the list. -/
def hasEndpoint (numbers : NumberReader) (endpoints : List Endpoint)
    (ep0 : Json) : Except Thrown Bool := do
  let epName ← read (some ep0) "epName"
  if !isTruthy epName || endpoints.any fun ep => ep.isNamed numbers epName then
    return true
  else throw (noSuchEndpoint epName)

/-- `a.length || b.length`. -/
def eitherLength (a b : Value) : Except Thrown Bool :=
  readLength a >>= fun found => if found then return true else readLength b

/-- Something has been chosen, and every used endpoint exists. -/
def validChoices (numbers : NumberReader) (endpoints : List Endpoint)
    (gen : Value) : Except Thrown Bool := do
  let usedEndpoints ← read gen "usedEndpoints"
  let unaddressedAPI ← read gen "unaddressedAPI"
  let someChosen ← eitherLength usedEndpoints unaddressedAPI
  if someChosen then every usedEndpoints (hasEndpoint numbers endpoints)
  else return false

/-- Both choices ask for the same kind of answer. -/
def choicesQuestion (numbers : NumberReader) (endpoints : List Endpoint)
    (topic : Topic) : Question where
  topic := topic
  parseType := .json
  parseSchema := choicesExample
  validate := validChoices numbers endpoints

def chooseQuestion (numbers : NumberReader) (endpoints : List Endpoint) :
    Question :=
  choicesQuestion numbers endpoints (.chooseEndpoints endpoints)

def openPurpose (ep : Json) : OpenPurpose where
  usedFor := ep.field "usedFor".toList
  purposeKey := ep.field "purposeKey".toList
  needExternalAPI := ("boolean: please specify if really an external openAPI " ++
    "is needed, **false** if local code can handle it").toList

def reChooseQuestion (numbers : NumberReader) (endpoints : List Endpoint)
    (purposes : List Json) : Question :=
  choicesQuestion numbers endpoints
    (.reChooseEndpoints endpoints (purposes.map openPurpose))

/-! ## What is chosen -/

/-- `v || []` as an argument of `concat`. -/
def spread (v : Value) : List Json :=
  match v.filter Json.truthy with
  | none => []
  | some (.arr items) => items
  | some other => [other]

/-- `(a || []).concat(b || [])`. -/
def concat (a b : Value) : Except Thrown (List Json) :=
  match a.filter Json.truthy with
  | none => .ok (spread b)
  | some (.arr items) => .ok (items ++ spread b)
  | some _ => .error (refuses "(unaddressedAPI || []).concat is not a function")

def purposesOf (answer : Value) : Except Thrown (List Json) := do
  let usedEndpoints ← read answer "usedEndpoints"
  let unaddressedAPI ← read answer "unaddressedAPI"
  uniqueBy (← concat unaddressedAPI usedEndpoints) "purposeKey"

def leftEndpoints (numbers : NumberReader) (endpoints : List Endpoint)
    (purposes0 : List Json) : List Endpoint :=
  endpoints.filter fun ep =>
    !purposes0.any fun ep0 =>
      Json.looseEq numbers (ep0.field "epName".toList) (some (.str ep.name))

section Talk

variable {omega : Type}

/-- `_chooseEndpoints`. -/
def chooseEndpointsOnce (t : Task omega) (endpoints : List Endpoint) :
    Talk omega (List Json) := do
  let answer ← ask t (chooseQuestion t.numbers endpoints)
  ofResult (purposesOf answer)

/-- `_reChooseEndpoints`. -/
def reChooseEndpoints (t : Task omega) (endpoints : List Endpoint)
    (purposes : List Json) : Talk omega (List Json) := do
  let answer ← ask t (reChooseQuestion t.numbers endpoints purposes)
  ofResult (purposesOf answer)

end Talk

/-! ## Candidates -/

/-- The purposes by the texts of their keys, and the endpoints by their
names. -/
structure Choices where
  purposesSet : List (Text × Purpose)
  epsMap : List (Text × Option Endpoint)

def keyOf (p : Json) : Text :=
  displayText (p.field "purposeKey".toList)

def newPurpose (p : Json) : Purpose where
  purposeKey := p.field "purposeKey".toList
  usedFor := p.field "usedFor".toList
  needExternalAPI := p.field "needExternalAPI".toList
  candidateEndpoints := []

def candidateOf (p : Json) : Candidate where
  epName := p.field "epName".toList
  description := p.field "description".toList

/-- `epsMap[epName] = endpoints.find(…)`; under `__proto__` nothing is put
down. -/
def setEndpoint (numbers : NumberReader) (endpoints : List Endpoint)
    (epsMap : List (Text × Option Endpoint)) (epName : Value) :
    List (Text × Option Endpoint) :=
  if displayText epName = "__proto__".toList then epsMap
  else
    setEntry epsMap (displayText epName)
      (endpoints.find? fun ep => ep.isNamed numbers epName)

/-- An element of an answer is added; what an inherited name stands for has no
candidates. -/
def addChoice (numbers : NumberReader) (endpoints : List Endpoint)
    (c : Choices) (p : Json) : Except Thrown Choices :=
  let epName := p.field "epName".toList
  let found := c.purposesSet.lookup (keyOf p)
  if found.isNone && isInherited (keyOf p) then
    if isTruthy epName then .error (.readUndefined "push".toList)
    else .ok c
  else
    let purpose := found.getD (newPurpose p)
    if isTruthy epName then
      .ok {
        purposesSet := setEntry c.purposesSet (keyOf p)
          { purpose with
              candidateEndpoints :=
                purpose.candidateEndpoints ++ [candidateOf p] }
        epsMap := setEndpoint numbers endpoints c.epsMap epName }
    else .ok { c with purposesSet := setEntry c.purposesSet (keyOf p) purpose }

/-- `purposes1.concat(purposes0).forEach(…)`. -/
def mergeChoices (numbers : NumberReader) (endpoints : List Endpoint)
    (purposes0 purposes1 : List Json) : Except Thrown Choices :=
  (purposes1 ++ purposes0).foldlM (addChoice numbers endpoints) ⟨[], []⟩

section Talk

variable {omega : Type}

/-- The part of `chooseEndpoints` up to the confirmation. -/
def choose (t : Task omega) (endpoints : List Endpoint) :
    Talk omega Choices := do
  let purposes0 ← chooseEndpointsOnce t endpoints
  pop
  let purposes1 ←
    reChooseEndpoints t (leftEndpoints t.numbers endpoints purposes0) purposes0
  let choices ← ofResult (mergeChoices t.numbers endpoints purposes0 purposes1)
  pop
  return choices

end Talk

end Agents
end CallgentApi
