import CallgentApi.Config.Naming
import CallgentApi.Event.TaskId
import CallgentApi.Repo.Callgents

/-!
# The controllers of the client entries

`RestApiController` and `WebpageController` turn a request into an event of
the client entry.  The callgent is read with a selection, and the payer of the
event is the caller or who the record says has created the callgent.
-/

namespace CallgentApi
namespace Clients

open Js Event Config Repo Repo.Select

/-! ## Requests -/

structure ClientEntry where
  id : Text
  adaptorKey : Text
  tenantPk : Int

/-- The lookups of a request: an entry by its type, and a callgent. -/
structure Lookups where
  findFirstByType : Text -> Text -> Text -> Option ClientEntry
  callgent : Text -> Option CallgentColumns

/-- Where a request goes, and the user that is authenticated. -/
structure Route where
  callgentId : Text
  entryId : Text
  sub : Option Text

structure RequestRequirement where
  requirement : Text
  /-- The other properties of the body, and the files. -/
  rest : List (Text × Json)

def RequestRequirement.json (r : RequestRequirement) : Json :=
  .obj (("requirement".toList, .str r.requirement) :: r.rest)

structure RawRequest where
  method : Text
  url : Text
  json : Json

/-- What a controller gives to the constructor of `ClientRequestEvent`. -/
structure ClientRequestArgs where
  entryId : Text
  dataType : Text
  req : Json
  taskId : Option Text
  title : Text
  paidBy : Option Text
  calledBy : Option Text
  context : RequestContext
  callback : Option Text

/-- The event, with what its constructor draws; an event without a payer has
an empty one here. -/
def ClientRequestArgs.event (args : ClientRequestArgs) (id : Uuid)
    (now : UtcDate) : EventObject :=
  .clientRequest id.text args.entryId args.dataType args.req
    (getTaskId args.taskId id now) args.title (args.paidBy.getD [])
    args.calledBy args.context args.callback

/-- `_load`: the entry and the callgent of a request. -/
structure Loaded where
  entry : ClientEntry
  callgent : Record Json

/-- The selection of `_load`. -/
def loadSelect : Select :=
  [("id".toList, .chosen), ("name".toList, .chosen),
    ("summary".toList, .chosen), ("instruction".toList, .chosen)]

def load (db : Lookups) (adaptorKey : Text) (route : Route) :
    Except Thrown Loaded :=
  match db.findFirstByType route.callgentId adaptorKey route.entryId with
  | none =>
      .error (.notFound ('`' :: adaptorKey ++
        "` Client Entry not found for callgent: ".toList ++ route.callgentId))
  | some entry =>
      match findOne (db.callgent route.callgentId) (some loadSelect) with
      | none =>
          .error (.notFound ("callgent not found: ".toList ++
            route.callgentId))
      | some callgent => .ok ⟨entry, callgent⟩

/-- `Utils.truncate(str, maxBytes)`. -/
def truncate : Text -> Nat -> Text
  | [], _ => []
  | c :: rest, maxBytes =>
      if c.utf8Size ≤ maxBytes then c :: truncate rest (maxBytes - c.utf8Size)
      else []

/-- `calledBy || callgent.createdBy`. -/
def payer (route : Route) (callgent : Record Json) : Option Text :=
  (truthy route.sub).or (textAt callgent "createdBy".toList)

def requestTitle (requirement : Text) : Text :=
  "Request: ".toList ++ truncate requirement 120

def invokeTitle (name : Text) : Text :=
  "Invoke: ".toList ++ name

/-- The event of a requirement, in either controller. -/
def requestArgs (loaded : Loaded) (route : Route)
    (requirement : RequestRequirement) (taskId progressive : Option Text) :
    ClientRequestArgs where
  entryId := loaded.entry.id
  dataType := loaded.entry.adaptorKey
  req := requirement.json
  taskId := taskId
  title := requestTitle requirement.requirement
  paidBy := payer route loaded.callgent
  calledBy := route.sub
  context :=
    { callgentId := route.callgentId
      callgentName := (textAt loaded.callgent "name".toList).getD []
      callerId := route.sub
      epName := none
      progressive := progressive }
  callback := none

/-- The name behind the entry in the url of a request. -/
def RawRequest.name (req : RawRequest) (route : Route) : Text :=
  invokedName req.method req.url route.callgentId route.entryId

namespace RestApiController

def request (db : Lookups) (route : Route) (requirement : RequestRequirement)
    (taskId progressive : Option Text) : Except Thrown ClientRequestArgs := do
  let loaded ← load db "restAPI".toList route
  return requestArgs loaded route requirement taskId progressive

def invoke (db : Lookups) (route : Route) (req : RawRequest)
    (callback : Option Text) : Except Thrown ClientRequestArgs := do
  let epName := req.name route
  let loaded ← load db "restAPI".toList route
  return {
    entryId := loaded.entry.id
    dataType := loaded.entry.adaptorKey
    req := req.json
    taskId := none
    title := invokeTitle epName
    paidBy := payer route loaded.callgent
    calledBy := route.sub
    context :=
      { callgentId := route.callgentId
        callgentName := (textAt loaded.callgent "name".toList).getD []
        callerId := route.sub
        epName := some epName
        progressive := none }
    callback := callback }

end RestApiController

namespace WebpageController

def request (db : Lookups) (route : Route) (requirement : RequestRequirement)
    (taskId progressive : Option Text) : Except Thrown ClientRequestArgs := do
  let loaded ← load db "Webpage".toList route
  return requestArgs loaded route requirement taskId progressive

def invoke (db : Lookups) (route : Route) (req : RawRequest)
    (progressive callback : Option Text) :
    Except Thrown ClientRequestArgs := do
  let pageName := req.name route
  let loaded ← load db "Webpage".toList route
  return {
    entryId := loaded.entry.id
    dataType := loaded.entry.adaptorKey
    req := req.json
    taskId := none
    title := invokeTitle pageName
    paidBy := payer route loaded.callgent
    calledBy := route.sub
    context :=
      { callgentId := route.callgentId
        callgentName := (textAt loaded.callgent "name".toList).getD []
        callerId := route.sub
        epName := none
        progressive := progressive }
    callback := callback }

end WebpageController

inductive ClientCall where
  | restRequest (route : Route) (requirement : RequestRequirement)
      (taskId progressive : Option Text)
  | restInvoke (route : Route) (req : RawRequest) (callback : Option Text)
  | webRequest (route : Route) (requirement : RequestRequirement)
      (taskId progressive : Option Text)
  | webInvoke (route : Route) (req : RawRequest)
      (progressive callback : Option Text)

namespace ClientCall

def route : ClientCall -> Route
  | .restRequest route _ _ _ => route
  | .restInvoke route _ _ => route
  | .webRequest route _ _ _ => route
  | .webInvoke route _ _ _ => route

/-- What is given to the constructor of the event that is emitted. -/
def args (db : Lookups) : ClientCall -> Except Thrown ClientRequestArgs
  | .restRequest route requirement taskId progressive =>
      RestApiController.request db route requirement taskId progressive
  | .restInvoke route req callback =>
      RestApiController.invoke db route req callback
  | .webRequest route requirement taskId progressive =>
      WebpageController.request db route requirement taskId progressive
  | .webInvoke route req progressive callback =>
      WebpageController.invoke db route req progressive callback

end ClientCall

/-! ## What is loaded -/

section Loading

variable {db : Lookups} {adaptorKey : Text} {route : Route} {loaded : Loaded}

theorem load_ok (h : load db adaptorKey route = .ok loaded) :
    exists row, db.callgent route.callgentId = some row ∧
      findOne (some row) (some loadSelect) = some loaded.callgent := by
  unfold load at h
  cases hentry : db.findFirstByType route.callgentId adaptorKey
      route.entryId with
  | none =>
      rw [hentry] at h
      cases h
  | some entry =>
      rw [hentry] at h
      dsimp only at h
      cases hrow : db.callgent route.callgentId with
      | none =>
          rw [hrow] at h
          cases h
      | some row =>
          rw [hrow] at h
          cases hfound : findOne (some row) (some loadSelect) with
          | none =>
              rw [hfound] at h
              cases h
          | some callgent =>
              rw [hfound] at h
              cases h
              exact ⟨row, rfl, hfound⟩

theorem createdBy_not_loaded (h : load db adaptorKey route = .ok loaded) :
    textAt loaded.callgent "createdBy".toList = none := by
  have hchosen : loadSelect.lookup "id".toList = some .chosen := rfl
  rcases load_ok h with ⟨row, _, hfound⟩
  have hlookup : loaded.callgent.lookup "createdBy".toList = none :=
    lookup_findOne_of_excluded hchosen rfl rfl hfound
  unfold textAt
  rw [hlookup]

theorem payer_of_load (h : load db adaptorKey route = .ok loaded) :
    payer route loaded.callgent = truthy route.sub := by
  unfold payer
  rw [createdBy_not_loaded h, Option.or_none]

end Loading

/-! ## Who pays -/

/-- The payer of an event: the caller, or else who has created the
callgent. -/
def Billable (db : Lookups) (call : ClientCall) (args : ClientRequestArgs) :
    Prop :=
  exists row, db.callgent call.route.callgentId = some row ∧
    args.paidBy = some ((truthy call.route.sub).getD row.createdBy) ∧
    args.paidBy ≠ some []

theorem paidBy_eq {db : Lookups} {call : ClientCall}
    {args : ClientRequestArgs} (h : call.args db = .ok args) :
    args.paidBy = truthy call.route.sub ∧
      exists row, db.callgent call.route.callgentId = some row := by
  cases call with
  | restRequest route requirement taskId progressive =>
      rcases Fallible.exists_of_bind_ok h with ⟨loaded, hload, hargs⟩
      rcases load_ok hload with ⟨row, hrow, _⟩
      cases hargs
      exact ⟨payer_of_load hload, row, hrow⟩
  | restInvoke route req callback =>
      rcases Fallible.exists_of_bind_ok h with ⟨loaded, hload, hargs⟩
      rcases load_ok hload with ⟨row, hrow, _⟩
      cases hargs
      exact ⟨payer_of_load hload, row, hrow⟩
  | webRequest route requirement taskId progressive =>
      rcases Fallible.exists_of_bind_ok h with ⟨loaded, hload, hargs⟩
      rcases load_ok hload with ⟨row, hrow, _⟩
      cases hargs
      exact ⟨payer_of_load hload, row, hrow⟩
  | webInvoke route req progressive callback =>
      rcases Fallible.exists_of_bind_ok h with ⟨loaded, hload, hargs⟩
      rcases load_ok hload with ⟨row, hrow, _⟩
      cases hargs
      exact ⟨payer_of_load hload, row, hrow⟩

/-- The event of a request is paid for as it should be exactly when the caller
is authenticated. -/
theorem billable_iff {db : Lookups} {call : ClientCall}
    {args : ClientRequestArgs} (h : call.args db = .ok args) :
    Billable db call args <-> (truthy call.route.sub).isSome = true := by
  rcases paidBy_eq h with ⟨hpaidBy, row, hrow⟩
  unfold Billable
  rw [hpaidBy]
  cases hsub : truthy call.route.sub with
  | none =>
      constructor
      · intro hbillable
        rcases hbillable with ⟨_, _, hsome, _⟩
        cases hsome
      · intro hsome
        cases hsome
  | some sub =>
      constructor
      · intro _
        rfl
      · intro _
        refine ⟨row, hrow, rfl, ?_⟩
        intro hnil
        exact ne_nil_of_truthy hsub (Option.some.inj hnil)

/-! ## A caller and an anonymous request -/

def petStore : CallgentColumns where
  pk := 7
  id := "cg1".toList
  tenantPk := 1
  name := "pets".toList
  avatar := none
  summary := none
  instruction := none
  liked := 0
  viewed := 0
  forked := 0
  favorite := 0
  official := false
  featured := false
  forkedPk := none
  mainTagId := none
  createdBy := "owner".toList
  createdAt := "2025-01-01T00:00:00.000Z".toList
  updatedAt := "2025-01-01T00:00:00.000Z".toList
  deletedAt := 0

def petLookups : Lookups where
  findFirstByType := fun _ adaptorKey _ =>
    some ⟨"cen1".toList, adaptorKey, 1⟩
  callgent := fun _ => some petStore

def petCall (sub : Option Text) : ClientCall :=
  .restRequest ⟨"cg1".toList, "cen1".toList, sub⟩ ⟨"a cat".toList, []⟩ none
    none

/-- The event of a caller is paid for by the caller. -/
theorem billable_petCall :
    exists args, (petCall (some "u".toList)).args petLookups = .ok args ∧
      Billable petLookups (petCall (some "u".toList)) args := by
  refine ⟨_, rfl, ?_⟩
  exact (billable_iff rfl).mpr rfl

/-- No one pays for the event of an anonymous request, though its callgent has
been created by someone. -/
theorem anonymous_not_billable :
    exists args, (petCall none).args petLookups = .ok args ∧
      petStore.createdBy = "owner".toList ∧ args.paidBy = none ∧
      ¬ Billable petLookups (petCall none) args := by
  refine ⟨_, rfl, rfl, rfl, ?_⟩
  intro h
  rcases h with ⟨_, _, hpaidBy, _⟩
  cases hpaidBy

end Clients
end CallgentApi
