import Mathlib.Data.Char
import Mathlib.Data.List.Lex
import Mathlib.Data.List.Sort
import CallgentApi.Invoke.Chain
import CallgentApi.Request.Services

/-!
# The REST adaptor

`RestAPIAdaptor` serves both sides.  A client request is cut down to what is
forwarded of it; an endpoint is invoked by sending what the request of the
event has become.
-/

namespace CallgentApi
namespace Entries

open Js Event Realms Invoke Request Effect

variable {sigma : Type}

/-! ## The request of a client -/

def invokePath : Text := "/rest/invoke/".toList

def callgentPrefix : Text := "x-callgent-".toList

/-- A header under its lower-case name, unless it is one of the platform's; a
value that is missing under that name is not written. -/
def addHeader (rawHeaders headers : List (Text × Json)) (key : Text) :
    List (Text × Json) :=
  let key := toLowerCase key
  if startsWith key callgentPrefix then headers
  else
    match rawHeaders.lookup key with
    | none => headers
    | some value => assignEntry headers key value

/-- The headers without those of the platform, in the order of their names. -/
def filterHeaders (rawHeaders : List (Text × Json)) : List (Text × Json) :=
  ((rawHeaders.map Prod.fst).mergeSort fun a b => decide (a ≤ b)).foldl
    (addHeader rawHeaders) []

/-- The properties of `Object.keys(v)`, with their values. -/
def properties (v : Option Json) : Except Thrown (List (Text × Json)) :=
  match v with
  | none | some .null =>
      .error (.typeError "Cannot convert undefined or null to object".toList)
  | some (.obj fields) => .ok fields
  | some _ => .ok []

/-- A property that may be undefined, in an object. -/
def optional (key : Text) (v : Option Json) : List (Text × Json) :=
  (v.map fun v => (key, v)).toList

/-- The url behind the callgent and the entry. -/
def urlSuffix (url0 : Text) : Text :=
  let idx := indexOfText url0 invokePath 0
  let idx := indexOfText url0 ['/'] (idx + 13)
  let idx := indexOfText url0 ['/'] (idx + 1)
  substr url0 idx

def req2Json (request : Json) : Except Thrown Json :=
  match (request.field "method".toList).filter Json.truthy with
  | none => .ok request
  | some method =>
      match request.field "url".toList with
      | none => .error (.readUndefined "indexOf".toList)
      | some (.str url0) =>
          if indexOfText url0 invokePath 0 < 0 then
            .error (.plain
              "Unsupported URL, should be /rest/invoke/:callgentId/:entry/*".toList)
          else
            match properties (request.field "headers".toList) with
            | .error e => .error e
            | .ok rawHeaders =>
                .ok (.obj ([("url".toList, .str (urlSuffix url0)),
                    ("method".toList, method),
                    ("headers".toList, .obj (filterHeaders rawHeaders))] ++
                  optional "params".toList (request.field "query".toList) ++
                  optional "data".toList (request.field "body".toList)))
      | some _ => .error (.typeError "url0.indexOf is not a function".toList)

def preprocessed (reqEvent : EventObject) : Except Thrown Json :=
  if reqEvent.context.req.truthy then req2Json reqEvent.context.req
  else
    .error (.badRequest
      ("Missing request object for ClientRequestEvent#".toList ++ reqEvent.id))

def preprocess (reqEvent : EventObject) : Effect sigma Thrown Json :=
  match preprocessed reqEvent with
  | .error e => throw e
  | .ok req => return req

/-! ## The request to a service -/

/-- What `axios.request` reads of its argument; a header is not sent when its
value is `undefined`. -/
structure AxiosConfig where
  url : Value
  method : Value
  headers : List (Text × Value)
  params : Value
  data : Value
  baseURL : Text
  withCredentials : Bool

structure AxiosResponse where
  data : Value
  headers : List (Text × Json)
  status : Int
  statusText : Text

/-- `{ ...v }`; only objects have properties here. -/
def spread (v : Option Json) : List (Text × Value) :=
  match v with
  | some (.obj fields) => fields.map fun entry => (entry.1, some entry.2)
  | _ => []

def axiosConfig (req : Json) (sen : EntryDto)
    (securityItem : Option RealmSecurityItem) : AxiosConfig where
  url := req.field "url".toList
  method := req.field "method".toList
  headers :=
    setEntry
      (setEntry (spread (req.field "headers".toList)) "host".toList none)
      "content-length".toList none
  params := req.field "params".toList
  data := req.field "data".toList
  baseURL := sen.host
  withCredentials := securityItem.isSome

def resp2json (resp : AxiosResponse) : Json :=
  let headers := resp.headers.foldl (fun headers entry =>
    let name := toLowerCase entry.1
    if name = "content-length".toList then headers
    else assignEntry headers name entry.2) []
  .obj (optional "data".toList resp.data ++
    [("headers".toList, .obj headers),
      ("status".toList, .num (.ofInt resp.status)),
      ("statusText".toList, .str resp.statusText)])

/-- The argument of `axios.request` in `invoke`. -/
def requestConfig (sen : Option EntryDto) (reqEvent : EventObject) :
    Except Thrown AxiosConfig :=
  match reqEvent.context.req, sen with
  | .null, _ => .error (readNull "headers".toList)
  | _, none => .error (readNull "host".toList)
  | req, some sen =>
      .ok (axiosConfig req sen reqEvent.context.securityItem)

/-- `invoke`: what is sent depends neither on the endpoint nor on the
arguments. -/
def invoke (axios : AxiosConfig -> Effect sigma Thrown AxiosResponse)
    (_fun : EndpointDto) (_args : Value) (sen : Option EntryDto)
    (reqEvent : EventObject) (_ctx : InvokeStatus) :
    Effect sigma Thrown (Option PendingOrResponse) :=
  match requestConfig sen reqEvent with
  | .error e => throw e
  | .ok config => do
      let resp ← axios config
      return some (.ofData (some (resp2json resp)))

def restAPIKey : Text := "restAPI".toList

end Entries
end CallgentApi
