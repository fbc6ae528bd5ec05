import CallgentApi.Agents.ArgHints

/-!
# The script of a task

The conversation of a task is made of its events.  Endpoints are chosen for
it, their arguments are confirmed, and the model writes a script that is
reviewed once.
-/

namespace CallgentApi
namespace Agents

open Js Event Effect Config

/-! ## The conversation of a task -/

/-- An event of the task: what has been requested and how it has ended. -/
structure Exchange where
  statusCode : Option Int
  context : Value
  message : Value

/-- The messages of the events, and the files that they mention. -/
structure History where
  messages : List LLMMessage
  files : List Json

/-- `{ statusCode: h.statusCode, message: h.message }` -/
def Exchange.status (h : Exchange) : Json :=
  .obj ((h.statusCode.map fun code =>
      ("statusCode".toList, Json.num (.ofInt code))).toList ++
    (h.message.map fun message => ("message".toList, message)).toList)

def Exchange.isOpen (h : Exchange) : Bool :=
  h.statusCode == some 1 || h.statusCode == some 2

/-- An event is asked by the user and answered, unless it is still open; errors
are left out. -/
def addExchange (pre : History) (h : Exchange) : Except Thrown History := do
  if h.statusCode.any (· < 0) then return pre
  let req ← read h.context "req"
  let files ← read req "files"
  let added ← if hasLength files then iterate files else pure []
  let resp ← read h.context "resp"
  let answered :=
    if h.isOpen then []
    else
      [⟨.assistant,
        some ((resp.filter Json.truthy).getD h.status).stringify⟩]
  return {
    messages := pre.messages ++ ⟨.user, req.map Json.stringify⟩ :: answered
    files := pre.files ++ added }

structure RequestEvent where
  id : Text
  paidBy : Text
  exchange : Exchange
  histories : List Exchange

def historyOf (reqEvent : RequestEvent) : Except Thrown History :=
  (reqEvent.histories ++ [reqEvent.exchange]).foldlM addExchange ⟨[], []⟩

/-! ## Scripts -/

/-- `packageJson && JSON.parse(packageJson)?.name` for the last of `size`
code blocks. -/
def validScripts (reader : JsonReader) (size : Nat) (gen : Value) :
    Except Thrown Bool := do
  let packageJson := (← iterate gen)[size - 1]?
  if !isTruthy packageJson then return false
  let parsed ← reader.parse (displayText packageJson)
  return isTruthy (parsed.field "name".toList)

def scriptQuestion (reader : JsonReader) (size : Nat) (topic : Topic) :
    Question where
  topic := topic
  parseType := .codeBlock
  parseSchema := .arr (List.replicate size .null)
  validate := validScripts reader size

structure Scripts where
  estimatedTime : Value
  mainTs : Value
  packageJson : Value

/-- What the user asks for when there is a script. -/
def refactor : LLMMessage where
  role := .user
  content := some ("- Review and fix bugs\n- simplify `resumingStates`\n" ++
    "- Double check batch processing\n- null check on params/responses\n" ++
    "- early return on any errors. since we'll retry execution if any " ++
    "errors, after fixing bugs based on the error message\n" ++
    "- avoid over design.\n\n" ++
    "Output clean, bug-free and robust code, and package.json").toList

section Talk

variable {omega : Type}

/-- `messages.push(message)`. -/
def push (message : LLMMessage) : Talk omega Unit :=
  modify fun c => { c with messages := c.messages ++ [message] }

/-- `_generateTaskScript`. -/
def generateTaskScript (t : Task omega) (endpoints : List (Option Endpoint))
    (purposes : List UsedEndpoint) (argsHints : List PurposeHints) :
    Talk omega Scripts := do
  let topic := Topic.generateTaskScript endpoints purposes argsHints
  let first ← ask t (scriptQuestion t.llm.reader 3 topic)
  let firstBlocks ← ofResult (iterate first)
  push refactor
  let second ← ask t (scriptQuestion t.llm.reader 2 topic)
  let blocks ← ofResult (iterate second)
  return ⟨firstBlocks[0]?, blocks[0]?, blocks[1]?⟩

structure Written where
  scripts : Scripts
  purposes : List UsedEndpoint
  argsHints : List PurposeHints

/-- `_map2Endpoints` from the choice of the endpoints to the script. -/
def writeScript (t : Task omega) (endpoints : List Endpoint) :
    Talk omega Written := do
  let (chosenEndpoints, purposes) ← chooseEndpoints t endpoints
  pop
  let argsHints ← confirmEndpointArgs t chosenEndpoints purposes
  pop
  let scripts ← generateTaskScript t chosenEndpoints purposes argsHints
  return ⟨scripts, purposes, argsHints⟩

/-- What answers the requests, and `installScriptFiles`. -/
structure ScriptHost (omega : Type) where
  llm : LlmHost TemplateArgs omega
  numbers : NumberReader
  installScriptFiles : RequestEvent -> Written -> Effect omega Thrown Unit

def taskOf (host : ScriptHost omega) (reqEvent : RequestEvent)
    (files : List Json) : Task omega where
  llm := host.llm
  numbers := host.numbers
  id := reqEvent.id
  paidBy := reqEvent.paidBy
  callgent := readSome reqEvent.exchange.context "callgent"
  files := files

def withMessages {a : Type} (messages : List LLMMessage) (x : Talk omega a) :
    Effect (LlmState TemplateArgs omega) Thrown a :=
  fun s => ((exec x ⟨s, messages⟩).1, (exec x ⟨s, messages⟩).2.llm)

def noEndpoints (reqEvent : RequestEvent) : Thrown :=
  .notFound ("No endpoints for mapping, ClientRequestEvent#".toList ++
    reqEvent.id)

/-- `_map2Endpoints`. -/
def map2Endpoints (host : ScriptHost omega) (reqEvent : RequestEvent)
    (endpoints : List Endpoint) :
    Effect (LlmState TemplateArgs omega) Thrown Unit := do
  let epName ← ofResult (read reqEvent.exchange.context "epName")
  if isTruthy epName then return
  if endpoints.isEmpty then throw (noEndpoints reqEvent)
  let history ← ofResult (historyOf reqEvent)
  let written ← withMessages history.messages
    (writeScript (taskOf host reqEvent history.files) endpoints)
  zoomOutside (host.installScriptFiles reqEvent written)

end Talk

end Agents
end CallgentApi
