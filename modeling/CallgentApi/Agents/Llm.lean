import CallgentApi.Lib.Effect
import CallgentApi.Cached.Service
import CallgentApi.Agents.Answer

/-!
# `LLMService`

A query sends one prompt and may be answered from the cache; a chat sends a
conversation and adds the answer to it.  Both ask again, three times in all,
when what comes back is not what they expect.
-/

namespace CallgentApi
namespace Agents

open Js Event Effect

/-- One model, or a list of models to fall back on. -/
inductive Models where
  | one (model : Text)
  | many (models : List Text)
deriving DecidableEq

namespace Models

/-- `!!models`. -/
def truthy : Models -> Bool
  | one model => !model.isEmpty
  | many _ => true

/-- `for (const model of models)`; a text gives its characters. -/
def iterate : Models -> List Text
  | one model => model.map fun c => [c]
  | many models => models

/-- The models that a request with these names. -/
def list : Models -> List Text
  | one model => [model]
  | many models => models

end Models

inductive Role where
  | user
  | assistant
  | system
  | tool
deriving DecidableEq

structure LLMMessage where
  role : Role
  content : Option Text
deriving DecidableEq

inductive Input where
  | prompt (text : Text)
  | messages (messages : List LLMMessage)

structure LLMRequest where
  input : Input
  models : Models

/-- `message` is there in the answer to messages, `text` in that to a prompt. -/
structure Choice where
  text : Option Text
  message : Option LLMMessage

structure LLMResponse where
  model : Option Text
  choices : Option (List Choice)
  errorMessage : Option Text
  usage : Value

structure CacheRow where
  pk : Nat
  name : Text
  model : Text
  prompt : Text
  result : Text
deriving DecidableEq

structure CompletionContext where
  template : Text
  bizKey : Text

/-- A template that has been compiled; it is rendered with arguments. -/
abbrev RenderFunction (args : Type) := args -> Except Thrown Text

/-- The configuration, the template engine and what is called outside. -/
structure LlmHost (args omega : Type) where
  llmModels : Models
  /-- `LLM_CACHE_ENABLE`. -/
  cacheEnable : Bool
  reader : JsonReader
  dot : Text -> Except Thrown (RenderFunction args)
  /-- The listeners that a completion waits for, before it is sent. -/
  charge : Text -> Effect omega Thrown Unit
  fetch : LLMRequest -> Effect omega Thrown LLMResponse
  /-- The listeners that are told of the response and not waited for. -/
  billed : Text -> LLMResponse -> CompletionContext -> omega -> omega

/-- A call of `chat`. -/
structure ChatCall where
  template : Text
  messages : List LLMMessage

structure LlmState (args omega : Type) where
  /-- `this.templates`. -/
  templates : Text -> Option (RenderFunction args)
  llmTemplate : Text -> Option Text
  llmCache : List CacheRow
  nextPk : Nat
  /-- The rows that have been written, as they are logged. -/
  written : List CacheRow
  completions : List LLMRequest
  chats : List ChatCall
  outside : omega

section Service

variable {args omega : Type}

/-! ## Templates and completions -/

/-- `String(e)`. -/
def describe (e : Thrown) : Text :=
  (if e.isTypeError then "TypeError: ".toList else "Error: ".toList) ++
    e.message

/-- The compiled template, which is read and compiled once. -/
def templateOf (host : LlmHost args omega) (template : Text) :
    Effect (LlmState args omega) Thrown (RenderFunction args) := do
  let s ← get
  match s.templates template with
  | some tpl => return tpl
  | none =>
      match truthy (s.llmTemplate template) with
      | none =>
          throw (.plain ("LLM Template ".toList ++ template ++
            " not found".toList))
      | some tplStr =>
          match host.dot tplStr with
          | .error e => throw e
          | .ok tpl =>
              modify fun s =>
                { s with
                    templates := Function.update s.templates template
                      (some tpl) }
              return tpl

/-- `_prompt`. -/
def promptOf (host : LlmHost args omega) (template : Text) (a : args) :
    Effect (LlmState args omega) Thrown Text := do
  let tpl ← templateOf host template
  match tpl a with
  | .ok prompt => return prompt
  | .error e => throw (.plain (describe e))

def zoomOutside {b : Type} (x : Effect omega Thrown b) :
    Effect (LlmState args omega) Thrown b :=
  zoom LlmState.outside (fun s outside => { s with outside := outside }) x

/-- `_completion`. -/
def completion (host : LlmHost args omega) (req : LLMRequest) (paidBy : Text)
    (ctx : CompletionContext) :
    Effect (LlmState args omega) Thrown LLMResponse := do
  zoomOutside (host.charge paidBy)
  modify fun s => { s with completions := s.completions ++ [req] }
  let data ← zoomOutside (host.fetch req)
  modify fun s => { s with outside := host.billed paidBy data ctx s.outside }
  return data

/-! ## The cache -/

def cachePromptMaxLen : Nat := 8190

def CacheRow.fits (row : CacheRow) : Bool :=
  row.name.length ≤ 32 && row.model.length ≤ 127 &&
    row.prompt.length ≤ 8191 && row.result.length ≤ 8191

/-- `where: { prompt, model, name }`; a model that is undefined is left out. -/
def isCached (name : Text) (model : Option Text) (prompt : Text)
    (row : CacheRow) : Bool :=
  row.prompt == prompt && row.name == name &&
    match model with
    | some model => row.model == model
    | none => true

/-- `_llmCache`: reads without a result, else writes. -/
def llmCache (name : Text) (model : Option Text) (prompt : Text)
    (result : Option Text) :
    Effect (LlmState args omega) Thrown (Option CacheRow) := do
  if cachePromptMaxLen < units prompt then return none
  let ret := (← get).llmCache.find? (isCached name model prompt)
  match truthy result, ret, model with
  | none, ret, _ => return ret
  | some result, some found, _ =>
      let row := { found with result := result }
      if !row.fits then throw (Cached.databaseError "P2000".toList)
      modify fun s =>
        { s with
            llmCache := s.llmCache.map fun r =>
              if r.pk = found.pk then { r with result := result } else r
            written := s.written ++ [row] }
      return some row
  | some _, none, none => throw (Cached.databaseError "model".toList)
  | some result, none, some model =>
      let row : CacheRow := ⟨(← get).nextPk, name, model, prompt, result⟩
      if !row.fits then throw (Cached.databaseError "P2000".toList)
      modify fun s =>
        { s with
            llmCache := s.llmCache ++ [row]
            nextPk := s.nextPk + 1
            written := s.written ++ [row] }
      return some row

/-- The first model with a result that is not empty; the last model and its
result else. -/
def loadFirst (name prompt : Text) (found : Option Text × Option Text) :
    List Text -> Effect (LlmState args omega) Thrown (Option Text × Option Text)
  | [] => return found
  | llmModel :: rest => do
      let result := (← llmCache name (some llmModel) prompt none).map
        CacheRow.result
      if (truthy result).isSome then return (result, some llmModel)
      else loadFirst name prompt (result, some llmModel) rest

/-- `_llmCacheLoad`: the result and the model it is for. -/
def llmCacheLoad (host : LlmHost args omega) (name prompt : Text) :
    Effect (LlmState args omega) Thrown (Option Text × Option Text) :=
  if units prompt ≤ cachePromptMaxLen then
    loadFirst name prompt (none, none) host.llmModels.iterate
  else return (none, none)

/-! ## `query` -/

def isPrimitive : Value -> Bool
  | some (.arr _) => false
  | some (.obj _) => false
  | _ => true

/-- A check of a generated value, with the number of the try.  It may change
the value, if this is an array or an object. -/
structure Validator where
  run : Value -> Nat -> Except Thrown (Bool × Value)
  primitive : forall {v v' : Value} {i : Nat} {ok : Bool},
    isPrimitive v = true -> run v i = .ok (ok, v') -> v' = v

structure Options where
  models : Option Models
  bizKey : Text
  paidBy : Text
  parseType : ParseType
  parseSchema : Value
  validate : Option Validator

/-- `models || this.llmModels`. -/
def Options.asked (o : Options) (host : LlmHost args omega) : Models :=
  (o.models.filter Models.truthy).getD host.llmModels

/-- `!validate || validate(ret, i)`, with what becomes of `ret`. -/
def Options.check (o : Options) (ret : Value) (i : Nat) :
    Except Thrown (Bool × Value) :=
  match o.validate with
  | none => .ok (true, ret)
  | some v => v.run ret i

def Options.parse (o : Options) (host : LlmHost args omega)
    (llmResult : Option Text) (i : Nat) : Except Thrown (Bool × Value) := do
  let ret ← parseResultSchema host.reader o.parseSchema o.parseType llmResult
  o.check ret i

def unavailable (resp : LLMResponse) : Text :=
  "LLM service not available, error=".toList ++ interpolate resp.errorMessage

/-- `[llmModel, template, message]` in the text of an error. -/
def failedValidating (llmModel : Option Text) (template message : Text) :
    Thrown :=
  .plain ("Failed validating generated content, ".toList ++
    join ',' [llmModel.getD [], template, message])

/-- The variables of the loop of `query`. -/
structure QueryLoop where
  llmModel : Option Text
  llmResult : Option Text
  errorMessage : Text

/-- `${prompt}\n\nPlease retry …`. -/
def promptExt (prompt errorMessage : Text) : Text :=
  if errorMessage.isEmpty then prompt
  else
    prompt ++ "\n\nPlease retry as you just made a mistake: ".toList ++
      errorMessage

/-- The body of `try` in the loop of `query`: what it makes of the variables,
and the value with its validity, if nothing is thrown. -/
def queryOnce (host : LlmHost args omega) (template : Text) (o : Options)
    (prompt : Text) (cache : Option Text) (i : Nat) (vars : QueryLoop) :
    Effect (LlmState args omega) Thrown
      (QueryLoop × Except Thrown (Bool × Value)) :=
  if (truthy cache).isSome then
    return (vars, o.parse host vars.llmResult i)
  else do
    let req := ⟨.prompt (promptExt prompt vars.errorMessage), o.asked host⟩
    match ← settle (completion host req o.paidBy ⟨template, o.bizKey⟩) with
    | .error e => return (vars, .error e)
    | .ok resp =>
        let llmModel := (truthy resp.model).orElse fun _ => vars.llmModel
        match resp.choices.getD [] with
        | [] =>
            return (⟨llmModel, vars.llmResult, unavailable resp⟩,
              .ok (false, none))
        | choice :: _ =>
            return (⟨llmModel, choice.text, vars.errorMessage⟩,
              o.parse host choice.text i)

/-- The loop of `query` from the `i`-th try on, with `n` tries left; no value
when it is not valid. -/
def queryLoop (host : LlmHost args omega) (template : Text) (o : Options)
    (prompt : Text) (cache : Option Text) (i : Nat) :
    Nat -> QueryLoop ->
      Effect (LlmState args omega) Thrown (QueryLoop × Option Value)
  | 0, vars => return (vars, none)
  | n + 1, vars => do
      match ← queryOnce host template o prompt cache i vars with
      | (vars, .ok (true, ret)) => return (vars, some ret)
      | (vars, .ok (false, _)) => return (vars, none)
      | (vars, .error e) =>
          if e.status = some 402 then throw e
          queryLoop host template o prompt cache (i + 1) n
            { vars with errorMessage := e.message }

def queryStart (host : LlmHost args omega) (o : Options)
    (llmModel : Option Text) : QueryLoop where
  llmModel :=
    match o.asked host with
    | .one model => some model
    | .many _ => llmModel
  llmResult := some []
  errorMessage := []

/-- What the cache has for a prompt, where it is enabled. -/
def loadEnabled (host : LlmHost args omega) (template prompt : Text) :
    Effect (LlmState args omega) Thrown (Option Text × Option Text) :=
  if host.cacheEnable then llmCacheLoad host template prompt
  else return (none, none)

/-- `LLMService.query`. -/
def query (host : LlmHost args omega) (template : Text) (a : args)
    (o : Options) : Effect (LlmState args omega) Thrown Value := do
  let prompt ← promptOf host template a
  let (cache, llmModel) ← loadEnabled host template prompt
  let notCached := host.cacheEnable && (truthy cache).isNone
  match ← queryLoop host template o prompt cache 0 3
      (queryStart host o llmModel) with
  | (vars, none) =>
      throw (failedValidating vars.llmModel template vars.errorMessage)
  | (vars, some ret) =>
      if notCached then
        let _ ← llmCache template vars.llmModel prompt vars.llmResult
      return ret

/-! ## `chat` -/

/-- The variables of the loop of `chat`. -/
structure ChatLoop where
  messages : List LLMMessage
  llmModel : Option Text
  llmResult : Option Text

/-- The body of `try` in the loop of `chat`: the message of an answer that is
not valid, or the value. -/
def chatOnce (host : LlmHost args omega) (template : Text) (o : Options)
    (i : Nat) (vars : ChatLoop) :
    Effect (LlmState args omega) Thrown
      (ChatLoop × Except Thrown (Except Text Value)) := do
  let req := ⟨.messages vars.messages, o.asked host⟩
  match ← settle (completion host req o.paidBy ⟨template, o.bizKey⟩) with
  | .error e => return (vars, .error e)
  | .ok resp =>
      let vars :=
        { vars with
            llmModel := (truthy resp.model).orElse fun _ => vars.llmModel }
      match resp.choices.getD [] with
      | [] => return (vars, .ok (.error (unavailable resp)))
      | choice :: _ =>
          match choice.message with
          | none => return (vars, .error (.readUndefined "content".toList))
          | some message =>
              return ({ vars with llmResult := message.content },
                (o.parse host message.content i).map fun parsed =>
                  if parsed.1 then .ok parsed.2
                  else .error "Failed validating generated content".toList)

def regenerate (invalidMsg : Text) : LLMMessage where
  role := .user
  content := some (invalidMsg ++ "\n\nplease re-generate".toList)

/-- The loop of `chat`: the model and the answer with the value, or with the
message of what is wrong. -/
def chatLoop (host : LlmHost args omega) (template : Text) (o : Options)
    (i : Nat) (invalidMsg : Text) :
    Nat -> ChatLoop ->
      Effect (LlmState args omega) Thrown (ChatLoop × Except Text Value)
  | 0, vars => return (vars, .error invalidMsg)
  | n + 1, vars => do
      match ← chatOnce host template o i vars with
      | (vars, .ok result) => return (vars, result)
      | (vars, .error e) =>
          if e.status = some 402 then throw e
          let invalidMsg :=
            "There was a mistake in generated content:\n".toList ++ e.message
          chatLoop host template o (i + 1) invalidMsg n
            { vars with
                messages := vars.messages ++
                  [⟨.assistant, vars.llmResult⟩, regenerate invalidMsg] }

def notUser : Thrown :=
  .plain "Current message must be role=user".toList

/-- `LLMService.chat`: the value, and the conversation with the answer. -/
def chat (host : LlmHost args omega) (template : Text)
    (originalMessages : List LLMMessage) (a : args) (o : Options) :
    Effect (LlmState args omega) Thrown (Value × List LLMMessage) := do
  modify fun s =>
    { s with chats := s.chats ++ [⟨template, originalMessages⟩] }
  let prompt ← promptOf host template a
  let messages := ⟨.system, some prompt⟩ :: originalMessages
  if (messages.getLast?.map LLMMessage.role) ≠ some .user then throw notUser
  let llmModel :=
    match o.asked host with
    | .one model => model
    | .many _ => []
  match ← chatLoop host template o 0 [] 3 ⟨messages, some llmModel, some []⟩ with
  | (vars, .error invalidMsg) =>
      throw (failedValidating vars.llmModel template invalidMsg)
  | (vars, .ok ret) =>
      return (ret, originalMessages ++ [⟨.assistant, vars.llmResult⟩])

end Service

end Agents
end CallgentApi
