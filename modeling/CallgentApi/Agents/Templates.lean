import CallgentApi.Lib.Loose
import CallgentApi.Agents.Chat
import CallgentApi.Config.ParseApis
import CallgentApi.Lib.Fallible

/-!
# What the script agent asks

The agent splits a request into purposes, chooses an endpoint for each of them
and asks where the arguments come from.  Each question has a template, an
example of the answer and a validator.
-/

namespace CallgentApi
namespace Agents

open Js Event Effect

/-! ## Endpoints and purposes -/

/-- Its name is the method and the path, with a space between them. -/
structure Endpoint where
  name : Text
  params : Value
  words : HasWords name

/-- An endpoint that was chosen for a purpose. -/
structure Candidate where
  epName : Value
  description : Value

structure Purpose where
  purposeKey : Value
  usedFor : Value
  needExternalAPI : Value
  candidateEndpoints : List Candidate

/-- An element of `usedEndpoints`. -/
structure UsedEndpoint where
  purposeKey : Value
  usedFor : Value
  epName : Value
  description : Value

/-- What is said of an argument: where it is retrieved or extracted from, and
how it is mapped. -/
structure ArgHint where
  argName : Value
  fromAPI : Value
  fromUser : Value
  mapping : Value

structure PurposeHints where
  purposeKey : Value
  args : List ArgHint

/-- A purpose for which an endpoint may be chosen once more. -/
structure OpenPurpose where
  usedFor : Value
  purposeKey : Value
  needExternalAPI : Text

/-- The names of arguments that are asked for again. -/
structure ReConfirm where
  purposeKey : Value
  args : List Value

/-- What a template is rendered with, besides the callgent and the files. -/
inductive Topic where
  | chooseEndpoints (endpoints : List Endpoint)
  | reChooseEndpoints (endpoints : List Endpoint)
      (purposes : List OpenPurpose)
  | confirmEndpoints (endpoints : List (Option Endpoint))
      (confirmedEndpoints : List UsedEndpoint) (optEndpoints : List Purpose)
  | confirmEndpointsArgs (endpoints : List (Option Endpoint))
      (purposes : List UsedEndpoint)
  | reConfirmEndpointsArgs (endpoints : List (Option Endpoint))
      (purposes : List UsedEndpoint) (reConfirmArgs : List ReConfirm)
  | generateTaskScript (endpoints : List (Option Endpoint))
      (purposes : List UsedEndpoint) (argsHints : List PurposeHints)

def Topic.template : Topic -> Text
  | chooseEndpoints _ => "chooseEndpoints".toList
  | reChooseEndpoints _ _ => "reChooseEndpoints".toList
  | confirmEndpoints _ _ _ => "confirmEndpoints".toList
  | confirmEndpointsArgs _ _ => "confirmEndpointsArgs".toList
  | reConfirmEndpointsArgs _ _ _ => "reConfirmEndpointsArgs".toList
  | generateTaskScript _ _ _ => "generateTaskScript".toList

structure TemplateArgs where
  callgent : Value
  files : List Json
  topic : Topic

/-! ## Questions -/

/-- A question of the agent, with the answers that it takes. -/
structure Question where
  topic : Topic
  parseType : ParseType
  parseSchema : Json
  validate : Value -> Except Thrown Bool

/-- The value has the shape of the example and passes the validator. -/
structure Question.Accepts (q : Question) (v : Value) : Prop where
  shape : q.parseType = .json -> checkJsonType q.parseSchema v = .ok ()
  valid : q.validate v = .ok true

/-- A validator that leaves the value as it is. -/
def Validator.of (f : Value -> Except Thrown Bool) : Validator where
  run v _ := (f v).map fun ok => (ok, v)
  primitive := by
    intro v v' i ok _ h
    cases hf : f v with
    | error e =>
        rw [hf] at h
        cases h
    | ok valid =>
        rw [hf] at h
        cases h
        rfl

/-- The request, and what is there to answer it. -/
structure Task (omega : Type) where
  llm : LlmHost TemplateArgs omega
  numbers : NumberReader
  id : Text
  paidBy : Text
  callgent : Value
  files : List Json

section Ask

variable {omega : Type}

abbrev Talk (omega a : Type) :=
  Effect (Conversation TemplateArgs omega) Thrown a

def Task.options (t : Task omega) (q : Question) : Options where
  models := none
  bizKey := t.id
  paidBy := t.paidBy
  parseType := q.parseType
  parseSchema := some q.parseSchema
  validate := some (Validator.of q.validate)

/-- `this.llmService.chat(…)`. -/
def ask (t : Task omega) (q : Question) : Talk omega Value :=
  chatOn t.llm q.topic.template ⟨t.callgent, t.files, q.topic⟩ (t.options q)

/-- `messages.pop()`. -/
def pop : Talk omega Unit :=
  modify fun c => { c with messages := c.messages.dropLast }

theorem chats_ask (t : Task omega) (q : Question)
    (c : Conversation TemplateArgs omega) :
    (exec (ask t q) c).2.llm.chats =
      c.llm.chats ++ [⟨q.topic.template, c.messages⟩] :=
  chats_chatOn _ c

end Ask

theorem checkJsonType_of_parse {reader : JsonReader} {schema : Json}
    (hschema : schema.truthy = true) {answer : Option Text} {v : Value}
    (h : parseResultSchema reader (some schema) .json answer = .ok v) :
    checkJsonType schema v = .ok () := by
  unfold parseResultSchema at h
  rw [show (some schema).filter Json.truthy = some schema from
    Option.filter_eq_some_iff.mpr ⟨rfl, hschema⟩] at h
  dsimp only at h
  cases htext : truthy answer with
  | none =>
      rw [htext] at h
      cases h
  | some text =>
      rw [htext] at h
      dsimp only at h
      rcases Fallible.exists_of_bind_ok h with ⟨ret, _, hret⟩
      rcases Fallible.exists_of_bind_ok hret with ⟨checked, hcheck, hv⟩
      cases hv
      exact hcheck

theorem accepts_of_ask {omega : Type} {t : Task omega} {q : Question}
    (hschema : q.parseSchema.truthy = true)
    {c next : Conversation TemplateArgs omega} {v : Value}
    (h : exec (ask t q) c = (.ok v, next)) :
    q.Accepts v ∧ exists answer,
      next.messages = c.messages ++ [⟨.assistant, answer⟩] := by
  rcases exists_answered_of_chatOn h with
    ⟨last, i, answer, hanswered, hmessages⟩
  rcases hanswered with ⟨_, _, _, _, parsed, _, _, _, _, hparse, hcheck⟩
  have hvalid : (q.validate parsed).map (fun ok => (ok, parsed)) =
      .ok (true, v) := hcheck
  cases hvalidate : q.validate parsed with
  | error e =>
      rw [hvalidate] at hvalid
      cases hvalid
  | ok ok =>
      rw [hvalidate] at hvalid
      cases hvalid
      constructor
      · constructor
        · intro htype
          apply checkJsonType_of_parse hschema
          rw [← htype]
          exact hparse
        · exact hvalidate
      · exact ⟨answer, hmessages⟩

/-! ## Reading answers -/

/-- `v.key`, for a name that no prototype has. -/
def read (v : Value) (key : String) : Except Thrown Value :=
  match v with
  | none => .error (.readUndefined key.toList)
  | some .null =>
      .error (refuses ("Cannot read properties of null (reading '" ++ key ++
        "')"))
  | some v => .ok (v.field key.toList)

/-- `!!v.length`. -/
def readLength (v : Value) : Except Thrown Bool := do
  let _ ← read v "length"
  return Config.hasLength v

/-- `v.every(f)`, where only arrays have the method. -/
def every (v : Value) (f : Json -> Except Thrown Bool) : Except Thrown Bool :=
  match v with
  | some (.arr items) => items.allM f
  | _ => .error (refuses "every is not a function")

theorem read_eq_field {v : Json} {key : String} {value : Value}
    (h : read (some v) key = .ok value) : value = v.field key.toList := by
  cases v with
  | null => cases h
  | bool b => cases h; rfl
  | num n => cases h; rfl
  | str s => cases h; rfl
  | arr items => cases h; rfl
  | obj fields => cases h; rfl

theorem read_eq_ok_iff {v : Value} {key : String} {value : Value} :
    read v key = .ok value <->
      exists w, v = some w ∧ w ≠ .null ∧ value = w.field key.toList := by
  constructor
  · intro h
    cases v with
    | none => cases h
    | some w =>
        refine ⟨w, rfl, ?_, read_eq_field h⟩
        intro hnull
        rw [hnull] at h
        cases h
  · intro h
    rcases h with ⟨w, hv, hw, hvalue⟩
    rw [hv, hvalue]
    cases w with
    | null => exact absurd rfl hw
    | bool b => rfl
    | num n => rfl
    | str s => rfl
    | arr items => rfl
    | obj fields => rfl

end Agents
end CallgentApi
