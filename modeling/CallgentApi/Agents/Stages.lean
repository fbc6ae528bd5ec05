import CallgentApi.Agents.ArgHints
import CallgentApi.Agents.Candidates
import CallgentApi.Lib.Transition

/-!
# The questions, one after the other

The agent is a machine that goes from one question to the next with every
answer that is accepted, until it ends with the hints or with an error.
-/

namespace CallgentApi
namespace Agents

open Js Event Effect Config

/-! ## Stages -/

/-- What the agent knows when it asks a question, or how it has ended. -/
inductive Stage where
  | choose (endpoints : List Endpoint)
  | reChoose (endpoints : List Endpoint) (purposes0 : List Json)
  | confirm (choices : Choices) (grouped : Groups)
  | args (endpoints : List (Option Endpoint)) (purposes : List UsedEndpoint)
  | reConfirm (endpoints : List (Option Endpoint))
      (purposes : List UsedEndpoint) (argsHints : List PurposeHints)
      (again : List ReConfirm)
  | ended (result : Except Thrown (List PurposeHints))

namespace Stage

def question (numbers : NumberReader) : Stage -> Option Question
  | choose endpoints => some (chooseQuestion numbers endpoints)
  | reChoose endpoints purposes0 =>
      some (reChooseQuestion numbers
        (leftEndpoints numbers endpoints purposes0) purposes0)
  | confirm choices grouped =>
      some (confirmQuestion numbers (valuesOf choices.epsMap)
        (grouped.single.map confirmedEndpoint) grouped.double)
  | args endpoints purposes => some (argsQuestion numbers endpoints purposes)
  | reConfirm endpoints purposes _ again =>
      some (reConfirmQuestion numbers endpoints purposes again)
  | ended _ => none

def orEnd (next : Except Thrown Stage) : Stage :=
  match next with
  | .ok stage => stage
  | .error e => ended (.error e)

def chosen (numbers : NumberReader) (choices : Choices)
    (purposes : List UsedEndpoint) : Stage :=
  args (chosenEndpoints numbers choices.epsMap purposes) purposes

/-- The endpoints are confirmed where a purpose has two candidates. -/
def afterChoices (numbers : NumberReader) (endpoints : List Endpoint)
    (purposes0 : List Json) (answer : Value) : Except Thrown Stage := do
  let purposes1 ← purposesOf answer
  let choices ← mergeChoices numbers endpoints purposes0 purposes1
  let grouped ← possibleGroups (valuesOf choices.purposesSet)
  if grouped.double.isEmpty then
    return chosen numbers choices (grouped.single.map confirmedEndpoint)
  else return confirm choices grouped

def afterHints (endpoints : List (Option Endpoint))
    (purposes : List UsedEndpoint) (answer : Value) : Except Thrown Stage := do
  let argsHints ← readHints answer
  let again ← reConfirmArgs argsHints
  if again.isEmpty then return ended (clearHints argsHints)
  else return reConfirm endpoints purposes argsHints again

/-- The stage after an answer that has been accepted. -/
def next (numbers : NumberReader) : Stage -> Value -> Stage
  | choose endpoints, answer =>
      orEnd (do return reChoose endpoints (← purposesOf answer))
  | reChoose endpoints purposes0, answer =>
      orEnd (afterChoices numbers endpoints purposes0 answer)
  | confirm choices _, answer =>
      chosen numbers choices (usedEndpointsOf answer)
  | args endpoints purposes, answer =>
      orEnd (afterHints endpoints purposes answer)
  | reConfirm _ _ argsHints _, answer =>
      ended (trustHints numbers argsHints answer >>= clearHints)
  | ended result, _ => ended result

end Stage

def Question.accepts (q : Question) (answer : Value) : Bool :=
  (q.parseType != .json ||
      (checkJsonType q.parseSchema answer).isOk) &&
    (q.validate answer).toOption == some true

theorem Question.accepts_iff {q : Question} {answer : Value} :
    q.accepts answer = true <-> q.Accepts answer := by
  have hshape : (q.parseType != .json ||
      (checkJsonType q.parseSchema answer).isOk) = true <->
      (q.parseType = .json ->
        checkJsonType q.parseSchema answer = .ok ()) := by
    cases q.parseType with
    | codeBlock =>
        apply iff_of_true rfl
        intro h
        cases h
    | json =>
        cases checkJsonType q.parseSchema answer with
        | ok value => exact iff_of_true rfl fun _ => rfl
        | error e =>
            apply iff_of_false Bool.false_ne_true
            intro h
            cases h rfl
  have hvalid : ((q.validate answer).toOption == some true) = true <->
      q.validate answer = .ok true := by
    rw [beq_iff_eq]
    cases q.validate answer with
    | ok valid =>
        constructor
        · intro h
          rw [Option.some.inj h]
        · intro h
          rw [Except.ok.inj h]
          rfl
    | error e =>
        constructor
        · intro h
          cases h
        · intro h
          cases h
  unfold Question.accepts
  rw [Bool.and_eq_true_iff, hshape, hvalid]
  constructor
  · intro h
    exact ⟨h.left, h.right⟩
  · intro h
    exact ⟨h.shape, h.valid⟩

/-- An accepted answer leads to the next stage. -/
def Stage.step (numbers : NumberReader) (stage : Stage) (answer : Value) :
    Option Stage :=
  match stage.question numbers with
  | none => none
  | some q =>
      if q.accepts answer then some (stage.next numbers answer) else none

theorem step_of_accepts {numbers : NumberReader} {stage : Stage} {q : Question}
    {answer : Value} (hq : stage.question numbers = some q)
    (h : q.Accepts answer) :
    stage.step numbers answer = some (stage.next numbers answer) := by
  unfold Stage.step
  rw [hq]
  exact if_pos (Question.accepts_iff.mpr h)

/-! ## The talk goes through the stages -/

section Talk

variable {omega : Type}

/-- `chooseEndpoints` and `confirmEndpointArgs`, as they follow each other in
`_map2Endpoints`. -/
def confirmArguments (t : Task omega) (endpoints : List Endpoint) :
    Talk omega (List PurposeHints) := do
  let (chosenEndpoints, purposes) ← chooseEndpoints t endpoints
  pop
  confirmEndpointArgs t chosenEndpoints purposes

structure Asked where
  question : Question
  messages : List LLMMessage
  answer : Value

def Asked.call (asked : Asked) : ChatCall where
  template := asked.question.topic.template
  messages := asked.messages

def popped : Nat -> Conversation TemplateArgs omega ->
    Conversation TemplateArgs omega
  | 0, c => c
  | n + 1, c => popped n ⟨c.llm, c.messages.dropLast⟩

@[simp] theorem llm_popped (n : Nat) (c : Conversation TemplateArgs omega) :
    (popped n c).llm = c.llm := by
  induction n generalizing c with
  | zero => rfl
  | succ n ih => exact ih _

/-- How often `messages.pop()` is called after the answer of a stage. -/
def Stage.popsAfter : Stage -> Nat
  | choose _ => 1
  | reChoose _ _ => 1
  | _ => 0

def Stage.popsBefore : Stage -> Nat
  | args _ _ => 1
  | reConfirm _ _ _ _ => 1
  | _ => 0

/-- The chats of a talk, from one stage and conversation to others: each asks
the question of its stage on the messages that are left. -/
inductive Talks (t : Task omega) : Stage ->
    Conversation TemplateArgs omega -> List Asked -> Stage ->
      Conversation TemplateArgs omega -> Prop where
  | nil (stage : Stage) (c : Conversation TemplateArgs omega) :
      Talks t stage c [] stage c
  | cons {stage next last : Stage}
      {c mid d : Conversation TemplateArgs omega} {q : Question}
      {answer : Value} {asked : List Asked}
      (hq : stage.question t.numbers = some q)
      (hask : exec (ask t q) c = (.ok answer, mid))
      (hstep : stage.step t.numbers answer = some next)
      (hrest : Talks t next
        (popped (next.popsBefore + stage.popsAfter) mid) asked last d) :
      Talks t stage c (⟨q, c.messages, answer⟩ :: asked) last d

/-- The talk has ended with the result of the stage and without another chat,
or with an error of the chat that should have answered its question. -/
inductive EndsAt (t : Task omega) : Stage ->
    Conversation TemplateArgs omega ->
    Except Thrown (List PurposeHints) × Conversation TemplateArgs omega ->
      Prop where
  | ended {result : Except Thrown (List PurposeHints)}
      {c next : Conversation TemplateArgs omega} (hllm : next.llm = c.llm) :
      EndsAt t (.ended result) c (result, next)
  | failed {stage : Stage} {q : Question} {e : Thrown}
      {c next : Conversation TemplateArgs omega}
      (hq : stage.question t.numbers = some q)
      (hask : exec (ask t q) c = (.error e, next)) :
      EndsAt t stage c (.error e, next)

/-- From any conversation, the chats of the talk are those of a run from the
stage; `n` messages are still to be taken away. -/
def Follows (t : Task omega) (stage : Stage) (n : Nat)
    (x : Talk omega (List PurposeHints)) : Prop :=
  forall c, exists asked last d,
    Talks t stage (popped n c) asked last d ∧ EndsAt t last d (exec x c)

variable {t : Task omega} {stage : Stage}

theorem run_of_talks {last : Stage}
    {c d : Conversation TemplateArgs omega} {asked : List Asked}
    (h : Talks t stage c asked last d) :
    Transition.run (Stage.step t.numbers) stage (asked.map Asked.answer) =
      some last := by
  induction h with
  | nil stage c => rfl
  | cons hq hask hstep hrest ih =>
      rw [List.map_cons, Transition.run, hstep]
      exact ih

theorem chats_of_talks {last : Stage}
    {c d : Conversation TemplateArgs omega} {asked : List Asked}
    (h : Talks t stage c asked last d) :
    d.llm.chats = c.llm.chats ++ asked.map Asked.call := by
  induction h with
  | nil stage c => exact (List.append_nil _).symm
  | cons hq hask hstep hrest ih =>
      rename_i next last c mid d q answer asked
      have hlogged := chats_ask t q c
      rw [hask] at hlogged
      rw [ih, llm_popped, hlogged, List.append_assoc]
      rfl

theorem follows_ended (result : Except Thrown (List PurposeHints)) (n : Nat) :
    Follows t (.ended result) n (ofResult result) :=
  fun c => ⟨[], _, _, .nil _ _, .ended (llm_popped n c).symm⟩

theorem Follows.pop {n : Nat} {x : Talk omega (List PurposeHints)}
    (h : Follows t stage n x) : Follows t stage (n + 1) (pop >>= fun _ => x) :=
  fun c => h ⟨c.llm, c.messages.dropLast⟩

theorem follows_ask {q : Question} {k : Value -> Talk omega (List PurposeHints)}
    (hq : stage.question t.numbers = some q)
    (hschema : q.parseSchema.truthy = true)
    (hk : forall answer, q.Accepts answer ->
      Follows t (stage.next t.numbers answer)
        ((stage.next t.numbers answer).popsBefore + stage.popsAfter)
        (k answer)) :
    Follows t stage 0 (ask t q >>= k) := by
  intro c
  cases hexec : exec (ask t q) c with
  | mk result mid =>
      cases result with
      | error e =>
          refine ⟨[], stage, c, .nil _ _, ?_⟩
          rw [exec_bind_of_error hexec]
          exact .failed hq hexec
      | ok answer =>
          have haccepts := (accepts_of_ask hschema hexec).left
          rcases hk answer haccepts mid with ⟨asked, last, d, htalks, hends⟩
          refine ⟨_, last, d,
            .cons hq hexec (step_of_accepts hq haccepts) htalks, ?_⟩
          rw [exec_bind_of_ok hexec]
          exact hends

theorem ofResult_bind {s e a b : Type} (x : Except e a)
    (f : a -> Except e b) :
    (ofResult x >>= fun value => ofResult (f value) : Effect s e b) =
      ofResult (x >>= f) := by
  cases x with
  | error error => rfl
  | ok value => rfl

theorem follows_ofResult {a : Type} {x : Except Thrown a}
    {f : a -> Except Thrown Stage} {k : a -> Talk omega (List PurposeHints)}
    (pops : Stage -> Nat)
    (hk : forall value, Follows t (.orEnd (f value)) (pops (.orEnd (f value)))
      (k value)) :
    Follows t (.orEnd (x >>= f)) (pops (.orEnd (x >>= f)))
      (ofResult x >>= k) := by
  cases x with
  | error e =>
      intro c
      exact ⟨[], _, _, .nil _ _, .ended (llm_popped _ c).symm⟩
  | ok value => exact hk value

theorem follows_confirmEndpointArgs (endpoints : List (Option Endpoint))
    (purposes : List UsedEndpoint) :
    Follows t (.args endpoints purposes) 0
      (confirmEndpointArgs t endpoints purposes) := by
  unfold confirmEndpointArgs
  apply follows_ask rfl rfl
  intro answer _
  unfold Stage.next Stage.afterHints confirmAgain
  apply follows_ofResult fun next => next.popsBefore + 0
  intro argsHints
  rw [bind_assoc]
  apply follows_ofResult fun next => next.popsBefore + 0
  intro again
  split
  · exact follows_ended (clearHints argsHints) _
  · rw [bind_assoc]
    apply Follows.pop
    rw [bind_assoc]
    apply follows_ask rfl rfl
    intro answer1 _
    rw [ofResult_bind]
    exact follows_ended
      (trustHints t.numbers argsHints answer1 >>= clearHints) _

/-- Every talk is a run of the machine: its chats ask the questions of the
stages on the messages that the chats before have left. -/
theorem follows_confirmArguments (endpoints : List Endpoint) :
    Follows t (.choose endpoints) 0 (confirmArguments t endpoints) := by
  unfold confirmArguments chooseEndpoints choose chooseEndpointsOnce
    reChooseEndpoints confirmEndpoints
  simp only [bind_assoc]
  apply follows_ask rfl rfl
  intro answer0 _
  unfold Stage.next
  apply follows_ofResult fun next => next.popsBefore + 1
  intro purposes0
  apply Follows.pop
  apply follows_ask rfl rfl
  intro answer1 _
  unfold Stage.next Stage.afterChoices
  apply follows_ofResult fun next => next.popsBefore + 1
  intro purposes1
  apply follows_ofResult fun next => next.popsBefore + 1
  intro choices
  apply Follows.pop
  simp only [pure_bind]
  apply follows_ofResult fun next => next.popsBefore
  intro grouped
  split
  · rw [pure_bind]
    apply Follows.pop
    exact follows_confirmEndpointArgs _ _
  · rw [bind_assoc]
    apply follows_ask rfl rfl
    intro answer2 _
    simp only [pure_bind]
    apply Follows.pop
    exact follows_confirmEndpointArgs _ _

end Talk

end Agents
end CallgentApi
