import CallgentApi.Agents.Reuse

/-!
# A conversation with the model

The caller's messages are changed once, when a chat returns; what is said to
the model about its mistakes stays in a copy of them.
-/

namespace CallgentApi
namespace Agents

open Js Event Effect

/-- The service, and the messages that the caller has given to it. -/
structure Conversation (args omega : Type) where
  llm : LlmState args omega
  messages : List LLMMessage

section Chat

variable {args omega : Type}

def onLlm {b : Type} (x : Effect (LlmState args omega) Thrown b) :
    Effect (Conversation args omega) Thrown b :=
  zoom Conversation.llm (fun c llm => { c with llm := llm }) x

/-- What follows the loop of `chat`. -/
def conclude (template : Text) : ChatLoop × Except Text Value ->
    Effect (Conversation args omega) Thrown Value
  | (vars, .error invalidMsg) =>
      throw (failedValidating vars.llmModel template invalidMsg)
  | (vars, .ok ret) => do
      modify fun c =>
        { c with
            messages := c.messages ++ [⟨.assistant, vars.llmResult⟩] }
      return ret

/-- `chat`, which adds the answer to the caller's messages. -/
def chatOn (host : LlmHost args omega) (template : Text) (a : args)
    (o : Options) : Effect (Conversation args omega) Thrown Value := do
  let originalMessages := (← get).messages
  onLlm (modify fun s =>
    { s with chats := s.chats ++ [⟨template, originalMessages⟩] })
  let prompt ← onLlm (promptOf host template a)
  let messages := ⟨.system, some prompt⟩ :: originalMessages
  if (messages.getLast?.map LLMMessage.role) ≠ some .user then throw notUser
  let llmModel :=
    match o.asked host with
    | .one model => model
    | .many _ => []
  let ended ← onLlm (chatLoop host template o 0 [] 3
    ⟨messages, some llmModel, some []⟩)
  conclude template ended

variable {host : LlmHost args omega} {template : Text} {o : Options}

/-! ## The completions of a chat -/

/-- A number of completions, one after the other, with the result of the
last. -/
inductive Completions (host : LlmHost args omega) (template : Text)
    (o : Options) : Nat -> LlmState args omega ->
      Option (Except Thrown LLMResponse) -> LlmState args omega -> Prop where
  | none (s : LlmState args omega) : Completions host template o 0 s none s
  | call {n : Nat} {s middle next : LlmState args omega} {req : LLMRequest}
      {result : Except Thrown LLMResponse}
      {last : Option (Except Thrown LLMResponse)}
      (first : exec (completion host req o.paidBy ⟨template, o.bizKey⟩) s =
        (result, middle))
      (rest : Completions host template o n middle last next) :
      Completions host template o (n + 1) s (last.or (some result)) next

/-- The value has been made, in the `i`-th try, of the answer in the result of
the last completion: it is parsed by the schema and passes the validator. -/
def Answered (host : LlmHost args omega) (o : Options)
    (last : Option (Except Thrown LLMResponse)) (i : Nat)
    (answer : Option Text) (v : Value) : Prop :=
  exists resp choice rest message parsed,
    last = some (.ok resp) ∧ resp.choices = some (choice :: rest) ∧
    choice.message = some message ∧ message.content = answer ∧
    parseResultSchema host.reader o.parseSchema o.parseType answer =
      .ok parsed ∧
    o.check parsed i = .ok (true, v)

theorem Answered.or {last : Option (Except Thrown LLMResponse)} {i : Nat}
    {answer : Option Text} {v : Value} (h : Answered host o last i answer v)
    (before : Option (Except Thrown LLMResponse)) :
    Answered host o (last.or before) i answer v := by
  rcases h with ⟨resp, choice, rest, message, parsed, hlast, hrest⟩
  exists resp, choice, rest, message, parsed
  constructor
  · rw [hlast]
    rfl
  · exact hrest

theorem exists_parsed_of_parse {answer : Option Text} {i : Nat} {v : Value}
    (h : o.parse host answer i = .ok (true, v)) :
    exists parsed,
      parseResultSchema host.reader o.parseSchema o.parseType answer =
        .ok parsed ∧
      o.check parsed i = .ok (true, v) := by
  unfold Options.parse at h
  cases hparse : parseResultSchema host.reader o.parseSchema o.parseType
      answer with
  | error e =>
      rw [hparse] at h
      cases h
  | ok parsed =>
      rw [hparse] at h
      exact ⟨parsed, rfl, h⟩

theorem parse_eq_of_map {answer : Option Text} {i : Nat} {v : Value}
    {invalid : Text}
    (h : (o.parse host answer i).map (fun parsed =>
        if parsed.1 then (.ok parsed.2 : Except Text Value)
        else .error invalid) = .ok (.ok v)) :
    o.parse host answer i = .ok (true, v) := by
  cases hparse : o.parse host answer i with
  | error e =>
      rw [hparse] at h
      cases h
  | ok parsed =>
      rcases parsed with ⟨valid, ret⟩
      rw [hparse] at h
      cases valid with
      | false => cases h
      | true =>
          cases h
          rfl

theorem exists_completion_of_chatOnce (host : LlmHost args omega)
    (template : Text) (o : Options) (i : Nat) (vars : ChatLoop)
    (s : LlmState args omega) :
    exists vars' result called next req,
      exec (chatOnce host template o i vars) s = (.ok (vars', result), next) ∧
      exec (completion host req o.paidBy ⟨template, o.bizKey⟩) s =
        (called, next) ∧
      forall v, result = .ok (.ok v) ->
        Answered host o (some called) i vars'.llmResult v := by
  let req : LLMRequest := ⟨.messages vars.messages, o.asked host⟩
  unfold chatOnce
  rw [exec_bind, exec_settle]
  cases hcall : exec (completion host req o.paidBy
      ⟨template, o.bizKey⟩) s with
  | mk called next =>
      cases called with
      | error e =>
          exists vars, .error e, .error e, next, req
          constructor
          · rfl
          constructor
          · exact hcall
          · intro v hv
            cases hv
      | ok resp =>
          dsimp only
          cases hchoices : resp.choices.getD [] with
          | nil =>
              refine ⟨_, _, _, next, req, rfl, hcall, ?_⟩
              intro v hv
              cases hv
          | cons choice rest =>
              have hsome : resp.choices = some (choice :: rest) := by
                cases hresp : resp.choices with
                | none =>
                    rw [hresp] at hchoices
                    cases hchoices
                | some choices =>
                    rw [hresp] at hchoices
                    exact congrArg some hchoices
              cases hmessage : choice.message with
              | none =>
                  dsimp only
                  rw [hmessage]
                  refine ⟨_, _, _, next, req, rfl, hcall, ?_⟩
                  intro v hv
                  cases hv
              | some message =>
                  dsimp only
                  rw [hmessage]
                  refine ⟨_, _, _, next, req, rfl, hcall, ?_⟩
                  intro v hv
                  rcases exists_parsed_of_parse
                    (parse_eq_of_map hv) with ⟨parsed, hparsed, hcheck⟩
                  exact ⟨resp, choice, rest, message, parsed, rfl, hsome,
                    hmessage, rfl, hparsed, hcheck⟩

theorem exists_completions_of_chatLoop (host : LlmHost args omega)
    (template : Text) (o : Options) (n i : Nat) (invalidMsg : Text)
    (vars : ChatLoop) (s : LlmState args omega) :
    exists k last, k ≤ n ∧
      Completions host template o k s last
        (exec (chatLoop host template o i invalidMsg n vars) s).2 ∧
      forall vars' v,
        (exec (chatLoop host template o i invalidMsg n vars) s).1 =
          .ok (vars', .ok v) ->
        exists j, i + k = j + 1 ∧ Answered host o last j vars'.llmResult v := by
  induction n generalizing i invalidMsg vars s with
  | zero =>
      exists 0, none
      constructor
      · exact Nat.le_refl _
      constructor
      · exact Completions.none s
      · intro vars' v hv
        cases hv
  | succ n ih =>
      rcases exists_completion_of_chatOnce host template o i vars s with
        ⟨once, result, called, middle, req, honce, hcall, hvalue⟩
      have hfirst : Completions host template o 1 s (some called) middle :=
        Completions.call hcall (Completions.none middle)
      unfold chatLoop
      rw [exec_bind_of_ok honce]
      cases result with
      | ok valid =>
          exists 1, some called
          constructor
          · exact Nat.succ_le_succ (Nat.zero_le n)
          constructor
          · exact hfirst
          · intro vars' v hv
            cases hv
            exact ⟨i, rfl, hvalue v rfl⟩
      | error e =>
          dsimp only
          split
          · exists 1, some called
            constructor
            · exact Nat.succ_le_succ (Nat.zero_le n)
            constructor
            · exact hfirst
            · intro vars' v hv
              cases hv
          · rcases ih (i + 1) _ _ middle with ⟨k, last, hle, hrest, hlast⟩
            exists k + 1, last.or (some called)
            constructor
            · exact Nat.succ_le_succ hle
            constructor
            · exact Completions.call hcall hrest
            · intro vars' v hv
              rcases hlast vars' v hv with ⟨j, hj, hanswered⟩
              exists j
              constructor
              · omega
              · exact hanswered.or _

/-! ## The messages of the caller -/

theorem exec_onLlm {b : Type} (x : Effect (LlmState args omega) Thrown b)
    (c : Conversation args omega) :
    exec (onLlm x) c =
      ((exec x c.llm).1, { c with llm := (exec x c.llm).2 }) := rfl

theorem exec_chatOn (host : LlmHost args omega) (template : Text) (a : args)
    (o : Options) (c : Conversation args omega) :
    exec (chatOn host template a o) c =
      match exec (chat host template c.messages a o) c.llm with
      | (.ok (ret, messages), llm) => (.ok ret, ⟨llm, messages⟩)
      | (.error e, llm) => (.error e, ⟨llm, c.messages⟩) := by
  unfold chatOn chat
  rw [exec_bind_of_ok (exec_get c), exec_bind_of_ok (exec_modify _ c.llm)]
  dsimp only
  rw [exec_bind, exec_onLlm, exec_modify]
  dsimp only
  rw [exec_bind, exec_onLlm, exec_bind]
  dsimp only
  cases exec (promptOf host template a) { c.llm with
      chats := c.llm.chats ++ [⟨template, c.messages⟩] } with
  | mk rendered ready =>
      cases rendered with
      | error e => rfl
      | ok prompt =>
          dsimp only
          split
          · rfl
          · rw [exec_bind, exec_onLlm, exec_bind]
            dsimp only
            generalize exec (chatLoop host template o 0 [] 3 _) ready = looped
            rcases looped with ⟨ended, next⟩
            cases ended with
            | error e => rfl
            | ok ended =>
                rcases ended with ⟨vars, valid⟩
                cases valid with
                | error invalidMsg => rfl
                | ok ret => rfl

/-- How a chat ends that starts with the conversation `c`: it has made three
completions at most, once the prompt was `ready`; when it returns, the value
has been made of the last answer, which has been added to the messages; when
it throws, the messages are the same. -/
structure Outcome (host : LlmHost args omega) (template : Text) (o : Options)
    (c : Conversation args omega) (result : Except Thrown Value)
    (next : Conversation args omega) (ready : LlmState args omega) (n : Nat)
    (last : Option (Except Thrown LLMResponse)) : Prop where
  completions : ready.completions = c.llm.completions
  outside : ready.outside = c.llm.outside
  three : n ≤ 3
  calls : Completions host template o n ready last next.llm
  returns : forall v, result = .ok v ->
    exists i answer, n = i + 1 ∧ Answered host o last i answer v ∧
      next.messages = c.messages ++ [⟨.assistant, answer⟩]
  throws : forall e, result = .error e -> next.messages = c.messages

theorem Outcome.uncalled {c next : Conversation args omega} (e : Thrown)
    (hcompletions : next.llm.completions = c.llm.completions)
    (houtside : next.llm.outside = c.llm.outside)
    (hmessages : next.messages = c.messages) :
    Outcome host template o c (.error e) next next.llm 0 none := by
  constructor
  · exact hcompletions
  · exact houtside
  · exact Nat.zero_le 3
  · exact Completions.none next.llm
  · intro v hv
    cases hv
  · intro _ _
    exact hmessages

theorem exists_outcome_of_loop {c : Conversation args omega}
    {ready : LlmState args omega}
    (hcompletions : ready.completions = c.llm.completions)
    (houtside : ready.outside = c.llm.outside) (vars : ChatLoop) :
    exists n last,
      Outcome host template o c
        (exec (onLlm (chatLoop host template o 0 [] 3 vars) >>=
          conclude template) { c with llm := ready }).1
        (exec (onLlm (chatLoop host template o 0 [] 3 vars) >>=
          conclude template) { c with llm := ready }).2 ready n last := by
  rcases exists_completions_of_chatLoop host template o 3 0 [] vars ready with
    ⟨n, last, hthree, hcalls, hvalue⟩
  exists n, last
  rw [exec_bind, exec_onLlm]
  cases hloop : exec (chatLoop host template o 0 [] 3 vars) ready with
  | mk looped next =>
      rw [hloop] at hcalls hvalue
      cases looped with
      | error e =>
          refine ⟨hcompletions, houtside, hthree, hcalls, ?_, ?_⟩
          · intro v hv
            cases hv
          · intro _ _
            rfl
      | ok ended =>
          rcases ended with ⟨vars', valid⟩
          cases valid with
          | error invalidMsg =>
              refine ⟨hcompletions, houtside, hthree, hcalls, ?_, ?_⟩
              · intro v hv
                cases hv
              · intro _ _
                rfl
          | ok ret =>
              rcases hvalue vars' ret rfl with ⟨i, hi, hanswered⟩
              refine ⟨hcompletions, houtside, hthree, hcalls, ?_, ?_⟩
              · intro v hv
                cases hv
                exists i, vars'.llmResult
                constructor
                · omega
                constructor
                · exact hanswered
                · rfl
              · intro e he
                cases he

theorem chat_outcome (host : LlmHost args omega) (template : Text) (a : args)
    (o : Options) (c : Conversation args omega) :
    exists ready n last,
      Outcome host template o c (exec (chatOn host template a o) c).1
        (exec (chatOn host template a o) c).2 ready n last := by
  unfold chatOn
  rw [exec_bind_of_ok (exec_get c)]
  let started : LlmState args omega :=
    { c.llm with chats := c.llm.chats ++ [⟨template, c.messages⟩] }
  have hstarted : exec (onLlm (modify fun s : LlmState args omega =>
      { s with chats := s.chats ++ [⟨template, c.messages⟩] })) c =
      (.ok (), { c with llm := started }) := rfl
  dsimp only
  rw [exec_bind_of_ok hstarted, exec_bind, exec_onLlm]
  cases hprompt : exec (promptOf host template a) started with
  | mk rendered ready =>
      have hcompletions : ready.completions = c.llm.completions := by
        have hkeeps : Keeps LlmState.completions (promptOf host template a) :=
          keeps_promptOf (fun _ _ => rfl) template a
        exact (congrArg _ (congrArg Prod.snd hprompt)).symm.trans
          (hkeeps started)
      have houtside : ready.outside = c.llm.outside := by
        have hkeeps : Keeps LlmState.outside (promptOf host template a) :=
          keeps_promptOf (fun _ _ => rfl) template a
        exact (congrArg _ (congrArg Prod.snd hprompt)).symm.trans
          (hkeeps started)
      cases rendered with
      | error e =>
          exact ⟨ready, 0, none, Outcome.uncalled e hcompletions houtside rfl⟩
      | ok prompt =>
          dsimp only
          split
          · exact ⟨ready, 0, none,
              Outcome.uncalled notUser hcompletions houtside rfl⟩
          · exact ⟨ready, exists_outcome_of_loop hcompletions houtside _⟩

theorem exists_answered_of_chatOn {a : args} {c next : Conversation args omega}
    {v : Value} (h : exec (chatOn host template a o) c = (.ok v, next)) :
    exists last i answer, Answered host o last i answer v ∧
      next.messages = c.messages ++ [⟨.assistant, answer⟩] := by
  unfold chatOn at h
  rw [exec_bind_of_ok (exec_get c)] at h
  rcases exec_bind_eq_ok h with ⟨_, started, hstarted, h⟩
  cases hstarted
  rcases exec_bind_eq_ok h with ⟨prompt, prompted, hprompt, h⟩
  rw [exec_onLlm] at hprompt
  have hmessages : prompted.messages = c.messages :=
    (congrArg (fun ended => ended.2.messages) hprompt).symm
  dsimp only at h
  split at h
  · cases h
  · rcases exists_outcome_of_loop
      (rfl : prompted.llm.completions = prompted.llm.completions) rfl _ with
      ⟨n, last, houtcome⟩
    have hloop := h
    rw [show prompted = { prompted with llm := prompted.llm } from rfl]
      at hloop
    rw [hloop] at houtcome
    rcases houtcome.returns v rfl with ⟨i, answer, _, hanswered, hnext⟩
    rw [hmessages] at hnext
    exact ⟨last, i, answer, hanswered, hnext⟩

/-! ## The log of the chats -/

theorem keeps_chats_chatOnce (i : Nat) (vars : ChatLoop) :
    Keeps LlmState.chats (chatOnce host template o i vars) := by
  unfold chatOnce
  apply Keeps.bind (Keeps.settle (keeps_completion (fun _ _ _ => rfl) _ _ _))
  intro result
  cases result with
  | error e => exact Keeps.pure _
  | ok resp =>
      dsimp only
      split
      · exact Keeps.pure _
      · split
        · exact Keeps.pure _
        · exact Keeps.pure _

theorem keeps_chats_chatLoop (n i : Nat) (invalidMsg : Text)
    (vars : ChatLoop) :
    Keeps LlmState.chats (chatLoop host template o i invalidMsg n vars) := by
  induction n generalizing i invalidMsg vars with
  | zero => exact Keeps.pure _
  | succ n ih =>
      unfold chatLoop
      apply Keeps.bind (keeps_chats_chatOnce i vars)
      intro once
      rcases once with ⟨vars', result⟩
      cases result with
      | ok valid => exact Keeps.pure _
      | error e =>
          dsimp only
          split
          · exact Keeps.throw e
          · exact ih _ _ _

theorem keeps_onLlm {t b : Type} {f : LlmState args omega -> t}
    {x : Effect (LlmState args omega) Thrown b} (hx : Keeps f x) :
    Keeps (fun c : Conversation args omega => f c.llm) (onLlm x) :=
  fun c => hx c.llm

theorem chats_chatOn (a : args) (c : Conversation args omega) :
    (exec (chatOn host template a o) c).2.llm.chats =
      c.llm.chats ++ [⟨template, c.messages⟩] := by
  unfold chatOn
  rw [exec_bind_of_ok (exec_get c)]
  let started : LlmState args omega :=
    { c.llm with chats := c.llm.chats ++ [⟨template, c.messages⟩] }
  have hstarted : exec (onLlm (modify fun s : LlmState args omega =>
      { s with chats := s.chats ++ [⟨template, c.messages⟩] })) c =
      (.ok (), { c with llm := started }) := rfl
  dsimp only
  rw [exec_bind_of_ok hstarted]
  refine Keeps.bind_at (f := fun c : Conversation args omega => c.llm.chats)
    (keeps_onLlm (keeps_promptOf (fun _ _ => rfl) template a) _) ?_
  intro prompt ready _
  split
  · rfl
  · refine Keeps.bind_at (f := fun c : Conversation args omega => c.llm.chats)
      (keeps_onLlm (keeps_chats_chatLoop 3 0 [] _) _) ?_
    intro ended next _
    rcases ended with ⟨vars, result⟩
    cases result with
    | error invalidMsg => rfl
    | ok ret => rfl

end Chat
end Agents
end CallgentApi
