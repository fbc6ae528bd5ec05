import Mathlib.Data.List.Infix
import CallgentApi.Agents.Script
import CallgentApi.Agents.Confirmed

/-!
# The messages of a talk

Every chat is logged with the messages that it is called with.  A chat adds
one message and its caller takes one away; this is right only where the chat
has been called.
-/

namespace CallgentApi
namespace Agents

open Js Event Effect Config

/-! ## Chats are logged -/

section Talk

variable {omega a b : Type}

def Logs (c next : Conversation TemplateArgs omega) : Prop :=
  c.llm.chats <+: next.llm.chats

theorem Logs.trans (first second third : Conversation TemplateArgs omega)
    (h : Logs first second) (h' : Logs second third) : Logs first third :=
  List.IsPrefix.trans h h'

theorem logs_of_keeps {x : Talk omega a}
    (h : Keeps (fun c => c.llm.chats) x) : Along Logs x := by
  have hrel : forall c next : Conversation TemplateArgs omega,
      next.llm.chats = c.llm.chats -> Logs c next := by
    intro c next heq
    unfold Logs
    rw [heq]
  exact Along.of_keeps hrel h

theorem logs_ask (t : Task omega) (q : Question) : Along Logs (ask t q) := by
  intro c
  unfold Logs
  rw [chats_ask]
  exact List.prefix_append _ _

theorem logs_pop : Along Logs (pop : Talk omega Unit) :=
  logs_of_keeps fun _ => rfl

theorem logs_push (message : LLMMessage) :
    Along Logs (push message : Talk omega Unit) :=
  logs_of_keeps fun _ => rfl

theorem logs_ofResult (x : Except Thrown a) :
    Along Logs (ofResult x : Talk omega a) :=
  logs_of_keeps fun _ => rfl

theorem logs_pure (value : a) : Along Logs (pure value : Talk omega a) :=
  logs_of_keeps fun _ => rfl

theorem logs_bind {x : Talk omega a} {k : a -> Talk omega b}
    (hx : Along Logs x) (hk : forall value, Along Logs (k value)) :
    Along Logs (x >>= k) :=
  Along.bind Logs.trans hx hk

/-! ## The conversation is kept -/

def EndsWithUser (messages : List LLMMessage) : Prop :=
  messages.getLast?.map LLMMessage.role = some .user

/-- A chat that is called with all messages of the conversation, the last of
them from the user. -/
structure Holds (base : List LLMMessage) (call : ChatCall) : Prop where
  all : base.Sublist call.messages
  user : EndsWithUser call.messages

/-- Since the log was `start`, every chat has been called so. -/
def Logged (start : List ChatCall) (base : List LLMMessage)
    (c : Conversation TemplateArgs omega) : Prop :=
  exists calls, c.llm.chats = start ++ calls ∧
    forall call, call ∈ calls -> Holds base call

structure At (start : List ChatCall) (base messages : List LLMMessage)
    (c : Conversation TemplateArgs omega) : Prop where
  logged : Logged start base c
  messages_eq : c.messages = messages

structure Replied (start : List ChatCall) (base messages : List LLMMessage)
    (c : Conversation TemplateArgs omega) : Prop where
  logged : Logged start base c
  answer : exists answer, c.messages = messages ++ [⟨.assistant, answer⟩]

/-- From `pre`, every chat is called so, and what returns leads to `post`. -/
def Keeping (start : List ChatCall) (base : List LLMMessage)
    (pre : Conversation TemplateArgs omega -> Prop) (x : Talk omega a)
    (post : Conversation TemplateArgs omega -> Prop) : Prop :=
  Triple pre x fun result c =>
    Logged start base c ∧ ((exists value, result = .ok value) -> post c)

variable {start : List ChatCall} {base messages : List LLMMessage}
  {pre mid post : Conversation TemplateArgs omega -> Prop}

theorem Keeping.bind {x : Talk omega a} {k : a -> Talk omega b}
    (hx : Keeping start base pre x mid)
    (hk : forall value, Keeping start base mid (k value) post) :
    Keeping start base pre (x >>= k) post := by
  refine Triple.bind hx ?_ ?_
  · intro value c hmid
    exact hk value c (hmid.right ⟨value, rfl⟩)
  · intro error c hmid
    constructor
    · exact hmid.left
    · intro h
      rcases h with ⟨value, hvalue⟩
      cases hvalue

theorem keeping_ofResult (hpre : forall c, pre c -> Logged start base c)
    (x : Except Thrown a) :
    Keeping start base pre (ofResult x : Talk omega a) pre :=
  fun c h => ⟨hpre c h, fun _ => h⟩

theorem keeping_pure (hpre : forall c, pre c -> Logged start base c)
    (value : a) : Keeping start base pre (pure value : Talk omega a) pre :=
  fun c h => ⟨hpre c h, fun _ => h⟩

theorem keeping_ask (hall : base.Sublist messages)
    (huser : EndsWithUser messages) (t : Task omega) (q : Question) :
    Keeping start base (At start base messages) (ask t q)
      (Replied start base messages) := by
  intro c hc
  have hlogged : Logged start base (exec (ask t q) c).2 := by
    rcases hc.logged with ⟨calls, hchats, hcalls⟩
    refine ⟨calls ++ [⟨q.topic.template, c.messages⟩], ?_, ?_⟩
    · rw [chats_ask, hchats, List.append_assoc]
    · intro call hcall
      rcases List.mem_append.mp hcall with hold | hnew
      · exact hcalls call hold
      · rw [List.mem_singleton.mp hnew, hc.messages_eq]
        exact ⟨hall, huser⟩
  constructor
  · exact hlogged
  · intro h
    rcases h with ⟨v, hv⟩
    constructor
    · exact hlogged
    · rcases exists_answered_of_chatOn
        (show exec (chatOn t.llm q.topic.template _ (t.options q)) c =
          (.ok v, (exec (ask t q) c).2) from Prod.ext hv rfl) with
        ⟨_, _, answer, _, hmessages⟩
      rw [hmessages, hc.messages_eq]
      exact ⟨answer, rfl⟩

theorem keeping_pop :
    Keeping start base (Replied start base messages) (pop : Talk omega Unit)
      (At start base messages) := by
  intro c hc
  constructor
  · exact hc.logged
  · intro _
    constructor
    · exact hc.logged
    · rcases hc.answer with ⟨answer, hanswer⟩
      show c.messages.dropLast = messages
      rw [hanswer, List.dropLast_concat]

/-! ## The steps of the agent -/

theorem keeping_choose (huser : EndsWithUser base) (t : Task omega)
    (endpoints : List Endpoint) :
    Keeping start base (At start base base) (choose t endpoints)
      (At start base base) := by
  have hall := List.Sublist.refl base
  unfold choose chooseEndpointsOnce reChooseEndpoints
  apply Keeping.bind
  · apply Keeping.bind (keeping_ask hall huser t _)
    intro answer
    exact keeping_ofResult (fun _ h => h.logged) _
  intro purposes0
  apply Keeping.bind keeping_pop
  intro _
  apply Keeping.bind
  · apply Keeping.bind (keeping_ask hall huser t _)
    intro answer
    exact keeping_ofResult (fun _ h => h.logged) _
  intro purposes1
  apply Keeping.bind (keeping_ofResult (fun _ h => h.logged) _)
  intro choices
  apply Keeping.bind keeping_pop
  intro _
  exact keeping_pure (fun _ h => h.logged) _

theorem keeping_confirmEndpoints (huser : EndsWithUser base) (t : Task omega)
    (endpoints : List (Option Endpoint)) {purposes : List Purpose}
    (hdouble : forall g, possibleGroups purposes = .ok g -> g.double ≠ []) :
    Keeping start base (At start base base)
      (confirmEndpoints t endpoints purposes) (Replied start base base) := by
  unfold confirmEndpoints Keeping
  apply Triple.ofResult_bind
  · intro g hg
    rw [if_neg fun hempty => hdouble g hg (List.isEmpty_iff.mp hempty)]
    apply Keeping.bind (keeping_ask (List.Sublist.refl base) huser t _)
    intro answer
    exact keeping_pure (fun _ h => h.logged) _
  · intro error c hc
    constructor
    · exact hc.logged
    · intro h
      rcases h with ⟨value, hvalue⟩
      cases hvalue

theorem keeping_confirmAgain (huser : EndsWithUser base) (t : Task omega)
    (endpoints : List (Option Endpoint)) (purposes : List UsedEndpoint)
    (argsHints : List PurposeHints) :
    Keeping start base (Replied start base base)
      (confirmAgain t endpoints purposes argsHints)
      (Replied start base base) := by
  unfold confirmAgain
  apply Keeping.bind (keeping_ofResult (fun _ h => h.logged) _)
  intro again
  split
  · exact keeping_pure (fun _ h => h.logged) _
  · apply Keeping.bind keeping_pop
    intro _
    apply Keeping.bind (keeping_ask (List.Sublist.refl base) huser t _)
    intro answer
    exact keeping_ofResult (fun _ h => h.logged) _

theorem keeping_confirmEndpointArgs (huser : EndsWithUser base)
    (t : Task omega) (endpoints : List (Option Endpoint))
    (purposes : List UsedEndpoint) :
    Keeping start base (At start base base)
      (confirmEndpointArgs t endpoints purposes)
      (Replied start base base) := by
  unfold confirmEndpointArgs
  apply Keeping.bind (keeping_ask (List.Sublist.refl base) huser t _)
  intro answer
  apply Keeping.bind (keeping_ofResult (fun _ h => h.logged) _)
  intro argsHints
  apply Keeping.bind (keeping_confirmAgain huser t endpoints purposes _)
  intro confirmed
  exact keeping_ofResult (fun _ h => h.logged) _

theorem keeping_push (message : LLMMessage) :
    Keeping start base (Replied start base base)
      (push message : Talk omega Unit) (fun c => exists answer,
        At start base (base ++ [⟨.assistant, answer⟩, message]) c) := by
  intro c hc
  constructor
  · exact hc.logged
  · intro _
    rcases hc.answer with ⟨answer, hanswer⟩
    refine ⟨answer, hc.logged, ?_⟩
    show c.messages ++ [message] = _
    rw [hanswer, List.append_assoc]
    rfl

theorem keeping_generateTaskScript (huser : EndsWithUser base)
    (t : Task omega) (endpoints : List (Option Endpoint))
    (purposes : List UsedEndpoint) (argsHints : List PurposeHints) :
    Keeping start base (At start base base)
      (generateTaskScript t endpoints purposes argsHints)
      (Logged start base) := by
  unfold generateTaskScript
  apply Keeping.bind (keeping_ask (List.Sublist.refl base) huser t _)
  intro first
  apply Keeping.bind (keeping_ofResult (fun _ h => h.logged) _)
  intro firstBlocks
  apply Keeping.bind (keeping_push refactor)
  intro _
  have hask : Keeping start base
      (fun c => exists answer,
        At start base (base ++ [⟨.assistant, answer⟩, refactor]) c)
      (ask t (scriptQuestion t.llm.reader 2
        (.generateTaskScript endpoints purposes argsHints)))
      (Logged start base) := by
    intro c hc
    rcases hc with ⟨answer, hat⟩
    have huser' : EndsWithUser (base ++ [⟨.assistant, answer⟩, refactor]) := by
      unfold EndsWithUser
      rw [List.getLast?_append_cons]
      rfl
    rcases keeping_ask (List.sublist_append_left base _) huser' t _ c hat with
      ⟨hlogged, _⟩
    exact ⟨hlogged, fun _ => hlogged⟩
  apply Keeping.bind hask
  intro second
  apply Keeping.bind (keeping_ofResult (fun _ h => h) _)
  intro blocks
  exact keeping_pure (fun _ h => h) _

/-! ## The chats that are called in any case -/

/-- The first chat is called with the messages that there are. -/
def Calls (template : Text) (x : Talk omega a) : Prop :=
  forall c, c.llm.chats ++ [⟨template, c.messages⟩] <+:
    (exec x c).2.llm.chats

theorem calls_ask (t : Task omega) (q : Question) :
    Calls q.topic.template (ask t q) := by
  intro c
  rw [chats_ask]

theorem Calls.bind {template : Text} {x : Talk omega a}
    {k : a -> Talk omega b} (hx : Calls template x)
    (hk : forall value, Along Logs (k value)) : Calls template (x >>= k) := by
  intro c
  have hfirst := hx c
  rw [exec_bind]
  cases hexec : exec x c with
  | mk result next =>
      rw [hexec] at hfirst
      cases result with
      | ok value => exact hfirst.trans (hk value next)
      | error error => exact hfirst

theorem calls_choose (t : Task omega) (endpoints : List Endpoint) :
    Calls "chooseEndpoints".toList (choose t endpoints) := by
  unfold choose chooseEndpointsOnce reChooseEndpoints
  apply Calls.bind
  · exact Calls.bind (calls_ask t (chooseQuestion t.numbers endpoints))
      fun answer => logs_ofResult _
  intro purposes0
  apply logs_bind logs_pop
  intro _
  apply logs_bind
  · exact logs_bind (logs_ask t _) fun answer => logs_ofResult _
  intro purposes1
  apply logs_bind (logs_ofResult _)
  intro choices
  apply logs_bind logs_pop
  intro _
  exact logs_pure choices

theorem logs_confirmEndpoints (t : Task omega)
    (endpoints : List (Option Endpoint)) (purposes : List Purpose) :
    Along Logs (confirmEndpoints t endpoints purposes) := by
  unfold confirmEndpoints
  apply logs_bind (logs_ofResult _)
  intro grouped
  dsimp only
  split
  · exact logs_pure _
  · exact logs_bind (logs_ask t _) fun answer => logs_pure _

theorem calls_confirmEndpointArgs (t : Task omega)
    (endpoints : List (Option Endpoint)) (purposes : List UsedEndpoint) :
    Calls "confirmEndpointsArgs".toList
      (confirmEndpointArgs t endpoints purposes) := by
  unfold confirmEndpointArgs confirmAgain
  apply Calls.bind (calls_ask t (argsQuestion t.numbers endpoints purposes))
  intro answer
  apply logs_bind (logs_ofResult _)
  intro argsHints
  apply logs_bind
  · apply logs_bind (logs_ofResult _)
    intro again
    split
    · exact logs_pure _
    · apply logs_bind logs_pop
      intro _
      exact logs_bind (logs_ask t _) fun answer => logs_ofResult _
  intro confirmed
  exact logs_ofResult _

theorem Calls.logs {template : Text} {x : Talk omega a}
    (h : Calls template x) : Along Logs x :=
  fun c => (List.prefix_append _ _).trans (h c)

theorem logs_generateTaskScript (t : Task omega)
    (endpoints : List (Option Endpoint)) (purposes : List UsedEndpoint)
    (argsHints : List PurposeHints) :
    Along Logs (generateTaskScript t endpoints purposes argsHints) := by
  unfold generateTaskScript
  apply logs_bind (logs_ask t _)
  intro first
  apply logs_bind (logs_ofResult _)
  intro firstBlocks
  apply logs_bind (logs_push refactor)
  intro _
  apply logs_bind (logs_ask t _)
  intro second
  exact logs_bind (logs_ofResult _) fun blocks => logs_pure _

theorem calls_afterChosen (t : Task omega)
    (endpoints : List (Option Endpoint)) (purposes : List UsedEndpoint) :
    Calls "confirmEndpointsArgs".toList (do
      let argsHints ← confirmEndpointArgs t endpoints purposes
      pop
      let scripts ← generateTaskScript t endpoints purposes argsHints
      return (⟨scripts, purposes, argsHints⟩ : Written)) := by
  apply Calls.bind (calls_confirmEndpointArgs t endpoints purposes)
  intro argsHints
  apply logs_bind logs_pop
  intro _
  apply logs_bind (logs_generateTaskScript t endpoints purposes argsHints)
  intro scripts
  exact logs_pure _

theorem calls_writeScript (t : Task omega) (endpoints : List Endpoint) :
    Calls "chooseEndpoints".toList (writeScript t endpoints) := by
  unfold writeScript chooseEndpoints
  apply Calls.bind
  · apply Calls.bind (calls_choose t endpoints)
    intro choices
    exact logs_bind (logs_confirmEndpoints t _ _) fun purposes => logs_pure _
  intro chosen
  exact logs_bind logs_pop fun _ =>
    (calls_afterChosen t chosen.1 chosen.2).logs

/-! ## Two candidates -/

def OfferedTwice (purposes0 purposes1 : List Json) : Prop :=
  exists x y, [x, y].Sublist (purposes1 ++ purposes0) ∧ SamePurpose x y

theorem double_ne_nil_iff {purposes0 purposes1 : List Json} {c : Choices}
    {g : Groups} (hm : Merged (purposes1 ++ purposes0) c)
    (hg : Grouped (valuesOf c.purposesSet) g) :
    g.double ≠ [] <-> OfferedTwice purposes0 purposes1 := by
  have hlength : forall key p, c.purposesSet.lookup key = some p ->
      p.candidateEndpoints.length =
        ((purposes1 ++ purposes0).filter (isFor key)).length := by
    intro key p hp
    rw [(hm.purposes key p hp).right, List.length_map]
  constructor
  · intro hne
    rcases List.exists_mem_of_ne_nil _ hne with ⟨p, hp⟩
    rw [hg.double] at hp
    rcases List.mem_filter.mp hp with ⟨hvalue, htwo⟩
    rcases mem_valuesOf.mp hvalue with ⟨key, hentry⟩
    have hcount := hlength key p ((lookup_iff_mem hm.nodup).mpr hentry)
    rw [beq_iff_eq.mp htwo] at hcount
    rcases List.length_eq_two.mp hcount.symm with ⟨x, y, hfilter⟩
    have hfor : forall z, z ∈ [x, y] -> isFor key z = true := by
      intro z hz
      rw [← hfilter] at hz
      exact (List.mem_filter.mp hz).right
    refine ⟨x, y, ?_, samePurpose_of_isFor (hfor x List.mem_cons_self)
      (hfor y (List.mem_cons_of_mem _ List.mem_cons_self))⟩
    rw [← hfilter]
    exact List.filter_sublist
  · intro hoffered
    rcases hoffered with ⟨x, y, hsub, hsame⟩
    have hx : x ∈ purposes1 ++ purposes0 := hsub.subset List.mem_cons_self
    have hsome := hm.named x hx hsame.right.left
    rcases Option.isSome_iff_exists.mp hsome with ⟨p, hp⟩
    have hvalue : p ∈ valuesOf c.purposesSet :=
      mem_valuesOf.mpr ⟨keyOf x, (lookup_iff_mem hm.nodup).mp hp⟩
    have htwo : 2 ≤ p.candidateEndpoints.length := by
      have hpair := (hsub.filter (isFor (keyOf x))).length_le
      rw [List.filter_cons_of_pos (isFor_keyOf rfl hsame.right.left),
        List.filter_cons_of_pos
          (isFor_keyOf hsame.left.symm hsame.right.right)] at hpair
      rw [hlength (keyOf x) p hp]
      exact hpair
    have hmem : p ∈ g.double := by
      rw [hg.double]
      apply List.mem_filter.mpr
      exact ⟨hvalue, beq_iff_eq.mpr (Nat.le_antisymm (hg.two p hvalue) htwo)⟩
    exact List.ne_nil_of_mem hmem

theorem grouped_of_possible {purposes : List Purpose} {g : Groups}
    (h : possibleGroups purposes = .ok g) : Grouped purposes g := by
  unfold possibleGroups at h
  rcases Fallible.exists_of_bind_ok h with ⟨g', hgroup, hg⟩
  split at hg
  · cases hg
    exact grouped_group hgroup
  · cases hg

/-! ## The answers of a run -/

structure Picked (t : Task omega) (endpoints : List Endpoint)
    (c : Conversation TemplateArgs omega) (answer0 answer1 : Value)
    (purposes0 purposes1 : List Json) : Prop where
  asked0 : (exec (ask t (chooseQuestion t.numbers endpoints)) c).1 =
    .ok answer0
  purposes0_eq : purposesOf answer0 = .ok purposes0
  asked1 : (exec (ask t (reChooseQuestion t.numbers
      (leftEndpoints t.numbers endpoints purposes0) purposes0))
    (exec pop (exec (ask t (chooseQuestion t.numbers endpoints)) c).2).2).1 =
    .ok answer1
  purposes1_eq : purposesOf answer1 = .ok purposes1

theorem choose_eq_ok_iff {t : Task omega} {endpoints : List Endpoint}
    {c : Conversation TemplateArgs omega} {choices : Choices} :
    (exec (choose t endpoints) c).1 = .ok choices <->
      exists answer0 answer1 purposes0 purposes1,
        Picked t endpoints c answer0 answer1 purposes0 purposes1 ∧
        mergeChoices t.numbers endpoints purposes0 purposes1 =
          .ok choices := by
  unfold choose chooseEndpointsOnce reChooseEndpoints
  constructor
  · intro h
    rcases exec_bind_eq_ok (Prod.ext h rfl) with ⟨purposes0, c1, hfirst, h1⟩
    rcases exec_bind_eq_ok h1 with ⟨_, c2, hpop, h2⟩
    rcases exec_bind_eq_ok h2 with ⟨purposes1, c3, hsecond, h3⟩
    rcases exec_bind_eq_ok h3 with ⟨merged, c4, hmerge, h4⟩
    rcases exec_bind_eq_ok h4 with ⟨_, c5, _, h5⟩
    rcases exec_bind_eq_ok hfirst with ⟨answer0, asked, hask0, hpurposes0⟩
    rcases exec_bind_eq_ok hsecond with ⟨answer1, _, hask1, hpurposes1⟩
    have hasked : asked = c1 := congrArg Prod.snd hpurposes0
    refine ⟨answer0, answer1, purposes0, purposes1, ?_, ?_⟩
    · constructor
      · rw [hask0]
      · exact congrArg Prod.fst hpurposes0
      · rw [hask0, hasked, hpop, hask1]
      · exact congrArg Prod.fst hpurposes1
    · rw [← (exec_pure_eq_ok h5).left]
      exact congrArg Prod.fst hmerge
  · intro h
    rcases h with ⟨answer0, answer1, purposes0, purposes1, hpicked, hmerge⟩
    have hask0 : exec (ask t (chooseQuestion t.numbers endpoints)) c =
        (.ok answer0, _) := Prod.ext hpicked.asked0 rfl
    have hask1 : exec (ask t (reChooseQuestion t.numbers
        (leftEndpoints t.numbers endpoints purposes0) purposes0)) _ =
        (.ok answer1, _) := Prod.ext hpicked.asked1 rfl
    rw [exec_bind, exec_bind_of_ok hask0, exec_ofResult, hpicked.purposes0_eq]
    dsimp only
    have hpop : forall asked : Conversation TemplateArgs omega,
        exec pop asked = (.ok (), (exec pop asked).2) := fun _ => rfl
    rw [exec_bind_of_ok (hpop _), exec_bind, exec_bind_of_ok hask1,
      exec_ofResult, hpicked.purposes1_eq]
    dsimp only
    rw [exec_ofResult_bind_ok hmerge]
    rfl

/-- If the choices let the agent go on, it has to ask for a confirmation. -/
def NeedsConfirmation (numbers : NumberReader) (endpoints : List Endpoint)
    (purposes0 purposes1 : List Json) : Prop :=
  forall choices g,
    mergeChoices numbers endpoints purposes0 purposes1 = .ok choices ->
    possibleGroups (valuesOf choices.purposesSet) = .ok g ->
    OfferedTwice purposes0 purposes1

/-- The last message is one of the user, and there is an answer to take away
after every step. -/
structure Balanced (t : Task omega) (endpoints : List Endpoint)
    (c : Conversation TemplateArgs omega) : Prop where
  user : EndsWithUser c.messages
  confirms : forall answer0 answer1 purposes0 purposes1,
    Picked t endpoints c answer0 answer1 purposes0 purposes1 ->
    NeedsConfirmation t.numbers endpoints purposes0 purposes1

theorem Balanced.double_ne_nil {t : Task omega} {endpoints : List Endpoint}
    {c : Conversation TemplateArgs omega} (h : Balanced t endpoints c)
    {choices : Choices}
    (hchoose : (exec (choose t endpoints) c).1 = .ok choices) {g : Groups}
    (hg : possibleGroups (valuesOf choices.purposesSet) = .ok g) :
    g.double ≠ [] := by
  rcases choose_eq_ok_iff.mp hchoose with
    ⟨answer0, answer1, purposes0, purposes1, hpicked, hmerge⟩
  exact (double_ne_nil_iff (merged_mergeChoices hmerge)
    (grouped_of_possible hg)).mpr
    (h.confirms _ _ _ _ hpicked choices g hmerge hg)

theorem Balanced.keeping_chooseEndpoints {t : Task omega}
    {endpoints : List Endpoint} {c : Conversation TemplateArgs omega}
    (h : Balanced t endpoints c) (hc : Logged start c.messages c) :
    Keeping start c.messages (fun state => state = c)
      (chooseEndpoints t endpoints) (Replied start c.messages c.messages) := by
  intro state hstate
  rw [hstate]
  have hchosen := keeping_choose h.user t endpoints c
    (⟨hc, rfl⟩ : At start c.messages c.messages c)
  unfold chooseEndpoints
  rw [exec_bind]
  cases hexec : exec (choose t endpoints) c with
  | mk result next =>
      rw [hexec] at hchosen
      cases result with
      | error error =>
          refine ⟨hchosen.left, ?_⟩
          intro hvalue
          rcases hvalue with ⟨value, heq⟩
          cases heq
      | ok choices =>
          apply Keeping.bind (keeping_confirmEndpoints h.user t _ _) _ next
            (hchosen.right ⟨choices, rfl⟩)
          · intro g hg
            exact h.double_ne_nil (congrArg Prod.fst hexec) hg
          · intro purposes
            exact keeping_pure (fun _ hreplied => hreplied.logged) _

theorem Balanced.logged_writeScript {t : Task omega}
    {endpoints : List Endpoint} {c : Conversation TemplateArgs omega}
    (h : Balanced t endpoints c) (hc : Logged start c.messages c) :
    Logged start c.messages (exec (writeScript t endpoints) c).2 := by
  have hkeeping : Keeping start c.messages (fun state => state = c)
      (writeScript t endpoints) (Logged start c.messages) := by
    unfold writeScript
    apply Keeping.bind (h.keeping_chooseEndpoints hc)
    intro chosen
    apply Keeping.bind keeping_pop
    intro _
    apply Keeping.bind (keeping_confirmEndpointArgs h.user t _ _)
    intro argsHints
    apply Keeping.bind keeping_pop
    intro _
    apply Keeping.bind (keeping_generateTaskScript h.user t _ _ _)
    intro scripts
    exact keeping_pure (fun _ hlogged => hlogged) _
  exact (hkeeping c rfl).left

/-! ## What a talk that is not balanced calls -/

theorem Logged.holds {c : Conversation TemplateArgs omega}
    (h : Logged start base c) {calls : List ChatCall}
    (hcalls : start ++ calls <+: c.llm.chats) {call : ChatCall}
    (hmem : call ∈ calls) : Holds base call := by
  rcases h with ⟨all, hchats, hholds⟩
  rw [hchats, List.prefix_append_right_inj] at hcalls
  exact hholds call (hcalls.subset hmem)

theorem not_logged_of_single {t : Task omega} {endpoints : List Endpoint}
    {c : Conversation TemplateArgs omega} (huser : EndsWithUser c.messages)
    (hc : Logged start c.messages c) {choices : Choices}
    (hchoose : (exec (choose t endpoints) c).1 = .ok choices) {g : Groups}
    (hg : possibleGroups (valuesOf choices.purposesSet) = .ok g)
    (hdouble : g.double = []) :
    ¬ Logged start c.messages (exec (writeScript t endpoints) c).2 := by
  intro hlogged
  have hchosen := keeping_choose huser t endpoints c
    (⟨hc, rfl⟩ : At start c.messages c.messages c)
  let next := (exec (choose t endpoints) c).2
  have hat : At start c.messages c.messages next :=
    hchosen.right ⟨choices, hchoose⟩
  have hexec : exec (choose t endpoints) c = (.ok choices, next) :=
    Prod.ext hchoose rfl
  have hconfirm : exec (confirmEndpoints t (valuesOf choices.epsMap)
      (valuesOf choices.purposesSet)) next =
      (.ok (g.single.map confirmedEndpoint), next) := by
    unfold confirmEndpoints
    rw [exec_ofResult_bind_ok hg]
    dsimp only
    rw [hdouble]
    rfl
  have hall : exec (chooseEndpoints t endpoints) c =
      (.ok (chosenEndpoints t.numbers choices.epsMap
        (g.single.map confirmedEndpoint), g.single.map confirmedEndpoint),
        next) := by
    unfold chooseEndpoints
    rw [exec_bind_of_ok hexec, exec_bind_of_ok hconfirm]
    rfl
  have hpop : exec (pop : Talk omega Unit) next =
      (.ok (), ⟨next.llm, next.messages.dropLast⟩) := rfl
  unfold writeScript at hlogged
  rw [exec_bind_of_ok hall, exec_bind_of_ok hpop] at hlogged
  rcases hat.logged with ⟨calls, hchats, _⟩
  have hcalls := calls_afterChosen t (chosenEndpoints t.numbers choices.epsMap
    (g.single.map confirmedEndpoint)) (g.single.map confirmedEndpoint)
    ⟨next.llm, next.messages.dropLast⟩
  rw [hchats, List.append_assoc] at hcalls
  have hholds := hlogged.holds hcalls
    (List.mem_append_right calls List.mem_cons_self)
  have hlength := hholds.all.length_le
  rw [hat.messages_eq, List.length_dropLast] at hlength
  cases hmessages : c.messages with
  | nil =>
      rw [hmessages] at huser
      cases huser
  | cons first rest =>
      rw [hmessages, List.length_cons] at hlength
      omega

theorem logged_writeScript_iff {t : Task omega} {endpoints : List Endpoint}
    {c : Conversation TemplateArgs omega} (hc : Logged start c.messages c) :
    Logged start c.messages (exec (writeScript t endpoints) c).2 <->
      Balanced t endpoints c := by
  constructor
  · intro hlogged
    have huser : EndsWithUser c.messages := by
      have hcalls := calls_writeScript t endpoints c
      rcases hc with ⟨calls, hchats, _⟩
      rw [hchats, List.append_assoc] at hcalls
      exact (hlogged.holds hcalls
        (List.mem_append_right calls List.mem_cons_self)).user
    constructor
    · exact huser
    · intro answer0 answer1 purposes0 purposes1 hpicked choices g hmerge hg
      have hchoose : (exec (choose t endpoints) c).1 = .ok choices :=
        choose_eq_ok_iff.mpr ⟨_, _, _, _, hpicked, hmerge⟩
      apply (double_ne_nil_iff (merged_mergeChoices hmerge)
        (grouped_of_possible hg)).mp
      intro hdouble
      exact not_logged_of_single huser hc hchoose hg hdouble hlogged
  · intro h
    exact h.logged_writeScript hc

/-! ## The conversation of a task -/

variable (host : ScriptHost omega) (reqEvent : RequestEvent)
  (endpoints : List Endpoint) (s : LlmState TemplateArgs omega)

/-- Every chat that `_map2Endpoints` calls is called with the conversation of
the task, which ends with a message of the user. -/
def KeepsConversation : Prop :=
  forall history calls, historyOf reqEvent = .ok history ->
    (exec (map2Endpoints host reqEvent endpoints) s).2.chats =
      s.chats ++ calls ->
    forall call, call ∈ calls -> Holds history.messages call

def BalancedRequest : Prop :=
  forall epName history,
    read reqEvent.exchange.context "epName" = .ok epName ->
    isTruthy epName = false -> endpoints ≠ [] ->
    historyOf reqEvent = .ok history ->
    Balanced (taskOf host reqEvent history.files) endpoints
      ⟨s, history.messages⟩

theorem exec_withMessages (messages : List LLMMessage) (x : Talk omega a) :
    exec (withMessages messages x) s =
      ((exec x ⟨s, messages⟩).1, (exec x ⟨s, messages⟩).2.llm) := rfl

theorem chats_map2Endpoints {epName : Value} {history : History}
    (hname : read reqEvent.exchange.context "epName" = .ok epName)
    (hfalsy : isTruthy epName = false) (hne : endpoints ≠ [])
    (hhistory : historyOf reqEvent = .ok history) :
    (exec (map2Endpoints host reqEvent endpoints) s).2.chats =
      (exec (writeScript (taskOf host reqEvent history.files) endpoints)
        ⟨s, history.messages⟩).2.llm.chats := by
  unfold map2Endpoints
  rw [exec_ofResult_bind_ok hname]
  dsimp only
  rw [hfalsy, if_neg Bool.false_ne_true,
    if_neg fun hempty => hne (List.isEmpty_iff.mp hempty)]
  rw [exec_ofResult_bind_ok hhistory, exec_bind, exec_withMessages]
  cases hexec : exec (writeScript (taskOf host reqEvent history.files)
      endpoints) ⟨s, history.messages⟩ with
  | mk result next =>
      cases result with
      | ok written =>
          exact keeps_zoomOutside (fun _ _ => rfl)
            (host.installScriptFiles reqEvent written) next.llm
      | error error => rfl

theorem chats_map2Endpoints_of_none
    (hnone : forall epName history,
      read reqEvent.exchange.context "epName" = .ok epName ->
      isTruthy epName = false -> endpoints ≠ [] ->
      historyOf reqEvent ≠ .ok history) :
    (exec (map2Endpoints host reqEvent endpoints) s).2.chats = s.chats := by
  unfold map2Endpoints
  cases hname : read reqEvent.exchange.context "epName" with
  | error error => rfl
  | ok epName =>
      rw [exec_ofResult_bind_ok rfl]
      dsimp only
      split
      · rfl
      · rename_i hfalsy
        rw [Bool.not_eq_true] at hfalsy
        split
        · rfl
        · rename_i hempty
          have hne : endpoints ≠ [] := fun hnil =>
            hempty (List.isEmpty_iff.mpr hnil)
          cases hhistory : historyOf reqEvent with
          | error error => rfl
          | ok history =>
              exact absurd hhistory (hnone epName history hname hfalsy hne)

/-- Every chat that is called while the endpoints of a request are mapped has
the whole conversation and ends with a message of the user, if and only if the
talk is balanced. -/
theorem keepsConversation_iff :
    KeepsConversation host reqEvent endpoints s <->
      BalancedRequest host reqEvent endpoints s := by
  constructor
  · intro h epName history hname hfalsy hne hhistory
    have hchats := chats_map2Endpoints host reqEvent endpoints s hname hfalsy
      hne hhistory
    have hstart : Logged s.chats history.messages
        (⟨s, history.messages⟩ : Conversation TemplateArgs omega) :=
      ⟨[], (List.append_nil _).symm, fun call hcall => by cases hcall⟩
    apply (logged_writeScript_iff hstart).mp
    have hlogs := (calls_writeScript
      (taskOf host reqEvent history.files) endpoints).logs
      ⟨s, history.messages⟩
    rcases hlogs with ⟨calls, hcalls⟩
    refine ⟨calls, hcalls.symm, ?_⟩
    apply h history calls hhistory
    rw [hchats]
    exact hcalls.symm
  · intro h history calls hhistory hcalls call hcall
    by_cases hruns : exists epName,
        read reqEvent.exchange.context "epName" = .ok epName ∧
        isTruthy epName = false ∧ endpoints ≠ []
    · rcases hruns with ⟨epName, hname, hfalsy, hne⟩
      have hstart : Logged s.chats history.messages
          (⟨s, history.messages⟩ : Conversation TemplateArgs omega) :=
        ⟨[], (List.append_nil _).symm, fun call hcall => by cases hcall⟩
      have hlogged := (logged_writeScript_iff hstart).mpr
        (h epName history hname hfalsy hne hhistory)
      rw [chats_map2Endpoints host reqEvent endpoints s hname hfalsy hne
        hhistory] at hcalls
      apply hlogged.holds _ hcall
      rw [hcalls]
    · have hnone := chats_map2Endpoints_of_none host reqEvent endpoints s
        fun epName _ hname hfalsy hne _ =>
          hruns ⟨epName, hname, hfalsy, hne⟩
      rw [hnone, List.self_eq_append_right] at hcalls
      rw [hcalls] at hcall
      cases hcall

end Talk

/-! ## A bill that is paid -/

def billReader : JsonReader where
  jsonrepair := fun text => .ok text
  parse := fun text =>
    if text = "\x7b0\x7d".toList then
      .ok (choiceOf [(payment, "GET /bills")])
    else .ok (choiceOf [(refund, "GET /refunds")])

def billHost : ScriptHost Nat where
  llm := {
    llmModels := .one "model".toList
    cacheEnable := false
    reader := billReader
    dot := fun text => .ok fun _ => .ok text
    charge := fun _ => return ()
    fetch := fun _ => do
      let n ← get
      modify fun n => n + 1
      let answer := if n = 0 then "\x7b0\x7d" else "\x7b1\x7d"
      return ⟨none, some [⟨none, some ⟨.assistant, some answer.toList⟩⟩],
        none, none⟩
    billed := fun _ _ _ n => n }
  numbers := digitNumbers
  installScriptFiles := fun _ _ => return ()

def billState : LlmState TemplateArgs Nat where
  templates := fun _ => none
  llmTemplate := fun _ => some "Choose endpoints".toList
  llmCache := []
  nextPk := 1
  written := []
  completions := []
  chats := []
  outside := 0

def billRequest : RequestEvent where
  id := "event".toList
  paidBy := "user".toList
  exchange :=
    { statusCode := some 1
      context := some (.obj [("req".toList, .obj [])])
      message := none }
  histories := []

def billHistory : History where
  messages := [⟨.user, some "\x7b\x7d".toList⟩]
  files := []

def billTask : Task Nat :=
  taskOf billHost billRequest []

def billTalk : Conversation TemplateArgs Nat where
  llm := billState
  messages := billHistory.messages

theorem picked_bill :
    Picked billTask billing billTalk
      (some (choiceOf [(payment, "GET /bills")]))
      (some (choiceOf [(refund, "GET /refunds")]))
      [chosenBill payment "GET /bills"]
      [chosenBill refund "GET /refunds"] := by
  constructor
  · rfl
  · rfl
  · rfl
  · rfl

/-- Every purpose has one candidate: nothing has to be confirmed, and the
arguments are asked for without the request. -/
theorem not_keepsConversation_bill :
    ¬ KeepsConversation billHost billRequest billing billState := by
  intro h
  have hhistory : historyOf billRequest = .ok billHistory := rfl
  have hchats := chats_map2Endpoints billHost billRequest billing billState
    (show read billRequest.exchange.context "epName" = .ok none from rfl) rfl
    (List.cons_ne_nil _ _) hhistory
  have hmerge : mergeChoices billTask.numbers billing
      [chosenBill payment "GET /bills"]
      [chosenBill refund "GET /refunds"] = .ok settled := rfl
  have hchoose : (exec (choose billTask billing) billTalk).1 = .ok settled :=
    choose_eq_ok_iff.mpr ⟨_, _, _, _, picked_bill, hmerge⟩
  have hgroups : possibleGroups (valuesOf settled.purposesSet) =
      .ok ⟨[], settled.purposesSet.map Prod.snd, []⟩ := by
    rw [valuesOf_names rfl]
    rfl
  have hstart : Logged [] billHistory.messages billTalk :=
    ⟨[], rfl, fun call hcall => by cases hcall⟩
  apply not_logged_of_single (show EndsWithUser billTalk.messages from rfl)
    hstart hchoose hgroups rfl
  refine ⟨_, (List.nil_append _).symm, ?_⟩
  apply h billHistory _ hhistory
  rw [hchats]
  rfl

end Agents
end CallgentApi
