import CallgentApi.Lib.Transition
import CallgentApi.Pipe.Client
import CallgentApi.Pipe.Server

/-!
# A session between a task script and the server

The two ends of the pipe run concurrently: the script issues commands, the
server reads their lines and runs a chain for each, and the replies reach the
client as separate messages in any order.  Lines and replies carry the request
id of the command they belong to, which neither program reads: it says which
promise a reply was computed for.
-/

namespace CallgentApi
namespace Pipe

open Js Transition

inductive ChainOutcome where
  | response (r : Option Json)
  | pending
  | thrown

/-- A line of the script and the request id of the command it belongs to. -/
structure RequestLine where
  requestId : Text
  text : Text

/-- A reply message, and the command and payload it was computed for. -/
structure ReplyMessage where
  requestId : Text
  payload : Text
  text : Text

structure Session where
  client : PipeClient
  /-- Lines the server has not read yet. -/
  requests : List RequestLine
  finalResponse : Option Text
  finalError : Option Text
  frozenKilled : Bool
  /-- Replies that have not reached the client yet. -/
  replies : List ReplyMessage
  /-- The commands whose replies have reached the client, with the payload
  computed for each. -/
  delivered : List (Text × Text)

inductive Action where
  /-- The script calls `invokeService`, which sends a command. -/
  | invokeService (epName : Text) (args : Json)
  /-- The server reads the next line; a command's chain ends as given. -/
  | serve (outcome : Option ChainOutcome)
  /-- One of the replies reaches the client. -/
  | deliver (i : Nat)

namespace Session

def init (cmdPrefix requestPrefix : Text) : Session where
  client := PipeClient.init cmdPrefix requestPrefix
  requests := []
  finalResponse := none
  finalError := none
  frozenKilled := false
  replies := []
  delivered := []

/-- The lines `readline` emits for a text that ends with a line feed. -/
def linesOf (text : Text) : List Text :=
  (text.splitOn '\n').dropLast

def command (epName : Text) (args : Json) : Text :=
  Json.stringify
    (.obj [("epName".toList, .str epName), ("args".toList, args)])

def invokeService (s : Session) (epName : Text) (args : Json) : Session :=
  let (client, requestId, text) := s.client.sendCommand (command epName args)
  { s with
      client := client
      requests := s.requests ++ (linesOf text).map fun l => ⟨requestId, l⟩ }

/-- `onLine` after the chain of a command has ended. -/
def chainEnded (s : Session) (line : RequestLine) (cmdCode : Option Text) :
    ChainOutcome -> Session
  | .response r =>
      let payload := payloadText r
      { s with
          replies := s.replies ++
            [⟨line.requestId, payload,
              replyMessage s.client.cmdPrefix (interpolate cmdCode)
                payload⟩] }
  | .pending => { s with frozenKilled := true }
  | .thrown => s

def serve (s : Session) (outcome : Option ChainOutcome) : Option Session :=
  match s.requests with
  | [] => none
  | line :: rest =>
      let s := { s with requests := rest }
      match readLine s.client.cmdPrefix line.text, outcome with
      | .ignored, none => some s
      | .finalResponse content, none =>
          some { s with finalResponse := some content }
      | .finalError content, none =>
          some { s with finalError := some content }
      | .command cmdCode _, some outcome =>
          some (s.chainEnded line cmdCode outcome)
      | _, _ => none

def deliver (s : Session) (i : Nat) : Option Session :=
  match s.replies[i]? with
  | none => none
  | some reply =>
      some
        { s with
            client := s.client.onData reply.text
            replies := s.replies.eraseIdx i
            delivered := s.delivered ++ [(reply.requestId, reply.payload)] }

def step (s : Session) : Action -> Option Session
  | .invokeService epName args => some (s.invokeService epName args)
  | .serve outcome => s.serve outcome
  | .deliver i => s.deliver i

/-- Every delivered reply has resolved the promise of its own command, once and
with its own payload, and the client has thrown no reply away. -/
def EachAnsweredOnce (s : Session) : Prop :=
  s.client.resolved.Perm s.delivered ∧ s.client.unexpected = []

/-!
## The request direction

The line of a command reaches the server whole and is read as that command.
-/

theorem linesOf_line {client : PipeClient} {key content : Text}
    (hhead : '\n' ∉ client.cmdPrefix) (hkey : '\n' ∉ key)
    (hcontent : '\n' ∉ content) :
    linesOf (client.line key content) =
      [Separator.record '|' client.cmdPrefix key content] := by
  have hline : '\n' ∉ Separator.record '|' client.cmdPrefix key content := by
    simp [Separator.record, hhead, hkey, hcontent]
  unfold linesOf PipeClient.line
  rw [List.splitOn_append_cons_self_of_not_mem hline]
  simp

theorem readLine_record {client : PipeClient} (code content : Text)
    (hhead : '|' ∉ client.cmdPrefix)
    (hbar : '|' ∉ client.requestPrefix) (hcolon : ':' ∉ client.requestPrefix)
    (hcodeBar : '|' ∉ code) (hcodeColon : ':' ∉ code) :
    readLine client.cmdPrefix
        (Separator.record '|' client.cmdPrefix
          (client.requestPrefix ++ ':' :: code) content) =
      match parseInt code with
      | some n =>
          if n = 0 then .finalResponse content
          else if 0 < n then .finalError content
          else .command (some code) content
      | none => .command (some code) content := by
  have hkeyBar : '|' ∉ client.requestPrefix ++ ':' :: code := by
    simp [hbar, hcodeBar]
  have hcode : ((client.requestPrefix ++ ':' :: code).splitOn ':')[1]? =
      some code := by
    rw [List.splitOn_append_cons_self_of_not_mem hcolon,
      List.splitOn_eq_singleton hcodeColon]
    rfl
  have hstarts : startsWith
      (Separator.record '|' client.cmdPrefix
        (client.requestPrefix ++ ':' :: code) content)
      (client.cmdPrefix ++ ['|']) = true := by
    simp [startsWith, Separator.record, List.isPrefixOf_iff_prefix]
  have hjoin : join '|' (content.splitOn '|') = content :=
    List.intercalate_splitOn '|'
  unfold readLine
  rw [if_pos hstarts, Separator.splitOn_record content hhead hkeyBar]
  cases hparsed : parseInt code with
  | none => simp only [hcode, Option.bind_some, hparsed, hjoin]
  | some n => simp only [hcode, Option.bind_some, hparsed, hjoin]

theorem readLine_requestLine {client : PipeClient} {n : Nat} {content : Text}
    (hhead : '|' ∉ client.cmdPrefix)
    (hbar : '|' ∉ client.requestPrefix) (hcolon : ':' ∉ client.requestPrefix) :
    readLine client.cmdPrefix
        (Separator.record '|' client.cmdPrefix
          (client.requestKey (Int.negSucc n)) content) =
      .command (some (decimal (Int.negSucc n))) content := by
  have hcodeBar : '|' ∉ decimal (Int.negSucc n) :=
    not_mem_decimal_negSucc rfl (by decide) n
  have hcodeColon : ':' ∉ decimal (Int.negSucc n) :=
    not_mem_decimal_negSucc rfl (by decide) n
  rw [PipeClient.requestKey,
    readLine_record _ _ hhead hbar hcolon hcodeBar hcodeColon,
    parseInt_decimal_negSucc]
  rfl

/-!
## The keys of the two ends

The client files its promises under `requestPrefix:code`, the server replies
under `code`: pending keys hold a colon and the keys of replies never do.
-/

structure KeysApart (s : Session) : Prop where
  pending : forall key, key ∈ s.client.pendingRequests -> ':' ∈ key
  replies : forall reply, reply ∈ s.replies ->
    exists key payload, ':' ∉ key ∧ '|' ∉ key ∧
      reply.text = replyMessage s.client.cmdPrefix key payload
  unresolved : s.client.resolved = []

theorem keysApart_init (cmdPrefix requestPrefix : Text) :
    KeysApart (init cmdPrefix requestPrefix) where
  pending := by simp [init, PipeClient.init]
  replies := by simp [init]
  unresolved := rfl

theorem keysApart_invokeService {s : Session} (h : KeysApart s)
    (epName : Text) (args : Json) :
    KeysApart (s.invokeService epName args) where
  pending := by
    intro key hkey
    rcases Finset.mem_insert.mp hkey with heq | hmem
    · rw [heq]
      exact s.client.colon_mem_requestKey _
    · exact h.pending key hmem
  replies := h.replies
  unresolved := h.unresolved

theorem keysApart_chainEnded {s : Session} (h : KeysApart s)
    {line : RequestLine} {cmdCode : Option Text} {content : Text}
    (hline : readLine s.client.cmdPrefix line.text = .command cmdCode content)
    (outcome : ChainOutcome) :
    KeysApart (s.chainEnded line cmdCode outcome) := by
  cases outcome with
  | response r =>
      refine ⟨h.pending, ?_, h.unresolved⟩
      intro reply hreply
      rcases List.mem_append.mp hreply with hold | hnew
      · exact h.replies reply hold
      · have heq := List.mem_singleton.mp hnew
        have hkey := replyKey_of_readLine hline
        exact ⟨interpolate cmdCode, payloadText r, hkey.left, hkey.right,
          by rw [heq]; rfl⟩
  | pending => exact ⟨h.pending, h.replies, h.unresolved⟩
  | thrown => exact h

theorem serve_cases {s s' : Session} {outcome : Option ChainOutcome}
    (h : s.serve outcome = some s') :
    exists line rest, s.requests = line :: rest ∧
      ((outcome = none ∧ s'.client = s.client ∧ s'.replies = s.replies ∧
          s'.delivered = s.delivered) ∨
        exists cmdCode content ended, outcome = some ended ∧
          readLine s.client.cmdPrefix line.text = .command cmdCode content ∧
          s' = ({ s with requests := rest } : Session).chainEnded
            line cmdCode ended) := by
  unfold serve at h
  cases hreq : s.requests with
  | nil =>
      rw [hreq] at h
      cases h
  | cons line rest =>
      rw [hreq] at h
      refine ⟨line, rest, rfl, ?_⟩
      cases hread : readLine s.client.cmdPrefix line.text <;>
        cases outcome <;> simp only [hread] at h
      case ignored.none | finalResponse.none | finalError.none =>
        cases h
        exact Or.inl ⟨rfl, rfl, rfl, rfl⟩
      case command.some cmdCode content ended =>
        cases h
        exact Or.inr ⟨cmdCode, content, ended, rfl, rfl, rfl⟩
      all_goals cases h

theorem keysApart_serve {s s' : Session} (h : KeysApart s)
    {outcome : Option ChainOutcome} (hserve : s.serve outcome = some s') :
    KeysApart s' := by
  rcases serve_cases hserve with
    ⟨line, rest, _, ⟨_, hclient, hreplies, _⟩ |
      ⟨cmdCode, content, ended, _, hline, rfl⟩⟩
  · exact
      ⟨hclient ▸ h.pending, by rw [hclient, hreplies]; exact h.replies,
        hclient ▸ h.unresolved⟩
  · have hrest : KeysApart { s with requests := rest } :=
      ⟨h.pending, h.replies, h.unresolved⟩
    exact keysApart_chainEnded hrest hline ended

theorem onData_of_colon_not_mem {client : PipeClient} {key payload : Text}
    (hpending : forall id, id ∈ client.pendingRequests -> ':' ∈ id)
    (hcolon : ':' ∉ key) (hbar : '|' ∉ key) :
    (client.onData (replyMessage client.cmdPrefix key payload)).resolved =
      client.resolved := by
  rcases client.onData_cases
      (replyMessage client.cmdPrefix key payload) with h | ⟨id, h⟩ |
    ⟨id, pieces, hsplit, hid, _⟩
  · rw [h]
  · rw [h]
  · exfalso
    have hhead : '|' ∉ client.cmdPrefix :=
      Separator.not_mem_of_mem_splitOn (by rw [hsplit]; simp)
    have hrecord := Separator.splitOn_record payload hhead hbar
    change (replyMessage client.cmdPrefix key payload).splitOn '|' = _
      at hrecord
    rw [hrecord] at hsplit
    have hkey : key = id :=
      (List.cons.inj (List.cons.inj hsplit).right).left
    exact hcolon (hkey ▸ hpending id hid)

theorem deliver_cases {s s' : Session} {i : Nat}
    (h : s.deliver i = some s') :
    exists reply, s.replies[i]? = some reply ∧
      s' =
        { s with
            client := s.client.onData reply.text
            replies := s.replies.eraseIdx i
            delivered :=
              s.delivered ++ [(reply.requestId, reply.payload)] } := by
  unfold deliver at h
  cases hget : s.replies[i]? with
  | none =>
      rw [hget] at h
      cases h
  | some reply =>
      rw [hget] at h
      exact ⟨reply, rfl, (Option.some.inj h).symm⟩

theorem keysApart_deliver {s s' : Session} (h : KeysApart s) {i : Nat}
    (hdeliver : s.deliver i = some s') : KeysApart s' := by
  rcases deliver_cases hdeliver with ⟨reply, hget, rfl⟩
  rcases h.replies reply (List.mem_of_getElem? hget) with
    ⟨key, payload, hcolon, hbar, htext⟩
  refine ⟨?_, ?_, ?_⟩
  · intro id hid
    exact h.pending id
      (s.client.onData_pendingRequests_subset reply.text hid)
  · intro other hother
    rw [PipeClient.onData_cmdPrefix]
    exact h.replies other (List.mem_of_mem_eraseIdx hother)
  · change (s.client.onData reply.text).resolved = []
    rw [htext, onData_of_colon_not_mem h.pending hcolon hbar]
    exact h.unresolved

theorem keysApart_step (s : Session) (a : Action) (s' : Session)
    (h : KeysApart s) (hstep : s.step a = some s') : KeysApart s' := by
  cases a with
  | invokeService epName args =>
      cases hstep
      exact keysApart_invokeService h epName args
  | serve outcome => exact keysApart_serve h hstep
  | deliver i => exact keysApart_deliver h hstep

theorem run_resolved {cmdPrefix requestPrefix : Text}
    {actions : List Action} {s : Session}
    (hrun : run step (init cmdPrefix requestPrefix) actions = some s) :
    s.client.resolved = [] :=
  (run_invariant keysApart_step
    (keysApart_init cmdPrefix requestPrefix) hrun).unresolved

/-!
## Which runs have an answer to lose
-/

/-- Until a reply reaches the client, none has been thrown away. -/
def Quiet (s : Session) : Prop :=
  s.delivered = [] -> s.client.unexpected = []

theorem quiet_step (s : Session) (a : Action) (s' : Session)
    (h : Quiet s) (hstep : s.step a = some s') : Quiet s' := by
  cases a with
  | invokeService epName args =>
      cases hstep
      exact h
  | serve outcome =>
      rcases serve_cases hstep with
        ⟨line, rest, _, ⟨_, hclient, _, hdelivered⟩ |
          ⟨cmdCode, content, ended, _, _, rfl⟩⟩
      · intro hnil
        rw [hclient]
        exact h (hdelivered ▸ hnil)
      · cases ended <;> exact h
  | deliver i =>
      rcases deliver_cases hstep with ⟨reply, _, rfl⟩
      intro hnil
      exact absurd hnil (by simp)

def Unanswered (s : Session) : Prop :=
  s.replies = [] ∧ s.delivered = []

theorem step_unanswered {s s' : Session} {a : Action}
    (hstep : s.step a = some s') :
    Unanswered s' <->
      Unanswered s ∧ forall r, a ≠ .serve (some (.response r)) := by
  cases a with
  | invokeService epName args =>
      cases hstep
      simp [Unanswered, invokeService]
  | serve outcome =>
      rcases serve_cases hstep with
        ⟨line, rest, _, ⟨hnone, _, hreplies, hdelivered⟩ |
          ⟨cmdCode, content, ended, hsome, _, rfl⟩⟩
      · simp [Unanswered, hnone, hreplies, hdelivered]
      · cases ended <;> simp [Unanswered, hsome, chainEnded]
  | deliver i =>
      rcases deliver_cases hstep with ⟨reply, hget, rfl⟩
      have hne : s.replies ≠ [] := List.ne_nil_of_mem (List.mem_of_getElem? hget)
      simp [Unanswered, hne]

theorem run_unanswered {s t : Session} {actions : List Action}
    (hrun : run step s actions = some t) :
    Unanswered t <->
      Unanswered s ∧
        forall r, Action.serve (some (.response r)) ∉ actions := by
  induction actions generalizing s with
  | nil =>
      have hst : s = t := by simpa using hrun
      simp [hst]
  | cons a rest ih =>
      rcases run_cons_some hrun with ⟨s', hstep, hrest⟩
      rw [ih hrest, step_unanswered hstep]
      constructor
      · rintro ⟨⟨hs, ha⟩, hr⟩
        refine ⟨hs, fun r hmem => ?_⟩
        rcases List.mem_cons.mp hmem with heq | hin
        · exact ha r heq.symm
        · exact hr r hin
      · rintro ⟨hs, hr⟩
        exact ⟨⟨hs, fun r heq => hr r (heq ▸ List.mem_cons_self)⟩,
          fun r hmem => hr r (List.mem_cons_of_mem a hmem)⟩

/-- When all replies of a session have been delivered, they have all reached
the promises of their commands exactly when no command had a response. -/
theorem eachAnsweredOnce_iff_no_response
    {cmdPrefix requestPrefix : Text} {actions : List Action} {s : Session}
    (hrun : run step (init cmdPrefix requestPrefix) actions = some s)
    (hreplies : s.replies = []) :
    EachAnsweredOnce s <->
      forall r, Action.serve (some (.response r)) ∉ actions := by
  have hresolved := run_resolved hrun
  have hunanswered : Unanswered s <->
      forall r, Action.serve (some (.response r)) ∉ actions := by
    rw [run_unanswered hrun]
    exact and_iff_right ⟨rfl, rfl⟩
  rw [← hunanswered]
  constructor
  · intro hanswers
    have hperm := hanswers.left
    rw [hresolved] at hperm
    exact ⟨hreplies, hperm.symm.eq_nil⟩
  · rintro ⟨_, hnil⟩
    have hquiet : Quiet s :=
      run_invariant quiet_step (fun _ => rfl) hrun
    refine ⟨?_, hquiet hnil⟩
    rw [hresolved, hnil]

/-- A script sends one command, its chain ends with `null`, and the reply is
delivered. -/
def oneCommand : List Action :=
  [.invokeService "GET /pets".toList (.obj []),
    .serve (some (.response (some .null))), .deliver 0]

def afterOneCommand : Session where
  client :=
    { PipeClient.init "abc".toList "x".toList with
        nextRequestId := -1
        pendingRequests := {"x:-1".toList}
        unexpected := ["-1".toList] }
  requests := []
  finalResponse := none
  finalError := none
  frozenKilled := false
  replies := []
  delivered := [("x:-1".toList, "null".toList)]

theorem eachAnsweredOnce_iff_no_response_oneCommand :
    EachAnsweredOnce afterOneCommand <->
      forall r, Action.serve (some (.response r)) ∉ oneCommand :=
  @eachAnsweredOnce_iff_no_response "abc".toList "x".toList
    oneCommand afterOneCommand rfl rfl

/-- The reply to the first command of a script is thrown away by the client. -/
theorem oneCommand_not_answered :
    run step (init "abc".toList "x".toList) oneCommand =
        some afterOneCommand ∧
      afterOneCommand.replies = [] ∧
      ¬ EachAnsweredOnce afterOneCommand := by
  refine ⟨rfl, rfl, ?_⟩
  intro h
  exact absurd h.right (by decide)

end Session
end Pipe
end CallgentApi
