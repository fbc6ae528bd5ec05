import CallgentApi.Invoke.Outcome
import CallgentApi.Lib.Transition

/-!
# Commands in flight

A subprocess may send a command before the last one is answered, and `onLine`
does not wait for one chain before it starts the next.  The chains end in any
order, and what is done about one of them freezes the process of all.
-/

namespace CallgentApi
namespace Invoke

open Js Event Pipe Effect Transition

variable {sigma : Type}

abbrev ChainResult :=
  Except Thrown (InvokeStatus × Option PendingOrResponse)

/-- Where a command stands: its chain runs, or has ended and the invocation is
settled, or `onLine` is through. -/
inductive CommandStage where
  | unsent
  | chaining (cmdCode : Option Text)
  | settled (cmdCode : Option Text) (result : ChainResult)
  | finished (cmdCode : Option Text) (result : ChainResult)

def CommandStage.invokeId : CommandStage -> Option Text
  | .unsent => none
  | .chaining cmdCode => some (cmdCode.getD [])
  | .settled cmdCode _ => some (cmdCode.getD [])
  | .finished cmdCode _ => some (cmdCode.getD [])

/-- The request with its commands; `running` is whether the subprocess is, and
`replies` are those that it was still running for. -/
structure InFlight (sigma : Type) where
  call : CallState sigma
  stage : Nat -> CommandStage
  running : Bool
  replies : List (Nat × Text)

/-- What happens: `work` is what the chains do besides, and `exit` the end of
a subprocess that nobody has frozen. -/
inductive PipeMove (sigma : Type) where
  | arrive (i : Nat) (cmdCode epName : Option Text) (args : Value)
  | work (next : CallState sigma)
  | settle (i : Nat) (result : ChainResult)
  | react (i : Nat)
  | exit

def reply (cmdPrefix : Text) (cmdCode : Option Text)
    (resp : Option PendingOrResponse) : Text :=
  replyMessage cmdPrefix (interpolate cmdCode)
    (payloadText (resp.map PendingOrResponse.toJson))

namespace InFlight

def init (call : CallState sigma) : InFlight sigma where
  call := call
  stage := fun _ => .unsent
  running := true
  replies := []

def setStage (s : InFlight sigma) (i : Nat) (stage : CommandStage) :
    InFlight sigma :=
  { s with stage := Function.update s.stage i stage }

def arrive (s : InFlight sigma) (i : Nat) (cmdCode epName : Option Text)
    (args : Value) : Option (InFlight sigma) :=
  match s.stage i with
  | .unsent =>
      some
        { s.setStage i (.chaining cmdCode) with
            call := (chainStart epName args (cmdCode.getD []) s.call).2 }
  | _ => none

/-- A chain changes neither the invocations of the request nor what was asked
of its subprocess. -/
def work (s : InFlight sigma) (next : CallState sigma) : InFlight sigma :=
  { s with
      call :=
        { next with
            event := next.event.withInvocations s.call.event.context.invocations
            subprocess := s.call.subprocess } }

/-- The `finally` block of `_invokeSEP`. -/
def settle (s : InFlight sigma) (i : Nat) (result : ChainResult) :
    Option (InFlight sigma) :=
  match s.stage i with
  | .chaining cmdCode =>
      some
        { s.setStage i (.settled cmdCode result) with
            call := Invoke.settle (cmdCode.getD []) result.toOption s.call }
  | _ => none

def ask (s : InFlight sigma) (request : SubprocessCall) : InFlight sigma :=
  { s with
      call := { s.call with subprocess := s.call.subprocess ++ [request] } }

/-- `onLine` after `_invokeSEP`.  A process that is frozen is killed, and what
is written to one that does not run any more reaches nobody. -/
def react (cwd : List Text) (cmdPrefix : Text) (s : InFlight sigma)
    (i : Nat) : Option (InFlight sigma) :=
  match s.stage i with
  | .settled cmdCode (.error e) =>
      some (s.setStage i (.finished cmdCode (.error e)))
  | .settled cmdCode (.ok (status, resp)) =>
      let s' := s.setStage i (.finished cmdCode (.ok (status, resp)))
      if PendingOrResponse.isPending resp then
        some { s'.ask (.freeze cwd) with running := false }
      else
        let message := reply cmdPrefix cmdCode resp
        some
          { s'.ask (.write message) with
              replies :=
                if s.running then s.replies ++ [(i, message)] else s.replies }
  | _ => none

def step (cwd : List Text) (cmdPrefix : Text) (s : InFlight sigma) :
    PipeMove sigma -> Option (InFlight sigma)
  | .arrive i cmdCode epName args => s.arrive i cmdCode epName args
  | .work next => some (s.work next)
  | .settle i result => s.settle i result
  | .react i => s.react cwd cmdPrefix i
  | .exit => some { s with running := false }

/-! ## Where an outcome is -/

/-- The messages that were written for a command while the process ran. -/
def repliesFor (s : InFlight sigma) (i : Nat) : List Text :=
  (s.replies.filter fun r => r.1 == i).map Prod.snd

/-- The invocation that is still filed after the chain has ended. -/
def filed : ChainResult -> Option InvokeStatus
  | .ok (status, resp) =>
      if PendingOrResponse.isPending resp then some status else none
  | .error _ => none

theorem filed_ok (status : InvokeStatus) (resp : Option PendingOrResponse) :
    filed (.ok (status, resp)) =
      if PendingOrResponse.isPending resp then some status else none := rfl

def Answered (cmdPrefix : Text) (s : InFlight sigma) (i : Nat)
    (cmdCode : Option Text) (result : ChainResult) : Prop :=
  exists status resp, result = .ok (status, resp) ∧
    s.repliesFor i = [reply cmdPrefix cmdCode resp]

def Recorded (s : InFlight sigma) (cmdCode : Option Text)
    (result : ChainResult) : Prop :=
  exists status, filed result = some status ∧
    entry (cmdCode.getD []) s.call = some status

/-- The outcome of every command that `onLine` is through with is a reply to
the running process or stays recorded. -/
def NoneLost (cmdPrefix : Text) (s : InFlight sigma) : Prop :=
  forall i cmdCode result, s.stage i = .finished cmdCode result ->
    s.Answered cmdPrefix i cmdCode result ∨ s.Recorded cmdCode result

def Numbered (s : InFlight sigma) : PipeMove sigma -> Prop
  | .arrive _ cmdCode _ _ => entry (cmdCode.getD []) s.call = none ∧
      forall j, (s.stage j).invokeId ≠ some (cmdCode.getD [])
  | _ => True

/-- No chain has thrown, and a response comes while the process runs. -/
def InTime (s : InFlight sigma) : PipeMove sigma -> Prop
  | .react i => forall cmdCode result, s.stage i = .settled cmdCode result ->
      exists status resp, result = .ok (status, resp) ∧
        (PendingOrResponse.isPending resp = false -> s.running = true)
  | _ => True

/-! ## What a move does -/

@[simp] theorem setStage_self (s : InFlight sigma) (i : Nat)
    (stage : CommandStage) : (s.setStage i stage).stage i = stage := by
  simp [setStage]

theorem setStage_of_ne (s : InFlight sigma) {i j : Nat}
    (stage : CommandStage) (h : j ≠ i) :
    (s.setStage i stage).stage j = s.stage j := by
  simp [setStage, h]

theorem arrive_some {s s' : InFlight sigma} {i : Nat}
    {cmdCode epName : Option Text} {args : Value}
    (h : s.arrive i cmdCode epName args = some s') :
    s.stage i = .unsent ∧
      s' = { s.setStage i (.chaining cmdCode) with
        call := (chainStart epName args (cmdCode.getD []) s.call).2 } := by
  unfold arrive at h
  cases hstage : s.stage i with
  | unsent =>
      rw [hstage] at h
      exact ⟨rfl, (Option.some.inj h).symm⟩
  | chaining | settled | finished =>
      rw [hstage] at h
      cases h

theorem settle_some {s s' : InFlight sigma} {i : Nat} {result : ChainResult}
    (h : s.settle i result = some s') :
    exists cmdCode, s.stage i = .chaining cmdCode ∧
      s' = { s.setStage i (.settled cmdCode result) with
        call := Invoke.settle (cmdCode.getD []) result.toOption s.call } := by
  unfold settle at h
  cases hstage : s.stage i with
  | chaining cmdCode =>
      rw [hstage] at h
      exact ⟨cmdCode, rfl, (Option.some.inj h).symm⟩
  | unsent | settled | finished =>
      rw [hstage] at h
      cases h

/-- What `onLine` does about a result, besides the end of the command. -/
inductive Reacts (cmdPrefix : Text) (s s' : InFlight sigma) (i : Nat)
    (cmdCode : Option Text) : ChainResult -> Prop where
  | threw {e : Thrown} (hreplies : s'.replies = s.replies) :
      Reacts cmdPrefix s s' i cmdCode (.error e)
  | froze {status : InvokeStatus} {resp : Option PendingOrResponse}
      (hpending : PendingOrResponse.isPending resp = true)
      (hreplies : s'.replies = s.replies) :
      Reacts cmdPrefix s s' i cmdCode (.ok (status, resp))
  | replied {status : InvokeStatus} {resp : Option PendingOrResponse}
      (hdone : PendingOrResponse.isPending resp = false)
      (hreplies : s'.replies =
        if s.running then s.replies ++ [(i, reply cmdPrefix cmdCode resp)]
        else s.replies) :
      Reacts cmdPrefix s s' i cmdCode (.ok (status, resp))

theorem react_some {cwd : List Text} {cmdPrefix : Text}
    {s s' : InFlight sigma} {i : Nat}
    (h : s.react cwd cmdPrefix i = some s') :
    exists cmdCode result, s.stage i = .settled cmdCode result ∧
      s'.stage = (s.setStage i (.finished cmdCode result)).stage ∧
      s'.call.event = s.call.event ∧
      Reacts cmdPrefix s s' i cmdCode result := by
  unfold react at h
  cases hstage : s.stage i with
  | settled cmdCode result =>
      rw [hstage] at h
      cases result with
      | error e =>
          cases Option.some.inj h
          exact ⟨cmdCode, .error e, rfl, rfl, rfl, .threw rfl⟩
      | ok ended =>
          rcases ended with ⟨status, resp⟩
          dsimp only at h
          refine ⟨cmdCode, .ok (status, resp), rfl, ?_⟩
          split at h
          · rename_i hpending
            cases Option.some.inj h
            exact ⟨rfl, rfl, .froze hpending rfl⟩
          · rename_i hdone
            cases Option.some.inj h
            exact ⟨rfl, rfl, .replied (Bool.eq_false_of_not_eq_true hdone) rfl⟩
  | unsent | chaining | finished =>
      rw [hstage] at h
      cases h

theorem entry_settle_filed (invokeId : Text) (result : ChainResult)
    (s : CallState sigma) :
    entry invokeId (Invoke.settle invokeId result.toOption s) =
      filed result := by
  cases result with
  | error e => exact Invocations.entries_delete_self _ _
  | ok ended =>
      rcases ended with ⟨status, resp⟩
      show (if PendingOrResponse.isPending resp then
          s.event.context.invocations.set invokeId status
        else s.event.context.invocations.delete invokeId).entries invokeId =
          if PendingOrResponse.isPending resp then some status else none
      split
      · exact Invocations.entries_set_self _ _ _
      · exact Invocations.entries_delete_self _ _

/-! ## The moves of one command in a row -/

theorem work_eq {s : InFlight sigma} {next : CallState sigma}
    (h : next.kept = s.call.kept) : s.work next = { s with call := next } := by
  have hinvocations : s.call.event.context.invocations =
      next.event.context.invocations :=
    (congrArg Kept.invocations h).symm
  have hsubprocess : s.call.subprocess = next.subprocess :=
    (congrArg Kept.subprocess h).symm
  unfold work
  rw [hinvocations, hsubprocess]
  rfl

theorem run_eq_onLine {host : InvokeHost sigma} {cwd : List Text}
    {cmdPrefix msg : Text} {cmdCode : Option Text} {v : Json}
    (h : Commands host cmdPrefix msg cmdCode v) (pipe : PipeState)
    {s : InFlight sigma} {i : Nat} (hunsent : s.stage i = .unsent) :
    exists next result t,
      run (step cwd cmdPrefix) s
        [.arrive i cmdCode (commandOf v).1 (commandOf v).2, .work next,
          .settle i result, .react i] = some t ∧
      t.call.event =
        ((onLine host cwd cmdPrefix pipe msg).exec s.call).2.event ∧
      t.call.subprocess =
        ((onLine host cwd cmdPrefix pipe msg).exec s.call).2.subprocess := by
  let id := cmdCode.getD []
  let start := chainStart (commandOf v).1 (commandOf v).2 id s.call
  have hinvoke := exec_invokeSEP host (commandOf v).1 (commandOf v).2 cmdCode
    s.call
  have hkept := kept_chain host.toChainHost start.1 start.2
  -- the chain may do anything that the moves do not record
  cases hchain : (chain host.toChainHost start.1).exec start.2 with
  | mk result next =>
      rw [hchain] at hkept
      have hsame : (chain host.toChainHost (chainStart (commandOf v).1
          (commandOf v).2 (cmdCode.getD []) s.call).1).exec
          (chainStart (commandOf v).1 (commandOf v).2 (cmdCode.getD [])
            s.call).2 = (result, next) := hchain
      rw [hsame] at hinvoke
      -- the command after its chain, and before `onLine` goes on
      let arrived : InFlight sigma :=
        { s.setStage i (.chaining cmdCode) with call := start.2 }
      let ended : InFlight sigma :=
        { (arrived.setStage i (.settled cmdCode result)) with
            call := Invoke.settle id result.toOption next }
      have hrun : forall t, ended.react cwd cmdPrefix i = some t ->
          run (step cwd cmdPrefix) s
            [.arrive i cmdCode (commandOf v).1 (commandOf v).2, .work next,
              .settle i result, .react i] = some t := by
        intro t hreact
        have hwork : arrived.work next = { arrived with call := next } :=
          work_eq hkept
        have harrive : s.arrive i cmdCode (commandOf v).1 (commandOf v).2 =
            some arrived := by
          unfold InFlight.arrive
          rw [hunsent]
        have hsettle : InFlight.settle { arrived with call := next } i result =
            some ended := by
          unfold InFlight.settle
          rw [show ({ arrived with call := next } : InFlight sigma).stage i =
            .chaining cmdCode from s.setStage_self i _]
          rfl
        simp only [run, step, harrive, hwork, hsettle, hreact]
      have hstage : ended.stage i = .settled cmdCode result :=
        arrived.setStage_self i _
      exists next, result
      cases result with
      | error e =>
          have honLine := exec_onLine_threw h hinvoke cwd pipe
          have hreact : ended.react cwd cmdPrefix i =
              some (ended.setStage i (.finished cmdCode (.error e))) := by
            unfold react
            rw [hstage]
          rw [honLine]
          exact ⟨_, hrun _ hreact, rfl, rfl⟩
      | ok r =>
          rcases r with ⟨status, resp⟩
          cases hpending : PendingOrResponse.isPending resp with
          | true =>
              cases hfrozen : exec (host.freezeProcess cwd)
                  (Invoke.settle id (some (status, resp)) next).world.outside
                with
              | mk frozen outside =>
                  rcases exec_onLine_pending h hinvoke hpending hfrozen pipe
                    with ⟨last, honLine, hevent, hsubprocess⟩
                  have hreact : ended.react cwd cmdPrefix i =
                      some { ((ended.setStage i (.finished cmdCode
                        (.ok (status, resp)))).ask (.freeze cwd)) with
                          running := false } := by
                    unfold react
                    rw [hstage]
                    dsimp only
                    rw [if_pos hpending]
                  rw [honLine]
                  exact ⟨_, hrun _ hreact, hevent.symm, hsubprocess.symm⟩
          | false =>
              have honLine := exec_onLine_answered h hinvoke hpending cwd pipe
              have hnot : ¬ PendingOrResponse.isPending resp = true := by
                rw [hpending]
                exact Bool.false_ne_true
              have hreact : exists t, ended.react cwd cmdPrefix i = some t ∧
                  t.call = (ended.ask (.write (reply cmdPrefix cmdCode
                    resp))).call := by
                unfold react
                rw [hstage]
                dsimp only
                rw [if_neg hnot]
                exact ⟨_, rfl, rfl⟩
              rcases hreact with ⟨t, hreact, hcall⟩
              rw [honLine]
              refine ⟨t, hrun t hreact, ?_, ?_⟩
              · rw [hcall]
                rfl
              · rw [hcall]
                rfl

/-! ## What every run keeps -/

def Ended (s : InFlight sigma) (i : Nat) (cmdCode : Option Text)
    (result : ChainResult) : Prop :=
  s.stage i = .settled cmdCode result ∨ s.stage i = .finished cmdCode result

/-- Every command has an invocation of its own, which is filed as its chain has
left it, and is not answered before `onLine` is through with it. -/
structure Tidy (s : InFlight sigma) : Prop where
  distinct : forall i j id, (s.stage i).invokeId = some id ->
    (s.stage j).invokeId = some id -> i = j
  filed : forall i cmdCode result, s.Ended i cmdCode result ->
    entry (cmdCode.getD []) s.call = filed result
  silent : forall i, (forall cmdCode result,
    s.stage i ≠ .finished cmdCode result) -> s.repliesFor i = []

theorem tidy_init (call : CallState sigma) : Tidy (init call) where
  distinct := by
    intro i j id h
    cases h
  filed := by
    intro i cmdCode result h
    rcases h with h | h
    · cases h
    · cases h
  silent := fun _ _ => rfl

theorem Ended.invokeId {s : InFlight sigma} {i : Nat} {cmdCode : Option Text}
    {result : ChainResult} (h : s.Ended i cmdCode result) :
    (s.stage i).invokeId = some (cmdCode.getD []) := by
  rcases h with h | h
  · rw [h]
    rfl
  · rw [h]
    rfl

theorem repliesFor_append (s : InFlight sigma) (i j : Nat) (message : Text) :
    { s with replies := s.replies ++ [(i, message)] }.repliesFor j =
      if i = j then s.repliesFor j ++ [message] else s.repliesFor j := by
  unfold repliesFor
  rw [List.filter_append, List.map_append]
  split
  · rename_i hij
    simp [hij]
  · rename_i hij
    simp [hij]

theorem repliesFor_of_reacts {cmdPrefix : Text} {s s' : InFlight sigma}
    {i j : Nat} {cmdCode : Option Text} {result : ChainResult}
    (h : Reacts cmdPrefix s s' i cmdCode result) (hne : j ≠ i) :
    s'.repliesFor j = s.repliesFor j := by
  unfold repliesFor
  cases h with
  | threw hreplies => rw [hreplies]
  | froze _ hreplies => rw [hreplies]
  | replied _ hreplies =>
      rw [hreplies]
      split
      · exact (repliesFor_append s i j _).trans (if_neg hne.symm)
      · rfl

theorem Tidy.arrive {s s' : InFlight sigma} {i : Nat}
    {cmdCode epName : Option Text} {args : Value} (h : Tidy s)
    (hnumbered : s.Numbered (.arrive i cmdCode epName args))
    (hstep : s.arrive i cmdCode epName args = some s') : Tidy s' := by
  rcases arrive_some hstep with ⟨hunsent, rfl⟩
  have hother : forall j, j ≠ i ->
      (s.setStage i (.chaining cmdCode)).stage j = s.stage j :=
    fun j hne => s.setStage_of_ne _ hne
  have hself := s.setStage_self i (.chaining cmdCode)
  constructor
  · intro j k id hj hk
    change ((s.setStage i (.chaining cmdCode)).stage j).invokeId = _ at hj
    change ((s.setStage i (.chaining cmdCode)).stage k).invokeId = _ at hk
    by_cases hji : j = i
    · by_cases hki : k = i
      · exact hji.trans hki.symm
      · rw [hji, hself] at hj
        rw [hother k hki] at hk
        exact absurd (hk.trans hj.symm) (hnumbered.right k)
    · rw [hother j hji] at hj
      by_cases hki : k = i
      · rw [hki, hself] at hk
        exact absurd (hj.trans hk.symm) (hnumbered.right j)
      · rw [hother k hki] at hk
        exact h.distinct j k id hj hk
  · intro j code result hended
    change (s.setStage i (.chaining cmdCode)).Ended j code result at hended
    by_cases hji : j = i
    · unfold Ended at hended
      rw [hji, hself] at hended
      rcases hended with heq | heq
      · cases heq
      · cases heq
    · unfold Ended at hended
      rw [hother j hji] at hended
      have hne : code.getD [] ≠ cmdCode.getD [] := by
        intro heq
        have hid := Ended.invokeId (s := s) hended
        rw [heq] at hid
        exact hnumbered.right j hid
      exact (entry_chainStart_of_ne hne epName args s.call).trans
        (h.filed j code result hended)
  · intro j hnot
    change forall code result,
      (s.setStage i (.chaining cmdCode)).stage j ≠ .finished code result at hnot
    show s.repliesFor j = []
    apply h.silent
    intro code result heq
    by_cases hji : j = i
    · rw [hji, hunsent] at heq
      cases heq
    · rw [← hother j hji] at heq
      exact hnot code result heq

theorem Tidy.settle {s s' : InFlight sigma} {i : Nat} {result : ChainResult}
    (h : Tidy s) (hstep : s.settle i result = some s') : Tidy s' := by
  rcases settle_some hstep with ⟨cmdCode, hchaining, rfl⟩
  have hself := s.setStage_self i (.settled cmdCode result)
  have hother : forall j, j ≠ i ->
      (s.setStage i (.settled cmdCode result)).stage j = s.stage j :=
    fun j hne => s.setStage_of_ne _ hne
  have hids : forall j,
      ((s.setStage i (.settled cmdCode result)).stage j).invokeId =
        (s.stage j).invokeId := by
    intro j
    by_cases hji : j = i
    · rw [hji, hself, hchaining]
      rfl
    · rw [hother j hji]
  constructor
  · intro j k id hj hk
    exact h.distinct j k id ((hids j).symm.trans hj) ((hids k).symm.trans hk)
  · intro j code result' hended
    change (s.setStage i (.settled cmdCode result)).Ended j code result'
      at hended
    by_cases hji : j = i
    · unfold Ended at hended
      rw [hji, hself] at hended
      rcases hended with heq | heq
      · cases heq
        exact entry_settle_filed (cmdCode.getD []) result s.call
      · cases heq
    · unfold Ended at hended
      rw [hother j hji] at hended
      have hne : code.getD [] ≠ cmdCode.getD [] := by
        intro heq
        have hid := Ended.invokeId (s := s) hended
        have hid' : (s.stage i).invokeId = some (code.getD []) := by
          rw [hchaining, heq]
          rfl
        exact hji (h.distinct j i _ hid hid')
      exact (entry_settle_of_ne hne _ s.call).trans
        (h.filed j code result' hended)
  · intro j hnot
    change forall code r,
      (s.setStage i (.settled cmdCode result)).stage j ≠ .finished code r
        at hnot
    show s.repliesFor j = []
    apply h.silent
    intro code r heq
    by_cases hji : j = i
    · rw [hji, hchaining] at heq
      cases heq
    · rw [← hother j hji] at heq
      exact hnot code r heq

theorem Tidy.react {cwd : List Text} {cmdPrefix : Text}
    {s s' : InFlight sigma} {i : Nat} (h : Tidy s)
    (hstep : s.react cwd cmdPrefix i = some s') : Tidy s' := by
  rcases react_some hstep with
    ⟨cmdCode, result, hsettled, hstage, hevent, hreacts⟩
  have hself : s'.stage i = .finished cmdCode result := by
    rw [hstage]
    exact s.setStage_self i _
  have hother : forall j, j ≠ i -> s'.stage j = s.stage j := by
    intro j hne
    rw [hstage]
    exact s.setStage_of_ne _ hne
  have hids : forall j, (s'.stage j).invokeId = (s.stage j).invokeId := by
    intro j
    by_cases hji : j = i
    · rw [hji, hself, hsettled]
      rfl
    · rw [hother j hji]
  constructor
  · intro j k id hj hk
    exact h.distinct j k id ((hids j).symm.trans hj) ((hids k).symm.trans hk)
  · intro j code result' hended
    have hentry : entry (code.getD []) s'.call = entry (code.getD []) s.call :=
      congrArg (fun event : EventObject =>
        event.context.invocations.entries (code.getD [])) hevent
    rw [hentry]
    apply h.filed j
    by_cases hji : j = i
    · unfold Ended at hended
      rw [hji, hself] at hended
      rw [hji]
      rcases hended with heq | heq
      · cases heq
      · cases heq
        exact Or.inl hsettled
    · unfold Ended at hended
      rw [hother j hji] at hended
      exact hended
  · intro j hnot
    by_cases hji : j = i
    · rw [hji] at hnot
      exact absurd hself (hnot cmdCode result)
    · rw [repliesFor_of_reacts hreacts hji]
      apply h.silent
      intro code r
      rw [← hother j hji]
      exact hnot code r

theorem tidy_step {cwd : List Text} {cmdPrefix : Text} (s : InFlight sigma)
    (move : PipeMove sigma) (s' : InFlight sigma) (h : Tidy s)
    (hnumbered : s.Numbered move)
    (hstep : s.step cwd cmdPrefix move = some s') : Tidy s' := by
  cases move with
  | arrive i cmdCode epName args => exact h.arrive hnumbered hstep
  | work next =>
      rw [← Option.some.inj hstep]
      exact ⟨h.distinct, h.filed, h.silent⟩
  | settle i result => exact h.settle hstep
  | react i => exact h.react hstep
  | exit =>
      rw [← Option.some.inj hstep]
      exact ⟨h.distinct, h.filed, h.silent⟩

/-! ## Commands that are finished -/

theorem finished_stays {cwd : List Text} {cmdPrefix : Text}
    {s s' : InFlight sigma} {move : PipeMove sigma} {i : Nat}
    {cmdCode : Option Text} {result : ChainResult}
    (h : s.stage i = .finished cmdCode result)
    (hstep : s.step cwd cmdPrefix move = some s') :
    s'.stage i = .finished cmdCode result ∧
      s'.repliesFor i = s.repliesFor i := by
  cases move with
  | arrive j code epName args =>
      rcases arrive_some hstep with ⟨hunsent, rfl⟩
      have hne : i ≠ j := by
        rintro rfl
        rw [h] at hunsent
        cases hunsent
      exact ⟨(s.setStage_of_ne _ hne).trans h, rfl⟩
  | work next =>
      rw [← Option.some.inj hstep]
      exact ⟨h, rfl⟩
  | settle j result' =>
      rcases settle_some hstep with ⟨code, hchaining, rfl⟩
      have hne : i ≠ j := by
        rintro rfl
        rw [h] at hchaining
        cases hchaining
      exact ⟨(s.setStage_of_ne _ hne).trans h, rfl⟩
  | react j =>
      rcases react_some hstep with ⟨code, result', hsettled, hstage, _, hreacts⟩
      have hne : i ≠ j := by
        rintro rfl
        rw [h] at hsettled
        cases hsettled
      rw [hstage]
      exact ⟨(s.setStage_of_ne _ hne).trans h, repliesFor_of_reacts hreacts hne⟩
  | exit =>
      rw [← Option.some.inj hstep]
      exact ⟨h, rfl⟩

theorem finished_was {cwd : List Text} {cmdPrefix : Text}
    {s s' : InFlight sigma} {move : PipeMove sigma} {i : Nat}
    {cmdCode : Option Text} {result : ChainResult}
    (h : s'.stage i = .finished cmdCode result)
    (hstep : s.step cwd cmdPrefix move = some s') :
    s.stage i = .finished cmdCode result ∨
      (move = .react i ∧ s.stage i = .settled cmdCode result ∧
        Reacts cmdPrefix s s' i cmdCode result) := by
  cases move with
  | arrive j code epName args =>
      rcases arrive_some hstep with ⟨_, rfl⟩
      change (s.setStage j (.chaining code)).stage i = _ at h
      by_cases hij : i = j
      · rw [hij, setStage_self] at h
        cases h
      · rw [s.setStage_of_ne _ hij] at h
        exact Or.inl h
  | work next =>
      rw [← Option.some.inj hstep] at h
      exact Or.inl h
  | settle j result' =>
      rcases settle_some hstep with ⟨code, _, rfl⟩
      change (s.setStage j (.settled code result')).stage i = _ at h
      by_cases hij : i = j
      · rw [hij, setStage_self] at h
        cases h
      · rw [s.setStage_of_ne _ hij] at h
        exact Or.inl h
  | react j =>
      rcases react_some hstep with ⟨code, result', hsettled, hstage, _, hreacts⟩
      rw [hstage] at h
      by_cases hij : i = j
      · subst hij
        rw [setStage_self] at h
        cases h
        exact Or.inr ⟨rfl, hsettled, hreacts⟩
      · rw [s.setStage_of_ne _ hij] at h
        exact Or.inl h
  | exit =>
      rw [← Option.some.inj hstep] at h
      exact Or.inl h

/-- Every finished command is answered or pending. -/
def Kept (cmdPrefix : Text) (s : InFlight sigma) : Prop :=
  Tidy s ∧ forall i cmdCode result, s.stage i = .finished cmdCode result ->
    s.Answered cmdPrefix i cmdCode result ∨ (filed result).isSome

/-- A command is finished that is neither answered nor pending. -/
def Lost (s : InFlight sigma) : Prop :=
  Tidy s ∧ exists i cmdCode result, s.stage i = .finished cmdCode result ∧
    filed result = none ∧ s.repliesFor i = []

theorem Kept.noneLost {cmdPrefix : Text} {s : InFlight sigma}
    (h : s.Kept cmdPrefix) : s.NoneLost cmdPrefix := by
  intro i cmdCode result hfinished
  rcases h.right i cmdCode result hfinished with hanswered | hsome
  · exact Or.inl hanswered
  · rcases Option.isSome_iff_exists.mp hsome with ⟨status, hstatus⟩
    right
    refine ⟨status, hstatus, ?_⟩
    rw [h.left.filed i cmdCode result (Or.inr hfinished)]
    exact hstatus

theorem Lost.not_noneLost {cmdPrefix : Text} {s : InFlight sigma}
    (h : s.Lost) : ¬ s.NoneLost cmdPrefix := by
  rcases h with ⟨_, i, cmdCode, result, hfinished, hnone, hsilent⟩
  intro hkept
  rcases hkept i cmdCode result hfinished with
    ⟨status, resp, _, hreplies⟩ | ⟨status, hfiled, _⟩
  · rw [hsilent] at hreplies
    cases hreplies
  · rw [hnone] at hfiled
    cases hfiled

theorem kept_step {cwd : List Text} {cmdPrefix : Text} (s : InFlight sigma)
    (move : PipeMove sigma) (s' : InFlight sigma) (h : s.Kept cmdPrefix)
    (hmeets : s.Numbered move ∧ s.InTime move)
    (hstep : s.step cwd cmdPrefix move = some s') : s'.Kept cmdPrefix := by
  refine ⟨tidy_step s move s' h.left hmeets.left hstep, ?_⟩
  intro i cmdCode result hfinished
  rcases finished_was hfinished hstep with hbefore | ⟨rfl, hsettled, hreacts⟩
  · have hsame := (finished_stays hbefore hstep).right
    rcases h.right i cmdCode result hbefore with
      ⟨status, resp, hresult, hreplies⟩ | hsome
    · exact Or.inl ⟨status, resp, hresult, hsame.trans hreplies⟩
    · exact Or.inr hsome
  · rcases hmeets.right cmdCode result hsettled with
      ⟨status, resp, rfl, hrunning⟩
    have hsilent : s.repliesFor i = [] := by
      apply h.left.silent
      intro code r heq
      rw [hsettled] at heq
      cases heq
    cases hreacts with
    | froze hpending _ =>
        right
        rw [filed_ok, if_pos hpending]
        rfl
    | replied hdone hreplies =>
        left
        refine ⟨status, resp, rfl, ?_⟩
        rw [if_pos (hrunning hdone)] at hreplies
        have happend := repliesFor_append s i i (reply cmdPrefix cmdCode resp)
        rw [if_pos rfl, hsilent] at happend
        unfold repliesFor at happend ⊢
        rw [hreplies]
        exact happend

theorem lost_of_late {cwd : List Text} {cmdPrefix : Text} (s : InFlight sigma)
    (move : PipeMove sigma) (s' : InFlight sigma) (h : Tidy s)
    (hnumbered : s.Numbered move) (hlate : ¬ s.InTime move)
    (hstep : s.step cwd cmdPrefix move = some s') : s'.Lost := by
  refine ⟨tidy_step s move s' h hnumbered hstep, ?_⟩
  cases move with
  | react i =>
      rcases react_some hstep with
        ⟨cmdCode, result, hsettled, hstage, _, hreacts⟩
      have hsilent : s.repliesFor i = [] := by
        apply h.silent
        intro code r heq
        rw [hsettled] at heq
        cases heq
      have hfinished : s'.stage i = .finished cmdCode result := by
        rw [hstage]
        exact s.setStage_self i _
      have hlate' : ¬ exists status resp, result = .ok (status, resp) ∧
          (PendingOrResponse.isPending resp = false -> s.running = true) := by
        intro hgood
        apply hlate
        intro code r heq
        rw [hsettled] at heq
        cases heq
        exact hgood
      refine ⟨i, cmdCode, result, hfinished, ?_⟩
      cases hreacts with
      | threw hreplies =>
          refine ⟨rfl, ?_⟩
          unfold repliesFor at hsilent ⊢
          rw [hreplies]
          exact hsilent
      | @froze status resp hpending _ =>
          refine absurd ⟨status, resp, rfl, ?_⟩ hlate'
          intro hdone
          rw [hpending] at hdone
          cases hdone
      | @replied status resp hdone hreplies =>
          have hstopped : s.running ≠ true :=
            fun hrunning => hlate' ⟨status, resp, rfl, fun _ => hrunning⟩
          rw [if_neg hstopped] at hreplies
          constructor
          · rw [filed_ok, hdone]
            rfl
          · unfold repliesFor at hsilent ⊢
            rw [hreplies]
            exact hsilent
  | arrive i cmdCode epName args => exact absurd True.intro hlate
  | work next => exact absurd True.intro hlate
  | settle i result => exact absurd True.intro hlate
  | exit => exact absurd True.intro hlate

theorem lost_step {cwd : List Text} {cmdPrefix : Text} (s : InFlight sigma)
    (move : PipeMove sigma) (s' : InFlight sigma) (h : s.Lost)
    (hnumbered : s.Numbered move)
    (hstep : s.step cwd cmdPrefix move = some s') : s'.Lost := by
  rcases h with ⟨htidy, i, cmdCode, result, hfinished, hnone, hsilent⟩
  rcases finished_stays hfinished hstep with ⟨hstays, hsame⟩
  exact ⟨tidy_step s move s' htidy hnumbered hstep, i, cmdCode, result, hstays,
    hnone, hsame.trans hsilent⟩

/-- In a run of commands with codes of their own no outcome is lost, exactly
if no chain throws and every response comes while the process runs. -/
theorem none_lost_iff {cwd : List Text} {cmdPrefix : Text}
    {call : CallState sigma} {moves : List (PipeMove sigma)}
    {t : InFlight sigma}
    (hnumbered : StepsMeet (step cwd cmdPrefix) Numbered (init call) moves)
    (hrun : run (step cwd cmdPrefix) (init call) moves = some t) :
    t.NoneLost cmdPrefix <->
      StepsMeet (step cwd cmdPrefix) InTime (init call) moves := by
  constructor
  · intro hkept
    exact stepsMeet_of_trap tidy_step lost_of_late lost_step (tidy_init call)
      hnumbered hrun fun hlost => hlost.not_noneLost hkept
  · intro htime
    have hinit : (init call).Kept cmdPrefix := by
      refine ⟨tidy_init call, ?_⟩
      intro i cmdCode result h
      cases h
    exact (run_invariant_of_meets kept_step hinit (hnumbered.and htime)
      hrun).noneLost

/-! ## A response after a freeze -/

/-- Two commands of one script: the first is pending, the second is answered
at once. -/
def scriptMoves (later : List (PipeMove Unit)) : List (PipeMove Unit) :=
  .arrive 0 (some "-1".toList) (some "GET /mails".toList) none ::
    .arrive 1 (some "-2".toList) (some "GET /pets".toList) none :: later

/-- The result of a chain that leaves the invocation as it is. -/
def endsWith (invokeId : Text) (resp : PendingOrResponse) : ChainResult :=
  .ok (⟨invokeId, none, none, none, none, none, none⟩, some resp)

/-- The response comes before the first command freezes the process. -/
def answeredInTime : List (PipeMove Unit) :=
  scriptMoves
    [.settle 1 (endsWith "-2".toList (.ofData none)), .react 1,
      .settle 0 (endsWith "-1".toList .pending), .react 0]

theorem none_lost_answeredInTime :
    NoneLost "-e1".toList ((run (step [] "-e1".toList)
        (init failingCall) answeredInTime).get rfl) <->
      StepsMeet (step [] "-e1".toList) InTime (init failingCall)
        answeredInTime := by
  refine @none_lost_iff Unit [] "-e1".toList failingCall answeredInTime _ ?_
    (Option.some_get _).symm
  refine ⟨⟨rfl, fun _ => by simp [init, CommandStage.invokeId]⟩, fun s1 h1 =>
    ⟨?_, fun _ _ => ⟨True.intro, fun _ _ => ⟨True.intro, fun _ _ =>
      ⟨True.intro, fun _ _ => ⟨True.intro, fun _ _ => True.intro⟩⟩⟩⟩⟩⟩
  rcases Option.some.inj h1
  refine ⟨rfl, ?_⟩
  intro j
  cases j with
  | zero => decide
  | succ j =>
      intro h
      cases h

/-- The response comes after the first command has frozen the process. -/
def answeredTooLate : List (PipeMove Unit) :=
  scriptMoves
    [.settle 0 (endsWith "-1".toList .pending), .react 0,
      .settle 1 (endsWith "-2".toList (.ofData none)), .react 1]

theorem answeredTooLate_lost :
    exists t, run (step [] "-e1".toList) (init failingCall) answeredTooLate =
        some t ∧
      t.repliesFor 1 = [] ∧ entry "-2".toList t.call = none ∧
      ¬ t.NoneLost "-e1".toList := by
  refine ⟨_, rfl, rfl, rfl, ?_⟩
  intro h
  rcases h 1 _ _ rfl with ⟨_, _, _, hreplies⟩ | ⟨_, hfiled, _⟩
  · cases hreplies
  · cases hfiled

end InFlight
end Invoke
end CallgentApi
