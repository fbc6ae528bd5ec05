import CallgentApi.Pipe.Session
import CallgentApi.Invoke.ScriptRunner

/-!
# Which invocations stay filed

An invocation is filed in the request while its response is pending, under the
id of its command or, for a direct one, under the empty id.  Everything else
that a key could name is left alone.
-/

namespace CallgentApi
namespace Invoke

open Js Event Pipe Effect

variable {sigma : Type}

/-- What no service function of a request changes. -/
def settings (s : CallState sigma) : EventHeader × Bool × Option Text :=
  (s.event.toEventHeader, s.event.stopPropagation, s.event.context.epName)

def entry (id : Text) (s : CallState sigma) : Option InvokeStatus :=
  s.event.context.invocations.entries id

theorem settings_of_kept {a : Type} {x : Action sigma a}
    (h : Keeps CallState.kept x) : Keeps settings x :=
  h.comp fun k => (k.header, k.stopPropagation, k.epName)

theorem entry_of_kept {a : Type} {x : Action sigma a}
    (h : Keeps CallState.kept x) (id : Text) : Keeps (entry id) x :=
  h.comp fun k => k.invocations.entries id

theorem entry_settle_of_ne {invokeId other : Text} (h : other ≠ invokeId)
    (result : Option (InvokeStatus × Option PendingOrResponse))
    (s : CallState sigma) :
    entry other (settle invokeId result s) = entry other s := by
  cases result with
  | none => exact Invocations.entries_delete_of_ne _ h
  | some r =>
      rcases r with ⟨status, resp⟩
      show (if PendingOrResponse.isPending resp then
          s.event.context.invocations.set invokeId status
        else s.event.context.invocations.delete invokeId).entries other = _
      split
      · exact Invocations.entries_set_of_ne _ _ h
      · exact Invocations.entries_delete_of_ne _ h

theorem entry_settle_self (invokeId : Text)
    (result : Option (InvokeStatus × Option PendingOrResponse))
    (s : CallState sigma) :
    (entry invokeId (settle invokeId result s)).isSome =
      PendingOrResponse.isPending (result.bind Prod.snd) := by
  cases result with
  | none =>
      have hdeleted : entry invokeId (settle invokeId none s) = none :=
        Invocations.entries_delete_self _ _
      rw [hdeleted]
      rfl
  | some r =>
      rcases r with ⟨status, resp⟩
      show ((if PendingOrResponse.isPending resp then
          s.event.context.invocations.set invokeId status
        else s.event.context.invocations.delete invokeId).entries
          invokeId).isSome = PendingOrResponse.isPending resp
      cases hpending : PendingOrResponse.isPending resp with
      | true => simp
      | false => simp

/-- The state in which the chain of an invocation begins. -/
def chainStart (epName : Option Text) (args : Value) (invokeId : Text)
    (s : CallState sigma) : InvokeStatus × CallState sigma :=
  match entry invokeId s with
  | some invocation =>
      (invocation, { s with world := { s.world with invokeId := some invokeId } })
  | none =>
      let invocation : InvokeStatus :=
        { invokeId := invokeId
          epName := epName
          args := args
          response := none
          processor := none
          cacheKey := none
          cacheTtl := none }
      (invocation,
        { s with
            event := s.event.withInvocations
              (s.event.context.invocations.set invokeId invocation)
            world := { s.world with invokeId := some invokeId } })

theorem settings_chainStart (epName : Option Text) (args : Value)
    (invokeId : Text) (s : CallState sigma) :
    settings (chainStart epName args invokeId s).2 = settings s := by
  unfold chainStart
  split
  · rfl
  · rfl

theorem entry_chainStart_of_ne {invokeId other : Text} (h : other ≠ invokeId)
    (epName : Option Text) (args : Value) (s : CallState sigma) :
    entry other (chainStart epName args invokeId s).2 = entry other s := by
  unfold chainStart
  split
  · rfl
  · exact Invocations.entries_set_of_ne _ _ h

theorem exec_openInvocation (epName : Option Text) (args : Value)
    (invokeId : Text) (s : CallState sigma) :
    (openInvocation epName args invokeId).exec s =
      (.ok (chainStart epName args invokeId s).1,
        { (chainStart epName args invokeId s).2 with world := s.world }) := by
  unfold openInvocation chainStart entry
  rw [exec_bind_of_ok (exec_getEvent s)]
  cases s.event.context.invocations.entries invokeId with
  | some invocation => rfl
  | none => rfl

theorem exec_invokeSEP (host : InvokeHost sigma) (epName : Option Text)
    (args : Value) (invokeId : Option Text) (s : CallState sigma) :
    (invokeSEP host epName args invokeId).exec s =
      match (chain host.toChainHost
          (chainStart epName args (invokeId.getD []) s).1).exec
            (chainStart epName args (invokeId.getD []) s).2 with
      | (.ok (status, resp), next) =>
          (.ok resp, settle (invokeId.getD []) (some (status, resp)) next)
      | (.error e, next) => (.error e, settle (invokeId.getD []) none next) := by
  have hworld : (chainStart epName args (invokeId.getD []) s).2 =
      { (chainStart epName args (invokeId.getD []) s).2 with
          world := { s.world with invokeId := some (invokeId.getD []) } } := by
    unfold chainStart
    split
    · rfl
    · rfl
  have hset : (Action.setInvokeId (some (invokeId.getD [])) :
      Action sigma Unit).exec
        { (chainStart epName args (invokeId.getD []) s).2 with
            world := s.world } =
      (.ok (), (chainStart epName args (invokeId.getD []) s).2) := by
    rw [hworld]
    rfl
  unfold invokeSEP
  rw [exec_bind_of_ok (exec_openInvocation epName args (invokeId.getD []) s),
    exec_bind_of_ok hset, exec_bind, exec_finally]
  cases hchain : (chain host.toChainHost
      (chainStart epName args (invokeId.getD []) s).1).exec
        (chainStart epName args (invokeId.getD []) s).2 with
  | mk result next =>
      cases result with
      | ok r => rfl
      | error e => rfl

theorem settings_invokeSEP (host : InvokeHost sigma) (epName : Option Text)
    (args : Value) (invokeId : Option Text) :
    Keeps settings (invokeSEP host epName args invokeId) := by
  intro s
  have hkept := settings_of_kept (kept_chain host.toChainHost
    (chainStart epName args (invokeId.getD []) s).1)
    (chainStart epName args (invokeId.getD []) s).2
  rw [settings_chainStart] at hkept
  rw [exec_invokeSEP]
  split
  · rename_i hchain
    rw [hchain] at hkept
    exact hkept
  · rename_i hchain
    rw [hchain] at hkept
    exact hkept

theorem entry_invokeSEP_of_ne (host : InvokeHost sigma) (epName : Option Text)
    (args : Value) {invokeId : Option Text} {other : Text}
    (h : other ≠ invokeId.getD []) :
    Keeps (entry other) (invokeSEP host epName args invokeId) := by
  intro s
  have hkept := entry_of_kept (kept_chain host.toChainHost
    (chainStart epName args (invokeId.getD []) s).1) other
    (chainStart epName args (invokeId.getD []) s).2
  rw [entry_chainStart_of_ne h] at hkept
  rw [exec_invokeSEP]
  split
  · rename_i hchain
    rw [hchain] at hkept
    exact (entry_settle_of_ne h _ _).trans hkept
  · rename_i hchain
    rw [hchain] at hkept
    exact (entry_settle_of_ne h _ _).trans hkept

/-- An invocation that throws is not filed any more; one that returns is filed
while it is pending. -/
theorem entry_invokeSEP_self {host : InvokeHost sigma} {epName : Option Text}
    {args : Value} {invokeId : Option Text} {s next : CallState sigma}
    {result : Except Thrown (Option PendingOrResponse)}
    (h : (invokeSEP host epName args invokeId).exec s = (result, next)) :
    (entry (invokeId.getD []) next).isSome =
      PendingOrResponse.isPending result.toOption.join := by
  rw [exec_invokeSEP] at h
  split at h
  · cases h
    exact entry_settle_self _ _ _
  · cases h
    exact entry_settle_self _ _ _

/-! ## What a script does to the request -/

/-- The value of `f` depends neither on what is asked of the subprocess while
it runs nor on what lies outside. -/
structure RunsBeside {t : Type} (f : CallState sigma -> t) : Prop where
  write : forall message,
    Keeps f (Action.callSubprocess (.write message) : Action sigma Unit)
  freeze : forall cwd,
    Keeps f (Action.callSubprocess (.freeze cwd) : Action sigma Unit)
  outside : forall {a : Type} (x : Effect sigma Thrown a),
    Keeps f (Action.outside x)

section Lines

variable {t : Type} {f : CallState sigma -> t} {host : InvokeHost sigma}

theorem keeps_onLine {cmdPrefix msg : Text} (hf : RunsBeside f)
    (h : forall cmdCode content,
      readLine cmdPrefix msg = .command cmdCode content ->
        forall epName args, Keeps f (invokeSEP host epName args cmdCode))
    (cwd : List Text) (pipe : PipeState) :
    Keeps f (onLine host cwd cmdPrefix pipe msg) := by
  unfold onLine
  split
  · exact Keeps.pure _
  · exact Keeps.pure _
  · exact Keeps.pure _
  · rename_i cmdCode content hline
    split
    · exact Keeps.pure _
    · exact Keeps.pure _
    · refine Keeps.bind (Keeps.attempt (h cmdCode content hline _ _)) ?_
      intro served
      split
      · exact Keeps.pure _
      · split
        · refine Keeps.bind (hf.freeze cwd) fun _ => ?_
          refine Keeps.bind (Keeps.attempt (hf.outside _)) fun frozen => ?_
          split
          · exact Keeps.pure _
          · exact Keeps.pure _
        · exact Keeps.bind (hf.write _) fun _ => Keeps.pure _

theorem keeps_onLines {cmdPrefix : Text} {lines : List Text}
    (hf : RunsBeside f)
    (h : forall msg, msg ∈ lines -> forall cmdCode content,
      readLine cmdPrefix msg = .command cmdCode content ->
        forall epName args, Keeps f (invokeSEP host epName args cmdCode))
    (cwd : List Text) (pipe : PipeState) :
    Keeps f (onLines host cwd cmdPrefix lines pipe) := by
  induction lines generalizing pipe with
  | nil => exact Keeps.pure _
  | cons msg rest ih =>
      refine Keeps.bind (keeps_onLine hf (h msg List.mem_cons_self) cwd pipe) ?_
      exact fun pipe => ih (fun m hm => h m (List.mem_cons_of_mem msg hm)) pipe

end Lines

theorem runsBeside_event {t : Type} (f : EventObject -> t) :
    RunsBeside fun s : CallState sigma => f s.event where
  write := fun _ _ => rfl
  freeze := fun _ _ => rfl
  outside := fun _ _ => rfl

section Script

variable {t : Type} {f : EventObject -> t} {host : InvokeHost sigma}

/-- The command of a line, if it has one, does not change the value of `f`. -/
def LineKeeps (f : EventObject -> t) (host : InvokeHost sigma)
    (cmdPrefix msg : Text) : Prop :=
  forall cmdCode content, readLine cmdPrefix msg = .command cmdCode content ->
    forall epName args,
      Keeps (fun s => f s.event) (invokeSEP host epName args cmdCode)

theorem exec_spawnOrRestoreSubprocess_event {s : CallState sigma}
    (h : forall cwd message,
      Returns
        (fun session => forall msg, msg ∈ session.lines ->
          LineKeeps f host (commandPrefix s.event) msg)
        (host.spawnOrRestore cwd (commandPrefix s.event) message))
    (kind : ObjectKind) (response : Value) (invokeId : Text) :
    f ((spawnOrRestoreSubprocess host kind response invokeId).exec s).2.event =
      f s.event := by
  unfold spawnOrRestoreSubprocess
  rw [exec_bind_of_ok (exec_getEvent s)]
  split
  · rfl
  · have hkeeps : forall {a : Type} {x : Action sigma a},
        Keeps (fun s => f s.event) x -> f (x.exec s).2.event = f s.event :=
      fun hx => hx s
    apply hkeeps
    refine Keeps.bind (fun _ => rfl) fun _ => ?_
    refine Keeps.bind_of (fun _ => rfl) (returns_outside (h _ _)) ?_
    intro session hsession
    refine Keeps.bind (keeps_onLines (runsBeside_event f) hsession _ _) ?_
    intro pipe
    split
    · exact Keeps.throw _
    · exact Keeps.pure _

theorem settings_spawnOrRestoreSubprocess (host : InvokeHost sigma)
    (kind : ObjectKind) (response : Value) (invokeId : Text) :
    Keeps settings (spawnOrRestoreSubprocess host kind response invokeId) := by
  intro s
  refine exec_spawnOrRestoreSubprocess_event
    (f := fun e => (e.toEventHeader, e.stopPropagation, e.context.epName)) ?_
    kind response invokeId
  intro cwd message state session next _ msg _ cmdCode content _
  exact fun epName args => settings_invokeSEP host epName args cmdCode

/-- The commands of a session that keeps to the protocol: their codes are
counted down from `-1`. -/
def Session.FollowsProtocol (session : Session) (cmdPrefix : Text) : Prop :=
  forall msg, msg ∈ session.lines ->
    forall cmdCode content, readLine cmdPrefix msg = .command cmdCode content ->
      exists n, cmdCode = some (InvokeId.command n).text

theorem followsProtocol_of_client {session : Session} {client : PipeClient}
    (hhead : '|' ∉ client.cmdPrefix) (hbar : '|' ∉ client.requestPrefix)
    (hcolon : ':' ∉ client.requestPrefix)
    (hlines : forall msg, msg ∈ session.lines -> exists n content,
      msg = Separator.record '|' client.cmdPrefix
        (client.requestKey (Int.negSucc n)) content) :
    session.FollowsProtocol client.cmdPrefix := by
  intro msg hmsg cmdCode content hline
  rcases hlines msg hmsg with ⟨n, cmd, rfl⟩
  rw [Session.readLine_requestLine hhead hbar hcolon] at hline
  exact ⟨n, (Line.command.inj hline).left.symm⟩

/-- Every subprocess keeps to the protocol of the pipe, if its lines can be
told by their prefix. -/
def InvokeHost.FollowsProtocol (host : InvokeHost sigma) : Prop :=
  forall cwd cmdPrefix message, '|' ∉ cmdPrefix ->
    Returns (fun session => session.FollowsProtocol cmdPrefix)
      (host.spawnOrRestore cwd cmdPrefix message)

theorem entry_spawnOrRestoreSubprocess (h : host.FollowsProtocol)
    {s : CallState sigma} (hseparable : '|' ∉ commandPrefix s.event)
    (kind : ObjectKind) (response : Value) (invokeId : Text) {id : Text}
    (hid : '-' ∉ id) :
    entry id ((spawnOrRestoreSubprocess host kind response invokeId).exec s).2 =
      entry id s := by
  refine exec_spawnOrRestoreSubprocess_event
    (f := fun e => e.context.invocations.entries id) ?_ kind response invokeId
  intro cwd message state session next hsession msg hmsg cmdCode content hline
    epName args
  rcases h cwd _ message hseparable state session next hsession msg hmsg cmdCode
    content hline with ⟨n, rfl⟩
  have hne : id ≠ (InvokeId.command n).text := by
    intro heq
    rw [heq, InvokeId.text_command] at hid
    exact hid List.mem_cons_self
  exact entry_invokeSEP_of_ne host epName args hne

end Script

/-! ## Runs of a request -/

theorem settings_invokeSEPs (host : InvokeHost sigma) (kind : ObjectKind) :
    Keeps settings (invokeSEPs host kind) := by
  refine Keeps.bind (settings_of_kept kept_getEvent) fun reqEvent => ?_
  split
  · exact Keeps.throw _
  · split
    · exact settings_invokeSEP host _ _ _
    · refine Keeps.bind
        (settings_spawnOrRestoreSubprocess host kind none []) ?_
      exact fun _ => Keeps.pure _

theorem settings_runAndFix (host : InvokeHost sigma) (kind : ObjectKind) :
    Keeps settings (runAndFix host kind) :=
  Keeps.bind (settings_invokeSEPs host kind) fun result =>
    settings_of_kept (kept_handleResult _ result)

/-- No invocation is filed that a key could name, but for the given id. -/
def CommandsBut (id : Option Text) (inv : Invocations) : Prop :=
  forall other, '-' ∉ other -> some other ≠ id -> inv.entries other = none

theorem CommandsBut.weaken {inv : Invocations} (h : CommandsBut none inv)
    (id : Option Text) : CommandsBut id inv :=
  fun other hother _ => h other hother (Option.some_ne_none other)

theorem CommandsBut.entries_nil {inv : Invocations}
    (h : CommandsBut none inv) : inv.entries [] = none :=
  h [] List.not_mem_nil (Option.some_ne_none [])

theorem CommandsBut.of_entries_nil {inv : Invocations}
    (h : CommandsBut (some []) inv) (hnil : inv.entries [] = none) :
    CommandsBut none inv := by
  intro other hother _
  by_cases heq : other = []
  · exact heq ▸ hnil
  · exact h other hother fun hsome => heq (Option.some.inj hsome)

theorem CommandsBut.of_keeps {a : Type} {x : Action sigma a}
    {s : CallState sigma} {id : Option Text}
    (h : CommandsBut id s.event.context.invocations)
    (hx : forall other, '-' ∉ other ->
      entry other (x.exec s).2 = entry other s) :
    CommandsBut id (x.exec s).2.event.context.invocations :=
  fun other hother hne => (hx other hother).trans (h other hother hne)

theorem exec_invokeSEPs_direct {s : CallState sigma} {mapped : Map2Endpoints}
    {epName : Text} (hmapped : s.event.context.map2Endpoints = some mapped)
    (hepName : truthy s.event.context.epName = some epName)
    (host : InvokeHost sigma) (kind : ObjectKind) :
    (invokeSEPs host kind).exec s =
      (invokeSEP host (some epName) mapped.requestArgs (some [])).exec s := by
  unfold invokeSEPs
  rw [exec_bind_of_ok (exec_getEvent s), hmapped]
  dsimp only
  rw [hepName]

theorem exec_invokeSEPs_script {s : CallState sigma} {mapped : Map2Endpoints}
    (hmapped : s.event.context.map2Endpoints = some mapped)
    (hepName : truthy s.event.context.epName = none)
    (host : InvokeHost sigma) (kind : ObjectKind) :
    (invokeSEPs host kind).exec s =
      (spawnOrRestoreSubprocess host kind none [] >>= fun r =>
        pure (some r)).exec s := by
  unfold invokeSEPs
  rw [exec_bind_of_ok (exec_getEvent s), hmapped]
  dsimp only
  rw [hepName]

theorem exec_invokeSEPs_unmapped {s : CallState sigma}
    (hmapped : s.event.context.map2Endpoints = none)
    (host : InvokeHost sigma) (kind : ObjectKind) :
    (invokeSEPs host kind).exec s =
      (.error (Thrown.readUndefined "requestArgs".toList), s) := by
  unfold invokeSEPs
  rw [exec_bind_of_ok (exec_getEvent s), hmapped]
  rfl

theorem entry_invokeSEPs_pending {host : InvokeHost sigma} {kind : ObjectKind}
    {s next : CallState sigma} {invocation : Option PendingOrResponse}
    (h : (invokeSEPs host kind).exec s = (.ok invocation, next))
    (hdirect : (truthy s.event.context.epName).isSome = true)
    (hpending : PendingOrResponse.isPending invocation = true) :
    (entry [] next).isSome = true := by
  cases hmapped : s.event.context.map2Endpoints with
  | none =>
      rw [exec_invokeSEPs_unmapped hmapped] at h
      have hthrew := congrArg Prod.fst h
      cases hthrew
  | some mapped =>
      rcases Option.isSome_iff_exists.mp hdirect with ⟨epName, hepName⟩
      rw [exec_invokeSEPs_direct hmapped hepName] at h
      exact (entry_invokeSEP_self h).trans hpending

theorem commands_invokeSEPs {host : InvokeHost sigma} {kind : ObjectKind}
    {s next : CallState sigma}
    {result : Except Thrown (Option PendingOrResponse)}
    (hprotocol : host.FollowsProtocol)
    (h : (invokeSEPs host kind).exec s = (result, next))
    (hseparable : '|' ∉ commandPrefix s.event)
    (hcommands : CommandsBut none s.event.context.invocations) :
    CommandsBut (some []) next.event.context.invocations ∧
      ((entry [] next).isSome = true ->
        (truthy s.event.context.epName).isSome = true ∧
          PendingOrResponse.isPending result.toOption.join = true) := by
  have hclosed : CommandsBut none next.event.context.invocations ->
      CommandsBut (some []) next.event.context.invocations ∧
        ((entry [] next).isSome = true ->
          (truthy s.event.context.epName).isSome = true ∧
            PendingOrResponse.isPending result.toOption.join = true) := by
    intro hnext
    refine ⟨hnext.weaken _, fun hsome => ?_⟩
    rw [entry, hnext.entries_nil] at hsome
    cases hsome
  cases hmapped : s.event.context.map2Endpoints with
  | none =>
      rw [exec_invokeSEPs_unmapped hmapped] at h
      have hnext : s = next := congrArg Prod.snd h
      exact hclosed (hnext ▸ hcommands)
  | some mapped =>
      cases hepName : truthy s.event.context.epName with
      | some epName =>
          rw [exec_invokeSEPs_direct hmapped hepName] at h
          constructor
          · intro other hother hne
            have hother' : other ≠ (some ([] : Text)).getD [] :=
              fun heq => hne (congrArg some heq)
            have hkept := entry_invokeSEP_of_ne host (some epName)
              mapped.requestArgs hother' s
            rw [h] at hkept
            exact hkept.trans (hcommands.weaken _ other hother hne)
          · intro hsome
            exact ⟨rfl, (entry_invokeSEP_self h).symm.trans hsome⟩
      | none =>
          rw [exec_invokeSEPs_script hmapped hepName] at h
          rw [hepName] at hclosed
          apply hclosed
          have hkept := hcommands.of_keeps fun other hother =>
            Keeps.bind_at (entry_spawnOrRestoreSubprocess hprotocol hseparable
              kind none [] hother) fun r next _ => Keeps.pure (some r) next
          rw [h] at hkept
          exact hkept

theorem entry_runAndFix_asked {host : InvokeHost sigma} {kind : ObjectKind}
    {s next : CallState sigma}
    (h : (runAndFix host kind).exec s =
      (.ok (some ⟨some runAndFixCallbackName⟩), next))
    (hdirect : (truthy s.event.context.epName).isSome = true) :
    (entry [] next).isSome = true := by
  unfold runAndFix runAndFixWithin at h
  rcases exec_bind_eq_ok h with ⟨invocation, middle, hinvoked, hhandled⟩
  have hpending : PendingOrResponse.isPending invocation = true := by
    have hreturned := handleResult_returned hhandled
    by_contra hnot
    rw [if_neg hnot] at hreturned
    cases hreturned
  rw [exec_handleResult_of_pending hpending] at hhandled
  have hnext : middle = next := congrArg Prod.snd hhandled
  rw [← hnext]
  exact entry_invokeSEPs_pending hinvoked hdirect hpending

/-- After `runAndFix` a key can name an invocation only when a direct one has
left the event pending. -/
theorem commands_runAndFix {host : InvokeHost sigma} {kind : ObjectKind}
    {s next : CallState sigma} {result : Except Thrown (Option Returned)}
    (hprotocol : host.FollowsProtocol)
    (h : (runAndFix host kind).exec s = (result, next))
    (hseparable : '|' ∉ commandPrefix s.event)
    (hcommands : CommandsBut none s.event.context.invocations) :
    CommandsBut (some []) next.event.context.invocations ∧
      ((entry [] next).isSome = true ->
        (truthy s.event.context.epName).isSome = true ∧
          result = .ok (some ⟨some runAndFixCallbackName⟩)) := by
  unfold runAndFix runAndFixWithin at h
  cases hinvoked : (invokeSEPs host kind).exec s with
  | mk invoked middle =>
      rcases commands_invokeSEPs hprotocol hinvoked hseparable hcommands with
        ⟨hothers, hfiled⟩
      cases invoked with
      | error e =>
          rw [exec_bind_of_error hinvoked] at h
          have hnext : middle = next := congrArg Prod.snd h
          rw [← hnext]
          refine ⟨hothers, fun hsome => ?_⟩
          have hpending := (hfiled hsome).right
          cases hpending
      | ok invocation =>
          rw [exec_bind_of_ok hinvoked] at h
          have hkept := fun id => entry_of_kept
            (kept_handleResult (runAndFixWithin host kind 4) invocation) id
            middle
          rw [h] at hkept
          refine ⟨fun other hother hne =>
            (hkept other).trans (hothers other hother hne), ?_⟩
          rw [hkept []]
          intro hsome
          rcases hfiled hsome with ⟨hdirect, hpending⟩
          change PendingOrResponse.isPending invocation = true at hpending
          rw [exec_handleResult_of_pending hpending] at h
          exact ⟨hdirect, (congrArg Prod.fst h).symm⟩

/-! ## Callbacks -/

theorem exec_callbackData_state (invokeId : Text)
    (response : Option PendingOrResponse) (s : CallState sigma) :
    ((callbackData invokeId response : Action sigma Value).exec s).2 = s := by
  unfold callbackData
  split
  · rfl
  · split
    · rfl
    · rfl

theorem entry_afterCallback {host : InvokeHost sigma}
    (hprotocol : host.FollowsProtocol) (kind : ObjectKind) (invokeId : Text)
    (response : Option PendingOrResponse) {other : Text}
    (hother : '-' ∉ other) {s : CallState sigma}
    (hseparable : '|' ∉ commandPrefix s.event) :
    entry other ((afterCallback host kind invokeId response).exec s).2 =
      entry other s := by
  have hstate := exec_callbackData_state invokeId response s
  refine Keeps.bind_at (congrArg (entry other) hstate) ?_
  intro data next hdata
  rw [hdata] at hstate
  have hnext : next = s := hstate
  rw [hnext, exec_bind_of_ok (exec_getEvent s)]
  split
  · rfl
  · exact Keeps.bind_at (entry_spawnOrRestoreSubprocess hprotocol hseparable kind
      data invokeId hother) fun r next _ => Keeps.pure (some r) next

theorem entry_runAndFixCallback {host : InvokeHost sigma}
    (hprotocol : host.FollowsProtocol) (kind : ObjectKind) {other : Text}
    (hother : '-' ∉ other) {s : CallState sigma}
    (hseparable : '|' ∉ commandPrefix s.event)
    (hne : entry other s = none ∨ s.world.invokeId ≠ some other) :
    entry other ((runAndFixCallback host kind).exec s).2 = entry other s := by
  have hinvoked : entry other ((invokeSEPsCallback host kind).exec s).2 =
      entry other s := by
    unfold invokeSEPsCallback
    rw [exec_bind_of_ok (exec_get s)]
    cases hid : s.world.invokeId with
    | none => rfl
    | some id =>
        dsimp only
        cases hentry : s.event.context.invocations.entries id with
        | none => rfl
        | some invocation =>
            have hdiffers : other ≠ (some id).getD [] := by
              rintro rfl
              rcases hne with hnone | hworld
              · rw [entry, hentry] at hnone
                cases hnone
              · exact hworld hid
            refine Keeps.bind_at (entry_invokeSEP_of_ne host none none
              hdiffers s) ?_
            intro response next hresponse
            have hheader : next.event.toEventHeader = s.event.toEventHeader :=
              congrArg Prod.fst
                ((settings_invokeSEP host none none (some id)).of_ok hresponse)
            apply entry_afterCallback hprotocol kind id response hother
            rw [commandPrefix_congr hheader]
            exact hseparable
  refine Keeps.bind_at hinvoked fun value next _ => ?_
  exact entry_of_kept (kept_handleResult _ value) other next

end Invoke
end CallgentApi
