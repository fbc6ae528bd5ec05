import CallgentApi.Cached.Routes
import CallgentApi.Invoke.Outcome

/-!
# The payload of a command

A command that is answered at once gets the text of the chain's result in its
reply.  A command that is answered by a callback gets a message when its
subprocess connects again: the text of the data of that result.
-/

namespace CallgentApi
namespace Invoke

open Js Event Pipe Effect

variable {sigma : Type}

/-! ## What is sent to a subprocess that connects -/

def onConnects (s : CallState sigma) : List (Option Text) :=
  s.subprocess.filterMap fun
    | .spawnOrRestore _ _ onConnect => some onConnect
    | .write _ => none
    | .freeze _ => none

theorem subprocess_invokeSEP (host : InvokeHost sigma) (epName : Option Text)
    (args : Value) (invokeId : Option Text) :
    Keeps CallState.subprocess (invokeSEP host epName args invokeId) := by
  intro s
  have hstart : (chainStart epName args (invokeId.getD []) s).2.subprocess =
      s.subprocess := by
    unfold chainStart
    split
    · rfl
    · rfl
  have hkept := congrArg Kept.subprocess (kept_chain host.toChainHost
    (chainStart epName args (invokeId.getD []) s).1
    (chainStart epName args (invokeId.getD []) s).2)
  rw [exec_invokeSEP]
  split
  · rename_i hchain
    rw [hchain] at hkept
    exact hkept.trans hstart
  · rename_i hchain
    rw [hchain] at hkept
    exact hkept.trans hstart

theorem runsBeside_onConnects :
    RunsBeside (onConnects : CallState sigma -> List (Option Text)) where
  write := by
    intro message s
    show List.filterMap _ (s.subprocess ++ [.write message]) = onConnects s
    rw [List.filterMap_append]
    exact List.append_nil _
  freeze := by
    intro cwd s
    show List.filterMap _ (s.subprocess ++ [.freeze cwd]) = onConnects s
    rw [List.filterMap_append]
    exact List.append_nil _
  outside := fun _ _ => rfl

theorem onConnects_onLines (host : InvokeHost sigma) (cwd : List Text)
    (cmdPrefix : Text) (lines : List Text) (pipe : PipeState) :
    Keeps onConnects (onLines host cwd cmdPrefix lines pipe) := by
  apply keeps_onLines runsBeside_onConnects
  intro msg _ cmdCode content _ epName args
  exact (subprocess_invokeSEP host epName args cmdCode).comp _

theorem onConnects_spawnOrRestoreSubprocess (host : InvokeHost sigma)
    (kind : ObjectKind) (response : Value) (invokeId : Text)
    (s : CallState sigma) :
    onConnects ((spawnOrRestoreSubprocess host kind response invokeId).exec
        s).2 =
      match getTaskCwd kind s.event host.uploadBaseDir with
      | .error _ => onConnects s
      | .ok _ => onConnects s ++
          [callbackMessage (commandPrefix s.event) invokeId response] := by
  unfold spawnOrRestoreSubprocess
  rw [exec_bind_of_ok (exec_getEvent s)]
  cases getTaskCwd kind s.event host.uploadBaseDir with
  | error e => rfl
  | ok cwd =>
      let message := callbackMessage (commandPrefix s.event) invokeId response
      let called : CallState sigma :=
        { s with
            subprocess := s.subprocess ++
              [.spawnOrRestore cwd (commandPrefix s.event) message] }
      have hcalled : (Action.callSubprocess
          (.spawnOrRestore cwd (commandPrefix s.event) message)).exec s =
          (.ok (), called) := rfl
      have hconnects : onConnects called = onConnects s ++ [message] := by
        show List.filterMap _ (s.subprocess ++ [_]) = _
        rw [List.filterMap_append]
        rfl
      dsimp only
      rw [exec_bind_of_ok hcalled]
      rw [← hconnects]
      have hkeeps : forall {a : Type} {x : Action sigma a},
          Keeps onConnects x -> onConnects (x.exec called).2 =
            onConnects called :=
        fun hx => hx called
      apply hkeeps
      apply Keeps.bind (fun _ => rfl)
      intro session
      apply Keeps.bind (onConnects_onLines host cwd _ _ _)
      intro pipe
      split
      · exact Keeps.throw _
      · exact Keeps.pure _

theorem onConnects_invokeSEPsCallback {host : InvokeHost sigma}
    {invokeId : Text} {s next : CallState sigma} {resp : PendingOrResponse}
    {invocation : InvokeStatus} (hid : s.world.invokeId = some invokeId)
    (hentry : entry invokeId s = some invocation)
    (hinvoked : (invokeSEP host none none (some invokeId)).exec s =
      (.ok (some resp), next))
    (hdone : PendingOrResponse.isPending (some resp) = false)
    (hscript : truthy s.event.context.epName = none) (kind : ObjectKind) :
    onConnects ((invokeSEPsCallback host kind).exec s).2 =
      match getTaskCwd kind s.event host.uploadBaseDir with
      | .error _ => onConnects s
      | .ok _ => onConnects s ++
          [callbackMessage (commandPrefix s.event) invokeId resp.value] := by
  have hsettings : settings next = settings s :=
    (settings_invokeSEP host none none (some invokeId)).of_ok hinvoked
  have hheader : next.event.toEventHeader = s.event.toEventHeader :=
    congrArg Prod.fst hsettings
  have hepName : next.event.context.epName = s.event.context.epName :=
    congrArg (fun r => r.2.2) hsettings
  have hconnects : onConnects next = onConnects s :=
    ((subprocess_invokeSEP host none none (some invokeId)).comp
      (List.filterMap _)).of_ok hinvoked
  have hdata : (callbackData invokeId (some resp) :
      Action sigma Value).exec next = (.ok resp.value, next) := by
    unfold callbackData
    rw [hdone]
    rfl
  have hcwd : getTaskCwd kind next.event host.uploadBaseDir =
      getTaskCwd kind s.event host.uploadBaseDir := by
    unfold getTaskCwd
    rw [hheader]
  rw [exec_invokeSEPsCallback hid hentry, exec_bind_of_ok hinvoked]
  unfold afterCallback
  rw [exec_bind_of_ok hdata, exec_bind_of_ok (exec_getEvent next), hepName,
    hscript]
  have hspawned := onConnects_spawnOrRestoreSubprocess host kind resp.value
    invokeId next
  rw [hcwd, hconnects, commandPrefix_congr hheader] at hspawned
  rw [← hspawned]
  exact congrArg onConnects (snd_exec_bind_pure
    (spawnOrRestoreSubprocess host kind resp.value invokeId) some next)

end Invoke

namespace Cached

open Js Event Pipe Invoke Effect

variable {tau : Type}

/-! ## One raw response on the two paths -/

/-- A line is a command, and the adaptor answers it at once with the raw
response `r`. -/
inductive AnsweredAtOnce (b : Backend tau) (endpoint : EndpointDto)
    (adaptor : ServerAdaptor tau) (host : InvokeHost (CachedWorld tau))
    (r : Value) (cmdPrefix msg : Text) (cmdCode : Option Text)
    (s : CallState (CachedWorld tau)) : Prop where
  | intro {v : Json} {answer : PendingOrResponse} {cached : CachedLookup}
      {last : CallState (CachedWorld tau)}
      (hcommand : Commands host cmdPrefix msg cmdCode v)
      (hinvoked : Invoked b endpoint adaptor
        (chainStart (commandOf v).1 (commandOf v).2 (cmdCode.getD []) s).1
        answer cached
        (chainStart (commandOf v).1 (commandOf v).2 (cmdCode.getD []) s).2
        last)
      (hdone : answer.statusCode ≠ some 2) (hvalue : answer.value = r) :
      AnsweredAtOnce b endpoint adaptor host r cmdPrefix msg cmdCode s

/-- A command of a script has been left pending, and the raw response `r` has
come with its callback. -/
structure AnsweredLater (b : Backend tau) (endpoint : EndpointDto)
    (adaptor : ServerAdaptor tau) (r : Value) (invokeId : Text)
    (status : InvokeStatus) (s : CallState (CachedWorld tau)) : Prop where
  current : s.world.invokeId = some invokeId
  filed : entry invokeId s = some status
  calledBack : CalledBack b endpoint adaptor r status s
  script : truthy s.event.context.epName = none

/-- The reply to the command of a line has this payload. -/
def Replies (host : InvokeHost (CachedWorld tau)) (cwd : List Text)
    (cmdPrefix msg : Text) (cmdCode : Option Text) (pipe : PipeState)
    (s : CallState (CachedWorld tau)) (payload : Json) : Prop :=
  exists pipe' next,
    (onLine host cwd cmdPrefix pipe msg).exec s = (.ok pipe', next) ∧
    next.subprocess = s.subprocess ++
      [.write (replyMessage cmdPrefix (interpolate cmdCode)
        payload.stringify)]

/-- The subprocess that the callback restores is sent this payload when it
connects. -/
def SendsOnConnect (host : InvokeHost (CachedWorld tau)) (kind : ObjectKind)
    (invokeId : Text) (s : CallState (CachedWorld tau)) (payload : Json) :
    Prop :=
  onConnects ((invokeSEPsCallback host kind).exec s).2 =
    onConnects s ++
      [some (replyMessage (commandPrefix s.event) invokeId payload.stringify)]

section Payload

variable {b : Backend tau} {endpoint : EndpointDto}
  {adaptor : ServerAdaptor tau} {post : Value -> Value}
  {host : InvokeHost (CachedWorld tau)} {r : Value}
  {s : CallState (CachedWorld tau)}

theorem exec_onLine_atOnce {cmdPrefix msg : Text} {cmdCode : Option Text}
    (hhost : host.toChainHost = b.chainHost)
    (hadaptor : b.serverAdaptors endpoint.adaptorKey = some adaptor)
    (hpure : PurePostprocess adaptor post)
    (h : AnsweredAtOnce b endpoint adaptor host r cmdPrefix msg cmdCode s)
    (cwd : List Text) (pipe : PipeState) :
    exists next,
      (onLine host cwd cmdPrefix pipe msg).exec s = (.ok pipe, next) ∧
      next.subprocess = s.subprocess ++
        [.write (replyMessage cmdPrefix (interpolate cmdCode)
          (PendingOrResponse.ofData (post r)).toJson.stringify)] := by
  cases h with
  | @intro v answer cached last hcommand hinvoked hdone hvalue =>
      rcases exec_chain_atOnce hadaptor hpure hinvoked hdone with
        ⟨ended, next, hchain, _⟩
      rw [hvalue] at hchain
      have hexec := exec_invokeSEP host (commandOf v).1 (commandOf v).2 cmdCode s
      rw [hhost, hchain] at hexec
      have hkept := (subprocess_invokeSEP host (commandOf v).1 (commandOf v).2
        cmdCode).of_ok hexec
      refine ⟨_, exec_onLine_answered hcommand hexec rfl cwd pipe, ?_⟩
      rw [← hkept]
      rfl

theorem onConnects_later {invokeId : Text} {status : InvokeStatus}
    (hhost : host.toChainHost = b.chainHost)
    (hadaptor : b.serverAdaptors endpoint.adaptorKey = some adaptor)
    (hpure : PurePostprocess adaptor post)
    (h : AnsweredLater b endpoint adaptor r invokeId status s)
    (kind : ObjectKind) :
    onConnects ((invokeSEPsCallback host kind).exec s).2 =
      match getTaskCwd kind s.event host.uploadBaseDir with
      | .error _ => onConnects s
      | .ok _ => onConnects s ++
          [callbackMessage (commandPrefix s.event) invokeId (post r)] := by
  rcases exec_chain_calledBack hadaptor hpure h.calledBack with
    ⟨ended, next, _, hchain, _⟩
  have hexec := exec_invokeSEP_of_filed h.current h.filed host
  rw [hhost, hchain] at hexec
  exact onConnects_invokeSEPsCallback h.current h.filed hexec rfl h.script
    kind

theorem stringify_toJson_ne (d : Json) :
    (PendingOrResponse.ofData (some d)).toJson.stringify ≠ d.stringify := by
  intro h
  have hlength := congrArg List.length h
  have htext : (PendingOrResponse.ofData (some d)).toJson.stringify =
      '{' :: (Json.quote "data".toList ++ ':' :: (d.stringify ++ ['}'])) := by
    rfl
  rw [htext] at hlength
  simp only [List.length_cons, List.length_append] at hlength
  omega

/-- No payload is sent on both paths, whatever the command and the raw
response are. -/
theorem payload_never_same {cmdPrefix msg invokeId : Text}
    {cmdCode : Option Text} {status : InvokeStatus}
    {s' : CallState (CachedWorld tau)}
    (hhost : host.toChainHost = b.chainHost)
    (hadaptor : b.serverAdaptors endpoint.adaptorKey = some adaptor)
    (hpure : PurePostprocess adaptor post)
    (hatOnce : AnsweredAtOnce b endpoint adaptor host r cmdPrefix msg cmdCode s)
    (hlater : AnsweredLater b endpoint adaptor r invokeId status s')
    (cwd : List Text) (pipe : PipeState) (kind : ObjectKind) :
    ¬ exists payload,
      Replies host cwd cmdPrefix msg cmdCode pipe s payload ∧
      SendsOnConnect host kind invokeId s' payload := by
  rintro ⟨payload, ⟨pipe', next, hreply, hwritten⟩, hsent⟩
  rcases exec_onLine_atOnce hhost hadaptor hpure hatOnce cwd pipe with
    ⟨_, hexec, hreplied⟩
  rw [hreply] at hexec
  cases hexec
  rw [hwritten] at hreplied
  have hcall := List.head_eq_of_cons_eq (List.append_cancel_left hreplied)
  have hpayload : payload.stringify =
      (PendingOrResponse.ofData (post r)).toJson.stringify :=
    Separator.record_rest_inj (SubprocessCall.write.inj hcall)
  unfold SendsOnConnect at hsent
  rw [onConnects_later hhost hadaptor hpure hlater kind] at hsent
  cases hcwd : getTaskCwd kind s'.event host.uploadBaseDir with
  | error e =>
      rw [hcwd] at hsent
      exact absurd (List.self_eq_append_right.mp hsent) (List.cons_ne_nil _ _)
  | ok _ =>
      rw [hcwd] at hsent
      have hmessage := List.head_eq_of_cons_eq (List.append_cancel_left hsent)
      unfold callbackMessage at hmessage
      cases hdata : post r with
      | none =>
          rw [hdata] at hmessage
          cases hmessage
      | some d =>
          rw [hdata] at hpayload hmessage
          split at hmessage
          · have htext : d.stringify = payload.stringify :=
              Separator.record_rest_inj (Option.some.inj hmessage)
            exact stringify_toJson_ne d (hpayload.symm.trans htext.symm)
          · cases hmessage

end Payload

/-! ## A command for the pets -/

def petHost : InvokeHost (CachedWorld Bool) :=
  { petBackend.chainHost with
      uploadBaseDir := "/upload".toList
      spawnOrRestore := fun _ _ _ => return ⟨[], .ok (some 0)⟩
      freezeProcess := fun _ => return ()
      parseJson := fun _ =>
        .ok (.obj [("epName".toList, .str minuteEndpoint.name)]) }

def petLine : Text := "-e1|x:-1|{}".toList

def petCode : Text := "-1".toList

def petStart (atOnce : Bool) :
    InvokeStatus × CallState (CachedWorld Bool) :=
  chainStart (some minuteEndpoint.name) none petCode (petRequest .empty atOnce)

def petLater : InvokeStatus :=
  { leftBy (petStart false).1 (petStart false).2 with response := tom }

def petBack : CallState (CachedWorld Bool) :=
  { (petStart false).2 with
      event := (petStart false).2.event.withInvocations
        (Invocations.empty.set petCode petLater) }

theorem petInvokedCommand (atOnce : Bool) :
    exists cached last,
      Invoked petBackend minuteEndpoint petAdaptor (petStart atOnce).1
        (if atOnce then .ofData tom else .pending) cached
        (petStart atOnce).2 last := by
  cases atOnce with
  | true =>
      exact ⟨_, _, Invoked.intro rfl rfl ⟨_, rfl, rfl⟩ (.intro rfl rfl) rfl
        rfl rfl rfl⟩
  | false =>
      exact ⟨_, _, Invoked.intro rfl rfl ⟨_, rfl, rfl⟩ (.intro rfl rfl) rfl
        rfl rfl rfl⟩

theorem petAtOnce :
    AnsweredAtOnce petBackend minuteEndpoint petAdaptor petHost tom
      "-e1".toList petLine (some petCode) (petRequest .empty true) := by
  have hline : readLine "-e1".toList petLine =
      .command (some petCode) "{}".toList := by
    decide
  have hcommand : Commands petHost "-e1".toList petLine (some petCode)
      (.obj [("epName".toList, .str minuteEndpoint.name)]) :=
    .intro hline rfl (by intro h; cases h)
  rcases petInvokedCommand true with ⟨cached, last, hinvoked⟩
  exact .intro hcommand hinvoked (statusCode_ofData tom) rfl

theorem petAnsweredLater :
    AnsweredLater petBackend minuteEndpoint petAdaptor tom petCode petLater
      petBack where
  current := rfl
  filed := Invocations.entries_set_self _ _ _
  calledBack := by
    rcases petInvokedCommand false with ⟨cached, last, hinvoked⟩
    exact CalledBack.intro hinvoked rfl rfl ⟨_, rfl, rfl⟩
  script := rfl

theorem payload_never_same_pet :
    ¬ exists payload,
      Replies petHost [] "-e1".toList petLine (some petCode) ⟨none, none, false⟩
        (petRequest .empty true) payload ∧
      SendsOnConnect petHost .constructed petCode petBack payload :=
  payload_never_same rfl rfl (fun _ _ _ _ => rfl) petAtOnce petAnsweredLater
    [] _ _

/-- The reply holds `{"data":["Tom"]}`, and the message after a callback
`["Tom"]`. -/
theorem payloads_of_tom :
    Replies petHost [] "-e1".toList petLine (some petCode) ⟨none, none, false⟩
        (petRequest .empty true)
        (.obj [("data".toList, .arr [.str "Tom".toList])]) ∧
      SendsOnConnect petHost .constructed petCode petBack
        (.arr [.str "Tom".toList]) ∧
      (Json.obj [("data".toList, .arr [.str "Tom".toList])]) ≠
        .arr [.str "Tom".toList] := by
  have hpure : PurePostprocess petAdaptor listed := fun _ _ _ _ => rfl
  have hhost : petHost.toChainHost = petBackend.chainHost := rfl
  refine ⟨?_, ?_, ?_⟩
  · rcases exec_onLine_atOnce hhost rfl hpure petAtOnce [] ⟨none, none, false⟩
      with ⟨next, hexec, hwritten⟩
    exact ⟨_, next, hexec, hwritten⟩
  · exact onConnects_later hhost rfl hpure petAnsweredLater .constructed
  · intro h
    cases h

end Cached
end CallgentApi
