import CallgentApi.Entries.RestApi
import CallgentApi.Invoke.Passage
import CallgentApi.Realms.Attaching

/-!
# What an invocation sends

The requests of the adaptor are written down as they are sent, with the
endpoint they are sent for.  An invocation of an endpoint sends one request at
most, that of the event after the check of the endpoint.
-/

namespace CallgentApi
namespace Entries

open Js Event Realms Invoke Effect

variable {tau : Type}

/-! ## The adaptor on the wire -/

structure Sending where
  endpoint : EndpointDto
  config : AxiosConfig

/-- What has been sent, beside what else lies outside. -/
structure Wire (tau : Type) where
  sent : List Sending
  outside : tau

def quietly {a : Type} (x : Effect tau Thrown a) :
    Effect (Wire tau) Thrown a :=
  x.zoom Wire.outside fun w next => { w with outside := next }

def send (axios : AxiosConfig -> Effect tau Thrown AxiosResponse)
    (endpoint : EndpointDto) (config : AxiosConfig) :
    Effect (Wire tau) Thrown AxiosResponse := do
  modify fun w => { w with sent := w.sent ++ [⟨endpoint, config⟩] }
  quietly (axios config)

def wiredAdaptor (axios : AxiosConfig -> Effect tau Thrown AxiosResponse) :
    ServerAdaptor (Wire tau) where
  invoke := fun endpoint args sen reqEvent ctx =>
    invoke (send axios endpoint) endpoint args sen reqEvent ctx
  postprocess := fun resp _ _ _ => return resp

def quietAdaptor (adaptor : ServerAdaptor tau) : ServerAdaptor (Wire tau) where
  invoke := fun endpoint args sen reqEvent ctx =>
    quietly (adaptor.invoke endpoint args sen reqEvent ctx)
  postprocess := fun resp reqEvent endpoint ctx =>
    quietly (adaptor.postprocess resp reqEvent endpoint ctx)

/-- Any host, with the adaptor of this module for the endpoints that are
served by it. -/
def onWire (axios : AxiosConfig -> Effect tau Thrown AxiosResponse)
    (host : InvokeHost tau) : InvokeHost (Wire tau) where
  findEntry := fun id => quietly (host.findEntry id)
  findRealm := fun pk => quietly (host.findRealm pk)
  findFirstUserIdentity := fun userId provider =>
    quietly (host.findFirstUserIdentity userId provider)
  serverAdaptors := fun key =>
    if key = restAPIKey then some (wiredAdaptor axios)
    else (host.serverAdaptors key).map quietAdaptor
  fromCached := fun invokeId endpoint reqEvent =>
    quietly (host.fromCached invokeId endpoint reqEvent)
  toCache := fun ctx response endpoint reqEvent =>
    quietly (host.toCache ctx response endpoint reqEvent)
  updateCache := fun response ctx endpoint =>
    quietly (host.updateCache response ctx endpoint)
  uploadBaseDir := host.uploadBaseDir
  spawnOrRestore := fun cwd cmdPrefix onConnect =>
    quietly (host.spawnOrRestore cwd cmdPrefix onConnect)
  freezeProcess := fun cwd => quietly (host.freezeProcess cwd)
  parseJson := host.parseJson

/-! ## The processors that send nothing -/

/-- What an invocation is seen by: the event and what has been sent. -/
def wireView (s : CallState (Wire tau)) : EventObject × List Sending :=
  (s.event, s.world.outside.sent)

theorem keeps_wireView_quietly {a : Type} (x : Effect tau Thrown a) :
    Keeps wireView (Action.outside (quietly x)) :=
  fun _ => rfl

theorem keeps_wireView_getEvent :
    Keeps wireView (Action.getEvent : Action (Wire tau) EventObject) :=
  fun _ => rfl

section Quiet

variable {axios : AxiosConfig -> Effect tau Thrown AxiosResponse}
  {host : InvokeHost tau} {status : InvokeStatus} {endpoint : EndpointDto}
  {preData : Option PendingOrResponse}

theorem keeps_sepCached :
    Keeps wireView ((sepCachedProcessor (onWire axios host).toChainHost).body
      status endpoint preData) := by
  refine Keeps.bind keeps_wireView_getEvent fun reqEvent => ?_
  refine Keeps.bind (keeps_wireView_quietly _) fun cached => ?_
  split
  · exact Keeps.pure _
  · exact Keeps.pure _

theorem keeps_postprocess :
    Keeps wireView (postprocess (onWire axios host).toChainHost status
      endpoint preData) := by
  unfold postprocess
  split
  · exact Keeps.throw _
  · split
    · exact Keeps.pure _
    · refine Keeps.bind keeps_wireView_getEvent fun reqEvent => ?_
      split
      · exact Keeps.throw _
      · rename_i adaptor hadaptor
        refine Keeps.bind ?_ fun data => Keeps.pure _
        change (if endpoint.adaptorKey = restAPIKey then _ else _) = _
          at hadaptor
        split at hadaptor
        · cases hadaptor
          exact fun _ => rfl
        · rcases Option.map_eq_some_iff.mp hadaptor with ⟨plain, _, rfl⟩
          exact keeps_wireView_quietly _

theorem keeps_sepCache :
    Keeps wireView ((sepCacheProcessor (onWire axios host).toChainHost).body
      status endpoint preData) := by
  refine Keeps.bind keeps_wireView_getEvent fun reqEvent => ?_
  exact Keeps.bind (keeps_wireView_quietly _) fun _ => Keeps.pure _

theorem keeps_sepCallback :
    Keeps wireView
      ((sepCallbackProcessor (onWire axios host).toChainHost).body status
        endpoint preData) :=
  Keeps.bind (keeps_wireView_quietly _) fun _ => Keeps.pure _

theorem keeps_afterInvoke :
    Keeps wireView (runChain endpoint
      ((processors (onWire axios host).toChainHost).drop 3) status
        preData) := by
  refine keeps_runChain ?_ status preData
  intro p hp ctx preData
  simp only [processors, List.drop_succ_cons, List.drop_zero, List.mem_cons,
    List.not_mem_nil, or_false] at hp
  rcases hp with rfl | rfl | rfl | rfl
  · exact keeps_postprocess
  · exact keeps_sepCache
  · exact keeps_postprocess
  · exact keeps_sepCallback

end Quiet

/-! ## What the chain sends -/

/-- One request at most is sent for the endpoint, that of the event. -/
def Sends (rows : Rows) (endpoint : EndpointDto) (event : EventObject)
    (sent sent' : List Sending) : Prop :=
  sent' = sent ∨
    exists config,
      requestConfig (rows.entries endpoint.entryId) event = .ok config ∧
      sent' = sent ++ [⟨endpoint, config⟩]

def AfterSending (rows : Rows) (endpoint : EndpointDto)
    (before after : EventObject × List Sending) : Prop :=
  after.1 = before.1 ∧ Sends rows endpoint before.1 before.2 after.2

theorem AfterSending.refl (rows : Rows) (endpoint : EndpointDto)
    (view : EventObject × List Sending) :
    AfterSending rows endpoint view view :=
  ⟨rfl, Or.inl rfl⟩

section Sends

variable {axios : AxiosConfig -> Effect tau Thrown AxiosResponse}
  {host : InvokeHost tau} {rows : Rows} {status : InvokeStatus}
  {endpoint : EndpointDto} {preData : Option PendingOrResponse}

theorem holds_onWire (h : host.Holds rows) :
    (onWire axios host).Holds rows where
  findEntry := fun id => (h.findEntry id).zoom
  findRealm := fun pk => (h.findRealm pk).zoom

theorem triple_quietly {a : Type} {p : a -> Prop} {x : Effect tau Thrown a}
    (h : Returns p x) (view : EventObject × List Sending) :
    Triple (fun s => wireView s = view) (Action.outside (quietly x))
      fun result s =>
        (forall value, result = .ok value -> p value) ∧ wireView s = view := by
  intro s hs
  constructor
  · intro value hvalue
    exact h s.world.outside.outside value _ (Prod.ext hvalue rfl)
  · exact hs

theorem triple_wiredInvoke (view : EventObject × List Sending) (args : Value) :
    Triple (fun s => wireView s = view)
      (Action.outside ((wiredAdaptor axios).invoke endpoint args
        (rows.entries endpoint.entryId) view.1 status))
      fun _ s => AfterSending rows endpoint view (wireView s) := by
  intro s hs
  rw [← hs]
  unfold wiredAdaptor invoke
  dsimp only
  split
  · exact .refl rows endpoint _
  · rename_i config hconfig
    refine ⟨rfl, Or.inr ⟨config, hconfig, ?_⟩⟩
    have hsent : ((send axios endpoint config).exec s.world.outside).2.sent =
        s.world.outside.sent ++ [⟨endpoint, config⟩] := rfl
    exact (congrArg Wire.sent (snd_exec_bind_pure _ _ _)).trans hsent

theorem triple_sepInvoke (h : host.Holds rows)
    (view : EventObject × List Sending) :
    Triple (fun s => wireView s = view)
      ((sepInvokeProcessor (onWire axios host).toChainHost).body status
        endpoint preData)
      fun _ s => AfterSending rows endpoint view (wireView s) := by
  intro s hs
  have hevent : s.event = view.1 := by
    rw [← hs]
    rfl
  unfold sepInvokeProcessor
  dsimp only
  rw [exec_bind_of_ok (exec_getEvent s), hevent]
  refine (Triple.bind (triple_quietly (h.findEntry endpoint.entryId) view)
    ?_ ?_ : Triple _ _ fun _ s =>
      AfterSending rows endpoint view (wireView s)) s hs
  · intro sentry s hs
    rw [hs.left sentry rfl]
    by_cases hkey : endpoint.adaptorKey = restAPIKey
    · rw [show (onWire axios host).serverAdaptors endpoint.adaptorKey =
        some (wiredAdaptor axios) from if_pos hkey]
      exact (Triple.bind (triple_wiredInvoke view status.args)
        (fun _ => Triple.pure fun _ h => h) (fun _ _ h => h) :
          Triple _ _ fun _ s => AfterSending rows endpoint view (wireView s))
            s hs.right
    · rw [show (onWire axios host).serverAdaptors endpoint.adaptorKey =
        (host.serverAdaptors endpoint.adaptorKey).map quietAdaptor from
          if_neg hkey]
      rw [← hs.right]
      cases host.serverAdaptors endpoint.adaptorKey with
      | none => exact .refl rows endpoint _
      | some adaptor =>
          have hkeeps : Keeps wireView (do
              let data ← Action.outside ((quietAdaptor adaptor).invoke endpoint
                status.args (rows.entries endpoint.entryId) (wireView s).1 status)
              return (status, data)) :=
            Keeps.bind (keeps_wireView_quietly _) fun _ => Keeps.pure _
          exact hkeeps.triple (AfterSending rows endpoint (wireView s)) s
            (.refl rows endpoint _)
  · intro e s hs
    rw [hs.right]
    exact .refl rows endpoint view

theorem triple_process {p : SepProcessor (Wire tau)}
    {pre post : CallState (Wire tau) -> Prop}
    (h : Triple pre (p.body status endpoint preData) fun _ => post)
    (nextProcessor : Option Text) :
    Triple pre (p.process status endpoint nextProcessor preData)
      fun _ => post := by
  refine Triple.bind h ?_ fun _ _ hs => hs
  intro result
  rcases result with ⟨ctx, data⟩
  dsimp only
  split
  · exact Triple.throw fun _ hs => hs
  · exact Triple.pure fun _ hs => hs

theorem triple_fromInvoke (h : host.Holds rows)
    (view : EventObject × List Sending) :
    Triple (fun s => wireView s = view)
      (runChain endpoint
        ((processors (onWire axios host).toChainHost).drop 2) status preData)
      fun _ s => AfterSending rows endpoint view (wireView s) := by
  have hafter : forall ctx data, Triple
      (fun s => AfterSending rows endpoint view (wireView s))
      (runChain endpoint ((processors (onWire axios host).toChainHost).drop 3)
        ctx data)
      fun _ s => AfterSending rows endpoint view (wireView s) :=
    fun ctx data => keeps_afterInvoke.triple (AfterSending rows endpoint view)
  unfold processors
  rw [List.drop_succ_cons, List.drop_succ_cons, List.drop_zero]
  unfold runChain
  split
  · refine Triple.bind (triple_process (triple_sepInvoke h view) _) ?_
      fun _ _ hs => hs
    intro r
    split
    · exact Triple.pure fun _ hs => hs
    · exact hafter _ _
  · intro s hs
    apply hafter
    rw [hs]
    exact .refl rows endpoint view

theorem triple_fromCached (h : host.Holds rows)
    (view : EventObject × List Sending) :
    Triple (fun s => wireView s = view)
      (runChain endpoint
        ((processors (onWire axios host).toChainHost).drop 1) status preData)
      fun _ s => AfterSending rows endpoint view (wireView s) := by
  unfold processors
  rw [List.drop_succ_cons, List.drop_zero]
  unfold runChain
  split
  · refine Triple.bind ((keeps_process keeps_sepCached _).triple (· = view))
      ?_ ?_
    · intro r
      split
      · refine Triple.pure fun s hs => ?_
        rw [hs]
        exact .refl rows endpoint view
      · exact triple_fromInvoke h view
    · intro e s hs
      rw [hs]
      exact .refl rows endpoint view
  · exact triple_fromInvoke h view

end Sends

/-! ## What an invocation attaches -/

/-- A secret that has been attached for an endpoint. -/
structure Attachment where
  endpoint : EndpointDto
  item : RealmSecurityItem
  realm : CallgentRealm

def Attachment.secret (a : Attachment) : RealmScheme × Text :=
  (a.realm.scheme, a.realm.secret)

def endpointOf (event : EventObject) (status : InvokeStatus) :
    Option EndpointDto :=
  event.context.endpoints.bind fun endpoints =>
    endpoints.find? fun e => some e.name == status.epName

/-- The invocation begins with the check of its endpoint. -/
def entersCheck (status : InvokeStatus) : Bool :=
  isAt (startedAt status authName) authName

def checkFun (status : InvokeStatus) : Text :=
  (truthy (status.processor.bind ProcessorState.ctx)).getD
    "checkSepAuth".toList

/-- What the check of an endpoint attaches where it passes. -/
def passing (rows : Rows) (endpoint : EndpointDto) :
    Option (List Attachment) :=
  if (rows.guardsOf endpoint).isEmpty then some []
  else
    match rows.deciding (rows.guardsOf endpoint) with
    | none => none
    | some (item, realm) =>
        if item.attach = some true then some [⟨endpoint, item, realm⟩]
        else none

/-- What an invocation attaches of its own before it sends a request. -/
def ownAttachments (rows : Rows) (status : InvokeStatus)
    (endpoint : EndpointDto) : Option (List Attachment) :=
  if entersCheck status then
    if checkFun status = "checkSepAuth".toList then passing rows endpoint
    else none
  else some []

def checkPassed (result : Except Thrown (Option Returned)) : Bool :=
  match result with
  | .ok returned => (truthy (returned.bind Returned.resumeFunName)).isNone
  | .error _ => false

/-- What an invocation attaches in a state, whatever becomes of it then. -/
def attachedBy {sigma : Type} (rows : Rows) (repo : Repository sigma)
    (status : InvokeStatus) (s : CallState sigma) : List Attachment :=
  match endpointOf s.event status with
  | none => []
  | some endpoint =>
      if entersCheck status &&
          checkPassed ((callRealms repo (checkFun status) endpoint).exec s).1
      then (passing rows endpoint).getD []
      else []

section Check

variable {axios : AxiosConfig -> Effect tau Thrown AxiosResponse}
  {host : InvokeHost tau} {rows : Rows} {status : InvokeStatus}
  {endpoint : EndpointDto} {preData : Option PendingOrResponse}
  {s s' : CallState (Wire tau)}

theorem reads_sent :
    (onWire axios host).Reads
      (ofOutside Wire.sent : CallState (Wire tau) -> List Sending) where
  contextFree := contextFree_ofOutside Wire.sent
  findEntry := fun _ _ => rfl
  findRealm := fun _ _ => rfl
  findFirstUserIdentity := fun _ _ _ => rfl

theorem keeps_sent_callRealms (funName : Text) :
    Keeps (ofOutside Wire.sent)
      (callRealms (onWire axios host).toRepository funName endpoint) := by
  unfold callRealms
  split
  · exact keeps_checkSepAuth reads_sent endpoint
  · split
    · exact Keeps.throw _
    · exact Keeps.throw _

theorem attachEach_singleton {req req' : Json} {scheme : RealmScheme}
    {secret : Text} (h : attachTo req scheme secret = .ok req') :
    attachEach req [(scheme, secret)] = .ok req' := by
  unfold attachEach
  rw [h]
  rfl

theorem passing_of_deciding {item : RealmSecurityItem} {realm : CallgentRealm}
    (h : rows.deciding (rows.guardsOf endpoint) = some (item, realm))
    (hattach : item.attach = some true) :
    passing rows endpoint = some [⟨endpoint, item, realm⟩] := by
  have hne : ¬ (rows.guardsOf endpoint).isEmpty = true := by
    intro hempty
    rw [List.isEmpty_iff.mp hempty] at h
    cases h
  unfold passing
  rw [if_neg hne, h]
  exact if_pos hattach

theorem attached_of_checked {req req' : Json}
    {result : Except Thrown (Option Returned)}
    (h : Checked rows (rows.guardsOf endpoint) req result req') :
    (checkPassed result = true ->
      exists own, passing rows endpoint = some own ∧
        attachEach req (own.map Attachment.secret) = .ok req') ∧
    (checkPassed result = false -> req' = req) := by
  cases h with
  | unguarded hguards =>
      refine ⟨fun _ => ⟨[], ?_, rfl⟩, fun _ => rfl⟩
      unfold passing
      rw [hguards]
      rfl
  | attached hdeciding hattach hreq =>
      refine ⟨fun _ => ⟨_, passing_of_deciding hdeciding hattach, ?_⟩, nofun⟩
      exact attachEach_singleton hreq
  | pending => exact ⟨nofun, fun _ => rfl⟩
  | refused e => exact ⟨nofun, fun _ => rfl⟩

theorem attached_callRealms (h : host.Holds rows) {funName : Text}
    {result : Except Thrown (Option Returned)}
    (hexec : (callRealms (onWire axios host).toRepository funName
      endpoint).exec s = (result, s')) :
    (checkPassed result = true -> funName = "checkSepAuth".toList ∧
      exists own, passing rows endpoint = some own ∧
        attachEach s.event.context.req (own.map Attachment.secret) =
          .ok s'.event.context.req) ∧
    (checkPassed result = false ->
      s'.event.context.req = s.event.context.req) := by
  unfold callRealms at hexec
  split at hexec
  · rename_i hfun
    have hholds : (onWire axios host).Holds rows := holds_onWire h
    have hchecked := triple_checkSepAuth hholds endpoint s rfl
    rw [hexec] at hchecked
    have hattached := attached_of_checked hchecked
    exact ⟨fun hpassed => ⟨hfun, hattached.left hpassed⟩, hattached.right⟩
  · split at hexec
    · cases hexec
      exact ⟨nofun, fun _ => rfl⟩
    · cases hexec
      exact ⟨nofun, fun _ => rfl⟩

end Check

/-! ## What an invocation does -/

section Invocation

variable {axios : AxiosConfig -> Effect tau Thrown AxiosResponse}
  {host : InvokeHost tau} {rows : Rows} {status : InvokeStatus}
  {endpoint : EndpointDto} {preData : Option PendingOrResponse}
  {s next : CallState (Wire tau)}

theorem checkFun_startedAt (status : InvokeStatus) (name : Text) :
    checkFun (startedAt status name) = checkFun status := by
  unfold checkFun startedAt
  cases h : status.processor with
  | none => rfl
  | some p =>
      dsimp only
      rw [h]

theorem exists_place_of_entersCheck (h : entersCheck status = true) :
    exists place, (startedAt status authName).processor = some place := by
  unfold entersCheck isAt at h
  cases hplace : (startedAt status authName).processor with
  | none =>
      rw [hplace] at h
      cases h
  | some place => exact ⟨place, rfl⟩

theorem exec_runChain_entered {p : SepProcessor (Wire tau)}
    {rest : List (SepProcessor (Wire tau))} {r : Processed}
    (hat : isAt (startedAt status p.getName) p.getName = true)
    (hexec : (p.process (startedAt status p.getName) endpoint
      (rest.head?.map SepProcessor.getName) preData).exec s = (.ok r, next)) :
    (runChain endpoint (p :: rest) status preData).exec s =
      if r.stop = true then (.ok (r.ctx, r.data), next)
      else (runChain endpoint rest r.ctx r.data).exec next := by
  rw [runChain, if_pos hat]
  dsimp only
  rw [exec_bind_of_ok hexec]
  split
  · rfl
  · rfl

theorem exec_runChain_thrown {p : SepProcessor (Wire tau)}
    {rest : List (SepProcessor (Wire tau))} {e : Thrown}
    (hat : isAt (startedAt status p.getName) p.getName = true)
    (hexec : (p.process (startedAt status p.getName) endpoint
      (rest.head?.map SepProcessor.getName) preData).exec s =
        (.error e, next)) :
    (runChain endpoint (p :: rest) status preData).exec s =
      (.error e, next) := by
  rw [runChain, if_pos hat]
  exact exec_bind_of_error hexec _

theorem wireView_afterCheck (h : host.Holds rows)
    (henters : entersCheck status = true)
    {result : Except Thrown (Option Returned)}
    (hcall : (callRealms (onWire axios host).toRepository (checkFun status)
      endpoint).exec s = (result, next)) :
    AfterSending rows endpoint (wireView next)
        (wireView ((runChain endpoint
          (processors (onWire axios host).toChainHost) status
            preData).exec s).2) ∧
      (checkPassed result = false ->
        wireView ((runChain endpoint
          (processors (onWire axios host).toChainHost) status
            preData).exec s).2 = wireView next) := by
  rcases exists_place_of_entersCheck henters with ⟨place, hplace⟩
  rw [← checkFun_startedAt status authName] at hcall
  unfold checkFun at hcall
  let auth := sepAuthProcessor (onWire axios host).toChainHost
  have henters' : isAt (startedAt status auth.getName) auth.getName = true :=
    henters
  change AfterSending rows endpoint (wireView next) (wireView ((runChain
      endpoint (auth :: (processors (onWire axios host).toChainHost).drop 1)
        status preData).exec s).2) ∧ (_ -> wireView ((runChain endpoint
      (auth :: (processors (onWire axios host).toChainHost).drop 1)
        status preData).exec s).2 = _)
  cases result with
  | error e =>
      have hbody : (auth.body (startedAt status authName) endpoint
          preData).exec s = (.error e, next) :=
        exec_bind_of_error hcall _
      rw [exec_runChain_thrown henters' (exec_process_of_error hbody _)]
      exact ⟨.refl rows endpoint _, fun _ => rfl⟩
  | ok returned =>
      cases hresume : truthy (returned.bind Returned.resumeFunName) with
      | none =>
          have hbody : (auth.body (startedAt status authName) endpoint
              preData).exec s = (.ok (startedAt status authName, none), next) := by
            refine (exec_bind_of_ok hcall _).trans ?_
            rw [hresume]
            rfl
          rw [exec_runChain_entered henters'
            (exec_process_of_body hplace hbody _)]
          constructor
          · split
            · exact .refl rows endpoint _
            · exact triple_fromCached h (wireView next) next rfl
          · intro hnot
            have hpassed : checkPassed (.ok returned) = true := by
              unfold checkPassed
              dsimp only
              rw [hresume]
              rfl
            rw [hpassed] at hnot
            cases hnot
      | some resumeFunName =>
          have hbody : (auth.body (startedAt status authName) endpoint
              preData).exec s =
                (.ok (break_ (withProcessor (startedAt status authName)
                  fun p => { p with ctx := some resumeFunName }) true,
                    some .pending), next) := by
            refine (exec_bind_of_ok hcall _).trans ?_
            rw [hresume]
            rfl
          have hplace' : (break_ (withProcessor (startedAt status authName)
              fun p => { p with ctx := some resumeFunName })
                true).processor = some
                  { place with ctx := some resumeFunName
                               breakCurrent := some true } := by
            unfold break_ withProcessor
            dsimp only
            rw [hplace]
            rfl
          rw [exec_runChain_entered henters'
            (exec_process_of_body hplace' hbody _)]
          have hstop : (advance (((processors
              (onWire axios host).toChainHost).drop 1).head?.map
                SepProcessor.getName)
              { place with ctx := some resumeFunName
                           breakCurrent := some true }).2 = true :=
            Bool.or_true _
          rw [if_pos hstop]
          exact ⟨.refl rows endpoint _, fun _ => rfl⟩

/-- What an invocation has done: its own secrets are attached to the request of
the event, which is sent once at most, for the endpoint that is named. -/
structure Invoked (rows : Rows) (status : InvokeStatus)
    (attached : List Attachment) (s s' : CallState (Wire tau)) : Prop where
  req : attachEach s.event.context.req (attached.map Attachment.secret) =
    .ok s'.event.context.req
  sent : s'.world.outside.sent = s.world.outside.sent ∨
    exists endpoint config, endpointOf s.event status = some endpoint ∧
      ownAttachments rows status endpoint = some attached ∧
      requestConfig (rows.entries endpoint.entryId) s'.event = .ok config ∧
      s'.world.outside.sent = s.world.outside.sent ++ [⟨endpoint, config⟩]

theorem Invoked.nothing (rows : Rows) (status : InvokeStatus)
    (s : CallState (Wire tau)) : Invoked rows status [] s s :=
  ⟨rfl, Or.inl rfl⟩

theorem Invoked.of_afterSending {attached : List Attachment}
    {s s' : CallState (Wire tau)}
    (hendpoint : endpointOf s.event status = some endpoint)
    (hown : ownAttachments rows status endpoint = some attached)
    (hreq : attachEach s.event.context.req (attached.map Attachment.secret) =
      .ok next.event.context.req)
    (hsent : next.world.outside.sent = s.world.outside.sent)
    (h : AfterSending rows endpoint (wireView next) (wireView s')) :
    Invoked rows status attached s s' := by
  have hevent : s'.event = next.event := h.left
  constructor
  · rw [hevent]
    exact hreq
  · rw [← hsent, hevent]
    rcases h.right with hnone | ⟨config, hconfig, hsending⟩
    · exact Or.inl hnone
    · exact Or.inr ⟨endpoint, config, hendpoint, hown, hconfig, hsending⟩

theorem invoked_runChain (h : host.Holds rows)
    (hendpoint : endpointOf s.event status = some endpoint) :
    Invoked rows status
      (attachedBy rows (onWire axios host).toRepository status s) s
      ((runChain endpoint (processors (onWire axios host).toChainHost) status
        preData).exec s).2 := by
  unfold attachedBy
  rw [hendpoint]
  dsimp only
  cases henters : entersCheck status with
  | false =>
      have hown : ownAttachments rows status endpoint = some [] := by
        unfold ownAttachments
        rw [henters]
        rfl
      refine .of_afterSending hendpoint hown rfl rfl ?_
      have hnot : ¬ isAt (startedAt status
          (sepAuthProcessor (onWire axios host).toChainHost).getName)
            (sepAuthProcessor (onWire axios host).toChainHost).getName =
              true := by
        intro hat
        exact Bool.noConfusion (henters.symm.trans hat)
      unfold processors runChain
      rw [if_neg hnot]
      exact triple_fromCached h (wireView s) s rfl
  | true =>
      cases hcall : (callRealms (onWire axios host).toRepository
          (checkFun status) endpoint).exec s with
      | mk result next =>
          have hattached := attached_callRealms h hcall
          have hafter : AfterSending rows endpoint (wireView next)
                (wireView ((runChain endpoint
                  (processors (onWire axios host).toChainHost) status
                    preData).exec s).2) ∧
              (checkPassed result = false ->
                wireView ((runChain endpoint
                  (processors (onWire axios host).toChainHost) status
                    preData).exec s).2 = wireView next) :=
            wireView_afterCheck h henters hcall
          have hkeeps : Keeps (ofOutside Wire.sent)
              (callRealms (onWire axios host).toRepository (checkFun status)
                endpoint) :=
            keeps_sent_callRealms (checkFun status)
          have hsent : next.world.outside.sent = s.world.outside.sent := by
            have hkept := hkeeps s
            rw [hcall] at hkept
            exact hkept
          cases hpassed : checkPassed result with
          | true =>
              rcases hattached.left hpassed with ⟨hfun, own, hown, hreq⟩
              rw [hown]
              refine .of_afterSending hendpoint ?_ hreq hsent hafter.left
              unfold ownAttachments
              rw [if_pos henters, if_pos hfun]
              exact hown
          | false =>
              have hview := hafter.right hpassed
              have hevent := congrArg Prod.fst hview
              have hlast := congrArg Prod.snd hview
              refine ⟨?_, Or.inl (hlast.trans hsent)⟩
              exact congrArg Except.ok
                ((hattached.right hpassed).symm.trans
                  (congrArg (fun event => event.context.req) hevent.symm))

theorem entersCheck_of_closed (h : chainOpen status = false) :
    entersCheck status = false := by
  unfold entersCheck isAt startedAt
  unfold chainOpen at h
  cases hplace : status.processor with
  | none =>
      rw [hplace] at h
      cases h
  | some place =>
      rw [hplace] at h
      dsimp only at h ⊢
      rw [hplace, Option.bind_some]
      rw [beq_eq_false_iff_ne]
      intro hname
      rw [hname] at h
      cases h

theorem invoked_chain (h : host.Holds rows) :
    Invoked rows status
      (attachedBy rows (onWire axios host).toRepository status s) s
      ((chain (onWire axios host).toChainHost status).exec s).2 := by
  unfold chain
  rw [exec_bind_of_ok (exec_getEvent s)]
  cases hendpoints : s.event.context.endpoints with
  | none =>
      have hnone : endpointOf s.event status = none := by
        unfold endpointOf
        rw [hendpoints]
        rfl
      unfold attachedBy
      rw [hnone]
      exact .nothing rows status s
  | some endpoints =>
      dsimp only
      have hfind : endpointOf s.event status =
          endpoints.find? fun e => some e.name == status.epName := by
        unfold endpointOf
        rw [hendpoints]
        rfl
      cases hfound : endpoints.find? fun e => some e.name == status.epName with
      | none =>
          rw [hfound] at hfind
          unfold attachedBy
          rw [hfind]
          exact .nothing rows status s
      | some endpoint =>
          rw [hfound] at hfind
          dsimp only
          split
          · exact invoked_runChain h hfind
          · rename_i hclosed
            have hnot := entersCheck_of_closed (Bool.eq_false_iff.mpr hclosed)
            have hown : attachedBy rows (onWire axios host).toRepository
                status s = [] := by
              unfold attachedBy
              rw [hfind, hnot]
              rfl
            rw [hown]
            exact .nothing rows status s


end Invocation

end Entries
end CallgentApi
