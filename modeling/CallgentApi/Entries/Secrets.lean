import CallgentApi.Entries.Attached
import CallgentApi.Entries.Commands
import CallgentApi.Invoke.Filing
import CallgentApi.Lib.Transition
import CallgentApi.Lib.WriteLog

/-!
# Where secrets are sent

The invocations of an event share one request, and each of them attaches the
secrets of its endpoint to it.  What is sent for an endpoint carries the secrets
that earlier invocations have attached unless they have been replaced, and goes
to another host than that of the entry if the client's url has one.
-/

namespace CallgentApi
namespace Entries

open Js Event Realms Invoke Effect

variable {tau : Type}

/-! ## The headers of a request -/

/-- The headers with a secret, as `attachTo` writes it; they have no entry
`__proto__`, and get none. -/
def headersWith (headers : List (Text × Json)) (a : Attachment) :
    List (Text × Json) :=
  let name := interpolate a.realm.scheme.name
  if a.realm.scheme.in_ = some "cookie".toList then
    Json.setField headers "cookie".toList
      (.str (withCookie (headers.lookup "cookie".toList) name a.realm.secret))
  else if a.realm.scheme.in_ = some "header".toList ∧ name ≠ protoName then
    Json.setField headers name (.str a.realm.secret)
  else headers

def replacesHeader (a : Attachment) (header : Text) : Bool :=
  a.realm.scheme.in_ == some "header".toList &&
    (interpolate a.realm.scheme.name == header && header != protoName)

def addsCookie (a : Attachment) (header : Text) : Bool :=
  a.realm.scheme.in_ == some "cookie".toList && header == "cookie".toList

def readHeader (headers : List (Text × Json)) (header : Text) : Option Json :=
  headers.lookup header

theorem writes_headersWith :
    WriteLog.Writes headersWith readHeader replacesHeader addsCookie where
  replaced := by
    intro a header headers headers' hreplaces
    rcases Bool.and_eq_true_iff.mp hreplaces with ⟨hin, hboth⟩
    rcases Bool.and_eq_true_iff.mp hboth with ⟨hname, hproto⟩
    have hcookie : a.realm.scheme.in_ ≠ some "cookie".toList := by
      rw [beq_iff_eq.mp hin]
      decide
    have hheader : a.realm.scheme.in_ = some "header".toList ∧
        interpolate a.realm.scheme.name ≠ protoName := by
      rw [beq_iff_eq.mp hname]
      exact ⟨beq_iff_eq.mp hin, bne_iff_ne.mp hproto⟩
    unfold headersWith readHeader
    dsimp only
    rw [if_neg hcookie, if_pos hheader, if_neg hcookie, if_pos hheader,
      beq_iff_eq.mp hname, Json.lookup_setField_self,
      Json.lookup_setField_self]
  changed := by
    intro a header headers headers' hadds hsame
    rcases Bool.and_eq_true_iff.mp hadds with ⟨hin, hname⟩
    have hcookie := beq_iff_eq.mp hin
    rw [beq_iff_eq.mp hname] at hsame ⊢
    unfold readHeader at hsame
    unfold headersWith readHeader
    dsimp only
    rw [if_pos hcookie, if_pos hcookie, Json.lookup_setField_self,
      Json.lookup_setField_self, hsame]
  other := by
    intro a header headers hreplaces hadds
    unfold headersWith readHeader
    dsimp only
    split
    · rename_i hcookie
      have hne : header ≠ "cookie".toList := by
        intro heq
        unfold addsCookie at hadds
        rw [hcookie, heq, beq_self_eq_true, beq_self_eq_true] at hadds
        cases hadds
      exact Json.lookup_setField_of_ne hne headers _
    · split
      · rename_i hheader
        have hne : header ≠ interpolate a.realm.scheme.name := by
          intro heq
          unfold replacesHeader at hreplaces
          rw [hheader.left, heq, beq_self_eq_true, beq_self_eq_true,
            bne_iff_ne.mpr hheader.right] at hreplaces
          cases hreplaces
        exact Json.lookup_setField_of_ne hne headers _
      · rfl

structure HasHeaders (req : Json) (headers : List (Text × Json)) : Prop where
  isObject : exists fields, req = .obj fields
  field : fieldOrEmpty req "headers".toList = .obj headers
  noProto : headers.lookup protoName = none

theorem HasHeaders.assignIn {fields headers : List (Text × Json)} {req : Json}
    (h : HasHeaders (.obj fields) headers) {name : Text} {value : Json}
    (hassign : assignIn (.obj fields) "headers".toList name value = .ok req) :
    HasHeaders req (assignEntry headers name value) := by
  rw [assignIn_eq (by decide) h.field] at hassign
  rw [← Except.ok.inj hassign]
  exact ⟨⟨_, rfl⟩, fieldOrEmpty_setField_self _ _ _,
    lookup_protoName_assignEntry h.noProto _ _⟩

theorem hasHeaders_attachTo {req req' : Json} {headers : List (Text × Json)}
    {a : Attachment} (h : HasHeaders req headers)
    (hattach : attachTo req a.realm.scheme a.realm.secret = .ok req') :
    HasHeaders req' (headersWith headers a) := by
  rcases h.isObject with ⟨fields, rfl⟩
  unfold attachTo at hattach
  dsimp only at hattach
  unfold headersWith
  dsimp only
  split at hattach
  · rename_i hcookie
    have hne : "cookie".toList ≠ protoName := by decide
    rw [h.field] at hattach
    have hset := h.assignIn hattach
    rw [assignEntry_of_ne hne, ← Json.setField_eq_setEntry] at hset
    rw [if_pos hcookie]
    exact hset
  · rename_i hcookie
    rw [if_neg hcookie]
    split at hattach
    · rename_i hheader
      have hset := h.assignIn hattach
      by_cases hproto : interpolate a.realm.scheme.name = protoName
      · rw [hproto, assignEntry_protoName h.noProto] at hset
        rw [if_neg fun hboth => hboth.right hproto]
        exact hset
      · rw [assignEntry_of_ne hproto, ← Json.setField_eq_setEntry] at hset
        rw [if_pos ⟨hheader, hproto⟩]
        exact hset
    · rename_i hheader
      rw [if_neg fun hboth => hheader hboth.left]
      split at hattach
      · rcases isObject_assignIn hattach with ⟨inner, rfl⟩
        have hne : "headers".toList ≠ "query".toList := by decide
        refine ⟨⟨_, rfl⟩, ?_, h.noProto⟩
        unfold fieldOrEmpty Json.field
        dsimp only
        rw [lookup_assignEntry_of_ne hne]
        exact h.field
      · rw [← Except.ok.inj hattach]
        exact h

theorem hasHeaders_attachEach {attached : List Attachment} {req req' : Json}
    {headers : List (Text × Json)} (h : HasHeaders req headers)
    (hattach : attachEach req (attached.map Attachment.secret) = .ok req') :
    HasHeaders req' (attached.foldl headersWith headers) := by
  induction attached generalizing req headers with
  | nil =>
      rw [← Except.ok.inj hattach]
      exact h
  | cons a rest ih =>
      rcases attachEach_cons hattach with ⟨next, hfirst, hrest⟩
      exact ih (hasHeaders_attachTo h hfirst) hrest

def headersSent (headers : List (Text × Json)) : List (Text × Value) :=
  setEntry (setEntry (spread (some (.obj headers))) "host".toList none)
    "content-length".toList none

theorem sentHeaders_of_hasHeaders {req : Json} {headers : List (Text × Json)}
    (h : HasHeaders req headers) : sentHeaders req = headersSent headers := by
  have hspread : spread (req.field "headers".toList) =
      spread (some (.obj headers)) := by
    have hheaders := h.field
    unfold fieldOrEmpty at hheaders
    cases hfield : req.field "headers".toList with
    | none =>
        rw [hfield] at hheaders
        cases hheaders
        rfl
    | some v =>
        rw [hfield] at hheaders
        cases htruthy : v.truthy with
        | true =>
            rw [Option.filter_some_pos htruthy] at hheaders
            exact congrArg (fun v => spread (some v)) hheaders
        | false =>
            rw [Option.filter_some_neg htruthy] at hheaders
            cases hheaders
            cases v with
            | obj fields => cases htruthy
            | _ => rfl
  unfold sentHeaders headersSent
  rw [hspread]

theorem lookup_spread (headers : List (Text × Json)) (header : Text) :
    (spread (some (.obj headers))).lookup header =
      (readHeader headers header).map some := by
  rw [spread_obj]
  unfold readHeader
  induction headers with
  | nil => rfl
  | cons entry rest ih =>
      rcases entry with ⟨key, value⟩
      rw [List.map_cons, List.lookup_cons, List.lookup_cons, ih]
      cases header == key with
      | true => rfl
      | false => rfl

theorem lookup_headersSent {headers headers' : List (Text × Json)}
    {header : Text}
    (h : readHeader headers header = readHeader headers' header) :
    (headersSent headers).lookup header =
      (headersSent headers').lookup header := by
  unfold headersSent
  by_cases hlength : header = "content-length".toList
  · rw [hlength, lookup_setEntry_self, lookup_setEntry_self]
  · rw [lookup_setEntry_of_ne hlength, lookup_setEntry_of_ne hlength]
    by_cases hhost : header = "host".toList
    · rw [hhost, lookup_setEntry_self, lookup_setEntry_self]
    · rw [lookup_setEntry_of_ne hhost, lookup_setEntry_of_ne hhost,
        lookup_spread, lookup_spread, h]

/-! ## The secrets that are meant for an endpoint -/

def guardsAround (rows : Rows) (endpoint : EndpointDto) :
    List RealmSecurityVO :=
  endpoint.securities ++
    ((rows.entries endpoint.entryId).map EntryDto.securities).getD []

/-- The realm is listed in the securities of the endpoint or of its entry. -/
def listed (rows : Rows) (endpoint : EndpointDto)
    (item : RealmSecurityItem) : Bool :=
  (guardsAround rows endpoint).any fun guard =>
    guard.any fun other => other.realmPk == item.realmPk

def hostOf (rows : Rows) (endpoint : EndpointDto) : Option Text :=
  (rows.entries endpoint.entryId).map EntryDto.host

/-- The secret is meant for the endpoint: its realm is listed there, and it has
been attached for the same host. -/
def meantFor (rows : Rows) (endpoint : EndpointDto) (a : Attachment) : Bool :=
  listed rows endpoint a.item && hostOf rows endpoint == hostOf rows a.endpoint

def IsRelative (rules : UrlRules) (url : Value) : Prop :=
  forall text, url = some (.str text) -> rules.isAbsolute text = false

structure GoesTo (rules : UrlRules) (config : AxiosConfig)
    (host : Option Text) : Prop where
  baseURL : host = some config.baseURL
  url : IsRelative rules config.url

/-- A request is made for the entry of its endpoint, and is the one of the
client with the secrets that are meant for the endpoint; each secret that it
shows has been attached for the host that it goes to. -/
structure CarriesOwn (rules : UrlRules) (rows : Rows) (client : Json)
    (clientHeaders : List (Text × Json)) (attached : List Attachment)
    (sending : Sending) : Prop where
  host : hostOf rows sending.endpoint = some sending.config.baseURL
  secrets : forall header a,
    a ∈ WriteLog.shown replacesHeader addsCookie header attached ->
    listed rows sending.endpoint a.item = true ∧
      GoesTo rules sending.config (hostOf rows a.endpoint)
  method : sending.config.method = client.field "method".toList
  url : sending.config.url = client.field "url".toList
  params : sending.config.params = client.field "params".toList
  data : sending.config.data = client.field "data".toList
  headers : forall header,
    sending.config.headers.lookup header =
      (headersSent ((attached.filter
        (meantFor rows sending.endpoint)).foldl headersWith
          clientHeaders)).lookup header

/-! ## The invocations of an event -/

/-- A call of `invokeSEP`: a command of a task script, a direct invocation or
a callback. -/
structure Command where
  epName : Option Text
  args : Value
  invokeId : Option Text

/-- The invocations so far, with the secrets that they have attached. -/
structure EventRun (tau : Type) where
  call : CallState (Wire tau)
  attached : List Attachment

namespace EventRun

/-- The invocation of a command and the state in which its chain begins. -/
def opened (r : EventRun tau) (c : Command) :
    InvokeStatus × CallState (Wire tau) :=
  chainStart c.epName c.args (c.invokeId.getD []) r.call

/-- The secrets that the invocation of a command attaches. -/
def attaches (rows : Rows) (host : InvokeHost (Wire tau)) (r : EventRun tau)
    (c : Command) : List Attachment :=
  attachedBy rows host.toRepository (r.opened c).1 (r.opened c).2

def step (rows : Rows) (host : InvokeHost (Wire tau)) (r : EventRun tau)
    (c : Command) : Option (EventRun tau) :=
  some
    { call := ((invokeSEP host c.epName c.args c.invokeId).exec r.call).2
      attached := r.attached ++ r.attaches rows host c }

def sent (r : EventRun tau) : List Sending :=
  r.call.world.outside.sent

/-- Where the check of its endpoint passes, the headers of an invocation show
only secrets that are meant for the endpoint, and none if the request has a url
with a host of its own. -/
def Clean (rules : UrlRules) (rows : Rows) (r : EventRun tau) (c : Command) :
    Prop :=
  forall endpoint own,
    endpointOf (r.opened c).2.event (r.opened c).1 = some endpoint ->
    ownAttachments rows (r.opened c).1 endpoint = some own ->
      forall header a,
        a ∈ WriteLog.shown replacesHeader addsCookie header
          (r.attached ++ own) ->
        meantFor rows endpoint a = true ∧
          IsRelative rules (r.call.event.context.req.field "url".toList)

/-- What an invocation sends carries only secrets that are meant for its
endpoint, to its host. -/
def SendsOwn (rules : UrlRules) (rows : Rows) (host : InvokeHost (Wire tau))
    (client : Json) (clientHeaders : List (Text × Json)) (r : EventRun tau)
    (c : Command) : Prop :=
  forall r', r.step rows host c = some r' ->
    exists new, r'.sent = r.sent ++ new ∧
      forall sending, sending ∈ new ->
        CarriesOwn rules rows client clientHeaders r'.attached sending

end EventRun

section Run

variable {axios : AxiosConfig -> Effect tau Thrown AxiosResponse}
  {host : InvokeHost tau} {rules : UrlRules} {rows : Rows} {client : Json}
  {clientHeaders : List (Text × Json)}

/-- The request of the event is the one of the client with the secrets that
have been attached. -/
structure Tracked (client : Json) (clientHeaders : List (Text × Json))
    (r : EventRun tau) : Prop where
  headers : HasHeaders r.call.event.context.req
    (r.attached.foldl headersWith clientHeaders)
  field : forall key, key ≠ "headers".toList -> key ≠ "query".toList ->
    r.call.event.context.req.field key = client.field key

theorem opened_eq (r : EventRun tau) (c : Command) :
    (r.opened c).2.event.context.req = r.call.event.context.req ∧
      (r.opened c).2.world.outside = r.call.world.outside := by
  unfold EventRun.opened chainStart
  split
  · exact ⟨rfl, rfl⟩
  · exact ⟨rfl, rfl⟩

theorem step_eq {host : InvokeHost (Wire tau)} {r r' : EventRun tau}
    {c : Command} (hstep : r.step rows host c = some r') :
    r'.attached = r.attached ++ r.attaches rows host c ∧
      r'.call.event.context.req =
        ((chain host.toChainHost (r.opened c).1).exec
          (r.opened c).2).2.event.context.req ∧
      r'.call.world.outside =
        ((chain host.toChainHost (r.opened c).1).exec
          (r.opened c).2).2.world.outside := by
  rw [← Option.some.inj hstep]
  unfold EventRun.opened
  dsimp only
  rw [exec_invokeSEP]
  split
  · rename_i hexec
    rw [hexec]
    exact ⟨rfl, rfl, rfl⟩
  · rename_i hexec
    rw [hexec]
    exact ⟨rfl, rfl, rfl⟩

theorem invoked_step (h : host.Holds rows) (r : EventRun tau) (c : Command) :
    Invoked rows (r.opened c).1 (r.attaches rows (onWire axios host) c)
      (r.opened c).2
      ((chain (onWire axios host).toChainHost (r.opened c).1).exec
        (r.opened c).2).2 :=
  invoked_chain h

theorem tracked_step (h : host.Holds rows) {r r' : EventRun tau} {c : Command}
    (htracked : Tracked client clientHeaders r)
    (hstep : r.step rows (onWire axios host) c = some r') :
    Tracked client clientHeaders r' := by
  rcases step_eq hstep with ⟨hattached, hreq, _⟩
  have hstepped : Invoked rows _ (r.attaches rows (onWire axios host) c)
      (r.opened c).2 _ :=
    invoked_step h r c
  have hinvoked := hstepped.req
  rw [(opened_eq r c).left, ← hreq] at hinvoked
  constructor
  · rw [hattached, List.foldl_append]
    exact hasHeaders_attachEach htracked.headers hinvoked
  · intro key hheaders hquery
    rw [field_attachEach hinvoked hheaders hquery]
    exact htracked.field key hheaders hquery

theorem carriesOwn_of_tracked {r : EventRun tau} {endpoint : EndpointDto}
    {config : AxiosConfig} {event : EventObject}
    (htracked : Tracked client clientHeaders r)
    (hreq : event.context.req = r.call.event.context.req)
    (hconfig : requestConfig (rows.entries endpoint.entryId) event =
      .ok config)
    (hmeant : forall header a,
      a ∈ WriteLog.shown replacesHeader addsCookie header r.attached ->
      meantFor rows endpoint a = true ∧
        IsRelative rules (client.field "url".toList)) :
    CarriesOwn rules rows client clientHeaders r.attached
      ⟨endpoint, config⟩ := by
  rcases requestConfig_eq_ok hconfig with ⟨entry, hentry, rfl⟩
  have hhost : hostOf rows endpoint = some entry.host := by
    unfold hostOf
    rw [hentry]
    rfl
  have hurl := htracked.field "url".toList (by decide) (by decide)
  rw [hreq]
  constructor
  · exact hhost
  · intro header a ha
    rcases hmeant header a ha with ⟨hboth, hrelative⟩
    rcases Bool.and_eq_true_iff.mp hboth with ⟨hlisted, hsame⟩
    refine ⟨hlisted, (beq_iff_eq.mp hsame).symm.trans hhost, ?_⟩
    show IsRelative rules (r.call.event.context.req.field "url".toList)
    rw [hurl]
    exact hrelative
  · exact htracked.field "method".toList (by decide) (by decide)
  · exact hurl
  · exact htracked.field "params".toList (by decide) (by decide)
  · exact htracked.field "data".toList (by decide) (by decide)
  · intro header
    change (sentHeaders r.call.event.context.req).lookup header = _
    rw [sentHeaders_of_hasHeaders htracked.headers]
    exact lookup_headersSent
      (WriteLog.read_filter writes_headersWith
        (fun a ha => (hmeant header a ha).left) clientHeaders)

theorem sendsOwn_of_clean (h : host.Holds rows) {r : EventRun tau}
    {c : Command} (htracked : Tracked client clientHeaders r)
    (hclean : r.Clean rules rows c) :
    r.SendsOwn rules rows (onWire axios host) client clientHeaders c := by
  intro r' hstep
  rcases step_eq hstep with ⟨hattached, hreq, houtside⟩
  have hsent : forall sent,
      ((chain (onWire axios host).toChainHost (r.opened c).1).exec
        (r.opened c).2).2.world.outside.sent =
          (r.opened c).2.world.outside.sent ++ sent ->
      r'.sent = r.sent ++ sent := by
    intro sent hsent
    unfold EventRun.sent
    rw [houtside, hsent, (opened_eq r c).right]
  rcases (invoked_step h r c).sent with hnone |
    ⟨endpoint, config, hendpoint, hown, hconfig, hone⟩
  · refine ⟨[], hsent [] ?_, nofun⟩
    rw [List.append_nil]
    exact hnone
  · refine ⟨[⟨endpoint, config⟩], hsent _ hone, ?_⟩
    intro sending hmem
    rw [List.mem_singleton.mp hmem]
    apply carriesOwn_of_tracked (tracked_step h htracked hstep) hreq.symm
      hconfig
    rw [hattached, ← htracked.field "url".toList (by decide) (by decide)]
    exact hclean endpoint _ hendpoint hown

/-- In a run whose invocations are clean, every request carries only secrets
that are meant for the endpoint it is sent for, and goes to its host if it
shows any. -/
theorem sendsOwn_of_stepsMeet (h : host.Holds rows) {s : CallState (Wire tau)}
    (hreq : Preprocessed s.event.context.req) {commands : List Command}
    (hclean : Transition.StepsMeet (EventRun.step rows (onWire axios host))
      (EventRun.Clean rules rows) ⟨s, []⟩ commands) :
    exists headers,
      fieldOrEmpty s.event.context.req "headers".toList = .obj headers ∧
      Transition.StepsMeet (EventRun.step rows (onWire axios host))
        (EventRun.SendsOwn rules rows (onWire axios host)
          s.event.context.req headers) ⟨s, []⟩ commands := by
  rcases hreq with ⟨hobject, headers, hheaders, _, hnone⟩
  have htracked : Tracked s.event.context.req headers
      (⟨s, []⟩ : EventRun tau) :=
    ⟨⟨hobject, hheaders, hnone⟩, fun _ _ _ => rfl⟩
  refine ⟨headers, hheaders, ?_⟩
  exact hclean.imp_of_inv (fun r c r' hr hstep => tracked_step h hr hstep)
    (fun r c hr hc => sendsOwn_of_clean h hr hc) htracked

end Run

/-! ## Two hosts with a key each -/

def shopKey (pk : Nat) (secret : String) : CallgentRealm :=
  { petRealm "header" with pk := pk, secret := secret.toList }

def shopRows : Rows where
  entries := fun id =>
    some { petServer with id := id, host := "http://".toList ++ id }
  realms := fun pk =>
    if pk = 1 then some (shopKey 1 "key-a")
    else if pk = 2 then some (shopKey 2 "key-b")
    else none

def shopHost : InvokeHost Unit :=
  { petHost with
      findEntry := fun id => return shopRows.entries id
      findRealm := fun pk => return shopRows.realms pk }

theorem holds_shopHost : shopHost.Holds shopRows where
  findEntry := fun _ => Returns.pure rfl
  findRealm := fun _ => Returns.pure rfl

def keyGuard (pk : Nat) : RealmSecurityItem :=
  ⟨pk, none, some true⟩

def shopEndpoint (name entryId : String)
    (securities : List RealmSecurityVO) : EndpointDto :=
  { (petOperation "GET" name).endpoint with
      name := name.toList
      entryId := entryId.toList
      securities := securities }

def endpointA : EndpointDto := shopEndpoint "A" "a" [[keyGuard 1]]

def endpointB : EndpointDto := shopEndpoint "B" "b" [[keyGuard 2]]

def endpointOpen : EndpointDto := shopEndpoint "Open" "b" []

def attachmentA : Attachment := ⟨endpointA, keyGuard 1, shopKey 1 "key-a"⟩

def attachmentB : Attachment := ⟨endpointB, keyGuard 2, shopKey 2 "key-b"⟩

def shopRun : EventRun Unit where
  call :=
    { event :=
        { petState.event with
            context :=
              { petState.event.context with
                  endpoints := some [endpointA, endpointB, endpointOpen] } }
      world := ⟨none, ⟨[], ()⟩⟩
      subprocess := [] }
  attached := []

def shopCommand (name invokeId : String) : Command :=
  ⟨some name.toList, none, some invokeId.toList⟩

theorem relative_petReq :
    IsRelative plainRules (petReq.field "url".toList) := by
  intro text htext
  cases htext
  rfl

theorem clean_first :
    shopRun.Clean plainRules shopRows (shopCommand "A" "1") := by
  intro endpoint own hendpoint hown header a ha
  have hendpoint' : endpoint = endpointA := (Option.some.inj hendpoint).symm
  rw [hendpoint'] at hown ⊢
  have hown' : own = [attachmentA] := (Option.some.inj hown).symm
  have hmem : a ∈ [attachmentA] := by
    rw [hown'] at ha
    exact WriteLog.mem_of_mem_shown ha
  rw [List.mem_singleton.mp hmem]
  exact ⟨rfl, relative_petReq⟩

theorem shown_both {header : Text} {a : Attachment}
    (h : a ∈ WriteLog.shown replacesHeader addsCookie header
      [attachmentA, attachmentB]) : a = attachmentB := by
  change a ∈ WriteLog.shown replacesHeader addsCookie header
    ([attachmentA] ++ [attachmentB]) at h
  rw [WriteLog.shown_append_singleton] at h
  unfold WriteLog.showNext at h
  cases hreplaces : replacesHeader attachmentB header with
  | true =>
      rw [if_pos hreplaces] at h
      exact List.mem_singleton.mp h
  | false =>
      have hscheme : attachmentA.realm.scheme = attachmentB.realm.scheme := rfl
      have hfirst : replacesHeader attachmentA header = false := by
        unfold replacesHeader at hreplaces ⊢
        rw [hscheme]
        exact hreplaces
      have hnone : WriteLog.shown replacesHeader addsCookie header
          [attachmentA] = [] := by
        unfold WriteLog.shown WriteLog.showNext
        rw [List.foldl_cons, if_neg (Bool.eq_false_iff.mp hfirst)]
        rfl
      rw [if_neg (Bool.eq_false_iff.mp hreplaces), hnone] at h
      cases h

/-- Each host gets its own key. -/
theorem sendsOwn_keys :
    exists headers,
      Transition.StepsMeet (EventRun.step shopRows (onWire petAxios shopHost))
        (EventRun.SendsOwn plainRules shopRows (onWire petAxios shopHost) petReq
          headers) shopRun [shopCommand "A" "1", shopCommand "B" "2"] := by
  have hclean : Transition.StepsMeet
      (EventRun.step shopRows (onWire petAxios shopHost))
      (EventRun.Clean plainRules shopRows) shopRun
      [shopCommand "A" "1", shopCommand "B" "2"] := by
    refine ⟨clean_first, fun r hstep => ⟨?_, fun _ _ => True.intro⟩⟩
    rw [← Option.some.inj hstep]
    intro endpoint own hendpoint hown header a ha
    have hendpoint' : endpoint = endpointB :=
      (Option.some.inj hendpoint).symm
    rw [hendpoint'] at hown ⊢
    have hown' : own = [attachmentB] := (Option.some.inj hown).symm
    rw [hown'] at ha
    rw [shown_both ha]
    exact ⟨rfl, relative_petReq⟩
  rcases sendsOwn_of_stepsMeet holds_shopHost preprocessed_petReq hclean with
    ⟨headers, _, hsends⟩
  exact ⟨headers, hsends⟩

/-- The run of a request to the first host and of one that needs no key. -/
def shopVisited : EventRun Unit :=
  (Transition.run (EventRun.step shopRows (onWire petAxios shopHost)) shopRun
    [shopCommand "A" "1", shopCommand "Open" "2"]).getD shopRun

def openSending : Sending :=
  shopVisited.sent.getLast?.get rfl

/-- The second host gets the key of the first one with a request that needs
none. -/
theorem key_sent_elsewhere :
    exists r sending,
      Transition.run (EventRun.step shopRows (onWire petAxios shopHost)) shopRun
        [shopCommand "A" "1", shopCommand "Open" "2"] = some r ∧
      r.sent.getLast? = some sending ∧
      sending.endpoint = endpointOpen ∧
      sending.config.baseURL = "http://b".toList ∧
      sending.config.headers.lookup "x-key".toList =
        some (some (.str "key-a".toList)) ∧
      listed shopRows endpointOpen attachmentA.item = false ∧
      ¬ CarriesOwn plainRules shopRows petReq
        [("host".toList, .str "localhost".toList)] r.attached sending := by
  have hendpoint : openSending.endpoint = endpointOpen := rfl
  have hkey : openSending.config.headers.lookup "x-key".toList =
      some (some (.str "key-a".toList)) := rfl
  have hattached : shopVisited.attached = [attachmentA] := rfl
  have hnone : (headersSent (([attachmentA].filter
      (meantFor shopRows endpointOpen)).foldl headersWith
        [("host".toList, .str "localhost".toList)])).lookup "x-key".toList =
      none := rfl
  refine ⟨shopVisited, openSending, rfl, rfl, hendpoint, rfl, hkey, rfl, ?_⟩
  intro hown
  have hheader := hown.headers "x-key".toList
  rw [hkey, hattached, hendpoint, hnone] at hheader
  cases hheader

end Entries
end CallgentApi
