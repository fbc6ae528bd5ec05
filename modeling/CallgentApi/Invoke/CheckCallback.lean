import CallgentApi.Invoke.Advance
import CallgentApi.Invoke.Callback

/-!
# The callback of a check

A check that is not over leaves the chain at the check, with the name of the
function that is to go on with it.  The callback enters the check again and
calls that function as the check itself is called, with the endpoint first.
-/

namespace CallgentApi
namespace Realms

open Js Event Effect

variable {sigma : Type}

/-! ## What a check is resumed with -/

/-- A check that is not over names the function that validates a token. -/
def Resumes (r : Option Returned) : Prop :=
  forall funName, truthy (r.bind Returned.resumeFunName) = some funName ->
    funName = postValidateTokenName

theorem resumes_none : Resumes none := by
  intro funName h
  cases h

theorem resumes_passed : Resumes (some ⟨none⟩) := by
  intro funName h
  cases h

theorem resumes_postValidateToken :
    Resumes (some ⟨some postValidateTokenName⟩) := by
  intro funName h
  exact (Option.some.inj h).symm

theorem resumes_validateToken (self : TokenCheck sigma) (token : Text)
    (realm : CallgentRealm) :
    Returns Resumes (validateToken self token realm) := by
  refine Returns.bind_any ?_
  intro reqEvent
  refine Returns.bind_any ?_
  intro verdict
  split
  · exact Returns.pure resumes_passed
  · exact Returns.pure resumes_none
  · exact Returns.pure resumes_postValidateToken

theorem resumes_authProcess (realm : CallgentRealm)
    (item : Option RealmSecurityItem) :
    Returns Resumes
      ((keyAuthProcessor : AuthProcessor sigma).authProcess realm item) := by
  unfold keyAuthProcessor
  dsimp only
  refine Returns.bind (resumes_validateToken _ realm.secret realm) ?_
  intro returned hreturned
  cases returned with
  | none => exact Returns.throw _
  | some r => exact Returns.pure hreturned

theorem getAuthProcessor_eq_ok {authType : Text}
    {processor : AuthProcessor sigma}
    (h : getAuthProcessor authType = .ok processor) :
    processor = keyAuthProcessor := by
  unfold getAuthProcessor at h
  split at h
  · exact (Except.ok.inj h).symm
  · split at h
    · exact (Except.ok.inj h).symm
    · cases h

theorem returns_keyAuthProcessor (repo : Repository sigma)
    (security : Option RealmSecurityItem) :
    Returns (fun found => forall realm processor,
        found = some (realm, processor) -> processor = keyAuthProcessor)
      (loadEnabledRealm repo security) := by
  unfold loadEnabledRealm
  split
  · exact Returns.throw _
  · refine Returns.bind_any ?_
    intro realm
    split
    · apply Returns.pure
      intro realm processor h
      cases h
    · split
      · exact Returns.throw _
      · rename_i hprocessor
        apply Returns.pure
        intro realm processor h
        cases h
        exact getAuthProcessor_eq_ok hprocessor

theorem resumes_checkSecurityItem (repo : Repository sigma)
    (item : Option RealmSecurityItem) :
    Returns Resumes (checkSecurityItem repo item) := by
  refine Returns.bind_any ?_
  intro _
  refine Returns.bind (returns_keyAuthProcessor repo item) ?_
  intro found hfound
  cases found with
  | none => exact Returns.pure resumes_none
  | some loaded =>
      rcases loaded with ⟨realm, processor⟩
      have hprocessor := hfound realm processor rfl
      dsimp only
      refine Returns.bind_any ?_
      intro reqEvent
      refine Returns.bind_any ?_
      intro userToken
      have hvalidated : Returns Resumes
          (validateUserToken processor realm userToken) := by
        unfold validateUserToken
        split
        · exact Returns.pure resumes_none
        · exact resumes_validateToken _ _ _
      refine Returns.bind hvalidated ?_
      intro validated hresumes
      cases validated with
      | some result => exact Returns.pure hresumes
      | none =>
          rw [hprocessor]
          refine Returns.bind (resumes_authProcess realm item) ?_
          intro ret hret
          cases ret with
          | some ret => exact Returns.pure hret
          | none => exact Returns.pure resumes_none

theorem resumes_checkAlternatives (repo : Repository sigma) (sep : Bool)
    (securities : List RealmSecurityVO) :
    Returns Resumes (checkAlternatives repo sep securities) := by
  induction securities with
  | nil => exact Returns.throw _
  | cons security rest ih =>
      have hcheck : Returns Resumes (checkSecurity repo security) :=
        Returns.bind_any fun _ => resumes_checkSecurityItem repo _
      refine Returns.bind hcheck ?_
      intro result hresult
      cases result with
      | some result => exact Returns.pure hresult
      | none => exact ih

theorem resumes_checkSecurities (repo : Repository sigma)
    (securities : List RealmSecurityVO) (sep : Bool) :
    Returns Resumes (checkSecurities repo securities sep) := by
  unfold checkSecurities
  split
  · exact Returns.pure resumes_none
  · exact resumes_checkAlternatives repo sep securities

theorem resumes_checkSepAuth (repo : Repository sigma)
    (endpoint : EndpointDto) :
    Returns Resumes (checkSepAuth repo endpoint) := by
  refine Returns.bind (resumes_checkSecurities repo endpoint.securities true) ?_
  intro result hresult
  cases result with
  | some result => exact Returns.pure hresult
  | none =>
      refine Returns.bind_any ?_
      intro sentry
      cases sentry with
      | none => exact Returns.throw _
      | some sen => exact resumes_checkSecurities repo sen.securities true

end Realms

namespace Invoke

open Js Event Realms Effect

variable {sigma : Type}

/-! ## The two calls of the chain -/

/-- The error of a function of the service that is given an endpoint in the
place of the event. -/
def noContext : Thrown :=
  Thrown.readUndefined "securityItem".toList

section Calls

variable {host : ChainHost sigma} {endpoint : EndpointDto}
  {status : InvokeStatus} {preData : Option PendingOrResponse}
  {s next : CallState sigma}

theorem exec_sepAuth_waits {returned : Option Returned} {funName : Text}
    (hcheck : (checkSepAuth host.toRepository endpoint).exec s =
      (.ok returned, next))
    (hpending : truthy (returned.bind Returned.resumeFunName) = some funName) :
    ((sepAuthProcessor host).body (placed status (some authName) none) endpoint
        preData).exec s =
      (.ok ({ status with
        processor := some ⟨some authName, some funName, some true⟩ },
          some .pending), next) := by
  have hcall : (callRealms host.toRepository "checkSepAuth".toList
      endpoint).exec s = (.ok returned, next) := by
    exact hcheck
  unfold sepAuthProcessor
  dsimp only
  apply (exec_bind_of_ok hcall _).trans
  rw [hpending]
  rfl

theorem exec_chain_waits {returned : Option Returned} {funName : Text}
    (hfinds : Finds endpoint status s) (hfresh : status.processor = none)
    (hcheck : (checkSepAuth host.toRepository endpoint).exec s =
      (.ok returned, next))
    (hpending : truthy (returned.bind Returned.resumeFunName) = some funName) :
    (chain host status).exec s =
      (.ok (placed status (some authName) (some funName), some .pending),
        next) := by
  rw [exec_chain_open hfinds (chainOpen_of_fresh hfresh)]
  apply (exec_runChain_fresh hfresh).trans
  have hbody : ((sepAuthProcessor host).body
      (placed status (some authName) none) endpoint
        (some (.ofData status.response))).exec s = _ :=
    exec_sepAuth_waits hcheck hpending
  have hprocess : ((sepAuthProcessor host).process
      (placed status (some authName) none) endpoint (some cachedName)
        (some (.ofData status.response))).exec s = _ :=
    exec_process_placed rfl hbody advance_break_current
  exact exec_runChain_stop (p := sepAuthProcessor host)
    (standsAt_placed _ _ _) hprocess

theorem exec_sepAuth_resumed :
    ((sepAuthProcessor host).body
        (placed status (some authName) (some postValidateTokenName)) endpoint
        preData).exec s = (.error noContext, s) := by
  have hcall : (callRealms host.toRepository postValidateTokenName
      endpoint).exec s = (.error noContext, s) := by
    rfl
  unfold sepAuthProcessor
  dsimp only
  exact exec_bind_of_error hcall _

theorem enteredByChain_open (hfinds : Finds endpoint status s)
    (hopen : chainOpen status = true) :
    enteredByChain host status s =
      entered endpoint (processors host) status
        (some (.ofData status.response)) s := by
  rcases hfinds with ⟨endpoints, hendpoints, hfound⟩
  unfold enteredByChain
  rw [hendpoints]
  dsimp only
  rw [hfound]
  dsimp only
  rw [if_pos hopen]

theorem entered_throw {p : SepProcessor sigma}
    {rest : List (SepProcessor sigma)} {e : Thrown}
    (hat : StandsAt (some p.getName) status)
    (hexec : (p.process status endpoint (rest.head?.map SepProcessor.getName)
      preData).exec s = (.error e, next)) :
    entered endpoint (p :: rest) status preData s = [p.getName] := by
  rw [entered, if_pos hat.isAt_self, hat.startedAt_eq, hexec]

theorem entered_pass {p : SepProcessor sigma}
    {rest : List (SepProcessor sigma)} {ctx : InvokeStatus}
    {data : Option PendingOrResponse}
    (hat : StandsAt (some p.getName) status)
    (hexec : (p.process status endpoint (rest.head?.map SepProcessor.getName)
      preData).exec s = (.ok ⟨ctx, data, false⟩, next)) :
    entered endpoint (p :: rest) status preData s =
      p.getName :: entered endpoint rest ctx data next := by
  rw [entered, if_pos hat.isAt_self, hat.startedAt_eq, hexec]
  rfl

theorem entered_fresh {p : SepProcessor sigma}
    {rest : List (SepProcessor sigma)} (hfresh : status.processor = none) :
    entered endpoint (p :: rest) status preData s =
      entered endpoint (p :: rest) (placed status (some p.getName) none)
        preData s := by
  have hplaced := (standsAt_placed status (some p.getName) none).startedAt_eq
    p.getName
  unfold entered
  rw [hplaced, startedAt_of_fresh hfresh]

theorem entered_head {p : SepProcessor sigma}
    (hat : StandsAt (some p.getName) status)
    (rest : List (SepProcessor sigma)) :
    exists more, entered endpoint (p :: rest) status preData s =
      p.getName :: more := by
  rw [entered, if_pos hat.isAt_self]
  exact ⟨_, rfl⟩

theorem chain_resumed (hfinds : Finds endpoint status s) :
    (chain host (placed status (some authName)
        (some postValidateTokenName))).exec s = (.error noContext, s) ∧
      enteredByChain host (placed status (some authName)
        (some postValidateTokenName)) s = [authName] := by
  have hplaced : Finds endpoint (placed status (some authName)
      (some postValidateTokenName)) s := hfinds
  have hopen : chainOpen (placed status (some authName)
      (some postValidateTokenName)) = true :=
    chainOpen_of_standsAt (List.cons_ne_nil _ _) (standsAt_placed _ _ _)
  have hat : StandsAt (some (sepAuthProcessor host).getName)
      (placed status (some authName) (some postValidateTokenName)) :=
    standsAt_placed _ _ _
  have hprocess : ((sepAuthProcessor host).process
      (placed status (some authName) (some postValidateTokenName)) endpoint
      (some cachedName) (some (.ofData status.response))).exec s =
        (.error noContext, s) :=
    exec_process_of_error exec_sepAuth_resumed _
  constructor
  · rw [exec_chain_open hplaced hopen]
    exact exec_runChain_throw (p := sepAuthProcessor host) hat hprocess
  · rw [enteredByChain_open hplaced hopen]
    exact entered_throw (p := sepAuthProcessor host) hat hprocess

end Calls

/-- The chain goes on as it does after a check that has passed at once: from a
state which the completed check leaves, through the processors behind it. -/
def GoesOnAfterCheck (host : ChainHost sigma) (endpoint : EndpointDto)
    (status : InvokeStatus) (s : CallState sigma) : Prop :=
  exists memory checked,
    enteredByChain host status s =
      authName :: entered endpoint ((processors host).drop 1)
        (placed status (some cachedName) memory) none checked ∧
    (chain host status).exec s =
      (runChain endpoint ((processors host).drop 1)
        (placed status (some cachedName) memory) none).exec checked

section Resumed

variable {host : ChainHost sigma} {endpoint : EndpointDto}
  {status : InvokeStatus} {s next : CallState sigma}

theorem goesOnAfterCheck_of_passed {returned : Option Returned}
    (hfinds : Finds endpoint status s) (hfresh : status.processor = none)
    (hcheck : (checkSepAuth host.toRepository endpoint).exec s =
      (.ok returned, next))
    (hpassed : truthy (returned.bind Returned.resumeFunName) = none) :
    GoesOnAfterCheck host endpoint status s := by
  have hbody : ((sepAuthProcessor host).body
      (placed status (some authName) none) endpoint
        (some (.ofData status.response))).exec s =
      (.ok (placed status (some authName) none, none), next) :=
    exec_sepAuth_passed rfl hcheck hpassed
  have hprocess : ((sepAuthProcessor host).process
      (placed status (some authName) none) endpoint (some cachedName)
        (some (.ofData status.response))).exec s =
      (.ok ⟨placed status (some cachedName) none, none, false⟩, next) :=
    exec_process_next (List.cons_ne_nil _ _) hbody _
  refine ⟨none, next, ?_, ?_⟩
  · rw [enteredByChain_open hfinds (chainOpen_of_fresh hfresh)]
    apply (entered_fresh (p := sepAuthProcessor host) hfresh).trans
    exact entered_pass (p := sepAuthProcessor host) (standsAt_placed _ _ _)
      hprocess
  · rw [exec_chain_open hfinds (chainOpen_of_fresh hfresh)]
    apply (exec_runChain_fresh hfresh).trans
    exact exec_from_auth hcheck hpassed

theorem not_goesOnAfterCheck (hfinds : Finds endpoint status s) :
    ¬ GoesOnAfterCheck host endpoint
      (placed status (some authName) (some postValidateTokenName)) s := by
  rintro ⟨memory, checked, htrace, _⟩
  have hat : StandsAt (some (sepCachedProcessor host).getName)
      (placed status (some cachedName) memory) :=
    standsAt_placed _ _ _
  have hhead : exists more,
      entered endpoint ((processors host).drop 1)
        (placed status (some cachedName) memory) none checked =
          cachedName :: more :=
    entered_head hat _
  rcases hhead with ⟨more, hmore⟩
  rw [(chain_resumed hfinds).right] at htrace
  have hrest : [] = entered endpoint ((processors host).drop 1)
      (placed status (some cachedName) memory) none checked :=
    (List.cons.inj htrace).right
  rw [hmore] at hrest
  cases hrest

/-- Once a check has been left pending, no callback completes it: the function
it is to go on with is not applied to the event, and the chain throws. -/
theorem pending_check_never_completes {returned : Option Returned}
    {funName : Text} (hfinds : Finds endpoint status s)
    (hfresh : status.processor = none)
    (hcheck : (checkSepAuth host.toRepository endpoint).exec s =
      (.ok returned, next))
    (hpending : truthy (returned.bind Returned.resumeFunName) = some funName) :
    exists waiting,
      (chain host status).exec s = (.ok (waiting, some .pending), next) ∧
      forall response later, Finds endpoint waiting later ->
        (chain host { waiting with response := response }).exec later =
          (.error noContext, later) ∧
        ¬ GoesOnAfterCheck host endpoint
          { waiting with response := response } later := by
  have hname : funName = postValidateTokenName :=
    resumes_checkSepAuth host.toRepository endpoint s returned next hcheck
      funName hpending
  refine ⟨_, exec_chain_waits hfinds hfresh hcheck hpending, ?_⟩
  intro response later hlater
  rw [hname]
  have hanswered : Finds endpoint { status with response := response } later :=
    hlater
  have hplaced : ({ placed status (some authName) (some postValidateTokenName)
      with response := response } : InvokeStatus) =
        placed { status with response := response } (some authName)
          (some postValidateTokenName) :=
    rfl
  rw [hplaced]
  constructor
  · exact (chain_resumed hanswered).left
  · exact not_goesOnAfterCheck hanswered

end Resumed

/-! ## An endpoint behind a key that is checked by url -/

def urlRealm : CallgentRealm where
  pk := 1
  callgentId := "c1".toList
  authType := "apiKey".toList
  enabled := true
  scheme :=
    { perUser := none
      validationUrl := some "https://shop/validate".toList
      name := none
      in_ := none }
  secret := "k".toList

def guardedEndpoint : EndpointDto :=
  { petEndpoint with securities := [[⟨1, none, none⟩]] }

def guardedHost : InvokeHost Unit :=
  { mailHost with findRealm := fun _ => return some urlRealm }

def guardedCall : CallState Unit :=
  ⟨{ petCall (some petEndpoint.name) with
      context := { (petCall (some petEndpoint.name)).context with
        endpoints := some [guardedEndpoint] } }, ⟨none, ()⟩, []⟩

def guardedStatus : InvokeStatus where
  invokeId := []
  epName := some petEndpoint.name
  args := none
  response := none
  processor := none
  cacheKey := none
  cacheTtl := none

def guardedChecked : CallState Unit :=
  ((checkSepAuth guardedHost.toRepository guardedEndpoint).exec guardedCall).2

theorem checkSepAuth_guarded :
    (checkSepAuth guardedHost.toRepository guardedEndpoint).exec guardedCall =
      (.ok (some ⟨some postValidateTokenName⟩), guardedChecked) := by
  rfl

theorem pending_check_never_completes_guarded :
    exists waiting,
      (chain guardedHost.toChainHost guardedStatus).exec guardedCall =
        (.ok (waiting, some .pending), guardedChecked) ∧
      forall response later, Finds guardedEndpoint waiting later ->
        (chain guardedHost.toChainHost
            { waiting with response := response }).exec later =
          (.error noContext, later) ∧
        ¬ GoesOnAfterCheck guardedHost.toChainHost guardedEndpoint
          { waiting with response := response } later :=
  pending_check_never_completes ⟨_, rfl, rfl⟩ rfl checkSepAuth_guarded rfl

/-- The key has been confirmed, and the invocation fails: the endpoint is not
called. -/
theorem guarded_invocation_fails :
    (chain guardedHost.toChainHost guardedStatus).exec guardedCall =
      (.ok (placed guardedStatus (some authName) (some postValidateTokenName),
        some .pending), guardedChecked) ∧
    (chain guardedHost.toChainHost
        { placed guardedStatus (some authName) (some postValidateTokenName)
            with response := some (.bool true) }).exec guardedChecked =
      (.error noContext, guardedChecked) ∧
    ¬ GoesOnAfterCheck guardedHost.toChainHost guardedEndpoint
        { placed guardedStatus (some authName) (some postValidateTokenName)
            with response := some (.bool true) } guardedChecked := by
  have hcall : Finds guardedEndpoint guardedStatus guardedCall :=
    ⟨_, rfl, rfl⟩
  have hfinds : Finds guardedEndpoint
      { guardedStatus with response := some (.bool true) } guardedChecked :=
    ⟨_, rfl, rfl⟩
  refine ⟨?_, (chain_resumed hfinds).left, not_goesOnAfterCheck hfinds⟩
  exact exec_chain_waits hcall rfl checkSepAuth_guarded rfl

end Invoke
end CallgentApi
