import CallgentApi.Realms.AuthProcessor

/-!
# The realms service

`CallgentRealmsService` checks the security guards of a client entry before a
request is processed, and those of a service endpoint before it is invoked.
-/

namespace CallgentApi
namespace Realms

open Js Event

variable {sigma : Type}

structure EntryDto where
  id : Text
  host : Text
  securities : List RealmSecurityVO

structure Repository (sigma : Type) where
  findEntry : Text -> Effect sigma Thrown (Option EntryDto)
  findRealm : Nat -> Effect sigma Thrown (Option CallgentRealm)
  /-- The credentials of the user's identity at the provider. -/
  findFirstUserIdentity : Text -> Text -> Effect sigma Thrown (Option Text)

/-- `moduleRef.get(authType + '-authProcessor')`. -/
def getAuthProcessor (authType : Text) :
    Except Thrown (AuthProcessor sigma) :=
  if authType = "apiKey".toList then .ok apiKeyAuthProcessor
  else if authType = "http".toList then .ok httpAuthProcessor
  else .error (.plain ("Nest could not find ".toList ++ authType ++
    "-authProcessor element".toList))

/-- `_loadRealm(security, true)`: the realm if it is enabled, and its
processor. -/
def loadEnabledRealm (repo : Repository sigma)
    (security : Option RealmSecurityItem) :
    Action sigma (Option (CallgentRealm × AuthProcessor sigma)) :=
  match security with
  | none => throw (Thrown.readUndefined "realmPk".toList)
  | some item => do
      let realm ← Action.outside (repo.findRealm item.realmPk)
      match realm.filter CallgentRealm.enabled with
      | none => return none
      | some realm =>
          match getAuthProcessor realm.authType with
          | .error e => throw e
          | .ok processor => return some (realm, processor)

/-- `_loadRealm(security)`, which throws where the other answers nothing. -/
def loadRealm (repo : Repository sigma)
    (security : Option RealmSecurityItem) :
    Action sigma (CallgentRealm × AuthProcessor sigma) := do
  match ← loadEnabledRealm repo security with
  | some found => return found
  | none =>
      throw (Thrown.unauthorized ("Invalid security realm ".toList ++
        interpolate (security.map fun item => decimal item.realmPk)))

def findUserToken (repo : Repository sigma) (realm : CallgentRealm)
    (userId : Option Text) : Action sigma (Option Text) :=
  match truthy userId with
  | none => return none
  | some userId =>
      if realm.scheme.perUser = some true then
        Action.outside (repo.findFirstUserIdentity userId (decimal realm.pk))
      else return none

/-- `postAuthProcess`: no token is stored yet. -/
def postAuthProcess : Action sigma (Option Returned) :=
  return none

/-- The token a user has from an earlier request, if it is still valid. -/
def validateUserToken (processor : AuthProcessor sigma) (realm : CallgentRealm)
    (userToken : Option Text) : Action sigma (Option Returned) :=
  match userToken with
  | none => return none
  | some credentials =>
      validateToken processor.toTokenCheck credentials realm

/-- `_checkSecurityItem`; `none` when the check fails. -/
def checkSecurityItem (repo : Repository sigma)
    (item : Option RealmSecurityItem) : Action sigma (Option Returned) := do
  Action.modifyContext fun context => { context with securityItem := item }
  match ← loadEnabledRealm repo item with
  | none => return none
  | some (realm, processor) =>
      let reqEvent ← Action.getEvent
      let userToken ← findUserToken repo realm reqEvent.context.callerId
      match ← validateUserToken processor realm userToken with
      | some result => return some result
      | none =>
          match ← processor.authProcess realm item with
          | some ret => return some ret
          | none => postAuthProcess

/-- `_checkSecurity`: only the first item of a guard is checked. -/
def checkSecurity (repo : Repository sigma) (security : RealmSecurityVO) :
    Action sigma (Option Returned) := do
  Action.modifyContext fun context => { context with security := some security }
  checkSecurityItem repo security.head?

/-- The loop of `checkSecurities`, over guards that are alternatives. -/
def checkAlternatives (repo : Repository sigma) (sep : Bool) :
    List RealmSecurityVO -> Action sigma (Option Returned)
  | [] =>
      throw (Thrown.unauthorized ("Check ".toList ++
        (if sep then "SEP".toList else "CEP".toList) ++
        " authentications failed.".toList))
  | security :: rest => do
      match ← checkSecurity repo security with
      | some result => return some result
      | none => checkAlternatives repo sep rest

def checkSecurities (repo : Repository sigma)
    (securities : List RealmSecurityVO) (sep : Bool) :
    Action sigma (Option Returned) :=
  if securities.isEmpty then return none
  else checkAlternatives repo sep securities

def checkCenAuth (repo : Repository sigma) :
    Action sigma (Option Returned) := do
  let reqEvent ← Action.getEvent
  match ← Action.outside (repo.findEntry reqEvent.srcId) with
  | none =>
      throw (Thrown.notFound ("Client entry not found, id: ".toList ++
        reqEvent.srcId))
  | some cep => checkSecurities repo cep.securities false

def checkSepAuth (repo : Repository sigma) (endpoint : EndpointDto) :
    Action sigma (Option Returned) := do
  match ← checkSecurities repo endpoint.securities true with
  | some result => return some result
  | none =>
      match ← Action.outside (repo.findEntry endpoint.entryId) with
      | none => throw (readNull "securities".toList)
      | some sen => checkSecurities repo sen.securities true

def delegate (repo : Repository sigma)
    (fn : AuthProcessor sigma -> CallgentRealm ->
      Action sigma (Option Returned)) : Action sigma (Option Returned) := do
  let reqEvent ← Action.getEvent
  let (realm, processor) ← loadRealm repo reqEvent.context.securityItem
  fn processor realm

def postAcquireSecret (repo : Repository sigma) :
    Action sigma (Option Returned) :=
  delegate repo AuthProcessor.postAcquireSecret

def postExchangeToken (repo : Repository sigma) :
    Action sigma (Option Returned) :=
  delegate repo AuthProcessor.postExchangeToken

def postValidateToken (repo : Repository sigma) :
    Action sigma (Option Returned) :=
  delegate repo AuthProcessor.postValidateToken

/-- The functions that a listener or a resume can name. -/
def callgentRealmsService (repo : Repository sigma) : Service sigma :=
  serviceOf
    [("checkCenAuth".toList, checkCenAuth repo),
      ("postAcquireSecret".toList, postAcquireSecret repo),
      ("postExchangeToken".toList, postExchangeToken repo),
      (postValidateTokenName, postValidateToken repo)]

/-! ## What the service leaves alone -/

open Effect

section Keeps

variable {t : Type} {f : CallState sigma -> t}

theorem keepingOf_getAuthProcessor (hf : ContextFree f) {authType : Text}
    {processor : AuthProcessor sigma}
    (h : getAuthProcessor authType = .ok processor) :
    processor.KeepingOf f := by
  unfold getAuthProcessor at h
  split at h
  · rw [← Except.ok.inj h]
    exact keepingOf_keyAuthProcessor hf
  · split at h
    · rw [← Except.ok.inj h]
      exact keepingOf_keyAuthProcessor hf
    · cases h

theorem returns_loadEnabledRealm (hf : ContextFree f) (repo : Repository sigma)
    (security : Option RealmSecurityItem) :
    Returns (fun found => forall realm processor,
        found = some (realm, processor) -> processor.KeepingOf f)
      (loadEnabledRealm repo security) := by
  unfold loadEnabledRealm
  split
  · exact Returns.throw _
  · refine Returns.bind_any fun realm => ?_
    split
    · refine Returns.pure ?_
      intro realm processor h
      cases h
    · split
      · exact Returns.throw _
      · rename_i hprocessor
        refine Returns.pure ?_
        intro realm processor h
        cases h
        exact keepingOf_getAuthProcessor hf hprocessor

/-- The tables are read without a change of the value of `f`, which the
writes of a check to the context do not change either. -/
structure Repository.Reads (f : CallState sigma -> t)
    (repo : Repository sigma) : Prop where
  contextFree : ContextFree f
  findEntry : forall id, Keeps f (Action.outside (repo.findEntry id))
  findRealm : forall pk, Keeps f (Action.outside (repo.findRealm pk))
  findFirstUserIdentity : forall userId provider,
    Keeps f (Action.outside (repo.findFirstUserIdentity userId provider))

theorem reads_kept (repo : Repository sigma) :
    repo.Reads CallState.kept where
  contextFree := contextFree_kept
  findEntry := fun _ => kept_outside _
  findRealm := fun _ => kept_outside _
  findFirstUserIdentity := fun _ _ => kept_outside _

variable {repo : Repository sigma}

theorem keeps_loadEnabledRealm (h : repo.Reads f)
    (security : Option RealmSecurityItem) :
    Keeps f (loadEnabledRealm repo security) := by
  unfold loadEnabledRealm
  split
  · exact Keeps.throw _
  · refine Keeps.bind (h.findRealm _) fun realm => ?_
    split
    · exact Keeps.pure _
    · split
      · exact Keeps.throw _
      · exact Keeps.pure _

theorem keeps_findUserToken (h : repo.Reads f) (realm : CallgentRealm)
    (userId : Option Text) : Keeps f (findUserToken repo realm userId) := by
  unfold findUserToken
  split
  · exact Keeps.pure _
  · split
    · exact h.findFirstUserIdentity _ _
    · exact Keeps.pure _

theorem keeps_validateUserToken {processor : AuthProcessor sigma}
    (h : processor.KeepingOf f) (realm : CallgentRealm)
    (userToken : Option Text) :
    Keeps f (validateUserToken processor realm userToken) := by
  unfold validateUserToken
  split
  · exact Keeps.pure _
  · exact keeps_validateToken (h.attachToken _ _) (h.validateTokenByUrl _ _)

theorem keeps_checkSecurityItem (h : repo.Reads f)
    (item : Option RealmSecurityItem) :
    Keeps f (checkSecurityItem repo item) := by
  refine Keeps.bind (h.contextFree _ (fun _ => rfl) (fun _ => rfl)) ?_
  intro _
  refine Keeps.bind_of (keeps_loadEnabledRealm h item)
    (returns_loadEnabledRealm h.contextFree repo item) fun found hfound => ?_
  split
  · exact Keeps.pure _
  · rename_i realm processor
    have hkeeping := hfound realm processor rfl
    refine Keeps.bind (keeps_getEvent f) fun reqEvent => ?_
    refine Keeps.bind (keeps_findUserToken h realm _) fun userToken => ?_
    refine Keeps.bind (keeps_validateUserToken hkeeping realm userToken) ?_
    intro valid
    split
    · exact Keeps.pure _
    · refine Keeps.bind (hkeeping.authProcess realm item) fun ret => ?_
      split
      · exact Keeps.pure _
      · exact Keeps.pure _

theorem keeps_checkAlternatives (h : repo.Reads f) (sep : Bool)
    (securities : List RealmSecurityVO) :
    Keeps f (checkAlternatives repo sep securities) := by
  induction securities with
  | nil => exact Keeps.throw _
  | cons security rest ih =>
      refine Keeps.bind ?_ fun result => ?_
      · refine Keeps.bind (h.contextFree _ (fun _ => rfl) fun _ => rfl) ?_
        exact fun _ => keeps_checkSecurityItem h security.head?
      · split
        · exact Keeps.pure _
        · exact ih

theorem keeps_checkSecurities (h : repo.Reads f)
    (securities : List RealmSecurityVO) (sep : Bool) :
    Keeps f (checkSecurities repo securities sep) := by
  unfold checkSecurities
  split
  · exact Keeps.pure _
  · exact keeps_checkAlternatives h sep securities

theorem keeps_checkSepAuth (h : repo.Reads f) (endpoint : EndpointDto) :
    Keeps f (checkSepAuth repo endpoint) := by
  refine Keeps.bind (keeps_checkSecurities h _ true) fun result => ?_
  split
  · exact Keeps.pure _
  · refine Keeps.bind (h.findEntry _) fun sen => ?_
    split
    · exact Keeps.throw _
    · exact keeps_checkSecurities h _ true

end Keeps

theorem kept_checkCenAuth (repo : Repository sigma) :
    Keeps CallState.kept (checkCenAuth repo) := by
  refine Keeps.bind kept_getEvent fun reqEvent => ?_
  refine Keeps.bind (kept_outside _) fun cep => ?_
  split
  · exact Keeps.throw _
  · exact keeps_checkSecurities (reads_kept repo) _ false

theorem kept_delegate (repo : Repository sigma)
    {fn : AuthProcessor sigma -> CallgentRealm ->
      Action sigma (Option Returned)}
    (hfn : forall processor realm, processor.Keeping ->
      Keeps CallState.kept (fn processor realm)) :
    Keeps CallState.kept (delegate repo fn) := by
  refine Keeps.bind kept_getEvent fun reqEvent => ?_
  refine Keeps.bind_of (p := fun found => found.2.KeepingOf CallState.kept)
    ?_ ?_ ?_
  · refine Keeps.bind (keeps_loadEnabledRealm (reads_kept repo) _) ?_
    intro found
    split
    · exact Keeps.pure _
    · exact Keeps.throw _
  · refine Returns.bind (returns_loadEnabledRealm contextFree_kept repo _) ?_
    intro found hfound
    split
    · exact Returns.pure (hfound _ _ rfl)
    · exact Returns.throw _
  · exact fun found hfound => hfn found.2 found.1 hfound.keeping

end Realms
end CallgentApi
