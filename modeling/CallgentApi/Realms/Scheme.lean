import CallgentApi.Realms.Service

/-!
# The schemes of realms

A realm is configured from a security scheme.  The processor of the scheme's
type implies which provider the realm is for, derives the key of the realm, and
says whether a guard on an entry attaches the secret of the realm.
-/

namespace CallgentApi
namespace Realms

open Js Event

inductive EntryType where
  | client
  | server
  | event
deriving DecidableEq

structure RealmSchemeVO extends RealmScheme where
  type : Text
  /-- Missing until it is implied. -/
  provider : Option Text
  scheme : Option Text

structure Entry where
  type : EntryType
  adaptorKey : Text
  name : Text
  host : Text
  callgentId : Text
  securities : List RealmSecurityVO

/-- A realm, found by its callgent and its key. -/
structure Realm where
  authType : Text
  realm : Option Text
  scheme : RealmSchemeVO
  secret : Value
  perUser : Bool
  enabled : Bool

/-- What a caller gives of a realm besides its scheme. -/
structure RealmForm where
  realm : Option Text
  secret : Value

/-- The part of a processor that configures realms. -/
structure SchemeProcessor where
  /-- The url that stands for the servers of an API, with the host names of
  urls. -/
  serverUrl : (Text -> Option Text) -> List Text -> Option Text
  getRealmKey : RealmSchemeVO -> Option Text -> Text

namespace SchemeProcessor

def apiKey : SchemeProcessor where
  serverUrl := fun hostname servers =>
    servers.find? fun url => (hostname url).isSome
  getRealmKey := fun scheme realm =>
    "apiKey:".toList ++ (scheme.in_.getD [] ++ ':' :: (scheme.name.getD [] ++
      ':' :: (interpolate scheme.provider ++ ':' :: realm.getD [])))

def http : SchemeProcessor where
  serverUrl := fun _ servers => servers.head?
  getRealmKey := fun scheme realm =>
    "http:".toList ++ (scheme.scheme.getD [] ++
      ':' :: (interpolate scheme.provider ++ ':' :: realm.getD []))

def providerUrl (provider : Text) : Text :=
  if startsWith (toLowerCase provider) "http".toList then provider
  else "http://".toList ++ provider

/-- The url from which the provider is implied. -/
def impliedUrl (self : SchemeProcessor) (hostname : Text -> Option Text)
    (provider : Option Text) (entry : Option Entry) (servers : List Text) :
    Option Text :=
  match truthy provider with
  | some provider => some (providerUrl provider)
  | none =>
      match entry.filter fun entry => entry.type != .client with
      | some entry => some entry.host
      | none => self.serverUrl hostname servers

/-- `implyProvider`, with `hostname` for `new URL(url).hostname`. -/
def implyProvider (self : SchemeProcessor) (hostname : Text -> Option Text)
    (provider : Option Text) (entry : Option Entry) (servers : List Text) :
    Except Thrown Text :=
  match truthy (self.impliedUrl hostname provider entry servers) with
  | none =>
      .error (.badRequest
        "Cannot imply security provider, please specify it manually".toList)
  | some url =>
      match hostname url with
      | none =>
          .error (.badRequest
            ("Invalid security provider, must be url: ".toList ++ url))
      | some provider => .ok provider

/-- `checkEnabled`: a realm needs a secret, which is a text. -/
def checkEnabled (scheme : RealmSchemeVO) (secret : Value) : Bool :=
  (truthy scheme.provider).isSome && (truthy scheme.name).isSome &&
    (truthy scheme.in_).isSome &&
    match secret with
    | some (.str s) => !s.isEmpty
    | _ => false

/-- `constructRealm`: the key of the realm and what is stored under it. -/
def constructRealm (self : SchemeProcessor) (hostname : Text -> Option Text)
    (authType : Text) (scheme : RealmSchemeVO) (form : RealmForm)
    (entry : Option Entry) (servers : List Text) :
    Except Thrown (Text × Realm) := do
  let provider ← self.implyProvider hostname scheme.provider entry servers
  let scheme := { scheme with provider := some provider }
  return (self.getRealmKey scheme form.realm,
    { authType := authType
      realm := form.realm
      scheme := scheme
      secret := form.secret
      perUser := false
      enabled := checkEnabled scheme form.secret })

/-- Whether a guard on the entry attaches the secret of the realm. -/
def attach (self : SchemeProcessor) (hostname : Text -> Option Text)
    (entry : Entry) (realm : Realm) : Option Bool :=
  if entry.type = .client then none
  else
    match self.implyProvider hostname none (some entry) [] with
    | .error _ => none
    | .ok provider =>
        if realm.scheme.provider = some provider then some true else none

/-- `constructSecurity`. -/
def constructSecurity (self : SchemeProcessor)
    (hostname : Text -> Option Text) (entry : Entry) (pk : Nat) (realm : Realm)
    (scopes : Option (List Text)) : RealmSecurityItem where
  realmPk := pk
  scopes := scopes
  attach := self.attach hostname entry realm

end SchemeProcessor

/-- `_getAuthProcessor`. -/
def getSchemeProcessor (authType : Text) : Except Thrown SchemeProcessor :=
  if authType = "apiKey".toList then .ok .apiKey
  else if authType = "http".toList then .ok .http
  else .error (.plain ("Nest could not find ".toList ++ authType ++
    "-authProcessor element".toList))

/-! ## What the processors say -/

namespace SchemeProcessor

variable {self : SchemeProcessor} {hostname : Text -> Option Text}

theorem provider_of_attach {entry : Entry} {realm : Realm}
    (h : self.attach hostname entry realm = some true) :
    exists provider, realm.scheme.provider = some provider ∧
      hostname entry.host = some provider := by
  unfold attach at h
  split at h
  · cases h
  · rename_i htype
    have hkept : (some entry).filter (fun entry => entry.type != .client) =
        some entry := by
      apply Option.filter_some_pos
      rw [bne_iff_ne]
      exact htype
    have hurl : self.impliedUrl hostname none (some entry) [] =
        some entry.host := by
      unfold impliedUrl
      rw [truthy_none, hkept]
    unfold implyProvider at h
    rw [hurl] at h
    cases hhost : truthy (some entry.host) with
    | none =>
        rw [hhost] at h
        cases h
    | some url =>
        have hsame : entry.host = url :=
          Option.some.inj (Option.filter_eq_some_iff.mp hhost).left
        rw [hhost] at h
        cases hname : hostname url with
        | none =>
            simp only [hname] at h
            cases h
        | some provider =>
            simp only [hname] at h
            split at h
            · rename_i hprovider
              exact ⟨provider, hprovider, hsame ▸ hname⟩
            · cases h

theorem implied_of_constructRealm {authType key : Text}
    {scheme : RealmSchemeVO} {form : RealmForm} {entry : Option Entry}
    {servers : List Text} {realm : Realm}
    (h : self.constructRealm hostname authType scheme form entry servers =
      .ok (key, realm)) :
    exists provider,
      self.implyProvider hostname scheme.provider entry servers =
        .ok provider ∧
      realm.scheme.provider = some provider := by
  unfold constructRealm at h
  cases himply : self.implyProvider hostname scheme.provider entry servers with
  | error e =>
      rw [himply] at h
      cases h
  | ok provider =>
      rw [himply] at h
      cases h
      exact ⟨provider, rfl, rfl⟩

end SchemeProcessor

end Realms
end CallgentApi
