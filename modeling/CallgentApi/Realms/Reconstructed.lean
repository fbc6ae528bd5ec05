import CallgentApi.Realms.Scheme

/-!
# Realms that are constructed again

A stored scheme names the host of a provider.  A change of the realm and a
duplicate of it construct the realm again from that name, without an entry.
-/

namespace CallgentApi
namespace Realms

open Js Event

/-! ## Urls -/

def specialSchemes : List Text :=
  ["http:".toList, "https:".toList, "ws:".toList, "wss:".toList,
    "ftp:".toList, "file:".toList]

def IsSpecial (url : Text) : Prop :=
  exists scheme, scheme ∈ specialSchemes ∧
    startsWith (toLowerCase url) scheme = true

/-- What the parser of urls promises: a text without a scheme is no url, a host
has a colon only within the brackets of an address, and the host of a special
url is read from its own text as it is. -/
structure ParsesUrls (hostname : Text -> Option Text) : Prop where
  scheme : forall url, ':' ∉ url -> hostname url = none
  colon : forall url host, hostname url = some host -> ':' ∈ host ->
    startsWith host ['['] = true
  special : forall url host, IsSpecial url -> hostname url = some host ->
    host ≠ [] -> hostname ("http://".toList ++ host) = some host

namespace SchemeProcessor

variable {self : SchemeProcessor} {hostname : Text -> Option Text}
  {authType : Text}

/-! ## What a processor constructs -/

theorem implyProvider_of_url {provider : Option Text} {entry : Option Entry}
    {servers : List Text} {url host : Text}
    (hurl : truthy (self.impliedUrl hostname provider entry servers) =
      some url) (hhost : hostname url = some host) :
    self.implyProvider hostname provider entry servers = .ok host := by
  unfold implyProvider
  rw [hurl]
  dsimp only
  rw [hhost]

theorem constructRealm_of_imply {scheme : RealmSchemeVO} {form : RealmForm}
    {entry : Option Entry} {servers : List Text} {host : Text}
    (h : self.implyProvider hostname scheme.provider entry servers =
      .ok host) :
    self.constructRealm hostname authType scheme form entry servers =
      .ok (self.getRealmKey { scheme with provider := some host } form.realm,
        { authType := authType
          realm := form.realm
          scheme := { scheme with provider := some host }
          secret := form.secret
          perUser := false
          enabled :=
            checkEnabled { scheme with provider := some host } form.secret }) := by
  unfold constructRealm
  rw [h]
  rfl

theorem serverUrl_nil (h : getSchemeProcessor authType = .ok self) :
    self.serverUrl hostname [] = none := by
  unfold getSchemeProcessor at h
  split at h
  · cases h
    rfl
  · split at h
    · cases h
      rfl
    · cases h

/-! ## The second construction -/

/-- The realm is constructed again from its scheme, under the same key and for
the same provider. -/
def ConstructsAgain (self : SchemeProcessor)
    (hostname : Text -> Option Text) (key : Text) (realm : Realm) : Prop :=
  forall secret, exists again,
    self.constructRealm hostname realm.authType realm.scheme
        ⟨realm.realm, secret⟩ none [] = .ok (key, again) ∧
      again.scheme.provider = realm.scheme.provider

/-- The name of a host that is read again: it does not look like a url, and a
url that is not special has a host like one that is. -/
def ReadAgain (hostname : Text -> Option Text) (url host : Text) : Prop :=
  host ≠ [] ∧ startsWith (toLowerCase host) "http".toList = false ∧
    (IsSpecial url ∨ hostname ("http://".toList ++ host) = some host)

theorem hostname_of_http (hparses : ParsesUrls hostname) {url host : Text}
    (hhost : hostname url = some host)
    (hhttp : startsWith (toLowerCase host) "http".toList = true) :
    hostname host = none := by
  apply hparses.scheme
  intro hcolon
  have hbracket := hparses.colon url host hhost hcolon
  cases host with
  | nil => cases hcolon
  | cons c rest =>
      have hc : '[' = c := by
        simpa [startsWith, List.isPrefixOf] using hbracket
      rw [← hc] at hhttp
      cases hhttp

theorem implyProvider_again_iff (hprocessor : getSchemeProcessor authType =
      .ok self) (hparses : ParsesUrls hostname) {url host : Text}
    (hhost : hostname url = some host) :
    self.implyProvider hostname (some host) none [] = .ok host <->
      ReadAgain hostname url host := by
  unfold ReadAgain
  by_cases hempty : host = []
  · apply iff_of_false
    · intro h
      unfold implyProvider impliedUrl at h
      rw [hempty] at h
      have hserver : self.serverUrl hostname [] = none :=
        serverUrl_nil hprocessor
      dsimp only [truthy, Option.filter] at h
      simp [hserver] at h
    · exact fun h => h.left hempty
  · have htruthy : truthy (some host) = some host := by
      apply Option.filter_some_pos
      simpa using hempty
    have himplied : self.impliedUrl hostname (some host) none [] =
        some (providerUrl host) := by
      unfold impliedUrl
      rw [htruthy]
    cases hhttp : startsWith (toLowerCase host) "http".toList with
    | true =>
        have hurl : providerUrl host = host := by
          unfold providerUrl
          rw [hhttp]
          rfl
        apply iff_of_false
        · intro h
          unfold implyProvider at h
          rw [himplied, hurl, htruthy] at h
          dsimp only at h
          rw [hostname_of_http hparses hhost hhttp] at h
          cases h
        · intro h
          cases h.right.left
    | false =>
        have hurl : providerUrl host = "http://".toList ++ host := by
          unfold providerUrl
          rw [hhttp]
          rfl
        have hlong : truthy (some ("http://".toList ++ host)) =
            some ("http://".toList ++ host) := rfl
        have himply : self.implyProvider hostname (some host) none [] =
            .ok host <->
              hostname ("http://".toList ++ host) = some host := by
          unfold implyProvider
          rw [himplied, hurl, hlong]
          dsimp only
          cases hread : hostname ("http://".toList ++ host) with
          | none => simp
          | some other => simp
        rw [himply]
        constructor
        · intro hread
          exact ⟨hempty, rfl, Or.inr hread⟩
        · intro h
          rcases h.right.right with hspecial | hread
          · exact hparses.special url host hspecial hhost hempty
          · exact hread

theorem exists_url_of_implyProvider {provider : Option Text}
    {entry : Option Entry} {servers : List Text} {host : Text}
    (h : self.implyProvider hostname provider entry servers = .ok host) :
    exists url,
      truthy (self.impliedUrl hostname provider entry servers) = some url ∧
        hostname url = some host := by
  unfold implyProvider at h
  cases hurl : truthy (self.impliedUrl hostname provider entry servers) with
  | none =>
      rw [hurl] at h
      cases h
  | some url =>
      rw [hurl] at h
      dsimp only at h
      cases hhost : hostname url with
      | none =>
          rw [hhost] at h
          cases h
      | some other =>
          rw [hhost] at h
          cases h
          exact ⟨url, rfl, hhost⟩

/-- A realm is constructed again as it was exactly if the name of its host is
not empty, does not begin like a url, and is read as the same host. -/
theorem constructsAgain_iff (hprocessor : getSchemeProcessor authType =
      .ok self) (hparses : ParsesUrls hostname) {scheme : RealmSchemeVO}
    {form : RealmForm} {entry : Option Entry} {servers : List Text}
    {key : Text} {realm : Realm}
    (h : self.constructRealm hostname authType scheme form entry servers =
      .ok (key, realm)) :
    exists url host,
      truthy (self.impliedUrl hostname scheme.provider entry servers) =
          some url ∧
        hostname url = some host ∧ realm.scheme.provider = some host ∧
        (ConstructsAgain self hostname key realm <->
          ReadAgain hostname url host) := by
  rcases implied_of_constructRealm h with ⟨host, himply, hprovider⟩
  rcases exists_url_of_implyProvider himply with ⟨url, hurl, hhost⟩
  refine ⟨url, host, hurl, hhost, hprovider, ?_⟩
  rw [constructRealm_of_imply himply] at h
  cases h
  rw [← implyProvider_again_iff hprocessor hparses hhost]
  constructor
  · intro hagain
    rcases hagain none with ⟨again, hconstruct, hsame⟩
    rcases implied_of_constructRealm hconstruct with
      ⟨other, hother, hprovider'⟩
    rw [hprovider'] at hsame
    rw [Option.some.inj hsame] at hother
    exact hother
  · intro hagain secret
    rw [constructRealm_of_imply hagain]
    exact ⟨_, rfl, rfl⟩

end SchemeProcessor

/-! ## Two shops -/

def plainHost (url : Text) : Option Text :=
  match findText "://".toList url with
  | none => none
  | some n => some ((url.drop (n + 3)).takeWhile fun c => c != '/' && c != ':')

theorem parsesUrls_plainHost : ParsesUrls plainHost := by
  have hplain : forall url host, plainHost url = some host ->
      forall c, c ∈ host -> (c != '/' && c != ':') = true := by
    intro url host hhost c hc
    unfold plainHost at hhost
    split at hhost
    · cases hhost
    · cases hhost
      exact List.mem_takeWhile_imp (p := fun c => c != '/' && c != ':') hc
  constructor
  · intro url hcolon
    have hnone : findText "://".toList url = none :=
      findText_eq_none List.mem_cons_self hcolon
    unfold plainHost
    rw [hnone]
  · intro url host hhost hcolon
    exact absurd (hplain url host hhost ':' hcolon) (by decide)
  · intro url host _ hhost _
    have hfound : findText "://".toList ("http://".toList ++ host) = some 4 :=
      rfl
    unfold plainHost
    rw [hfound]
    dsimp only
    congr 1
    exact List.takeWhile_eq_self_iff.mpr (hplain url host hhost)

def keyOf (name : Text) : RealmSchemeVO where
  perUser := none
  validationUrl := none
  name := some name
  in_ := some "header".toList
  type := "apiKey".toList
  provider := none
  scheme := none

def serverEntry (host : Text) : Entry where
  type := .server
  adaptorKey := "restAPI".toList
  name := "shop".toList
  host := host
  callgentId := "shop".toList
  securities := []

def constructKey (host : Text) : Except Thrown (Text × Realm) :=
  SchemeProcessor.apiKey.constructRealm plainHost "apiKey".toList
    (keyOf "x-key".toList) ⟨none, none⟩ (some (serverEntry host)) []

theorem constructsAgain_shop :
    exists key realm url host,
      constructKey "https://shop.example/v1".toList = .ok (key, realm) ∧
        plainHost url = some host ∧
        (SchemeProcessor.ConstructsAgain .apiKey plainHost key realm <->
          SchemeProcessor.ReadAgain plainHost url host) := by
  have hconstruct : exists key realm,
      constructKey "https://shop.example/v1".toList = .ok (key, realm) :=
    ⟨_, _, rfl⟩
  rcases hconstruct with ⟨key, realm, hconstruct⟩
  rcases SchemeProcessor.constructsAgain_iff
    (show getSchemeProcessor "apiKey".toList = .ok .apiKey from rfl)
    parsesUrls_plainHost hconstruct with ⟨url, host, _, hhost, _, hagain⟩
  exact ⟨key, realm, url, host, hconstruct, hhost, hagain⟩

/-- A host whose name begins like a url is not read again. -/
theorem not_constructsAgain_httpbin :
    exists key realm,
      constructKey "https://httpbin.org".toList = .ok (key, realm) ∧
        key = "apiKey:header:x-key:httpbin.org:".toList ∧
        SchemeProcessor.apiKey.constructRealm plainHost realm.authType
            realm.scheme ⟨realm.realm, none⟩ none [] =
          .error (.badRequest
            "Invalid security provider, must be url: httpbin.org".toList) ∧
        ¬ SchemeProcessor.ConstructsAgain .apiKey plainHost key realm := by
  refine ⟨_, _, rfl, rfl, rfl, ?_⟩
  intro hagain
  rcases hagain none with ⟨again, hconstruct, _⟩
  cases hconstruct

end Realms
end CallgentApi
