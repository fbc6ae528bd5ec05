import CallgentApi.Event.Action

/-!
# Auth processors

A processor validates the token of a realm: it is attached to the request, or
checked at the realm's validation url.  A check that is neither confirmed nor
refused goes on in `postValidateToken` once the event is resumed.
-/

namespace CallgentApi
namespace Realms

open Js Event

variable {sigma : Type}

structure RealmScheme where
  perUser : Option Bool
  validationUrl : Option Text
  name : Option Text
  in_ : Option Text

structure CallgentRealm where
  pk : Nat
  callgentId : Text
  authType : Text
  enabled : Bool
  scheme : RealmScheme
  /-- `checkEnabled` lets a realm be enabled only with a text. -/
  secret : Text

/-- What a processor says about a token: valid or attached, invalid, or, when
it is missing, not known yet. -/
abbrev Verdict := Option Bool

/-- The part of a processor that `validateToken` calls. -/
structure TokenCheck (sigma : Type) where
  attachToken : Text -> CallgentRealm -> Action sigma Verdict
  validateTokenByUrl : Text -> CallgentRealm -> Action sigma Verdict

def postValidateTokenName : Text := "postValidateToken".toList

/-- Whether the token is attached or checked by url is up to the guard. -/
def verdictOn (self : TokenCheck sigma) (token : Text)
    (realm : CallgentRealm) (security : Option RealmSecurityItem) :
    Action sigma Verdict :=
  if security.bind RealmSecurityItem.attach = some true then
    self.attachToken token realm
  else if (truthy realm.scheme.validationUrl).isSome then
    self.validateTokenByUrl token realm
  else
    throw (Thrown.unauthorized
      ("Cannot validate auth token, validationUrl must not empty. callgentId=".toList ++
        realm.callgentId))

def validateToken (self : TokenCheck sigma) (token : Text)
    (realm : CallgentRealm) : Action sigma (Option Returned) := do
  let reqEvent ← Action.getEvent
  match ← verdictOn self token realm reqEvent.context.securityItem with
  | some true => return some ⟨none⟩
  | some false => return none
  -- `void`: the answer is to come
  | none => return some ⟨some postValidateTokenName⟩

structure AuthProcessor (sigma : Type) extends TokenCheck sigma where
  authProcess : CallgentRealm -> Option RealmSecurityItem ->
    Action sigma (Option Returned)
  postAcquireSecret : CallgentRealm -> Action sigma (Option Returned)
  postExchangeToken : CallgentRealm -> Action sigma (Option Returned)
  postValidateToken : CallgentRealm -> Action sigma (Option Returned)

/-! ## Attaching a token to the request -/

def readNull (property : Text) : Thrown :=
  .typeError ("Cannot read properties of null (reading '".toList ++
    property ++ "')".toList)

def cannotCreate (property : Text) : Thrown :=
  .typeError ("Cannot create property '".toList ++ property ++ "'".toList)

/-- `if (!req[key]) req[key] = {}`, then `req[key]`. -/
def fieldOrEmpty (req : Json) (key : Text) : Json :=
  match (req.field key).filter Json.truthy with
  | none => .obj []
  | some v => v

/-- `v[key] = value`, in strict mode. -/
def assign (v : Json) (key : Text) (value : Json) : Except Thrown Json :=
  match v with
  | .obj fields => .ok (.obj (assignEntry fields key value))
  -- such a property is not written to JSON
  | .arr items => .ok (.arr items)
  | _ => .error (cannotCreate key)

/-- `req[key][name] = value`, after `if (!req[key]) req[key] = {}`. -/
def assignIn (req : Json) (key name : Text) (value : Json) :
    Except Thrown Json :=
  match req with
  | .null => .error (readNull key)
  | _ =>
      match assign (fieldOrEmpty req key) name value with
      | .error e => .error e
      | .ok v => assign req key v

def withCookie (cookie : Option Json) (name value : Text) : Text :=
  match cookie.filter Json.truthy with
  | none => name ++ '=' :: encodeURIComponent value
  | some old => old.display ++ ';' :: name ++ '=' :: encodeURIComponent value

/-- The request with the token where the scheme wants it. -/
def attachTo (req : Json) (scheme : RealmScheme) (secret : Text) :
    Except Thrown Json :=
  let name := interpolate scheme.name
  let headers := "headers".toList
  if scheme.in_ = some "cookie".toList then
    assignIn req headers "cookie".toList
      (.str (withCookie ((fieldOrEmpty req headers).field "cookie".toList)
        name secret))
  else if scheme.in_ = some "header".toList then
    assignIn req headers name (.str secret)
  else if scheme.in_ = some "query".toList then
    assignIn req "query".toList name (.str secret)
  else .ok req

theorem isObject_assignIn {fields : List (Text × Json)} {key name : Text}
    {value req : Json}
    (h : assignIn (.obj fields) key name value = .ok req) :
    exists inner, req = .obj (assignEntry fields key inner) := by
  unfold assignIn at h
  dsimp only at h
  cases hassign : assign (fieldOrEmpty (.obj fields) key) name value with
  | error e =>
      rw [hassign] at h
      cases h
  | ok inner =>
      rw [hassign] at h
      exact ⟨inner, (Except.ok.inj h).symm⟩

theorem isObject_attachTo {fields : List (Text × Json)} {req : Json}
    {scheme : RealmScheme} {secret : Text}
    (h : attachTo (.obj fields) scheme secret = .ok req) :
    exists fields', req = .obj fields' := by
  unfold attachTo at h
  dsimp only at h
  split at h
  · rcases isObject_assignIn h with ⟨inner, hreq⟩
    exact ⟨_, hreq⟩
  · split at h
    · rcases isObject_assignIn h with ⟨inner, hreq⟩
      exact ⟨_, hreq⟩
    · split at h
      · rcases isObject_assignIn h with ⟨inner, hreq⟩
        exact ⟨_, hreq⟩
      · exact ⟨fields, (Except.ok.inj h).symm⟩

theorem field_assignIn {req req' : Json} {key name : Text} {value : Json}
    (h : assignIn req key name value = .ok req') {other : Text}
    (hne : other ≠ key) : req'.field other = req.field other := by
  unfold assignIn at h
  cases req with
  | obj fields =>
      rcases isObject_assignIn h with ⟨inner, rfl⟩
      exact lookup_assignEntry_of_ne hne fields inner
  | arr items =>
      dsimp only at h
      split at h
      · cases h
      · cases h
        rfl
  | null => cases h
  | _ =>
      dsimp only at h
      split at h
      · cases h
      · cases h

theorem field_attachTo {req req' : Json} {scheme : RealmScheme}
    {secret : Text} (h : attachTo req scheme secret = .ok req') {key : Text}
    (hheaders : key ≠ "headers".toList) (hquery : key ≠ "query".toList) :
    req'.field key = req.field key := by
  unfold attachTo at h
  dsimp only at h
  split at h
  · exact field_assignIn h hheaders
  · split at h
    · exact field_assignIn h hheaders
    · split at h
      · exact field_assignIn h hquery
      · rw [Except.ok.inj h]

/-- Secrets that are attached one after the other. -/
def attachEach (req : Json) :
    List (RealmScheme × Text) -> Except Thrown Json
  | [] => .ok req
  | (scheme, secret) :: rest =>
      match attachTo req scheme secret with
      | .error e => .error e
      | .ok req => attachEach req rest

theorem attachEach_cons {req last : Json} {scheme : RealmScheme}
    {secret : Text} {rest : List (RealmScheme × Text)}
    (h : attachEach req ((scheme, secret) :: rest) = .ok last) :
    exists next, attachTo req scheme secret = .ok next ∧
      attachEach next rest = .ok last := by
  unfold attachEach at h
  cases hattach : attachTo req scheme secret with
  | error e =>
      rw [hattach] at h
      cases h
  | ok next =>
      rw [hattach] at h
      exact ⟨next, rfl, h⟩

theorem isObject_attachEach {attached : List (RealmScheme × Text)}
    {fields : List (Text × Json)} {req : Json}
    (h : attachEach (.obj fields) attached = .ok req) :
    exists fields', req = .obj fields' := by
  induction attached generalizing fields with
  | nil => exact ⟨fields, (Except.ok.inj h).symm⟩
  | cons attachment rest ih =>
      rcases attachment with ⟨scheme, secret⟩
      rcases attachEach_cons h with ⟨next, hfirst, hrest⟩
      rcases isObject_attachTo hfirst with ⟨fields', rfl⟩
      exact ih hrest

theorem field_attachEach {attached : List (RealmScheme × Text)}
    {req req' : Json} (h : attachEach req attached = .ok req') {key : Text}
    (hheaders : key ≠ "headers".toList) (hquery : key ≠ "query".toList) :
    req'.field key = req.field key := by
  induction attached generalizing req with
  | nil => rw [Except.ok.inj h]
  | cons attachment rest ih =>
      rcases attachment with ⟨scheme, secret⟩
      rcases attachEach_cons h with ⟨next, hfirst, hrest⟩
      rw [ih hrest]
      exact field_attachTo hfirst hheaders hquery

/-- A request that a token can be attached to: what it has for headers and
for a query are objects. -/
structure Attachable (req : Json) : Prop where
  isObject : exists fields, req = .obj fields
  headers : exists inner, fieldOrEmpty req "headers".toList = .obj inner
  query : exists inner, fieldOrEmpty req "query".toList = .obj inner

theorem fieldOrEmpty_setField_self (fields inner : List (Text × Json))
    (key : Text) :
    fieldOrEmpty (.obj (Json.setField fields key (.obj inner))) key =
      .obj inner := by
  unfold fieldOrEmpty Json.field
  dsimp only
  rw [Json.lookup_setField_self]
  rfl

theorem fieldOrEmpty_setField_of_ne {key other : Text} (h : other ≠ key)
    (fields : List (Text × Json)) (value : Json) :
    fieldOrEmpty (.obj (Json.setField fields key value)) other =
      fieldOrEmpty (.obj fields) other := by
  unfold fieldOrEmpty Json.field
  dsimp only
  rw [Json.lookup_setField_of_ne h]

theorem assignIn_eq {fields inner : List (Text × Json)} {key : Text}
    (hkey : key ≠ protoName) (h : fieldOrEmpty (.obj fields) key = .obj inner)
    (name : Text) (value : Json) :
    assignIn (.obj fields) key name value =
      .ok (.obj (Json.setField fields key
        (.obj (assignEntry inner name value)))) := by
  unfold assignIn
  dsimp only
  rw [h]
  unfold assign
  dsimp only
  rw [assignEntry_of_ne hkey, Json.setField_eq_setEntry]

theorem attachable_assignIn {req : Json} (h : Attachable req) {key : Text}
    (hkey : key = "headers".toList ∨ key = "query".toList) (name : Text)
    (value : Json) :
    exists req', assignIn req key name value = .ok req' ∧ Attachable req' := by
  rcases h with ⟨⟨fields, rfl⟩, hheaders, hquery⟩
  have hne : "query".toList ≠ "headers".toList := by decide
  have hproto : "headers".toList ≠ protoName ∧ "query".toList ≠ protoName := by
    decide
  rcases hkey with rfl | rfl
  · rcases hheaders with ⟨inner, hinner⟩
    refine ⟨_, assignIn_eq hproto.left hinner name value, ⟨_, rfl⟩, ⟨_,
      fieldOrEmpty_setField_self _ _ _⟩, ?_⟩
    rw [fieldOrEmpty_setField_of_ne hne]
    exact hquery
  · rcases hquery with ⟨inner, hinner⟩
    refine ⟨_, assignIn_eq hproto.right hinner name value, ⟨_, rfl⟩, ?_, ⟨_,
      fieldOrEmpty_setField_self _ _ _⟩⟩
    rw [fieldOrEmpty_setField_of_ne hne.symm]
    exact hheaders

theorem attachable_attachTo {req : Json} (h : Attachable req)
    (scheme : RealmScheme) (secret : Text) :
    exists req', attachTo req scheme secret = .ok req' ∧ Attachable req' := by
  unfold attachTo
  dsimp only
  split
  · exact attachable_assignIn h (Or.inl rfl) _ _
  · split
    · exact attachable_assignIn h (Or.inl rfl) _ _
    · split
      · exact attachable_assignIn h (Or.inr rfl) _ _
      · exact ⟨req, rfl, h⟩

/-! ## The two processors -/

/-- `_attachToken` of both processors: it attaches the realm's own secret. -/
def attachToken (_token : Text) (realm : CallgentRealm) :
    Action sigma Verdict := do
  let reqEvent ← Action.getEvent
  match attachTo reqEvent.context.req realm.scheme realm.secret with
  | .error e => throw e
  | .ok req =>
      Action.modifyContext fun context => { context with req := req }
      return some true

/-- The processors have one body: the key is the token, and there is nothing
to exchange. -/
def keyAuthProcessor : AuthProcessor sigma :=
  let self : TokenCheck sigma :=
    { attachToken := attachToken
      validateTokenByUrl := fun _ _ => return none }
  { self with
    authProcess := fun realm _ => do
      match ← validateToken self realm.secret realm with
      | some returned => return some returned
      | none =>
          throw (Thrown.unauthorized
            ("Invalid api-key token, callgentId=".toList ++ realm.callgentId))
    postAcquireSecret := fun _ => throw (Thrown.plain "Not applicable.".toList)
    postExchangeToken := fun _ => throw (Thrown.plain "Not applicable.".toList)
    postValidateToken := fun _ =>
      throw (Thrown.plain "Method not implemented.".toList) }

def apiKeyAuthProcessor : AuthProcessor sigma := keyAuthProcessor

def httpAuthProcessor : AuthProcessor sigma := keyAuthProcessor

/-! ## What a check of a token leaves alone -/

open Effect

section Keeps

variable {t : Type} {f : CallState sigma -> t}

theorem keeps_attachToken (hf : ContextFree f) (token : Text)
    (realm : CallgentRealm) :
    Keeps f (attachToken token realm : Action sigma Verdict) := by
  refine Keeps.bind (keeps_getEvent f) fun reqEvent => ?_
  split
  · exact Keeps.throw _
  · refine Keeps.bind (hf _ (fun _ => rfl) (fun _ => rfl)) ?_
    exact fun _ => Keeps.pure _

theorem keeps_verdictOn {self : TokenCheck sigma} {token : Text}
    {realm : CallgentRealm}
    (hattach : Keeps f (self.attachToken token realm))
    (hurl : Keeps f (self.validateTokenByUrl token realm))
    (security : Option RealmSecurityItem) :
    Keeps f (verdictOn self token realm security) := by
  unfold verdictOn
  split
  · exact hattach
  · split
    · exact hurl
    · exact Keeps.throw _

theorem keeps_validateToken {self : TokenCheck sigma} {token : Text}
    {realm : CallgentRealm}
    (hattach : Keeps f (self.attachToken token realm))
    (hurl : Keeps f (self.validateTokenByUrl token realm)) :
    Keeps f (validateToken self token realm) := by
  refine Keeps.bind (keeps_getEvent f) fun reqEvent => ?_
  refine Keeps.bind (keeps_verdictOn hattach hurl _) fun verdict => ?_
  split
  · exact Keeps.pure _
  · exact Keeps.pure _
  · exact Keeps.pure _

/-- A processor's functions do not change the value of `f`. -/
structure AuthProcessor.KeepingOf (f : CallState sigma -> t)
    (processor : AuthProcessor sigma) : Prop where
  attachToken : forall token realm,
    Keeps f (processor.attachToken token realm)
  validateTokenByUrl : forall token realm,
    Keeps f (processor.validateTokenByUrl token realm)
  authProcess : forall realm item,
    Keeps f (processor.authProcess realm item)
  postAcquireSecret : forall realm,
    Keeps f (processor.postAcquireSecret realm)
  postExchangeToken : forall realm,
    Keeps f (processor.postExchangeToken realm)
  postValidateToken : forall realm,
    Keeps f (processor.postValidateToken realm)

theorem keepingOf_keyAuthProcessor (hf : ContextFree f) :
    (keyAuthProcessor : AuthProcessor sigma).KeepingOf f where
  attachToken := keeps_attachToken hf
  validateTokenByUrl := fun _ _ => Keeps.pure _
  authProcess := by
    intro realm item
    refine Keeps.bind (keeps_validateToken
      (keeps_attachToken hf realm.secret realm) (Keeps.pure none)) ?_
    intro returned
    split
    · exact Keeps.pure _
    · exact Keeps.throw _
  postAcquireSecret := fun _ => Keeps.throw _
  postExchangeToken := fun _ => Keeps.throw _
  postValidateToken := fun _ => Keeps.throw _

end Keeps

/-- A processor's functions leave the request's invocations alone. -/
structure AuthProcessor.Keeping (processor : AuthProcessor sigma) :
    Prop where
  attachToken : forall token realm,
    Keeps CallState.kept (processor.attachToken token realm)
  validateTokenByUrl : forall token realm,
    Keeps CallState.kept (processor.validateTokenByUrl token realm)
  authProcess : forall realm item,
    Keeps CallState.kept (processor.authProcess realm item)
  postAcquireSecret : forall realm,
    Keeps CallState.kept (processor.postAcquireSecret realm)
  postExchangeToken : forall realm,
    Keeps CallState.kept (processor.postExchangeToken realm)
  postValidateToken : forall realm,
    Keeps CallState.kept (processor.postValidateToken realm)

theorem AuthProcessor.KeepingOf.keeping {processor : AuthProcessor sigma}
    (h : processor.KeepingOf CallState.kept) : processor.Keeping where
  attachToken := h.attachToken
  validateTokenByUrl := h.validateTokenByUrl
  authProcess := h.authProcess
  postAcquireSecret := h.postAcquireSecret
  postExchangeToken := h.postExchangeToken
  postValidateToken := h.postValidateToken

end Realms
end CallgentApi
