import CallgentApi.Users.Accounts

/-!
# The validation of emails

The token of a mail confirms the email of a local identity, sets its password
anew, or registers it; then the user is logged in.
-/

namespace CallgentApi
namespace Users

open Js Event Effect Cached

def inconsistent : Thrown :=
  .plain "Inconsistent query result".toList

def invalidInvocation : Thrown :=
  .plain "PrismaClientValidationError".toList

def tooLong : Thrown := databaseError "P2000".toList

def forbidden (message : Text) : Thrown := ⟨some 403, none, message, false⟩

/-- `include: { user: { include: { tenant: true } } }`. -/
structure FoundIdentity where
  ui : IdentityRow
  user : UserRecord
  tenant : TenantRow

/-- `CreateUserIdentityDto`; the password may be anything that was sent. -/
structure CreateUserIdentityDto where
  uid : Option Text
  provider : Text
  email : Option Text
  credentials : Value
  name : Option Text
  avatar : Option Text
  emailVerified : Bool

section Methods

variable (deployment : Deployment)

/-! ## Looking up -/

def withRelations (s : Accounts) (row : IdentityRow) :
    Except Thrown FoundIdentity :=
  match s.users.findPk row.value.userPk with
  | none => .error inconsistent
  | some user =>
      match s.tenants.findPk user.value.tenantPk with
      | none => .error inconsistent
      | some tenant => .ok ⟨row, user, tenant⟩

/-- `where` of an identity, which matches every id when none is given; without
`evenInvalid` the deleted ones are left out, and those of tenants that are not
active. -/
def matchesIdentity (s : Accounts) (uid : Option Text) (provider : Text)
    (noTenant evenInvalid : Bool) (row : IdentityRow) : Bool :=
  (noTenant || s.sees row.value.tenantPk) && row.key.1 == provider &&
    uid.all (fun uid => row.key.2.1 == uid) &&
      (evenInvalid || row.key.2.2 == 0 &&
        match withRelations s row with
        | .ok found => decide (0 < found.tenant.value.statusCode)
        | .error _ => false)

/-- `UsersService.$findUserIdentity`. -/
def identityOf (uid : Option Text) (provider : Text)
    (noTenant evenInvalid : Bool) :
    Effect Accounts Thrown (Option FoundIdentity) := do
  let s ← get
  match deployment.identity.pick (s.identities.rows.filter
      (matchesIdentity s uid provider noTenant evenInvalid)) with
  | none => return none
  | some row =>
      let found ← ofResult (withRelations s row)
      return some found

/-- Whether the password is the one that is stored; there is none to compare
with where nothing is stored. -/
def comparePassword (password : Value) (credentials : Text) :
    Except Thrown Bool :=
  if credentials.isEmpty then .ok false
  else
    match password with
    | some (.str text) => .ok (deployment.hashCompare text credentials)
    | _ => .error (.plain "data and hash arguments required".toList)

/-- `UsersService.login`. -/
def login (email : Option Text) (password : Value) :
    Effect Accounts Thrown UserRecord := do
  let ui ← identityOf deployment email "local".toList true false
  match ui with
  | none => throw (.unauthorized "Unauthorized".toList)
  | some found =>
      let valid ← ofResult
        (comparePassword deployment password found.ui.value.credentials)
      if valid then return found.user
      else throw (.unauthorized "Unauthorized".toList)

/-! ## Passwords -/

def hashPassword (pwd : Value) : Except Thrown (Option Text) :=
  match pwd.filter Json.truthy with
  | none => .ok none
  | some (.str text) =>
      if units text < 8 then
        .error (.badRequest
          "Password should be at least 8 characters".toList)
      else .ok (some (deployment.hashSalted text))
  | some _ =>
      .error (.badRequest "Password should be at least 8 characters".toList)

/-- `prisma.userIdentity.update`. -/
def updateIdentity (pk : Nat) (data : IdentityData) :
    Effect Accounts Thrown Unit := do
  let s ← get
  match (s.identities.findPk pk).filter
      (fun row => s.sees row.value.tenantPk) with
  | none => throw recordNotFound
  | some row => set (s.editIdentity row.pk data)

/-- `UsersService.updateLocalPassword`. -/
def updateLocalPassword (pwd : Value) (pk : Option Nat) :
    Effect Accounts Thrown (Option Text) := do
  let credentials ← ofResult (hashPassword deployment pwd)
  match pk.filter (fun pk => pk != 0) with
  | none => return credentials
  | some pk =>
      updateIdentity pk ⟨credentials, none⟩
      return credentials

/-! ## Registration -/

def newTenant (emailHost : Option Text) : Tenant :=
  ⟨emailHost, emailHost, 1, 1, 0⟩

/-- `prisma.tenant.create`. -/
def createTenant (emailHost : Option Text) :
    Effect Accounts Thrown TenantRow := do
  let s ← get
  if 30 < (emailHost.getD []).length then throw tooLong
  else
    match s.tenants.create deployment.tenantId (newTenant emailHost) with
    | none => throw uniqueConstraint
    | some tenants =>
        modify fun s => { s with tenants := tenants }
        return ⟨s.tenants.nextPk, deployment.tenantId, newTenant emailHost⟩

/-- The tenant of a mail host; there is none of no host. -/
def tenantOfHost (s : Accounts) (emailHost : Option Text) :
    Option TenantRow :=
  match emailHost with
  | none => none
  | some host =>
      deployment.tenant.pick (s.tenants.rows.filter fun row =>
        row.value.emailHost == some host)

def findOrCreateTenant (emailHost : Option Text) :
    Effect Accounts Thrown TenantRow := do
  let s ← get
  match tenantOfHost deployment s emailHost with
  | some tenant => return tenant
  | none => createTenant deployment emailHost

/-- `UsersService.registerTenant`. -/
def registerTenant (emailHost : Option Text) :
    Effect Accounts Thrown TenantRow := do
  let tenant ← findOrCreateTenant deployment (truthy emailHost)
  modify fun s => { s with tenantPk := some tenant.pk }
  return tenant

/-- `ui.email?.split('@')`. -/
def mailName (email : Option Text) : Option Text :=
  email.bind fun email => (email.splitOn '@').head?

def mailHost (email : Option Text) : Option Text :=
  email.bind fun email => (email.splitOn '@').tail.head?

/-- What `ui.name` is set to. -/
def CreateUserIdentityDto.shownName (ui : CreateUserIdentityDto) : Text :=
  ((truthy ui.name).or (truthy (mailName ui.email))).getD
    (ui.provider ++ '@' :: interpolate ui.uid)

def inNoGoodStatus (statusCode : Int) (suffix : String) : Text :=
  "Sorry, current account is in ".toList ++
    (if statusCode = 0 then "pending".toList else "inactive".toList) ++
      suffix.toList

def checkTenant (tenant : TenantRow) : Except Thrown Unit :=
  if tenant.value.deletedAt ≠ 0 then .error (forbidden
    "Sorry, current account has no access to our services".toList)
  else if ¬ 0 < tenant.value.statusCode then
    .error (forbidden (inNoGoodStatus tenant.value.statusCode
      " statusCode, please try again later."))
  else .ok ()

/-- The credentials that are stored of a new identity; a local password is
hashed, and what is no text cannot be stored. -/
def newCredentials (ui : CreateUserIdentityDto) : Except Thrown Text :=
  if ui.provider = "local".toList ∧
      (ui.credentials.filter Json.truthy).isSome then do
    let hash ← hashPassword deployment ui.credentials
    return hash.getD []
  else
    match ui.credentials with
    | some (.str text) => .ok text
    | _ => .error invalidInvocation

/-- Whether the texts of an identity and its user fit in their columns. -/
def FitsColumns (ui : CreateUserIdentityDto) (uid credentials : Text) : Prop :=
  ui.provider.length ≤ 30 ∧ uid.length ≤ 255 ∧ credentials.length ≤ 2048 ∧
    (ui.email.getD []).length ≤ 255 ∧ ui.shownName.length ≤ 30 ∧
      (ui.avatar.getD []).length ≤ 1023

instance (ui : CreateUserIdentityDto) (uid credentials : Text) :
    Decidable (FitsColumns ui uid credentials) := by
  unfold FitsColumns
  infer_instance

/-- `prisma.userIdentity.create` with `user: { create }`. -/
def createIdentity (ui : CreateUserIdentityDto) (uid credentials : Text)
    (tenant : TenantRow) : Effect Accounts Thrown FoundIdentity := do
  let s ← get
  let user : User :=
    { name := ui.shownName
      email := none
      avatar := ui.avatar
      tenantPk := tenant.pk
      deletedAt := tenant.value.deletedAt }
  let identity : UserIdentity :=
    { credentials := credentials
      name := some ui.shownName
      email := ui.email
      emailVerified := ui.emailVerified
      avatar := ui.avatar
      tenantPk := tenant.pk
      userPk := s.users.nextPk
      userId := deployment.userId }
  let key := (ui.provider, uid, tenant.value.deletedAt)
  if ¬ FitsColumns ui uid credentials then throw tooLong
  else if h : s.users.findUnique deployment.userId = none ∧
      s.identities.findUnique key = none then
    set { s with
      users := s.users.insert deployment.userId user h.left
      identities := s.identities.insert key identity h.right
      linked := s.linked.insert h.left h.right rfl rfl rfl }
    return ⟨⟨s.identities.nextPk, key, identity⟩,
      ⟨s.users.nextPk, deployment.userId, user⟩, tenant⟩
  else throw uniqueConstraint

def registerNew (ui : CreateUserIdentityDto) :
    Effect Accounts Thrown FoundIdentity := do
  let tenant ← registerTenant deployment (mailHost ui.email)
  ofResult (checkTenant tenant)
  modify fun s => { s with tenantPk := some tenant.pk }
  let credentials ← ofResult (newCredentials deployment ui)
  match ui.uid with
  | none => throw invalidInvocation
  | some uid => createIdentity deployment ui uid credentials tenant

def checkFound (found : FoundIdentity) : Except Thrown Unit :=
  if found.ui.key.2.2 ≠ 0 ∨ found.user.value.deletedAt ≠ 0 ∨
      found.tenant.value.deletedAt ≠ 0 then
    .error (forbidden
      "Sorry, current account has no access to our services".toList)
  else if ¬ 0 < found.tenant.value.statusCode then
    .error (forbidden (inNoGoodStatus found.tenant.value.statusCode
      " status, please try again later."))
  else .ok ()

/-- The password of a local identity is checked before its state is. -/
def checkLocal (found : FoundIdentity) (credentials : Value) :
    Effect Accounts Thrown Unit :=
  if found.ui.key.1 = "local".toList then do
    let _ ← login deployment (some found.ui.key.2.1) credentials
    return ()
  else return ()

def registerFound (found : FoundIdentity) (credentials : Value) :
    Effect Accounts Thrown FoundIdentity := do
  checkLocal deployment found credentials
  ofResult (checkFound found)
  modify fun s => { s with tenantPk := some found.tenant.pk }
  return found

def findOrRegister (ui : CreateUserIdentityDto) :
    Effect Accounts Thrown FoundIdentity := do
  let found ← identityOf deployment ui.uid ui.provider true true
  match found with
  | some found => registerFound deployment found ui.credentials
  | none => registerNew deployment ui

/-- The email of the user that an identity gives it. -/
def mailUser (found : FoundIdentity) (s : Accounts) : Accounts :=
  if found.ui.value.emailVerified = true ∧
      truthy found.user.value.email = none then
    s.updateUserEmail found.ui.value.userId found.ui.value.email
  else s

/-- `UsersService.registerUserFromIdentity`. -/
def registerUserFromIdentity (ui : CreateUserIdentityDto) :
    Effect Accounts Thrown FoundIdentity := do
  let found ← findOrRegister deployment ui
  modify (mailUser found)
  return found

/-! ## Validation -/

structure MailClaims where
  sub : Option Text
  resetPwd : Bool
  create : Bool
  userId : Value

/-- `const { sub: email, resetPwd, create, userId } = payload`. -/
def mailClaims (payload : JwtPayload) : MailClaims :=
  let flag (key : String) : Bool :=
    ((payload.claims.lookup key.toList).filter Json.truthy).isSome
  { sub :=
      match payload.claims.lookup "sub".toList with
      | some (.str email) => some email
      | _ => none
    resetPwd := flag "resetPwd"
    create := flag "create"
    userId := payload.claims.lookup "userId".toList }

/-- `UsersService._accountDeactivated`. -/
def accountDeactivated (found : FoundIdentity) : Bool :=
  found.ui.key.2.2 != 0 || found.user.value.deletedAt != 0 ||
    found.tenant.value.deletedAt != 0 || found.tenant.value.statusCode != 1

/-- The first validation of an email.  Nothing awaits the update, so it is
never sent. -/
def verifyEmail (found : FoundIdentity) : Effect Accounts Thrown Unit := do
  modify fun s => { s with tenantPk := some found.tenant.pk }
  let _promise := updateIdentity found.ui.pk ⟨none, some true⟩
  return ()

def validateFound (found : FoundIdentity) (claims : MailClaims)
    (pwd : Value) : Effect Accounts Thrown FoundIdentity := do
  let email := interpolate claims.sub
  if accountDeactivated found then
    throw (.badRequest
      ("Sorry, the user account is deactivated:".toList ++ email))
  else if claims.resetPwd then do
    let _ ← updateLocalPassword deployment pwd (some found.ui.pk)
    return found
  else if found.ui.value.emailVerified then
    throw (.badRequest (email ++ " is already verified".toList))
  else do
    verifyEmail found
    return found

/-- A token for an identity that is not there. -/
def validateNew (claims : MailClaims) (pwd : Value) :
    Effect Accounts Thrown FoundIdentity :=
  if !claims.create then
    throw (.badRequest ("Sorry, the user account does not exist: ".toList ++
      interpolate claims.sub))
  else if (claims.userId.filter Json.truthy).isSome then
    throw ⟨some 501, none, "associate to user".toList, false⟩
  else
    registerUserFromIdentity deployment
      { uid := claims.sub
        provider := "local".toList
        email := claims.sub
        credentials := pwd
        name := none
        avatar := none
        emailVerified := true }

def validateOr (found : Option FoundIdentity) (claims : MailClaims)
    (pwd : Value) : Effect Accounts Thrown FoundIdentity :=
  match found with
  | some found => validateFound deployment found claims pwd
  | none => validateNew deployment claims pwd

def loginPayload (found : FoundIdentity) : JwtPayload :=
  let number (n : Nat) : Json := .num (.ofInt n)
  { jti := none
    exp := none
    claims := [
      ("tenantPk".toList, number found.user.value.tenantPk),
      ("id".toList, number found.user.pk),
      ("sub".toList, .str found.user.key),
      ("iss".toList, .str found.ui.key.1),
      ("aud".toList, .str found.user.key)] }

/-- `event.user?.tenantPk && setTenantId(event.user.tenantPk)`. -/
def Accounts.enter (s : Accounts) (tenantPk : Nat) : Accounts :=
  if tenantPk = 0 then s else { s with tenantPk := some tenantPk }

def autoLogin (found : FoundIdentity) : Effect Accounts Thrown JwtPayload := do
  modify fun s => s.enter found.user.value.tenantPk
  return loginPayload found

/-- `UsersService.validateEmail` with a payload. -/
def validateClaims (claims : MailClaims) (pwd : Value) :
    Effect Accounts Thrown JwtPayload := do
  let found ← identityOf deployment claims.sub "local".toList true true
  let ui ← validateOr deployment found claims pwd
  modify fun s => s.updateUserEmail ui.ui.value.userId claims.sub
  autoLogin ui

/-- `UsersService.validateEmail`. -/
def validateEmail (token : Text) (pwd : Value) :
    Effect Accounts Thrown (Option JwtPayload) := do
  let payload ← zoom Accounts.tokens (fun s tokens => { s with tokens := tokens })
    (verify deployment.now token .apiKey true)
  match payload with
  | none => return none
  | some payload =>
      let user ← validateClaims deployment (mailClaims payload) pwd
      return some user

end Methods

end Users
end CallgentApi
