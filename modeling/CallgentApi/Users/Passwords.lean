import CallgentApi.Lib.Transition
import CallgentApi.Users.Verified

/-!
# Passwords

A local identity gets a password when it is registered or when a mail resets
it.  What is stored are hashes; what a login asks is whether the password is
the one that was set last.
-/

namespace CallgentApi
namespace Users

open Js Event Effect Cached

/-! ## Requests -/

inductive UserRequest where
  | register (ui : CreateUserIdentityDto)
  | login (email : Option Text) (password : Value)
  | validate (email : Text) (claims : MailClaims) (pwd : Value)

def respond (deployment : Deployment) :
    UserRequest -> Effect Accounts Thrown Unit
  | .register ui => do
      let _ ← registerUserFromIdentity deployment ui
  | .login email password => do
      let _ ← login deployment email password
  | .validate email claims pwd => do
      let _ ← validateClaims deployment { claims with sub := some email } pwd

structure Arrival where
  deployment : Deployment
  tenantPk : Option Nat
  request : UserRequest

structure Served where
  accounts : Accounts
  answered : List UserRequest

def Accounts.within (s : Accounts) (tenantPk : Option Nat) : Accounts :=
  { s with tenantPk := tenantPk }

/-- `@Transactional()`: a request that throws changes nothing. -/
def serve (s : Served) (arrival : Arrival) : Option Served :=
  match exec (respond arrival.deployment arrival.request)
      (s.accounts.within arrival.tenantPk) with
  | (.ok _, next) => some ⟨next, s.answered ++ [arrival.request]⟩
  | (.error _, _) => some s

def Served.start : Served := ⟨.empty, []⟩

/-! ## What is to be remembered -/

def passwordOf (pwd : Value) : Option Text :=
  match pwd.filter Json.truthy with
  | some (.str text) => some text
  | _ => none

/-- The emails with an identity, and their passwords, if they have one. -/
abbrev Remembered := Text -> Option (Option Text)

/-- A new identity has the password that it is registered with; one that is
there gets another one by a reset. -/
def remember (known : Remembered) : UserRequest -> Remembered
  | .register ui =>
      match ui.uid with
      | none => known
      | some email =>
          if ui.provider = "local".toList ∧ known email = none then
            Function.update known email (some (passwordOf ui.credentials))
          else known
  | .login _ _ => known
  | .validate email claims pwd =>
      match known email, passwordOf pwd with
      | none, password => Function.update known email (some password)
      | some _, some password =>
          if claims.resetPwd then
            Function.update known email (some (some password))
          else known
      | some _, none => known

def remembered (answered : List UserRequest) : Remembered :=
  answered.foldl remember fun _ => none

/-! ## Hashes -/

/-- A deployment compares as all do; a hash is compared as the password it was
made of, of which it may not see all. -/
structure Deployment.Hashes (deployment : Deployment)
    (compare same : Text -> Text -> Bool) : Prop where
  compares : deployment.hashCompare = compare
  ne_nil : forall pwd, deployment.hashSalted pwd ≠ []
  salted : forall guess pwd,
    compare guess (deployment.hashSalted pwd) = same guess pwd

def Stores (compare same : Text -> Text -> Bool) (credentials : Text) :
    Option Text -> Prop
  | none => credentials = []
  | some pwd => credentials ≠ [] ∧
      forall guess, compare guess credentials = same guess pwd

/-- The identity, if there is one, has what is remembered. -/
def Agrees (compare same : Text -> Text -> Bool) :
    Option IdentityRow -> Option (Option Text) -> Prop
  | none, none => True
  | some row, some password =>
      Stores compare same row.value.credentials password
  | _, _ => False

/-- Nothing has been deleted or deactivated, and a user has a tenant. -/
structure Accounts.Sound (s : Accounts) : Prop where
  identities : forall row, row ∈ s.identities.rows -> row.key.2.2 = 0
  tenants : forall row, row ∈ s.tenants.rows ->
    row.value.statusCode = 1 ∧ row.value.deletedAt = 0
  users : forall row, row ∈ s.users.rows ->
    row.value.deletedAt = 0 ∧
      exists tenant, tenant ∈ s.tenants.rows ∧ tenant.pk = row.value.tenantPk

section Passwords

variable {deployment : Deployment} {s s' : Accounts}

theorem sound_empty : Accounts.empty.Sound := by
  constructor
  · intro row hrow
    cases hrow
  · intro row hrow
    cases hrow
  · intro row hrow
    cases hrow

theorem Accounts.Sound.within (h : s.Sound) (tenantPk : Option Nat) :
    (s.within tenantPk).Sound :=
  ⟨h.identities, h.tenants, h.users⟩

theorem Accounts.Sound.updateUserEmail (h : s.Sound) (userId : Text)
    (email : Option Text) : (s.updateUserEmail userId email).Sound := by
  refine ⟨h.identities, h.tenants, ?_⟩
  intro row hrow
  rcases Table.mem_mapValues.mp hrow with ⟨old, hold, heq⟩
  have hsame : row.value.deletedAt = old.value.deletedAt ∧
      row.value.tenantPk = old.value.tenantPk := by
    rw [← heq]
    dsimp only
    split
    · exact ⟨rfl, rfl⟩
    · exact ⟨rfl, rfl⟩
  rw [hsame.left, hsame.right]
  exact h.users old hold

theorem Accounts.Sound.editIdentity (h : s.Sound) (pk : Nat)
    (data : IdentityData) : (s.editIdentity pk data).Sound := by
  refine ⟨?_, h.tenants, h.users⟩
  intro row hrow
  rcases Table.mem_edit.mp hrow with ⟨old, hold, heq⟩
  rw [← heq, Table.editRow_key]
  exact h.identities old hold

/-! ## What an identity is found by -/

theorem localIdentity_of_matches (h : s.Sound) {email : Text}
    {row : IdentityRow} (hmem : row ∈ s.identities.rows)
    {evenInvalid : Bool}
    (hmatch : matchesIdentity s (some email) "local".toList true evenInvalid
      row = true) : s.localIdentity email = some row := by
  have hkeys : row.key.1 = "local".toList ∧ row.key.2.1 = email := by
    unfold matchesIdentity at hmatch
    simp only [Bool.true_or, Bool.true_and, Bool.and_eq_true, beq_iff_eq,
      Option.all_some] at hmatch
    exact hmatch.left
  have hkey : row.key = ("local".toList, email, 0) :=
    Prod.ext hkeys.left (Prod.ext hkeys.right (h.identities row hmem))
  unfold Accounts.localIdentity
  rw [← hkey]
  exact Table.findUnique_of_mem hmem

theorem matches_of_localIdentity {email : Text} {row : IdentityRow}
    (h : s.localIdentity email = some row) :
    row ∈ s.identities.rows ∧
      matchesIdentity s (some email) "local".toList true true row = true := by
  have hkey := Table.key_of_findUnique h
  refine ⟨Table.mem_of_findUnique h, ?_⟩
  unfold matchesIdentity
  rw [hkey]
  simp

theorem exists_withRelations (h : s.Sound) {row : IdentityRow}
    (hmem : row ∈ s.identities.rows) :
    exists found, withRelations s row = .ok found ∧ found.ui = row ∧
      found.user.value.deletedAt = 0 ∧
      found.tenant.value.statusCode = 1 ∧ found.tenant.value.deletedAt = 0 := by
  rcases s.linked.user row hmem with ⟨user, huser, hpk, _, _⟩
  rcases h.users user huser with ⟨hkept, tenant, htenant, htenantPk⟩
  have hfoundUser : s.users.findPk row.value.userPk = some user := by
    rw [← hpk]
    exact Table.findPk_of_mem huser
  have hfoundTenant : s.tenants.findPk user.value.tenantPk = some tenant := by
    rw [← htenantPk]
    exact Table.findPk_of_mem htenant
  refine ⟨⟨row, user, tenant⟩, ?_, rfl, hkept, h.tenants tenant htenant⟩
  unfold withRelations
  rw [hfoundUser]
  dsimp only
  rw [hfoundTenant]

/-! ## Registration -/

theorem exec_ofResult_eq_ok {a : Type} {x : Except Thrown a} {value : a}
    (h : exec (ofResult x) s = (.ok value, s')) : x = .ok value ∧ s' = s := by
  rw [exec_ofResult] at h
  rcases Prod.mk.inj h with ⟨hx, hs⟩
  exact ⟨hx, hs.symm⟩

theorem Accounts.Sound.createTenant (h : s.Sound) {host : Option Text}
    {tenant : TenantRow}
    (hexec : exec (createTenant deployment host) s = (.ok tenant, s')) :
    s'.Sound ∧ tenant ∈ s'.tenants.rows ∧ s'.identities = s.identities := by
  unfold Users.createTenant at hexec
  rcases exec_bind_eq_ok hexec with ⟨first, next, hget, h1⟩
  cases hget
  split at h1
  · cases h1
  · split at h1
    · cases h1
    · rename_i tenants hcreate
      cases h1
      rcases Table.exists_insert_of_create hcreate with ⟨hnew, heq⟩
      have hmem : forall row, row ∈ tenants.rows <->
          row ∈ s.tenants.rows ∨
            row = ⟨s.tenants.nextPk, deployment.tenantId, newTenant host⟩ := by
        intro row
        rw [heq]
        exact Table.mem_insert
      refine ⟨⟨h.identities, ?_, ?_⟩, (hmem _).mpr (Or.inr rfl), rfl⟩
      · intro row hrow
        rcases (hmem row).mp hrow with hold | hrow
        · exact h.tenants row hold
        · rw [hrow]
          exact ⟨rfl, rfl⟩
      · intro row hrow
        rcases h.users row hrow with ⟨hkept, other, hother, hpk⟩
        exact ⟨hkept, other, (hmem other).mpr (Or.inl hother), hpk⟩

theorem Accounts.Sound.registerTenant (h : s.Sound) {host : Option Text}
    {tenant : TenantRow}
    (hexec : exec (registerTenant deployment host) s = (.ok tenant, s')) :
    s'.Sound ∧ tenant ∈ s'.tenants.rows ∧ s'.identities = s.identities := by
  unfold Users.registerTenant at hexec
  rcases exec_bind_eq_ok hexec with ⟨found, s1, hfound, h1⟩
  rcases exec_bind_eq_ok h1 with ⟨modified, s2, hmodified, h2⟩
  cases hmodified
  cases h2
  suffices hs1 : s1.Sound ∧ tenant ∈ s1.tenants.rows ∧
      s1.identities = s.identities from ⟨hs1.left.within _, hs1.right⟩
  unfold findOrCreateTenant at hfound
  rcases exec_bind_eq_ok hfound with ⟨first, next, hget, h3⟩
  cases hget
  split at h3
  · rename_i there hthere
    cases h3
    refine ⟨h, ?_, rfl⟩
    unfold tenantOfHost at hthere
    split at hthere
    · cases hthere
    · exact (List.mem_filter.mp (deployment.tenant.mem hthere)).left
  · exact h.createTenant h3

/-- The identities are as before, with a new one of these credentials. -/
def Adds (s s' : Accounts) (provider uid credentials : Text) : Prop :=
  exists (row : UserIdentity)
    (hnew : s.identities.findUnique (provider, uid, 0) = none),
    row.credentials = credentials ∧
      s'.identities = s.identities.insert (provider, uid, 0) row hnew

theorem Accounts.Sound.createIdentity (h : s.Sound)
    {ui : CreateUserIdentityDto} {uid credentials : Text} {tenant : TenantRow}
    (htenant : tenant ∈ s.tenants.rows) {found : FoundIdentity}
    (hexec : exec (createIdentity deployment ui uid credentials tenant) s =
      (.ok found, s')) :
    s'.Sound ∧ Adds s s' ui.provider uid credentials := by
  rcases tenant with ⟨pk, id, ⟨host, name, type, status, deletedAt⟩⟩
  have hkept : deletedAt = 0 := (h.tenants _ htenant).right
  subst hkept
  unfold Users.createIdentity at hexec
  rcases exec_bind_eq_ok hexec with ⟨first, next, hget, h1⟩
  cases hget
  simp only at h1
  split at h1
  · cases h1
  · split at h1
    · rename_i hnew
      cases h1
      refine ⟨⟨?_, h.tenants, ?_⟩, _, hnew.right, rfl, rfl⟩
      · intro row hrow
        rcases List.mem_append.mp hrow with hold | hrow
        · exact h.identities row hold
        · rw [List.mem_singleton.mp hrow]
      · intro row hrow
        rcases List.mem_append.mp hrow with hold | hrow
        · exact h.users row hold
        · rw [List.mem_singleton.mp hrow]
          exact ⟨rfl, _, htenant, rfl⟩
    · cases h1

theorem Accounts.Sound.registerNew (h : s.Sound) {ui : CreateUserIdentityDto}
    {found : FoundIdentity}
    (hexec : exec (registerNew deployment ui) s = (.ok found, s')) :
    s'.Sound ∧ exists uid credentials, ui.uid = some uid ∧
      newCredentials deployment ui = .ok credentials ∧
      Adds s s' ui.provider uid credentials := by
  unfold Users.registerNew at hexec
  rcases exec_bind_eq_ok hexec with ⟨tenant, s1, htenant, h1⟩
  rcases exec_bind_eq_ok h1 with ⟨checked, s2, hchecked, h2⟩
  rcases exec_bind_eq_ok h2 with ⟨modified, s3, hmodified, h3⟩
  rcases exec_bind_eq_ok h3 with ⟨credentials, s4, hcredentials, h4⟩
  rcases h.registerTenant htenant with ⟨hs1, hmem, hidentities⟩
  have hs2 := (exec_ofResult_eq_ok hchecked).right
  cases hmodified
  rcases exec_ofResult_eq_ok hcredentials with ⟨hmade, hs4⟩
  rw [hs4, hs2] at h4
  split at h4
  · cases h4
  · rename_i uid huid
    have hwithin := hs1.within (some tenant.pk)
    rcases hwithin.createIdentity hmem h4 with ⟨hsound, hadds⟩
    refine ⟨hsound, uid, credentials, huid, hmade, ?_⟩
    unfold Adds at hadds ⊢
    rw [← hidentities]
    exact hadds

theorem localIdentity_of_missing {email : Text}
    (hmissing : forall row, row ∈ s.identities.rows ->
      matchesIdentity s (some email) "local".toList true true row = false) :
    s.localIdentity email = none := by
  cases hrow : s.localIdentity email with
  | none => rfl
  | some row =>
      rcases matches_of_localIdentity hrow with ⟨hmem, hmatch⟩
      rw [hmissing row hmem] at hmatch
      cases hmatch

theorem keeps_identityOf (uid : Option Text) (provider : Text)
    (noTenant evenInvalid : Bool) :
    Keeps (fun s : Accounts => s)
      (identityOf deployment uid provider noTenant evenInvalid) := by
  apply Keeps.bind Keeps.get
  intro s
  split
  · exact Keeps.pure _
  · exact Keeps.bind (fun _ => rfl) fun _ => Keeps.pure _

theorem keeps_login (email : Option Text) (password : Value) :
    Keeps (fun s : Accounts => s) (login deployment email password) := by
  apply Keeps.bind (keeps_identityOf email _ _ _)
  intro ui
  cases ui with
  | none => exact Keeps.throw _
  | some found =>
      apply Keeps.bind (fun _ => rfl)
      intro valid
      split
      · exact Keeps.pure _
      · exact Keeps.throw _

theorem exec_registerFound_eq_ok {found back : FoundIdentity}
    {credentials : Value}
    (h : exec (registerFound deployment found credentials) s =
      (.ok back, s')) : s' = s.within (some found.tenant.pk) := by
  unfold registerFound at h
  rcases exec_bind_eq_ok h with ⟨done, s1, hlocal, h1⟩
  rcases exec_bind_eq_ok h1 with ⟨checked, s2, hchecked, h2⟩
  rcases exec_bind_eq_ok h2 with ⟨modified, s3, hmodified, h3⟩
  cases hmodified
  cases h3
  have hkept : Keeps (fun s : Accounts => s)
      (checkLocal deployment found credentials) := by
    unfold checkLocal
    split
    · exact Keeps.bind (keeps_login _ _) fun _ => Keeps.pure _
    · exact Keeps.pure _
  rw [(exec_ofResult_eq_ok hchecked).right, hkept.of_ok hlocal]
  rfl

/-- What a registration does to the identities. -/
structure Registers (deployment : Deployment) (ui : CreateUserIdentityDto)
    (s s' : Accounts) : Prop where
  sound : s'.Sound
  effect :
    (s'.identities = s.identities ∧
      (ui.provider = "local".toList -> forall email, ui.uid = some email ->
        s.localIdentity email ≠ none)) ∨
    exists uid credentials, ui.uid = some uid ∧
      newCredentials deployment ui = .ok credentials ∧
      Adds s s' ui.provider uid credentials

theorem Registers.mailUser {ui : CreateUserIdentityDto}
    (h : Registers deployment ui s s') (found : FoundIdentity) :
    Registers deployment ui s (mailUser found s') := by
  unfold Users.mailUser
  split
  · exact ⟨h.sound.updateUserEmail _ _, h.effect⟩
  · exact h

theorem Accounts.Sound.registers (h : s.Sound) {ui : CreateUserIdentityDto}
    {found : FoundIdentity}
    (hexec : exec (registerUserFromIdentity deployment ui) s =
      (.ok found, s')) : Registers deployment ui s s' := by
  unfold registerUserFromIdentity at hexec
  rcases exec_bind_eq_ok hexec with ⟨registered, s1, hregister, h1⟩
  rcases exec_bind_eq_ok h1 with ⟨mailed, s2, hmailed, h2⟩
  cases hmailed
  cases h2
  suffices hs1 : Registers deployment ui s s1 from hs1.mailUser found
  unfold findOrRegister at hregister
  rcases exec_bind_eq_ok hregister with ⟨there, s2, hthere, h3⟩
  rcases exec_identityOf_eq_ok hthere with ⟨hs2, hnone | hsome⟩
  · rw [hnone.left, hs2] at h3
    rcases h.registerNew h3 with ⟨hsound, hadds⟩
    exact ⟨hsound, Or.inr hadds⟩
  · rcases hsome with ⟨f, hf, hmem, hmatch, hrelations⟩
    rw [hf, hs2] at h3
    rw [exec_registerFound_eq_ok h3]
    refine ⟨h.within _, Or.inl ⟨rfl, ?_⟩⟩
    intro hprovider email huid
    rw [hprovider, huid] at hmatch
    rw [localIdentity_of_matches h hmem hmatch]
    exact Option.some_ne_none _

/-! ## Validation -/

structure Validates (deployment : Deployment) (email : Text)
    (resetPwd : Bool) (pwd : Value) (s s' : Accounts) : Prop where
  sound : s'.Sound
  effect :
    (exists credentials, s.localIdentity email = none ∧
      newCredentials deployment ⟨some email, "local".toList, some email, pwd,
        none, none, true⟩ = .ok credentials ∧
      Adds s s' "local".toList email credentials) ∨
    exists row, s.localIdentity email = some row ∧
      ((resetPwd = true ∧ exists hash,
          hashPassword deployment pwd = .ok hash ∧
          s'.identities = (s.editIdentity row.pk ⟨hash, none⟩).identities) ∨
        (resetPwd = false ∧ s'.identities = s.identities))

theorem Accounts.Sound.validateFound (h : s.Sound) {email : Text}
    {claims : MailClaims} {pwd : Value} {found back : FoundIdentity}
    (hactive : accountDeactivated found = false -> Active s email found)
    (hexec : exec (validateFound deployment found claims pwd) s =
      (.ok back, s')) :
    Validates deployment email claims.resetPwd pwd s s' := by
  unfold Users.validateFound at hexec
  simp only at hexec
  split at hexec
  · cases hexec
  · rename_i hdeactivated
    have hfound := hactive (Bool.eq_false_iff.mpr hdeactivated)
    split at hexec
    · rename_i hreset
      rcases exec_bind_eq_ok hexec with ⟨hash, s1, hupdate, h1⟩
      cases h1
      rcases exec_updateLocalPassword_eq_ok hfound hupdate with
        ⟨hhash, _, hs'⟩
      rw [hs']
      exact ⟨h.editIdentity _ _, Or.inr ⟨found.ui, hfound.identity,
        Or.inl ⟨hreset, hash, hhash, rfl⟩⟩⟩
    · rename_i hreset
      split at hexec
      · cases hexec
      · rcases exec_bind_eq_ok hexec with ⟨verified, s1, hverify, h1⟩
        cases hverify
        cases h1
        exact ⟨h.within _, Or.inr ⟨found.ui, hfound.identity,
          Or.inr ⟨Bool.eq_false_iff.mpr hreset, rfl⟩⟩⟩

theorem Accounts.Sound.validates (h : s.Sound) {email : Text}
    {claims : MailClaims} (hsub : claims.sub = some email) {pwd : Value}
    {user : JwtPayload}
    (hexec : exec (validateClaims deployment claims pwd) s =
      (.ok user, s')) :
    Validates deployment email claims.resetPwd pwd s s' := by
  unfold validateClaims at hexec
  rcases exec_bind_eq_ok hexec with ⟨found, s0, hfound, h1⟩
  rcases exec_identityOf_eq_ok hfound with ⟨hs0, hcases⟩
  rw [hs0] at h1
  rcases exec_bind_eq_ok h1 with ⟨ui, s1, hui, h2⟩
  rcases exec_bind_eq_ok h2 with ⟨mailed, s2, hmailed, h3⟩
  cases hmailed
  suffices hs1 : Validates deployment email claims.resetPwd pwd s s1 by
    unfold autoLogin at h3
    rcases exec_bind_eq_ok h3 with ⟨entered, s3, hentered, h4⟩
    cases hentered
    cases h4
    unfold Accounts.enter
    split
    · exact ⟨hs1.sound.updateUserEmail _ _, hs1.effect⟩
    · exact ⟨(hs1.sound.updateUserEmail _ _).within _, hs1.effect⟩
  rw [hsub] at hcases
  rcases hcases with ⟨hnone, hmissing⟩ | ⟨f, hsome, hmem, hmatch, hrelations⟩
  · rw [hnone] at hui
    have hbefore := localIdentity_of_missing hmissing
    unfold validateOr validateNew at hui
    simp only at hui
    split at hui
    · cases hui
    · split at hui
      · cases hui
      · rw [hsub] at hui
        have hregisters := h.registers hui
        refine ⟨hregisters.sound, Or.inl ?_⟩
        rcases hregisters.effect with
          ⟨_, hthere⟩ | ⟨uid, credentials, huid, hnew⟩
        · exact absurd hbefore (hthere rfl email rfl)
        · cases huid
          exact ⟨credentials, hbefore, hnew⟩
  · rw [hsome] at hui
    exact h.validateFound (active_of_found hmem hmatch hrelations) hui

/-! ## What a request leaves of what is remembered -/

theorem localIdentity_of_adds {provider uid credentials : Text}
    (h : Adds s s' provider uid credentials) (email : Text) :
    if provider = "local".toList ∧ email = uid then
      s.localIdentity email = none ∧ exists row,
        s'.localIdentity email = some row ∧ row.value.credentials = credentials
    else s'.localIdentity email = s.localIdentity email := by
  rcases h with ⟨row, hnew, hcredentials, hidentities⟩
  unfold Accounts.localIdentity
  rw [hidentities]
  split
  · rename_i hsame
    rcases hsame with ⟨hprovider, hemail⟩
    subst hprovider hemail
    exact ⟨hnew, _, Table.findUnique_insert_self row hnew, hcredentials⟩
  · rename_i hother
    apply Table.findUnique_insert_of_ne
    intro hkey
    cases hkey
    exact hother ⟨rfl, rfl⟩

variable {compare same : Text -> Text -> Bool}

theorem getD_hash_eq {pwd : Value} {hash : Option Text}
    (h : hashPassword deployment pwd = .ok hash) (stored : Text) :
    hash.getD stored =
      ((passwordOf pwd).map deployment.hashSalted).getD stored := by
  rw [hashPassword_eq_ok h]
  unfold passwordOf
  cases pwd.filter Json.truthy with
  | none => rfl
  | some value =>
      cases value with
      | str text => rfl
      | null => rfl
      | bool b => rfl
      | num n => rfl
      | arr items => rfl
      | obj fields => rfl

theorem Deployment.Hashes.stores_hash
    (hashes : deployment.Hashes compare same) {pwd : Value}
    {hash : Option Text} (h : hashPassword deployment pwd = .ok hash)
    {stored : Text} {old : Option Text}
    (hold : Stores compare same stored old) :
    Stores compare same (hash.getD stored) ((passwordOf pwd).or old) := by
  rw [getD_hash_eq h]
  cases passwordOf pwd with
  | none => exact hold
  | some text =>
      exact ⟨hashes.ne_nil text, fun guess => hashes.salted guess text⟩

theorem Deployment.Hashes.stores_new
    (hashes : deployment.Hashes compare same) {ui : CreateUserIdentityDto}
    (hlocal : ui.provider = "local".toList) {credentials : Text}
    (h : newCredentials deployment ui = .ok credentials) :
    Stores compare same credentials (passwordOf ui.credentials) := by
  unfold newCredentials at h
  split at h
  · cases hhash : hashPassword deployment ui.credentials with
    | error e =>
        rw [hhash] at h
        cases h
    | ok hash =>
        rw [hhash] at h
        cases h
        have hnone : Stores compare same [] none := rfl
        have hstores := hashes.stores_hash hhash hnone
        rwa [Option.or_none] at hstores
  · rename_i hgiven
    split at h
    · rename_i htext
      cases h
      have hfalsy : Json.truthy (.str credentials) = false := by
        by_contra htrue
        apply hgiven
        rw [htext]
        simpa [hlocal] using htrue
      have hempty : credentials = [] := by simpa [Json.truthy] using hfalsy
      rw [htext, hempty]
      rfl
    · cases h

def AllAgree (compare same : Text -> Text -> Bool) (s : Accounts)
    (known : Remembered) : Prop :=
  forall email, Agrees compare same (s.localIdentity email) (known email)

theorem AllAgree.known_eq_none {known : Remembered}
    (h : AllAgree compare same s known) (email : Text) :
    known email = none <-> s.localIdentity email = none := by
  have hemail := h email
  unfold Agrees at hemail
  split at hemail
  · rename_i hrow hknown
    simp [hrow, hknown]
  · rename_i hrow hknown
    simp [hrow, hknown]
  · cases hemail

theorem AllAgree.update {known : Remembered}
    (h : AllAgree compare same s known) {email : Text}
    {password : Option Text} {row : IdentityRow}
    (hrow : s'.localIdentity email = some row)
    (hstores : Stores compare same row.value.credentials password)
    (hothers : forall other, other ≠ email ->
      s'.localIdentity other = s.localIdentity other) :
    AllAgree compare same s' (Function.update known email (some password)) := by
  intro other
  by_cases hother : other = email
  · rw [hother, hrow, Function.update_self]
    exact hstores
  · rw [hothers other hother, Function.update_of_ne hother]
    exact h other

theorem AllAgree.of_eq {known : Remembered}
    (h : AllAgree compare same s known)
    (hsame : forall email, s'.localIdentity email = s.localIdentity email) :
    AllAgree compare same s' known := by
  intro email
  rw [hsame email]
  exact h email

theorem AllAgree.adds {known : Remembered}
    (h : AllAgree compare same s known) {provider uid credentials : Text}
    (hadds : Adds s s' provider uid credentials)
    {password : Option Text}
    (hstores : provider = "local".toList ->
      Stores compare same credentials password) :
    AllAgree compare same s'
      (if provider = "local".toList ∧ known uid = none then
        Function.update known uid (some password) else known) := by
  have hafter := localIdentity_of_adds hadds
  by_cases hlocal : provider = "local".toList
  · have hself := hafter uid
    rw [if_pos ⟨hlocal, rfl⟩] at hself
    rcases hself with ⟨hnone, row, hrow, hcredentials⟩
    rw [if_pos ⟨hlocal, (h.known_eq_none uid).mpr hnone⟩]
    apply h.update hrow (hcredentials ▸ hstores hlocal)
    intro other hother
    have hkept := hafter other
    rwa [if_neg (fun hboth => hother hboth.right)] at hkept
  · rw [if_neg (fun hboth => hlocal hboth.left)]
    apply h.of_eq
    intro email
    have hkept := hafter email
    rwa [if_neg (fun hboth => hlocal hboth.left)] at hkept

theorem AllAgree.registers {ui : CreateUserIdentityDto}
    (hashes : deployment.Hashes compare same) {known : Remembered}
    (h : AllAgree compare same s known)
    (hregisters : Registers deployment ui s s') :
    AllAgree compare same s' (remember known (.register ui)) := by
  dsimp only [remember]
  rcases hregisters.effect with
    ⟨hsame, hthere⟩ | ⟨uid, credentials, huid, hnew, hadds⟩
  · have hkept : AllAgree compare same s' known := by
      apply h.of_eq
      intro email
      unfold Accounts.localIdentity
      rw [hsame]
    cases huid : ui.uid with
    | none => exact hkept
    | some email =>
        dsimp only
        rw [if_neg]
        · exact hkept
        · intro hboth
          exact hthere hboth.left email huid
            ((h.known_eq_none email).mp hboth.right)
  · rw [huid]
    exact h.adds hadds fun hlocal => hashes.stores_new hlocal hnew

theorem AllAgree.validates {email : Text} {claims : MailClaims}
    {pwd : Value} (hashes : deployment.Hashes compare same)
    {known : Remembered} (h : AllAgree compare same s known)
    (hvalidates : Validates deployment email claims.resetPwd pwd s s') :
    AllAgree compare same s' (remember known (.validate email claims pwd)) := by
  rcases hvalidates.effect with
    ⟨credentials, hnone, hnew, hadds⟩ | ⟨row, hrow, hreset | hplain⟩
  · have hknown := (h.known_eq_none email).mpr hnone
    have hadded := h.adds hadds fun hlocal => hashes.stores_new hlocal hnew
    rw [if_pos ⟨rfl, hknown⟩] at hadded
    dsimp only [remember]
    rw [hknown]
    exact hadded
  · rcases hreset with ⟨hreset, hash, hhash, hidentities⟩
    have hafter : s'.localIdentity email = some { row with
        value := IdentityData.over ⟨hash, none⟩ row.value } := by
      unfold Accounts.localIdentity
      rw [hidentities]
      exact localIdentity_editIdentity hrow _
    have hothers : forall other, other ≠ email ->
        s'.localIdentity other = s.localIdentity other := by
      intro other hother
      unfold Accounts.localIdentity
      rw [hidentities]
      apply Table.findUnique_edit_of_ne hrow
      intro hkey
      cases hkey
      exact hother rfl
    cases hknown : known email with
    | none =>
        rw [(h.known_eq_none email).mp hknown] at hrow
        cases hrow
    | some old =>
        have hold : Stores compare same row.value.credentials old := by
          have hemail := h email
          rwa [hrow, hknown] at hemail
        have hstores := hashes.stores_hash hhash hold
        have hupdated := h.update hafter hstores hothers
        dsimp only [remember]
        rw [hknown]
        cases hpwd : passwordOf pwd with
        | some text =>
            rw [hpwd] at hupdated
            simpa [hreset] using hupdated
        | none =>
            rw [hpwd, Option.none_or, ← hknown,
              Function.update_eq_self] at hupdated
            exact hupdated
  · have hkept : AllAgree compare same s' known := by
      apply h.of_eq
      intro other
      unfold Accounts.localIdentity
      rw [hplain.right]
    dsimp only [remember]
    split
    · rename_i hknown
      rw [(h.known_eq_none email).mp hknown] at hrow
      cases hrow
    · rw [if_neg (by simp [hplain.left])]
      exact hkept
    · exact hkept

/-! ## Logins -/

theorem exec_identityOf_local (h : s.Sound) {email : Text}
    {row : IdentityRow} (hrow : s.localIdentity email = some row) :
    exists found, found.ui = row ∧
      exec (identityOf deployment (some email) "local".toList true false) s =
        (.ok (some found), s) := by
  rcases matches_of_localIdentity hrow with ⟨hmem, _⟩
  rcases exists_withRelations h hmem with
    ⟨found, hrelations, hui, _, hstatus, _⟩
  have hmatch : matchesIdentity s (some email) "local".toList true false row =
      true := by
    unfold matchesIdentity
    rw [Table.key_of_findUnique hrow, hrelations]
    simp [hstatus]
  have hne : s.identities.rows.filter (matchesIdentity s (some email)
      "local".toList true false) ≠ [] :=
    List.ne_nil_of_mem (List.mem_filter.mpr ⟨hmem, hmatch⟩)
  rcases Option.isSome_iff_exists.mp (deployment.identity.isSome hne) with
    ⟨picked, hpick⟩
  rcases List.mem_filter.mp (deployment.identity.mem hpick) with
    ⟨hpickedMem, hpickedMatch⟩
  have hpicked := localIdentity_of_matches h hpickedMem hpickedMatch
  rw [hrow] at hpicked
  cases hpicked
  refine ⟨found, hui, ?_⟩
  unfold identityOf
  rw [exec_bind_of_ok (exec_get s)]
  simp only [hpick]
  rw [exec_ofResult_bind_ok hrelations]
  rfl

theorem login_returns_iff (h : s.Sound) (email password : Text) :
    (exists user s', exec (login deployment (some email)
        (some (.str password))) s = (.ok user, s')) <->
      exists row, s.localIdentity email = some row ∧
        row.value.credentials ≠ [] ∧
        deployment.hashCompare password row.value.credentials = true := by
  constructor
  · intro hlogin
    rcases hlogin with ⟨user, s', hexec⟩
    unfold login at hexec
    rcases exec_bind_eq_ok hexec with ⟨found, s1, hfound, h1⟩
    rcases exec_identityOf_eq_ok hfound with ⟨_, hnone | hsome⟩
    · rw [hnone.left] at h1
      cases h1
    · rcases hsome with ⟨f, hf, hmem, hmatch, _⟩
      rw [hf] at h1
      rcases exec_bind_eq_ok h1 with ⟨valid, s2, hvalid, h2⟩
      have hcompared := (exec_ofResult_eq_ok hvalid).left
      split at h2
      · rename_i htrue
        rw [htrue] at hcompared
        refine ⟨f.ui, localIdentity_of_matches h hmem hmatch, ?_⟩
        unfold comparePassword at hcompared
        split at hcompared
        · cases hcompared
        · rename_i hstored
          exact ⟨by simpa using hstored, Except.ok.inj hcompared⟩
      · cases h2
  · intro hrow
    rcases hrow with ⟨row, hrow, hstored, hcompare⟩
    rcases exec_identityOf_local h hrow with ⟨found, hui, hfound⟩
    have hvalid : comparePassword deployment (some (.str password))
        found.ui.value.credentials = .ok true := by
      unfold comparePassword
      rw [hui, if_neg (by simpa using hstored)]
      exact congrArg Except.ok hcompare
    refine ⟨found.user, s, ?_⟩
    unfold login
    rw [exec_bind_of_ok hfound]
    dsimp only
    rw [exec_ofResult_bind_ok hvalid]
    rfl

theorem login_returns_iff_of_agree (h : s.Sound)
    (hashes : deployment.Hashes compare same) {known : Remembered}
    (hagree : AllAgree compare same s known) (email password : Text) :
    (exists user s', exec (login deployment (some email)
        (some (.str password))) s = (.ok user, s')) <->
      exists pwd, known email = some (some pwd) ∧
        same password pwd = true := by
  rw [login_returns_iff h, hashes.compares]
  have hemail := hagree email
  unfold Agrees at hemail
  split at hemail
  · rename_i hrow hknown
    simp [hrow, hknown]
  · rename_i row pwd hrow hknown
    rw [hrow, hknown]
    cases pwd with
    | none =>
        have hempty : row.value.credentials = [] := hemail
        simp [hempty]
    | some pwd =>
        rcases hemail with ⟨hne, hsame⟩
        simp [hne, hsame]
  · cases hemail

/-! ## Runs -/

structure Kept (compare same : Text -> Text -> Bool) (s : Served) : Prop where
  sound : s.accounts.Sound
  agrees : AllAgree compare same s.accounts (remembered s.answered)

theorem remembered_append (answered : List UserRequest)
    (request : UserRequest) :
    remembered (answered ++ [request]) =
      remember (remembered answered) request := by
  unfold remembered
  rw [List.foldl_append]
  rfl

theorem kept_start : Kept compare same .start :=
  ⟨sound_empty, fun _ => True.intro⟩

theorem kept_serve {served served' : Served} {arrival : Arrival}
    (h : Kept compare same served)
    (hashes : arrival.deployment.Hashes compare same)
    (hstep : serve served arrival = some served') :
    Kept compare same served' := by
  have hsound := h.sound.within arrival.tenantPk
  have hagree : AllAgree compare same
      (served.accounts.within arrival.tenantPk)
      (remembered served.answered) := h.agrees
  unfold serve at hstep
  split at hstep
  · rename_i done next hexec
    cases hstep
    show Kept compare same ⟨next, _⟩
    suffices hnext : next.Sound ∧ AllAgree compare same next
        (remember (remembered served.answered) arrival.request) from
      ⟨hnext.left, remembered_append served.answered _ ▸ hnext.right⟩
    cases hrequest : arrival.request with
    | register ui =>
        rw [hrequest] at hexec
        rcases exec_bind_eq_ok hexec with ⟨found, s1, hregister, h1⟩
        cases h1
        have hregisters := hsound.registers hregister
        exact ⟨hregisters.sound, hagree.registers hashes hregisters⟩
    | login email password =>
        rw [hrequest] at hexec
        rcases exec_bind_eq_ok hexec with ⟨user, s1, hlogin, h1⟩
        cases h1
        rw [(keeps_login email password).of_ok hlogin]
        exact ⟨hsound, hagree⟩
    | validate email claims pwd =>
        rw [hrequest] at hexec
        rcases exec_bind_eq_ok hexec with ⟨user, s1, hclaims, h1⟩
        cases h1
        have hvalidates := hsound.validates rfl hclaims
        exact ⟨hvalidates.sound, hagree.validates hashes hvalidates⟩
  · cases hstep
    exact h

/-- However registrations, logins and validations follow each other, a login
by an email succeeds exactly with the password that was set last for it. -/
theorem login_iff_remembered {arrivals : List Arrival} {served : Served}
    (hashes : forall arrival, arrival ∈ arrivals ->
      arrival.deployment.Hashes compare same)
    (hrun : Transition.run serve .start arrivals = some served)
    (hlogin : deployment.Hashes compare same) (tenantPk : Option Nat)
    (email password : Text) :
    (exists user s', exec (login deployment (some email)
        (some (.str password))) (served.accounts.within tenantPk) =
          (.ok user, s')) <->
      exists pwd, remembered served.answered email = some (some pwd) ∧
        same password pwd = true := by
  have hkept : Kept compare same served :=
    Transition.run_invariant_of_meets
      (fun _ _ _ h hok hstep => kept_serve h hok hstep) kept_start
      (Transition.stepsMeet_of_forall (fun _ arrival hmem =>
        hashes arrival hmem) _) hrun
  exact login_returns_iff_of_agree (hkept.sound.within tenantPk) hlogin
    hkept.agrees email password

end Passwords

/-! ## A buyer who has forgotten -/

theorem hashes_marked :
    markedHashes.Hashes (fun text hash => '#' :: text == hash)
      (fun guess pwd => guess == pwd) where
  compares := rfl
  ne_nil := fun pwd => List.cons_ne_nil '#' pwd
  salted := by
    intro guess pwd
    show ('#' :: guess == '#' :: pwd) = (guess == pwd)
    simp

def registersBuyer : Arrival where
  deployment := markedHashes
  tenantPk := none
  request := .register
    { uid := some buyer
      provider := "local".toList
      email := some buyer
      credentials := some (.str "old secret".toList)
      name := none
      avatar := none
      emailVerified := false }

def resetsBuyer : Arrival where
  deployment := markedHashes
  tenantPk := some 1
  request := .validate buyer ⟨none, true, false, none⟩
    (some (.str "new secret".toList))

/-- After the reset only the new password logs in. -/
theorem login_resetsBuyer :
    exists served,
      Transition.run serve .start [registersBuyer, resetsBuyer] =
        some served ∧
      (exists user s', exec (login markedHashes (some buyer)
        (some (.str "new secret".toList))) (served.accounts.within none) =
          (.ok user, s')) ∧
      ¬ exists user s', exec (login markedHashes (some buyer)
        (some (.str "old secret".toList))) (served.accounts.within none) =
          (.ok user, s') := by
  have hashes : forall arrival, arrival ∈ [registersBuyer, resetsBuyer] ->
      arrival.deployment.Hashes (fun text hash => '#' :: text == hash)
        (fun guess pwd => guess == pwd) := by
    intro arrival harrival
    have hdeployment : arrival.deployment = markedHashes := by
      rcases List.mem_pair.mp harrival with hfirst | hsecond
      · rw [hfirst]
        rfl
      · rw [hsecond]
        rfl
    rw [hdeployment]
    exact hashes_marked
  have hknown : remembered [registersBuyer.request, resetsBuyer.request] buyer =
      some (some "new secret".toList) := by
    decide
  refine ⟨_, rfl, ?_, ?_⟩
  · apply (login_iff_remembered hashes rfl hashes_marked none buyer _).mpr
    exact ⟨_, hknown, by decide⟩
  · intro hlogin
    rcases (login_iff_remembered hashes rfl hashes_marked none buyer _).mp
      hlogin with ⟨pwd, hpwd, hsame⟩
    rw [← Option.some.inj (Option.some.inj (hknown.symm.trans hpwd))] at hsame
    exact absurd hsame (by decide)

end Users
end CallgentApi
