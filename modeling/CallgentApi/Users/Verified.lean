import CallgentApi.Users.ValidateEmail

/-!
# What a validated email leaves

A validation that logs a user in should leave a verified identity, an email of
the user, and the password where it was asked for one.
-/

namespace CallgentApi
namespace Users

open Js Event Effect Cached

namespace Accounts

/-- The identity of an email that is not deleted. -/
def localIdentity (s : Accounts) (email : Text) : Option IdentityRow :=
  s.identities.findUnique ("local".toList, email, 0)

def primaryEmail (s : Accounts) (userPk : Nat) : Option Text :=
  (s.users.findPk userPk).bind fun user => user.value.email

end Accounts

/-- The credentials of an identity that a token is for: those of a password
that is given, if the identity is new or the token asks for a reset. -/
def credentialsAfter (deployment : Deployment) (before : Option IdentityRow)
    (resetPwd : Bool) (pwd : Value) : Text :=
  let stored := (before.map fun row => row.value.credentials).getD []
  match pwd.filter Json.truthy with
  | some (.str text) =>
      if before = none ∨ resetPwd = true then deployment.hashSalted text
      else stored
  | _ => stored

/-- The identity is there and verified, its user has an email, which is this
one if it had none, and the credentials have changed when they should. -/
def Completed (deployment : Deployment) (before after : Accounts)
    (email : Text) (resetPwd : Bool) (pwd : Value) : Prop :=
  exists row, after.localIdentity email = some row ∧
    row.value.emailVerified = true ∧
    ((before.primaryEmail row.value.userPk).getD [] = [] ->
      after.primaryEmail row.value.userPk = some email) ∧
    row.value.credentials =
      credentialsAfter deployment (before.localIdentity email) resetPwd pwd

/-! ## What the methods find -/

section Methods

variable {deployment : Deployment} {s s' : Accounts}

theorem exec_identityOf_eq_ok {uid : Option Text} {provider : Text}
    {noTenant evenInvalid : Bool} {found : Option FoundIdentity}
    (h : exec (identityOf deployment uid provider noTenant evenInvalid) s =
      (.ok found, s')) :
    s' = s ∧
      ((found = none ∧ forall row, row ∈ s.identities.rows ->
        matchesIdentity s uid provider noTenant evenInvalid row = false) ∨
      exists f, found = some f ∧ f.ui ∈ s.identities.rows ∧
        matchesIdentity s uid provider noTenant evenInvalid f.ui = true ∧
        withRelations s f.ui = .ok f) := by
  unfold identityOf at h
  rcases exec_bind_eq_ok h with ⟨first, next, hget, h1⟩
  cases hget
  cases hpick : deployment.identity.pick (s.identities.rows.filter
      (matchesIdentity s uid provider noTenant evenInvalid)) with
  | none =>
      simp only [hpick] at h1
      cases h1
      refine ⟨rfl, Or.inl ⟨rfl, ?_⟩⟩
      intro row hrow
      by_contra hmatch
      have hne : s.identities.rows.filter
          (matchesIdentity s uid provider noTenant evenInvalid) ≠ [] :=
        List.ne_nil_of_mem
          (List.mem_filter.mpr ⟨hrow, by simpa using hmatch⟩)
      have hsome := deployment.identity.isSome hne
      rw [hpick] at hsome
      cases hsome
  | some row =>
      simp only [hpick] at h1
      rcases exec_bind_eq_ok h1 with ⟨f, next, hrelations, h2⟩
      cases h2
      rw [exec_ofResult] at hrelations
      rcases Prod.mk.inj hrelations with ⟨hf, hs⟩
      have hrow : f.ui = row := by
        unfold withRelations at hf
        split at hf
        · cases hf
        · split at hf
          · cases hf
          · cases hf
            rfl
      rcases List.mem_filter.mp (deployment.identity.mem hpick) with
        ⟨hmem, hmatch⟩
      rw [← hrow] at hmem hmatch hf
      exact ⟨hs.symm, Or.inr ⟨f, rfl, hmem, hmatch, hf⟩⟩

structure Active (s : Accounts) (email : Text) (found : FoundIdentity) :
    Prop where
  identity : s.localIdentity email = some found.ui
  user : found.user ∈ s.users.rows
  userPk : found.user.pk = found.ui.value.userPk
  userId : found.user.key = found.ui.value.userId
  tenantPk : found.user.value.tenantPk = found.ui.value.tenantPk
  kept : found.user.value.deletedAt = 0
  pk : found.ui.pk ≠ 0

theorem active_of_found {email : Text} {found : FoundIdentity}
    (hmem : found.ui ∈ s.identities.rows)
    (hmatch : matchesIdentity s (some email) "local".toList true true
      found.ui = true)
    (hrelations : withRelations s found.ui = .ok found)
    (hactive : accountDeactivated found = false) : Active s email found := by
  have hparts : (found.ui.key.2.2 = 0 ∧ found.user.value.deletedAt = 0) ∧
      found.tenant.value.deletedAt = 0 ∧ found.tenant.value.statusCode = 1 := by
    unfold accountDeactivated at hactive
    simpa [and_assoc] using hactive
  have hkeys : found.ui.key.1 = "local".toList ∧ found.ui.key.2.1 = email := by
    unfold matchesIdentity at hmatch
    simpa using hmatch
  have huser : s.users.findPk found.ui.value.userPk = some found.user := by
    unfold withRelations at hrelations
    split at hrelations
    · cases hrelations
    · rename_i user huser
      split at hrelations
      · cases hrelations
      · rw [huser, ← Except.ok.inj hrelations]
  rcases s.linked.user found.ui hmem with ⟨user, hrow, hpk, hid, htenant⟩
  have hsame : user = found.user := by
    have hfound := Table.findPk_of_mem hrow
    rw [hpk, huser] at hfound
    exact (Option.some.inj hfound).symm
  rw [hsame] at hrow hpk hid htenant
  refine ⟨?_, hrow, hpk, hid, htenant, hparts.left.right,
    s.linked.pk found.ui hmem⟩
  have hkey : found.ui.key = ("local".toList, email, 0) :=
    Prod.ext hkeys.left (Prod.ext hkeys.right hparts.left.left)
  unfold Accounts.localIdentity
  rw [← hkey]
  exact Table.findUnique_of_mem hmem

/-! ## The email of a user -/

theorem primaryEmail_of_mem {user : UserRecord} (h : user ∈ s.users.rows) :
    s.primaryEmail user.pk = user.value.email := by
  unfold Accounts.primaryEmail
  rw [Table.findPk_of_mem h]
  rfl

theorem primaryEmail_updateUserEmail {user : UserRecord}
    (h : user ∈ s.users.rows) (userId : Text) (email : Option Text) :
    (s.updateUserEmail userId email).primaryEmail user.pk =
      if s.mailed user.key userId user.value then email.or user.value.email
      else user.value.email := by
  have hmem : (⟨user.pk, user.key,
      if s.mailed user.key userId user.value then
        { user.value with email := email.or user.value.email }
      else user.value⟩ : UserRecord) ∈
        (s.updateUserEmail userId email).users.rows :=
    Table.mem_mapValues.mpr ⟨user, h, rfl⟩
  rw [primaryEmail_of_mem hmem]
  split
  · rfl
  · rfl

def Accounts.Unmailed (s : Accounts) (pk : Nat) : Prop :=
  exists user, user ∈ s.users.rows ∧ user.pk = pk ∧ user.value.email = none

theorem Accounts.Unmailed.updateUserEmail {pk : Nat} (h : s.Unmailed pk)
    (userId : Text) (email : Option Text) :
    (s.updateUserEmail userId email).Unmailed pk := by
  rcases h with ⟨user, hmem, hpk, hnone⟩
  have hmailed : s.mailed user.key userId user.value = false := by
    unfold Accounts.mailed
    simp [hnone]
  have hrow : (user : UserRecord) ∈
      (s.updateUserEmail userId email).users.rows := by
    apply Table.mem_mapValues.mpr
    refine ⟨user, hmem, ?_⟩
    rw [hmailed]
    rfl
  exact ⟨user, hrow, hpk, hnone⟩

theorem Accounts.Unmailed.primaryEmail {pk : Nat} (h : s.Unmailed pk) :
    s.primaryEmail pk = none := by
  rcases h with ⟨user, hmem, hpk, hnone⟩
  rw [← hpk, primaryEmail_of_mem hmem, hnone]

/-! ## A token for an identity that is there -/

theorem exec_updateIdentity_eq_ok {pk : Nat} {data : IdentityData} {u : Unit}
    (h : exec (updateIdentity pk data) s = (.ok u, s')) :
    exists row, s.identities.findPk pk = some row ∧
      s.sees row.value.tenantPk = true ∧ s' = s.editIdentity row.pk data := by
  unfold updateIdentity at h
  rcases exec_bind_eq_ok h with ⟨first, next, hget, h1⟩
  cases hget
  cases hrow : (s.identities.findPk pk).filter
      (fun row => s.sees row.value.tenantPk) with
  | none =>
      simp only [hrow] at h1
      cases h1
  | some row =>
      simp only [hrow] at h1
      cases h1
      rcases Option.filter_eq_some_iff.mp hrow with ⟨hfound, hsees⟩
      exact ⟨row, hfound, hsees, rfl⟩

theorem hashPassword_eq_ok {pwd : Value} {hash : Option Text}
    (h : hashPassword deployment pwd = .ok hash) (stored : Text) :
    hash.getD stored =
      match pwd.filter Json.truthy with
      | some (.str text) => deployment.hashSalted text
      | _ => stored := by
  unfold hashPassword at h
  split at h
  · rename_i hnone
    cases h
    rw [hnone]
    rfl
  · rename_i text htext
    split at h
    · cases h
    · cases h
      rw [htext]
      rfl
  · cases h

theorem exec_updateLocalPassword_eq_ok {email : Text} {found : FoundIdentity}
    (hactive : Active s email found) {pwd : Value} {hash : Option Text}
    (h : exec (updateLocalPassword deployment pwd (some found.ui.pk)) s =
      (.ok hash, s')) :
    hashPassword deployment pwd = .ok hash ∧
      s.sees found.ui.value.tenantPk = true ∧
      s' = s.editIdentity found.ui.pk ⟨hash, none⟩ := by
  unfold updateLocalPassword at h
  rcases exec_bind_eq_ok h with ⟨credentials, next, hhash, h1⟩
  rcases Prod.mk.inj hhash with ⟨hcredentials, hs⟩
  have hpk : (some found.ui.pk).filter (fun pk => pk != 0) =
      some found.ui.pk := by
    apply Option.filter_some_pos
    rw [bne_iff_ne]
    exact hactive.pk
  rw [hpk] at h1
  rcases exec_bind_eq_ok h1 with ⟨done, last, hupdate, h2⟩
  cases h2
  rw [← hs] at hupdate
  rcases exec_updateIdentity_eq_ok hupdate with ⟨row, hrow, hsees, hedit⟩
  rw [Table.findPk_of_findUnique hactive.identity] at hrow
  rw [← Option.some.inj hrow] at hsees hedit
  exact ⟨hcredentials, hsees, hedit⟩

theorem localIdentity_editIdentity {email : Text} {row : IdentityRow}
    (h : s.localIdentity email = some row) (data : IdentityData) :
    (s.editIdentity row.pk data).localIdentity email =
      some { row with value := data.over row.value } :=
  Table.findUnique_edit_self h data.over

theorem completed_of_reset_iff {email : Text} {found : FoundIdentity}
    (hactive : Active s email found) {pwd : Value} {hash : Option Text}
    (hhash : hashPassword deployment pwd = .ok hash)
    (hsees : s.sees found.ui.value.tenantPk = true) {after : Accounts}
    (hidentities : after.identities =
      (s.editIdentity found.ui.pk ⟨hash, none⟩).identities)
    (husers : after.users =
      (s.updateUserEmail found.ui.value.userId (some email)).users) :
    Completed deployment s after email true pwd <->
      found.ui.value.emailVerified = true ∧ found.user.value.email ≠ none := by
  have hrow : after.localIdentity email = some { found.ui with
      value := IdentityData.over ⟨hash, none⟩ found.ui.value } := by
    unfold Accounts.localIdentity
    rw [hidentities]
    exact localIdentity_editIdentity hactive.identity _
  have hbefore : s.primaryEmail found.ui.value.userPk =
      found.user.value.email := by
    rw [← hactive.userPk]
    exact primaryEmail_of_mem hactive.user
  have hmailed : s.mailed found.user.key found.ui.value.userId
      found.user.value = found.user.value.email.isSome := by
    unfold Accounts.mailed
    rw [hactive.userId, hactive.tenantPk, hsees, hactive.kept]
    simp
  have hafter : after.primaryEmail found.ui.value.userPk =
      if found.user.value.email.isSome then some email else none := by
    unfold Accounts.primaryEmail
    rw [husers]
    show (s.updateUserEmail _ _).primaryEmail _ = _
    rw [← hactive.userPk, primaryEmail_updateUserEmail hactive.user, hmailed]
    cases hold : found.user.value.email with
    | none => rfl
    | some old => rfl
  have hcredentials :
      (IdentityData.over ⟨hash, none⟩ found.ui.value).credentials =
        credentialsAfter deployment (s.localIdentity email) true pwd := by
    unfold credentialsAfter
    rw [hactive.identity]
    show hash.getD found.ui.value.credentials = _
    rw [hashPassword_eq_ok hhash]
    simp
  unfold Completed
  rw [hrow]
  constructor
  · intro h
    rcases h with ⟨row, heq, hverified, hemail, _⟩
    cases heq
    refine ⟨hverified, ?_⟩
    intro hnone
    have hset := hemail (by
      show (s.primaryEmail found.ui.value.userPk).getD [] = []
      rw [hbefore, hnone]
      rfl)
    change after.primaryEmail found.ui.value.userPk = some email at hset
    rw [hafter, hnone] at hset
    cases hset
  · intro h
    rcases h with ⟨hverified, hsome⟩
    refine ⟨_, rfl, hverified, ?_, hcredentials⟩
    intro _
    show after.primaryEmail found.ui.value.userPk = some email
    rw [hafter, if_pos (Option.isSome_iff_ne_none.mpr hsome)]

/-! ## A token for an identity that is not there -/

def Accounts.people (s : Accounts) :
    Table Text User × Table (Text × Text × Nat) UserIdentity :=
  (s.users, s.identities)

theorem keeps_registerTenant (emailHost : Option Text) :
    Keeps Accounts.people (registerTenant deployment emailHost) := by
  have hcreate : forall host,
      Keeps Accounts.people (createTenant deployment host) := by
    intro host
    apply Keeps.bind Keeps.get
    intro s
    split
    · exact Keeps.throw _
    · split
      · exact Keeps.throw _
      · exact Keeps.bind (Keeps.modify fun _ => rfl) fun _ => Keeps.pure _
  apply Keeps.bind
  · apply Keeps.bind Keeps.get
    intro s
    split
    · exact Keeps.pure _
    · exact hcreate _
  · exact fun _ => Keeps.bind (Keeps.modify fun _ => rfl) fun _ => Keeps.pure _

/-- A user without an email, and its identity, are new. -/
structure Registered (s s' : Accounts) (found : FoundIdentity) : Prop where
  users : s'.users.rows = s.users.rows ++ [found.user]
  identities : s'.identities.rows = s.identities.rows ++ [found.ui]
  userPk : found.user.pk = s.users.nextPk
  linked : found.ui.value.userPk = s.users.nextPk
  email : found.user.value.email = none

theorem exec_createIdentity_eq_ok {ui : CreateUserIdentityDto}
    {uid credentials : Text} {tenant : TenantRow} {found : FoundIdentity}
    (h : exec (createIdentity deployment ui uid credentials tenant) s =
      (.ok found, s')) : Registered s s' found := by
  unfold createIdentity at h
  rcases exec_bind_eq_ok h with ⟨first, next, hget, h1⟩
  cases hget
  simp only at h1
  split at h1
  · cases h1
  · split at h1
    · cases h1
      exact ⟨rfl, rfl, rfl, rfl, rfl⟩
    · cases h1

theorem exec_registerNew_eq_ok {ui : CreateUserIdentityDto}
    {found : FoundIdentity}
    (h : exec (registerNew deployment ui) s = (.ok found, s')) :
    Registered s s' found := by
  unfold registerNew at h
  rcases exec_bind_eq_ok h with ⟨tenant, s1, htenant, h1⟩
  rcases exec_bind_eq_ok h1 with ⟨checked, s2, hchecked, h2⟩
  rcases exec_bind_eq_ok h2 with ⟨modified, s3, hmodified, h3⟩
  rcases exec_bind_eq_ok h3 with ⟨credentials, s4, hcredentials, h4⟩
  have hpeople : s4.people = s.people := by
    have hs1 := (keeps_registerTenant (mailHost ui.email)).of_ok htenant
    have hs2 : s1 = s2 := congrArg Prod.snd hchecked
    have hs4 : s3 = s4 := congrArg Prod.snd hcredentials
    cases hmodified
    rw [← hs4, ← hs1, hs2]
    rfl
  have husers : s4.users = s.users := congrArg Prod.fst hpeople
  have hidentities : s4.identities = s.identities := congrArg Prod.snd hpeople
  split at h4
  · cases h4
  · have hregistered := exec_createIdentity_eq_ok h4
    exact ⟨husers ▸ hregistered.users, hidentities ▸ hregistered.identities,
      husers ▸ hregistered.userPk, husers ▸ hregistered.linked,
      hregistered.email⟩

theorem exec_registerUserFromIdentity_eq_ok {email : Text}
    {ui : CreateUserIdentityDto} (huid : ui.uid = some email)
    (hprovider : ui.provider = "local".toList)
    (hmissing : forall row, row ∈ s.identities.rows ->
      matchesIdentity s (some email) "local".toList true true row = false)
    {found : FoundIdentity}
    (h : exec (registerUserFromIdentity deployment ui) s = (.ok found, s')) :
    found.ui.value.userPk = s.users.nextPk ∧ s'.Unmailed s.users.nextPk ∧
      s'.identities.rows = s.identities.rows ++ [found.ui] := by
  unfold registerUserFromIdentity at h
  rcases exec_bind_eq_ok h with ⟨registered, s1, hregister, h1⟩
  unfold findOrRegister at hregister
  rcases exec_bind_eq_ok hregister with ⟨there, s2, hthere, h2⟩
  rw [huid, hprovider] at hthere
  rcases exec_identityOf_eq_ok hthere with ⟨hs, hnone | hsome⟩
  · rw [hnone.left, hs] at h2
    have hnew := exec_registerNew_eq_ok h2
    have hunmailed : s1.Unmailed s.users.nextPk := by
      refine ⟨registered.user, ?_, hnew.userPk, hnew.email⟩
      rw [hnew.users]
      exact List.mem_append_right _ List.mem_cons_self
    rcases exec_bind_eq_ok h1 with ⟨mailed, s3, hmailed, h3⟩
    cases hmailed
    cases h3
    refine ⟨hnew.linked, ?_, ?_⟩
    · show (mailUser found s1).Unmailed s.users.nextPk
      unfold mailUser
      split
      · exact hunmailed.updateUserEmail _ _
      · exact hunmailed
    · show (mailUser found s1).identities.rows = _
      unfold mailUser
      split
      · exact hnew.identities
      · exact hnew.identities
  · rcases hsome with ⟨f, _, hmem, hmatch, _⟩
    rw [hmissing f.ui hmem] at hmatch
    cases hmatch

theorem not_completed_of_new {email : Text} {resetPwd : Bool} {pwd : Value}
    {row : IdentityRow} (hbefore : s.localIdentity email = none)
    (huserPk : row.value.userPk = s.users.nextPk)
    (hidentities : s'.identities.rows = s.identities.rows ++ [row])
    (hunmailed : s'.Unmailed s.users.nextPk) :
    ¬ Completed deployment s s' email resetPwd pwd := by
  intro h
  rcases h with ⟨found, hfound, _, hemail, _⟩
  have hsame : found = row := by
    have hmem := Table.mem_of_findUnique hfound
    rw [hidentities] at hmem
    rcases List.mem_append.mp hmem with hold | hnew
    · have hthere := Table.findUnique_of_mem hold
      rw [Table.key_of_findUnique hfound] at hthere
      exact absurd (hthere.symm.trans hbefore) (Option.some_ne_none found)
    · exact List.mem_singleton.mp hnew
  rw [hsame, huserPk] at hemail
  have hfresh : s.primaryEmail s.users.nextPk = none := by
    unfold Accounts.primaryEmail
    cases huser : s.users.findPk s.users.nextPk with
    | none => rfl
    | some user =>
        have hmem := List.mem_of_find?_eq_some huser
        have hpk := List.find?_some huser
        have hlt := s.users.pk_lt user hmem
        rw [beq_iff_eq.mp hpk] at hlt
        exact absurd hlt (Nat.lt_irrefl _)
  rw [hfresh] at hemail
  have hset := hemail rfl
  rw [hunmailed.primaryEmail] at hset
  cases hset

/-! ## Every token -/

theorem exec_validateClaims_eq_ok {claims : MailClaims} {pwd : Value}
    {user : JwtPayload}
    (h : exec (validateClaims deployment claims pwd) s = (.ok user, s')) :
    exists found ui s1,
      exec (identityOf deployment claims.sub "local".toList true true) s =
        (.ok found, s) ∧
      exec (validateOr deployment found claims pwd) s = (.ok ui, s1) ∧
      s'.people = (s1.updateUserEmail ui.ui.value.userId claims.sub).people := by
  unfold validateClaims at h
  rcases exec_bind_eq_ok h with ⟨found, s0, hfound, h1⟩
  have hs0 := (exec_identityOf_eq_ok hfound).left
  rw [hs0] at hfound h1
  rcases exec_bind_eq_ok h1 with ⟨ui, s1, hui, h2⟩
  rcases exec_bind_eq_ok h2 with ⟨mailed, s2, hmailed, h3⟩
  cases hmailed
  refine ⟨found, ui, s1, hfound, hui, ?_⟩
  unfold autoLogin at h3
  rcases exec_bind_eq_ok h3 with ⟨entered, s3, hentered, h4⟩
  cases hentered
  cases h4
  show ((s1.updateUserEmail _ _).enter _).people = _
  unfold Accounts.enter
  split
  · rfl
  · rfl

theorem completed_validateFound_iff {email : Text} {found ui : FoundIdentity}
    {claims : MailClaims} {pwd : Value} {s1 : Accounts}
    (hsub : claims.sub = some email) (hmem : found.ui ∈ s.identities.rows)
    (hmatch : matchesIdentity s (some email) "local".toList true true
      found.ui = true)
    (hrelations : withRelations s found.ui = .ok found)
    (h : exec (validateFound deployment found claims pwd) s = (.ok ui, s1))
    (hpeople : s'.people =
      (s1.updateUserEmail ui.ui.value.userId claims.sub).people) :
    Completed deployment s s' email claims.resetPwd pwd <->
      claims.resetPwd = true ∧
        exists row, s.localIdentity email = some row ∧
          row.value.emailVerified = true ∧
          s.primaryEmail row.value.userPk ≠ none := by
  have hidentities := congrArg Prod.snd hpeople
  have husers := congrArg Prod.fst hpeople
  unfold validateFound at h
  simp only at h
  split at h
  · cases h
  · rename_i hactive
    have hfound := active_of_found hmem hmatch hrelations
      (Bool.eq_false_iff.mpr hactive)
    have hemail : s.primaryEmail found.ui.value.userPk =
        found.user.value.email := by
      rw [← hfound.userPk]
      exact primaryEmail_of_mem hfound.user
    split at h
    · rename_i hreset
      rcases exec_bind_eq_ok h with ⟨hash, s2, hupdate, h1⟩
      cases h1
      rcases exec_updateLocalPassword_eq_ok hfound hupdate with
        ⟨hhash, hsees, hs2⟩
      rw [hs2] at hidentities husers
      rw [hsub] at husers
      rw [hreset, completed_of_reset_iff hfound hhash hsees hidentities husers,
        hfound.identity]
      constructor
      · intro hboth
        exact ⟨rfl, _, rfl, hboth.left, hemail ▸ hboth.right⟩
      · intro hboth
        rcases hboth.right with ⟨row, hrow, hverified, hmailed⟩
        rw [← Option.some.inj hrow] at hverified hmailed
        exact ⟨hverified, hemail ▸ hmailed⟩
    · rename_i hreset
      split at h
      · cases h
      · rename_i hunverified
        rcases exec_bind_eq_ok h with ⟨promised, s2, hverify, h1⟩
        cases hverify
        cases h1
        constructor
        · intro hcompleted
          rcases hcompleted with ⟨row, hrow, hverified, _⟩
          have hsame : s'.localIdentity email = s.localIdentity email := by
            unfold Accounts.localIdentity
            rw [show s'.identities = s.identities from hidentities]
          rw [hsame, hfound.identity] at hrow
          rw [← Option.some.inj hrow] at hverified
          exact absurd hverified hunverified
        · intro hboth
          exact absurd hboth.left hreset

theorem completed_validateClaims_iff {claims : MailClaims} {pwd : Value}
    {user : JwtPayload} {email : Text} (hsub : claims.sub = some email)
    (h : exec (validateClaims deployment claims pwd) s = (.ok user, s')) :
    Completed deployment s s' email claims.resetPwd pwd <->
      claims.resetPwd = true ∧
        exists row, s.localIdentity email = some row ∧
          row.value.emailVerified = true ∧
          s.primaryEmail row.value.userPk ≠ none := by
  rcases exec_validateClaims_eq_ok h with
    ⟨found, ui, s1, hfound, hui, hpeople⟩
  rw [hsub] at hfound
  rcases (exec_identityOf_eq_ok hfound).right with
    ⟨hnone, hmissing⟩ | ⟨f, hsome, hmem, hmatch, hrelations⟩
  · rw [hnone] at hui
    have hbefore : s.localIdentity email = none := by
      cases hrow : s.localIdentity email with
      | none => rfl
      | some row =>
          have hmatch := hmissing row (Table.mem_of_findUnique hrow)
          unfold matchesIdentity at hmatch
          rw [Table.key_of_findUnique hrow] at hmatch
          simp at hmatch
    rw [hbefore]
    apply iff_of_false
    · unfold validateOr validateNew at hui
      simp only at hui
      split at hui
      · cases hui
      · split at hui
        · cases hui
        · rcases exec_registerUserFromIdentity_eq_ok hsub rfl hmissing hui with
            ⟨huserPk, hunmailed, hrows⟩
          apply not_completed_of_new hbefore huserPk
          · exact (congrArg (fun people => people.2.rows) hpeople).trans hrows
          · have hkept := hunmailed.updateUserEmail ui.ui.value.userId
              claims.sub
            unfold Accounts.Unmailed at hkept ⊢
            rw [show s'.users = _ from congrArg Prod.fst hpeople]
            exact hkept
    · intro hboth
      rcases hboth.right with ⟨row, hrow, _⟩
      cases hrow
  · rw [hsome] at hui
    exact completed_validateFound_iff hsub hmem hmatch hrelations hui hpeople

/-- A login by a validated email leaves everything as it should be exactly when
the token asks for a reset of an identity that is verified already, and whose
user has an email. -/
theorem completed_iff {token : Text} {pwd : Value} {payload user : JwtPayload}
    {tokens : AuthTokens} {email : Text}
    (hverify : exec (verify deployment.now token .apiKey true) s.tokens =
      (.ok (some payload), tokens))
    (hsub : (mailClaims payload).sub = some email)
    (h : exec (validateEmail deployment token pwd) s = (.ok (some user), s')) :
    Completed deployment s s' email (mailClaims payload).resetPwd pwd <->
      (mailClaims payload).resetPwd = true ∧
        exists row, s.localIdentity email = some row ∧
          row.value.emailVerified = true ∧
          s.primaryEmail row.value.userPk ≠ none := by
  unfold validateEmail at h
  rcases exec_bind_eq_ok h with ⟨verified, s1, hzoom, h1⟩
  rw [exec_zoom, hverify] at hzoom
  cases hzoom
  rcases exec_bind_eq_ok h1 with ⟨last, s2, hclaims, h2⟩
  cases h2
  have hcompleted := completed_validateClaims_iff
    (s := { s with tokens := tokens }) hsub hclaims
  exact hcompleted

end Methods

/-! ## A user of a shop -/

def inOrder {row : Type} : FindFirst row where
  pick := List.head?
  mem := fun h => List.mem_of_head? h
  isSome := by
    intro rows h
    cases rows with
    | nil => exact absurd rfl h
    | cons r rest => rfl

def markedHashes : Deployment where
  now := 0
  identity := inOrder
  tenant := inOrder
  tenantId := "t2".toList
  userId := "u2".toList
  hashSalted := fun text => '#' :: text
  hashCompare := fun text hash => '#' :: text == hash

def buyer : Text := "a@shop.example".toList

def buyerToken (resetPwd : Bool) : JwtPayload where
  jti := some "mail".toList
  exp := none
  claims := [("sub".toList, .str buyer), ("resetPwd".toList, .bool resetPwd)]

def buyerAccounts (emailVerified resetPwd : Bool) (email : Option Text) :
    Accounts where
  tokens := Table.empty.insert "mail".toList
    ⟨.apiKey, buyerToken resetPwd, false, some 1000⟩ rfl
  tenants := Table.empty.insert "t1".toList
    ⟨some "shop.example".toList, none, 1, 1, 0⟩ rfl
  users := Table.empty.insert "u1".toList ⟨"a".toList, email, none, 1, 0⟩ rfl
  identities := Table.empty.insert ("local".toList, buyer, 0)
    { credentials := "#old".toList
      name := none
      email := some buyer
      emailVerified := emailVerified
      avatar := none
      tenantPk := 1
      userPk := 1
      userId := "u1".toList } rfl
  tenantPk := some 1
  linked := Accounts.empty.linked.insert rfl rfl rfl rfl rfl

theorem completed_reset :
    exists user s', exec (validateEmail markedHashes "mail".toList
        (some (.str "new secret".toList)))
          (buyerAccounts true true (some [])) = (.ok (some user), s') ∧
      Completed markedHashes (buyerAccounts true true (some [])) s' buyer true
        (some (.str "new secret".toList)) := by
  refine ⟨_, _, rfl, ?_⟩
  have hreset : (mailClaims (buyerToken true)).resetPwd = true := rfl
  have hiff := @completed_iff markedHashes
    (buyerAccounts true true (some [])) _ "mail".toList
    (some (.str "new secret".toList)) (buyerToken true) _ _ buyer rfl rfl rfl
  rw [hreset] at hiff
  exact hiff.mpr ⟨rfl, _, rfl, rfl, Option.some_ne_none _⟩

/-- A first validation logs in and leaves the identity unverified. -/
theorem not_completed_first :
    exists user s', exec (validateEmail markedHashes "mail".toList none)
        (buyerAccounts false false none) = (.ok (some user), s') ∧
      (s'.localIdentity buyer).map (fun row => row.value.emailVerified) =
        some false ∧
      s'.primaryEmail 1 = none ∧
      ¬ Completed markedHashes (buyerAccounts false false none) s' buyer false
        none := by
  refine ⟨_, _, rfl, rfl, rfl, ?_⟩
  intro h
  rcases h with ⟨row, hrow, hverified, _⟩
  cases hrow
  cases hverified

end Users
end CallgentApi
