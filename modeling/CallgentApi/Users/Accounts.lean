import CallgentApi.Users.Tokens

/-!
# Users, their identities and their tenants

A user belongs to a tenant and is known by identities, each of a provider.  A
query sees the rows of the tenant in its context, unless it bypasses that, and
the rows that are shared by all.
-/

namespace CallgentApi
namespace Users

open Js Event Effect Cached

structure Tenant where
  emailHost : Option Text
  name : Option Text
  type : Nat
  statusCode : Int
  deletedAt : Nat

structure User where
  name : Text
  email : Option Text
  avatar : Option Text
  tenantPk : Nat
  deletedAt : Nat

/-- An identity, under its provider, its id there, and when it is deleted. -/
structure UserIdentity where
  credentials : Text
  name : Option Text
  email : Option Text
  emailVerified : Bool
  avatar : Option Text
  tenantPk : Nat
  userPk : Nat
  userId : Text

abbrev TenantRow := TableRow Text Tenant

abbrev UserRecord := TableRow Text User

abbrev IdentityRow := TableRow (Text × Text × Nat) UserIdentity

/-- Each identity is of a user of its tenant, and primary keys start at one. -/
structure Linked (users : Table Text User)
    (identities : Table (Text × Text × Nat) UserIdentity) : Prop where
  user : forall row, row ∈ identities.rows ->
    exists user, user ∈ users.rows ∧ user.pk = row.value.userPk ∧
      user.key = row.value.userId ∧ user.value.tenantPk = row.value.tenantPk
  pk : forall row, row ∈ identities.rows -> row.pk ≠ 0
  nextPk : identities.nextPk ≠ 0

structure Accounts where
  tokens : AuthTokens
  tenants : Table Text Tenant
  users : Table Text User
  identities : Table (Text × Text × Nat) UserIdentity
  /-- `TENANT_ID` of the context. -/
  tenantPk : Option Nat
  linked : Linked users identities

/-- What a query without an order finds first, of the rows that it matches. -/
structure FindFirst (row : Type) where
  pick : List row -> Option row
  mem : forall {rows r}, pick rows = some r -> r ∈ rows
  isSome : forall {rows}, rows ≠ [] -> (pick rows).isSome

/-- What else decides: the order of rows, the ids that are drawn, and the
hashes of passwords. -/
structure Deployment where
  now : Nat
  identity : FindFirst IdentityRow
  tenant : FindFirst TenantRow
  tenantId : Text
  userId : Text
  hashSalted : Text -> Text
  hashCompare : Text -> Text -> Bool

/-! ## Rows that are written -/

/-- `data` of an update of an identity; what is not given stays. -/
structure IdentityData where
  credentials : Option Text
  emailVerified : Option Bool

def IdentityData.over (data : IdentityData) (old : UserIdentity) :
    UserIdentity :=
  { old with
    credentials := data.credentials.getD old.credentials
    emailVerified := data.emailVerified.getD old.emailVerified }

theorem Linked.edit {users : Table Text User}
    {identities : Table (Text × Text × Nat) UserIdentity}
    (h : Linked users identities) (pk : Nat) (data : IdentityData) :
    Linked users (identities.edit pk data.over) where
  user := by
    intro row hrow
    rcases Table.mem_edit.mp hrow with ⟨old, hold, heq⟩
    rw [← heq]
    unfold Table.editRow
    split
    · exact h.user old hold
    · exact h.user old hold
  pk := by
    intro row hrow
    rcases Table.mem_edit.mp hrow with ⟨old, hold, heq⟩
    rw [← heq, Table.editRow_pk]
    exact h.pk old hold
  nextPk := h.nextPk

theorem Linked.mapUsers {users : Table Text User}
    {identities : Table (Text × Text × Nat) UserIdentity}
    (h : Linked users identities) {f : Text -> User -> User}
    (hf : forall id user, (f id user).tenantPk = user.tenantPk) :
    Linked (users.mapValues f) identities where
  user := by
    intro row hrow
    rcases h.user row hrow with ⟨user, huser, hpk, hid, htenant⟩
    refine ⟨_, Table.mem_mapValues.mpr ⟨user, huser, rfl⟩, hpk, hid, ?_⟩
    exact (hf user.key user.value).trans htenant
  pk := h.pk
  nextPk := h.nextPk

theorem Linked.insert {users : Table Text User}
    {identities : Table (Text × Text × Nat) UserIdentity}
    (h : Linked users identities) {id : Text} {user : User}
    (hid : users.findUnique id = none) {key : Text × Text × Nat}
    {identity : UserIdentity} (hkey : identities.findUnique key = none)
    (hpk : identity.userPk = users.nextPk) (huserId : identity.userId = id)
    (htenant : user.tenantPk = identity.tenantPk) :
    Linked (users.insert id user hid) (identities.insert key identity hkey)
    where
  user := by
    intro row hrow
    rcases Table.mem_insert.mp hrow with hold | heq
    · rcases h.user row hold with ⟨other, hother, hlinked⟩
      exact ⟨other, Table.mem_insert.mpr (Or.inl hother), hlinked⟩
    · rw [heq]
      exact ⟨⟨users.nextPk, id, user⟩, Table.mem_insert.mpr (Or.inr rfl),
        hpk.symm, huserId.symm, htenant⟩
  pk := by
    intro row hrow
    rcases Table.mem_insert.mp hrow with hold | heq
    · exact h.pk row hold
    · rw [heq]
      exact h.nextPk
  nextPk := Nat.succ_ne_zero identities.nextPk

/-! ## Accounts -/

namespace Accounts

def empty : Accounts where
  tokens := .empty
  tenants := .empty
  users := .empty
  identities := .empty
  tenantPk := none
  linked := ⟨fun _ h => (nomatch h), fun _ h => (nomatch h), Nat.one_ne_zero⟩

def sees (s : Accounts) (tenantPk : Nat) : Bool :=
  tenantPk == 0 || s.tenantPk == some tenantPk

def editIdentity (s : Accounts) (pk : Nat) (data : IdentityData) : Accounts :=
  { s with
    identities := s.identities.edit pk data.over
    linked := s.linked.edit pk data }

/-- `where` of `user.updateMany`: of this id, with an email, in the tenant and
not deleted. -/
def mailed (s : Accounts) (id userId : Text) (user : User) : Bool :=
  id == userId && user.email.isSome && s.sees user.tenantPk &&
    user.deletedAt == 0

/-- `user.updateMany({ data: { email }, where: { id, email: { not: null } } })`;
an email that is not given is left as it is. -/
def updateUserEmail (s : Accounts) (userId : Text) (email : Option Text) :
    Accounts :=
  { s with
    users := s.users.mapValues fun id user =>
      if s.mailed id userId user then
        { user with email := email.or user.email }
      else user
    linked := s.linked.mapUsers (by
      intro id user
      split
      · rfl
      · rfl) }

end Accounts

end Users
end CallgentApi
