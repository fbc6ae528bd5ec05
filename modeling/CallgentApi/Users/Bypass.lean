import CallgentApi.Lib.Effect
import CallgentApi.Event.Engine

/-!
# Lookups across tenants

A method that looks for a row of any tenant turns the isolation of tenants off
in its transaction, looks, and turns it on again.  A query starts when it is
awaited.
-/

namespace CallgentApi
namespace Users

open Js Event Effect

/-- The settings of a transaction, and for each lookup whether it was made with
the bypass on. -/
structure Transaction where
  bypass : Bool
  /-- A statement has failed in the database; none runs any more. -/
  aborted : Bool
  lookups : List Bool
  /-- `TENANT_ID` of the context. -/
  tenantPk : Option Nat

inductive Outcome (row : Type) where
  | found (r : row)
  | missing
  /-- The error may come from the database, which aborts the transaction. -/
  | failed (e : Thrown) (aborts : Bool)

abbrev PrismaPromise (a : Type) := Effect Transaction Thrown a

def inAbortedTransaction : Thrown :=
  .plain "25P02".toList

def bypassTenancy (bypass : Bool) : PrismaPromise Unit := do
  if (← get).aborted then throw inAbortedTransaction
  else modify fun s => { s with bypass := bypass }

/-- A lookup; the answer may depend on whether the bypass is on. -/
def lookup {row : Type} (answer : Bool -> Outcome row) :
    PrismaPromise (Option row) := do
  let s ← get
  if s.aborted then throw inAbortedTransaction
  else
    modify fun s => { s with lookups := s.lookups ++ [s.bypass] }
    match answer s.bypass with
    | .found r => return some r
    | .missing => return none
    | .failed e aborts =>
        modify fun s => { s with aborted := aborts }
        throw e

/-! ## The queries -/

/-- `where` of a user identity. -/
inductive IdentityWhere where
  /-- `deletedAt: { gte: 0 }`. -/
  | evenInvalid (uid provider : Text)
  /-- `user: { tenant: { statusCode: { gt: 0 } } }`. -/
  | valid (uid provider : Text)
  | ofUser (userId provider : Text)

structure EntryWhere where
  type : Text
  callgentId : Text
  adaptorKey : Text
  id : Option Text

structure EntryRow where
  id : Text
  tenantPk : Nat

/-- `select: { tenant: true }` of a user. -/
structure UserRow (tenant : Type) where
  tenant : tenant

/-- The answers of the database, with the bypass on or off. -/
structure Database (identity tenant : Type) where
  userIdentity : IdentityWhere -> Bool -> Outcome identity
  entry : EntryWhere -> Bool -> Outcome EntryRow
  user : Text -> Bool -> Outcome (UserRow tenant)

section Methods

variable {identity tenant : Type} (db : Database identity tenant)

/-- `UsersService.$findUserIdentity`. -/
def findUserIdentity (uid provider : Text) (noTenant evenInvalid : Bool) :
    PrismaPromise (Option identity) := do
  if noTenant then bypassTenancy true
  let condition :=
    if evenInvalid then IdentityWhere.evenInvalid uid provider
    else .valid uid provider
  ensuring (lookup (db.userIdentity condition))
    (if noTenant then bypassTenancy false else pure ())

/-- `UsersService.$findFirstUserIdentity`: what `try` returns is the query and
not its result, so the query starts after `finally`. -/
def findFirstUserIdentity (userId provider : Text) :
    PrismaPromise (Option identity) := do
  bypassTenancy true
  let promise ← ensuring
    (pure (lookup (db.userIdentity (.ofUser userId provider))))
    (bypassTenancy false)
  promise

/-- `EntriesService.findFirstByType`. -/
def findFirstByType (type callgentId adaptorKey : Text) (id : Option Text) :
    PrismaPromise (Option EntryRow) :=
  lookup (db.entry ⟨type, callgentId, adaptorKey, truthy id⟩)

/-- `EntriesService.$findFirstByType`. -/
def findFirstByTypeOfAny (type callgentId adaptorKey : Text)
    (entryId : Option Text) : PrismaPromise (Option EntryRow) := do
  bypassTenancy true
  let v ← findFirstByType db type callgentId adaptorKey entryId
  bypassTenancy false
  modify fun s =>
    { s with tenantPk := (v.map EntryRow.tenantPk).orElse fun _ => s.tenantPk }
  return v

/-- `UsersService.$getTenant`. -/
def getTenant (userId : Text) : PrismaPromise (Option tenant) := do
  if userId.isEmpty then return none
  else
    bypassTenancy true
    let t ← lookup (db.user userId)
    bypassTenancy false
    return t.map UserRow.tenant

end Methods

/-! ## The calls that turn the bypass on -/

inductive BypassCall where
  /-- With `noTenant`. -/
  | findUserIdentity (uid provider : Text) (evenInvalid : Bool)
  | findFirstUserIdentity (userId provider : Text)
  | findFirstByType (type callgentId adaptorKey : Text) (entryId : Option Text)
  | getTenant (userId : Text) (hid : userId ≠ [])

namespace BypassCall

variable {identity tenant : Type}

def after (db : Database identity tenant) (call : BypassCall)
    (s : Transaction) : Transaction :=
  match call with
  | findUserIdentity uid provider evenInvalid =>
      (exec (Users.findUserIdentity db uid provider true evenInvalid) s).2
  | findFirstUserIdentity userId provider =>
      (exec (Users.findFirstUserIdentity db userId provider) s).2
  | findFirstByType type callgentId adaptorKey entryId =>
      (exec (findFirstByTypeOfAny db type callgentId adaptorKey entryId) s).2
  | getTenant userId _ => (exec (Users.getTenant db userId) s).2

end BypassCall

/-- The lookup of the call was made with the bypass on, where one could be
made, and no later query of the transaction runs with the bypass on. -/
def Shielded (before after : Transaction) : Prop :=
  (before.aborted = false -> after.lookups = before.lookups ++ [true]) ∧
    (after.bypass = false ∨ after.aborted = true)

def Outcome.survives {row : Type} : Outcome row -> Bool
  | .failed _ aborts => !aborts
  | _ => false

/-- The call keeps the rules: it awaits its query before the bypass is off, and
turns it off on errors too, or there is none that leaves the transaction
alive. -/
def BypassCall.safe {identity tenant : Type} (db : Database identity tenant) :
    BypassCall -> Bool
  | findUserIdentity _ _ _ => true
  | findFirstUserIdentity _ _ => false
  | findFirstByType type callgentId adaptorKey entryId =>
      !(db.entry ⟨type, callgentId, adaptorKey, truthy entryId⟩ true).survives
  | getTenant userId _ => !(db.user userId true).survives

/-! ## What the calls do -/

section Calls

variable {identity tenant row : Type} {db : Database identity tenant}
  {s : Transaction}

theorem exec_bypassTenancy (h : s.aborted = false) (bypass : Bool) :
    exec (bypassTenancy bypass) s = (.ok (), { s with bypass := bypass }) := by
  have hlive : ¬ s.aborted = true := by
    rw [h]
    exact Bool.false_ne_true
  unfold bypassTenancy
  rw [exec_bind_of_ok (exec_get s), if_neg hlive]
  rfl

theorem exec_bypassTenancy_aborted (h : s.aborted = true) (bypass : Bool) :
    exec (bypassTenancy bypass) s = (.error inAbortedTransaction, s) := by
  unfold bypassTenancy
  rw [exec_bind_of_ok (exec_get s), h]
  rfl

def Transaction.looked (s : Transaction) : Transaction :=
  { s with lookups := s.lookups ++ [s.bypass] }

theorem exec_lookup (h : s.aborted = false) (answer : Bool -> Outcome row) :
    exec (lookup answer) s =
      match answer s.bypass with
      | .found r => (.ok (some r), s.looked)
      | .missing => (.ok none, s.looked)
      | .failed e aborts => (.error e, { s.looked with aborted := aborts }) := by
  unfold lookup
  have hlive : ¬ s.aborted = true := by
    rw [h]
    exact Bool.false_ne_true
  rw [exec_bind_of_ok (exec_get s), if_neg hlive,
    exec_bind_of_ok (exec_modify _ s)]
  cases answer s.bypass with
  | found r => rfl
  | missing => rfl
  | failed e aborts => rfl

theorem after_of_aborted (h : s.aborted = true) (call : BypassCall) :
    call.after db s = s := by
  have hfail := exec_bypassTenancy_aborted h true
  cases call with
  | findUserIdentity uid provider evenInvalid =>
      exact congrArg Prod.snd (exec_bind_of_error hfail _)
  | findFirstUserIdentity userId provider =>
      exact congrArg Prod.snd (exec_bind_of_error hfail _)
  | findFirstByType type callgentId adaptorKey entryId =>
      exact congrArg Prod.snd (exec_bind_of_error hfail _)
  | getTenant userId hid =>
      have hsome : ¬ userId.isEmpty = true := by
        rw [List.isEmpty_iff]
        exact hid
      show (exec (getTenant db userId) s).2 = s
      unfold getTenant
      rw [if_neg hsome]
      exact congrArg Prod.snd (exec_bind_of_error hfail _)

def Transaction.bypassed (s : Transaction) : Transaction :=
  { s with bypass := true, lookups := s.lookups ++ [true] }

theorem exec_lookup_bypassed (h : s.aborted = false)
    (answer : Bool -> Outcome row) :
    exec (lookup answer) { s with bypass := true } =
      match answer true with
      | .found r => (.ok (some r), s.bypassed)
      | .missing => (.ok none, s.bypassed)
      | .failed e aborts =>
          (.error e, { s.bypassed with aborted := aborts }) :=
  exec_lookup (s := { s with bypass := true }) h answer

theorem shielded_findUserIdentity (h : s.aborted = false)
    (uid provider : Text) (evenInvalid : Bool) :
    Shielded s ((BypassCall.findUserIdentity uid provider evenInvalid).after
      db s) := by
  show Shielded s (exec (findUserIdentity db uid provider true evenInvalid) s).2
  unfold findUserIdentity
  rw [if_pos rfl, exec_bind_of_ok (exec_bypassTenancy h true), exec_ensuring,
    exec_lookup_bypassed h, if_pos rfl]
  have hlive : s.bypassed.aborted = false := h
  cases db.userIdentity (if evenInvalid then .evenInvalid uid provider
      else .valid uid provider) true with
  | found r =>
      dsimp only
      rw [exec_bypassTenancy hlive]
      exact ⟨fun _ => rfl, Or.inl rfl⟩
  | missing =>
      dsimp only
      rw [exec_bypassTenancy hlive]
      exact ⟨fun _ => rfl, Or.inl rfl⟩
  | failed e aborts =>
      cases aborts with
      | false =>
          dsimp only
          rw [exec_bypassTenancy rfl]
          exact ⟨fun _ => rfl, Or.inl rfl⟩
      | true =>
          dsimp only
          rw [exec_bypassTenancy_aborted rfl]
          exact ⟨fun _ => rfl, Or.inr rfl⟩

theorem lookups_findFirstUserIdentity (h : s.aborted = false)
    (userId provider : Text) :
    ((BypassCall.findFirstUserIdentity userId provider).after db s).lookups =
      s.lookups ++ [false] := by
  show (exec (findFirstUserIdentity db userId provider) s).2.lookups = _
  unfold findFirstUserIdentity
  rw [exec_bind_of_ok (exec_bypassTenancy h true)]
  have hoff : exec (ensuring
      (pure (lookup (db.userIdentity (.ofUser userId provider))))
      (bypassTenancy false)) { s with bypass := true } =
        (.ok (lookup (db.userIdentity (.ofUser userId provider))),
          { s with bypass := false }) := by
    have hon : ({ s with bypass := true } : Transaction).aborted = false := h
    rw [exec_ensuring, exec_pure]
    dsimp only
    rw [exec_bypassTenancy hon]
  have hlookup : ({ s with bypass := false } : Transaction).aborted = false := h
  rw [exec_bind_of_ok hoff, exec_lookup hlookup]
  cases db.userIdentity (.ofUser userId provider) false with
  | found r => rfl
  | missing => rfl
  | failed e aborts => rfl

theorem shielded_between_iff {b : Type} (h : s.aborted = false)
    (answer : Bool -> Outcome row) {rest : Option row -> PrismaPromise b}
    (hrest : forall v (state : Transaction), exists result tenantPk,
      exec (rest v) state = (result, { state with tenantPk := tenantPk })) :
    Shielded s (exec (do
        bypassTenancy true
        let v ← lookup answer
        bypassTenancy false
        rest v) s).2 <->
      (answer true).survives = false := by
  have hlive : s.bypassed.aborted = false := h
  rw [exec_bind_of_ok (exec_bypassTenancy h true), exec_bind,
    exec_lookup_bypassed h]
  have hoff : forall v, Shielded s (exec (do
      bypassTenancy false
      rest v) s.bypassed).2 := by
    intro v
    rw [exec_bind_of_ok (exec_bypassTenancy hlive false)]
    rcases hrest v { s.bypassed with bypass := false } with
      ⟨result, tenantPk, hexec⟩
    rw [hexec]
    exact ⟨fun _ => rfl, Or.inl rfl⟩
  cases answer true with
  | found r => exact iff_of_true (hoff (some r)) rfl
  | missing => exact iff_of_true (hoff none) rfl
  | failed e aborts =>
      cases aborts with
      | true => exact iff_of_true ⟨fun _ => rfl, Or.inr rfl⟩ rfl
      | false =>
          apply iff_of_false
          · intro hshielded
            rcases hshielded.right with hbypass | haborted
            · cases hbypass
            · cases haborted
          · intro hsurvives
            cases hsurvives

/-- The lookup of a call is made with the bypass on and the bypass is off
afterwards exactly when the transaction is aborted or the call is safe. -/
theorem shielded_iff (db : Database identity tenant) (call : BypassCall)
    (s : Transaction) :
    Shielded s (call.after db s) <->
      s.aborted = true ∨ call.safe db = true := by
  cases haborted : s.aborted with
  | true =>
      rw [after_of_aborted haborted]
      apply iff_of_true _ (Or.inl rfl)
      constructor
      · intro hlive
        rw [haborted] at hlive
        cases hlive
      · exact Or.inr haborted
  | false =>
      have hsafe : (false = true ∨ call.safe db = true) <->
          call.safe db = true := by
        simp
      rw [hsafe]
      cases call with
      | findUserIdentity uid provider evenInvalid =>
          exact iff_of_true
            (shielded_findUserIdentity haborted uid provider evenInvalid) rfl
      | findFirstUserIdentity userId provider =>
          apply iff_of_false
          · intro hshielded
            have hlookups := hshielded.left haborted
            rw [lookups_findFirstUserIdentity haborted] at hlookups
            have hlast := List.append_cancel_left hlookups
            cases hlast
          · exact Bool.false_ne_true
      | findFirstByType type callgentId adaptorKey entryId =>
          show _ <-> (!(db.entry ⟨type, callgentId, adaptorKey,
            truthy entryId⟩ true).survives) = true
          rw [Bool.not_eq_true']
          apply shielded_between_iff haborted
          intro v state
          exact ⟨_, _, rfl⟩
      | getTenant userId hid =>
          have hsome : ¬ userId.isEmpty = true := by
            rw [List.isEmpty_iff]
            exact hid
          show Shielded s (exec (getTenant db userId) s).2 <->
            (!(db.user userId true).survives) = true
          unfold getTenant
          rw [Bool.not_eq_true', if_neg hsome]
          apply shielded_between_iff haborted
          intro v state
          exact ⟨_, _, rfl⟩

end Calls

/-! ## Lookups that break the rules -/

def emptyDatabase : Database Unit Unit where
  userIdentity := fun _ _ => .missing
  entry := fun _ _ => .missing
  user := fun _ _ => .failed (.plain "P1001".toList) false

def freshTransaction : Transaction := ⟨false, false, [], none⟩

/-- A realm is looked up with the bypass off, and a lookup of a tenant that
fails leaves it on. -/
theorem not_shielded_calls :
    ¬ Shielded freshTransaction
        ((BypassCall.findFirstUserIdentity "u".toList "1".toList).after
          emptyDatabase freshTransaction) ∧
      ¬ Shielded freshTransaction
        ((BypassCall.getTenant "u".toList (List.cons_ne_nil _ _)).after
          emptyDatabase freshTransaction) := by
  constructor
  · intro hshielded
    cases hshielded.left rfl
  · intro hshielded
    rcases hshielded.right with hbypass | haborted
    · cases hbypass
    · cases haborted

end Users
end CallgentApi
