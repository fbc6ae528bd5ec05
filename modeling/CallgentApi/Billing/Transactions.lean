import CallgentApi.Lib.HalfAway
import CallgentApi.Lib.Fallible
import CallgentApi.Lib.Json
import CallgentApi.Lib.Transition
import CallgentApi.Cached.Service

/-!
# Transactions and balances

`TransactionsService.create` records an amount and adds it to the balance of
the tenant.  Both columns hold integers of at most thirty digits, and the
database rounds the amount and the sum on its own.
-/

namespace CallgentApi
namespace Billing

open Js Event Cached HalfAway Transition

/-! ## Decimals -/

inductive Decimal where
  | finite (value : Rat)
  | infinity
  | negInfinity
  | nan
deriving DecidableEq

namespace Decimal

/-- `d.gt(0)`. -/
def gtZero : Decimal -> Bool
  | finite value => 0 < value
  | infinity => true
  | _ => false

/-- `d.lt(0)`. -/
def ltZero : Decimal -> Bool
  | finite value => value < 0
  | negInfinity => true
  | _ => false

/-- `d.mul(-1)`. -/
def negated : Decimal -> Decimal
  | finite value => finite (-value)
  | infinity => negInfinity
  | negInfinity => infinity
  | nan => nan

end Decimal

/-- The value of a column `Decimal(30, 0)`, if it is in its range. -/
def column (value : Rat) : Option Int :=
  if (roundAway value).natAbs < 10 ^ 30 then some (roundAway value) else none

/-! ## The tables -/

inductive TransactionType where
  | recharge
  | gift
  | refund
  | expense
deriving DecidableEq

/-- A transaction, found by its `txId`. -/
structure Transaction where
  userId : Text
  tenantPk : Nat
  type : TransactionType
  amount : Int
  currency : Text
  refData : Option Json

structure Tenant where
  balance : Int

abbrev TenantRow := TableRow Text Tenant

abbrev TransactionRow := TableRow Text Transaction

/-- A user is stored with the key of its tenant. -/
structure Ledger where
  users : Table Text Nat
  tenants : Table Text Tenant
  transactions : Table Text Transaction

structure CreateTransactionDto where
  txId : Text
  refData : Option Json
  type : TransactionType
  amount : Decimal
  currency : Text
  userId : Text

/-! ## `TransactionsService` -/

/-- `UsersService.$getTenant`. -/
def getTenant (l : Ledger) (userId : Text) : Option TenantRow :=
  if userId.isEmpty then none
  else (l.users.findUnique userId).bind fun user => l.tenants.findPk user.value

def tenantNotFound (userId : Text) : Thrown :=
  .plain ("Tenant not found for user ".toList ++ userId)

def paymentRequired : Thrown :=
  { Thrown.plain "Insufficient balance".toList with status := some 402 }

/-- `TransactionsService.check`. -/
def check (l : Ledger) (userId : Text) : Except Thrown Int :=
  match getTenant l userId with
  | none => .error (tenantNotFound userId)
  | some tenant =>
      if 0 < tenant.value.balance then .ok tenant.value.balance
      else .error paymentRequired

/-- The sign of the amount goes with the type. -/
def TransactionType.allows (type : TransactionType) (amount : Decimal) : Bool :=
  match type with
  | .expense | .refund => !amount.gtZero
  | .recharge | .gift => !amount.ltZero

def CreateTransactionDto.fits (dto : CreateTransactionDto) : Bool :=
  dto.txId.length ≤ 150 && dto.currency.length ≤ 6 && dto.userId.length ≤ 30

theorem CreateTransactionDto.fits_iff (dto : CreateTransactionDto) :
    dto.fits = true <-> dto.txId.length ≤ 150 ∧ dto.currency.length ≤ 6 ∧
      dto.userId.length ≤ 30 := by
  simp [fits, and_assoc]

/-- A number that is not finite is refused, and one that is out of range. -/
def stored (amount : Decimal) (add : Int) : Except Thrown Int :=
  match amount with
  | .finite value =>
      match column (add + value) with
      | some stored => .ok stored
      | none => .error (databaseError "P2020".toList)
  | _ => .error (databaseError "P2009".toList)

/-- `prisma.transaction.create`. -/
def insertTransaction (l : Ledger) (tenantPk : Nat)
    (dto : CreateTransactionDto) : Except Thrown (Table Text Transaction) := do
  let amount ← stored dto.amount 0
  if dto.fits then
    match l.transactions.create dto.txId
      { userId := dto.userId
        tenantPk := tenantPk
        type := dto.type
        amount := amount
        currency := dto.currency
        refData := dto.refData } with
    | some transactions => .ok transactions
    | none => .error uniqueConstraint
  else .error (databaseError "P2000".toList)

/-- `prisma.tenant.update` with `balance: { increment: amount }`. -/
def increment (l : Ledger) (tenant : TenantRow) (amount : Decimal) :
    Except Thrown (Table Text Tenant) := do
  let balance ← stored amount tenant.value.balance
  match l.tenants.update tenant.pk fun _ => ⟨balance⟩ with
  | some tenants => .ok tenants
  | none => .error recordNotFound

/-- `TransactionsService.create`. -/
def create (l : Ledger) (dto : CreateTransactionDto) : Except Thrown Ledger := do
  match getTenant l dto.userId with
  | none => .error (tenantNotFound dto.userId)
  | some tenant =>
      if dto.type.allows dto.amount then
        let transactions ← insertTransaction l tenant.pk dto
        let tenants ← increment l tenant dto.amount
        return { l with tenants := tenants, transactions := transactions }
      else .error (.badRequest "Invalid amount and type".toList)

/-- One database transaction: a call that throws is rolled back. -/
def step (l : Ledger) (dto : CreateTransactionDto) : Option Ledger :=
  match create l dto with
  | .ok l' => some l'
  | .error _ => some l

/-! ## What a call does -/

/-- The calls that are not refused, with the tenant and the value of the
amount. -/
structure Accepts (l : Ledger) (dto : CreateTransactionDto)
    (tenant : TenantRow) (value : Rat) : Prop where
  payer : getTenant l dto.userId = some tenant
  finite : dto.amount = .finite value
  allowed : dto.type.allows dto.amount = true
  fits : dto.fits = true
  unused : l.transactions.findUnique dto.txId = none
  amount : (column value).isSome
  balance : (column (tenant.value.balance + value)).isSome

def CreateTransactionDto.row (dto : CreateTransactionDto) (tenantPk : Nat)
    (value : Rat) : Transaction where
  userId := dto.userId
  tenantPk := tenantPk
  type := dto.type
  amount := roundAway value
  currency := dto.currency
  refData := dto.refData

/-- The tables with the row and the new balance. -/
def posted (l : Ledger) (dto : CreateTransactionDto) (tenant : TenantRow)
    (value : Rat) (h : l.transactions.findUnique dto.txId = none) : Ledger where
  users := l.users
  tenants := l.tenants.edit tenant.pk
    fun _ => ⟨roundAway (tenant.value.balance + value)⟩
  transactions := l.transactions.insert dto.txId (dto.row tenant.pk value) h

theorem mem_of_getTenant {l : Ledger} {userId : Text} {tenant : TenantRow}
    (h : getTenant l userId = some tenant) : tenant ∈ l.tenants.rows := by
  unfold getTenant at h
  split at h
  · cases h
  · rcases Option.bind_eq_some_iff.mp h with ⟨user, _, htenant⟩
    exact List.mem_of_find?_eq_some htenant

theorem eq_of_column {value : Rat} {n : Int} (h : column value = some n) :
    n = roundAway value := by
  unfold column at h
  split at h
  · exact (Option.some.inj h).symm
  · cases h

theorem stored_eq_ok_iff {amount : Decimal} {add n : Int} :
    stored amount add = .ok n <->
      exists value, amount = .finite value ∧ column (add + value) = some n := by
  cases amount with
  | finite value =>
      unfold stored
      cases hcolumn : column (add + value) with
      | none =>
          dsimp only
          rw [hcolumn]
          simp [hcolumn]
      | some stored =>
          dsimp only
          rw [hcolumn]
          simp [hcolumn]
  | infinity => simp [stored]
  | negInfinity => simp [stored]
  | nan => simp [stored]

theorem insertTransaction_eq_ok_iff {l : Ledger} {tenantPk : Nat}
    {dto : CreateTransactionDto} {transactions : Table Text Transaction} :
    insertTransaction l tenantPk dto = .ok transactions <->
      exists value, dto.amount = .finite value ∧ dto.fits = true ∧
        (column value).isSome ∧
        l.transactions.create dto.txId (dto.row tenantPk value) =
          some transactions := by
  constructor
  · intro h
    rcases Fallible.exists_of_bind_ok h with ⟨amount, hamount, h⟩
    rcases stored_eq_ok_iff.mp hamount with ⟨value, hvalue, hcolumn⟩
    rw [Int.cast_zero, zero_add] at hcolumn
    rw [eq_of_column hcolumn] at h
    split at h
    · rename_i hfits
      split at h
      · rename_i hcreate
        cases h
        exact ⟨value, hvalue, hfits, by rw [hcolumn]; rfl, hcreate⟩
      · cases h
    · cases h
  · intro h
    rcases h with ⟨value, hvalue, hfits, hcolumn, hcreate⟩
    rcases Option.isSome_iff_exists.mp hcolumn with ⟨amount, hamount⟩
    have hstored : stored dto.amount 0 = .ok amount := by
      apply stored_eq_ok_iff.mpr
      exact ⟨value, hvalue, by rw [Int.cast_zero, zero_add, hamount]⟩
    unfold insertTransaction
    rw [hstored, eq_of_column hamount]
    show (if dto.fits = true then _ else _) = _
    rw [if_pos hfits]
    unfold CreateTransactionDto.row at hcreate
    rw [hcreate]

theorem increment_eq_ok_iff {l : Ledger} {tenant : TenantRow}
    {amount : Decimal} {tenants : Table Text Tenant}
    (htenant : tenant ∈ l.tenants.rows) :
    increment l tenant amount = .ok tenants <->
      exists value, amount = .finite value ∧
        (column (tenant.value.balance + value)).isSome ∧
        tenants = l.tenants.edit tenant.pk
          fun _ => ⟨roundAway (tenant.value.balance + value)⟩ := by
  have hupdate := Table.update_of_findUnique
    (Table.findUnique_of_mem htenant)
  constructor
  · intro h
    rcases Fallible.exists_of_bind_ok h with ⟨balance, hbalance, h⟩
    rcases stored_eq_ok_iff.mp hbalance with ⟨value, hvalue, hcolumn⟩
    rw [hupdate] at h
    cases h
    refine ⟨value, hvalue, by rw [hcolumn]; rfl, ?_⟩
    rw [eq_of_column hcolumn]
  · intro h
    rcases h with ⟨value, hvalue, hcolumn, htenants⟩
    rcases Option.isSome_iff_exists.mp hcolumn with ⟨balance, hbalance⟩
    have hstored : stored amount tenant.value.balance = .ok balance :=
      stored_eq_ok_iff.mpr ⟨value, hvalue, hbalance⟩
    unfold increment
    rw [hstored, htenants, eq_of_column hbalance]
    show (match l.tenants.update tenant.pk _ with
      | some tenants => _
      | none => _) = _
    rw [hupdate]

theorem create_eq_ok_iff {l l' : Ledger} {dto : CreateTransactionDto} :
    create l dto = .ok l' <->
      exists tenant value, exists h : Accepts l dto tenant value,
        l' = posted l dto tenant value h.unused := by
  constructor
  · intro h
    unfold create at h
    split at h
    · cases h
    · rename_i tenant hpayer
      split at h
      · rename_i hallowed
        rcases Fallible.exists_of_bind_ok h with ⟨transactions, hinsert, h⟩
        rcases Fallible.exists_of_bind_ok h with ⟨tenants, hincrement, h⟩
        rcases insertTransaction_eq_ok_iff.mp hinsert with
          ⟨value, hvalue, hfits, hamount, hcreate⟩
        rcases (increment_eq_ok_iff (mem_of_getTenant hpayer)).mp hincrement
          with ⟨value', hvalue', hbalance, htenants⟩
        have hsame : value' = value :=
          Decimal.finite.inj (hvalue'.symm.trans hvalue)
        rw [hsame] at hbalance htenants
        rcases Table.exists_insert_of_create hcreate with ⟨hunused, heq⟩
        cases h
        refine ⟨tenant, value,
          ⟨hpayer, hvalue, hallowed, hfits, hunused, hamount, hbalance⟩, ?_⟩
        rw [htenants, heq]
        rfl
      · cases h
  · intro h
    rcases h with ⟨tenant, value, haccepts, hposted⟩
    have hinsert := insertTransaction_eq_ok_iff.mpr
      ⟨value, haccepts.finite, haccepts.fits, haccepts.amount,
        Table.create_of_none (dto.row tenant.pk value) haccepts.unused⟩
    have hincrement := (increment_eq_ok_iff
      (mem_of_getTenant haccepts.payer)).mpr
        ⟨value, haccepts.finite, haccepts.balance, rfl⟩
    unfold create
    rw [haccepts.payer]
    dsimp only
    rw [if_pos haccepts.allowed, hinsert]
    show (increment l tenant dto.amount >>= _) = _
    rw [hincrement, hposted]
    rfl

/-! ## Balances and what is recorded -/

/-- The sum of the amounts of a tenant's transactions. -/
def recorded (l : Ledger) (tenantPk : Nat) : Int :=
  ((l.transactions.rows.filter fun row => row.value.tenantPk = tenantPk).map
    fun row => row.value.amount).sum

/-- Every balance is the initial one and the amounts that are recorded. -/
def Balanced (initial : Nat -> Int) (l : Ledger) : Prop :=
  forall tenant, tenant ∈ l.tenants.rows ->
    tenant.value.balance = initial tenant.pk + recorded l tenant.pk

/-- An accepted amount is no half, or one that leaves the balance on its own
side of zero. -/
def SameSide (l : Ledger) (dto : CreateTransactionDto) : Prop :=
  forall tenant value, Accepts l dto tenant value -> IsHalf value ->
    (0 < tenant.value.balance + value <-> 0 < value)

theorem recorded_posted {l : Ledger} {dto : CreateTransactionDto}
    {tenant : TenantRow} {value : Rat}
    (h : l.transactions.findUnique dto.txId = none) (pk : Nat) :
    recorded (posted l dto tenant value h) pk =
      recorded l pk + if tenant.pk = pk then roundAway value else 0 := by
  show (((l.transactions.rows ++ [_]).filter _).map _).sum = _
  rw [List.filter_append, List.map_append, List.sum_append]
  congr 1
  have hrow : (dto.row tenant.pk value).tenantPk = tenant.pk := rfl
  by_cases hpk : tenant.pk = pk
  · rw [if_pos hpk, List.filter_cons_of_pos (by simpa [hrow] using hpk)]
    exact Int.add_zero _
  · rw [if_neg hpk, List.filter_cons_of_neg (by simpa [hrow] using hpk)]
    rfl

theorem balanced_posted_iff {initial : Nat -> Int} {l : Ledger}
    {dto : CreateTransactionDto} {tenant : TenantRow} {value : Rat}
    (haccepts : Accepts l dto tenant value) (hl : Balanced initial l) :
    Balanced initial (posted l dto tenant value haccepts.unused) <->
      roundAway (tenant.value.balance + value) =
        tenant.value.balance + roundAway value := by
  have hmem := mem_of_getTenant haccepts.payer
  constructor
  · intro h
    have hedited : (Table.editRow tenant.pk
        (fun _ => ⟨roundAway (tenant.value.balance + value)⟩) tenant) ∈
          (posted l dto tenant value haccepts.unused).tenants.rows :=
      Table.mem_edit.mpr ⟨tenant, hmem, rfl⟩
    have hbalance := h _ hedited
    rw [recorded_posted, Table.editRow_pk, if_pos rfl] at hbalance
    unfold Table.editRow at hbalance
    rw [if_pos rfl] at hbalance
    have hold := hl tenant hmem
    dsimp only at hbalance
    omega
  · intro hround row hrow
    rcases Table.mem_edit.mp hrow with ⟨old, hold, hedit⟩
    have hbefore := hl old hold
    rw [recorded_posted, ← hedit, Table.editRow_pk]
    unfold Table.editRow
    by_cases hpk : old.pk = tenant.pk
    · rw [if_pos hpk, if_pos hpk.symm]
      have hsame := Table.eq_of_pk hold hmem hpk
      rw [hsame] at hbefore ⊢
      dsimp only
      omega
    · rw [if_neg hpk, if_neg (Ne.symm hpk)]
      omega

theorem step_of_accepts {l : Ledger} {dto : CreateTransactionDto}
    {tenant : TenantRow} {value : Rat} (h : Accepts l dto tenant value) :
    step l dto = some (posted l dto tenant value h.unused) := by
  unfold step
  rw [create_eq_ok_iff.mpr ⟨tenant, value, h, rfl⟩]

theorem balanced_step_iff {initial : Nat -> Int} {l l' : Ledger}
    {dto : CreateTransactionDto} (hl : Balanced initial l)
    (hstep : step l dto = some l') :
    Balanced initial l' <-> SameSide l dto := by
  unfold step at hstep
  cases hcreate : create l dto with
  | error e =>
      rw [hcreate] at hstep
      rw [← Option.some.inj hstep]
      apply iff_of_true hl
      intro tenant value haccepts
      have hok := create_eq_ok_iff.mpr ⟨tenant, value, haccepts, rfl⟩
      rw [hcreate] at hok
      cases hok
  | ok next =>
      rw [hcreate] at hstep
      rcases create_eq_ok_iff.mp hcreate with
        ⟨tenant, value, haccepts, hposted⟩
      rw [← Option.some.inj hstep, hposted, balanced_posted_iff haccepts hl,
        roundAway_int_add_iff]
      constructor
      · intro h tenant' value' haccepts'
        have htenant : tenant' = tenant := Option.some.inj
          (haccepts'.payer.symm.trans haccepts.payer)
        have hvalue : value' = value := Decimal.finite.inj
          (haccepts'.finite.symm.trans haccepts.finite)
        rw [htenant, hvalue]
        exact h
      · exact fun h => h tenant value haccepts

/-- The balances agree with the recorded amounts in every state of a run
exactly when no call of it adds a half across zero; a call that throws changes
nothing. -/
theorem balanced_iff_sameSide {initial : Nat -> Int} {l l' : Ledger}
    {dtos : List CreateTransactionDto} (hl : Balanced initial l)
    (hrun : run step l dtos = some l') :
    (Along step (Balanced initial) l dtos <->
        StepsMeet step SameSide l dtos) ∧
      forall l dto e, create l dto = .error e -> step l dto = some l := by
  constructor
  · have htrue : forall l dto l', dto ∈ dtos -> True ->
        step l dto = some l' -> True :=
      fun _ _ _ _ h _ => h
    have hstep : forall l dto l', dto ∈ dtos -> True ->
        Balanced initial l -> step l dto = some l' ->
          (Balanced initial l' <-> SameSide l dto) :=
      fun _ _ _ _ _ hbalanced hstep => balanced_step_iff hbalanced hstep
    rw [along_iff_stepsMeet_of_inv htrue hstep True.intro hrun]
    exact and_iff_right hl
  · intro l dto e herror
    unfold step
    rw [herror]

/-! ## An expense of half a unit -/

/-- A tenant with one user and no transactions. -/
def oneTenant (balance : Int) : Ledger where
  users := Table.empty.insert "u1".toList 1 rfl
  tenants := Table.empty.insert "t1".toList ⟨balance⟩ rfl
  transactions := .empty

def expense (value : Rat) : CreateTransactionDto where
  txId := "gen-1".toList
  refData := none
  type := .expense
  amount := .finite value
  currency := "USD".toList
  userId := "u1".toList

theorem balanced_oneTenant (balance : Int) :
    Balanced (fun _ => balance) (oneTenant balance) := by
  intro tenant htenant
  rw [List.mem_singleton.mp htenant]
  exact (Int.add_zero balance).symm

theorem sameSide_expense (l : Ledger) (n : Int) : SameSide l (expense n) := by
  intro tenant value haccepts hhalf
  rw [← Decimal.finite.inj haccepts.finite] at hhalf
  exact absurd hhalf (not_isHalf_intCast n)

theorem balanced_expense :
    exists l, run step (oneTenant 10) [expense (-3 : Int)] = some l ∧
      Along step (Balanced fun _ => 10) (oneTenant 10)
        [expense (-3 : Int)] := by
  have hmeets : StepsMeet step SameSide (oneTenant 10)
      [expense (-3 : Int)] :=
    ⟨sameSide_expense _ _, fun _ _ => True.intro⟩
  have haccepts : Accepts (oneTenant 10) (expense (-3 : Int))
      ⟨1, "t1".toList, ⟨10⟩⟩ (-3 : Int) :=
    ⟨rfl, rfl, by decide +kernel, rfl, rfl, by decide +kernel,
      by decide +kernel⟩
  have hrun := run_singleton (step_of_accepts haccepts)
  exact ⟨_, hrun,
    (balanced_iff_sameSide (balanced_oneTenant 10) hrun).left.mpr hmeets⟩

/-- Half a unit is recorded as one, and the balance stays as it is. -/
theorem not_balanced_half :
    exists l, run step (oneTenant 10) [expense (-1 / 2)] = some l ∧
      Balanced (fun _ => 10) (oneTenant 10) ∧
      ¬ Balanced (fun _ => 10) l := by
  have haccepts : Accepts (oneTenant 10) (expense (-1 / 2))
      ⟨1, "t1".toList, ⟨10⟩⟩ (-1 / 2) :=
    ⟨rfl, rfl, by decide +kernel, rfl, rfl, by decide +kernel,
      by decide +kernel⟩
  have hrun := run_singleton (step_of_accepts haccepts)
  refine ⟨_, hrun, balanced_oneTenant 10, ?_⟩
  intro h
  have hround := (balanced_posted_iff haccepts (balanced_oneTenant 10)).mp h
  revert hround
  decide +kernel

end Billing
end CallgentApi
