import CallgentApi.Billing.Transactions
import Mathlib.Algebra.Order.BigOperators.Group.List

/-!
# Payments by Stripe

Stripe delivers an event any number of times and in any order.  A completed
checkout session is recharged under its id, which only one transaction can
have.
-/

namespace CallgentApi
namespace Billing

open Js Event Cached HalfAway

/-! ## `BillingService` -/

structure CheckoutSession where
  id : Text
  currency : Option Text
  metadata : Option (Option Text)
  amountTotal : Option Int
  json : Json

inductive StripeEvent where
  | completed (session : CheckoutSession)
  | asyncPaymentFailed (session : Json)
  | expired (session : Json)
  | other (type : Text)

inductive Warning where
  | failedOrExpired (session : Json)
  | unhandled (type : Text)

/-- A webhook that returns has changed the tables and logged warnings. -/
abbrev Handled := Except Thrown (Ledger × List Warning)

/-- `$1 = 1e11`; the total is in cents and none counts as zero. -/
def CheckoutSession.amount (session : CheckoutSession) : Int :=
  session.amountTotal.getD 0 * 10 ^ 9

/-- `addRecharge` up to `TransactionsService.create`. -/
def recharge (session : CheckoutSession) : Except Thrown CreateTransactionDto :=
  match session.metadata with
  | none => .error (.readUndefined "userid".toList)
  | some userid =>
      match truthy (some session.id), truthy userid, session.currency with
      | some txId, some userId, some currency =>
          .ok {
            txId := txId
            refData := some session.json
            type := .recharge
            amount := .finite session.amount
            currency := currency
            userId := userId }
      | some _, some _, none => .error (databaseError "P2012".toList)
      | _, _, _ => .error (.badRequest "Bad Request".toList)

def addRecharge (l : Ledger) (session : CheckoutSession) :
    Except Thrown Ledger := do
  create l (← recharge session)

def onUnhandled (l : Ledger) (type : Text) (warnings : List Warning) :
    Handled :=
  .ok (l, warnings ++ [.unhandled type])

/-- No case ends with a `break`. -/
def onFailedOrExpired (l : Ledger) (type : Text) (session : Json) : Handled :=
  onUnhandled l type [.failedOrExpired session]

def onCompleted (l : Ledger) (type : Text) (session : CheckoutSession) :
    Handled := do
  let l ← addRecharge l session
  onFailedOrExpired l type session.json

def handleStripeWebhook (l : Ledger) : StripeEvent -> Handled
  | .completed session =>
      onCompleted l "checkout.session.completed".toList session
  | .asyncPaymentFailed session =>
      onFailedOrExpired l "checkout.session.async_payment_failed".toList session
  | .expired session =>
      onFailedOrExpired l "checkout.session.expired".toList session
  | .other type => onUnhandled l type []

/-- The tables after a delivery; one that throws is rolled back. -/
def processed (l : Ledger) (event : StripeEvent) : Ledger :=
  match handleStripeWebhook l event with
  | .ok (l', _) => l'
  | .error _ => l

def deliver (l : Ledger) (events : List StripeEvent) : Ledger :=
  events.foldl processed l

/-! ## What a session is worth -/

/-- The transactions by their ids, without the keys the database gives. -/
def contents (l : Ledger) : List (Text × Transaction) :=
  l.transactions.rows.map fun row => (row.key, row.value)

/-- The row that a session adds to the tables, whatever else is added before
it. -/
def creditOf (l : Ledger) (session : CheckoutSession) :
    Option (Text × Transaction) :=
  match recharge session with
  | .error _ => none
  | .ok dto =>
      match getTenant l dto.userId with
      | none => none
      | some tenant =>
          if dto.type.allows dto.amount && dto.fits &&
              (l.transactions.findUnique dto.txId).isNone &&
              (column session.amount).isSome then
            some (dto.txId, dto.row tenant.pk session.amount)
          else none

/-- The sum that sessions add to the balance of a tenant. -/
def due (l : Ledger) (tenantPk : Nat) (sessions : List CheckoutSession) : Int :=
  (((sessions.filterMap (creditOf l)).filter fun credit =>
    credit.2.tenantPk = tenantPk).map fun credit => credit.2.amount).sum

/-- The columns have room for the balances and for what sessions add. -/
def Room (l : Ledger) (sessions : List CheckoutSession) : Prop :=
  forall tenant, tenant ∈ l.tenants.rows ->
    tenant.value.balance.natAbs < 10 ^ 30 ∧
      tenant.value.balance + due l tenant.pk sessions < 10 ^ 30

structure SameBooks (l l' : Ledger) : Prop where
  tenants : l.tenants.rows = l'.tenants.rows
  transactions : (contents l).Perm (contents l')

/-- The tables after sessions that have been delivered, each counted once. -/
structure Delivered (start : Ledger) (done : List CheckoutSession)
    (l : Ledger) : Prop where
  users : l.users = start.users
  tenants : l.tenants.rows = start.tenants.rows.map fun tenant =>
    { tenant with
      value := ⟨tenant.value.balance + due start tenant.pk done⟩ }
  rows : contents l = contents start ++ done.filterMap (creditOf start)

theorem SameBooks.of_delivered {start l l' : Ledger}
    {done done' : List CheckoutSession} (h : Delivered start done l)
    (h' : Delivered start done' l') (hperm : done.Perm done') :
    SameBooks l l' := by
  have hcredits := hperm.filterMap (creditOf start)
  constructor
  · rw [h.tenants, h'.tenants]
    apply List.map_congr_left
    intro tenant _
    have hdue : due start tenant.pk done = due start tenant.pk done' :=
      ((hcredits.filter _).map _).sum_eq
    rw [hdue]
  · rw [h.rows, h'.rows]
    exact hcredits.append_left _

theorem delivered_nil (start : Ledger) : Delivered start [] start where
  users := rfl
  tenants := by
    conv_lhs => rw [← List.map_id start.tenants.rows]
    apply List.map_congr_left
    intro tenant _
    show tenant = { tenant with value := ⟨tenant.value.balance + 0⟩ }
    rw [Int.add_zero]
  rows := (List.append_nil _).symm

/-! ## A delivery -/

theorem of_recharge {session : CheckoutSession} {dto : CreateTransactionDto}
    (h : recharge session = .ok dto) :
    dto.txId = session.id ∧ dto.amount = .finite session.amount ∧
      dto.type = .recharge := by
  unfold recharge at h
  split at h
  · cases h
  · split at h
    · rename_i txId userId currency htxId _ _
      have hid : session.id = txId :=
        Option.some.inj (Option.filter_eq_some_iff.mp htxId).left
      cases h
      exact ⟨hid.symm, rfl, rfl⟩
    · cases h
    · cases h

theorem creditOf_eq_some_iff {l : Ledger} {session : CheckoutSession}
    {dto : CreateTransactionDto} (hdto : recharge session = .ok dto)
    {credit : Text × Transaction} :
    creditOf l session = some credit <->
      exists tenant, getTenant l dto.userId = some tenant ∧
        dto.type.allows dto.amount = true ∧ dto.fits = true ∧
        l.transactions.findUnique dto.txId = none ∧
        (column session.amount).isSome ∧
        credit = (dto.txId, dto.row tenant.pk session.amount) := by
  unfold creditOf
  rw [hdto]
  cases htenant : getTenant l dto.userId with
  | none => simp [htenant]
  | some tenant =>
      simp only [htenant, Option.some.injEq, exists_eq_left']
      split
      · rename_i h
        simp only [Bool.and_eq_true, Option.isNone_iff_eq_none] at h
        simp [h, eq_comm]
      · rename_i h
        simp only [Bool.and_eq_true, Option.isNone_iff_eq_none] at h
        simp only [reduceCtorEq, false_iff]
        rintro ⟨hallows, hfits, hunused, hcolumn, _⟩
        exact h ⟨⟨⟨hallows, hfits⟩, hunused⟩, hcolumn⟩

theorem key_of_creditOf {l : Ledger} {session : CheckoutSession}
    {credit : Text × Transaction} (h : creditOf l session = some credit) :
    credit.1 = session.id := by
  cases hdto : recharge session with
  | error e =>
      unfold creditOf at h
      rw [hdto] at h
      cases h
  | ok dto =>
      rcases (creditOf_eq_some_iff hdto).mp h with
        ⟨tenant, _, _, _, _, _, heq⟩
      rw [heq]
      exact (of_recharge hdto).left

theorem findUnique_eq_none_iff {l : Ledger} {txId : Text} :
    l.transactions.findUnique txId = none <->
      txId ∉ (contents l).map Prod.fst := by
  unfold Table.findUnique contents
  simp [List.find?_eq_none]

def paid (start : Ledger) (done : List CheckoutSession) (tenant : TenantRow) :
    TenantRow :=
  { tenant with value := ⟨tenant.value.balance + due start tenant.pk done⟩ }

theorem processed_of_recharge {l : Ledger} {session : CheckoutSession}
    {dto : CreateTransactionDto} (h : recharge session = .ok dto) :
    some (processed l (.completed session)) = step l dto := by
  have hhandled : handleStripeWebhook l (.completed session) =
      create l dto >>= fun l =>
        onFailedOrExpired l "checkout.session.completed".toList
          session.json := by
    show onCompleted l _ session = _
    unfold onCompleted addRecharge
    rw [h]
    rfl
  unfold processed step
  rw [hhandled]
  cases create l dto with
  | error e => rfl
  | ok l' => rfl

theorem processed_eq_self {l : Ledger} {session : CheckoutSession}
    (h : forall dto, recharge session = .ok dto -> forall tenant value,
      ¬ Accepts l dto tenant value) :
    processed l (.completed session) = l := by
  cases hdto : recharge session with
  | error e =>
      unfold processed
      show (match (onCompleted l _ session : Handled) with
        | .ok (l', _) => l'
        | .error _ => l) = l
      unfold onCompleted addRecharge
      rw [hdto]
      rfl
  | ok dto =>
      have hprocessed := processed_of_recharge (l := l) hdto
      unfold step at hprocessed
      cases hcreate : create l dto with
      | error e =>
          rw [hcreate] at hprocessed
          exact Option.some.inj hprocessed
      | ok l' =>
          rcases create_eq_ok_iff.mp hcreate with ⟨tenant, value, haccepts, _⟩
          exact absurd haccepts (h dto hdto tenant value)

theorem processed_of_not_completed {l : Ledger} {event : StripeEvent}
    (h : forall session, event ≠ .completed session) :
    processed l event = l := by
  cases event with
  | completed session => exact absurd rfl (h session)
  | asyncPaymentFailed session => rfl
  | expired session => rfl
  | other type => rfl

section Delivery

variable {start l : Ledger} {done : List CheckoutSession}
  {session : CheckoutSession}

theorem Delivered.getTenant_eq (h : Delivered start done l) (userId : Text) :
    getTenant l userId = (getTenant start userId).map (paid start done) := by
  unfold getTenant
  rw [h.users]
  split
  · rfl
  · cases start.users.findUnique userId with
    | none => rfl
    | some user =>
        show l.tenants.rows.find? _ =
          (start.tenants.rows.find? _).map (paid start done)
        rw [h.tenants, List.find?_map]
        rfl

theorem Delivered.creditOf_of_accepts (h : Delivered start done l)
    {dto : CreateTransactionDto} (hdto : recharge session = .ok dto)
    {tenant : TenantRow} {value : Rat} (haccepts : Accepts l dto tenant value) :
    exists credit, creditOf start session = some credit := by
  have hpayer := haccepts.payer
  have hunused := findUnique_eq_none_iff.mp haccepts.unused
  have hvalue := Decimal.finite.inj
    ((of_recharge hdto).right.left.symm.trans haccepts.finite)
  have hamount := haccepts.amount
  rw [← hvalue] at hamount
  rw [h.getTenant_eq] at hpayer
  rw [h.rows, List.map_append, List.mem_append, not_or] at hunused
  rcases Option.map_eq_some_iff.mp hpayer with ⟨before, hbefore, _⟩
  exact ⟨_, (creditOf_eq_some_iff hdto).mpr ⟨before, hbefore,
    haccepts.allowed, haccepts.fits,
    findUnique_eq_none_iff.mpr hunused.left, hamount, rfl⟩⟩

theorem Delivered.processed_of_mem (h : Delivered start done l)
    (hmem : session ∈ done) : processed l (.completed session) = l := by
  apply processed_eq_self
  intro dto hdto tenant value haccepts
  rcases h.creditOf_of_accepts hdto haccepts with ⟨credit, hcredit⟩
  have hcontents : credit ∈ contents l := by
    rw [h.rows]
    exact List.mem_append_right _
      (List.mem_filterMap.mpr ⟨session, hmem, hcredit⟩)
  have hkey := (key_of_creditOf hcredit).trans (of_recharge hdto).left.symm
  have hunused := findUnique_eq_none_iff.mp haccepts.unused
  rw [← hkey] at hunused
  exact hunused (List.mem_map_of_mem hcontents)

theorem due_append (start : Ledger) (tenantPk : Nat)
    (done : List CheckoutSession) (session : CheckoutSession) :
    due start tenantPk (done ++ [session]) =
      due start tenantPk done + due start tenantPk [session] := by
  unfold due
  rw [List.filterMap_append, List.filter_append, List.map_append,
    List.sum_append]

theorem Delivered.skip (h : Delivered start done l)
    (hnone : creditOf start session = none) :
    Delivered start (done ++ [session]) (processed l (.completed session)) := by
  have hsame : processed l (.completed session) = l := by
    apply processed_eq_self
    intro dto hdto tenant value haccepts
    rcases h.creditOf_of_accepts hdto haccepts with ⟨credit, hcredit⟩
    rw [hnone] at hcredit
    cases hcredit
  have hcredits : [session].filterMap (creditOf start) = [] := by
    rw [List.filterMap_cons, hnone]
    rfl
  rw [hsame]
  constructor
  · exact h.users
  · rw [h.tenants]
    apply List.map_congr_left
    intro tenant _
    have hdue : due start tenant.pk [session] = 0 := by
      unfold due
      rw [hcredits]
      rfl
    rw [due_append, hdue, Int.add_zero]
  · rw [h.rows, List.filterMap_append, hcredits, List.append_nil]

theorem Delivered.credit (h : Delivered start done l)
    {credit : Text × Transaction}
    (hcredit : creditOf start session = some credit)
    (hnew : forall other, other ∈ done -> other.id ≠ session.id)
    (hroom : forall tenant, tenant ∈ start.tenants.rows ->
      (tenant.value.balance +
        due start tenant.pk (done ++ [session])).natAbs < 10 ^ 30) :
    Delivered start (done ++ [session]) (processed l (.completed session)) := by
  cases hdto : recharge session with
  | error e =>
      unfold creditOf at hcredit
      rw [hdto] at hcredit
      cases hcredit
  | ok dto =>
      rcases of_recharge hdto with ⟨htxId, hamount, _⟩
      rcases (creditOf_eq_some_iff hdto).mp hcredit with
        ⟨tenant, htenant, hallows, hfits, hunused, hcolumn, heq⟩
      have hcredits : [session].filterMap (creditOf start) = [credit] := by
        rw [List.filterMap_cons, hcredit]
        rfl
      have hdue : forall pk, due start pk [session] =
          if tenant.pk = pk then session.amount else 0 := by
        intro pk
        unfold due
        rw [hcredits, heq]
        by_cases hpk : tenant.pk = pk
        · simp [CreateTransactionDto.row, hpk]
        · simp [CreateTransactionDto.row, hpk]
      have hfree : l.transactions.findUnique dto.txId = none := by
        rw [findUnique_eq_none_iff, h.rows, List.map_append,
          List.mem_append, not_or]
        refine ⟨findUnique_eq_none_iff.mp hunused, ?_⟩
        intro hmem
        rcases List.mem_map.mp hmem with ⟨other, hother, hkey⟩
        rcases List.mem_filterMap.mp hother with ⟨before, hbefore, hof⟩
        apply hnew before hbefore
        rw [← key_of_creditOf hof, hkey, htxId]
      have hpayer : getTenant l dto.userId =
          some (paid start done tenant) := by
        rw [h.getTenant_eq, htenant]
        rfl
      have hbalance : ((paid start done tenant).value.balance : Rat) +
          (session.amount : Rat) =
            ((tenant.value.balance +
              due start tenant.pk (done ++ [session]) : Int) : Rat) := by
        rw [due_append, hdue, if_pos rfl]
        show ((tenant.value.balance + due start tenant.pk done : Int) : Rat) +
          _ = _
        push_cast
        rw [add_assoc]
      have haccepts : Accepts l dto (paid start done tenant)
          (session.amount : Rat) := by
        refine ⟨hpayer, hamount, hallows, hfits, hfree, hcolumn, ?_⟩
        rw [hbalance]
        unfold column
        rw [roundAway_intCast, if_pos (hroom tenant (mem_of_getTenant htenant))]
        rfl
      have hprocessed := processed_of_recharge (l := l) hdto
      rw [step_of_accepts haccepts] at hprocessed
      rw [Option.some.inj hprocessed]
      constructor
      · exact h.users
      · show l.tenants.rows.map _ = _
        rw [h.tenants, List.map_map]
        apply List.map_congr_left
        intro row hrow
        show Table.editRow (paid start done tenant).pk _
          (paid start done row) = _
        rw [due_append, hdue, hbalance]
        unfold Table.editRow
        by_cases hpk : row.pk = tenant.pk
        · have hsame := Table.eq_of_pk hrow (mem_of_getTenant htenant) hpk
          rw [hsame, if_pos rfl, if_pos rfl, roundAway_intCast, due_append,
            hdue, if_pos rfl]
          rfl
        · have hne : ¬ (paid start done row).pk = (paid start done tenant).pk :=
            hpk
          rw [if_neg hne, if_neg (Ne.symm hpk), Int.add_zero]
          rfl
      · show (l.transactions.rows ++ [_]).map
          (fun row : TransactionRow => (row.key, row.value)) = _
        rw [List.map_append, List.filterMap_append, hcredits, heq,
          ← List.append_assoc, ← h.rows]
        rfl

end Delivery

/-! ## Any number of deliveries -/

theorem creditOf_nonneg {l : Ledger} {session : CheckoutSession}
    {credit : Text × Transaction} (h : creditOf l session = some credit) :
    0 ≤ credit.2.amount := by
  cases hdto : recharge session with
  | error e =>
      unfold creditOf at h
      rw [hdto] at h
      cases h
  | ok dto =>
      rcases of_recharge hdto with ⟨_, hamount, htype⟩
      rcases (creditOf_eq_some_iff hdto).mp h with
        ⟨tenant, _, hallows, _, _, _, heq⟩
      rw [htype, hamount] at hallows
      have hnonneg : 0 ≤ session.amount := by
        simpa [TransactionType.allows, Decimal.ltZero] using hallows
      rw [heq]
      show 0 ≤ roundAway (session.amount : Rat)
      rw [roundAway_intCast]
      exact hnonneg

theorem due_le_of_subset {start : Ledger} {tenantPk : Nat}
    {done once : List CheckoutSession} (hnodup : done.Nodup)
    (hsubset : done ⊆ once) :
    due start tenantPk done ≤ due start tenantPk once := by
  rcases List.subperm_of_subset hnodup hsubset with ⟨part, hperm, hpart⟩
  have hsame : due start tenantPk done = due start tenantPk part :=
    (((hperm.symm.filterMap _).filter _).map _).sum_eq
  rw [hsame]
  apply (((hpart.filterMap _).filter _).map _).sum_le_sum
  intro amount hmem
  rcases List.mem_map.mp hmem with ⟨credit, hcredit, heq⟩
  rcases List.mem_filterMap.mp (List.mem_filter.mp hcredit).left with
    ⟨session, _, hof⟩
  rw [← heq]
  exact creditOf_nonneg hof

theorem Room.natAbs_lt {start : Ledger} {done once : List CheckoutSession}
    (h : Room start once) (hnodup : done.Nodup) (hsubset : done ⊆ once)
    {tenant : TenantRow} (htenant : tenant ∈ start.tenants.rows) :
    (tenant.value.balance + due start tenant.pk done).natAbs < 10 ^ 30 := by
  rcases h tenant htenant with ⟨hbalance, hall⟩
  have hle : due start tenant.pk done ≤ due start tenant.pk once :=
    due_le_of_subset hnodup hsubset
  have hnonneg : due start tenant.pk [] ≤ due start tenant.pk done :=
    due_le_of_subset List.nodup_nil (List.nil_subset _)
  have hzero : due start tenant.pk [] = 0 := rfl
  omega

theorem Delivered.deliver {start : Ledger} {once : List CheckoutSession}
    (hids : forall s t, s ∈ once -> t ∈ once -> s.id = t.id -> s = t)
    (hroom : Room start once) {events : List StripeEvent}
    (hevents : forall s, StripeEvent.completed s ∈ events -> s ∈ once)
    {done : List CheckoutSession} {l : Ledger} (h : Delivered start done l)
    (hnodup : done.Nodup) (hsubset : done ⊆ once) :
    exists done', done'.Nodup ∧
      (forall s, s ∈ done' <->
        s ∈ done ∨ StripeEvent.completed s ∈ events) ∧
      Delivered start done' (events.foldl processed l) := by
  induction events generalizing done l with
  | nil =>
      exists done
      constructor
      · exact hnodup
      · simpa using h
  | cons event rest ih =>
      have hrest : forall s, StripeEvent.completed s ∈ rest -> s ∈ once :=
        fun s hs => hevents s (List.mem_cons_of_mem event hs)
      by_cases hcompleted : exists session, event = .completed session
      · rcases hcompleted with ⟨session, rfl⟩
        have hof := hevents session List.mem_cons_self
        by_cases hmem : session ∈ done
        · -- delivered before
          rcases ih hrest h hnodup hsubset with
            ⟨done', hnodup', hiff, hdelivered⟩
          refine ⟨done', hnodup', ?_, ?_⟩
          · intro s
            rw [hiff, List.mem_cons, StripeEvent.completed.injEq]
            constructor
            · rintro (hs | hs)
              · exact Or.inl hs
              · exact Or.inr (Or.inr hs)
            · rintro (hs | rfl | hs)
              · exact Or.inl hs
              · exact Or.inl hmem
              · exact Or.inr hs
          · rw [List.foldl_cons, h.processed_of_mem hmem]
            exact hdelivered
        · have hnodup' : (done ++ [session]).Nodup :=
            List.nodup_append.mpr ⟨hnodup, List.nodup_singleton session,
              fun s hs t ht => by
                rw [List.mem_singleton.mp ht]
                exact fun heq => hmem (heq ▸ hs)⟩
          have hsubset' : done ++ [session] ⊆ once :=
            List.append_subset.mpr ⟨hsubset, List.cons_subset.mpr
              ⟨hof, List.nil_subset _⟩⟩
          have hnext : Delivered start (done ++ [session])
              (processed l (.completed session)) := by
            cases hcredit : creditOf start session with
            | none => exact h.skip hcredit
            | some credit =>
                apply h.credit hcredit
                · intro other hother hid
                  exact hmem (hids other session (hsubset hother) hof hid ▸
                    hother)
                · intro tenant htenant
                  exact hroom.natAbs_lt hnodup' hsubset' htenant
          rcases ih hrest hnext hnodup' hsubset' with
            ⟨done', hnodup'', hiff, hdelivered⟩
          refine ⟨done', hnodup'', ?_, hdelivered⟩
          intro s
          rw [hiff, List.mem_append, List.mem_singleton, List.mem_cons,
            StripeEvent.completed.injEq, or_assoc]
      · have hnot : forall session, event ≠ .completed session :=
          fun session heq => hcompleted ⟨session, heq⟩
        rcases ih hrest h hnodup hsubset with
          ⟨done', hnodup', hiff, hdelivered⟩
        refine ⟨done', hnodup', ?_, ?_⟩
        · intro s
          rw [hiff, List.mem_cons, or_iff_right (Ne.symm (hnot s))]
        · rw [List.foldl_cons, processed_of_not_completed hnot]
          exact hdelivered

/-- Completed sessions that are delivered any number of times and in any order
leave the books as when each is processed once, as long as the balances have
room for all of them; no other event changes the tables. -/
theorem sameBooks_deliver {start : Ledger} {events : List StripeEvent}
    {once : List CheckoutSession}
    (hids : forall s t, s ∈ once -> t ∈ once -> s.id = t.id -> s = t)
    (honce : forall s, s ∈ once <-> StripeEvent.completed s ∈ events)
    (hroom : Room start once) :
    SameBooks (deliver start events)
        (deliver start (once.map .completed)) ∧
      forall l event, (forall session, event ≠ .completed session) ->
        processed l event = l := by
  constructor
  · have hstart := delivered_nil start
    have hmap : forall s, StripeEvent.completed s ∈ once.map .completed <->
        s ∈ once := by
      intro s
      simp
    rcases hstart.deliver hids hroom (fun s hs => (honce s).mpr hs)
      List.nodup_nil (List.nil_subset _) with ⟨done, hdone, hiff, hdelivered⟩
    rcases hstart.deliver hids hroom (fun s hs => (hmap s).mp hs)
      List.nodup_nil (List.nil_subset _) with
      ⟨done', hdone', hiff', hdelivered'⟩
    apply SameBooks.of_delivered hdelivered hdelivered'
    apply (List.perm_ext_iff_of_nodup hdone hdone').mpr
    intro s
    rw [hiff, hiff', hmap, honce]
  · exact fun l event h => processed_of_not_completed h

/-! ## Two sessions -/

def sessionOf (id : Text) (cents : Int) : CheckoutSession where
  id := id
  currency := some "usd".toList
  metadata := some (some "u1".toList)
  amountTotal := some cents
  json := .obj [("id".toList, .str id)]

def small : CheckoutSession := sessionOf "cs_1".toList 1

def large : CheckoutSession := sessionOf "cs_2".toList 2

/-- Both sessions, one of them twice, and one that has expired. -/
def deliveries : List StripeEvent :=
  [.completed small, .completed large, .completed small, .expired .null]

theorem eq_of_id : forall s t, s ∈ [large, small] -> t ∈ [large, small] ->
    s.id = t.id -> s = t := by
  intro s t hs ht hid
  simp only [List.mem_cons, List.not_mem_nil, or_false] at hs ht
  rcases hs with rfl | rfl <;> rcases ht with rfl | rfl
  · rfl
  · exact absurd hid (by decide)
  · exact absurd hid (by decide)
  · rfl

theorem mem_deliveries (s : CheckoutSession) :
    s ∈ [large, small] <-> StripeEvent.completed s ∈ deliveries := by
  unfold deliveries
  simp only [List.mem_cons, List.not_mem_nil, StripeEvent.completed.injEq,
    reduceCtorEq, or_false]
  tauto

theorem sameBooks_deliveries :
    SameBooks (deliver (oneTenant 0) deliveries)
      (deliver (oneTenant 0) [.completed large, .completed small]) := by
  have hroom : Room (oneTenant 0) [large, small] := by
    intro tenant htenant
    rw [List.mem_singleton.mp htenant]
    decide +kernel
  exact (sameBooks_deliver eq_of_id mem_deliveries hroom).left

/-- Near the end of the range of the column there is room for one of two
payments, which is the one that comes first. -/
theorem order_counts :
    (forall s, s ∈ [large, small] <-> StripeEvent.completed s ∈ deliveries) ∧
      (forall s t, s ∈ [large, small] -> t ∈ [large, small] ->
        s.id = t.id -> s = t) ∧
      ¬ SameBooks (deliver (oneTenant (10 ^ 30 - 2500000000)) deliveries)
        (deliver (oneTenant (10 ^ 30 - 2500000000))
          [.completed large, .completed small]) := by
  refine ⟨mem_deliveries, eq_of_id, ?_⟩
  intro h
  have hbalances := congrArg
    (List.map fun tenant : TenantRow => tenant.value.balance) h.tenants
  revert hbalances
  decide +kernel

end Billing
end CallgentApi
