import CallgentApi.Billing.Stripe

/-!
# The expense of a completion

The answer of the language model is handed back before it is billed.  Billing
reads a price for the model that the service reports and the usage it reports;
what it throws reaches nobody.
-/

namespace CallgentApi
namespace Billing

open Js Event Cached HalfAway

abbrev Fields := List (Text × Json)

structure ModelPricing where
  model : Text
  provider : Text
  price : Json
  currency : Text
  method : Text

/-- The prices there are; no two are for the same model and provider. -/
structure PriceList where
  rows : List ModelPricing
  unique : rows.Pairwise fun a b => (a.model, a.provider) ≠ (b.model, b.provider)

/-- A pricing function gives a number for a usage and a price, where something
else than a number is not a number. -/
abbrev Pricing := Option Json -> Json -> Except Thrown Decimal

/-- `Utils.toFunction`: the function that a text evaluates to, if any. -/
abbrev Evaluator := Text -> Option Pricing

/-- What billing finds in the database, and the functions it evaluates. -/
structure Prices where
  list : PriceList
  toFunction : Evaluator

structure LlmCompletionEvent where
  paidBy : Text
  res : Option Fields

/-! ## `BillingService.addModelExpense` -/

/-- `where: { model }`; a filter that is undefined is left out. -/
def modelFilter : Option Json -> Except Thrown (ModelPricing -> Bool)
  | none => .ok fun _ => true
  | some (.str model) => .ok fun row => row.model == model
  | some _ => .error (databaseError "P2009".toList)

/-- `!m.provider || m.provider === provider`. -/
def ofProvider (provider : Option Json) (row : ModelPricing) : Bool :=
  row.provider.isEmpty ||
    match provider with
    | some (.str name) => row.provider == name
    | _ => false

def selectPricing (rows : List ModelPricing) : Option ModelPricing :=
  match rows with
  | [] => none
  | [row] => some row
  | rows => rows.find? fun row => !row.provider.isEmpty

def findPricing (prices : PriceList) (model provider : Option Json) :
    Except Thrown ModelPricing := do
  let isModel ← modelFilter model
  let models := (prices.rows.filter isModel).filter (ofProvider provider)
  if models.isEmpty then
    throw (.badRequest ("ModelPricing not found: ".toList ++
      (model.map Json.display).getD "undefined".toList))
  match selectPricing models with
  | none => .error (.readUndefined "price".toList)
  | some pricing => .ok pricing

/-- `_calcModelAmount`. -/
def calcModelAmount (toFunction : Evaluator) (usage : Option Json)
    (pricing : ModelPricing) : Except Thrown Decimal := do
  match toFunction pricing.method with
  | none => .error (.plain "Invalid function code, msg: ".toList)
  | some method =>
      let amount ← method usage pricing.price
      if amount.gtZero then return amount
      else
        throw (.plain ("Invalid amount, usage: ".toList ++
          (usage.map Json.stringify).getD "undefined".toList))

/-- `txId` is written into a column of texts. -/
def textOf : Option Json -> Except Thrown Text
  | some (.str s) =>
      if s.isEmpty then .error (.badRequest "Bad Request".toList) else .ok s
  | some v =>
      if v.truthy then .error (databaseError "P2009".toList)
      else .error (.badRequest "Bad Request".toList)
  | none => .error (.badRequest "Bad Request".toList)

def addModelExpense (prices : Prices) (l : Ledger) (txId : Option Json)
    (userId : Text) (refData : Fields) : Except Thrown Ledger := do
  if userId.isEmpty then throw (.badRequest "Bad Request".toList)
  let txId ← textOf txId
  let pricing ← findPricing prices.list (refData.lookup "model".toList)
    (refData.lookup "provider".toList)
  let amount ← calcModelAmount prices.toFunction
    (refData.lookup "usage".toList) pricing
  create l {
    txId := txId
    refData := some (.obj (Json.setField refData "price".toList pricing.price))
    type := .expense
    amount := amount.negated
    currency := pricing.currency
    userId := userId }

/-- `LlmCompletionListener.handleLlmCompletion`; `choices` is undefined, which
no text of an object holds. -/
def handleLlmCompletion (prices : Prices) (l : Ledger)
    (event : LlmCompletionEvent) : Except Thrown Ledger :=
  match event.res with
  | none => do
      let _ ← check l event.paidBy
      return l
  | some res =>
      addModelExpense prices l (res.lookup "id".toList) event.paidBy
        (res.filter fun field => field.1 != "choices".toList)

/-! ## `LLMService._completion` -/

structure CompletionContext where
  bizKey : Text
  template : Text

def zeroUsage : Json :=
  .obj (["completion_tokens", "prompt_tokens", "total_tokens", "total_cost"].map
    fun key => (key.toList, .num (.ofInt 0)))

def timedUsage (usage : Option Json) (duration : Nat) : Except Thrown Json :=
  match usage.filter Json.truthy with
  | none => .ok (match zeroUsage with
      | .obj fields =>
          .obj (Json.setField fields "duration".toList
            (.num (.ofInt duration)))
      | other => other)
  | some (.obj fields) =>
      .ok (.obj (Json.setField fields "duration".toList
        (.num (.ofInt duration))))
  | some (.arr items) => .ok (.arr items)
  | some _ => .error (.typeError "Cannot create property 'duration'".toList)

/-- The response as it is handed back, and the event for billing. -/
def completion (prices : Prices) (l : Ledger) (paidBy : Text)
    (ctx : CompletionContext) (answer : Except Thrown Fields) (duration : Nat) :
    Except Thrown (Fields × LlmCompletionEvent) := do
  let _ ← handleLlmCompletion prices l ⟨paidBy, none⟩
  let data ← answer
  let usage ← timedUsage (data.lookup "usage".toList) duration
  let data := Json.setField data "usage".toList usage
  let billed := Json.setField
    (Json.setField data "bizKey".toList (.str ctx.bizKey))
    "template".toList (.str ctx.template)
  return (data, ⟨paidBy, some billed⟩)

/-- The tables after billing, which runs on its own. -/
def billed (prices : Prices) (l : Ledger) (event : LlmCompletionEvent) :
    Ledger :=
  match handleLlmCompletion prices l event with
  | .ok l' => l'
  | .error _ => l

/-! ## What is billed -/

/-- One expense is recorded, the only transaction with the id of the
response. -/
def BilledOnce (l l' : Ledger) (res : Fields) (paidBy : Text) : Prop :=
  exists txId row tenant, res.lookup "id".toList = some (.str txId) ∧
    contents l' = contents l ++ [(txId, row)] ∧
    txId ∉ (contents l).map Prod.fst ∧
    row.type = .expense ∧ row.amount < 0 ∧
    getTenant l paidBy = some tenant ∧ row.tenantPk = tenant.pk

/-- There is a price for what the service reports, it comes to at least half a
unit, and the transaction has room in the tables. -/
def Billable (prices : Prices) (l : Ledger) (res : Fields) (paidBy : Text) :
    Prop :=
  exists txId tenant pricing method value,
    res.lookup "id".toList = some (.str txId) ∧ txId ≠ [] ∧
    getTenant l paidBy = some tenant ∧
    findPricing prices.list (res.lookup "model".toList)
      (res.lookup "provider".toList) = .ok pricing ∧
    prices.toFunction pricing.method = some method ∧
    method (res.lookup "usage".toList) pricing.price =
      .ok (.finite value) ∧
    1 / 2 ≤ value ∧
    (txId.length ≤ 150 ∧ pricing.currency.length ≤ 6 ∧
      paidBy.length ≤ 30) ∧
    txId ∉ (contents l).map Prod.fst ∧
    (column (-value)).isSome ∧
    (column (tenant.value.balance + -value)).isSome

theorem lookup_filter_of_ne {key other : Text} (h : other ≠ key)
    (fields : Fields) :
    (fields.filter fun field => field.1 != key).lookup other =
      fields.lookup other := by
  induction fields with
  | nil => rfl
  | cons field rest ih =>
      rcases field with ⟨name, value⟩
      by_cases hname : name = key
      · have hdrop : (name != key) = false := by simp [hname]
        have hother : (other == name) = false := by
          rw [hname]
          exact beq_false_of_ne h
        rw [List.filter_cons, hdrop, List.lookup_cons, hother]
        exact ih
      · have hkeep : (name != key) = true := by simp [hname]
        rw [List.filter_cons, hkeep, if_pos rfl, List.lookup_cons,
          List.lookup_cons, ih]

theorem textOf_eq_ok_iff {v : Option Json} {txId : Text} :
    textOf v = .ok txId <-> v = some (.str txId) ∧ txId ≠ [] := by
  unfold textOf
  split
  · rename_i s
    cases s with
    | nil =>
        constructor
        · intro h
          cases h
        · intro h
          exact absurd (Json.str.inj (Option.some.inj h.left)).symm h.right
    | cons c rest =>
        constructor
        · intro h
          cases h
          exact ⟨rfl, List.cons_ne_nil _ _⟩
        · intro h
          rw [Json.str.inj (Option.some.inj h.left)]
          exact if_neg (by simpa using h.right)
  · rename_i v hv
    constructor
    · intro h
      split at h
      · cases h
      · cases h
    · intro h
      exact absurd (Option.some.inj h.left) (hv txId)
  · constructor
    · intro h
      cases h
    · intro h
      cases h.left

theorem calcModelAmount_eq_ok_iff {toFunction : Evaluator}
    {usage : Option Json} {pricing : ModelPricing} {amount : Decimal} :
    calcModelAmount toFunction usage pricing = .ok amount <->
      exists method, toFunction pricing.method = some method ∧
        method usage pricing.price = .ok amount ∧ amount.gtZero = true := by
  constructor
  · intro h
    unfold calcModelAmount at h
    split at h
    · cases h
    · rename_i method hmethod
      rcases Fallible.exists_of_bind_ok h with ⟨d, hd, h⟩
      split at h
      · rename_i hpositive
        cases h
        exact ⟨method, hmethod, hd, hpositive⟩
      · cases h
  · rintro ⟨method, hmethod, hok, hpositive⟩
    unfold calcModelAmount
    rw [hmethod]
    dsimp only
    rw [hok]
    show (if amount.gtZero = true then _ else _) = _
    rw [if_pos hpositive]
    rfl

def expenseDto (txId userId : Text) (refData : Fields) (pricing : ModelPricing)
    (amount : Decimal) : CreateTransactionDto where
  txId := txId
  refData := some (.obj (Json.setField refData "price".toList pricing.price))
  type := .expense
  amount := amount.negated
  currency := pricing.currency
  userId := userId

theorem addModelExpense_eq_ok_iff {prices : Prices} {l l' : Ledger}
    {txId : Option Json} {userId : Text} {refData : Fields} :
    addModelExpense prices l txId userId refData = .ok l' <->
      userId ≠ [] ∧ exists id pricing amount,
        textOf txId = .ok id ∧
        findPricing prices.list (refData.lookup "model".toList)
          (refData.lookup "provider".toList) = .ok pricing ∧
        calcModelAmount prices.toFunction (refData.lookup "usage".toList)
          pricing = .ok amount ∧
        create l (expenseDto id userId refData pricing amount) = .ok l' := by
  constructor
  · intro h
    unfold addModelExpense at h
    split at h
    · cases h
    · rename_i hempty
      rcases Fallible.exists_of_bind_ok h with ⟨id, hid, h⟩
      rcases Fallible.exists_of_bind_ok h with ⟨pricing, hpricing, h⟩
      rcases Fallible.exists_of_bind_ok h with ⟨amount, hamount, h⟩
      have hne : userId ≠ [] := by
        intro hnil
        rw [hnil] at hempty
        exact hempty rfl
      exact ⟨hne, id, pricing, amount, hid, hpricing, hamount, h⟩
  · rintro ⟨hne, id, pricing, amount, hid, hpricing, hamount, h⟩
    unfold addModelExpense
    rw [if_neg (by simpa using hne), hid]
    show (findPricing _ _ _ >>= _) = _
    rw [hpricing]
    show (calcModelAmount _ _ _ >>= _) = _
    rw [hamount]
    exact h

theorem contents_posted {l : Ledger} {dto : CreateTransactionDto}
    {tenant : TenantRow} {value : Rat}
    (h : l.transactions.findUnique dto.txId = none) :
    contents (posted l dto tenant value h) =
      contents l ++ [(dto.txId, dto.row tenant.pk value)] := by
  show (l.transactions.rows ++ [_]).map
    (fun row : TransactionRow => (row.key, row.value)) = _
  rw [List.map_append]
  rfl

theorem expense_allows_negated {amount : Decimal} (h : amount.gtZero = true) :
    TransactionType.allows .expense amount.negated = true := by
  cases amount with
  | finite value =>
      have hvalue : 0 < value := by simpa [Decimal.gtZero] using h
      simpa [TransactionType.allows, Decimal.gtZero, Decimal.negated] using
        hvalue.le
  | infinity => rfl
  | negInfinity => cases h
  | nan => cases h

theorem billedOnce_addModelExpense_iff {prices : Prices} {l : Ledger}
    {res refData : Fields} {paidBy : Text}
    (hmodel : refData.lookup "model".toList = res.lookup "model".toList)
    (hprovider : refData.lookup "provider".toList =
      res.lookup "provider".toList)
    (husage : refData.lookup "usage".toList = res.lookup "usage".toList) :
    (exists l', addModelExpense prices l (res.lookup "id".toList) paidBy
        refData = .ok l' ∧ BilledOnce l l' res paidBy) <->
      Billable prices l res paidBy := by
  rw [show (exists l', addModelExpense prices l (res.lookup "id".toList) paidBy
      refData = .ok l' ∧ BilledOnce l l' res paidBy) <-> _ from
    exists_congr fun l' => and_congr_left' addModelExpense_eq_ok_iff]
  rw [hmodel, hprovider, husage]
  constructor
  · rintro ⟨l', ⟨hne, id, pricing, amount, hid, hpricing, hamount, hcreate⟩,
      txId, row, tenant, htxId, hcontents, hunused, _, hneg, htenant, _⟩
    rcases textOf_eq_ok_iff.mp hid with ⟨hid, hidNe⟩
    have hsame : id = txId := Json.str.inj (Option.some.inj (hid.symm.trans htxId))
    rcases calcModelAmount_eq_ok_iff.mp hamount with
      ⟨method, hmethod, hvalue, _⟩
    rcases create_eq_ok_iff.mp hcreate with
      ⟨payer, negated, haccepts, hposted⟩
    rw [hposted, contents_posted, List.append_right_inj] at hcontents
    have hrow := congrArg Prod.snd (List.cons.inj hcontents).left
    have hpayer : payer = tenant :=
      Option.some.inj (haccepts.payer.symm.trans htenant)
    have hfits := (CreateTransactionDto.fits_iff _).mp haccepts.fits
    have hroom := haccepts.balance
    rw [hpayer] at hroom
    have hrounded : roundAway negated < 0 := by
      rw [← show _ = row from hrow] at hneg
      exact hneg
    cases amount with
    | finite value =>
        have hnegated : -value = negated :=
          Decimal.finite.inj haccepts.finite
        rw [← hnegated, roundAway_neg_iff, neg_le_neg_iff] at hrounded
        rw [← hnegated] at hroom
        have hcolumn := haccepts.amount
        rw [← hnegated] at hcolumn
        rw [hsame] at hfits hidNe
        exact ⟨txId, tenant, pricing, method, value, htxId, hidNe, htenant,
          hpricing, hmethod, hvalue, hrounded, hfits, hunused, hcolumn, hroom⟩
    | infinity => cases haccepts.finite
    | negInfinity => cases haccepts.finite
    | nan => cases haccepts.finite
  · rintro ⟨txId, tenant, pricing, method, value, htxId, htxIdNe, htenant,
      hpricing, hmethod, hvalue, hhalf, hfits, hunused, hcolumn, hroom⟩
    have hpositive : (Decimal.finite value).gtZero = true := by
      have hvalue : (0 : Rat) < value := by linarith
      simpa [Decimal.gtZero] using hvalue
    have hpaidBy : paidBy ≠ [] := by
      intro hnil
      rw [hnil] at htenant
      cases htenant
    have haccepts : Accepts l
        (expenseDto txId paidBy refData pricing (.finite value)) tenant
        (-value) := by
      exact ⟨htenant, rfl, expense_allows_negated hpositive,
        (CreateTransactionDto.fits_iff _).mpr hfits,
        findUnique_eq_none_iff.mpr hunused, hcolumn, hroom⟩
    refine ⟨_, ⟨hpaidBy, txId, pricing, .finite value,
      textOf_eq_ok_iff.mpr ⟨htxId, htxIdNe⟩, hpricing,
      calcModelAmount_eq_ok_iff.mpr ⟨method, hmethod, hvalue, hpositive⟩,
      create_eq_ok_iff.mpr ⟨tenant, -value, haccepts, rfl⟩⟩,
      txId, _, tenant, htxId, contents_posted _, hunused, rfl, ?_, htenant,
      rfl⟩
    exact (roundAway_neg_iff (-value)).mpr (neg_le_neg hhalf)

/-! ## Completions -/

theorem exists_of_completion {prices : Prices} {l : Ledger} {paidBy : Text}
    {ctx : CompletionContext} {answer : Except Thrown Fields} {duration : Nat}
    {res : Fields} {event : LlmCompletionEvent}
    (h : completion prices l paidBy ctx answer duration = .ok (res, event)) :
    event = ⟨paidBy, some (Json.setField
      (Json.setField res "bizKey".toList (.str ctx.bizKey))
      "template".toList (.str ctx.template))⟩ := by
  rcases Fallible.exists_of_bind_ok h with ⟨_, _, h⟩
  rcases Fallible.exists_of_bind_ok h with ⟨data, _, h⟩
  rcases Fallible.exists_of_bind_ok h with ⟨usage, _, h⟩
  cases h
  rfl

def refDataOf (res : Fields) (ctx : CompletionContext) : Fields :=
  (Json.setField (Json.setField res "bizKey".toList (.str ctx.bizKey))
    "template".toList (.str ctx.template)).filter
      fun field => field.1 != "choices".toList

theorem lookup_refDataOf (res : Fields) (ctx : CompletionContext) {key : Text}
    (hkey : key ∈ ["model", "provider", "usage"].map String.toList) :
    (refDataOf res ctx).lookup key = res.lookup key := by
  have hother : key ≠ "choices".toList ∧ key ≠ "template".toList ∧
      key ≠ "bizKey".toList := by
    revert key
    decide
  unfold refDataOf
  rw [lookup_filter_of_ne hother.left,
    Json.lookup_setField_of_ne hother.right.left,
    Json.lookup_setField_of_ne hother.right.right]

theorem handleLlmCompletion_of_completion {prices : Prices} {l : Ledger}
    {paidBy : Text} {ctx : CompletionContext} {answer : Except Thrown Fields}
    {duration : Nat} {res : Fields} {event : LlmCompletionEvent}
    (h : completion prices l paidBy ctx answer duration = .ok (res, event))
    (prices' : Prices) (l' : Ledger) :
    handleLlmCompletion prices' l' event =
      addModelExpense prices' l' (res.lookup "id".toList) paidBy
        (refDataOf res ctx) := by
  rw [exists_of_completion h]
  show addModelExpense prices' l' (List.lookup _ (Json.setField _ _ _)) _ _ = _
  rw [Json.lookup_setField_of_ne (by decide),
    Json.lookup_setField_of_ne (by decide)]
  rfl

theorem not_billedOnce_self (l : Ledger) (res : Fields) (paidBy : Text) :
    ¬ BilledOnce l l res paidBy := by
  intro h
  rcases h with ⟨txId, row, tenant, _, hcontents, _⟩
  have hlength := congrArg List.length hcontents
  rw [List.length_append, List.length_singleton] at hlength
  exact absurd hlength (Nat.ne_of_lt (Nat.lt_succ_self _))

/-- A completion that has been handed back is billed once exactly when the
service reports something that can be billed. -/
theorem billedOnce_iff_billable {prices : Prices} {l : Ledger} {paidBy : Text}
    {ctx : CompletionContext} {answer : Except Thrown Fields} {duration : Nat}
    {res : Fields} {event : LlmCompletionEvent}
    (h : completion prices l paidBy ctx answer duration = .ok (res, event))
    (prices' : Prices) (l' : Ledger) :
    BilledOnce l' (billed prices' l' event) res paidBy <->
      Billable prices' l' res paidBy := by
  rw [← billedOnce_addModelExpense_iff (lookup_refDataOf res ctx (by decide))
    (lookup_refDataOf res ctx (by decide))
    (lookup_refDataOf res ctx (by decide))]
  unfold billed
  rw [handleLlmCompletion_of_completion h]
  cases addModelExpense prices' l' (res.lookup "id".toList) paidBy
    (refDataOf res ctx) with
  | error e =>
      constructor
      · exact fun hbilled => absurd hbilled (not_billedOnce_self l' res paidBy)
      · rintro ⟨next, hnext, _⟩
        cases hnext
  | ok next =>
      constructor
      · exact fun hbilled => ⟨next, rfl, hbilled⟩
      · rintro ⟨next', hnext, hbilled⟩
        rw [Except.ok.inj hnext]
        exact hbilled

/-! ## Two answers -/

def perToken : Pricing := fun usage price =>
  match usage.bind fun usage => usage.field "total_tokens".toList, price with
  | some (.num tokens), .num price =>
      match parseInt tokens.text, parseInt price.text with
      | some tokens, some price => .ok (.finite (tokens * price : Int))
      | _, _ => .ok .nan
  | _, _ => .ok .nan

def perTokenText : Text :=
  "(usage, price) => usage.total_tokens * price".toList

def tokenPrices : Prices where
  list := ⟨[⟨"m1".toList, [], .num (.ofInt 3), "USD".toList, perTokenText⟩],
    List.pairwise_singleton _ _⟩
  toFunction := fun text => if text = perTokenText then some perToken else none

def answerOf (model : Text) : Fields := [
  ("id".toList, .str "gen-1".toList),
  ("model".toList, .str model),
  ("usage".toList, .obj [("total_tokens".toList, .num (.ofInt 2))]),
  ("choices".toList, .arr [])]

def handedBack (model : Text) : Fields :=
  Json.setField (answerOf model) "usage".toList
    (.obj [("total_tokens".toList, .num (.ofInt 2)),
      ("duration".toList, .num (.ofInt 5))])

def billingOf (model : Text) : LlmCompletionEvent where
  paidBy := "u1".toList
  res := some (Json.setField
    (Json.setField (handedBack model) "bizKey".toList (.str []))
    "template".toList (.str []))

theorem completion_answer (model : Text) :
    completion tokenPrices (oneTenant 10) "u1".toList ⟨[], []⟩
        (.ok (answerOf model)) 5 =
      .ok (handedBack model, billingOf model) :=
  rfl

theorem billedOnce_answer :
    BilledOnce (oneTenant 10)
      (billed tokenPrices (oneTenant 10) (billingOf "m1".toList))
      (handedBack "m1".toList) "u1".toList := by
  have hbillable : Billable tokenPrices (oneTenant 10)
      (handedBack "m1".toList) "u1".toList :=
    ⟨"gen-1".toList, ⟨1, "t1".toList, ⟨10⟩⟩, _, perToken, (6 : Int), rfl,
      List.cons_ne_nil _ _, rfl, rfl, rfl, rfl, by norm_num, by decide,
      by decide, by decide +kernel, by decide +kernel⟩
  exact (billedOnce_iff_billable (completion_answer "m1".toList) tokenPrices
    (oneTenant 10)).mpr hbillable

/-- There is no price for the model that has answered. -/
theorem not_billed_answer :
    completion tokenPrices (oneTenant 10) "u1".toList ⟨[], []⟩
        (.ok (answerOf "m2".toList)) 5 =
      .ok (handedBack "m2".toList, billingOf "m2".toList) ∧
      ¬ BilledOnce (oneTenant 10)
        (billed tokenPrices (oneTenant 10) (billingOf "m2".toList))
        (handedBack "m2".toList) "u1".toList :=
  ⟨completion_answer "m2".toList, not_billedOnce_self (oneTenant 10) _ _⟩

/-! ## The price of a model -/

/-- The prices of a model that a provider may be charged by. -/
def candidates (prices : PriceList) (model provider : Text) :
    List ModelPricing :=
  (prices.rows.filter fun row => row.model == model).filter
    (ofProvider (some (.str provider)))

theorem mem_candidates {prices : PriceList} {model provider : Text}
    {row : ModelPricing} :
    row ∈ candidates prices model provider <->
      row ∈ prices.rows ∧ row.model = model ∧
        (row.provider = [] ∨ row.provider = provider) := by
  simp only [candidates, ofProvider, List.mem_filter, beq_iff_eq, Bool.or_eq_true,
    List.isEmpty_iff, and_assoc]

theorem eq_of_candidates {prices : PriceList} {model provider : Text}
    {row other : ModelPricing}
    (hrow : row ∈ candidates prices model provider)
    (hother : other ∈ candidates prices model provider)
    (h : row.provider = other.provider) : row = other := by
  rcases mem_candidates.mp hrow with ⟨hmem, hmodel, _⟩
  rcases mem_candidates.mp hother with ⟨hmem', hmodel', _⟩
  have hnodup : (prices.rows.map fun a => (a.model, a.provider)).Nodup :=
    List.pairwise_map.mpr prices.unique
  apply List.inj_on_of_nodup_map hnodup hmem hmem'
  rw [hmodel, hmodel', h]

theorem nodup_candidates (prices : PriceList) (model provider : Text) :
    (candidates prices model provider).Nodup := by
  apply List.Nodup.filter
  apply List.Nodup.filter
  apply List.Nodup.of_map fun a : ModelPricing => (a.model, a.provider)
  exact List.pairwise_map.mpr prices.unique

theorem findPricing_eq_ok {prices : PriceList} {model provider : Text}
    {pricing : ModelPricing} :
    findPricing prices (some (.str model)) (some (.str provider)) =
        .ok pricing <->
      selectPricing (candidates prices model provider) = some pricing := by
  unfold findPricing modelFilter
  show (if (candidates prices model provider).isEmpty = true then _ else
    (match selectPricing (candidates prices model provider) with
    | none => Except.error (Thrown.readUndefined "price".toList)
    | some pricing => Except.ok pricing)) = _ <-> _
  cases hcandidates : candidates prices model provider with
  | nil =>
      constructor
      · intro h
        cases h
      · intro h
        cases h
  | cons row rest =>
      rw [if_neg (by simp)]
      cases selectPricing (row :: rest) with
      | none => simp
      | some selected => simp

theorem findPricing_eq_ok_iff {prices : PriceList} {model provider : Text}
    {pricing : ModelPricing} :
    findPricing prices (some (.str model)) (some (.str provider)) =
        .ok pricing <->
      pricing ∈ candidates prices model provider ∧
        (pricing.provider = [] -> forall row,
          row ∈ candidates prices model provider -> row.provider = []) := by
  rw [findPricing_eq_ok]
  have hnodup := nodup_candidates prices model provider
  have heq : forall row other, row ∈ candidates prices model provider ->
      other ∈ candidates prices model provider ->
        row.provider = other.provider -> row = other :=
    fun _ _ => eq_of_candidates
  have hof : forall row, row ∈ candidates prices model provider ->
      row.provider = [] ∨ row.provider = provider :=
    fun row hrow => (mem_candidates.mp hrow).right.right
  revert hnodup heq hof
  match candidates prices model provider with
  | [] =>
      intro _ _ _
      simp [selectPricing]
  | [only] =>
      intro _ _ _
      simp only [selectPricing, Option.some.injEq, List.mem_singleton,
        forall_eq]
      constructor
      · rintro rfl
        exact ⟨rfl, fun h => h⟩
      · exact fun h => h.left.symm
  | first :: second :: rest =>
      intro hnodup heq hof
      have hselect : selectPricing (first :: second :: rest) =
          (first :: second :: rest).find? fun row => !row.provider.isEmpty :=
        rfl
      rw [hselect]
      constructor
      · intro h
        have hne : pricing.provider ≠ [] := by simpa using List.find?_some h
        exact ⟨List.mem_of_find?_eq_some h, fun hnil => absurd hnil hne⟩
      · rintro ⟨hmem, honly⟩
        have hne : pricing.provider ≠ [] := by
          intro hnil
          -- two candidates without a provider would be the same
          have hsame := heq first second List.mem_cons_self
            (List.mem_cons_of_mem _ List.mem_cons_self)
            ((honly hnil first List.mem_cons_self).trans
              (honly hnil second
                (List.mem_cons_of_mem _ List.mem_cons_self)).symm)
          rw [hsame] at hnodup
          exact (List.nodup_cons.mp hnodup).left List.mem_cons_self
        cases hfind : (first :: second :: rest).find?
            fun row => !row.provider.isEmpty with
        | none =>
            have hnone := List.find?_eq_none.mp hfind pricing hmem
            exact absurd (by simpa using hne) hnone
        | some found =>
            have hfound : found.provider ≠ [] := by
              simpa using List.find?_some hfind
            have hfoundMem := List.mem_of_find?_eq_some hfind
            rw [heq found pricing hfoundMem hmem
              (((hof found hfoundMem).resolve_left hfound).trans
                ((hof pricing hmem).resolve_left hne).symm)]

end Billing
end CallgentApi
