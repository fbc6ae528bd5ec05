import Mathlib.Logic.Function.Basic
import CallgentApi.Lib.Transition

/-!
# Isolation of tenants

Rows are kept apart by policies that read two settings of the transaction.  The
client sets the tenant before every operation; in an open transaction this is a
statement of its own, between which and the query others may come.
-/

namespace CallgentApi
namespace Tenancy

/-! ## Settings and policies -/

inductive Model where
  | tenant | user | userIdentity | publicMailHost | tag | callgent
  | callgentTag | entry | endpoint | callgentRealm | authToken | llmTemplate
  | llmCache | req2ArgsRepo | eventListener | eventStore | cached
  | modelPricing | transaction
deriving DecidableEq

def Model.hasPolicies : Model -> Bool
  | .user => true
  | .userIdentity => true
  | .callgent => true
  | .entry => true
  | .endpoint => true
  | .callgentRealm => true
  | .eventListener => true
  | _ => false

/-- `tenancy.tenantPk` and `tenancy.bypass_rls`, as they are in a
transaction. -/
structure Settings where
  tenantPk : Option Int
  bypass : Bool
deriving DecidableEq

/-- `set_config(…, TRUE)` is undone with the transaction. -/
def Settings.unset : Settings := ⟨none, false⟩

/-- `tenant_isolation_policy` or `bypass_rls_policy`, for a row of the tenant;
a table without policies shows every row. -/
def Settings.allows (settings : Settings) (table : Model) (tenantPk : Int) :
    Bool :=
  !table.hasPolicies || tenantPk == 0 ||
    tenantPk == settings.tenantPk.getD 0 || settings.bypass

/-! ## Contexts and their operations -/

inductive Transaction where
  | none
  | opened (settings : Settings)
  | closed
deriving DecidableEq

structure Context where
  /-- `TENANT_ID`, which may be unset. -/
  tenantPk : Option Int
  transaction : Transaction

/-- A call of a model method that has not ended. -/
structure Operation where
  context : Nat
  /-- The tenant when the operation began. -/
  tenantPk : Option Int
  /-- `existingTx`: it began in a transaction of its context. -/
  joined : Bool
  /-- `set_config` has been awaited. -/
  configured : Bool

structure Access where
  context : Nat
  settings : Settings
  /-- The tenant when the operation began. -/
  meant : Option Int
deriving DecidableEq

structure State where
  contexts : Nat -> Option Context
  operations : Nat -> Option Operation
  log : List Access

namespace State

def initial : State where
  contexts := fun _ => none
  operations := fun _ => none
  log := []

def setContext (s : State) (c : Nat) (context : Context) : State :=
  { s with contexts := Function.update s.contexts c (some context) }

def setOperation (s : State) (id : Nat) (op : Option Operation) : State :=
  { s with operations := Function.update s.operations id op }

def access (s : State) (op : Operation) (settings : Settings) : State :=
  { s with log := s.log ++ [⟨op.context, settings, op.tenantPk⟩] }

def enter (s : State) (c : Nat) : Option State :=
  match s.contexts c with
  | some _ => none
  | none => some (s.setContext c ⟨none, .none⟩)

/-- `setTenantId`, with `undefined` where there has been no tenant. -/
def setTenantId (s : State) (c : Nat) (tenantPk : Option Int) : Option State :=
  match s.contexts c with
  | none => none
  | some context =>
      some (s.setContext c { context with tenantPk := tenantPk })

/-- A transaction runs in a copy of the context. -/
def transactional (s : State) (c child : Nat) : Option State :=
  match s.contexts c, s.contexts child with
  | some context, none =>
      some (s.setContext child ⟨context.tenantPk, .opened .unset⟩)
  | _, _ => none

/-- The transaction is committed or rolled back; what goes on in its context
may still find it there. -/
def settle (s : State) (c : Nat) (found : Bool) : Option State :=
  match s.contexts c with
  | some ⟨tenantPk, .opened _⟩ =>
      some (s.setContext c ⟨tenantPk, if found then .closed else .none⟩)
  | _ => none

/-- `bypassTenancy`; outside of a transaction the setting is gone with the
statement. -/
def bypassTenancy (s : State) (c : Nat) (bypass : Bool) : Option State :=
  match s.contexts c with
  | none => none
  | some ⟨tenantPk, .opened settings⟩ =>
      some (s.setContext c
        ⟨tenantPk, .opened { settings with bypass := bypass }⟩)
  | some _ => some s

/-! `$allOperations`, up to each of its awaits. -/

def start (s : State) (c id : Nat) : Option State :=
  match s.contexts c, s.operations id with
  | some context, none =>
      some (s.setOperation id
        (some ⟨c, context.tenantPk, context.transaction ≠ .none, false⟩))
  | _, _ => none

/-- `set_config` in the transaction that there is; it throws when that is
over. -/
def configure (s : State) (id : Nat) : Option State :=
  match s.operations id with
  | some ⟨c, some tenantPk, true, false⟩ =>
      match s.contexts c with
      | some ⟨current, .opened settings⟩ =>
          some ((s.setContext c
            ⟨current, .opened { settings with tenantPk := some tenantPk }⟩)
            |>.setOperation id (some ⟨c, some tenantPk, true, true⟩))
      | some _ => some (s.setOperation id none)
      | none => none
  | _ => none

/-- The query; outside of a transaction, `set_config` and the query are a
transaction of their own. -/
def query (s : State) (id : Nat) : Option State :=
  match s.operations id with
  | none => none
  | some op =>
      if op.joined then
        if op.tenantPk.isSome && !op.configured then none
        else
          match s.contexts op.context with
          | some ⟨_, .opened settings⟩ =>
              some ((s.access op settings).setOperation id none)
          | _ => some (s.setOperation id none)
      else some ((s.access op ⟨op.tenantPk, false⟩).setOperation id none)

end State

inductive Label where
  | enter (c : Nat)
  | setTenantId (c : Nat) (tenantPk : Option Int)
  | transactional (c child : Nat)
  | settle (c : Nat) (found : Bool)
  | bypassTenancy (c : Nat) (bypass : Bool)
  | start (c id : Nat)
  | configure (id : Nat)
  | query (id : Nat)

def step (s : State) : Label -> Option State
  | .enter c => s.enter c
  | .setTenantId c tenantPk => s.setTenantId c tenantPk
  | .transactional c child => s.transactional c child
  | .settle c found => s.settle c found
  | .bypassTenancy c bypass => s.bypassTenancy c bypass
  | .start c id => s.start c id
  | .configure id => s.configure id
  | .query id => s.query id

/-! ## Every access stays within its tenants -/

section Isolated

variable (allowed : Nat -> Int -> Prop) (trusted : Nat -> Prop)

/-- A context is set to tenants that it may have, and hands them on; only
trusted contexts turn the bypass on. -/
def Label.Respects : Label -> Prop
  | .setTenantId c tenantPk =>
      forall t, tenantPk = some t -> allowed c t
  | .transactional c child =>
      forall tenantPk, allowed c tenantPk -> allowed child tenantPk
  | .bypassTenancy c bypass => bypass = true -> trusted c
  | _ => True

structure Settings.Within (c : Nat) (settings : Settings) : Prop where
  tenant : forall tenantPk, settings.tenantPk = some tenantPk ->
    allowed c tenantPk
  bypass : settings.bypass = true -> trusted c

structure Context.Within (c : Nat) (context : Context) : Prop where
  tenant : forall tenantPk, context.tenantPk = some tenantPk ->
    allowed c tenantPk
  opened : forall settings, context.transaction = .opened settings ->
    settings.Within allowed trusted c

structure State.Isolated (s : State) : Prop where
  contexts : forall c context, s.contexts c = some context ->
    context.Within allowed trusted c
  operations : forall id op, s.operations id = some op ->
    forall tenantPk, op.tenantPk = some tenantPk -> allowed op.context tenantPk
  log : forall a, a ∈ s.log -> a.settings.Within allowed trusted a.context

variable {allowed trusted} {s next : State}

theorem within_unset (c : Nat) : Settings.unset.Within allowed trusted c := by
  constructor
  · intro tenantPk h
    cases h
  · intro h
    cases h

theorem isolated_initial : State.initial.Isolated allowed trusted := by
  constructor
  · intro c context h
    cases h
  · intro id op h
    cases h
  · intro a h
    cases h

namespace State.Isolated

theorem setContext (h : s.Isolated allowed trusted) {c : Nat}
    {context : Context} (hcontext : context.Within allowed trusted c) :
    (s.setContext c context).Isolated allowed trusted := by
  constructor
  · intro other found hfound
    unfold State.setContext at hfound
    by_cases heq : other = c
    · subst heq
      simp only [Function.update_self, Option.some.injEq] at hfound
      exact hfound ▸ hcontext
    · simp only [Function.update_of_ne heq] at hfound
      exact h.contexts other found hfound
  · exact h.operations
  · exact h.log

theorem setOperation (h : s.Isolated allowed trusted) {id : Nat}
    {op : Option Operation}
    (hop : forall found, op = some found -> forall tenantPk,
      found.tenantPk = some tenantPk -> allowed found.context tenantPk) :
    (s.setOperation id op).Isolated allowed trusted := by
  constructor
  · exact h.contexts
  · intro other found hfound
    unfold State.setOperation at hfound
    by_cases heq : other = id
    · subst heq
      simp only [Function.update_self] at hfound
      exact hop found hfound
    · simp only [Function.update_of_ne heq] at hfound
      exact h.operations other found hfound
  · exact h.log

theorem access (h : s.Isolated allowed trusted) {op : Operation}
    {settings : Settings}
    (hsettings : settings.Within allowed trusted op.context) :
    (s.access op settings).Isolated allowed trusted := by
  refine ⟨h.contexts, h.operations, ?_⟩
  intro a ha
  rcases List.mem_append.mp ha with hold | hnew
  · exact h.log a hold
  · rw [List.mem_singleton.mp hnew]
    exact hsettings

theorem configure (h : s.Isolated allowed trusted) {id : Nat}
    (hstep : s.configure id = some next) :
    next.Isolated allowed trusted := by
  unfold State.configure at hstep
  split at hstep
  · rename_i c tenantPk hop
    have htenant := h.operations id _ hop
    split at hstep
    · rename_i current settings hcontext
      have hwithin := h.contexts c _ hcontext
      cases hstep
      apply State.Isolated.setOperation
      · apply h.setContext
        refine ⟨hwithin.tenant, ?_⟩
        intro settings' heq
        cases heq
        exact ⟨htenant, (hwithin.opened settings rfl).bypass⟩
      · intro found heq
        cases heq
        exact htenant
    · cases hstep
      apply h.setOperation
      intro found heq
      cases heq
    · cases hstep
  · cases hstep

theorem query (h : s.Isolated allowed trusted) {id : Nat}
    (hstep : s.query id = some next) : next.Isolated allowed trusted := by
  have hnone : forall {found : Operation}, (none : Option Operation) =
      some found -> forall tenantPk, found.tenantPk = some tenantPk ->
        allowed found.context tenantPk := by
    intro found heq
    cases heq
  unfold State.query at hstep
  split at hstep
  · cases hstep
  · rename_i op hop
    split at hstep
    · split at hstep
      · cases hstep
      · split at hstep
        · rename_i tenantPk settings hcontext
          cases hstep
          refine (h.access ?_).setOperation fun found => hnone
          exact (h.contexts op.context _ hcontext).opened settings rfl
        · cases hstep
          exact h.setOperation fun found => hnone
    · -- The query is a transaction of its own.
      cases hstep
      refine (h.access ?_).setOperation fun found => hnone
      refine ⟨h.operations id op hop, ?_⟩
      intro hbypass
      cases hbypass

theorem enter (h : s.Isolated allowed trusted) {c : Nat}
    (hstep : s.enter c = some next) : next.Isolated allowed trusted := by
  unfold State.enter at hstep
  split at hstep
  · cases hstep
  · cases hstep
    apply h.setContext
    constructor
    · intro tenantPk heq
      cases heq
    · intro settings heq
      cases heq

theorem setTenantId (h : s.Isolated allowed trusted) {c : Nat}
    {tenantPk : Option Int} (hallowed : forall t, tenantPk = some t ->
      allowed c t)
    (hstep : s.setTenantId c tenantPk = some next) :
    next.Isolated allowed trusted := by
  unfold State.setTenantId at hstep
  split at hstep
  · cases hstep
  · rename_i context hcontext
    cases hstep
    apply h.setContext
    exact ⟨hallowed, (h.contexts c context hcontext).opened⟩

theorem transactional (h : s.Isolated allowed trusted) {c child : Nat}
    (hallowed : forall tenantPk, allowed c tenantPk -> allowed child tenantPk)
    (hstep : s.transactional c child = some next) :
    next.Isolated allowed trusted := by
  unfold State.transactional at hstep
  split at hstep
  · rename_i context hcontext _
    cases hstep
    apply h.setContext
    constructor
    · intro tenantPk heq
      exact hallowed tenantPk
        ((h.contexts c context hcontext).tenant tenantPk heq)
    · intro settings heq
      cases heq
      exact within_unset child
  · cases hstep

theorem settle (h : s.Isolated allowed trusted) {c : Nat} {found : Bool}
    (hstep : s.settle c found = some next) :
    next.Isolated allowed trusted := by
  unfold State.settle at hstep
  split at hstep
  · rename_i tenantPk settings hcontext
    cases hstep
    apply h.setContext
    refine ⟨(h.contexts c _ hcontext).tenant, ?_⟩
    intro other heq
    cases found with
    | false => cases heq
    | true => cases heq
  · cases hstep

theorem bypassTenancy (h : s.Isolated allowed trusted) {c : Nat}
    {bypass : Bool} (htrusted : bypass = true -> trusted c)
    (hstep : s.bypassTenancy c bypass = some next) :
    next.Isolated allowed trusted := by
  unfold State.bypassTenancy at hstep
  split at hstep
  · cases hstep
  · rename_i tenantPk settings hcontext
    have hwithin := h.contexts c _ hcontext
    cases hstep
    apply h.setContext
    refine ⟨hwithin.tenant, ?_⟩
    intro other heq
    cases heq
    exact ⟨(hwithin.opened settings rfl).tenant, htrusted⟩
  · cases hstep
    exact h

theorem start (h : s.Isolated allowed trusted) {c id : Nat}
    (hstep : s.start c id = some next) : next.Isolated allowed trusted := by
  unfold State.start at hstep
  split at hstep
  · rename_i context hcontext _
    cases hstep
    apply h.setOperation
    intro found heq
    cases heq
    exact (h.contexts c context hcontext).tenant
  · cases hstep

theorem step (h : s.Isolated allowed trusted) {label : Label}
    (hrespects : label.Respects allowed trusted)
    (hstep : step s label = some next) : next.Isolated allowed trusted := by
  cases label with
  | enter c => exact h.enter hstep
  | setTenantId c tenantPk => exact h.setTenantId hrespects hstep
  | transactional c child => exact h.transactional hrespects hstep
  | settle c found => exact h.settle hstep
  | bypassTenancy c bypass => exact h.bypassTenancy hrespects hstep
  | start c id => exact h.start hstep
  | configure id => exact h.configure hstep
  | query id => exact h.query hstep

end State.Isolated

/-- Whatever the order of the steps of all contexts, a query reaches of the
tables with policies only rows of the public tenant, rows of tenants that its
own context may have, and others only where the context is trusted to turn the
bypass on. -/
theorem isolated_of_run {labels : List Label}
    (hrespects : forall label, label ∈ labels ->
      label.Respects allowed trusted)
    (hrun : Transition.run Tenancy.step .initial labels = some s) :
    forall a, a ∈ s.log -> forall table tenantPk,
      table.hasPolicies = true -> a.settings.allows table tenantPk = true ->
        tenantPk = 0 ∨ allowed a.context tenantPk ∨ trusted a.context := by
  have hisolated : s.Isolated allowed trusted :=
    Transition.run_invariant_of_meets
      (fun _ _ _ hs hok hstep => State.Isolated.step hs hok hstep)
      isolated_initial
      (Transition.stepsMeet_of_forall (fun _ => hrespects) _) hrun
  intro a ha table tenantPk hpolicies hallows
  have hwithin := hisolated.log a ha
  unfold Settings.allows at hallows
  rw [hpolicies, Bool.not_true, Bool.false_or, Bool.or_eq_true,
    Bool.or_eq_true, beq_iff_eq, beq_iff_eq] at hallows
  rcases hallows with (hpublic | hown) | hbypass
  · exact Or.inl hpublic
  · cases htenant : a.settings.tenantPk with
    | none =>
        rw [htenant] at hown
        exact Or.inl hown
    | some current =>
        rw [htenant] at hown
        rw [hown]
        exact Or.inr (Or.inl (hwithin.tenant current htenant))
  · exact Or.inr (Or.inr (hwithin.bypass hbypass))

end Isolated

/-! ## Operations of a context that follow each other -/

/-- An operation begins when no other one of its context is under way. -/
def Label.Sequential (s : State) : Label -> Prop
  | .start c _ => forall id op, s.operations id = some op -> op.context ≠ c
  | _ => True

/-- The query runs under the tenant of its operation; one that began without a
tenant may run under that of an earlier operation of its transaction. -/
def Access.Exact (log : List Access) (a : Access) : Prop :=
  a.settings.tenantPk = a.meant ∨
    a.meant = none ∧ exists b, b ∈ log ∧ b.context = a.context ∧
      b.meant = a.settings.tenantPk

theorem Access.Exact.mono {log later : List Access} {a : Access}
    (h : a.Exact log) : a.Exact (log ++ later) := by
  rcases h with heq | ⟨hnone, b, hb, hsource⟩
  · exact Or.inl heq
  · exact Or.inr ⟨hnone, b, List.mem_append_left _ hb, hsource⟩

/-- The tenant has been set by an operation that is about to query, or by one
that has queried. -/
def State.Sets (s : State) (c : Nat) (tenantPk : Int) : Prop :=
  (exists id op, s.operations id = some op ∧ op.context = c ∧
    op.configured = true ∧ op.tenantPk = some tenantPk) ∨
      exists b, b ∈ s.log ∧ b.context = c ∧ b.meant = some tenantPk

/-- The tenant of a transaction is that of its configured operation, if there
is one. -/
structure State.Exact (s : State) : Prop where
  live : forall id op, s.operations id = some op ->
    exists context, s.contexts op.context = some context
  single : forall id op id' op', s.operations id = some op ->
    s.operations id' = some op' -> op.context = op'.context -> id = id'
  meant : forall id op t settings, s.operations id = some op ->
    s.contexts op.context = some ⟨t, .opened settings⟩ ->
    op.configured = true -> settings.tenantPk = op.tenantPk
  sets : forall c t settings tenantPk,
    s.contexts c = some ⟨t, .opened settings⟩ ->
    settings.tenantPk = some tenantPk -> s.Sets c tenantPk
  log : forall a, a ∈ s.log -> a.Exact s.log

section Exact

variable {s next : State}

theorem exact_initial : State.initial.Exact := by
  constructor <;> intros <;> contradiction

namespace State.Exact

theorem setContext (h : s.Exact) {c : Nat} {context : Context}
    (hmeant : forall settings, context.transaction = .opened settings ->
      forall id op, s.operations id = some op -> op.context = c ->
        op.configured = true -> settings.tenantPk = op.tenantPk)
    (hsets : forall settings, context.transaction = .opened settings ->
      forall tenantPk, settings.tenantPk = some tenantPk ->
        s.Sets c tenantPk) :
    (s.setContext c context).Exact := by
  unfold State.setContext
  constructor
  · intro id op hop
    rcases h.live id op hop with ⟨found, hfound⟩
    by_cases heq : op.context = c
    · exact ⟨context, by simp [heq]⟩
    · exact ⟨found, by simp [heq, hfound]⟩
  · exact h.single
  · intro id op t settings hop hfound hready
    by_cases heq : op.context = c
    · simp only [heq, Function.update_self, Option.some.injEq] at hfound
      exact hmeant settings (by rw [hfound]) id op hop heq hready
    · simp only [Function.update_of_ne heq] at hfound
      exact h.meant id op t settings hop hfound hready
  · intro other t settings tenantPk hfound htenant
    by_cases heq : other = c
    · simp only [heq, Function.update_self, Option.some.injEq] at hfound
      rw [heq]
      exact hsets settings (by rw [hfound]) tenantPk htenant
    · simp only [Function.update_of_ne heq] at hfound
      exact h.sets other t settings tenantPk hfound htenant
  · exact h.log

theorem setContext_fresh (h : s.Exact) {c : Nat} {context : Context}
    (hfresh : s.contexts c = none)
    (hunset : forall settings, context.transaction = .opened settings ->
      settings.tenantPk = none) :
    (s.setContext c context).Exact := by
  apply h.setContext
  · intro settings _ id op hop heq
    rcases h.live id op hop with ⟨found, hfound⟩
    rw [heq, hfresh] at hfound
    cases hfound
  · intro settings hopened tenantPk htenant
    rw [hunset settings hopened] at htenant
    cases htenant

theorem setContext_same (h : s.Exact) {c : Nat} {t t' : Option Int}
    {settings settings' : Settings}
    (hcontext : s.contexts c = some ⟨t, .opened settings⟩)
    (htenant : settings'.tenantPk = settings.tenantPk) :
    (s.setContext c ⟨t', .opened settings'⟩).Exact := by
  apply h.setContext
  · intro other hopened id op hop heq hready
    cases hopened
    rw [htenant]
    exact h.meant id op t settings hop (heq ▸ hcontext) hready
  · intro other hopened tenantPk hsome
    cases hopened
    rw [htenant] at hsome
    exact h.sets c t settings tenantPk hcontext hsome

theorem setContext_plain (h : s.Exact) {c : Nat} {context : Context}
    (hplain : forall settings, context.transaction ≠ .opened settings) :
    (s.setContext c context).Exact := by
  apply h.setContext
  · intro settings hopened
    exact absurd hopened (hplain settings)
  · intro settings hopened
    exact absurd hopened (hplain settings)

theorem drop (h : s.Exact) {id : Nat} {op : Operation}
    (hop : s.operations id = some op)
    (hsets : op.configured = true -> forall t settings,
      s.contexts op.context = some ⟨t, .opened settings⟩ ->
        exists b, b ∈ s.log ∧ b.context = op.context ∧
          b.meant = op.tenantPk) :
    (s.setOperation id none).Exact := by
  have hold : forall {other found}, (s.setOperation id none).operations other =
      some found -> s.operations other = some found := by
    intro other found hfound
    unfold State.setOperation at hfound
    by_cases heq : other = id
    · simp [heq] at hfound
    · simpa [heq] using hfound
  constructor
  · intro other found hfound
    exact h.live other found (hold hfound)
  · intro id1 op1 id2 op2 h1 h2
    exact h.single id1 op1 id2 op2 (hold h1) (hold h2)
  · intro other found t settings hfound
    exact h.meant other found t settings (hold hfound)
  · intro c t settings tenantPk hcontext htenant
    rcases h.sets c t settings tenantPk hcontext htenant with
      ⟨other, found, hfound, hc, hconfigured, hsome⟩ | hlogged
    · by_cases heq : other = id
      · rw [heq, hop] at hfound
        cases hfound
        rcases hsets hconfigured t settings (hc ▸ hcontext) with
          ⟨b, hb, hbc, hmeant⟩
        exact Or.inr ⟨b, hb, hbc.trans hc, hmeant.trans hsome⟩
      · refine Or.inl ⟨other, found, ?_, hc, hconfigured, hsome⟩
        unfold State.setOperation
        simpa [heq] using hfound
    · exact Or.inr hlogged
  · exact h.log

theorem access (h : s.Exact) {op : Operation} {settings : Settings}
    (hexact : Access.Exact s.log ⟨op.context, settings, op.tenantPk⟩) :
    (s.access op settings).Exact := by
  refine ⟨h.live, h.single, h.meant, ?_, ?_⟩
  · intro c t other tenantPk hcontext htenant
    rcases h.sets c t other tenantPk hcontext htenant with
      hready | ⟨b, hb, hlogged⟩
    · exact Or.inl hready
    · exact Or.inr ⟨b, List.mem_append_left _ hb, hlogged⟩
  · intro a ha
    rcases List.mem_append.mp ha with hold | hnew
    · exact (h.log a hold).mono
    · rw [List.mem_singleton.mp hnew]
      exact hexact.mono

theorem enter (h : s.Exact) {c : Nat} (hstep : s.enter c = some next) :
    next.Exact := by
  unfold State.enter at hstep
  split at hstep
  · cases hstep
  · rename_i hfresh
    cases hstep
    apply h.setContext_fresh hfresh
    intro settings heq
    cases heq

theorem setTenantId (h : s.Exact) {c : Nat} {tenantPk : Option Int}
    (hstep : s.setTenantId c tenantPk = some next) : next.Exact := by
  unfold State.setTenantId at hstep
  split at hstep
  · cases hstep
  · rename_i context hcontext
    cases hstep
    rcases context with ⟨t, transaction⟩
    cases transaction with
    | opened settings => exact h.setContext_same hcontext rfl
    | none =>
        apply h.setContext_plain
        intro settings heq
        cases heq
    | closed =>
        apply h.setContext_plain
        intro settings heq
        cases heq

theorem transactional (h : s.Exact) {c child : Nat}
    (hstep : s.transactional c child = some next) : next.Exact := by
  unfold State.transactional at hstep
  split at hstep
  · rename_i context hcontext hfresh
    cases hstep
    apply h.setContext_fresh hfresh
    intro settings heq
    rw [← Transaction.opened.inj heq]
    rfl
  · cases hstep

theorem settle (h : s.Exact) {c : Nat} {found : Bool}
    (hstep : s.settle c found = some next) : next.Exact := by
  unfold State.settle at hstep
  split at hstep
  · cases hstep
    apply h.setContext_plain
    intro settings heq
    cases found with
    | false => cases heq
    | true => cases heq
  · cases hstep

theorem bypassTenancy (h : s.Exact) {c : Nat} {bypass : Bool}
    (hstep : s.bypassTenancy c bypass = some next) : next.Exact := by
  unfold State.bypassTenancy at hstep
  split at hstep
  · cases hstep
  · rename_i tenantPk settings hcontext
    cases hstep
    exact h.setContext_same hcontext rfl
  · cases hstep
    exact h

theorem start (h : s.Exact) {c id : Nat}
    (hsequential : (Label.start c id).Sequential s)
    (hstep : s.start c id = some next) : next.Exact := by
  unfold State.start at hstep
  split at hstep
  · rename_i context hcontext hfresh
    cases hstep
    generalize hnewOp : (⟨c, context.tenantPk,
      context.transaction ≠ .none, false⟩ : Operation) = newOp
    have hc : newOp.context = c := by rw [← hnewOp]
    have hidle : newOp.configured = false := by rw [← hnewOp]
    have hnew : forall {other op},
        (s.setOperation id (some newOp)).operations other = some op ->
        other = id ∧ op = newOp ∨
          other ≠ id ∧ s.operations other = some op := by
      intro other op hop
      unfold State.setOperation at hop
      by_cases heq : other = id
      · left
        simp only [heq, Function.update_self, Option.some.injEq] at hop
        exact ⟨heq, hop.symm⟩
      · right
        simp only [Function.update_of_ne heq] at hop
        exact ⟨heq, hop⟩
    constructor
    · intro other op hop
      rcases hnew hop with ⟨_, heq⟩ | ⟨_, hold⟩
      · rw [heq, hc]
        exact ⟨context, hcontext⟩
      · exact h.live other op hold
    · intro id1 op1 id2 op2 h1 h2 hsame
      rcases hnew h1 with ⟨heq1, hop1⟩ | ⟨_, hold1⟩
      · rcases hnew h2 with ⟨heq2, _⟩ | ⟨_, hold2⟩
        · rw [heq1, heq2]
        · rw [hop1, hc] at hsame
          exact absurd hsame.symm (hsequential id2 op2 hold2)
      · rcases hnew h2 with ⟨_, hop2⟩ | ⟨_, hold2⟩
        · rw [hop2, hc] at hsame
          exact absurd hsame (hsequential id1 op1 hold1)
        · exact h.single id1 op1 id2 op2 hold1 hold2 hsame
    · intro other op t settings hop hfound hready
      rcases hnew hop with ⟨_, heq⟩ | ⟨_, hold⟩
      · rw [heq, hidle] at hready
        cases hready
      · exact h.meant other op t settings hold hfound hready
    · intro other t settings tenantPk hfound htenant
      rcases h.sets other t settings tenantPk hfound htenant with
        ⟨id', op, hop, hrest⟩ | hlogged
      · refine Or.inl ⟨id', op, ?_, hrest⟩
        have hne : id' ≠ id := by
          intro heq
          rw [heq, hfresh] at hop
          cases hop
        unfold State.setOperation
        simpa [hne] using hop
      · exact Or.inr hlogged
    · exact h.log
  · cases hstep

theorem configure (h : s.Exact) {id : Nat}
    (hstep : s.configure id = some next) : next.Exact := by
  unfold State.configure at hstep
  split at hstep
  · rename_i c tenantPk hop
    split at hstep
    · rename_i current settings hcontext
      cases hstep
      have honly : forall other op, s.operations other = some op ->
          op.context = c -> other = id := by
        intro other op hother heq
        exact h.single other op id _ hother hop heq
      have hnew : forall {other op}, (Function.update s.operations id (some
          ⟨c, some tenantPk, true, true⟩)) other = some op ->
          other = id ∧ op = ⟨c, some tenantPk, true, true⟩ ∨
            s.operations other = some op ∧ op.context ≠ c := by
        intro other op hother
        by_cases heq : other = id
        · left
          simp only [heq, Function.update_self, Option.some.injEq] at hother
          exact ⟨heq, hother.symm⟩
        · right
          simp only [Function.update_of_ne heq] at hother
          exact ⟨hother, fun hc => heq (honly other op hother hc)⟩
      unfold State.setOperation State.setContext
      constructor
      · intro other op hother
        rcases hnew hother with ⟨_, heq⟩ | ⟨hold, hne⟩
        · rw [heq]
          exact ⟨_, Function.update_self ..⟩
        · rcases h.live other op hold with ⟨found, hfound⟩
          exact ⟨found, by simp [hne, hfound]⟩
      · intro id1 op1 id2 op2 h1 h2 hsame
        rcases hnew h1 with ⟨heq1, hop1⟩ | ⟨hold1, hne1⟩
        · rcases hnew h2 with ⟨heq2, _⟩ | ⟨_, hne2⟩
          · rw [heq1, heq2]
          · rw [hop1] at hsame
            exact absurd hsame.symm hne2
        · rcases hnew h2 with ⟨_, hop2⟩ | ⟨hold2, _⟩
          · rw [hop2] at hsame
            exact absurd hsame hne1
          · exact h.single id1 op1 id2 op2 hold1 hold2 hsame
      · intro other op t settings' hother hfound hready
        rcases hnew hother with ⟨_, heq⟩ | ⟨hold, hne⟩
        · rw [heq] at hfound ⊢
          simp only [Function.update_self, Option.some.injEq] at hfound
          cases hfound
          rfl
        · simp only [Function.update_of_ne hne] at hfound
          exact h.meant other op t settings' hold hfound hready
      · intro other t settings' tenantPk' hfound htenant
        by_cases heq : other = c
        · simp only [heq, Function.update_self, Option.some.injEq] at hfound
          cases hfound
          cases htenant
          exact Or.inl ⟨id, _, Function.update_self .., heq.symm, rfl, rfl⟩
        · simp only [Function.update_of_ne heq] at hfound
          rcases h.sets other t settings' tenantPk' hfound htenant with
            ⟨id', op, hother, hc, hrest⟩ | hlogged
          · refine Or.inl ⟨id', op, ?_, hc, hrest⟩
            have hne : id' ≠ id := by
              intro hid
              rw [hid, hop] at hother
              cases hother
              exact heq hc.symm
            simpa [hne] using hother
          · exact Or.inr hlogged
      · exact h.log
    · cases hstep
      apply h.drop hop
      intro hready
      cases hready
    · cases hstep
  · cases hstep

theorem query (h : s.Exact) {id : Nat} (hstep : s.query id = some next) :
    next.Exact := by
  unfold State.query at hstep
  split at hstep
  · cases hstep
  · rename_i op hop
    have hlogged : forall settings, exists b,
        b ∈ (s.access op settings).log ∧ b.context = op.context ∧
          b.meant = op.tenantPk :=
      fun settings => ⟨_, List.mem_append_right _ List.mem_cons_self, rfl, rfl⟩
    split at hstep
    · split at hstep
      · cases hstep
      · rename_i hready
        split at hstep
        · rename_i t settings hcontext
          cases hstep
          have hexact : Access.Exact s.log
              ⟨op.context, settings, op.tenantPk⟩ := by
            cases htenant : op.tenantPk with
            | some tenantPk =>
                have hconfigured : op.configured = true := by
                  simpa [htenant] using hready
                left
                exact (h.meant id op t settings hop hcontext
                  hconfigured).trans htenant
            | none =>
                cases hcurrent : settings.tenantPk with
                | none => exact Or.inl hcurrent
                | some tenantPk =>
                    rcases h.sets op.context t settings tenantPk hcontext
                      hcurrent with
                      ⟨other, found, hfound, hc, _, hsome⟩ | hsource
                    · have hid := h.single other found id op hfound hop hc
                      rw [hid, hop] at hfound
                      cases hfound
                      rw [htenant] at hsome
                      cases hsome
                    · rcases hsource with ⟨b, hb, hc, hmeant⟩
                      exact Or.inr ⟨rfl, b, hb, hc, hmeant.trans
                        hcurrent.symm⟩
          exact (h.access hexact).drop hop fun _ _ _ _ => hlogged settings
        · rename_i hnot
          cases hstep
          apply h.drop hop
          intro _ t settings hcontext
          exact absurd hcontext (hnot t settings)
    · cases hstep
      exact (h.access (Or.inl rfl)).drop hop fun _ _ _ _ => hlogged _

theorem step (h : s.Exact) {label : Label} (hsequential : label.Sequential s)
    (hstep : step s label = some next) : next.Exact := by
  cases label with
  | enter c => exact h.enter hstep
  | setTenantId c tenantPk => exact h.setTenantId hstep
  | transactional c child => exact h.transactional hstep
  | settle c found => exact h.settle hstep
  | bypassTenancy c bypass => exact h.bypassTenancy hstep
  | start c id => exact h.start hsequential hstep
  | configure id => exact h.configure hstep
  | query id => exact h.query hstep

end State.Exact

/-- Where each context awaits an operation before it begins another, a query
is executed under the tenant that the context had when the operation began,
whatever the other contexts do; without a tenant it may be executed under that
of another operation of its own transaction. -/
theorem exact_of_run {labels : List Label}
    (hsequential : Transition.StepsMeet Tenancy.step
      (fun s label => label.Sequential s) .initial labels)
    (hrun : Transition.run Tenancy.step .initial labels = some s) :
    forall a, a ∈ s.log ->
      a.settings.tenantPk = a.meant ∨
        a.meant = none ∧ exists b, b ∈ s.log ∧ b.context = a.context ∧
          b.meant = a.settings.tenantPk :=
  (Transition.run_invariant_of_meets
    (fun _ _ _ hs hok hstep => State.Exact.step hs hok hstep)
    exact_initial hsequential hrun).log

end Exact

/-- Operations of one context that overlap, with another tenant set in
between: the first queries under the tenant of the second. -/
example : (Transition.run step .initial [.enter 0, .transactional 0 1,
    .setTenantId 1 (some 7), .start 1 0, .setTenantId 1 (some 8), .start 1 1,
    .configure 0, .configure 1, .query 0]).map State.log =
    some [⟨1, ⟨some 8, false⟩, some 7⟩] := by
  decide

/-- A tenant that is unset in a transaction: the next query still runs under
it. -/
example : (Transition.run step .initial [.enter 0, .transactional 0 1,
    .setTenantId 1 (some 99), .start 1 0, .configure 0, .query 0,
    .setTenantId 1 none, .start 1 1, .query 1]).map State.log =
    some [⟨1, ⟨some 99, false⟩, some 99⟩, ⟨1, ⟨some 99, false⟩, none⟩] := by
  decide

/-! ## Two tenants at a time -/

def twoTenants : List Label :=
  [.enter 0, .enter 1, .setTenantId 0 (some 7), .setTenantId 1 (some 8),
    .transactional 0 2, .transactional 1 3, .start 2 0, .start 3 1,
    .configure 1, .configure 0, .query 1, .query 0, .settle 2 true,
    .settle 3 false]

def isTenantOf (c : Nat) (tenantPk : Int) : Prop :=
  (c = 0 ∨ c = 2) ∧ tenantPk = 7 ∨ (c = 1 ∨ c = 3) ∧ tenantPk = 8

theorem isolated_twoTenants :
    exists s, Transition.run step .initial twoTenants = some s ∧
      s.log.length = 2 ∧
      forall a, a ∈ s.log -> forall table tenantPk,
        table.hasPolicies = true -> a.settings.allows table tenantPk = true ->
          tenantPk = 0 ∨ isTenantOf a.context tenantPk ∨ False := by
  have hrun : (Transition.run step .initial twoTenants).isSome = true := rfl
  rcases Option.isSome_iff_exists.mp hrun with ⟨s, hs⟩
  refine ⟨s, hs, ?_, ?_⟩
  · cases hs
    rfl
  · refine @isolated_of_run isTenantOf (fun _ => False) s twoTenants ?_ hs
    intro label hlabel
    simp only [twoTenants, List.mem_cons, List.not_mem_nil, or_false] at hlabel
    rcases hlabel with rfl | rfl | rfl | rfl | rfl | rfl | rfl | rfl | rfl |
      rfl | rfl | rfl | rfl | rfl <;>
      simp [Label.Respects, isTenantOf]

theorem exact_twoTenants :
    exists s, Transition.run step .initial twoTenants = some s ∧
      s.log.length = 2 ∧
      forall a, a ∈ s.log ->
        a.settings.tenantPk = a.meant ∨
          a.meant = none ∧ exists b, b ∈ s.log ∧ b.context = a.context ∧
            b.meant = a.settings.tenantPk := by
  have hrun : (Transition.run step .initial twoTenants).isSome = true := rfl
  rcases Option.isSome_iff_exists.mp hrun with ⟨s, hs⟩
  refine ⟨s, hs, ?_, ?_⟩
  · cases hs
    rfl
  · apply exact_of_run _ hs
    simp [twoTenants, Transition.StepsMeet, Label.Sequential, step, State.enter,
      State.initial, State.setContext, State.setTenantId, State.transactional,
      State.start, State.setOperation, State.configure, State.query,
      State.settle, State.access, Function.update_apply]

end Tenancy
end CallgentApi
