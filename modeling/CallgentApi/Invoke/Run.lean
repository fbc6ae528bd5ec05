import CallgentApi.Invoke.Calls
import CallgentApi.Invoke.Callback

/-!
# The calls of one invocation

An invocation is called once with its arguments and then once for each callback
that finds it filed.  Between the calls the request is stored and read back, and
other invocations go on.
-/

namespace CallgentApi
namespace Invoke

open Js Event Realms Effect

variable {sigma : Type}

/-! ## One call -/

theorem chain_passage (host : ChainHost sigma) (status : InvokeStatus)
    (s : CallState sigma) :
    (enteredByChain host status s = [] ∧
      pendingEnd ((chain host status).exec s).1 = false ∧
      ((chain host status).exec s).2 = s) ∨
    (chainOpen status = true ∧ exists endpoint,
      Passage endpoint (processors host) status
        (some (.ofData status.response)) s (enteredByChain host status s)
        ((chain host status).exec s)) := by
  unfold chain enteredByChain
  rw [exec_bind_of_ok (exec_getEvent s)]
  cases s.event.context.endpoints with
  | none => exact Or.inl ⟨rfl, rfl, rfl⟩
  | some endpoints =>
      dsimp only
      cases endpoints.find? fun e => some e.name == status.epName with
      | none => exact Or.inl ⟨rfl, rfl, rfl⟩
      | some endpoint =>
          dsimp only
          cases hopen : chainOpen status with
          | false => exact Or.inl ⟨rfl, rfl, rfl⟩
          | true => exact Or.inr ⟨rfl, endpoint, passage_entered _ _ _ _ _⟩

/-- The check may be entered again and again; what follows is entered in the
order of the list, each processor once. -/
def InListOrder (host : ChainHost sigma) (trace : List Text) : Prop :=
  exists k rest, trace = List.replicate k authName ++ rest ∧
    rest <+: ((processors host).map SepProcessor.getName).tail

/-- Where a filed invocation stands after the processors it has entered. -/
inductive Standing : List Text -> InvokeStatus -> Prop where
  | auth {status : InvokeStatus} (k : Nat)
      (h : StandsAt (some authName) status) :
      Standing (List.replicate k authName) status
  | ended {status : InvokeStatus} (k : Nat) (h : StandsAt none status) :
      Standing (List.replicate k authName ++ [cachedName]) status
  | callback {status : InvokeStatus} (k : Nat)
      (h : StandsAt (some callbackPostprocessName) status) :
      Standing (List.replicate k authName ++ toCallback) status

theorem replicate_append_cons (k : Nat) (rest : List Text) :
    List.replicate k authName ++ authName :: rest =
      List.replicate (k + 1) authName ++ rest := by
  rw [List.replicate_succ', List.append_assoc]
  rfl

theorem Standing.inListOrder {trace : List Text} {status : InvokeStatus}
    (h : Standing trace status) (host : ChainHost sigma) :
    InListOrder host trace := by
  cases h with
  | auth k _ => exact ⟨k, [], (List.append_nil _).symm, List.nil_prefix⟩
  | ended k _ => exact ⟨k, [cachedName], rfl, _, rfl⟩
  | callback k _ => exact ⟨k, toCallback, rfl, _, rfl⟩

structure CallOf (host : ChainHost sigma) (trace : List Text)
    (last : ChainEnd sigma) : Prop where
  inListOrder : InListOrder host trace
  standing : forall status resp, last.1 = .ok (status, resp) ->
    PendingOrResponse.isPending resp = true -> Standing trace status

theorem CallOf.of_done {host : ChainHost sigma} {trace : List Text}
    {last : ChainEnd sigma} (hentered : InListOrder host trace)
    (hdone : pendingEnd last.1 = false) : CallOf host trace last := by
  constructor
  · exact hentered
  · intro status resp hlast hpending
    rw [hlast] at hdone
    exact absurd hpending (Bool.eq_false_iff.mp hdone)

theorem CallOf.of_left {host : ChainHost sigma} {trace : List Text}
    {last : ChainEnd sigma} {name : Option Text} (hleft : LeftAt name last.1)
    (h : forall status, StandsAt name status -> Standing trace status) :
    CallOf host trace last := by
  rcases hleft with ⟨status, resp, hlast, hat⟩
  constructor
  · exact (h status hat).inListOrder host
  · intro status' resp' hlast' _
    rw [hlast] at hlast'
    cases hlast'
    exact h status hat

theorem FromAuth.callOf {trace : List Text} {last : ChainEnd sigma}
    (h : FromAuth trace last) (host : ChainHost sigma) (k : Nat) :
    CallOf host (List.replicate k authName ++ trace) last := by
  cases h with
  | done hentered hdone =>
      apply CallOf.of_done _ hdone
      cases trace with
      | nil => exact ⟨k, [], rfl, List.nil_prefix⟩
      | cons name rest =>
          rcases List.cons_prefix_cons.mp hentered with ⟨rfl, hrest⟩
          rw [replicate_append_cons]
          exists k + 1, rest
          constructor
          · rfl
          · exact hrest.trans ⟨_, rfl⟩
  | auth hleft =>
      apply CallOf.of_left hleft
      intro status hat
      rw [replicate_append_cons, List.append_nil]
      exact Standing.auth (k + 1) hat
  | cached hleft =>
      apply CallOf.of_left hleft
      intro status hat
      rw [replicate_append_cons]
      exact Standing.ended (k + 1) hat
  | callback hleft =>
      apply CallOf.of_left hleft
      intro status hat
      rw [replicate_append_cons]
      exact Standing.callback (k + 1) hat

theorem InListOrder.nil (host : ChainHost sigma) : InListOrder host [] :=
  ⟨0, [], rfl, List.nil_prefix⟩

theorem callOf_fresh (host : ChainHost sigma) {status : InvokeStatus}
    (hfresh : status.processor = none) (s : CallState sigma) :
    CallOf host (enteredByChain host status s)
      ((chain host status).exec s) := by
  rcases chain_passage host status s with
    ⟨hnothing, hdone, _⟩ | ⟨_, endpoint, hpassage⟩
  · rw [hnothing]
    exact CallOf.of_done (InListOrder.nil host) hdone
  · exact (passage_of_fresh hfresh hpassage).callOf host 0

theorem Standing.callOf {trace : List Text} {status : InvokeStatus}
    (h : Standing trace status) (host : ChainHost sigma)
    (s : CallState sigma) :
    CallOf host (trace ++ enteredByChain host status s)
      ((chain host status).exec s) := by
  rcases chain_passage host status s with
    ⟨hnothing, hdone, _⟩ | ⟨hopen, endpoint, hpassage⟩
  · rw [hnothing, List.append_nil]
    exact CallOf.of_done (h.inListOrder host) hdone
  · cases h with
    | auth k hat => exact (passage_from_auth hpassage hat).callOf host k
    | ended k hat =>
        rw [chainOpen_of_ended hat] at hopen
        cases hopen
    | callback k hat =>
        rcases passage_from_callbackPostprocess hpassage hat rfl with
          ⟨hentered, hdone⟩
        apply CallOf.of_done _ hdone
        rw [List.append_assoc]
        exists k, toCallback ++ enteredByChain host status s
        constructor
        · rfl
        · exact (List.prefix_append_right_inj toCallback).mpr hentered

/-! ## Counting the calls of the adaptors -/

/-- `calls` counts how often an adaptor has been invoked. -/
structure Counts (calls : sigma -> Nat) (host : ChainHost sigma) :
    Prop where
  findEntry : forall id, Keeps calls (host.findEntry id)
  findRealm : forall pk, Keeps calls (host.findRealm pk)
  findFirstUserIdentity : forall userId provider,
    Keeps calls (host.findFirstUserIdentity userId provider)
  fromCached : forall invokeId endpoint reqEvent,
    Keeps calls (host.fromCached invokeId endpoint reqEvent)
  toCache : forall ctx response endpoint reqEvent,
    Keeps calls (host.toCache ctx response endpoint reqEvent)
  updateCache : forall response ctx endpoint,
    Keeps calls (host.updateCache response ctx endpoint)
  postprocess : forall key adaptor, host.serverAdaptors key = some adaptor ->
    forall resp reqEvent endpoint ctx,
      Keeps calls (adaptor.postprocess resp reqEvent endpoint ctx)
  invoke : forall key adaptor, host.serverAdaptors key = some adaptor ->
    forall endpoint args sentry reqEvent ctx s,
      calls ((adaptor.invoke endpoint args sentry reqEvent ctx).exec s).2 =
        calls s + 1

section Counting

variable {calls : sigma -> Nat} {host : ChainHost sigma}

/-- A processor invokes an adaptor at most once, and only one of them does. -/
def SepProcessor.Counting (calls : sigma -> Nat) (p : SepProcessor sigma) :
    Prop :=
  forall ctx endpoint preData,
    Adds (ofOutside calls) ([p.getName].count sepName)
      (p.body ctx endpoint preData)

theorem reads_of_counts (h : Counts calls host) :
    host.toRepository.Reads (ofOutside calls) where
  contextFree := contextFree_ofOutside calls
  findEntry := fun id => keeps_ofOutside (h.findEntry id)
  findRealm := fun pk => keeps_ofOutside (h.findRealm pk)
  findFirstUserIdentity := fun userId provider =>
    keeps_ofOutside (h.findFirstUserIdentity userId provider)

theorem counting_sepAuth (h : Counts calls host) :
    (sepAuthProcessor host).Counting calls := by
  intro ctx endpoint preData
  apply Adds.of_keeps
  refine Keeps.bind ?_ fun r => ?_
  · unfold callRealms
    split
    · exact keeps_checkSepAuth (reads_of_counts h) endpoint
    · split
      · exact Keeps.throw _
      · exact Keeps.throw _
  · split
    · exact Keeps.pure _
    · exact Keeps.pure _

theorem counting_sepCached (h : Counts calls host) :
    (sepCachedProcessor host).Counting calls := by
  intro ctx endpoint preData
  apply Adds.of_keeps
  refine Keeps.bind (keeps_getEvent _) fun reqEvent => ?_
  refine Keeps.bind (keeps_ofOutside (h.fromCached _ _ _)) fun cached => ?_
  split
  · exact Keeps.pure _
  · exact Keeps.pure _

theorem counting_sepInvoke (h : Counts calls host) :
    (sepInvokeProcessor host).Counting calls := by
  intro ctx endpoint preData
  apply Adds.bind_keeps (keeps_getEvent _)
  intro reqEvent
  apply Adds.bind_keeps (keeps_ofOutside (h.findEntry _))
  intro sentry
  cases hadaptor : host.serverAdaptors endpoint.adaptorKey with
  | none => exact Adds.of_keeps (Keeps.throw _) _
  | some adaptor =>
      apply Adds.keeps_bind
      · intro s
        exact Nat.le_of_eq (h.invoke _ adaptor hadaptor _ _ _ _ _ _)
      · exact fun data => Keeps.pure _

theorem counting_postprocess (h : Counts calls host) (ctx : InvokeStatus)
    (endpoint : EndpointDto) (preData : Option PendingOrResponse) :
    Keeps (ofOutside calls) (postprocess host ctx endpoint preData) := by
  unfold postprocess
  split
  · exact Keeps.throw _
  · split
    · exact Keeps.pure _
    · refine Keeps.bind (keeps_getEvent _) fun reqEvent => ?_
      split
      · exact Keeps.throw _
      · rename_i adaptor hadaptor
        refine Keeps.bind (keeps_ofOutside
          (h.postprocess _ adaptor hadaptor _ _ _ _)) fun data => ?_
        exact Keeps.pure _

theorem counting_sepCache (h : Counts calls host) :
    (sepCacheProcessor host).Counting calls := by
  intro ctx endpoint preData
  apply Adds.of_keeps
  refine Keeps.bind (keeps_getEvent _) fun reqEvent => ?_
  refine Keeps.bind (keeps_ofOutside (h.toCache _ _ _ _)) fun _ => ?_
  exact Keeps.pure _

theorem counting_sepCallback (h : Counts calls host) :
    (sepCallbackProcessor host).Counting calls := by
  intro ctx endpoint preData
  apply Adds.of_keeps
  refine Keeps.bind (keeps_ofOutside (h.updateCache _ _ _)) fun _ => ?_
  exact Keeps.pure _

theorem counting_processors (h : Counts calls host) :
    forall p, p ∈ processors host -> p.Counting calls := by
  intro p hp
  simp only [processors, List.mem_cons, List.not_mem_nil, or_false] at hp
  rcases hp with rfl | rfl | rfl | rfl | rfl | rfl | rfl
  · exact counting_sepAuth h
  · exact counting_sepCached h
  · exact counting_sepInvoke h
  · exact fun ctx endpoint preData =>
      Adds.of_keeps (counting_postprocess h ctx endpoint preData) _
  · exact counting_sepCache h
  · exact fun ctx endpoint preData =>
      Adds.of_keeps (counting_postprocess h ctx endpoint preData) _
  · exact counting_sepCallback h

theorem process_calls_le {p : SepProcessor sigma} (h : p.Counting calls)
    {ctx : InvokeStatus} {endpoint : EndpointDto} {nextProcessor : Option Text}
    {preData : Option PendingOrResponse} {s next : CallState sigma}
    {result : Except Thrown Processed}
    (hexec : (p.process ctx endpoint nextProcessor preData).exec s =
      (result, next)) :
    ofOutside calls next ≤
      ofOutside calls s + [p.getName].count sepName := by
  have hadds : Adds (ofOutside calls) ([p.getName].count sepName)
      (p.process ctx endpoint nextProcessor preData) := by
    apply Adds.keeps_bind (h ctx endpoint preData)
    rintro ⟨ctx, data⟩
    dsimp only
    split
    · exact Keeps.throw _
    · exact Keeps.pure _
  have hle := hadds s
  rw [hexec] at hle
  exact hle

theorem Passage.calls_le {endpoint : EndpointDto}
    {ps : List (SepProcessor sigma)} {status : InvokeStatus}
    {preData : Option PendingOrResponse} {s : CallState sigma}
    {trace : List Text} {last : ChainEnd sigma}
    (hpassage : Passage endpoint ps status preData s trace last)
    (h : forall p, p ∈ ps -> p.Counting calls) :
    ofOutside calls last.2 ≤ ofOutside calls s + trace.count sepName := by
  induction hpassage with
  | off => exact Nat.le_add_right _ _
  | skips _ _ ih => exact ih fun p hp => h p (List.mem_cons_of_mem _ hp)
  | throws _ hexec => exact process_calls_le (h _ List.mem_cons_self) hexec
  | stops _ hexec => exact process_calls_le (h _ List.mem_cons_self) hexec
  | @passes p rest _ _ _ _ _ tail _ _ hexec _ _ ih =>
      have hfirst := process_calls_le (h p List.mem_cons_self) hexec
      have hrest := ih fun p hp => h p (List.mem_cons_of_mem _ hp)
      have hcount : (p.getName :: tail).count sepName =
          [p.getName].count sepName + tail.count sepName :=
        @List.count_append _ _ sepName [p.getName] tail
      rw [hcount]
      omega

theorem chain_calls_le (h : Counts calls host) (status : InvokeStatus)
    (s : CallState sigma) :
    ofOutside calls ((chain host status).exec s).2 ≤
      ofOutside calls s + (enteredByChain host status s).count sepName := by
  rcases chain_passage host status s with
    ⟨_, _, hstate⟩ | ⟨_, endpoint, hpassage⟩
  · rw [hstate]
    exact Nat.le_add_right _ _
  · exact hpassage.calls_le (counting_processors h)

end Counting

/-! ## Runs -/

/-- The first call of the invocation and the callbacks that have found it
filed: the processors entered so far, what the last call has returned and left,
and how often an adaptor was invoked.  A record comes with each callback; only
the filed invocation is taken over to it, with the response. -/
inductive InvocationRun (host : InvokeHost sigma) (calls : sigma -> Nat)
    (id : Text) : List Text -> Except Thrown (Option PendingOrResponse) ->
      CallState sigma -> Nat -> Prop where
  | first {epName : Option Text} {args : Value} {s next : CallState sigma}
      {result : Except Thrown (Option PendingOrResponse)}
      (hfresh : entry id s = none)
      (hexec : (invokeSEP host epName args (some id)).exec s =
        (result, next)) :
      InvocationRun host calls id
        (enteredByChain host.toChainHost (chainStart epName args id s).1
          (chainStart epName args id s).2)
        result next (ofOutside calls next - ofOutside calls s)
  | callback {trace : List Text} {result result' : Except Thrown
        (Option PendingOrResponse)}
      {last s middle : CallState sigma} {n : Nat} {invocation : InvokeStatus}
      {response : Value}
      (hrun : InvocationRun host calls id trace result last n)
      (hfiled : entry id last = some invocation)
      (hentry : entry id s = some { invocation with response := response })
      (hid : s.world.invokeId = some id)
      (hexec : (invokeSEP host none none (some id)).exec s =
        (result', middle)) :
      InvocationRun host calls id
        (trace ++ enteredByChain host.toChainHost
          { invocation with response := response } s)
        result' ((invokeSEPsCallback host .reloaded).exec s).2
        (n + (ofOutside calls ((invokeSEPsCallback host .reloaded).exec s).2 -
          ofOutside calls s))

structure RunInvariant (host : InvokeHost sigma) (calls : sigma -> Nat)
    (id : Text) (trace : List Text)
    (result : Except Thrown (Option PendingOrResponse)) (s : CallState sigma)
    (n : Nat) : Prop where
  inListOrder : InListOrder host.toChainHost trace
  standing : forall status, entry id s = some status -> Standing trace status
  filed : (entry id s).isSome =
    PendingOrResponse.isPending result.toOption.join
  calls_le : Counts calls host.toChainHost -> n ≤ trace.count sepName

section Runs

variable {host : InvokeHost sigma} {calls : sigma -> Nat} {id : Text}

theorem exec_afterCallback_reloaded_keeps {t : Type}
    {f : CallState sigma -> t} (hf : ContextFree f) (id : Text)
    (response : Option PendingOrResponse) :
    Keeps f (afterCallback host .reloaded id response) := by
  refine Keeps.bind ?_ fun data => ?_
  · unfold callbackData
    split
    · exact Keeps.throw _
    · split
      · exact Keeps.throw _
      · exact Keeps.pure _
  · refine Keeps.bind (keeps_getEvent f) fun reqEvent => ?_
    split
    · refine Keeps.bind (hf _ (fun _ => rfl) (fun _ => rfl)) fun _ => ?_
      exact Keeps.pure _
    · refine Keeps.bind ?_ fun _ => Keeps.pure _
      intro s
      rw [exec_spawnOrRestoreSubprocess_reloaded]

theorem exec_invokeSEPsCallback_keeps {t : Type} {f : CallState sigma -> t}
    (hf : ContextFree f) {s : CallState sigma} {invocation : InvokeStatus}
    (hid : s.world.invokeId = some id)
    (hentry : entry id s = some invocation) :
    f ((invokeSEPsCallback host .reloaded).exec s).2 =
      f ((invokeSEP host none none (some id)).exec s).2 := by
  rw [exec_invokeSEPsCallback hid hentry]
  cases hexec : (invokeSEP host none none (some id)).exec s with
  | mk result middle =>
      cases result with
      | error e => rw [exec_bind_of_error hexec]
      | ok response =>
          rw [exec_bind_of_ok hexec]
          exact exec_afterCallback_reloaded_keeps hf id response middle

theorem exec_runAndFixCallback_keeps {t : Type} {f : CallState sigma -> t}
    (hf : ContextFree f) {s : CallState sigma} {invocation : InvokeStatus}
    (hid : s.world.invokeId = some id)
    (hentry : entry id s = some invocation) :
    f ((runAndFixCallback host .reloaded).exec s).2 =
      f ((invokeSEP host none none (some id)).exec s).2 := by
  rw [← exec_invokeSEPsCallback_keeps hf hid hentry]
  unfold runAndFixCallback
  cases hexec : (invokeSEPsCallback host .reloaded).exec s with
  | mk result middle =>
      rcases exec_invokeSEPsCallback_cases hid hexec with rfl | ⟨e, rfl, _⟩
      · rw [exec_bind_of_ok hexec]
        rfl
      · rw [exec_bind_of_error hexec]

theorem standing_of_callOf {trace : List Text} {epName : Option Text}
    {args : Value} {s next : CallState sigma}
    {result : Except Thrown (Option PendingOrResponse)} {status : InvokeStatus}
    (h : CallOf host.toChainHost trace
      ((chain host.toChainHost (chainStart epName args id s).1).exec
        (chainStart epName args id s).2))
    (hexec : (invokeSEP host epName args (some id)).exec s = (result, next))
    (hentry : entry id next = some status) : Standing trace status := by
  rw [exec_invokeSEP, Option.getD_some] at hexec
  split at hexec
  · rename_i status' resp after hchain
    cases hexec
    have hfiled := entry_settle_self id (some (status', resp)) after
    rw [hentry] at hfiled
    have hpending : PendingOrResponse.isPending resp = true := hfiled.symm
    have hset : entry id (settle id (some (status', resp)) after) =
        some status' := by
      show ((if PendingOrResponse.isPending resp then
          after.event.context.invocations.set id status'
        else after.event.context.invocations.delete id).entries id) = _
      rw [if_pos hpending]
      exact Invocations.entries_set_self _ _ _
    rw [hset] at hentry
    cases hentry
    rw [hchain] at h
    exact h.standing _ _ rfl hpending
  · rename_i e after hchain
    cases hexec
    have hfiled := entry_settle_self id none after
    rw [hentry] at hfiled
    cases hfiled

theorem calls_invokeSEP_le (h : Counts calls host.toChainHost)
    {epName : Option Text} {args : Value} {s next : CallState sigma}
    {result : Except Thrown (Option PendingOrResponse)}
    (hexec : (invokeSEP host epName args (some id)).exec s =
      (result, next)) :
    ofOutside calls next ≤ ofOutside calls s +
      (enteredByChain host.toChainHost (chainStart epName args id s).1
        (chainStart epName args id s).2).count sepName := by
  have hstart : ofOutside calls (chainStart epName args id s).2 =
      ofOutside calls s := by
    unfold chainStart
    split
    · rfl
    · rfl
  have hle := chain_calls_le h (chainStart epName args id s).1
    (chainStart epName args id s).2
  rw [hstart] at hle
  rw [exec_invokeSEP] at hexec
  split at hexec
  · rename_i hchain
    rw [Option.getD_some] at hchain
    rw [hchain] at hle
    cases hexec
    exact hle
  · rename_i hchain
    rw [Option.getD_some] at hchain
    rw [hchain] at hle
    cases hexec
    exact hle

theorem runInvariant_first {epName : Option Text} {args : Value}
    {s next : CallState sigma}
    {result : Except Thrown (Option PendingOrResponse)}
    (hfresh : entry id s = none)
    (hexec : (invokeSEP host epName args (some id)).exec s =
      (result, next)) :
    RunInvariant host calls id
      (enteredByChain host.toChainHost (chainStart epName args id s).1
        (chainStart epName args id s).2)
      result next (ofOutside calls next - ofOutside calls s) := by
  have hprocessor : (chainStart epName args id s).1.processor = none := by
    unfold chainStart
    rw [hfresh]
  have hcall := callOf_fresh host.toChainHost hprocessor
    (chainStart epName args id s).2
  constructor
  · exact hcall.inListOrder
  · intro status hentry
    exact standing_of_callOf hcall hexec hentry
  · exact entry_invokeSEP_self hexec
  · intro h
    have hcalls := calls_invokeSEP_le h hexec
    omega

theorem runInvariant_callback {trace : List Text}
    {result result' : Except Thrown (Option PendingOrResponse)}
    {last s middle : CallState sigma} {n : Nat} {invocation : InvokeStatus}
    {response : Value}
    (hinvariant : RunInvariant host calls id trace result last n)
    (hfiled : entry id last = some invocation)
    (hentry : entry id s = some { invocation with response := response })
    (hid : s.world.invokeId = some id)
    (hexec : (invokeSEP host none none (some id)).exec s =
      (result', middle)) :
    RunInvariant host calls id
      (trace ++ enteredByChain host.toChainHost
        { invocation with response := response } s)
      result' ((invokeSEPsCallback host .reloaded).exec s).2
      (n + (ofOutside calls ((invokeSEPsCallback host .reloaded).exec s).2 -
        ofOutside calls s)) := by
  have hsame : entry id ((invokeSEPsCallback host .reloaded).exec s).2 =
      entry id ((invokeSEP host none none (some id)).exec s).2 :=
    exec_invokeSEPsCallback_keeps
      (contextFree_kept.comp fun k => k.invocations.entries id) hid hentry
  have houtside :
      ofOutside calls ((invokeSEPsCallback host .reloaded).exec s).2 =
        ofOutside calls ((invokeSEP host none none (some id)).exec s).2 :=
    exec_invokeSEPsCallback_keeps (contextFree_ofOutside calls) hid hentry
  rw [hexec] at hsame houtside
  dsimp only at hsame houtside
  have hstands : Standing trace { invocation with response := response } := by
    cases hinvariant.standing invocation hfiled with
    | auth k hat => exact Standing.auth k hat
    | ended k hat => exact Standing.ended k hat
    | callback k hat => exact Standing.callback k hat
  have hcall := hstands.callOf host.toChainHost s
  have hstart := chainStart_of_filed hid hentry none none
  constructor
  · exact hcall.inListOrder
  · intro status hstatus
    rw [hsame] at hstatus
    apply standing_of_callOf _ hexec hstatus
    rw [hstart]
    exact hcall
  · rw [hsame]
    exact entry_invokeSEP_self hexec
  · intro h
    have hcalls := calls_invokeSEP_le h hexec
    have hprevious := hinvariant.calls_le h
    rw [hstart] at hcalls
    dsimp only at hcalls
    rw [houtside, List.count_append]
    omega

theorem runInvariant {trace : List Text}
    {result : Except Thrown (Option PendingOrResponse)}
    {next : CallState sigma} {n : Nat}
    (hrun : InvocationRun host calls id trace result next n) :
    RunInvariant host calls id trace result next n := by
  induction hrun with
  | first hfresh hexec => exact runInvariant_first hfresh hexec
  | callback _ hfiled hentry hid hexec ih =>
      exact runInvariant_callback ih hfiled hentry hid hexec

theorem InListOrder.count_le {trace : List Text}
    (h : InListOrder host.toChainHost trace) {name : Text}
    (hne : name ≠ authName) : trace.count name ≤ 1 := by
  rcases h with ⟨k, rest, rfl, hrest⟩
  have hchecks : (List.replicate k authName).count name = 0 := by
    apply List.count_eq_zero_of_not_mem
    intro hmem
    exact hne (List.eq_of_mem_replicate hmem)
  have hdistinct : ((processors host.toChainHost).map
      SepProcessor.getName).tail.Nodup := by
    show ([cachedName, sepName, postprocessName, cacheName,
      callbackPostprocessName, callbackName] : List Text).Nodup
    decide
  rw [List.count_append, hchecks, Nat.zero_add]
  exact List.nodup_iff_count_le_one.mp (hrest.sublist.nodup hdistinct) name

end Runs

/-! ## Adaptors that are counted -/

/-- A computation on what lies outside, beside a counter. -/
def beside {a : Type} (x : Effect sigma Thrown a) :
    Effect (Nat × sigma) Thrown a :=
  x.zoom Prod.snd fun s next => (s.1, next)

theorem keeps_beside {a : Type} (x : Effect sigma Thrown a) :
    Keeps Prod.fst (beside x) :=
  fun _ => rfl

def ServerAdaptor.counted (adaptor : ServerAdaptor sigma) :
    ServerAdaptor (Nat × sigma) where
  invoke := fun endpoint args sentry reqEvent ctx => do
    modify fun s => (s.1 + 1, s.2)
    beside (adaptor.invoke endpoint args sentry reqEvent ctx)
  postprocess := fun resp reqEvent endpoint ctx =>
    beside (adaptor.postprocess resp reqEvent endpoint ctx)

/-- Any host, with the calls of its adaptors counted. -/
def InvokeHost.counted (host : InvokeHost sigma) :
    InvokeHost (Nat × sigma) where
  findEntry := fun id => beside (host.findEntry id)
  findRealm := fun pk => beside (host.findRealm pk)
  findFirstUserIdentity := fun userId provider =>
    beside (host.findFirstUserIdentity userId provider)
  serverAdaptors := fun key =>
    (host.serverAdaptors key).map ServerAdaptor.counted
  fromCached := fun invokeId endpoint reqEvent =>
    beside (host.fromCached invokeId endpoint reqEvent)
  toCache := fun ctx response endpoint reqEvent =>
    beside (host.toCache ctx response endpoint reqEvent)
  updateCache := fun response ctx endpoint =>
    beside (host.updateCache response ctx endpoint)
  uploadBaseDir := host.uploadBaseDir
  spawnOrRestore := fun cwd cmdPrefix onConnect =>
    beside (host.spawnOrRestore cwd cmdPrefix onConnect)
  freezeProcess := fun cwd => beside (host.freezeProcess cwd)
  parseJson := host.parseJson

theorem counts_counted (host : InvokeHost sigma) :
    Counts Prod.fst host.counted.toChainHost where
  findEntry := fun _ => keeps_beside _
  findRealm := fun _ => keeps_beside _
  findFirstUserIdentity := fun _ _ => keeps_beside _
  fromCached := fun _ _ _ => keeps_beside _
  toCache := fun _ _ _ _ => keeps_beside _
  updateCache := fun _ _ _ => keeps_beside _
  postprocess := by
    intro key adaptor hadaptor resp reqEvent endpoint ctx
    rcases Option.map_eq_some_iff.mp hadaptor with ⟨plain, _, rfl⟩
    exact keeps_beside _
  invoke := by
    intro key adaptor hadaptor endpoint args sentry reqEvent ctx s
    rcases Option.map_eq_some_iff.mp hadaptor with ⟨plain, _, rfl⟩
    rfl

/-- In the calls of one invocation the processors are entered in the order of
the list, only the check more than once; an adaptor is invoked once at most; and
the invocation is filed while its last result is pending. -/
theorem invocation_run {host : InvokeHost sigma} {calls : sigma -> Nat}
    {id : Text} {trace : List Text}
    {result : Except Thrown (Option PendingOrResponse)}
    {next : CallState sigma} {n : Nat}
    (hrun : InvocationRun host calls id trace result next n) :
    InListOrder host.toChainHost trace ∧
      (forall name, name ≠ authName -> trace.count name ≤ 1) ∧
      (Counts calls host.toChainHost -> n ≤ 1) ∧
      (entry id next).isSome =
        PendingOrResponse.isPending result.toOption.join := by
  have hinvariant := runInvariant hrun
  have hsep : trace.count sepName ≤ 1 :=
    hinvariant.inListOrder.count_le (by decide)
  refine ⟨hinvariant.inListOrder, ?_, ?_, hinvariant.filed⟩
  · intro name hne
    exact hinvariant.inListOrder.count_le hne
  · intro hcounts
    exact (hinvariant.calls_le hcounts).trans hsep

/-! ## A request by mail, called back -/

def mailStart : CallState (Nat × Unit) :=
  ⟨petCall (some petEndpoint.name), ⟨none, (0, ())⟩, []⟩

def mailCalled : Except Thrown (Option PendingOrResponse) ×
    CallState (Nat × Unit) :=
  (invokeSEP mailHost.counted (some petEndpoint.name) none (some [])).exec
    mailStart

def mailRecord (invocation : InvokeStatus) : CallState (Nat × Unit) :=
  { mailCalled.2 with
      event := mailCalled.2.event.withInvocations
        (mailCalled.2.event.context.invocations.set []
          { invocation with response := some (.str "Tom".toList) })
      world := { mailCalled.2.world with invokeId := some [] } }

/-- The call and its callback enter all processors. -/
theorem invocation_run_mail :
    exists trace result next n,
      InvocationRun mailHost.counted Prod.fst [] trace result next n ∧
      trace = (processors mailHost.toChainHost).map SepProcessor.getName ∧
      InListOrder mailHost.counted.toChainHost trace ∧ n ≤ 1 ∧
      (entry [] next).isSome = false := by
  have hfiled : (entry [] mailCalled.2).isSome = true := rfl
  have hfirst : InvocationRun mailHost.counted Prod.fst [] _ mailCalled.1
      mailCalled.2 _ :=
    InvocationRun.first rfl
      (show (invokeSEP mailHost.counted (some petEndpoint.name) none
        (some [])).exec mailStart = _ from rfl)
  have hcalled := InvocationRun.callback
    (s := mailRecord ((entry [] mailCalled.2).get hfiled)) hfirst
    (Option.some_get hfiled).symm (Invocations.entries_set_self _ _ _) rfl rfl
  rcases invocation_run hcalled with ⟨horder, _, hcalls, hunfiled⟩
  exact ⟨_, _, _, _, hcalled, rfl, horder, hcalls (counts_counted mailHost),
    hunfiled.trans rfl⟩

end Invoke
end CallgentApi
