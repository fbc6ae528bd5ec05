import CallgentApi.Event.Resumption
import CallgentApi.Invoke.Run
import CallgentApi.Cached.History

/-!
# Rows of an event that has failed

A pending row waits for the event that has stored it.  When a callback of that
event fails, the event is not resumed any more; the row is updated by then only
if the chain of the callback has come as far as the cache.
-/

namespace CallgentApi
namespace Cached

open Js Event Realms Invoke Effect Transition

variable {tau : Type}

def PendingOf (t : CachedTable) (eventId : Text) (key : CachedKey) : Prop :=
  exists row, t.findUnique key = some row ∧
    row.value.response.statusCode = some 2 ∧ row.value.sourceId = eventId

/-! ## What the chain of a callback does to the rows -/

/-- Where the invocation of a pending event waits: for its check, for the
response that it observes, or for its callback. -/
inductive Waits : InvokeStatus -> Prop where
  | check (ctx : InvokeStatus) {funName : Text}
      (h : funName ∈ ["postAcquireSecret".toList, "postExchangeToken".toList,
        postValidateTokenName]) :
      Waits (placed ctx (some authName) (some funName))
  | observer (ctx : InvokeStatus) (memory : Option Text) :
      Waits (placed ctx none memory)
  | callback (ctx : InvokeStatus) (memory : Option Text) :
      Waits (placed ctx (some callbackPostprocessName) memory)

/-- The response of the callback is postprocessed: the endpoint is found, its
adaptor is registered, and the adaptor returns. -/
structure Postprocessed (b : Backend tau) (endpoint : EndpointDto)
    (status : InvokeStatus) (s : CallState (CachedWorld tau)) (data : Value)
    (outside : tau) : Prop where
  waits : StandsAt (some callbackPostprocessName) status
  finds : Finds endpoint status s
  returns : exists adaptor,
    b.serverAdaptors endpoint.adaptorKey = some adaptor ∧
    exec (adaptor.postprocess status.response s.event endpoint status)
      s.world.outside.outside = (.ok data, outside)

def Updates (b : Backend tau) (status : InvokeStatus)
    (s : CallState (CachedWorld tau)) (key : CachedKey) : Prop :=
  exists endpoint data outside cacheKey,
    Postprocessed b endpoint status s data outside ∧
    truthy status.cacheKey = some cacheKey ∧
    reallyCache status.cacheKey status.cacheTtl endpoint = true ∧
    key = ⟨endpoint.id, cacheKey⟩

section Chain

variable {b : Backend tau} {endpoint : EndpointDto} {status ctx : InvokeStatus}
  {memory : Option Text} {s next : CallState (CachedWorld tau)} {data : Value}
  {outside : tau}

theorem keeps_rows_postprocess (ctx : InvokeStatus) (endpoint : EndpointDto)
    (preData : Option PendingOrResponse) :
    Keeps rows (postprocess b.chainHost ctx endpoint preData) := by
  unfold postprocess
  split
  · exact Keeps.throw _
  · split
    · exact Keeps.pure _
    · apply Keeps.bind (keeps_getEvent rows)
      intro reqEvent
      split
      · exact Keeps.throw _
      · rename_i hadaptor
        rcases Option.map_eq_some_iff.mp hadaptor with ⟨_, _, hat⟩
        rw [← hat]
        exact Keeps.bind (keeps_rows_atOutside _) fun _ => Keeps.pure _

theorem exec_postprocess_cases {resp : PendingOrResponse}
    (hdone : resp.statusCode ≠ some 2) (ctx : InvokeStatus)
    (endpoint : EndpointDto) (s : CallState (CachedWorld tau)) :
    (exists e next, (postprocess b.chainHost ctx endpoint (some resp)).exec s =
        (.error e, next) ∧
      forall adaptor data outside,
        b.serverAdaptors endpoint.adaptorKey = some adaptor ->
        exec (adaptor.postprocess resp.value s.event endpoint ctx)
          s.world.outside.outside ≠ (.ok data, outside)) ∨
    exists adaptor data outside,
      b.serverAdaptors endpoint.adaptorKey = some adaptor ∧
      exec (adaptor.postprocess resp.value s.event endpoint ctx)
        s.world.outside.outside = (.ok data, outside) ∧
      (postprocess b.chainHost ctx endpoint (some resp)).exec s =
        (.ok (ctx, some (.ofData data)),
          { s with world := { s.world with
              outside := { s.world.outside with outside := outside } } }) := by
  unfold postprocess
  dsimp only
  rw [if_neg hdone, exec_bind_of_ok (exec_getEvent s)]
  cases hadaptor : b.serverAdaptors endpoint.adaptorKey with
  | none =>
      have hhost : b.chainHost.serverAdaptors endpoint.adaptorKey = none := by
        show (b.serverAdaptors endpoint.adaptorKey).map _ = none
        rw [hadaptor]
        rfl
      rw [hhost]
      left
      refine ⟨_, s, rfl, ?_⟩
      intro adaptor data outside hsome
      cases hsome
  | some adaptor =>
      have hhost : b.chainHost.serverAdaptors endpoint.adaptorKey =
          some (adaptorAtOutside adaptor) := by
        show (b.serverAdaptors endpoint.adaptorKey).map _ = _
        rw [hadaptor]
        rfl
      rw [hhost]
      dsimp only
      cases hexec : exec (adaptor.postprocess resp.value s.event endpoint ctx)
          s.world.outside.outside with
      | mk result outside =>
          have hat : (Action.outside ((adaptorAtOutside adaptor).postprocess
              resp.value s.event endpoint ctx)).exec s =
              (result, { s with world := { s.world with
                outside := { s.world.outside with outside := outside } } }) :=
            by
              show (exec (Action.outside (atOutside _)) s) = _
              unfold Action.outside atOutside
              rw [exec_zoom, exec_zoom, hexec]
          cases result with
          | error e =>
              left
              refine ⟨e, _, exec_bind_of_error hat _, ?_⟩
              intro other data outside' hsame hok
              rw [← Option.some.inj hsame, hexec] at hok
              cases hok
          | ok data =>
              right
              exact ⟨adaptor, data, outside, rfl, hexec,
                exec_bind_of_ok hat _⟩

theorem rows_chain_postprocessed
    (h : Postprocessed b endpoint
      (placed ctx (some callbackPostprocessName) memory) s data outside) :
    rows ((chain b.chainHost
        (placed ctx (some callbackPostprocessName) memory)).exec s).2 =
      (exec (updateCache (some (.ofData data)) ctx endpoint)
        { s.world.outside with outside := outside }).2.cached := by
  rcases h.returns with ⟨adaptor, hadaptor, hreturns⟩
  rcases exec_postprocess_cases (b := b) (statusCode_ofData ctx.response)
    (placed ctx (some callbackPostprocessName) memory) endpoint s with
    ⟨e, next, _, hnot⟩ | ⟨adaptor', data', outside', hadaptor', hreturns',
      hpost⟩
  · exact absurd hreturns (hnot adaptor data outside hadaptor)
  · rw [hadaptor] at hadaptor'
    cases hadaptor'
    rw [show (PendingOrResponse.ofData ctx.response).value = ctx.response
      from rfl, show ctx.response = (placed ctx
        (some callbackPostprocessName) memory).response from rfl,
      hreturns] at hreturns'
    cases hreturns'
    have hopen : chainOpen (placed ctx (some callbackPostprocessName) memory) =
        true :=
      chainOpen_of_standsAt (List.cons_ne_nil _ _) (standsAt_placed _ _ _)
    rcases exec_updateCache (placed ctx (some callbackName) memory)
      (.ofData data) endpoint { s.world.outside with outside := outside } with
      ⟨found, after, made, hexec, _⟩
    have hdiscarded : exec (b.chainHost.updateCache (some (.ofData data))
        (placed ctx (some callbackName) memory) endpoint)
        { s.world.outside with outside := outside } = (.ok (), after) :=
      exec_bind_of_ok hexec _
    have hsame : exec (updateCache (some (.ofData data)) ctx endpoint)
        { s.world.outside with outside := outside } = (.ok found, after) :=
      hexec
    rw [exec_chain_open h.finds hopen]
    have hchain := exec_from_callback hpost (exec_outside hdiscarded)
    rw [hsame]
    exact congrArg (fun r => rows r.2) hchain

theorem rows_chain_of_found
    (h : forall endpoint, Finds endpoint status s ->
      chainOpen status = true ->
        rows ((runChain endpoint (processors b.chainHost) status
          (some (.ofData status.response))).exec s).2 = rows s) :
    rows ((chain b.chainHost status).exec s).2 = rows s := by
  unfold chain
  rw [exec_bind_of_ok (exec_getEvent s)]
  cases hendpoints : s.event.context.endpoints with
  | none => rfl
  | some endpoints =>
      dsimp only
      cases hfound : endpoints.find? fun e => some e.name == status.epName with
      | none => rfl
      | some endpoint =>
          dsimp only
          split
          · rename_i hopen
            exact h endpoint ⟨endpoints, hendpoints, hfound⟩ hopen
          · rfl

theorem rows_chain_not_postprocessed
    (h : forall endpoint data outside, ¬ Postprocessed b endpoint
      (placed ctx (some callbackPostprocessName) memory) s data outside) :
    rows ((chain b.chainHost
        (placed ctx (some callbackPostprocessName) memory)).exec s).2 =
      rows s := by
  apply rows_chain_of_found
  intro endpoint hfinds _
  rcases exec_postprocess_cases (b := b) (statusCode_ofData ctx.response)
    (placed ctx (some callbackPostprocessName) memory) endpoint s with
    ⟨e, next, hthrew, _⟩ | ⟨adaptor, data, outside, hadaptor, hreturns, _⟩
  · have hkept := keeps_rows_postprocess (b := b)
      (placed ctx (some callbackPostprocessName) memory) endpoint
      (some (.ofData ctx.response)) s
    rw [hthrew] at hkept
    have hchain := exec_from_callback_throw hthrew
    exact (congrArg (fun r => rows r.2) hchain).trans hkept
  · exact absurd ⟨standsAt_placed _ _ _, hfinds, adaptor, hadaptor, hreturns⟩
      (h endpoint data outside)

theorem rows_chain_check {funName : Text}
    (h : funName ∈ ["postAcquireSecret".toList, "postExchangeToken".toList,
      postValidateTokenName]) :
    rows ((chain b.chainHost
        (placed ctx (some authName) (some funName))).exec s).2 = rows s := by
  apply rows_chain_of_found
  intro endpoint _ _
  have hcall : (callRealms b.chainHost.toRepository funName endpoint).exec s =
      (.error (Thrown.readUndefined "securityItem".toList), s) := by
    simp only [List.mem_cons, List.not_mem_nil, or_false] at h
    rcases h with rfl | rfl | rfl
    · rfl
    · rfl
    · rfl
  have hname : (truthy (some funName)).getD "checkSepAuth".toList =
      funName := by
    simp only [List.mem_cons, List.not_mem_nil, or_false] at h
    rcases h with rfl | rfl | rfl
    · rfl
    · rfl
    · rfl
  have hbody : ((sepAuthProcessor b.chainHost).body
      (placed ctx (some authName) (some funName)) endpoint
      (some (.ofData ctx.response))).exec s =
        (.error (Thrown.readUndefined "securityItem".toList), s) := by
    unfold sepAuthProcessor
    dsimp only
    rw [show (placed ctx (some authName) (some funName)).processor.bind
      ProcessorState.ctx = some funName from rfl, hname]
    exact exec_bind_of_error hcall _
  have hchain : (runChain endpoint (processors b.chainHost)
      (placed ctx (some authName) (some funName))
      (some (.ofData ctx.response))).exec s =
        (.error (Thrown.readUndefined "securityItem".toList), s) :=
    exec_runChain_throw (standsAt_placed ctx (some authName) (some funName))
      (exec_bind_of_error hbody _)
  exact congrArg (fun r => rows r.2) hchain

theorem pendingOf_edit {t : CachedTable} {key other : CachedKey}
    {row : CachedRow} {resp : PendingOrResponse} {eventId : Text}
    (hfound : t.findUnique key = some row) (hdone : resp.statusCode ≠ some 2) :
    PendingOf (t.edit row.pk fun data =>
        { data with response := column resp }) eventId other <->
      PendingOf t eventId other ∧ other ≠ key := by
  constructor
  · rintro ⟨row', hrow', hpending, hsource⟩
    rcases Table.findUnique_edit_cases hfound hrow' with
      ⟨_, hvalue⟩ | ⟨hne, hold⟩
    · rw [hvalue] at hpending
      exact absurd hpending hdone
    · exact ⟨⟨row', hold, hpending, hsource⟩, hne⟩
  · rintro ⟨⟨row', hold, hpending, hsource⟩, hne⟩
    refine ⟨row', ?_, hpending, hsource⟩
    rw [Table.findUnique_edit, hold]
    have hpk : row'.pk ≠ row.pk := by
      intro hpk
      have heq := Table.eq_of_pk (Table.mem_of_findUnique hold)
        (Table.mem_of_findUnique hfound) hpk
      apply hne
      rw [← Table.key_of_findUnique hold, heq]
      exact Table.key_of_findUnique hfound
    exact congrArg some (if_neg hpk)

theorem pendingOf_updateCache
    (h : Postprocessed b endpoint
      (placed ctx (some callbackPostprocessName) memory) s data outside)
    (eventId : Text) (key : CachedKey) :
    PendingOf (exec (updateCache (some (.ofData data)) ctx endpoint)
        { s.world.outside with outside := outside }).2.cached eventId key <->
      PendingOf (rows s) eventId key ∧
        ¬ Updates b (placed ctx (some callbackPostprocessName) memory) s
          key := by
  have honly : forall other, Updates b
      (placed ctx (some callbackPostprocessName) memory) s other ->
        exists cacheKey, truthy ctx.cacheKey = some cacheKey ∧
          reallyCache ctx.cacheKey ctx.cacheTtl endpoint = true ∧
          other = ⟨endpoint.id, cacheKey⟩ := by
    rintro other ⟨endpoint', _, _, cacheKey, hpost, hkey, hreally, hsame⟩
    rcases h.finds with ⟨endpoints, hendpoints, hfound⟩
    rcases hpost.finds with ⟨endpoints', hendpoints', hfound'⟩
    rw [hendpoints] at hendpoints'
    cases hendpoints'
    rw [hfound] at hfound'
    cases hfound'
    exact ⟨cacheKey, hkey, hreally, hsame⟩
  unfold updateCache
  cases hkey : truthy ctx.cacheKey with
  | none =>
      refine (and_iff_left ?_).symm
      intro hupdates
      rcases honly key hupdates with ⟨_, hsome, _⟩
      rw [hkey] at hsome
      cases hsome
  | some cacheKey =>
      dsimp only
      split
      · rename_i hreally
        have hreaches : Updates b
            (placed ctx (some callbackPostprocessName) memory) s
            ⟨endpoint.id, cacheKey⟩ :=
          ⟨endpoint, data, outside, cacheKey, h, hkey, hreally, rfl⟩
        have hunique : Updates b
            (placed ctx (some callbackPostprocessName) memory) s key <->
              key = ⟨endpoint.id, cacheKey⟩ := by
          constructor
          · intro hupdates
            rcases honly key hupdates with ⟨cacheKey', hkey', _, hsame⟩
            rw [hkey] at hkey'
            rw [hsame, Option.some.inj hkey']
          · intro hsame
            exact hsame ▸ hreaches
        rw [hunique, exec_bind_of_ok (exec_findOne cacheKey endpoint.id _)]
        cases hfound : s.world.outside.cached.findUnique
            ⟨endpoint.id, cacheKey⟩ with
        | none =>
            refine (and_iff_left_of_imp ?_).symm
            rintro ⟨row, hrow, _⟩ hsame
            change s.world.outside.cached.findUnique key = _ at hrow
            rw [hsame, hfound] at hrow
            cases hrow
        | some row =>
            have hupdated : exec (update row.pk (.ofData data))
                { s.world.outside with outside := outside } = _ :=
              exec_write_of_some (Table.update_of_findUnique hfound _) _
            dsimp only
            rw [exec_bind_of_ok hupdated]
            exact pendingOf_edit hfound (statusCode_ofData data)
      · rename_i hreally
        refine (and_iff_left ?_).symm
        intro hupdates
        rcases honly key hupdates with ⟨_, _, hreally', _⟩
        exact hreally hreally'

theorem pendingOf_chain (h : Waits status) (eventId : Text)
    (key : CachedKey) :
    PendingOf (rows ((chain b.chainHost status).exec s).2) eventId key <->
      PendingOf (rows s) eventId key ∧ ¬ Updates b status s key := by
  have hother : forall name, StandsAt name status ->
      name ≠ some callbackPostprocessName ->
      rows ((chain b.chainHost status).exec s).2 = rows s ->
        (PendingOf (rows ((chain b.chainHost status).exec s).2) eventId key <->
          PendingOf (rows s) eventId key ∧ ¬ Updates b status s key) := by
    intro name hat hne hrows
    rw [hrows]
    refine (and_iff_left ?_).symm
    rintro ⟨_, _, _, _, hpost, _⟩
    rcases hat with ⟨memory, hprocessor⟩
    rcases hpost.waits with ⟨memory', hprocessor'⟩
    rw [hprocessor] at hprocessor'
    exact hne (congrArg ProcessorState.name (Option.some.inj hprocessor'))
  cases h with
  | check ctx hname =>
      apply hother _ (standsAt_placed _ _ _) _ (rows_chain_check hname)
      intro h
      cases h
  | observer ctx memory =>
      apply hother _ (standsAt_placed _ _ _)
      · intro h
        cases h
      · apply rows_chain_of_found
        intro endpoint _ hopen
        cases hopen
  | callback ctx memory =>
      by_cases hpost : exists endpoint data outside, Postprocessed b endpoint
          (placed ctx (some callbackPostprocessName) memory) s data outside
      · rcases hpost with ⟨endpoint, data, outside, hpost⟩
        rw [rows_chain_postprocessed hpost]
        exact pendingOf_updateCache hpost eventId key
      · have hnot : forall endpoint data outside, ¬ Postprocessed b endpoint
            (placed ctx (some callbackPostprocessName) memory) s data
            outside :=
          fun endpoint data outside h => hpost ⟨endpoint, data, outside, h⟩
        rw [rows_chain_not_postprocessed hnot]
        refine (and_iff_left ?_).symm
        rintro ⟨endpoint, data, outside, _, h, _⟩
        exact hnot endpoint data outside h

end Chain

/-! ## An event with its rows -/

/-- A pending event as it is stored, whether a run of it has failed since, and
the cache. -/
structure Owner (tau : Type) where
  reqEvent : EventObject
  failed : Bool
  world : CachedWorld tau

/-- A call of the cache by another request, or a callback of the event. -/
inductive OwnerMove (tau : Type) where
  | other (call : CacheCall tau)
  | resume (invokeId : Text) (response : Value)

/-- What another event does: its rows are its own, and its chain updates a row
with a response that has come. -/
def ByOthers (eventId : Text) : OwnerMove tau -> Prop
  | .other (.toCache _ _ _ reqEvent) => reqEvent.id ≠ eventId
  | .other (.updateCache response _ _) =>
      PendingOrResponse.isPending response = false
  | .other _ => True
  | .resume _ _ => True

namespace Owner

/-- The call of the listener that resumes the event. -/
def start (event : EventObject) (invokeId : Text) (w : CachedWorld tau) :
    CallState (CachedWorld tau) :=
  ⟨event, ⟨some invokeId, w⟩, []⟩

def step (b : Backend tau) (host : InvokeHost (CachedWorld tau))
    (s : Owner tau) : OwnerMove tau -> Option (Owner tau)
  | .other call => some { s with world := call.after b s.world }
  | .resume invokeId response =>
      if s.failed then none
      else
        match setCallbackResponse invokeId response s.reqEvent with
        | .error _ => none
        | .ok event =>
            match (runAndFixCallback host .reloaded).exec
                (start event invokeId s.world) with
            | (.ok _, next) => some ⟨next.event, false, next.world.outside⟩
            | (.error _, next) => some ⟨next.event, true, next.world.outside⟩

def NoOrphan (s : Owner tau) : Prop :=
  s.failed = true -> forall key, ¬ PendingOf s.world.cached s.reqEvent.id key

/-- Every row of the event is updated by the callback that resumes it. -/
def AllUpdated (b : Backend tau) (s : Owner tau) : OwnerMove tau -> Prop
  | .other _ => True
  | .resume invokeId response =>
      forall key, PendingOf s.world.cached s.reqEvent.id key ->
        exists event status,
          setCallbackResponse invokeId response s.reqEvent = .ok event ∧
          event.context.invocations.entries invokeId = some status ∧
          Updates b status (start event invokeId s.world) key

/-- The invocations of an event that has not failed wait. -/
def Inv (eventId : Text) (s : Owner tau) : Prop :=
  s.reqEvent.id = eventId ∧
    (s.failed = false -> forall id status,
      s.reqEvent.context.invocations.entries id = some status ->
        Waits status)

end Owner

/-! ## What the moves do to the rows of the event -/

section Moves

variable {b : Backend tau} {host : InvokeHost (CachedWorld tau)}
  {eventId : Text}

theorem Waits.withResponse {status : InvokeStatus} (h : Waits status)
    (response : Value) : Waits { status with response := response } := by
  cases h with
  | check ctx hname => exact Waits.check { ctx with response := response } hname
  | observer ctx memory =>
      exact Waits.observer { ctx with response := response } memory
  | callback ctx memory =>
      exact Waits.callback { ctx with response := response } memory

theorem rows_runAndFixCallback (hhost : host.toChainHost = b.chainHost)
    {s : CallState (CachedWorld tau)} {id : Text} {status : InvokeStatus}
    (hid : s.world.invokeId = some id) (hentry : entry id s = some status) :
    rows ((runAndFixCallback host .reloaded).exec s).2 =
      rows ((chain b.chainHost status).exec s).2 := by
  have hfree : ContextFree (rows : CallState (CachedWorld tau) -> _) :=
    contextFree_ofOutside CachedWorld.cached
  rw [exec_runAndFixCallback_keeps hfree hid hentry,
    exec_invokeSEP_of_filed hid hentry, hhost]
  split
  · rename_i hchain
    rw [hchain]
    rfl
  · rename_i hchain
    rw [hchain]
    rfl

theorem id_runAndFixCallback (host : InvokeHost (CachedWorld tau))
    {s : CallState (CachedWorld tau)} {id : Text} {status : InvokeStatus}
    (hid : s.world.invokeId = some id)
    (hentry : entry id s = some status) :
    ((runAndFixCallback host .reloaded).exec s).2.event.id = s.event.id := by
  have hfree : ContextFree
      (fun s : CallState (CachedWorld tau) => s.event.toEventHeader) :=
    contextFree_kept.comp Kept.header
  have hinvoked := (settings_invokeSEP host none none (some id)).comp
    Prod.fst s
  have hheader := (exec_runAndFixCallback_keeps hfree hid hentry).trans
    hinvoked
  exact congrArg EventHeader.id hheader

theorem pendingOf_of_rowsOf {t' t : CachedTable} {key : CachedKey}
    (hrows : RowsOf t' t) (h : PendingOf t' eventId key) :
    PendingOf t eventId key := by
  rcases h with ⟨row', hrow', hpending, hsource⟩
  rcases hrows key row' hrow' with ⟨row, hrow, hvalue⟩
  rw [hvalue] at hpending hsource
  exact ⟨row, hrow, hpending, hsource⟩

theorem pendingOf_other {call : CacheCall tau} {w : CachedWorld tau}
    {key : CachedKey} (hothers : ByOthers eventId (.other call))
    (h : PendingOf (call.after b w).cached eventId key) :
    PendingOf w.cached eventId key := by
  cases call with
  | fromCached invokeId endpoint reqEvent =>
      exact pendingOf_of_rowsOf
        (rowsOf_fromCached b invokeId endpoint reqEvent w) h
  | delete uniqueWhere =>
      exact pendingOf_of_rowsOf (rowsOf_deleteWhere uniqueWhere w) h
  | pass outside => exact h
  | toCache ctx response endpoint reqEvent =>
      dsimp only [CacheCall.after] at h
      rcases toCache_cases b ctx response endpoint reqEvent w true with
        ⟨_, hworld⟩ | ⟨stored, resp, hnone, _, hworld⟩
      · rw [hworld] at h
        exact h
      · rw [hworld] at h
        rcases h with ⟨row, hrow, hpending, hsource⟩
        by_cases hkey : key = stored
        · rw [hkey, Table.findUnique_insert_self _ hnone] at hrow
          rw [← Option.some.inj hrow] at hsource
          exact absurd hsource hothers
        · rw [Table.findUnique_insert_of_ne _ hnone hkey] at hrow
          exact ⟨row, hrow, hpending, hsource⟩
  | updateCache response ctx endpoint =>
      dsimp only [CacheCall.after] at h
      rcases updateCache_cases response ctx endpoint w 0 false with
        ⟨_, ⟨_, hcached⟩ | ⟨stored, resp, row, hfound, hlog, hcached⟩⟩
      · rw [hcached] at h
        exact h
      · have hresponse := response_of_reported hlog
        have hdone : resp.statusCode ≠ some 2 := by
          intro hpending
          rw [hresponse] at hothers
          simp [ByOthers, PendingOrResponse.isPending, hpending] at hothers
        rw [hcached] at h
        exact ((pendingOf_edit hfound hdone).mp h).left

namespace Owner

theorem resume_cases (hhost : host.toChainHost = b.chainHost)
    {s s' : Owner tau} {invokeId : Text} {response : Value}
    (hstep : step b host s (.resume invokeId response) = some s') :
    s.failed = false ∧ s'.failed = true ∧
      s'.reqEvent.id = s.reqEvent.id ∧
      exists event status,
        s.reqEvent.context.invocations.entries invokeId = some status ∧
        setCallbackResponse invokeId response s.reqEvent = .ok event ∧
        event.context.invocations.entries invokeId =
          some { status with response := response } ∧
        s'.world.cached = rows ((chain b.chainHost
          { status with response := response }).exec
            (start event invokeId s.world)).2 := by
  cases hfailed : s.failed with
  | true => simp [step, hfailed] at hstep
  | false =>
      cases hset : setCallbackResponse invokeId response s.reqEvent with
      | error e => simp [step, hfailed, hset] at hstep
      | ok event =>
          rcases setCallbackResponse_ok hset with ⟨status, hstatus, hevent⟩
          have hfiled : event.context.invocations.entries invokeId =
              some { status with response := response } := by
            rw [hevent]
            exact Invocations.entries_set_self _ _ _
          have hid : event.id = s.reqEvent.id := by
            rw [hevent]
            rfl
          have hrows := rows_runAndFixCallback hhost
            (s := start event invokeId s.world) rfl hfiled
          have hsame := id_runAndFixCallback host
            (s := start event invokeId s.world) rfl hfiled
          simp only [step, hfailed, hset, Bool.false_eq_true, if_false]
            at hstep
          cases hexec : (runAndFixCallback host .reloaded).exec
              (start event invokeId s.world) with
          | mk result next =>
              rcases runAndFixCallback_reloaded_throws
                (s := start event invokeId s.world) rfl hexec with
                ⟨e, rfl, _⟩
              rw [hexec] at hstep hrows hsame
              rw [← Option.some.inj hstep]
              exact ⟨rfl, rfl, hsame.trans hid, event, status, hstatus, rfl,
                hfiled, hrows⟩

theorem inv_step (hhost : host.toChainHost = b.chainHost)
    {s s' : Owner tau} {move : OwnerMove tau} (h : Inv eventId s)
    (hstep : step b host s move = some s') : Inv eventId s' := by
  cases move with
  | other call =>
      rw [← Option.some.inj hstep]
      exact h
  | resume invokeId response =>
      rcases resume_cases hhost hstep with ⟨_, hfailed, hid, _⟩
      refine ⟨hid.trans h.left, ?_⟩
      intro hlive
      rw [hfailed] at hlive
      cases hlive

theorem noOrphan_step_iff (hhost : host.toChainHost = b.chainHost)
    {s s' : Owner tau} {move : OwnerMove tau}
    (hothers : ByOthers eventId move) (h : Inv eventId s) (hs : s.NoOrphan)
    (hstep : step b host s move = some s') :
    s'.NoOrphan <-> AllUpdated b s move := by
  cases move with
  | other call =>
      rw [← Option.some.inj hstep]
      refine iff_of_true ?_ True.intro
      intro hfailed key hpending
      rw [h.left] at hpending
      have hbefore := pendingOf_other hothers hpending
      rw [← h.left] at hbefore
      exact hs hfailed key hbefore
  | resume invokeId response =>
      rcases resume_cases hhost hstep with ⟨hlive, hfailed, hid, event,
        status, hstatus, hset, hfiled, hrows⟩
      have hwaits := (h.right hlive invokeId status hstatus).withResponse
        response
      have hpending := fun key => pendingOf_chain (b := b)
        (s := start event invokeId s.world) hwaits s.reqEvent.id key
      constructor
      · intro hnone key hkey
        refine ⟨event, _, hset, hfiled, ?_⟩
        by_contra hnot
        have hafter := (hpending key).mpr ⟨hkey, hnot⟩
        rw [← hrows, ← hid] at hafter
        exact hnone hfailed key hafter
      · intro hall _ key hafter
        rw [hid, hrows] at hafter
        rcases (hpending key).mp hafter with ⟨hkey, hnot⟩
        rcases hall key hkey with ⟨event', status', hset', hfiled', hupdates⟩
        rw [hset] at hset'
        cases hset'
        rw [hfiled] at hfiled'
        cases hfiled'
        exact hnot hupdates

/-- In every run of an event's callbacks and of what others do to the cache,
no row waits for the event once it has failed, exactly if the callback that
fails updates every row of the event. -/
theorem noOrphan_iff (hhost : host.toChainHost = b.chainHost)
    {s t : Owner tau} {moves : List (OwnerMove tau)}
    (hpending : s.failed = false)
    (hwaits : forall id status,
      s.reqEvent.context.invocations.entries id = some status -> Waits status)
    (hothers : forall move, move ∈ moves -> ByOthers s.reqEvent.id move)
    (hrun : run (step b host) s moves = some t) :
    Along (step b host) NoOrphan s moves <->
      StepsMeet (step b host) (AllUpdated b) s moves := by
  have hnone : s.NoOrphan := by
    intro hfailed
    rw [hpending] at hfailed
    cases hfailed
  have hinv : forall s' move s'', move ∈ moves ->
      Inv s.reqEvent.id s' -> step b host s' move = some s'' ->
        Inv s.reqEvent.id s'' :=
    fun _ _ _ _ h hstep => inv_step hhost h hstep
  have hiff := along_iff_stepsMeet_of_inv hinv
    (fun _ move _ hmem h hs hstep =>
      noOrphan_step_iff hhost (hothers move hmem) h hs hstep)
    ⟨rfl, fun _ => hwaits⟩ hrun
  rw [hiff]
  exact and_iff_right hnone

end Owner

end Moves

/-! ## A callback for the pets that fails -/

namespace Owner

def brokenBackend : Backend Bool :=
  { petBackend with
      serverAdaptors := fun _ => some
        { petAdaptor with
            postprocess := fun _ _ _ _ =>
              throw (Thrown.plain "no pets".toList) } }

def hostOf (b : Backend Bool) : InvokeHost (CachedWorld Bool) :=
  { b.chainHost with
      uploadBaseDir := "/upload".toList
      spawnOrRestore := fun _ _ _ => return ⟨[], .ok (some 0)⟩
      freezeProcess := fun _ => return ()
      parseJson := fun _ => .error [] }

def petKey : CachedKey :=
  ⟨minuteEndpoint.id, minuteEndpoint.name⟩

def petWaiting : InvokeStatus :=
  placed
    { petStatus with
        cacheKey := some minuteEndpoint.name
        cacheTtl := some 60 }
    (some callbackPostprocessName) none

def petOwner : Owner Bool :=
  let event := (petRequest .empty false).event
  ⟨event.withInvocations (Invocations.empty.set [] petWaiting), false,
    ⟨Table.empty.insert petKey ⟨event.id, .pending, [], 0⟩ rfl, [], false⟩⟩

theorem waits_petOwner {id : Text} {status : InvokeStatus}
    (h : petOwner.reqEvent.context.invocations.entries id = some status) :
    Waits status := by
  change (Invocations.empty.set [] petWaiting).entries id = some status at h
  by_cases hid : id = []
  · rw [hid, Invocations.entries_set_self] at h
    rw [← Option.some.inj h]
    exact Waits.callback _ none
  · rw [Invocations.entries_set_of_ne _ _ hid] at h
    cases h

/-- The callback whose response is postprocessed leaves no row behind. -/
theorem noOrphan_petOwner :
    exists s, run (step petBackend (hostOf petBackend)) petOwner
        [.resume [] tom] = some s ∧
      Along (step petBackend (hostOf petBackend)) NoOrphan petOwner
        [.resume [] tom] := by
  have hmeets : StepsMeet (step petBackend (hostOf petBackend))
      (AllUpdated petBackend) petOwner [.resume [] tom] := by
    constructor
    · rintro key ⟨row, hrow, _⟩
      have hkey := Table.key_of_findUnique hrow
      have hmem := Table.mem_of_findUnique hrow
      rw [← hkey, List.mem_singleton.mp hmem]
      exact ⟨_, _, rfl, rfl, minuteEndpoint, listed tom, false,
        minuteEndpoint.name, ⟨⟨none, rfl⟩, ⟨_, rfl, rfl⟩, petAdaptor, rfl,
          rfl⟩, rfl, rfl, rfl⟩
    · intro _ _
      exact True.intro
  exact ⟨_, rfl, (noOrphan_iff rfl rfl (fun _ _ h => waits_petOwner h)
    (fun move hmem => by rw [List.mem_singleton.mp hmem]; exact True.intro)
    rfl).mpr hmeets⟩

/-- The endpoint is asynchronous, the callback fails, and the row still waits
for it. -/
theorem orphan_of_broken :
    minuteEndpoint.isAsync = true ∧
      exists s, run (step brokenBackend (hostOf brokenBackend)) petOwner
          [.resume [] tom] = some s ∧
        s.failed = true ∧
        PendingOf s.world.cached s.reqEvent.id petKey :=
  ⟨rfl, _, rfl, rfl, _, rfl, rfl, rfl⟩

end Owner

end Cached
end CallgentApi
