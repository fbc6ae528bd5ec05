import CallgentApi.Cached.Service
import CallgentApi.Invoke.Callback
import CallgentApi.Invoke.Advance

/-!
# The routes of a response

A raw response reaches the caller at once, after a callback, through another
invocation that the caller observes, or from the cache.
-/

namespace CallgentApi
namespace Cached

open Js Event Realms Invoke Effect

variable {tau : Type}

/-! ## What the service does to the table -/

section Table

variable {b : Backend tau} {endpoint : EndpointDto} {reqEvent : EventObject}
  {invokeId : Text} {w next : CachedWorld tau}

theorem exec_findOne (cacheKey sepId : Text) (w : CachedWorld tau) :
    exec (findOne cacheKey sepId) w =
      (.ok (w.cached.findUnique ⟨sepId, cacheKey⟩), w) := rfl

theorem exec_write_of_some {op : CachedTable -> Option CachedTable}
    {t : CachedTable} (h : op w.cached = some t) (e : Thrown) :
    exec (write e op) w = (.ok (), { w with cached := t }) := by
  unfold write
  rw [exec_bind_of_ok (exec_get w), h]
  rfl

theorem exec_write_of_none {op : CachedTable -> Option CachedTable}
    (h : op w.cached = none) (e : Thrown) :
    exec (write e op) w = (.error e, w) := by
  unfold write
  rw [exec_bind_of_ok (exec_get w), h]
  rfl

theorem exec_write_cases (e : Thrown)
    (op : CachedTable -> Option CachedTable) (w : CachedWorld tau) :
    (exists t, op w.cached = some t ∧
      exec (write e op) w = (.ok (), { w with cached := t })) ∨
    (op w.cached = none ∧ exec (write e op) w = (.error e, w)) := by
  cases hop : op w.cached with
  | none => exact Or.inr ⟨rfl, exec_write_of_none hop e⟩
  | some t => exact Or.inl ⟨t, rfl, exec_write_of_some hop e⟩

/-- What a lookup says: without a response there is no row any more, with one
there is the row that it was read from. -/
structure LookedUp (endpoint : EndpointDto) (w next : CachedWorld tau)
    (cached : CachedLookup) : Prop where
  miss : cached.response = none -> forall cacheKey,
    truthy cached.cacheKey = some cacheKey ->
    reallyCache cached.cacheKey cached.cacheTtl endpoint = true ->
      next.cached.findUnique ⟨endpoint.id, cacheKey⟩ = none
  hit : forall response, cached.response = some response ->
    exists cacheKey row, truthy cached.cacheKey = some cacheKey ∧
      w.cached.findUnique ⟨endpoint.id, cacheKey⟩ = some row ∧
      row.value.response = response

theorem truthy_of_reallyCache {cacheKey : Text} {cacheTtl : Option Nat}
    (h : reallyCache (some cacheKey) cacheTtl endpoint = true) :
    truthy (some cacheKey) = some cacheKey := by
  unfold reallyCache at h
  cases cacheKey with
  | nil => simp [truthy] at h
  | cons c rest => rfl

theorem lookedUp_fromCached {cached : CachedLookup}
    (h : exec (fromCached b invokeId endpoint reqEvent) w =
      (.ok cached, next)) : LookedUp endpoint w next cached := by
  unfold fromCached at h
  split at h
  · cases h
  · cases h
    constructor
    · intro _ cacheKey hkey
      cases hkey
    · intro response hresponse
      cases hresponse
  · rename_i cacheKey cacheTtl hconfig
    split at h
    · rename_i hreally
      have hkey := truthy_of_reallyCache hreally
      rw [exec_bind_of_ok (exec_findOne cacheKey endpoint.id w)] at h
      split at h
      · rename_i hnone
        cases h
        constructor
        · intro _ key htruthy _
          rw [hkey] at htruthy
          cases htruthy
          exact hnone
        · intro response hresponse
          cases hresponse
      · rename_i row hfound
        rw [exec_bind_of_ok (exec_get w)] at h
        split at h
        · rcases exec_bind_eq_ok h with ⟨_, middle, hdelete, hlast⟩
          cases hlast
          unfold delete at hdelete
          rw [exec_write_of_some (Table.delete_of_findUnique hfound)] at hdelete
          cases hdelete
          constructor
          · intro _ key htruthy _
            rw [hkey] at htruthy
            cases htruthy
            exact Table.findUnique_erase_self hfound
          · intro response hresponse
            cases hresponse
        · rcases exec_bind_eq_ok h with ⟨_, middle, _, hlast⟩
          cases hlast
          constructor
          · intro hnone
            cases hnone
          · intro response hresponse
            exact ⟨cacheKey, row, hkey, hfound, Option.some.inj hresponse⟩
    · rename_i hreally
      cases h
      constructor
      · intro _ key _ hreally'
        exact absurd hreally' hreally
      · intro response hresponse
        cases hresponse

/-- The response is in the row of an invocation's cache key, if it has one. -/
def StoredAt (endpoint : EndpointDto) (ctx : InvokeStatus)
    (response : PendingOrResponse) (t : CachedTable) : Prop :=
  forall cacheKey row, truthy ctx.cacheKey = some cacheKey ->
    reallyCache ctx.cacheKey ctx.cacheTtl endpoint = true ->
    t.findUnique ⟨endpoint.id, cacheKey⟩ = some row ->
      row.value.response = column response

theorem exec_toCache {ctx : InvokeStatus} (response : PendingOrResponse)
    (reqEvent : EventObject)
    (hfree : forall cacheKey, truthy ctx.cacheKey = some cacheKey ->
      reallyCache ctx.cacheKey ctx.cacheTtl endpoint = true ->
        w.cached.findUnique ⟨endpoint.id, cacheKey⟩ = none) :
    exists stored next,
      exec (toCache b ctx (some response) endpoint reqEvent) w =
        (.ok stored, next) ∧
      StoredAt endpoint ctx response next.cached := by
  unfold toCache StoredAt
  cases hkey : truthy ctx.cacheKey with
  | none =>
      refine ⟨false, w, rfl, ?_⟩
      intro cacheKey row hnone
      cases hnone
  | some cacheKey =>
      dsimp only
      cases hreally : reallyCache ctx.cacheKey ctx.cacheTtl endpoint with
      | false =>
          refine ⟨false, w, rfl, ?_⟩
          intro _ row _ hfalse
          cases hfalse
      | true =>
          have hnone := hfree cacheKey hkey hreally
          let data := newData (b.now w.outside) response reqEvent
          have hcreated : exec (write uniqueConstraint fun t =>
              t.create ⟨endpoint.id, cacheKey⟩ data) w =
                (.ok (), { w with cached := w.cached.insert _ data hnone }) :=
            exec_write_of_some (Table.create_of_none data hnone) _
          refine ⟨true, { w with cached := w.cached.insert _ data hnone },
            ?_, ?_⟩
          · rw [if_pos rfl, exec_bind_of_ok (exec_get w),
              exec_bind_of_ok hcreated]
            rfl
          · intro key row hsame _ hfound
            rw [← Option.some.inj hsame,
              Table.findUnique_insert_self _ hnone] at hfound
            rw [← Option.some.inj hfound]
            rfl

theorem exec_updateCache (ctx : InvokeStatus) (response : PendingOrResponse)
    (endpoint : EndpointDto) (w : CachedWorld tau) :
    exists found next made,
      exec (updateCache (some response) ctx endpoint) w = (.ok found, next) ∧
      StoredAt endpoint ctx response next.cached ∧
      next.resumed = w.resumed ++ made ∧
      forall key d, (key, d) ∈ made -> d = response.value := by
  unfold updateCache StoredAt
  cases hkey : truthy ctx.cacheKey with
  | none =>
      refine ⟨false, w, [], rfl, ?_, (List.append_nil _).symm, ?_⟩
      · intro cacheKey row hnone
        cases hnone
      · intro key d hmem
        cases hmem
  | some cacheKey =>
      dsimp only
      cases hreally : reallyCache ctx.cacheKey ctx.cacheTtl endpoint with
      | false =>
          refine ⟨false, w, [], rfl, ?_, (List.append_nil _).symm, ?_⟩
          · intro _ row _ hfalse
            cases hfalse
          · intro key d hmem
            cases hmem
      | true =>
          rw [if_pos rfl, exec_bind_of_ok (exec_findOne cacheKey endpoint.id w)]
          cases hfound : w.cached.findUnique ⟨endpoint.id, cacheKey⟩ with
          | none =>
              refine ⟨false, w, [], rfl, ?_, (List.append_nil _).symm, ?_⟩
              · intro key row hsame _ hrow
                rw [← Option.some.inj hsame, hfound] at hrow
                cases hrow
              · intro key d hmem
                cases hmem
          | some row =>
              have hupdated : exec (update row.pk response) w =
                  (.ok (), { w with cached := w.cached.edit row.pk fun data =>
                    { data with response := column response } }) :=
                exec_write_of_some (Table.update_of_findUnique hfound _) _
              dsimp only
              rw [exec_bind_of_ok hupdated]
              refine ⟨true, _, (notifiedKeys row.value.invokeKeys).map
                fun key => (key, response.value), rfl, ?_, rfl, ?_⟩
              · intro key row' hsame _ hrow
                change (w.cached.edit row.pk _).findUnique _ = _ at hrow
                rw [Table.findUnique_edit, ← Option.some.inj hsame, hfound]
                  at hrow
                rw [← Option.some.inj hrow]
                simp [Table.editRow]
              · intro key d hmem
                rcases List.mem_map.mp hmem with ⟨_, _, hpair⟩
                exact (congrArg Prod.snd hpair).symm

end Table

/-! ## Requests -/

abbrev rows (s : CallState (CachedWorld tau)) : CachedTable :=
  s.world.outside.cached

/-- An adaptor whose postprocessing is a function of the response. -/
def PurePostprocess (adaptor : ServerAdaptor tau) (post : Value -> Value) :
    Prop :=
  forall resp reqEvent endpoint ctx,
    adaptor.postprocess resp reqEvent endpoint ctx = return post resp

inductive Checked (b : Backend tau) (endpoint : EndpointDto) :
    CallState (CachedWorld tau) -> CallState (CachedWorld tau) -> Prop where
  | intro {returned : Option Returned} {s next : CallState (CachedWorld tau)}
      (hcheck : (checkSepAuth b.chainHost.toRepository endpoint).exec s =
        (.ok returned, next))
      (hpassed : truthy (returned.bind Returned.resumeFunName) = none) :
      Checked b endpoint s next

def LooksUp (b : Backend tau) (endpoint : EndpointDto) (invokeId : Text)
    (s next : CallState (CachedWorld tau)) (cached : CachedLookup) : Prop :=
  (Action.outside (b.chainHost.fromCached invokeId endpoint s.event)).exec s =
    (.ok cached, next)

/-- A request that finds nothing in the cache is answered by the adaptor. -/
inductive Invoked (b : Backend tau) (endpoint : EndpointDto)
    (adaptor : ServerAdaptor tau) (status : InvokeStatus)
    (answer : PendingOrResponse) :
    CachedLookup -> CallState (CachedWorld tau) ->
      CallState (CachedWorld tau) -> Prop where
  | intro {cached : CachedLookup} {sentry : Option EntryDto}
      {s checked looked found last : CallState (CachedWorld tau)}
      (hfresh : status.processor = none) (hkeyless : status.cacheKey = none)
      (hfinds : Finds endpoint status s)
      (hcheck : Checked b endpoint s checked)
      (hlookup : LooksUp b endpoint status.invokeId checked looked cached)
      (hmiss : cached.response = none)
      (hentry : (Action.outside (atOutside
        (b.findEntry endpoint.entryId))).exec looked = (.ok sentry, found))
      (hinvoke : (Action.outside (atOutside (adaptor.invoke endpoint
        status.args sentry looked.event
        (placed (withCacheKey status cached) (some sepName) none)))).exec
          found = (.ok (some answer), last)) :
      Invoked b endpoint adaptor status answer cached s last

inductive FoundCached (b : Backend tau) (endpoint : EndpointDto)
    (status : InvokeStatus) (response : PendingOrResponse) :
    CachedLookup -> CallState (CachedWorld tau) ->
      CallState (CachedWorld tau) -> CallState (CachedWorld tau) -> Prop where
  | intro {cached : CachedLookup}
      {s checked looked : CallState (CachedWorld tau)}
      (hfresh : status.processor = none) (hfinds : Finds endpoint status s)
      (hcheck : Checked b endpoint s checked)
      (hlookup : LooksUp b endpoint status.invokeId checked looked cached)
      (hhit : cached.response = some response) :
      FoundCached b endpoint status response cached s checked looked

section Requests

variable {b : Backend tau} {endpoint : EndpointDto}
  {adaptor : ServerAdaptor tau} {post : Value -> Value}
  {status : InvokeStatus} {answer : PendingOrResponse}
  {cached : CachedLookup} {s last : CallState (CachedWorld tau)}

theorem lookedUp_of_looksUp {invokeId : Text}
    {next : CallState (CachedWorld tau)}
    (h : LooksUp b endpoint invokeId s next cached) :
    LookedUp endpoint s.world.outside next.world.outside cached := by
  unfold LooksUp at h
  have hresult : (exec (fromCached b invokeId endpoint s.event)
      s.world.outside).1 = .ok cached :=
    congrArg Prod.fst h
  have hnext : (exec (fromCached b invokeId endpoint s.event)
      s.world.outside).2 = next.world.outside :=
    congrArg (fun r => r.2.world.outside) h
  exact lookedUp_fromCached (Prod.ext hresult hnext)

theorem keeps_rows_atOutside {a : Type} (x : Effect tau Thrown a) :
    Keeps rows (Action.outside (atOutside x)) :=
  fun _ => rfl

theorem args_withCacheKey (status : InvokeStatus) (cached : CachedLookup) :
    (withCacheKey status cached).args = status.args := by
  unfold withCacheKey
  split
  · rfl
  · rfl

theorem statusCode_ofData (data : Value) :
    (PendingOrResponse.ofData data).statusCode ≠ some 2 := by
  intro h
  cases h

theorem withCacheKey_of_keyless (hkeyless : status.cacheKey = none)
    {cacheKey : Text}
    (hkey : truthy (withCacheKey status cached).cacheKey = some cacheKey) :
    truthy cached.cacheKey = some cacheKey ∧
      (withCacheKey status cached).cacheKey = cached.cacheKey ∧
      (withCacheKey status cached).cacheTtl = cached.cacheTtl := by
  unfold withCacheKey at hkey ⊢
  split at hkey
  · rename_i hsome
    rw [if_pos hsome]
    exact ⟨hkey, rfl, rfl⟩
  · rw [hkeyless] at hkey
    cases hkey

theorem exec_chain_invoked
    (hadaptor : b.serverAdaptors endpoint.adaptorKey = some adaptor)
    (h : Invoked b endpoint adaptor status answer cached s last) :
    (chain b.chainHost status).exec s =
        (runChain endpoint ((processors b.chainHost).drop 3)
          (placed (withCacheKey status cached) (some postprocessName) none)
          (some answer)).exec last ∧
      forall cacheKey,
        truthy (withCacheKey status cached).cacheKey = some cacheKey ->
        reallyCache (withCacheKey status cached).cacheKey
          (withCacheKey status cached).cacheTtl endpoint = true ->
          (rows last).findUnique ⟨endpoint.id, cacheKey⟩ = none := by
  cases h with
  | intro hfresh hkeyless hfinds hchecked hlookup hmiss hentry hinvoke =>
      rcases hchecked with ⟨hcheck, hpassed⟩
      have hhost : b.chainHost.serverAdaptors endpoint.adaptorKey =
          some (adaptorAtOutside adaptor) := by
        show (b.serverAdaptors endpoint.adaptorKey).map _ = _
        rw [hadaptor]
        rfl
      constructor
      · rw [exec_chain_open hfinds (chainOpen_of_fresh hfresh)]
        apply (exec_runChain_fresh hfresh).trans
        apply (exec_from_auth hcheck hpassed).trans
        apply (exec_from_cached_miss hlookup hmiss).trans
        apply exec_from_sep hhost hentry
        rw [args_withCacheKey]
        exact hinvoke
      · intro cacheKey hkey hreally
        rcases withCacheKey_of_keyless hkeyless hkey with
          ⟨htruthy, hkeyEq, httlEq⟩
        rw [hkeyEq, httlEq] at hreally
        have hnone := (lookedUp_of_looksUp hlookup).miss hmiss cacheKey htruthy
          hreally
        have hfound := (keeps_rows_atOutside _).of_ok hentry
        have hlast := (keeps_rows_atOutside _).of_ok hinvoke
        rw [hlast, hfound]
        exact hnone

theorem exec_postprocess_pure {ctx : InvokeStatus}
    (hadaptor : b.serverAdaptors endpoint.adaptorKey = some adaptor)
    (hpure : PurePostprocess adaptor post) {resp : PendingOrResponse}
    (hdone : resp.statusCode ≠ some 2) :
    (postprocess b.chainHost ctx endpoint (some resp)).exec s =
      (.ok (ctx, some (.ofData (post resp.value))), s) := by
  have hhost : b.chainHost.serverAdaptors endpoint.adaptorKey =
      some (adaptorAtOutside adaptor) := by
    show (b.serverAdaptors endpoint.adaptorKey).map _ = _
    rw [hadaptor]
    rfl
  apply exec_postprocess_response hhost hdone
  show (Action.outside (atOutside
    (adaptor.postprocess resp.value s.event endpoint ctx))).exec s = _
  rw [hpure]
  rfl

theorem exec_toCache_action (ctx : InvokeStatus) (resp : PendingOrResponse)
    (hfree : forall cacheKey, truthy ctx.cacheKey = some cacheKey ->
      reallyCache ctx.cacheKey ctx.cacheTtl endpoint = true ->
        (rows s).findUnique ⟨endpoint.id, cacheKey⟩ = none) :
    exists next,
      (Action.outside (b.chainHost.toCache ctx (some resp) endpoint
        s.event)).exec s = (.ok (), next) ∧
      StoredAt endpoint ctx resp (rows next) := by
  rcases exec_toCache (b := b) resp s.event hfree with
    ⟨stored, next, hexec, hstored⟩
  have hdiscarded : exec (b.chainHost.toCache ctx (some resp) endpoint s.event)
      s.world.outside = (.ok (), next) :=
    exec_bind_of_ok hexec _
  exact ⟨_, exec_outside hdiscarded, hstored⟩

/-- The chain of a request that is answered at once ends with what the adaptor
makes of the answer, and has stored it. -/
theorem exec_chain_atOnce
    (hadaptor : b.serverAdaptors endpoint.adaptorKey = some adaptor)
    (hpure : PurePostprocess adaptor post)
    (h : Invoked b endpoint adaptor status answer cached s last)
    (hdone : answer.statusCode ≠ some 2) :
    exists ended next,
      (chain b.chainHost status).exec s =
        (.ok (ended, some (.ofData (post answer.value))), next) ∧
      StoredAt endpoint ended (.ofData (post answer.value)) (rows next) := by
  rcases exec_chain_invoked hadaptor h with ⟨hchain, hfree⟩
  rcases exec_toCache_action (b := b)
    (cacheCtx (withCacheKey status cached) none (.ofData (post answer.value)))
    (.ofData (post answer.value)) hfree with ⟨next, hstore, hstored⟩
  refine ⟨placed (withCacheKey status cached) none none, next, ?_, hstored⟩
  rw [hchain]
  apply (exec_from_postprocess (exec_postprocess_pure hadaptor hpure
    hdone)).trans
  exact exec_from_cache hstore

theorem exec_chain_pending
    (hadaptor : b.serverAdaptors endpoint.adaptorKey = some adaptor)
    (h : Invoked b endpoint adaptor status answer cached s last)
    (hpending : answer.statusCode = some 2) :
    exists next,
      (chain b.chainHost status).exec s =
        (.ok (placed (withCacheKey status cached)
          (some callbackPostprocessName) none, some answer), next) := by
  rcases exec_chain_invoked hadaptor h with ⟨hchain, hfree⟩
  have hctx : cacheCtx (withCacheKey status cached) none answer =
      break_ (placed (withCacheKey status cached) (some cacheName) none)
        false := by
    unfold cacheCtx
    rw [if_pos hpending]
  rcases exec_toCache_action (b := b)
    (cacheCtx (withCacheKey status cached) none answer) answer
    (by rw [hctx]; exact hfree) with ⟨next, hstore, _⟩
  exists next
  rw [hchain]
  apply (exec_from_postprocess (exec_postprocess_pending hpending)).trans
  apply (exec_from_cache hstore).trans
  unfold afterCache
  rw [if_pos hpending]

theorem exec_chain_callback (memory : Option Text) {ctx : InvokeStatus}
    (hadaptor : b.serverAdaptors endpoint.adaptorKey = some adaptor)
    (hpure : PurePostprocess adaptor post)
    (hfinds : Finds endpoint ctx s) :
    exists next made,
      (chain b.chainHost
          (placed ctx (some callbackPostprocessName) memory)).exec s =
        (.ok (placed ctx none memory, some (.ofData (post ctx.response))),
          next) ∧
      StoredAt endpoint (placed ctx none memory)
        (.ofData (post ctx.response)) (rows next) ∧
      next.world.outside.resumed = s.world.outside.resumed ++ made ∧
      forall key d, (key, d) ∈ made -> d = post ctx.response := by
  rcases exec_updateCache (placed ctx (some callbackName) memory)
    (.ofData (post ctx.response)) endpoint s.world.outside with
    ⟨found, next, made, hexec, hstored, hresumed, hmade⟩
  refine ⟨{ s with world := { s.world with outside := next } }, made, ?_,
    hstored, hresumed, hmade⟩
  have hdiscarded : exec (b.chainHost.updateCache
      (some (.ofData (post ctx.response)))
      (placed ctx (some callbackName) memory) endpoint) s.world.outside =
        (.ok (), next) :=
    exec_bind_of_ok hexec _
  have hopen : chainOpen (placed ctx (some callbackPostprocessName) memory) =
      true :=
    chainOpen_of_standsAt (List.cons_ne_nil _ _) (standsAt_placed _ _ _)
  have hplaced : Finds endpoint
      (placed ctx (some callbackPostprocessName) memory) s :=
    hfinds
  rw [exec_chain_open hplaced hopen]
  apply exec_from_callback
    (exec_postprocess_pure hadaptor hpure (statusCode_ofData _))
  exact exec_outside hdiscarded

theorem exec_chain_found {response : PendingOrResponse}
    {checked looked : CallState (CachedWorld tau)}
    (h : FoundCached b endpoint status response cached s checked looked) :
    (chain b.chainHost status).exec s =
      (.ok (placed (withCacheKey status cached) none none, some response),
        looked) := by
  cases h with
  | intro hfresh hfinds hchecked hlookup hhit =>
      rcases hchecked with ⟨hcheck, hpassed⟩
      rw [exec_chain_open hfinds (chainOpen_of_fresh hfresh)]
      apply (exec_runChain_fresh hfresh).trans
      apply (exec_from_auth hcheck hpassed).trans
      exact exec_from_cached_hit hlookup hhit

end Requests

/-! ## The four routes -/

/-- The request has been left pending by its adaptor, and the raw response
`r` has come with a callback. -/
inductive CalledBack (b : Backend tau) (endpoint : EndpointDto)
    (adaptor : ServerAdaptor tau) (r : Value) :
    InvokeStatus -> CallState (CachedWorld tau) -> Prop where
  | intro {status waiting : InvokeStatus} {answer : PendingOrResponse}
      {cached : CachedLookup} {s last next later : CallState (CachedWorld tau)}
      (h : Invoked b endpoint adaptor status answer cached s last)
      (hpending : answer.statusCode = some 2)
      (hchain : (chain b.chainHost status).exec s =
        (.ok (waiting, some answer), next))
      (hfinds : Finds endpoint waiting later) :
      CalledBack b endpoint adaptor r { waiting with response := r } later

/-- The adaptor has answered with the raw response `r`, at once or later. -/
inductive Answered (b : Backend tau) (endpoint : EndpointDto)
    (adaptor : ServerAdaptor tau) (r : Value) :
    InvokeStatus -> CallState (CachedWorld tau) -> Prop where
  | atOnce {status : InvokeStatus} {answer : PendingOrResponse}
      {cached : CachedLookup} {s last : CallState (CachedWorld tau)}
      (h : Invoked b endpoint adaptor status answer cached s last)
      (hdone : answer.statusCode ≠ some 2) (hvalue : answer.value = r) :
      Answered b endpoint adaptor r status s
  | calledBack {status : InvokeStatus} {s : CallState (CachedWorld tau)}
      (h : CalledBack b endpoint adaptor r status s) :
      Answered b endpoint adaptor r status s

/-- The last call of the chain for a request that the raw response `r` is to
reach. -/
inductive Route (b : Backend tau) (endpoint : EndpointDto)
    (adaptor : ServerAdaptor tau) (r : Value) :
    InvokeStatus -> CallState (CachedWorld tau) -> Prop where
  | answered {status : InvokeStatus} {s : CallState (CachedWorld tau)}
      (h : Answered b endpoint adaptor r status s) :
      Route b endpoint adaptor r status s
  /-- The request has found a pending row, and the callback of another
  invocation has resumed it. -/
  | observed {owner ended status waiting : InvokeStatus}
      {start middle s checked looked next later : CallState (CachedWorld tau)}
      {resp : Option PendingOrResponse} {response : PendingOrResponse}
      {cached : CachedLookup} {made : List (Text × Value)} {d : Value}
      (howner : CalledBack b endpoint adaptor r owner start)
      (hcalled : (chain b.chainHost owner).exec start =
        (.ok (ended, resp), middle))
      (hmade : middle.world.outside.resumed =
        start.world.outside.resumed ++ made)
      (hfound : FoundCached b endpoint status response cached s checked looked)
      (hpending : response.statusCode = some 2)
      (hwaits : (chain b.chainHost status).exec s =
        (.ok (waiting, some response), next))
      (hresumed : (observerKey status.invokeId checked.event.id, d) ∈ made)
      (hfinds : Finds endpoint waiting later) :
      Route b endpoint adaptor r { waiting with response := d } later
  /-- The request has found the response that an earlier one has stored. -/
  | cached {owner ended status : InvokeStatus}
      {start middle s checked looked : CallState (CachedWorld tau)}
      {resp : Option PendingOrResponse} {response : PendingOrResponse}
      {found : CachedLookup} {cacheKey : Text} {stored row : CachedRow}
      (howner : Answered b endpoint adaptor r owner start)
      (hcalled : (chain b.chainHost owner).exec start =
        (.ok (ended, resp), middle))
      (hkey : truthy ended.cacheKey = some cacheKey)
      (hreally : reallyCache ended.cacheKey ended.cacheTtl endpoint = true)
      (hstored : (rows middle).findUnique ⟨endpoint.id, cacheKey⟩ =
        some stored)
      (hfound : FoundCached b endpoint status response found s checked looked)
      (hsameKey : truthy found.cacheKey = some cacheKey)
      (hrow : (rows checked).findUnique ⟨endpoint.id, cacheKey⟩ = some row)
      (hsame : row.value.response = stored.value.response) :
      Route b endpoint adaptor r status s

def EndsWith (b : Backend tau) (status : InvokeStatus)
    (s : CallState (CachedWorld tau)) (data : Value) : Prop :=
  exists ended resp next,
    (chain b.chainHost status).exec s = (.ok (ended, some resp), next) ∧
    PendingOrResponse.isPending (some resp) = false ∧ resp.value = data

section Routes

variable {b : Backend tau} {endpoint : EndpointDto}
  {adaptor : ServerAdaptor tau} {post : Value -> Value} {r : Value}
  {status : InvokeStatus} {s : CallState (CachedWorld tau)}

/-- After a callback the chain ends with the data, has stored them and has
resumed the observers with them. -/
theorem exec_chain_calledBack
    (hadaptor : b.serverAdaptors endpoint.adaptorKey = some adaptor)
    (hpure : PurePostprocess adaptor post)
    (h : CalledBack b endpoint adaptor r status s) :
    exists ended next made,
      (chain b.chainHost status).exec s =
        (.ok (ended, some (.ofData (post r))), next) ∧
      StoredAt endpoint ended (.ofData (post r)) (rows next) ∧
      next.world.outside.resumed = s.world.outside.resumed ++ made ∧
      forall key d, (key, d) ∈ made -> d = post r := by
  cases h with
  | @intro status _ _ cached _ _ _ _ hinvoked hpending hchain hfinds =>
      rcases exec_chain_pending hadaptor hinvoked hpending with ⟨_, hwaiting⟩
      rw [hwaiting] at hchain
      cases hchain
      have hback : Finds endpoint
          { withCacheKey status cached with response := r } s :=
        hfinds
      rcases exec_chain_callback none hadaptor hpure hback with
        ⟨next, made, hexec, hstored, hresumed, hmade⟩
      exact ⟨_, next, made, hexec, hstored, hresumed, hmade⟩

theorem exec_chain_answered
    (hadaptor : b.serverAdaptors endpoint.adaptorKey = some adaptor)
    (hpure : PurePostprocess adaptor post)
    (h : Answered b endpoint adaptor r status s) :
    exists ended next,
      (chain b.chainHost status).exec s =
        (.ok (ended, some (.ofData (post r))), next) ∧
      StoredAt endpoint ended (.ofData (post r)) (rows next) := by
  cases h with
  | atOnce hinvoked hdone hvalue =>
      rw [← hvalue]
      exact exec_chain_atOnce hadaptor hpure hinvoked hdone
  | calledBack hback =>
      rcases exec_chain_calledBack hadaptor hpure hback with
        ⟨ended, next, made, hexec, hstored, _⟩
      exact ⟨ended, next, hexec, hstored⟩

/-- On every route the chain ends with what the adaptor makes of the raw
response. -/
theorem route_ends
    (hadaptor : b.serverAdaptors endpoint.adaptorKey = some adaptor)
    (hpure : PurePostprocess adaptor post)
    (h : Route b endpoint adaptor r status s) :
    EndsWith b status s (post r) := by
  cases h with
  | answered hanswered =>
      rcases exec_chain_answered hadaptor hpure hanswered with
        ⟨ended, next, hexec, _⟩
      exact ⟨ended, _, next, hexec, rfl, rfl⟩
  | observed howner hcalled hmade hfound hpending hwaits hresumed hfinds =>
      rcases exec_chain_calledBack hadaptor hpure howner with
        ⟨_, middle, made, hexec, _, hmade', hdata⟩
      rw [hcalled] at hexec
      cases hexec
      rw [hmade] at hmade'
      rw [← List.append_cancel_left hmade'] at hdata
      rw [exec_chain_found hfound] at hwaits
      cases hwaits
      refine ⟨_, _, _, exec_chain_ended (by exact hfinds) ?_, rfl,
        hdata _ _ hresumed⟩
      exact chainOpen_of_ended ⟨none, rfl⟩
  | cached howner hcalled hkey hreally hstored hfound hsameKey hrow hsame =>
      rcases exec_chain_answered hadaptor hpure howner with
        ⟨_, middle, hexec, hstoredAt⟩
      rw [hcalled] at hexec
      cases hexec
      have hresponse := hstoredAt _ _ hkey hreally hstored
      have hchain := exec_chain_found hfound
      cases hfound with
      | intro _ _ _ hlookup hhit =>
          rcases (lookedUp_of_looksUp hlookup).hit _ hhit with
            ⟨key, row', htruthy, hrow', hread⟩
          rw [hsameKey] at htruthy
          cases htruthy
          change (rows _).findUnique _ = _ at hrow'
          rw [hrow] at hrow'
          cases hrow'
          rw [hsame, hresponse] at hread
          refine ⟨_, _, _, hchain, ?_, ?_⟩
          · rw [← hread]
            rfl
          · rw [← hread]
            exact value_column _

end Routes

/-! ## An endpoint that is cached for a minute -/

def minuteEndpoint : EndpointDto :=
  { petEndpoint with cacheTtl := some 60 }

def listed (resp : Value) : Value :=
  resp.map fun data => .arr [data]

def tom : Value := some (.str "Tom".toList)

/-- An adaptor that answers at once or later, as the state says. -/
def petAdaptor : ServerAdaptor Bool where
  invoke := fun _ _ _ _ _ => do
    if ← get then return some (.ofData tom) else return some .pending
  postprocess := fun resp _ _ _ => return listed resp

def petBackend : Backend Bool where
  findEntry := fun id => return some ⟨id, "pets@shop".toList, []⟩
  findRealm := fun _ => return none
  findFirstUserIdentity := fun _ _ => return none
  serverAdaptors := fun _ => some petAdaptor
  now := fun _ => 0
  evalKey := fun _ _ _ => none

def petStatus : InvokeStatus where
  invokeId := []
  epName := some minuteEndpoint.name
  args := none
  response := none
  processor := none
  cacheKey := none
  cacheTtl := none

def petRequest (cached : CachedTable) (atOnce : Bool) :
    CallState (CachedWorld Bool) :=
  ⟨{ petCall none with
      context := { (petCall none).context with
        endpoints := some [minuteEndpoint] } },
    ⟨none, ⟨cached, [], atOnce⟩⟩, []⟩

def rowsAfter (status : InvokeStatus) (s : CallState (CachedWorld Bool)) :
    CachedTable :=
  rows ((chain petBackend.chainHost status).exec s).2

/-- The invocation as a call of the chain has left it. -/
def leftBy (status : InvokeStatus) (s : CallState (CachedWorld Bool)) :
    InvokeStatus :=
  match ((chain petBackend.chainHost status).exec s).1 with
  | .ok (left, _) => left
  | .error _ => status

def pendingRows : CachedTable :=
  rowsAfter petStatus (petRequest .empty false)

def observedRows : CachedTable :=
  rowsAfter petStatus (petRequest pendingRows false)

def petAnswered : InvokeStatus :=
  { leftBy petStatus (petRequest .empty false) with response := tom }

theorem petInvoked (atOnce : Bool) :
    exists cached last,
      Invoked petBackend minuteEndpoint petAdaptor petStatus
        (if atOnce then .ofData tom else .pending) cached
        (petRequest .empty atOnce) last := by
  cases atOnce with
  | true =>
      exact ⟨_, _, Invoked.intro rfl rfl ⟨_, rfl, rfl⟩ (.intro rfl rfl) rfl
        rfl rfl rfl⟩
  | false =>
      exact ⟨_, _, Invoked.intro rfl rfl ⟨_, rfl, rfl⟩ (.intro rfl rfl) rfl
        rfl rfl rfl⟩

theorem petCalledBack (later : CachedTable) :
    CalledBack petBackend minuteEndpoint petAdaptor tom petAnswered
      (petRequest later false) := by
  rcases petInvoked false with ⟨cached, last, hinvoked⟩
  exact CalledBack.intro hinvoked rfl rfl ⟨_, rfl, rfl⟩

/-- The four routes end with the same data: at once, called back, observed
and cached. -/
theorem route_ends_pet :
    EndsWith petBackend petStatus (petRequest .empty true) (listed tom) ∧
      EndsWith petBackend petAnswered (petRequest observedRows false)
        (listed tom) ∧
      EndsWith petBackend
        { leftBy petStatus (petRequest pendingRows false) with
          response := listed tom } (petRequest .empty false) (listed tom) ∧
      EndsWith petBackend petStatus
        (petRequest (rowsAfter petStatus (petRequest .empty true)) false)
        (listed tom) := by
  have hpure : PurePostprocess petAdaptor listed := fun _ _ _ _ => rfl
  rcases petInvoked true with ⟨cached, last, hinvoked⟩
  have hfound : FoundCached petBackend minuteEndpoint petStatus _ _
      (petRequest pendingRows false) (petRequest pendingRows false) _ :=
    .intro rfl ⟨_, rfl, rfl⟩ (.intro rfl rfl) rfl rfl
  have hserved : FoundCached petBackend minuteEndpoint petStatus _ _
      (petRequest (rowsAfter petStatus (petRequest .empty true)) false)
      (petRequest (rowsAfter petStatus (petRequest .empty true)) false) _ :=
    .intro rfl ⟨_, rfl, rfl⟩ (.intro rfl rfl) rfl rfl
  have honce : Answered petBackend minuteEndpoint petAdaptor tom petStatus
      (petRequest .empty true) :=
    .atOnce hinvoked (statusCode_ofData _) rfl
  refine ⟨?_, ?_, ?_, ?_⟩
  · exact route_ends rfl hpure (.answered honce)
  · exact route_ends rfl hpure (.answered (.calledBack (petCalledBack _)))
  · exact route_ends rfl hpure (Route.observed (petCalledBack observedRows) rfl
      rfl hfound rfl rfl List.mem_cons_self ⟨_, rfl, rfl⟩)
  · exact route_ends rfl hpure (Route.cached honce rfl rfl rfl rfl hserved rfl
      rfl rfl)

end Cached
end CallgentApi
