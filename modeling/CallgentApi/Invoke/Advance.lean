import CallgentApi.Invoke.Calls

/-!
# How a chain goes on

What the chain does from each place, for given answers of the check, the cache
and the adaptor.
-/

namespace CallgentApi
namespace Invoke

open Js Event Realms Effect

variable {sigma : Type}

/-- The invocation at a place, with the memory of the check. -/
def placed (status : InvokeStatus) (name memory : Option Text) : InvokeStatus :=
  { status with processor := some ⟨name, memory, none⟩ }

theorem standsAt_placed (status : InvokeStatus) (name memory : Option Text) :
    StandsAt name (placed status name memory) :=
  ⟨memory, rfl⟩

theorem startedAt_of_fresh {status : InvokeStatus}
    (h : status.processor = none) (name : Text) :
    startedAt status name = placed status (some name) none := by
  unfold startedAt
  rw [h]
  rfl

section Loop

variable {endpoint : EndpointDto} {p : SepProcessor sigma}
  {rest : List (SepProcessor sigma)} {status : InvokeStatus}
  {preData : Option PendingOrResponse} {s next : CallState sigma}

theorem exec_runChain_fresh (h : status.processor = none) :
    (runChain endpoint (p :: rest) status preData).exec s =
      (runChain endpoint (p :: rest) (placed status (some p.getName) none)
        preData).exec s := by
  have hplaced := (standsAt_placed status (some p.getName) none).startedAt_eq
    p.getName
  unfold runChain
  rw [hplaced, startedAt_of_fresh h]

theorem exec_runChain_skip {name : Text} (hat : StandsAt (some name) status)
    (hne : name ≠ p.getName) :
    (runChain endpoint (p :: rest) status preData).exec s =
      (runChain endpoint rest status preData).exec s := by
  rw [runChain, hat.isAt_ne hne, hat.startedAt_eq]
  rfl

theorem exec_runChain_pass (hat : StandsAt (some p.getName) status)
    {ctx : InvokeStatus} {data : Option PendingOrResponse}
    (hexec : (p.process status endpoint (rest.head?.map SepProcessor.getName)
      preData).exec s = (.ok ⟨ctx, data, false⟩, next)) :
    (runChain endpoint (p :: rest) status preData).exec s =
      (runChain endpoint rest ctx data).exec next := by
  rw [runChain, if_pos hat.isAt_self, hat.startedAt_eq]
  dsimp only
  rw [exec_bind_of_ok hexec]
  rfl

theorem exec_runChain_stop (hat : StandsAt (some p.getName) status)
    {ctx : InvokeStatus} {data : Option PendingOrResponse}
    (hexec : (p.process status endpoint (rest.head?.map SepProcessor.getName)
      preData).exec s = (.ok ⟨ctx, data, true⟩, next)) :
    (runChain endpoint (p :: rest) status preData).exec s =
      (.ok (ctx, data), next) := by
  rw [runChain, if_pos hat.isAt_self, hat.startedAt_eq]
  dsimp only
  rw [exec_bind_of_ok hexec]
  rfl

theorem exec_runChain_throw (hat : StandsAt (some p.getName) status)
    {e : Thrown}
    (hexec : (p.process status endpoint (rest.head?.map SepProcessor.getName)
      preData).exec s = (.error e, next)) :
    (runChain endpoint (p :: rest) status preData).exec s =
      (.error e, next) := by
  rw [runChain, if_pos hat.isAt_self, hat.startedAt_eq]
  exact exec_bind_of_error hexec _

theorem exec_process_placed {ctx : InvokeStatus} {place : ProcessorState}
    {data : Option PendingOrResponse} {nextProcessor name memory : Option Text}
    {stop : Bool} (hplace : ctx.processor = some place)
    (hbody : (p.body status endpoint preData).exec s = (.ok (ctx, data), next))
    (hadvance : advance nextProcessor place = (⟨name, memory, none⟩, stop)) :
    (p.process status endpoint nextProcessor preData).exec s =
      (.ok { ctx := placed ctx name memory
             data := data
             stop := stop }, next) := by
  rw [exec_process_of_body hplace hbody, hadvance]
  rfl

theorem exec_process_next {name : Text} (hname : name ≠ [])
    {ctx : InvokeStatus} {memory : Option Text}
    {data : Option PendingOrResponse}
    (hbody : (p.body status endpoint preData).exec s =
      (.ok (placed ctx (some name) memory, data), next))
    (nextProcessor : Option Text) :
    (p.process status endpoint nextProcessor preData).exec s =
      (.ok { ctx := placed ctx nextProcessor memory
             data := data
             stop := (truthy nextProcessor).isNone }, next) := by
  have hadvance : advance nextProcessor ⟨some name, memory, none⟩ =
      (⟨nextProcessor, memory, none⟩, (truthy nextProcessor).isNone) :=
    advance_open hname
  have hprocess := exec_process_placed rfl hbody hadvance
  exact hprocess

end Loop

section Bodies

variable {host : ChainHost sigma} {endpoint : EndpointDto}
  {status : InvokeStatus} {preData : Option PendingOrResponse}
  {s next : CallState sigma}

theorem exec_sepAuth_passed {returned : Option Returned}
    (hfirst : truthy (status.processor.bind ProcessorState.ctx) = none)
    (hcheck : (checkSepAuth host.toRepository endpoint).exec s =
      (.ok returned, next))
    (hpassed : truthy (returned.bind Returned.resumeFunName) = none) :
    ((sepAuthProcessor host).body status endpoint preData).exec s =
      (.ok (status, none), next) := by
  have hcall : (callRealms host.toRepository
      ((truthy (status.processor.bind ProcessorState.ctx)).getD
        "checkSepAuth".toList) endpoint).exec s = (.ok returned, next) := by
    rw [hfirst]
    exact hcheck
  unfold sepAuthProcessor
  dsimp only
  rw [exec_bind_of_ok hcall, hpassed]
  rfl

theorem exec_sepCached_miss {cached : CachedLookup}
    (hlookup : (Action.outside
      (host.fromCached status.invokeId endpoint s.event)).exec s =
        (.ok cached, next)) (hmiss : cached.response = none) :
    ((sepCachedProcessor host).body status endpoint preData).exec s =
      (.ok (withCacheKey status cached, none), next) := by
  unfold sepCachedProcessor
  dsimp only
  rw [exec_bind_of_ok (exec_getEvent s), exec_bind_of_ok hlookup, hmiss]
  rfl

theorem exec_sepCached_hit {cached : CachedLookup}
    {response : PendingOrResponse}
    (hlookup : (Action.outside
      (host.fromCached status.invokeId endpoint s.event)).exec s =
        (.ok cached, next)) (hhit : cached.response = some response) :
    ((sepCachedProcessor host).body status endpoint preData).exec s =
      (.ok (end_ (withCacheKey status cached), some response), next) := by
  unfold sepCachedProcessor
  dsimp only
  rw [exec_bind_of_ok (exec_getEvent s), exec_bind_of_ok hlookup, hhit]
  rfl

theorem exec_sepInvoke {adaptor : ServerAdaptor sigma}
    {sentry : Option EntryDto} {middle : CallState sigma}
    {data : Option PendingOrResponse}
    (hadaptor : host.serverAdaptors endpoint.adaptorKey = some adaptor)
    (hentry : (Action.outside (host.findEntry endpoint.entryId)).exec s =
      (.ok sentry, middle))
    (hinvoke : (Action.outside (adaptor.invoke endpoint status.args sentry
      s.event status)).exec middle = (.ok data, next)) :
    ((sepInvokeProcessor host).body status endpoint preData).exec s =
      (.ok (status, data), next) := by
  unfold sepInvokeProcessor
  dsimp only
  rw [exec_bind_of_ok (exec_getEvent s), exec_bind_of_ok hentry, hadaptor]
  dsimp only
  rw [exec_bind_of_ok hinvoke]
  rfl

theorem exec_postprocess_pending {resp : PendingOrResponse}
    (h : resp.statusCode = some 2) :
    (postprocess host status endpoint (some resp)).exec s =
      (.ok (status, some resp), s) := by
  unfold postprocess
  dsimp only
  rw [if_pos h]
  rfl

theorem exec_postprocess_response {adaptor : ServerAdaptor sigma}
    {resp : PendingOrResponse} {data : Value}
    (hadaptor : host.serverAdaptors endpoint.adaptorKey = some adaptor)
    (h : resp.statusCode ≠ some 2)
    (hpost : (Action.outside (adaptor.postprocess resp.value s.event endpoint
      status)).exec s = (.ok data, next)) :
    (postprocess host status endpoint (some resp)).exec s =
      (.ok (status, some (.ofData data)), next) := by
  unfold postprocess
  dsimp only
  rw [if_neg h, exec_bind_of_ok (exec_getEvent s), hadaptor]
  dsimp only
  rw [exec_bind_of_ok hpost]
  rfl

end Bodies

/-! ## The chain from place to place -/

section Places

variable {host : ChainHost sigma} {endpoint : EndpointDto}
  {status : InvokeStatus} {memory : Option Text}
  {preData : Option PendingOrResponse} {s next : CallState sigma}

/-- The endpoint of the invocation, among those of the request. -/
def Finds (endpoint : EndpointDto) (status : InvokeStatus)
    (s : CallState sigma) : Prop :=
  exists endpoints, s.event.context.endpoints = some endpoints ∧
    endpoints.find? (fun e => some e.name == status.epName) = some endpoint

theorem exec_chain_open (hfinds : Finds endpoint status s)
    (hopen : chainOpen status = true) :
    (chain host status).exec s =
      (runChain endpoint (processors host) status
        (some (.ofData status.response))).exec s := by
  rcases hfinds with ⟨endpoints, hendpoints, hfound⟩
  unfold chain
  rw [exec_bind_of_ok (exec_getEvent s), hendpoints]
  dsimp only
  rw [hfound]
  dsimp only
  rw [if_pos hopen]

theorem exec_chain_ended (hfinds : Finds endpoint status s)
    (hended : chainOpen status = false) :
    (chain host status).exec s =
      (.ok (status, some (.ofData status.response)), s) := by
  rcases hfinds with ⟨endpoints, hendpoints, hfound⟩
  unfold chain
  rw [exec_bind_of_ok (exec_getEvent s), hendpoints]
  dsimp only
  rw [hfound]
  dsimp only
  rw [hended]
  rfl

theorem chainOpen_of_fresh (h : status.processor = none) :
    chainOpen status = true := by
  unfold chainOpen
  rw [h]

theorem withCacheKey_placed (status : InvokeStatus) (name memory : Option Text)
    (cached : CachedLookup) :
    withCacheKey (placed status name memory) cached =
      placed (withCacheKey status cached) name memory := by
  unfold withCacheKey
  split
  · rfl
  · rfl

theorem exec_from_auth {returned : Option Returned}
    (hcheck : (checkSepAuth host.toRepository endpoint).exec s =
      (.ok returned, next))
    (hpassed : truthy (returned.bind Returned.resumeFunName) = none) :
    (runChain endpoint (processors host) (placed status (some authName) none)
        preData).exec s =
      (runChain endpoint ((processors host).drop 1)
        (placed status (some cachedName) none) none).exec next :=
  exec_runChain_pass (p := sepAuthProcessor host)
    (standsAt_placed _ _ _)
    (exec_process_next (List.cons_ne_nil _ _)
      (exec_sepAuth_passed rfl hcheck hpassed) _)

theorem exec_from_cached_miss {cached : CachedLookup}
    (hlookup : (Action.outside
      (host.fromCached status.invokeId endpoint s.event)).exec s =
        (.ok cached, next)) (hmiss : cached.response = none) :
    (runChain endpoint ((processors host).drop 1)
        (placed status (some cachedName) memory) preData).exec s =
      (runChain endpoint ((processors host).drop 2)
        (placed (withCacheKey status cached) (some sepName) memory)
        none).exec next := by
  have hbody : ((sepCachedProcessor host).body
      (placed status (some cachedName) memory) endpoint preData).exec s =
        (.ok (withCacheKey (placed status (some cachedName) memory) cached,
          none), next) :=
    exec_sepCached_miss hlookup hmiss
  rw [withCacheKey_placed] at hbody
  exact exec_runChain_pass (p := sepCachedProcessor host)
    (standsAt_placed _ _ _)
    (exec_process_next (List.cons_ne_nil _ _) hbody _)

theorem exec_from_cached_hit {cached : CachedLookup}
    {response : PendingOrResponse}
    (hlookup : (Action.outside
      (host.fromCached status.invokeId endpoint s.event)).exec s =
        (.ok cached, next)) (hhit : cached.response = some response) :
    (runChain endpoint ((processors host).drop 1)
        (placed status (some cachedName) memory) preData).exec s =
      (.ok (placed (withCacheKey status cached) none memory, some response),
        next) := by
  have hbody : ((sepCachedProcessor host).body
      (placed status (some cachedName) memory) endpoint preData).exec s =
        (.ok (end_ (withCacheKey (placed status (some cachedName) memory)
          cached), some response), next) :=
    exec_sepCached_hit hlookup hhit
  rw [withCacheKey_placed] at hbody
  have hadvance : advance (some sepName) ⟨none, memory, none⟩ =
      (⟨none, memory, none⟩, true) :=
    advance_end
  have hprocess := exec_process_placed rfl hbody hadvance
  exact exec_runChain_stop (p := sepCachedProcessor host)
    (standsAt_placed _ _ _) hprocess

theorem exec_from_sep {adaptor : ServerAdaptor sigma}
    {sentry : Option EntryDto} {middle : CallState sigma}
    {data : Option PendingOrResponse}
    (hadaptor : host.serverAdaptors endpoint.adaptorKey = some adaptor)
    (hentry : (Action.outside (host.findEntry endpoint.entryId)).exec s =
      (.ok sentry, middle))
    (hinvoke : (Action.outside (adaptor.invoke endpoint status.args sentry
      s.event (placed status (some sepName) memory))).exec middle =
        (.ok data, next)) :
    (runChain endpoint ((processors host).drop 2)
        (placed status (some sepName) memory) preData).exec s =
      (runChain endpoint ((processors host).drop 3)
        (placed status (some postprocessName) memory) data).exec next :=
  exec_runChain_pass (p := sepInvokeProcessor host)
    (standsAt_placed _ _ _)
    (exec_process_next (List.cons_ne_nil _ _)
      (exec_sepInvoke hadaptor hentry hinvoke) _)

theorem exec_from_postprocess {data : Option PendingOrResponse}
    (hbody : (postprocess host (placed status (some postprocessName) memory)
      endpoint preData).exec s =
        (.ok (placed status (some postprocessName) memory, data), next)) :
    (runChain endpoint ((processors host).drop 3)
        (placed status (some postprocessName) memory) preData).exec s =
      (runChain endpoint ((processors host).drop 4)
        (placed status (some cacheName) memory) data).exec next :=
  exec_runChain_pass (p := sepPostprocessProcessor host)
    (standsAt_placed _ _ _)
    (exec_process_next (List.cons_ne_nil _ _) hbody _)

/-- Where the last processor before the callback leaves the invocation. -/
def afterCache (resp : PendingOrResponse) : Option Text :=
  if resp.statusCode = some 2 then some callbackPostprocessName else none

/-- The invocation as the cache is told of it. -/
def cacheCtx (status : InvokeStatus) (memory : Option Text)
    (resp : PendingOrResponse) : InvokeStatus :=
  let ctx := placed status (some cacheName) memory
  if resp.statusCode = some 2 then break_ ctx false else end_ ctx

theorem exec_from_cache {resp : PendingOrResponse}
    (hstore : (Action.outside (host.toCache (cacheCtx status memory resp)
      (some resp) endpoint s.event)).exec s = (.ok (), next)) :
    (runChain endpoint ((processors host).drop 4)
        (placed status (some cacheName) memory) (some resp)).exec s =
      (.ok (placed status (afterCache resp) memory, some resp), next) := by
  have hbody : ((sepCacheProcessor host).body
      (placed status (some cacheName) memory) endpoint (some resp)).exec s =
        (.ok (cacheCtx status memory resp, some resp), next) := by
    have hctx : (if PendingOrResponse.isPending (some resp) then
        break_ (placed status (some cacheName) memory) false
      else end_ (placed status (some cacheName) memory)) =
        cacheCtx status memory resp := by
      simp [cacheCtx, PendingOrResponse.isPending]
    unfold sepCacheProcessor
    dsimp only
    rw [hctx, exec_bind_of_ok (exec_getEvent s), exec_bind_of_ok hstore]
    rfl
  unfold afterCache
  unfold cacheCtx at hbody
  dsimp only at hbody
  split at hbody
  · rename_i hpending
    have hadvance : advance (some callbackPostprocessName)
        ⟨some cacheName, memory, some false⟩ =
          (⟨some callbackPostprocessName, memory, none⟩, true) :=
      advance_break_next (List.cons_ne_nil _ _)
    have hprocess := exec_process_placed rfl hbody hadvance
    rw [if_pos hpending]
    exact exec_runChain_stop (p := sepCacheProcessor host)
      (standsAt_placed _ _ _) hprocess
  · rename_i hdone
    have hadvance : advance (some callbackPostprocessName)
        ⟨none, memory, none⟩ = (⟨none, memory, none⟩, true) :=
      advance_end
    have hprocess := exec_process_placed rfl hbody hadvance
    rw [if_neg hdone]
    exact exec_runChain_stop (p := sepCacheProcessor host)
      (standsAt_placed _ _ _) hprocess

theorem exec_skip_to_callback (memory : Option Text)
    (resp : Option PendingOrResponse) :
    (runChain endpoint (processors host)
        (placed status (some callbackPostprocessName) memory) resp).exec s =
      (runChain endpoint ((processors host).drop 5)
        (placed status (some callbackPostprocessName) memory) resp).exec s := by
  have hat := standsAt_placed status (some callbackPostprocessName) memory
  have hne : callbackPostprocessName ∉
      [authName, cachedName, sepName, postprocessName, cacheName] := by
    decide
  simp only [List.mem_cons, List.not_mem_nil, or_false, not_or] at hne
  rcases hne with ⟨hauth, hcached, hsep, hpostprocess, hcache⟩
  exact (((exec_runChain_skip hat hauth).trans
    (exec_runChain_skip hat hcached)).trans
    (exec_runChain_skip hat hsep)).trans
    ((exec_runChain_skip hat hpostprocess).trans
      (exec_runChain_skip hat hcache))

theorem exec_from_callback {resp data : Option PendingOrResponse}
    {middle : CallState sigma}
    (hpost : (postprocess host
      (placed status (some callbackPostprocessName) memory) endpoint
      resp).exec s =
        (.ok (placed status (some callbackPostprocessName) memory, data),
          middle))
    (hupdate : (Action.outside (host.updateCache data
      (placed status (some callbackName) memory) endpoint)).exec middle =
        (.ok (), next)) :
    (runChain endpoint (processors host)
        (placed status (some callbackPostprocessName) memory) resp).exec s =
      (.ok (placed status none memory, data), next) := by
  have hat := standsAt_placed status (some callbackPostprocessName) memory
  have hfirst : (runChain endpoint ((processors host).drop 5)
        (placed status (some callbackPostprocessName) memory) resp).exec s =
      (runChain endpoint ((processors host).drop 6)
        (placed status (some callbackName) memory) data).exec middle :=
    exec_runChain_pass (p := sepCallbackPostprocessProcessor host) hat
      (exec_process_next (List.cons_ne_nil _ _) hpost _)
  have hbody : ((sepCallbackProcessor host).body
      (placed status (some callbackName) memory) endpoint data).exec middle =
        (.ok (placed status (some callbackName) memory, data), next) := by
    unfold sepCallbackProcessor
    dsimp only
    rw [exec_bind_of_ok hupdate]
    rfl
  have hlast := exec_process_next (List.cons_ne_nil _ _) hbody none
  rw [exec_skip_to_callback, hfirst]
  exact exec_runChain_stop (p := sepCallbackProcessor host)
    (standsAt_placed _ _ _) hlast

theorem exec_from_callback_throw {resp : Option PendingOrResponse}
    {e : Thrown}
    (hpost : (postprocess host
      (placed status (some callbackPostprocessName) memory) endpoint
      resp).exec s = (.error e, next)) :
    (runChain endpoint (processors host)
        (placed status (some callbackPostprocessName) memory) resp).exec s =
      (.error e, next) := by
  rw [exec_skip_to_callback]
  exact exec_runChain_throw (p := sepCallbackPostprocessProcessor host)
    (standsAt_placed _ _ _) (exec_bind_of_error hpost _)

end Places

end Invoke
end CallgentApi
