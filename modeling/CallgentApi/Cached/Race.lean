import CallgentApi.Cached.Observers
import CallgentApi.Cached.Steps
import CallgentApi.Lib.TableRace

/-!
# Two requests for one cache key

Two chains run at the same time and share the cache.  Each looks the key up,
calls its service and stores what has come, in the transaction of its
listeners: its rows are seen by the other chain after the commit.  The unique
index lets one of two responses in.
-/

namespace CallgentApi
namespace Cached

open Js Event Realms Invoke Effect Transition TableRace

variable {tau : Type}

/-! ## The processors and the table -/

section Processors

variable {host : ChainHost (CachedWorld tau)} {endpoint : EndpointDto}
  {status : InvokeStatus} {nextProcessor : Option Text}
  {preData : Option PendingOrResponse}

theorem reads_rows (b : Backend tau) :
    b.chainHost.toRepository.Reads rows where
  contextFree := contextFree_ofOutside CachedWorld.cached
  findEntry := fun _ => keeps_rows_atOutside _
  findRealm := fun _ => keeps_rows_atOutside _
  findFirstUserIdentity := fun _ _ => keeps_rows_atOutside _

theorem rows_sepAuth (b : Backend tau) :
    Keeps rows ((sepAuthProcessor b.chainHost).body status endpoint
      preData) := by
  have hcall : forall funName,
      Keeps rows (callRealms b.chainHost.toRepository funName endpoint) := by
    intro funName
    unfold callRealms
    split
    · exact keeps_checkSepAuth (reads_rows b) endpoint
    · split
      · exact Keeps.throw _
      · exact Keeps.throw _
  refine Keeps.bind (hcall _) fun r => ?_
  split
  · exact Keeps.pure _
  · exact Keeps.pure _

theorem rows_sepInvoke (b : Backend tau) :
    Keeps rows ((sepInvokeProcessor b.chainHost).body status endpoint
      preData) := by
  refine Keeps.bind (fun _ => rfl) fun reqEvent => ?_
  refine Keeps.bind (keeps_rows_atOutside _) fun sentry => ?_
  split
  · exact Keeps.throw _
  · rename_i hadaptor
    rcases Option.map_eq_some_iff.mp hadaptor with ⟨adaptor, _, rfl⟩
    exact Keeps.bind (keeps_rows_atOutside _) fun data => Keeps.pure _

theorem rows_postprocess (b : Backend tau) :
    Keeps rows (postprocess b.chainHost status endpoint preData) := by
  unfold postprocess
  split
  · exact Keeps.throw _
  · split
    · exact Keeps.pure _
    · refine Keeps.bind (fun _ => rfl) fun reqEvent => ?_
      split
      · exact Keeps.throw _
      · rename_i hadaptor
        rcases Option.map_eq_some_iff.mp hadaptor with ⟨adaptor, _, rfl⟩
        exact Keeps.bind (keeps_rows_atOutside _) fun data => Keeps.pure _

theorem postprocess_some {ctx : InvokeStatus}
    {data : Option PendingOrResponse} {s next : CallState (CachedWorld tau)}
    (h : (postprocess host status endpoint preData).exec s =
      (.ok (ctx, data), next)) : exists resp, data = some resp := by
  unfold postprocess at h
  split at h
  · cases h
  · rename_i resp
    split at h
    · cases h
      exact ⟨resp, rfl⟩
    · rcases exec_bind_eq_ok h with ⟨reqEvent, _, _, hrest⟩
      split at hrest
      · cases hrest
      · rcases exec_bind_eq_ok hrest with ⟨value, _, _, hlast⟩
        cases hlast
        exact ⟨_, rfl⟩

theorem exec_process_keys {p : SepProcessor (CachedWorld tau)}
    {s next : CallState (CachedWorld tau)} {r : Processed}
    (h : (p.process status endpoint nextProcessor preData).exec s =
      (.ok r, next)) :
    exists ctx,
      (p.body status endpoint preData).exec s = (.ok (ctx, r.data), next) ∧
      r.ctx.cacheKey = ctx.cacheKey ∧ r.ctx.cacheTtl = ctx.cacheTtl := by
  rcases exec_bind_eq_ok h with ⟨⟨ctx, data⟩, middle, hbody, hrest⟩
  dsimp only at hrest
  split at hrest
  · cases hrest
  · cases hrest
    exact ⟨ctx, hbody, rfl, rfl⟩

end Processors

/-! ## How far a request is -/

def Enters (status : InvokeStatus) : Prop :=
  status.processor = none ∨ StandsAt (some authName) status

theorem Enters.standsAt {status : InvokeStatus} (h : Enters status) :
    StandsAt (some authName) (startedAt status authName) := by
  rcases h with hfresh | hat
  · rw [startedAt_of_fresh hfresh]
    exact standsAt_placed status (some authName) none
  · rw [hat.startedAt_eq]
    exact hat

def Place.writes (endpoint : EndpointDto) : Place tau -> Bool
  | .before (p :: _) status (some _) =>
      (p.getName == cacheName || p.getName == callbackName) &&
        reallyCache status.cacheKey status.cacheTtl endpoint
  | .found _ _ _ .nothing => false
  | .found _ _ _ _ => true
  | _ => false

/-- The width of the column `cacheKey`. -/
def cacheKeyWidth : Nat := 511

def Place.overlong (endpoint : EndpointDto) : Place tau -> Bool
  | .before (p :: _) status (some _) =>
      p.getName == cacheName &&
        reallyCache status.cacheKey status.cacheTtl endpoint &&
        decide (cacheKeyWidth < (status.cacheKey.getD []).length)
  | _ => false

def Place.threw : Place tau -> Bool
  | .ended _ (.error _) => true
  | _ => false

def Site.Fits (site : Site tau) : Prop :=
  site.cacheKey.length ≤ cacheKeyWidth

structure HasKey (site : Site tau) (status : InvokeStatus) : Prop where
  cacheKey : status.cacheKey = some site.cacheKey
  cacheTtl : status.cacheTtl = site.cacheTtl

inductive FoundSpot : Option PendingOrResponse -> Held -> Spot -> Prop where
  | missed : FoundSpot none .nothing .missed
  | expired (pk : Nat) : FoundSpot none (.delete pk) (.expired pk)
  | observing (response : PendingOrResponse) (pk : Nat) (invokeKey : Text) :
      FoundSpot (some response) (.addObserver pk invokeKey) (.observing pk)
  | hit (response : PendingOrResponse) :
      FoundSpot (some response) .nothing .closing

theorem FoundSpot.ne_looking {response : Option PendingOrResponse}
    {held : Held} {spot : Spot} (h : FoundSpot response held spot) :
    spot ≠ .looking := by
  cases h with
  | missed => exact Spot.noConfusion
  | expired pk => exact Spot.noConfusion
  | observing response pk invokeKey => exact Spot.noConfusion
  | hit response => exact Spot.noConfusion

theorem FoundSpot.lost_or_tries {response : Option PendingOrResponse}
    {held : Held} {spot : Spot} (h : FoundSpot response held spot) :
    Lost spot ∨ Tries spot := by
  cases h with
  | missed => exact Or.inr True.intro
  | expired pk => exact Or.inr True.intro
  | observing response pk invokeKey => exact Or.inl True.intro
  | hit response => exact Or.inl True.intro

/-- The places of a request and how far it is there; the transaction of a
request that is `done` is over. -/
inductive At (site : Site tau) : Bool -> Place tau -> Spot -> Prop where
  | auth {status : InvokeStatus} {preData : Option PendingOrResponse}
      (h : Enters status) :
      At site false (.before (processors site.backend.chainHost) status
        preData) .early
  | cached {status : InvokeStatus} {preData : Option PendingOrResponse}
      (h : StandsAt (some cachedName) status) :
      At site false (.before ((processors site.backend.chainHost).drop 1)
        status preData) .looking
  | found {status : InvokeStatus} {cached : CachedLookup} {held : Held}
      {spot : Spot} (h : StandsAt (some cachedName) status)
      (hkey : cached.cacheKey = some site.cacheKey)
      (httl : cached.cacheTtl = site.cacheTtl)
      (hspot : FoundSpot cached.response held spot) :
      At site false (.found ((processors site.backend.chainHost).drop 2)
        status cached held) spot
  | sep {status : InvokeStatus} {preData : Option PendingOrResponse}
      (h : StandsAt (some sepName) status) (hkey : HasKey site status) :
      At site false (.before ((processors site.backend.chainHost).drop 2)
        status preData) .missed
  | postprocess {status : InvokeStatus} {preData : Option PendingOrResponse}
      (h : StandsAt (some postprocessName) status)
      (hkey : HasKey site status) :
      At site false (.before ((processors site.backend.chainHost).drop 3)
        status preData) .missed
  | cache {status : InvokeStatus} {resp : PendingOrResponse}
      (h : StandsAt (some cacheName) status) (hkey : HasKey site status) :
      At site false (.before ((processors site.backend.chainHost).drop 4)
        status (some resp)) .missed
  | stored {status : InvokeStatus} {resp : PendingOrResponse} :
      At site false (.ended cacheName (.ok (status, some resp))) .stored
  | committed {status : InvokeStatus} {resp : PendingOrResponse} :
      At site true (.ended cacheName (.ok (status, some resp))) .committed
  | failed {done : Bool} {name : Text} {e : Thrown}
      (h : name = cachedName ∨ name = cacheName) :
      At site done (.ended name (.error e)) .failed
  | closing {name : Text}
      {result : Except Thrown (InvokeStatus × Option PendingOrResponse)}
      (hauth : name ≠ authName) (hcache : name ≠ cacheName)
      (hok : name = cachedName -> exists r, result = .ok r) :
      At site false (.ended name result) .closing
  | out {done : Bool} {name : Text}
      {result : Except Thrown (InvokeStatus × Option PendingOrResponse)}
      (hdone : done = true ∨ name = authName) (hcache : name ≠ cacheName)
      (hok : name = cachedName -> exists r, result = .ok r) :
      At site done (.ended name result) .out

/-! ## What one step of a request does -/

/-- What the step of a request does, with the table that it sees. -/
inductive Moves (site : Site tau) (spot : Spot) (c c' : Client tau) : Prop where
  | look {spot' : Spot} (hat : At site false c'.place spot')
      (hplain : c.place.writes site.endpoint = false)
      (hrows : rows c'.call = rows c.call)
      (hlook : Look site.key spot (rows c.call) spot') : Moves site spot c c'
  | write {spot' : Spot} (hat : At site false c'.place spot')
      (hwrites : c.place.writes site.endpoint = true)
      (hok : c'.place.threw = false) (hfits : spot' = .stored -> site.Fits)
      (hwrite : TableRace.Write site.key spot (rows c.call) spot'
        (rows c'.call)) : Moves site spot c c'
  | refuse (hat : At site false c'.place .failed)
      (hwrites : c.place.writes site.endpoint = true)
      (hthrew : c'.place.threw = true)
      (hrefuse : Refuse site.key spot (rows c.call)) : Moves site spot c c'

section Steps

variable {site : Site tau} {status : InvokeStatus}
  {preData : Option PendingOrResponse} {s : CallState (CachedWorld tau)}

theorem writes_of_ne {p : SepProcessor (CachedWorld tau)}
    {rest : List (SepProcessor (CachedWorld tau))}
    (hcache : (p.getName == cacheName) = false)
    (hcallback : (p.getName == callbackName) = false) :
    (Place.before (p :: rest) status preData).writes site.endpoint =
      false := by
  cases preData with
  | none => rfl
  | some resp =>
      unfold Place.writes
      dsimp only
      rw [hcache, hcallback]
      rfl

theorem moves_process {p : SepProcessor (CachedWorld tau)}
    {rest : List (SepProcessor (CachedWorld tau))} {spot : Spot}
    {c' : Client tau}
    (hat : StandsAt (some p.getName) (startedAt status p.getName))
    (hcached : p.getName ≠ cachedName)
    (hplain : (Place.before (p :: rest) status preData).writes site.endpoint =
      false)
    (hrows : Keeps rows
      (p.body (startedAt status p.getName) site.endpoint preData))
    (hfails : forall e, exists spot',
      At site false (.ended p.getName (.error e)) spot' ∧
        forall t : CachedTable, Look site.key spot t spot')
    (hok : forall r next,
      (p.process (startedAt status p.getName) site.endpoint
        (rest.head?.map SepProcessor.getName) preData).exec s =
          (.ok r, next) ->
        exists spot', At site false (goOn p.getName rest (.ok r)) spot' ∧
          forall t : CachedTable, Look site.key spot t spot')
    (hstep : Client.step site.backend site.endpoint
      ⟨.before (p :: rest) status preData, s⟩ = some c') :
    Moves site spot ⟨.before (p :: rest) status preData, s⟩ c' := by
  have hisAt : isAt (startedAt status p.getName) p.getName = true := by
    rw [hat.isAt_eq]
    exact beq_self_eq_true _
  rw [Client.step_process _ _ _ _ _ hisAt hcached] at hstep
  rw [← Option.some.inj hstep]
  have hkept := keeps_process hrows (rest.head?.map SepProcessor.getName) s
  unfold Client.process
  dsimp only
  cases hexec : (p.process (startedAt status p.getName) site.endpoint
      (rest.head?.map SepProcessor.getName) preData).exec s with
  | mk result next =>
      rw [hexec] at hkept
      cases result with
      | error e =>
          rcases hfails e with ⟨spot', hat', hlook⟩
          exact .look hat' hplain hkept (hlook _)
      | ok r =>
          rcases hok r next hexec with ⟨spot', hat', hlook⟩
          exact .look hat' hplain hkept (hlook _)

theorem goOn_stop {name : Text} {rest : List (SepProcessor (CachedWorld tau))}
    {r : Processed} (h : r.stop = true) :
    goOn name rest (.ok r) = .ended name (.ok (r.ctx, r.data)) := by
  unfold goOn
  dsimp only
  rw [if_pos h]

theorem goOn_next {name : Text} {rest : List (SepProcessor (CachedWorld tau))}
    {r : Processed} (h : r.stop = false) :
    goOn name rest (.ok r) = .before rest r.ctx r.data := by
  unfold goOn
  dsimp only
  rw [if_neg (Bool.eq_false_iff.mp h)]

theorem moves_auth {c' : Client tau} (henters : Enters status)
    (hstep : Client.step site.backend site.endpoint
      ⟨.before (processors site.backend.chainHost) status preData, s⟩ =
        some c') :
    Moves site .early
      ⟨.before (processors site.backend.chainHost) status preData, s⟩ c' := by
  have hat := henters.standsAt
  have hcached : authName ≠ cachedName := by decide
  have hcache : authName ≠ cacheName := by decide
  apply moves_process hat hcached (writes_of_ne rfl rfl)
    (rows_sepAuth site.backend) ?_ ?_ hstep
  · exact fun e => ⟨.out, .out (Or.inr rfl) hcache
      fun hname => absurd hname hcached, fun _ => .leave⟩
  · intro r next hexec
    rcases process_sepAuth hat hexec with hnext | ⟨hstop, _⟩
    · refine ⟨.looking, ?_, fun _ => .enter⟩
      rw [goOn_next hnext.stop_eq]
      exact .cached hnext.stands
    · refine ⟨.out, ?_, fun _ => .leave⟩
      rw [goOn_stop hstop.stop_eq]
      exact .out (Or.inr rfl) hcache fun _ => ⟨_, rfl⟩

theorem closing_of_error {name : Text} (hauth : name ≠ authName)
    (hcached : name ≠ cachedName) (hcache : name ≠ cacheName) (e : Thrown) :
    exists spot', At site false (.ended name (.error e)) spot' ∧
      forall t : CachedTable, Look site.key .missed t spot' :=
  ⟨.closing, .closing hauth hcache fun hname => absurd hname hcached,
    fun _ => .close⟩

theorem moves_sep {c' : Client tau} (hat : StandsAt (some sepName) status)
    (hkey : HasKey site status)
    (hstep : Client.step site.backend site.endpoint
      ⟨.before ((processors site.backend.chainHost).drop 2) status preData,
        s⟩ = some c') :
    Moves site .missed ⟨.before ((processors site.backend.chainHost).drop 2)
      status preData, s⟩ c' := by
  have hstarted : StandsAt (some sepName) (startedAt status sepName) := by
    rw [hat.startedAt_eq]
    exact hat
  have hcached : sepName ≠ cachedName := by decide
  apply moves_process hstarted hcached (writes_of_ne rfl rfl)
    (rows_sepInvoke site.backend)
    (closing_of_error (show sepName ≠ authName by decide) hcached
      (show sepName ≠ cacheName by decide)) ?_ hstep
  intro r next hexec
  have hnext := process_sepInvoke hstarted hexec
  rcases exec_process_keys hexec with ⟨ctx, hbody, hctxKey, hctxTtl⟩
  rw [body_sepInvoke hbody] at hctxKey hctxTtl
  refine ⟨.missed, ?_, fun _ => .pass Spot.noConfusion⟩
  rw [goOn_next hnext.stop_eq]
  apply At.postprocess hnext.stands
  rw [show (sepInvokeProcessor site.backend.chainHost).getName = sepName
    from rfl, hat.startedAt_eq] at hctxKey hctxTtl
  exact ⟨hctxKey.trans hkey.cacheKey, hctxTtl.trans hkey.cacheTtl⟩

theorem moves_postprocess {c' : Client tau}
    (hat : StandsAt (some postprocessName) status) (hkey : HasKey site status)
    (hstep : Client.step site.backend site.endpoint
      ⟨.before ((processors site.backend.chainHost).drop 3) status preData,
        s⟩ = some c') :
    Moves site .missed ⟨.before ((processors site.backend.chainHost).drop 3)
      status preData, s⟩ c' := by
  have hstarted : StandsAt (some postprocessName)
      (startedAt status postprocessName) := by
    rw [hat.startedAt_eq]
    exact hat
  have hcached : postprocessName ≠ cachedName := by decide
  apply moves_process hstarted hcached (writes_of_ne rfl rfl)
    (rows_postprocess site.backend)
    (closing_of_error (show postprocessName ≠ authName by decide) hcached
      (show postprocessName ≠ cacheName by decide)) ?_ hstep
  intro r next hexec
  have hnext := (process_postprocess rfl (List.cons_ne_nil _ _) hstarted
    hexec).left
  rcases exec_process_keys hexec with ⟨ctx, hbody, hctxKey, hctxTtl⟩
  rcases postprocess_some hbody with ⟨resp, hresp⟩
  rw [(exec_postprocess_ok hbody).left] at hctxKey hctxTtl
  refine ⟨.missed, ?_, fun _ => .pass Spot.noConfusion⟩
  rw [goOn_next hnext.stop_eq, hresp]
  apply At.cache hnext.stands
  rw [show (sepPostprocessProcessor site.backend.chainHost).getName =
    postprocessName from rfl, hat.startedAt_eq] at hctxKey hctxTtl
  exact ⟨hctxKey.trans hkey.cacheKey, hctxTtl.trans hkey.cacheTtl⟩

theorem exec_toCache_cases {ctx : InvokeStatus} (hkey : HasKey site ctx)
    (response : PendingOrResponse) (reqEvent : EventObject)
    (w : CachedWorld tau) :
    exists data,
      (exists t, w.cached.create site.key data = some t ∧
        exec (site.backend.chainHost.toCache ctx (some response) site.endpoint
          reqEvent) w = (.ok (), { w with cached := t })) ∨
      (w.cached.create site.key data = none ∧
        exec (site.backend.chainHost.toCache ctx (some response) site.endpoint
          reqEvent) w = (.error uniqueConstraint, w)) := by
  let data := newData (site.backend.now w.outside) response reqEvent
  have htruthy : truthy ctx.cacheKey = some site.cacheKey := by
    rw [hkey.cacheKey]
    exact truthy_of_reallyCache site.cacheable
  have hreally : reallyCache ctx.cacheKey ctx.cacheTtl site.endpoint =
      true := by
    rw [hkey.cacheKey, hkey.cacheTtl]
    exact site.cacheable
  have hstore : exec (toCache site.backend ctx (some response) site.endpoint
      reqEvent) w = exec (write uniqueConstraint (fun t =>
        t.create site.key data) >>= fun _ => pure true) w := by
    unfold toCache
    rw [htruthy]
    dsimp only
    rw [if_pos hreally, exec_bind_of_ok (exec_get w)]
    rfl
  exists data
  rcases exec_write_cases uniqueConstraint
    (fun t => t.create site.key data) w with ⟨t, ht, hexec⟩ | ⟨ht, hexec⟩
  · rw [exec_bind_of_ok hexec] at hstore
    exact Or.inl ⟨t, ht, exec_bind_of_ok hstore _⟩
  · rw [exec_bind_of_error hexec] at hstore
    exact Or.inr ⟨ht, exec_bind_of_error hstore _⟩

theorem sepCache_ctx (hat : StandsAt (some cacheName) status)
    (hkey : HasKey site status) (resp : PendingOrResponse) :
    exists ctx place, ctx.processor = some place ∧ HasKey site ctx ∧
      forall s : CallState (CachedWorld tau),
        ((sepCacheProcessor site.backend.chainHost).body status site.endpoint
            (some resp)).exec s =
          (Action.outside (site.backend.chainHost.toCache ctx (some resp)
            site.endpoint s.event) >>= fun _ => pure (ctx, some resp)).exec
              s := by
  rcases hat with ⟨memory, hmemory⟩
  let ctx := if PendingOrResponse.isPending (some resp) then
    break_ status false else end_ status
  have hctx : exists place, ctx.processor = some place ∧ HasKey site ctx := by
    unfold ctx
    split
    · refine ⟨⟨some cacheName, memory, some false⟩, ?_, hkey.cacheKey,
        hkey.cacheTtl⟩
      show status.processor.map _ = _
      rw [hmemory]
      rfl
    · refine ⟨⟨none, memory, none⟩, ?_, hkey.cacheKey, hkey.cacheTtl⟩
      show status.processor.map _ = _
      rw [hmemory]
      rfl
  rcases hctx with ⟨place, hplace, hkey'⟩
  refine ⟨ctx, place, hplace, hkey', ?_⟩
  intro s
  unfold sepCacheProcessor
  dsimp only
  rw [exec_bind_of_ok (exec_getEvent s)]

theorem writes_cache (hkey : HasKey site status) (resp : PendingOrResponse) :
    (Place.before ((processors site.backend.chainHost).drop 4) status
      (some resp)).writes site.endpoint = true := by
  rw [show (processors site.backend.chainHost).drop 4 =
    sepCacheProcessor site.backend.chainHost ::
      (processors site.backend.chainHost).drop 5 from rfl]
  unfold Place.writes
  dsimp only
  rw [hkey.cacheKey, hkey.cacheTtl, site.cacheable]
  rfl

theorem overlong_cache (hkey : HasKey site status) (resp : PendingOrResponse) :
    (Place.before ((processors site.backend.chainHost).drop 4) status
      (some resp)).overlong site.endpoint = true <-> ¬ site.Fits := by
  rw [show (processors site.backend.chainHost).drop 4 =
    sepCacheProcessor site.backend.chainHost ::
      (processors site.backend.chainHost).drop 5 from rfl]
  unfold Place.overlong
  dsimp only
  rw [hkey.cacheKey, hkey.cacheTtl, site.cacheable]
  unfold Site.Fits
  rw [not_le]
  exact decide_eq_true_iff

theorem moves_cache {c' : Client tau} {resp : PendingOrResponse}
    (hat : StandsAt (some cacheName) status) (hkey : HasKey site status)
    (hfits : site.Fits)
    (hstep : Client.step site.backend site.endpoint
      ⟨.before ((processors site.backend.chainHost).drop 4) status (some resp),
        s⟩ = some c') :
    Moves site .missed ⟨.before ((processors site.backend.chainHost).drop 4)
      status (some resp), s⟩ c' := by
  have hwrites := writes_cache hkey resp
  have hstarted := hat.startedAt_eq cacheName
  have hprocess := Client.step_process site.backend site.endpoint
    ((processors site.backend.chainHost).drop 5) (some resp) s
    (show isAt (startedAt status (sepCacheProcessor
      site.backend.chainHost).getName) cacheName = true from hat.isAt_self)
    (show cacheName ≠ cachedName by decide)
  rw [← Option.some.inj (hprocess.symm.trans hstep)]
  unfold Client.process
  dsimp only
  rw [show startedAt status (sepCacheProcessor
    site.backend.chainHost).getName = status from hstarted]
  rcases sepCache_ctx hat hkey resp with ⟨ctx, place, hplace, hkey', hbody⟩
  rcases exec_toCache_cases hkey' resp s.event s.world.outside with
    ⟨data, ⟨t, ht, hstore⟩ | ⟨ht, hstore⟩⟩
  · have hstored := exec_bind_of_ok (exec_outside hstore)
      fun _ => (pure (ctx, some resp) : Action (CachedWorld tau) _)
    have hexec := exec_process_of_body hplace ((hbody s).trans hstored)
      (some callbackPostprocessName)
    have hends := process_sepCache hat hexec
    rw [show (((processors site.backend.chainHost).drop 5).head?.map
      SepProcessor.getName) = some callbackPostprocessName from rfl, hexec]
    dsimp only
    rw [goOn_stop hends.right.stop_eq]
    exact .write .stored hwrites rfl (fun _ => hfits) (.insert ht)
  · have hrefused := exec_bind_of_error (exec_outside hstore)
      fun _ => (pure (ctx, some resp) : Action (CachedWorld tau) _)
    have hexec := exec_process_of_error ((hbody s).trans hrefused)
      (some callbackPostprocessName)
    rw [show (((processors site.backend.chainHost).drop 5).head?.map
      SepProcessor.getName) = some callbackPostprocessName from rfl, hexec]
    exact .refuse (.failed (Or.inr rfl)) hwrites rfl (.insert ht)

theorem lookup_cases (invokeId : Text) {reqEvent : EventObject}
    (hconfig : loadCacheConfig site.backend site.endpoint reqEvent =
      .ok (some (site.cacheKey, site.cacheTtl))) (w : CachedWorld tau) :
    exists cached held spot,
      (exec (lookup site.backend invokeId site.endpoint reqEvent) w).1 =
        .ok (cached, held) ∧
      cached.cacheKey = some site.cacheKey ∧
      cached.cacheTtl = site.cacheTtl ∧ FoundSpot cached.response held spot ∧
      Look site.key .looking w.cached spot := by
  unfold lookup
  rw [hconfig]
  dsimp only
  rw [if_pos site.cacheable,
    exec_bind_of_ok (exec_findOne site.cacheKey site.endpoint.id w)]
  cases hfound : w.cached.findUnique site.key with
  | none =>
      have hnone : w.cached.findUnique ⟨site.endpoint.id, site.cacheKey⟩ =
        none := hfound
      rw [hnone]
      exact ⟨_, _, .missed, rfl, rfl, rfl, .missed, .miss hfound⟩
  | some row =>
      have hrow : w.cached.findUnique ⟨site.endpoint.id, site.cacheKey⟩ =
        some row := hfound
      rw [hrow]
      dsimp only
      rw [exec_bind_of_ok (exec_get w)]
      split
      · exact ⟨_, _, .expired row.pk, rfl, rfl, rfl, .expired row.pk,
          .expire hfound⟩
      · split
        · exact ⟨_, _, .observing row.pk, rfl, rfl, rfl, .observing _ _ _,
            .observe hfound⟩
        · exact ⟨_, _, .closing, rfl, rfl, rfl, .hit _, .hit⟩

theorem moves_lookup {c' : Client tau}
    (hat : StandsAt (some cachedName) status)
    (hconfig : loadCacheConfig site.backend site.endpoint s.event =
      .ok (some (site.cacheKey, site.cacheTtl)))
    (hstep : Client.step site.backend site.endpoint
      ⟨.before ((processors site.backend.chainHost).drop 1) status preData,
        s⟩ = some c') :
    Moves site .looking ⟨.before ((processors site.backend.chainHost).drop 1)
      status preData, s⟩ c' := by
  have hstarted := hat.startedAt_eq cachedName
  have hfind := Client.step_lookup site.backend site.endpoint
    ((processors site.backend.chainHost).drop 2) preData s
    (show isAt (startedAt status (sepCachedProcessor
      site.backend.chainHost).getName) cachedName = true from hat.isAt_self)
    rfl
  rw [← Option.some.inj (hfind.symm.trans hstep)]
  rw [show startedAt status (sepCachedProcessor
    site.backend.chainHost).getName = status from hstarted]
  rcases lookup_cases status.invokeId hconfig s.world.outside with
    ⟨cached, held, spot, hlookup, hkey, httl, hspot, hmove⟩
  unfold Client.find
  dsimp only
  rw [hlookup]
  exact .look (.found hat hkey httl hspot) (writes_of_ne rfl rfl) rfl hmove

theorem found_missed {cached : CachedLookup} {held : Held}
    {next : CallState (CachedWorld tau)}
    (hat : StandsAt (some cachedName) status)
    (hkey : cached.cacheKey = some site.cacheKey)
    (httl : cached.cacheTtl = site.cacheTtl) (hmiss : cached.response = none)
    (hwrite : (Action.outside held.write).exec s = (.ok (), next)) :
    exists r, ((foundProcessor cached held).process status site.endpoint
        (some sepName) none).exec s = (.ok r, next) ∧
      r.stop = false ∧ StandsAt (some sepName) r.ctx ∧ HasKey site r.ctx := by
  rcases hat with ⟨memory, hmemory⟩
  have hsome : (truthy cached.cacheKey).isSome = true := by
    rw [hkey, truthy_of_reallyCache site.cacheable]
    rfl
  have hctx : withCacheKey status cached =
      { status with cacheKey := cached.cacheKey
                    cacheTtl := cached.cacheTtl } := by
    unfold withCacheKey
    rw [if_pos hsome]
  have hbody : ((foundProcessor cached held).body status site.endpoint
      none).exec s = (.ok (withCacheKey status cached, none), next) := by
    unfold foundProcessor
    dsimp only
    rw [exec_bind_of_ok hwrite, hmiss]
    rfl
  have hplace : (withCacheKey status cached).processor =
      some ⟨some cachedName, memory, none⟩ := by
    rw [processor_withCacheKey]
    exact hmemory
  have hname : cachedName ≠ [] := List.cons_ne_nil _ _
  have hexec := exec_process_of_body hplace hbody (some sepName)
  rw [advance_open hname, hctx] at hexec
  exact ⟨_, hexec, rfl, ⟨memory, rfl⟩, hkey, httl⟩

theorem found_hit {cached : CachedLookup} {held : Held}
    {response : PendingOrResponse} {next : CallState (CachedWorld tau)}
    (hat : StandsAt (some cachedName) status)
    (hhit : cached.response = some response)
    (hwrite : (Action.outside held.write).exec s = (.ok (), next)) :
    exists r, ((foundProcessor cached held).process status site.endpoint
        (some sepName) none).exec s = (.ok r, next) ∧ r.stop = true := by
  rcases hat with ⟨memory, hmemory⟩
  have hbody : ((foundProcessor cached held).body status site.endpoint
      none).exec s =
        (.ok (end_ (withCacheKey status cached), some response), next) := by
    unfold foundProcessor
    dsimp only
    rw [exec_bind_of_ok hwrite, hhit]
    rfl
  have hplace : (end_ (withCacheKey status cached)).processor =
      some ⟨none, memory, none⟩ := by
    show (withCacheKey status cached).processor.map _ = _
    rw [processor_withCacheKey, hmemory]
    rfl
  have hexec := exec_process_of_body hplace hbody (some sepName)
  rw [advance_end] at hexec
  exact ⟨_, hexec, rfl⟩

theorem moves_of_found {cached : CachedLookup} {held : Held} {spot : Spot}
    {result : Except Thrown Processed} {next : CallState (CachedWorld tau)}
    {c' : Client tau}
    (hexec : ((foundProcessor cached held).process status site.endpoint
      (some sepName) none).exec s = (result, next))
    (hmoves : Moves site spot
      ⟨.found ((processors site.backend.chainHost).drop 2) status cached held,
        s⟩
      ⟨goOn cachedName ((processors site.backend.chainHost).drop 2) result,
        next⟩)
    (hstep : Client.step site.backend site.endpoint
      ⟨.found ((processors site.backend.chainHost).drop 2) status cached held,
        s⟩ = some c') :
    Moves site spot
      ⟨.found ((processors site.backend.chainHost).drop 2) status cached held,
        s⟩ c' := by
  rw [← Option.some.inj hstep]
  unfold Client.process
  dsimp only
  rw [show ((processors site.backend.chainHost).drop 2).head?.map
    SepProcessor.getName = some sepName from rfl, hexec]
  exact hmoves

theorem moves_found {cached : CachedLookup} {held : Held} {spot : Spot}
    {c' : Client tau} (hat : StandsAt (some cachedName) status)
    (hkey : cached.cacheKey = some site.cacheKey)
    (httl : cached.cacheTtl = site.cacheTtl)
    (hspot : FoundSpot cached.response held spot)
    (hstep : Client.step site.backend site.endpoint
      ⟨.found ((processors site.backend.chainHost).drop 2) status cached held,
        s⟩ = some c') :
    Moves site spot
      ⟨.found ((processors site.backend.chainHost).drop 2) status cached held,
        s⟩ c' := by
  -- a request that goes on to its service
  have hgoes : forall next, cached.response = none ->
      (Action.outside held.write).exec s = (.ok (), next) ->
      exists r, ((foundProcessor cached held).process status site.endpoint
          (some sepName) none).exec s = (.ok r, next) ∧
        (goOn cachedName ((processors site.backend.chainHost).drop 2)
          (.ok r)).threw = false ∧
        At site false (goOn cachedName
          ((processors site.backend.chainHost).drop 2) (.ok r)) .missed := by
    intro next hmiss hwrite
    rcases found_missed hat hkey httl hmiss hwrite with
      ⟨r, hexec, hstop, hstands, hkey'⟩
    refine ⟨r, hexec, ?_⟩
    rw [goOn_next hstop]
    exact ⟨rfl, .sep hstands hkey'⟩
  -- a request that is answered by the cache
  have hends : forall response next, cached.response = some response ->
      (Action.outside held.write).exec s = (.ok (), next) ->
      exists r, ((foundProcessor cached held).process status site.endpoint
          (some sepName) none).exec s = (.ok r, next) ∧
        (goOn cachedName ((processors site.backend.chainHost).drop 2)
          (.ok r)).threw = false ∧
        At site false (goOn cachedName
          ((processors site.backend.chainHost).drop 2) (.ok r)) .closing := by
    intro response next hhit hwrite
    rcases found_hit hat hhit hwrite with ⟨r, hexec, hstop⟩
    refine ⟨r, hexec, ?_⟩
    rw [goOn_stop hstop]
    exact ⟨rfl, .closing (show cachedName ≠ authName by decide)
      (show cachedName ≠ cacheName by decide) fun _ => ⟨_, rfl⟩⟩
  have hfails : forall next,
      (Action.outside held.write).exec s = (.error recordNotFound, next) ->
      ((foundProcessor cached held).process status site.endpoint
        (some sepName) none).exec s = (.error recordNotFound, next) :=
    fun next hwrite => exec_process_of_error (exec_bind_of_error hwrite _) _
  generalize hresponse : cached.response = response at hspot
  cases hspot with
  | missed =>
      rcases hgoes s hresponse rfl with ⟨r, hexec, _, hat'⟩
      exact moves_of_found hexec
        (.look hat' rfl rfl (.pass Spot.noConfusion)) hstep
  | hit response =>
      rcases hends response s hresponse rfl with ⟨r, hexec, _, hat'⟩
      exact moves_of_found hexec
        (.look hat' rfl rfl (.pass Spot.noConfusion)) hstep
  | expired pk =>
      rcases exec_write_cases recordNotFound (fun t => t.delete pk)
        s.world.outside with ⟨t, ht, hwrite⟩ | ⟨ht, hwrite⟩
      · rcases hgoes _ hresponse (exec_outside hwrite) with
          ⟨r, hexec, hok, hat'⟩
        exact moves_of_found hexec
          (.write hat' rfl hok Spot.noConfusion (.delete ht)) hstep
      · exact moves_of_found (hfails _ (exec_outside hwrite))
          (.refuse (.failed (Or.inl rfl)) rfl rfl (.delete ht)) hstep
  | observing response pk invokeKey =>
      rcases exec_write_cases recordNotFound
        (fun t => t.update pk (Shared.pushKey invokeKey)) s.world.outside with
        ⟨t, ht, hwrite⟩ | ⟨ht, hwrite⟩
      · rcases hends response _ hresponse (exec_outside hwrite) with
          ⟨r, hexec, hok, hat'⟩
        exact moves_of_found hexec
          (.write hat' rfl hok Spot.noConfusion (.change ht)) hstep
      · exact moves_of_found (hfails _ (exec_outside hwrite))
          (.refuse (.failed (Or.inl rfl)) rfl rfl (.change ht)) hstep

def Place.isLookup : Place tau -> Prop
  | .before (p :: _) _ _ => p.getName = cachedName
  | _ => False

theorem at_step {c c' : Client tau} {done : Bool} {spot : Spot}
    (hat : At site done c.place spot)
    (hfits : c.place.overlong site.endpoint = false)
    (hconfig : c.place.isLookup ->
      loadCacheConfig site.backend site.endpoint c.call.event =
        .ok (some (site.cacheKey, site.cacheTtl)))
    (hstep : c.step site.backend site.endpoint = some c') :
    done = false ∧ Moves site spot c c' := by
  rcases c with ⟨place, s⟩
  dsimp only at hat
  cases hat with
  | auth henters => exact ⟨rfl, moves_auth henters hstep⟩
  | cached hstands => exact ⟨rfl, moves_lookup hstands (hconfig rfl) hstep⟩
  | found hstands hkey httl hspot =>
      exact ⟨rfl, moves_found hstands hkey httl hspot hstep⟩
  | sep hstands hkey => exact ⟨rfl, moves_sep hstands hkey hstep⟩
  | postprocess hstands hkey =>
      exact ⟨rfl, moves_postprocess hstands hkey hstep⟩
  | cache hstands hkey =>
      have hfits' : site.Fits := by
        by_contra hlong
        rw [(overlong_cache hkey _).mpr hlong] at hfits
        cases hfits
      exact ⟨rfl, moves_cache hstands hkey hfits' hstep⟩
  | stored => cases hstep
  | committed => cases hstep
  | failed _ => cases hstep
  | closing _ _ _ => cases hstep
  | out _ _ _ => cases hstep

end Steps

/-! ## Two requests -/

def valueTooLong : Thrown :=
  databaseError "P2000".toList

/-- The database has refused the store: it takes no more of the
transaction. -/
def Place.aborted : Place tau -> Bool
  | .ended name (.error e) =>
      name == cacheName && (e == uniqueConstraint || e == valueTooLong)
  | _ => false

/-- Two requests that share the cache, each in the transaction of its
listeners. -/
structure Race (tau : Type) where
  /-- With what the two have written. -/
  shared : CachedWorld tau
  committed : CachedTable
  /-- The request whose transaction has written and is not over. -/
  writer : Option Bool
  client : Bool -> Client tau
  /-- The transaction of the request is over. -/
  done : Bool -> Bool

/-- A step of one of the two, the end of its transaction, or something else
that happens outside. -/
inductive Turn (tau : Type) where
  | go (i : Bool)
  | finish (i : Bool)
  | pass (outside : tau)

def Turn.mover : Turn tau -> Option Bool
  | .go i => some i
  | .finish i => some i
  | .pass _ => none

def Place.hasLooked : Place tau -> Prop
  | .before [] _ _ => False
  | .before (p :: _) _ _ => p.getName ≠ authName ∧ p.getName ≠ cachedName
  | .found _ _ _ _ => True
  | .ended name _ => name ≠ authName

namespace Race

def enter (b : Backend tau) (w : CachedWorld tau)
    (status : Bool -> InvokeStatus)
    (call : Bool -> CallState (CachedWorld tau)) : Race tau where
  shared := w
  committed := w.cached
  writer := none
  client := fun i => .enter b (status i) (call i)
  done := fun _ => false

def versions (s : Race tau) : Versions CachedKey CachedData :=
  ⟨s.committed, s.shared.cached, s.writer⟩

def withVersions (s : Race tau) (t : Versions CachedKey CachedData) :
    Race tau :=
  { s with shared := { s.shared with cached := t.current }
           committed := t.committed
           writer := t.writer }

@[simp] theorem versions_withVersions (s : Race tau)
    (t : Versions CachedKey CachedData) : (s.withVersions t).versions = t :=
  rfl

/-- A request with the table as its transaction sees it. -/
def seen (s : Race tau) (i : Bool) : Client tau where
  place := (s.client i).place
  call :=
    { (s.client i).call with
        world := { (s.client i).call.world with
          outside := { s.shared with cached := s.versions.view i } } }

/-- A write waits for the end of the transaction that has written. -/
def waits (endpoint : EndpointDto) (s : Race tau) (i : Bool) : Bool :=
  (s.client i).place.writes endpoint && s.writer == some (!i)

def wrote (endpoint : EndpointDto) (s : Race tau) (i : Bool)
    (c : Client tau) : Bool :=
  (s.client i).place.writes endpoint && !c.place.threw

def advanced (endpoint : EndpointDto) (s : Race tau) (i : Bool)
    (c : Client tau) : Race tau :=
  let t := if s.wrote endpoint i c then s.versions.write i (rows c.call)
    else s.versions
  { s with shared := c.call.world.outside
           client := Function.update s.client i c }.withVersions t

def refused (s : Race tau) (i : Bool) : Race tau :=
  let c : Client tau :=
    ⟨.ended cacheName (.error valueTooLong), (s.client i).call⟩
  { s with client := Function.update s.client i c }

/-- The listeners of a request whose chain has ended are through. -/
def finish (s : Race tau) (i : Bool) : Option (Race tau) :=
  match (s.client i).place with
  | .ended name result =>
      if s.done i then none
      else
        let t := if (Place.ended name result : Place tau).aborted then
          s.versions.rollback i else s.versions.commit i
        some ({ s with done := Function.update s.done i true }.withVersions t)
  | _ => none

def step (b : Backend tau) (endpoint : EndpointDto) (s : Race tau) :
    Turn tau -> Option (Race tau)
  | .go i =>
      if (s.client i).place.overlong endpoint then some (s.refused i)
      else if s.waits endpoint i then none
      else ((s.seen i).step b endpoint).map (s.advanced endpoint i)
  | .finish i => s.finish i
  | .pass outside =>
      some { s with shared := { s.shared with outside := outside } }

def SameKey (site : Site tau) (s : Race tau) : Turn tau -> Prop
  | .go i => (s.client i).place.isLookup ->
      loadCacheConfig site.backend site.endpoint (s.client i).call.event =
        .ok (some (site.cacheKey, site.cacheTtl))
  | .finish _ => True
  | .pass _ => True

/-- A request looks up only while the other one is not between its lookup and
the end of its transaction. -/
def LooksUpAlone (s : Race tau) : Turn tau -> Prop
  | .go i => (s.client i).place.isLookup ->
      ¬ ((s.client !i).place.hasLooked ∧ s.done (!i) = false)
  | .finish _ => True
  | .pass _ => True

/-- The chain of the request has ended with a response, or with a pending
one. -/
def Succeeded (s : Race tau) (i : Bool) : Prop :=
  exists status resp,
    (s.client i).place = .ended cacheName (.ok (status, some resp))

/-- The cache has not answered the request, and its service has returned a
response if it was called. -/
def MissedCache (s : Race tau) (i : Bool) : Prop :=
  (exists result, (s.client i).place = .ended cacheName result) ∨
    exists e, (s.client i).place = .ended cachedName (.error e)

/-! ## What the places of the two say -/

theorem at_lookup {site : Site tau} {done : Bool} {place : Place tau}
    {spot : Spot} (hat : At site done place spot) :
    place.isLookup <-> spot = .looking := by
  cases hat with
  | auth _ =>
      constructor
      · exact fun h => absurd h (show authName ≠ cachedName by decide)
      · exact Spot.noConfusion
  | cached _ => exact ⟨fun _ => rfl, fun _ => rfl⟩
  | found _ _ _ hspot =>
      constructor
      · exact False.elim
      · exact fun h => absurd h hspot.ne_looking
  | sep _ _ =>
      constructor
      · exact fun h => absurd h (show sepName ≠ cachedName by decide)
      · exact Spot.noConfusion
  | postprocess _ _ =>
      constructor
      · exact fun h => absurd h (show postprocessName ≠ cachedName by decide)
      · exact Spot.noConfusion
  | cache _ _ =>
      constructor
      · exact fun h => absurd h (show cacheName ≠ cachedName by decide)
      · exact Spot.noConfusion
  | stored => exact ⟨False.elim, Spot.noConfusion⟩
  | committed => exact ⟨False.elim, Spot.noConfusion⟩
  | failed _ => exact ⟨False.elim, Spot.noConfusion⟩
  | closing _ _ _ => exact ⟨False.elim, Spot.noConfusion⟩
  | out _ _ _ => exact ⟨False.elim, Spot.noConfusion⟩

theorem at_open {site : Site tau} {done : Bool} {place : Place tau}
    {spot : Spot} (hat : At site done place spot) (h : Open spot) :
    place.hasLooked ∧ done = false := by
  cases hat with
  | auth _ => exact h.elim
  | cached _ => exact h.elim
  | found _ _ _ _ => exact ⟨True.intro, rfl⟩
  | sep _ _ =>
      exact ⟨⟨show sepName ≠ authName by decide,
        show sepName ≠ cachedName by decide⟩, rfl⟩
  | postprocess _ _ =>
      exact ⟨⟨show postprocessName ≠ authName by decide,
        show postprocessName ≠ cachedName by decide⟩, rfl⟩
  | cache _ _ =>
      exact ⟨⟨show cacheName ≠ authName by decide,
        show cacheName ≠ cachedName by decide⟩, rfl⟩
  | stored => exact ⟨show cacheName ≠ authName by decide, rfl⟩
  | committed => exact h.elim
  | failed _ => exact h.elim
  | closing hauth _ _ => exact ⟨hauth, rfl⟩
  | out _ _ _ => exact h.elim

theorem at_hasLooked {site : Site tau} {done : Bool} {place : Place tau}
    {spot : Spot} (hat : At site done place spot) (h : place.hasLooked)
    (hdone : done = false) : Lost spot ∨ Tries spot ∨ spot = .stored := by
  cases hat with
  | auth _ => exact absurd rfl h.left
  | cached _ => exact absurd rfl h.right
  | found _ _ _ hspot => exact hspot.lost_or_tries.imp_right Or.inl
  | sep _ _ => exact Or.inr (Or.inl True.intro)
  | postprocess _ _ => exact Or.inr (Or.inl True.intro)
  | cache _ _ => exact Or.inr (Or.inl True.intro)
  | stored => exact Or.inr (Or.inr rfl)
  | committed => cases hdone
  | failed _ => exact Or.inl True.intro
  | closing _ _ _ => exact Or.inl True.intro
  | out _ _ _ => exact Or.inl True.intro

theorem at_succeeded {site : Site tau} {s : Race tau} {i : Bool} {spot : Spot}
    (hat : At site (s.done i) (s.client i).place spot) (h : s.Succeeded i) :
    Stores spot := by
  rcases h with ⟨status, resp, hplace⟩
  rw [hplace] at hat
  generalize s.done i = done at hat
  cases hat with
  | stored => exact True.intro
  | committed => exact True.intro
  | closing _ hcache _ => exact absurd rfl hcache
  | out _ hcache _ => exact absurd rfl hcache

theorem at_missed {site : Site tau} {s : Race tau} {i : Bool} {spot : Spot}
    (hat : At site (s.done i) (s.client i).place spot) (h : s.MissedCache i) :
    s.Succeeded i ∨ spot = .failed := by
  generalize s.done i = done at hat
  rcases h with ⟨result, hplace⟩ | ⟨e, hplace⟩
  · rw [hplace] at hat
    cases hat with
    | stored => exact Or.inl ⟨_, _, hplace⟩
    | committed => exact Or.inl ⟨_, _, hplace⟩
    | failed _ => exact Or.inr rfl
    | closing _ hcache _ => exact absurd rfl hcache
    | out _ hcache _ => exact absurd rfl hcache
  · rw [hplace] at hat
    cases hat with
    | failed _ => exact Or.inr rfl
    | closing _ _ hok =>
        rcases hok rfl with ⟨r, hr⟩
        cases hr
    | out _ _ hok =>
        rcases hok rfl with ⟨r, hr⟩
        cases hr

/-! ## What a turn does to the tables -/

theorem overlong_of_at {site : Site tau} {done : Bool} {place : Place tau}
    {spot : Spot} (hat : At site done place spot)
    (h : place.overlong site.endpoint = true) :
    done = false ∧ spot = .missed ∧ ¬ site.Fits := by
  have hplain : forall {p : SepProcessor (CachedWorld tau)}
      {rest : List (SepProcessor (CachedWorld tau))} {status : InvokeStatus}
      {preData : Option PendingOrResponse},
      (p.getName == cacheName) = false ->
      (Place.before (p :: rest) status preData).overlong site.endpoint =
        false := by
    intro p rest status preData hname
    cases preData with
    | none => rfl
    | some resp =>
        unfold Place.overlong
        dsimp only
        rw [hname]
        rfl
  cases hat with
  | auth _ => exact absurd ((hplain rfl).symm.trans h) Bool.noConfusion
  | cached _ => exact absurd ((hplain rfl).symm.trans h) Bool.noConfusion
  | found _ _ _ _ => cases h
  | sep _ _ => exact absurd ((hplain rfl).symm.trans h) Bool.noConfusion
  | postprocess _ _ =>
      exact absurd ((hplain rfl).symm.trans h) Bool.noConfusion
  | cache _ hkey => exact ⟨rfl, rfl, (overlong_cache hkey _).mp h⟩
  | stored => cases h
  | committed => cases h
  | failed _ => cases h
  | closing _ _ _ => cases h
  | out _ _ _ => cases h

structure Turns (site : Site tau) (s s' : Race tau) (i : Bool)
    (spot spot' : Spot) : Prop where
  mover : At site (s'.done i) (s'.client i).place spot'
  step : TableRace.Step site.key site.Fits i spot s.versions spot' s'.versions
  client : s'.client (!i) = s.client (!i)
  done : s'.done (!i) = s.done (!i)

theorem update_other {a : Type} (f : Bool -> a) (i : Bool) (x : a) :
    Function.update f i x (!i) = f (!i) :=
  Function.update_of_ne (Bool.not_ne_self i) x f

theorem turns_of_moves {site : Site tau} {s : Race tau} {i : Bool}
    {spot : Spot} {c : Client tau} (hdone : s.done i = false)
    (hwaits : s.waits site.endpoint i = false)
    (hmoves : Moves site spot (s.seen i) c) :
    exists spot', Turns site s (s.advanced site.endpoint i c) i spot spot' := by
  have hclient : (s.advanced site.endpoint i c).client i = c := by
    show Function.update s.client i c i = c
    exact Function.update_self i c s.client
  have hfree : (s.seen i).place.writes site.endpoint = true ->
      s.writer ≠ some (!i) := by
    intro hwrites hwriter
    unfold waits at hwaits
    rw [show (s.client i).place.writes site.endpoint = true from hwrites,
      hwriter] at hwaits
    cases i with
    | false => cases hwaits
    | true => cases hwaits
  have hat : forall {spot' : Spot}, At site false c.place spot' ->
      At site ((s.advanced site.endpoint i c).done i)
        ((s.advanced site.endpoint i c).client i).place spot' := by
    intro spot' h
    rw [hclient]
    show At site (s.done i) _ _
    rw [hdone]
    exact h
  have hversions : forall b, s.wrote site.endpoint i c = b ->
      (s.advanced site.endpoint i c).versions =
        if b then s.versions.write i (rows c.call) else s.versions := by
    intro b hb
    rw [← hb]
    rfl
  cases hmoves with
  | look hat' hplain hrows hlook =>
      rename_i spot'
      refine ⟨spot', hat hat', ?_, update_other _ _ _, rfl⟩
      rw [hversions false (by
        unfold wrote
        rw [show (s.client i).place.writes site.endpoint = false from hplain]
        rfl)]
      exact .look hlook
  | write hat' hwrites hok hfits hwrite =>
      rename_i spot'
      refine ⟨spot', hat hat', ?_, update_other _ _ _, rfl⟩
      rw [hversions true (by
        unfold wrote
        rw [show (s.client i).place.writes site.endpoint = true from hwrites,
          hok]
        rfl)]
      have hview : rows (s.seen i).call = s.versions.current :=
        Versions.view_of_writer_ne (hfree hwrites)
      rw [hview] at hwrite
      exact .write (hfree hwrites) hfits hwrite
  | refuse hat' hwrites hthrew hrefuse =>
      refine ⟨.failed, hat hat', ?_, update_other _ _ _, rfl⟩
      rw [hversions false (by
        unfold wrote
        rw [hthrew]
        exact Bool.and_false _)]
      have hview : rows (s.seen i).call = s.versions.current :=
        Versions.view_of_writer_ne (hfree hwrites)
      rw [hview] at hrefuse
      exact .refuse (hfree hwrites) hrefuse

theorem turns_go {site : Site tau} {s s' : Race tau} {i : Bool} {spot : Spot}
    (hat : At site (s.done i) (s.client i).place spot)
    (hkey : s.SameKey site (.go i))
    (hstep : step site.backend site.endpoint s (.go i) = some s') :
    exists spot', Turns site s s' i spot spot' := by
  unfold step at hstep
  dsimp only at hstep
  split at hstep
  · rename_i hlong
    rcases overlong_of_at hat hlong with ⟨hdone, rfl, hfits⟩
    rw [← Option.some.inj hstep]
    refine ⟨.failed, ?_, .unfit hfits, update_other _ _ _, rfl⟩
    show At site _ (Function.update s.client i _ i).place _
    rw [Function.update_self]
    exact .failed (Or.inr rfl)
  · rename_i hlong
    split at hstep
    · cases hstep
    · rename_i hwaits
      rcases Option.map_eq_some_iff.mp hstep with ⟨c, hclient, rfl⟩
      rcases at_step (c := s.seen i) hat (Bool.eq_false_iff.mpr hlong) hkey
        hclient with ⟨hdone, hmoves⟩
      exact turns_of_moves hdone (Bool.eq_false_iff.mpr hwaits) hmoves

theorem turns_finish {site : Site tau} {s s' : Race tau} {i : Bool}
    {spot : Spot} (hat : At site (s.done i) (s.client i).place spot)
    (hstep : s.finish i = some s') :
    exists spot', Turns site s s' i spot spot' := by
  unfold finish at hstep
  split at hstep
  · rename_i name result hplace
    rw [hplace] at hat
    split at hstep
    · cases hstep
    · rename_i hdone
      rw [Bool.eq_false_iff.mpr hdone] at hat
      have hends : forall {spot' : Spot} {t : Versions CachedKey CachedData},
          s' = { s with done := Function.update s.done i true }.withVersions
            t ->
          At site true (.ended name result) spot' ->
          TableRace.Step site.key site.Fits i spot s.versions spot' t ->
            Turns site s s' i spot spot' := by
        intro spot' t hs' hat' hmove
        rw [hs']
        refine ⟨?_, hmove, rfl, update_other _ _ _⟩
        show At site (Function.update s.done i true i) (s.client i).place _
        rw [Function.update_self, hplace]
        exact hat'
      have hcommits : (Place.ended name result : Place tau).aborted = false ->
          s' = { s with done := Function.update s.done i true }.withVersions
            (s.versions.commit i) := by
        intro hkept
        rw [hkept] at hstep
        exact (Option.some.inj hstep).symm
      have hother : name ≠ cacheName ->
          (Place.ended name result : Place tau).aborted = false := by
        intro hname
        cases result with
        | ok r => rfl
        | error e =>
            unfold Place.aborted
            dsimp only
            rw [beq_false_of_ne hname]
            rfl
      cases hat with
      | stored => exact ⟨_, hends (hcommits rfl) .committed .commit⟩
      | failed hname =>
          rename_i e
          cases haborts : (Place.ended name (.error e) : Place tau).aborted with
          | false =>
              exact ⟨_, hends (hcommits haborts) (.failed hname)
                (.finish (Or.inr rfl))⟩
          | true =>
              rw [haborts] at hstep
              exact ⟨_, hends (Option.some.inj hstep).symm (.failed hname)
                .rollback⟩
      | closing _ hcache hok =>
          exact ⟨_, hends (hcommits (hother hcache))
            (.out (Or.inl rfl) hcache hok) .close⟩
      | out _ hcache hok =>
          exact ⟨_, hends (hcommits (hother hcache))
            (.out (Or.inl rfl) hcache hok) (.finish (Or.inl rfl))⟩
  · cases hstep

/-- The two requests are at spots that satisfy `P`. -/
def Both (site : Site tau)
    (P : Bool -> Versions CachedKey CachedData -> Spot -> Spot -> Prop)
    (s : Race tau) : Prop :=
  exists spot : Bool -> Spot,
    (forall i, At site (s.done i) (s.client i).place (spot i)) ∧
      forall i, P i s.versions (spot i) (spot !i)

theorem both_turn {site : Site tau}
    {P Q : Bool -> Versions CachedKey CachedData -> Spot -> Spot -> Prop}
    (hsymm : forall i t x y, Q i t x y -> Q (!i) t y x) {s s' : Race tau}
    {turn : Turn tau} {i : Bool} (hmover : turn.mover = some i)
    (h : Both site P s) (hkey : s.SameKey site turn)
    (hgo : forall x x' y t', At site (s.done i) (s.client i).place x ->
      At site (s.done !i) (s.client !i).place y -> P i s.versions x y ->
      TableRace.Step site.key site.Fits i x s.versions x' t' -> Q i t' x' y)
    (hstep : step site.backend site.endpoint s turn = some s') :
    Both site Q s' := by
  rcases h with ⟨spot, hat, hp⟩
  have hturns : exists spot', Turns site s s' i (spot i) spot' := by
    cases turn with
    | go j =>
        cases hmover
        exact turns_go (hat i) hkey hstep
    | finish j =>
        cases hmover
        exact turns_finish (hat i) hstep
    | pass outside => cases hmover
  rcases hturns with ⟨spot', hturns⟩
  have hq := hgo (spot i) spot' (spot !i) _ (hat i) (hat !i) (hp i)
    hturns.step
  refine ⟨Function.update spot i spot', ?_, ?_⟩
  · intro j
    by_cases hji : j = i
    · subst hji
      rw [Function.update_self]
      exact hturns.mover
    · rw [Bool.eq_not.mpr hji, hturns.client, hturns.done, update_other]
      exact hat !i
  · intro j
    by_cases hji : j = i
    · subst hji
      rw [Function.update_self, update_other]
      exact hq
    · rw [Bool.eq_not.mpr hji, Bool.not_not, Function.update_self,
        update_other]
      exact hsymm _ _ _ _ hq

theorem both_pass {site : Site tau}
    {P : Bool -> Versions CachedKey CachedData -> Spot -> Spot -> Prop}
    {s s' : Race tau} {outside : tau} (h : Both site P s)
    (hstep : step site.backend site.endpoint s (.pass outside) = some s') :
    Both site P s' := by
  rw [← Option.some.inj hstep]
  exact h

/-! ## When both succeed -/

structure BothSane (site : Site tau) (i : Bool)
    (t : Versions CachedKey CachedData) (x y : Spot) : Prop where
  sound : t.Sound
  left : Sane site.key site.Fits i t x
  right : Sane site.key site.Fits (!i) t y

theorem BothSane.symm {site : Site tau} {i : Bool}
    {t : Versions CachedKey CachedData} {x y : Spot}
    (h : BothSane site i t x y) : BothSane site (!i) t y x where
  sound := h.sound
  left := h.right
  right := by
    rw [Bool.not_not]
    exact h.left

theorem BothSane.step {site : Site tau} {i : Bool}
    {t t' : Versions CachedKey CachedData} {x x' y : Spot}
    (h : BothSane site i t x y)
    (hstep : TableRace.Step site.key site.Fits i x t x' t') :
    BothSane site i t' x' y where
  sound := h.sound.step hstep
  left := h.left.step h.sound hstep
  right := by
    apply h.right.other h.sound
    rw [Bool.not_not]
    exact hstep

theorem both_enter {site : Site tau} (w : CachedWorld tau)
    {status : Bool -> InvokeStatus}
    (henters : forall i, Enters (status i))
    (call : Bool -> CallState (CachedWorld tau))
    {P : Bool -> Versions CachedKey CachedData -> Spot -> Spot -> Prop}
    (hp : forall i, P i ⟨w.cached, w.cached, none⟩ .early .early) :
    Both site P (enter site.backend w status call) :=
  ⟨fun _ => .early, fun i => .auth (henters i), hp⟩

theorem bothSane_enter (site : Site tau) (u : CachedTable) (i : Bool) :
    BothSane site i ⟨u, u, none⟩ .early .early where
  sound := Versions.sound_same u none
  left := sane_early u
  right := sane_early u

def BothDoomed (site : Site tau) (i : Bool)
    (t : Versions CachedKey CachedData) (x y : Spot) : Prop :=
  BothSane site i t x y ∧ Doomed site.key t x y

def BothCalm (site : Site tau) (i : Bool)
    (t : Versions CachedKey CachedData) (x y : Spot) : Prop :=
  BothSane site i t x y ∧ Calm site.key t x y

theorem bothSane_step {site : Site tau} (s : Race tau) (turn : Turn tau)
    (s' : Race tau) (h : Both site (BothSane site) s)
    (hkey : s.SameKey site turn)
    (hstep : step site.backend site.endpoint s turn = some s') :
    Both site (BothSane site) s' := by
  cases hmover : turn.mover with
  | none =>
      cases turn with
      | pass outside => exact both_pass h hstep
      | go i => cases hmover
      | finish i => cases hmover
  | some i =>
      exact both_turn (fun _ _ _ _ hsane => hsane.symm) hmover h hkey
        (fun _ _ _ _ _ _ hsane hmove => hsane.step hmove) hstep

theorem bothDoomed_step {site : Site tau} (s : Race tau) (turn : Turn tau)
    (s' : Race tau) (h : Both site (BothDoomed site) s)
    (hkey : s.SameKey site turn)
    (hstep : step site.backend site.endpoint s turn = some s') :
    Both site (BothDoomed site) s' := by
  cases hmover : turn.mover with
  | none =>
      cases turn with
      | pass outside => exact both_pass h hstep
      | go i => cases hmover
      | finish i => cases hmover
  | some i =>
      refine both_turn ?_ hmover h hkey ?_ hstep
      · exact fun _ _ _ _ hdoomed => ⟨hdoomed.left.symm, hdoomed.right.symm⟩
      · rintro x x' y t' _ _ ⟨hsane, hdoomed⟩ hmove
        exact ⟨hsane.step hmove, hdoomed.step hsane.sound hsane.right hmove⟩

theorem bothDoomed_of_overlap {site : Site tau} (s : Race tau)
    (turn : Turn tau) (s' : Race tau) (h : Both site (BothSane site) s)
    (hkey : s.SameKey site turn) (hoverlap : ¬ s.LooksUpAlone turn)
    (hstep : step site.backend site.endpoint s turn = some s') :
    Both site (BothDoomed site) s' := by
  cases turn with
  | pass outside => exact absurd True.intro hoverlap
  | finish i => exact absurd True.intro hoverlap
  | go i =>
      rcases Classical.not_imp.mp hoverlap with ⟨hlookup, hbetween⟩
      rcases not_not.mp hbetween with ⟨hlooked, hdone⟩
      refine both_turn ?_ rfl h hkey ?_ hstep
      · exact fun _ _ _ _ hdoomed => ⟨hdoomed.left.symm, hdoomed.right.symm⟩
      · intro x x' y t' hx hy hsane hmove
        refine ⟨hsane.step hmove, ?_⟩
        have hlooking := (at_lookup hx).mp hlookup
        subst hlooking
        have hspot := at_hasLooked hy hlooked hdone
        cases hmove with
        | look hlook =>
            exact doomed_of_looking hsane.sound hsane.right hlook hspot
        | write _ _ hwrite => cases hwrite
        | refuse _ hrefuse => cases hrefuse
        | finish hend =>
            rcases hend with hend | hend
            · cases hend
            · cases hend

theorem not_finish_of_isLookup {s s' : Race tau} {i : Bool}
    (h : (s.client i).place.isLookup) : ¬ s.finish i = some s' := by
  unfold finish
  split
  · rename_i hplace
    rw [hplace] at h
    exact h.elim
  · intro hstep
    cases hstep

theorem bothCalm_step {site : Site tau} (hfits : site.Fits) (s : Race tau)
    (turn : Turn tau) (s' : Race tau) (h : Both site (BothCalm site) s)
    (hmeets : s.SameKey site turn ∧ s.LooksUpAlone turn)
    (hstep : step site.backend site.endpoint s turn = some s') :
    Both site (BothCalm site) s' := by
  cases hmover : turn.mover with
  | none =>
      cases turn with
      | pass outside => exact both_pass h hstep
      | go i => cases hmover
      | finish i => cases hmover
  | some i =>
      refine both_turn ?_ hmover h hmeets.left ?_ hstep
      · exact fun _ _ _ _ hcalm => ⟨hcalm.left.symm, hcalm.right.symm⟩
      · rintro x x' y t' hx hy ⟨hsane, hcalm⟩ hmove
        refine ⟨hsane.step hmove, ?_⟩
        apply hcalm.step hfits hsane.right hmove
        intro hlooking hopen
        cases turn with
        | pass outside => cases hmover
        | finish j =>
            cases hmover
            exact not_finish_of_isLookup ((at_lookup hx).mpr hlooking) hstep
        | go j =>
            cases hmover
            exact hmeets.right ((at_lookup hx).mpr hlooking)
              (at_open hy hopen)

/-- Two requests that the cache does not answer both succeed, exactly if the
key fits its column and neither looks up while the other is between its lookup
and its commit. -/
theorem both_succeed_iff {site : Site tau} {w : CachedWorld tau}
    {status : Bool -> InvokeStatus}
    {call : Bool -> CallState (CachedWorld tau)} {turns : List (Turn tau)}
    {t : Race tau} (henters : forall i, Enters (status i))
    (hkeys : StepsMeet (step site.backend site.endpoint) (SameKey site)
      (enter site.backend w status call) turns)
    (hrun : run (step site.backend site.endpoint)
      (enter site.backend w status call) turns = some t)
    (hmissed : forall i, t.MissedCache i) :
    (forall i, t.Succeeded i) <->
      site.cacheKey.length ≤ cacheKeyWidth ∧
        StepsMeet (step site.backend site.endpoint) LooksUpAlone
          (enter site.backend w status call) turns := by
  have hsane : Both site (BothSane site) (enter site.backend w status call) :=
    both_enter w henters call (bothSane_enter site w.cached)
  constructor
  · intro hsucceeded
    constructor
    · rcases run_invariant_of_meets bothSane_step hsane hkeys hrun with
        ⟨spot, hat, hsane⟩
      have hstores := at_succeeded (hat false) (hsucceeded false)
      exact (hsane false).left.fitting hstores
    · apply stepsMeet_of_trap bothSane_step bothDoomed_of_overlap
        bothDoomed_step hsane hkeys hrun
      rintro ⟨spot, hat, hdoomed⟩
      exact not_doomed_of_stores (at_succeeded (hat false) (hsucceeded false))
        (at_succeeded (hat !false) (hsucceeded !false)) (hdoomed false).right
  · rintro ⟨hfits, halone⟩
    have hcalm : Both site (BothCalm site)
        (enter site.backend w status call) :=
      both_enter w henters call fun i =>
        ⟨bothSane_enter site w.cached i,
          ⟨fun h => h.left, True.intro, True.intro⟩⟩
    rcases run_invariant_of_meets (bothCalm_step hfits) hcalm
      (hkeys.and halone) hrun with ⟨spot, hat, hcalm⟩
    intro i
    rcases at_missed (hat i) (hmissed i) with hsucceeded | hfailed
    · exact hsucceeded
    · have hleft := (hcalm i).right.left
      rw [hfailed] at hleft
      exact hleft.elim

/-! ## Two requests for the pets -/

def atOnceSite : Site Bool where
  backend := petBackend
  endpoint := petEndpoint
  cacheKey := petEndpoint.name
  cacheTtl := none
  cacheable := rfl

def atOnceRequest : CallState (CachedWorld Bool) :=
  ⟨{ petCall none with
      context := { (petCall none).context with
        endpoints := some [petEndpoint] } },
    ⟨none, ⟨.empty, [], true⟩⟩, []⟩

def petRace : Race Bool :=
  enter petBackend ⟨.empty, [], true⟩ (fun _ => petStatus)
    fun _ => atOnceRequest

/-- The six steps of a chain that stores, where its lookup takes two, and the
end of its transaction. -/
def wholeChain (i : Bool) : List (Turn Bool) :=
  List.replicate 6 (.go i) ++ [.finish i]

theorem both_succeed_oneByOne :
    (forall i, ((run (step petBackend petEndpoint) petRace
        (wholeChain false ++ wholeChain true)).get rfl).Succeeded i) <->
      atOnceSite.cacheKey.length ≤ cacheKeyWidth ∧
        StepsMeet (step petBackend petEndpoint) LooksUpAlone petRace
          (wholeChain false ++ wholeChain true) := by
  have hkeys : forall (s : Race Bool) (turn : Turn Bool),
      turn ∈ wholeChain false ++ wholeChain true ->
        s.SameKey atOnceSite turn := by
    intro s turn _
    cases turn with
    | pass outside => exact True.intro
    | finish i => exact True.intro
    | go i => exact fun _ => rfl
  refine @both_succeed_iff Bool atOnceSite ⟨.empty, [], true⟩
    (fun _ => petStatus) (fun _ => atOnceRequest)
    (wholeChain false ++ wholeChain true) _ (fun _ => Or.inl rfl)
    (stepsMeet_of_forall hkeys petRace) (Option.some_get _).symm ?_
  intro i
  cases i with
  | false => exact Or.inl ⟨_, rfl⟩
  | true => exact Or.inl ⟨_, rfl⟩

/-- The second request looks up after the store of the first and before its
commit; its own store waits for the commit. -/
def overlapping : List (Turn Bool) :=
  List.replicate 6 (.go false) ++ List.replicate 5 (.go true) ++
    [.finish false, .go true]

theorem overlapping_refused :
    exists t, run (step petBackend petEndpoint) petRace overlapping = some t ∧
      t.Succeeded false ∧ t.MissedCache true ∧ ¬ t.Succeeded true ∧
      (t.client true).place = .ended cacheName (.error uniqueConstraint) := by
  refine ⟨_, rfl, ⟨_, _, rfl⟩, Or.inl ⟨_, rfl⟩, ?_, rfl⟩
  rintro ⟨status, resp, hplace⟩
  cases hplace

end Race

end Cached
end CallgentApi
