import CallgentApi.Cached.Routes
import CallgentApi.Lib.Transition

/-!
# The history of the cache

Calls of the cache service follow each other, with any endpoints and keys,
while time passes.  A log keeps what each call has stored, as the call reports
it; what is found later is compared with the log.
-/

namespace CallgentApi
namespace Cached

open Js Event Invoke Effect Transition

variable {tau : Type}

/-- `delete`, by the primary key or by the key of the index. -/
inductive UniqueWhere where
  | pk (pk : Nat)
  | sepId_cacheKey (key : CachedKey)

def deleteWhere : UniqueWhere -> Effect (CachedWorld tau) Thrown Unit
  | .pk pk => delete pk
  | .sepId_cacheKey key =>
      write recordNotFound fun t => t.deleteUnique key

/-- A call of the service; `pass` is what goes on outside. -/
inductive CacheCall (tau : Type) where
  | fromCached (invokeId : Text) (endpoint : EndpointDto)
      (reqEvent : EventObject)
  | toCache (ctx : InvokeStatus) (response : Option PendingOrResponse)
      (endpoint : EndpointDto) (reqEvent : EventObject)
  | updateCache (response : Option PendingOrResponse) (ctx : InvokeStatus)
      (endpoint : EndpointDto)
  | delete (uniqueWhere : UniqueWhere)
  | pass (outside : tau)

structure Store where
  key : CachedKey
  response : PendingOrResponse
  time : Nat
  /-- A new row was created for it. -/
  creates : Bool

/-- The store of a call that reports `true`. -/
def reported (result : Except Thrown Bool) (sepId : Text)
    (cacheKey : Option Text) (response : Option PendingOrResponse)
    (time : Nat) (creates : Bool) : List Store :=
  match result, truthy cacheKey, response with
  | .ok true, some cacheKey, some response =>
      [⟨⟨sepId, cacheKey⟩, response, time, creates⟩]
  | _, _, _ => []

namespace CacheCall

/-- The cache after a call, whatever the call returns. -/
def after (b : Backend tau) (w : CachedWorld tau) :
    CacheCall tau -> CachedWorld tau
  | .fromCached invokeId endpoint reqEvent =>
      (exec (Cached.fromCached b invokeId endpoint reqEvent) w).2
  | .toCache ctx response endpoint reqEvent =>
      (exec (Cached.toCache b ctx response endpoint reqEvent) w).2
  | .updateCache response ctx endpoint =>
      (exec (Cached.updateCache response ctx endpoint) w).2
  | .delete uniqueWhere => (exec (deleteWhere uniqueWhere) w).2
  | .pass outside => { w with outside := outside }

def stores (b : Backend tau) (w : CachedWorld tau) :
    CacheCall tau -> List Store
  | .toCache ctx response endpoint reqEvent =>
      reported (exec (Cached.toCache b ctx response endpoint reqEvent) w).1
        endpoint.id ctx.cacheKey response (b.now w.outside) true
  | .updateCache response ctx endpoint =>
      reported (exec (Cached.updateCache response ctx endpoint) w).1
        endpoint.id ctx.cacheKey response (b.now w.outside) false
  | .fromCached _ _ _ => []
  | .delete _ => []
  | .pass _ => []

end CacheCall

structure History (tau : Type) where
  world : CachedWorld tau
  log : List Store

namespace History

def init (outside : tau) : History tau where
  world := ⟨.empty, [], outside⟩
  log := []

def step (b : Backend tau) (s : History tau) (call : CacheCall tau) :
    Option (History tau) :=
  if b.now s.world.outside ≤ b.now (call.after b s.world).outside then
    some
      { world := call.after b s.world
        log := s.log ++ call.stores b s.world }
  else none

def lastStored (log : List Store) (key : CachedKey) : Option Store :=
  (log.filter fun e => e.key = key).getLast?

def lastCreated (log : List Store) (key : CachedKey) : Option Store :=
  lastStored (log.filter Store.creates) key

end History

/-! ## What a call does to the rows -/

/-- Every row is one of the other table, up to its observers. -/
def RowsOf (t' t : CachedTable) : Prop :=
  forall key row', t'.findUnique key = some row' ->
    exists row, t.findUnique key = some row ∧
      row'.value = { row.value with invokeKeys := row'.value.invokeKeys }

theorem rowsOf_refl (t : CachedTable) : RowsOf t t :=
  fun _ row h => ⟨row, h, rfl⟩

theorem rowsOf_erase (t : CachedTable) (pk : Nat) : RowsOf (t.erase pk) t :=
  fun _ row h => ⟨row, Table.findUnique_of_erase h, rfl⟩

theorem rowsOf_observed (t : CachedTable) (pk : Nat) (invokeKey : Text) :
    RowsOf (t.edit pk fun data =>
      { data with invokeKeys := data.invokeKeys ++ [invokeKey] }) t := by
  intro key row' h
  rw [Table.findUnique_edit] at h
  rcases Option.map_eq_some_iff.mp h with ⟨row, hrow, hedited⟩
  refine ⟨row, hrow, ?_⟩
  rw [← hedited]
  unfold Table.editRow
  split
  · rfl
  · rfl

theorem rowsOf_delete (pk : Nat) (w : CachedWorld tau) :
    RowsOf (exec (delete pk) w).2.cached w.cached := by
  unfold delete
  rcases exec_write_cases recordNotFound (fun t => t.delete pk) w with
    ⟨t, ht, hexec⟩ | ⟨_, hexec⟩
  · rw [hexec, Table.eq_erase_of_delete ht]
    exact rowsOf_erase w.cached pk
  · rw [hexec]
    exact rowsOf_refl w.cached

theorem rowsOf_deleteWhere (uniqueWhere : UniqueWhere)
    (w : CachedWorld tau) :
    RowsOf (exec (deleteWhere uniqueWhere) w).2.cached w.cached := by
  cases uniqueWhere with
  | pk pk => exact rowsOf_delete pk w
  | sepId_cacheKey key =>
      have hcases := exec_write_cases recordNotFound
        (fun t => t.deleteUnique key) w
      unfold deleteWhere
      rcases hcases with ⟨t, ht, hexec⟩ | ⟨_, hexec⟩
      · rcases Option.map_eq_some_iff.mp ht with ⟨row, _, hrow⟩
        rw [hexec, ← hrow]
        exact rowsOf_erase w.cached row.pk
      · rw [hexec]
        exact rowsOf_refl w.cached

theorem rowsOf_addObserver (pk : Nat) (invokeKey : Text)
    (w : CachedWorld tau) :
    RowsOf (exec (addObserver pk invokeKey) w).2.cached w.cached := by
  have hcases := exec_write_cases recordNotFound (fun t => t.update pk
    fun data => { data with invokeKeys := data.invokeKeys ++ [invokeKey] }) w
  unfold addObserver
  rcases hcases with ⟨t, ht, hexec⟩ | ⟨_, hexec⟩
  · rw [hexec, Table.eq_edit_of_update ht]
    exact rowsOf_observed w.cached pk invokeKey
  · rw [hexec]
    exact rowsOf_refl w.cached

theorem rowsOf_fromCached (b : Backend tau) (invokeId : Text)
    (endpoint : EndpointDto) (reqEvent : EventObject) (w : CachedWorld tau) :
    RowsOf (exec (fromCached b invokeId endpoint reqEvent) w).2.cached
      w.cached := by
  unfold fromCached
  split
  · exact rowsOf_refl w.cached
  · exact rowsOf_refl w.cached
  · rename_i cacheKey cacheTtl hconfig
    split
    · rw [exec_bind_of_ok (exec_findOne cacheKey endpoint.id w)]
      split
      · exact rowsOf_refl w.cached
      · rename_i row hfound
        rw [exec_bind_of_ok (exec_get w)]
        split
        · rw [snd_exec_bind_pure]
          exact rowsOf_delete row.pk w
        · rw [snd_exec_bind_pure]
          unfold observe
          split
          · exact rowsOf_addObserver row.pk _ w
          · exact rowsOf_refl w.cached
    · exact rowsOf_refl w.cached

theorem response_of_reported {result : Except Thrown Bool} {sepId : Text}
    {cacheKey : Option Text} {response : Option PendingOrResponse}
    {time : Nat} {creates : Bool} {e : Store}
    (h : reported result sepId cacheKey response time creates = [e]) :
    response = some e.response := by
  unfold reported at h
  split at h
  · rw [← List.head_eq_of_cons_eq h]
  · cases h

theorem toCache_cases (b : Backend tau) (ctx : InvokeStatus)
    (response : Option PendingOrResponse) (endpoint : EndpointDto)
    (reqEvent : EventObject) (w : CachedWorld tau) (creates : Bool) :
    let r := exec (toCache b ctx response endpoint reqEvent) w
    let log := reported r.1 endpoint.id ctx.cacheKey response
      (b.now w.outside) creates
    (log = [] ∧ r.2 = w) ∨
      exists key resp, exists h : w.cached.findUnique key = none,
        log = [⟨key, resp, b.now w.outside, creates⟩] ∧
        r.2 = { w with cached :=
          w.cached.insert key (newData (b.now w.outside) resp reqEvent) h } := by
  unfold toCache
  cases hkey : truthy ctx.cacheKey with
  | none => exact Or.inl ⟨rfl, rfl⟩
  | some cacheKey =>
      dsimp only
      split
      · cases response with
        | none => exact Or.inl ⟨rfl, rfl⟩
        | some resp =>
            dsimp only
            rw [exec_bind_of_ok (exec_get w)]
            let key : CachedKey := ⟨endpoint.id, cacheKey⟩
            let data := newData (b.now w.outside) resp reqEvent
            cases hfound : w.cached.findUnique key with
            | none =>
                have hexec : exec (write uniqueConstraint
                    fun t : CachedTable => t.create key data) w = _ :=
                  exec_write_of_some (Table.create_of_none data hfound) _
                rw [exec_bind_of_ok hexec]
                right
                refine ⟨key, resp, hfound, ?_, rfl⟩
                simp [reported, hkey, key]
            | some row =>
                have hexec : exec (write uniqueConstraint
                    fun t : CachedTable => t.create key data) w = _ :=
                  exec_write_of_none (Table.create_of_some data hfound) _
                rw [exec_bind_of_error hexec]
                exact Or.inl ⟨rfl, rfl⟩
      · exact Or.inl ⟨rfl, rfl⟩

theorem updateCache_cases (response : Option PendingOrResponse)
    (ctx : InvokeStatus) (endpoint : EndpointDto) (w : CachedWorld tau)
    (time : Nat) (creates : Bool) :
    let r := exec (updateCache response ctx endpoint) w
    let log := reported r.1 endpoint.id ctx.cacheKey response time creates
    r.2.outside = w.outside ∧
      ((log = [] ∧ r.2.cached = w.cached) ∨
        exists key resp row, w.cached.findUnique key = some row ∧
          log = [⟨key, resp, time, creates⟩] ∧
          r.2.cached = w.cached.edit row.pk fun data =>
            { data with response := column resp }) := by
  unfold updateCache
  cases hkey : truthy ctx.cacheKey with
  | none => exact ⟨rfl, Or.inl ⟨rfl, rfl⟩⟩
  | some cacheKey =>
      dsimp only
      split
      · rw [exec_bind_of_ok (exec_findOne cacheKey endpoint.id w)]
        cases hfound : w.cached.findUnique ⟨endpoint.id, cacheKey⟩ with
        | none => exact ⟨rfl, Or.inl ⟨rfl, rfl⟩⟩
        | some row =>
            cases response with
            | none => exact ⟨rfl, Or.inl ⟨by simp [reported], rfl⟩⟩
            | some resp =>
                have hupdated : exec (update row.pk resp) w = _ :=
                  exec_write_of_some (Table.update_of_findUnique hfound _) _
                dsimp only
                rw [exec_bind_of_ok hupdated]
                refine ⟨rfl, Or.inr ⟨_, resp, row, hfound, ?_, rfl⟩⟩
                show reported (.ok true) _ _ _ _ _ = _
                simp [reported, hkey]
      · exact ⟨rfl, Or.inl ⟨rfl, rfl⟩⟩

/-! ## What a call does to the time -/

theorem outside_write (e : Thrown) (op : CachedTable -> Option CachedTable) :
    Keeps CachedWorld.outside
      (write e op : Effect (CachedWorld tau) Thrown Unit) := by
  intro w
  rcases exec_write_cases e op w with ⟨t, _, hexec⟩ | ⟨_, hexec⟩
  · rw [hexec]
  · rw [hexec]

theorem outside_fromCached (b : Backend tau) (invokeId : Text)
    (endpoint : EndpointDto) (reqEvent : EventObject) :
    Keeps CachedWorld.outside
      (fromCached b invokeId endpoint reqEvent) := by
  unfold fromCached
  split
  · exact Keeps.throw _
  · exact Keeps.pure _
  · split
    · apply Keeps.bind (fun _ => rfl)
      intro found
      split
      · exact Keeps.pure _
      · apply Keeps.bind Keeps.get
        intro w
        split
        · exact Keeps.bind (outside_write _ _) fun _ => Keeps.pure _
        · apply Keeps.bind
          · unfold observe
            split
            · exact outside_write _ _
            · exact Keeps.pure _
          · exact fun _ => Keeps.pure _
    · exact Keeps.pure _

theorem outside_deleteWhere (uniqueWhere : UniqueWhere) :
    Keeps CachedWorld.outside
      (deleteWhere uniqueWhere : Effect (CachedWorld tau) Thrown Unit) := by
  cases uniqueWhere with
  | pk pk => exact outside_write _ _
  | sepId_cacheKey key => exact outside_write _ _

namespace History

/-! ## The log -/

variable {log : List Store} {key : CachedKey} {e : Store}

theorem lastStored_append_self (log : List Store) (e : Store) :
    lastStored (log ++ [e]) e.key = some e := by
  simp [lastStored]

theorem lastStored_append_of_ne (h : e.key ≠ key) :
    lastStored (log ++ [e]) key = lastStored log key := by
  simp [lastStored, h]

theorem lastCreated_append_self (hcreates : e.creates = true) :
    lastCreated (log ++ [e]) e.key = some e := by
  simp [lastCreated, lastStored, hcreates]

theorem lastCreated_append_updated (hcreates : e.creates = false) :
    lastCreated (log ++ [e]) key = lastCreated log key := by
  simp [lastCreated, lastStored, hcreates]

theorem lastCreated_append_of_ne (h : e.key ≠ key) :
    lastCreated (log ++ [e]) key = lastCreated log key := by
  cases hcreates : e.creates with
  | false => exact lastCreated_append_updated hcreates
  | true => simp [lastCreated, lastStored, hcreates, h]

theorem mem_of_lastCreated (h : lastCreated log key = some e) : e ∈ log :=
  List.mem_of_mem_filter (List.mem_of_mem_filter (List.mem_of_getLast? h))

/-- The row holds what was stored last under its key, since it was created. -/
structure Latest (log : List Store) (key : CachedKey) (data : CachedData)
    (last first : Store) : Prop where
  stored : lastStored log key = some last
  response : data.response = column last.response
  created : lastCreated log key = some first
  createdAt : data.createdAt = first.time

theorem Latest.append_of_ne {data : CachedData} {last first : Store}
    (h : Latest log key data last first) (hne : e.key ≠ key) :
    Latest (log ++ [e]) key data last first where
  stored := (lastStored_append_of_ne hne).trans h.stored
  response := h.response
  created := (lastCreated_append_of_ne hne).trans h.created
  createdAt := h.createdAt

/-! ## The rows and the log -/

structure Inv (b : Backend tau) (s : History tau) : Prop where
  rows : forall key row, s.world.cached.findUnique key = some row ->
    exists last first, Latest s.log key row.value last first
  past : forall e, e ∈ s.log -> e.time ≤ b.now s.world.outside

variable {b : Backend tau} {s s' : History tau}

theorem inv_init (b : Backend tau) (outside : tau) : Inv b (init outside) where
  rows := fun _ _ h => nomatch h
  past := fun _ h => nomatch h

theorem Inv.of_rowsOf {w : CachedWorld tau} (h : Inv b s)
    (hrows : RowsOf w.cached s.world.cached)
    (houtside : w.outside = s.world.outside) :
    Inv b { s with world := w } where
  rows := by
    intro key row' hrow'
    rcases hrows key row' hrow' with ⟨row, hrow, hvalue⟩
    rcases h.rows key row hrow with ⟨last, first, hlatest⟩
    rw [hvalue]
    exact ⟨last, first, hlatest.stored, hlatest.response, hlatest.created,
      hlatest.createdAt⟩
  past := by
    intro e he
    dsimp only
    rw [houtside]
    exact h.past e he

theorem Inv.past_append (h : Inv b s) {e : Store}
    (htime : e.time = b.now s.world.outside) :
    forall e', e' ∈ s.log ++ [e] -> e'.time ≤ b.now s.world.outside := by
  intro e' he'
  rcases List.mem_append.mp he' with hold | hnew
  · exact h.past e' hold
  · rw [List.mem_singleton.mp hnew, htime]

theorem inv_toCache (h : Inv b s) (ctx : InvokeStatus)
    (response : Option PendingOrResponse) (endpoint : EndpointDto)
    (reqEvent : EventObject) :
    let call := CacheCall.toCache ctx response endpoint reqEvent
    Inv b ⟨call.after b s.world, s.log ++ call.stores b s.world⟩ := by
  dsimp only [CacheCall.after, CacheCall.stores]
  rcases toCache_cases b ctx response endpoint reqEvent s.world true with
    ⟨hlog, hworld⟩ | ⟨key, resp, hnone, hlog, hworld⟩
  · rw [hlog, hworld, List.append_nil]
    exact h
  · rw [hlog, hworld]
    constructor
    · intro other row hrow
      dsimp only at hrow ⊢
      by_cases hkey : other = key
      · rw [hkey] at hrow ⊢
        rw [Table.findUnique_insert_self _ hnone] at hrow
        rw [← Option.some.inj hrow]
        refine ⟨_, _, lastStored_append_self s.log _, rfl,
          lastCreated_append_self rfl, rfl⟩
      · rw [Table.findUnique_insert_of_ne _ hnone hkey] at hrow
        rcases h.rows other row hrow with ⟨last, first, hlatest⟩
        exact ⟨last, first, hlatest.append_of_ne (Ne.symm hkey)⟩
    · exact h.past_append rfl

theorem inv_updateCache (h : Inv b s) (response : Option PendingOrResponse)
    (ctx : InvokeStatus) (endpoint : EndpointDto) :
    let call := CacheCall.updateCache response ctx endpoint
    Inv b ⟨call.after b s.world, s.log ++ call.stores b s.world⟩ := by
  dsimp only [CacheCall.after, CacheCall.stores]
  have hcases := updateCache_cases response ctx endpoint s.world
    (b.now s.world.outside) false
  rcases hcases with ⟨houtside, ⟨hlog, hcached⟩ |
    ⟨key, resp, updated, hfound, hlog, hcached⟩⟩
  · rw [hlog, List.append_nil]
    apply h.of_rowsOf _ houtside
    rw [hcached]
    exact rowsOf_refl s.world.cached
  · rw [hlog]
    constructor
    · intro other row hrow
      dsimp only at hrow ⊢
      rw [hcached] at hrow
      rcases Table.findUnique_edit_cases hfound hrow with
        ⟨rfl, hvalue⟩ | ⟨hkey, hold⟩
      · rcases h.rows other updated hfound with ⟨last, first, hlatest⟩
        rw [hvalue]
        exact ⟨_, first, lastStored_append_self s.log _, rfl,
          (lastCreated_append_updated rfl).trans hlatest.created,
          hlatest.createdAt⟩
      · rcases h.rows other row hold with ⟨last, first, hlatest⟩
        exact ⟨last, first, hlatest.append_of_ne (Ne.symm hkey)⟩
    · dsimp only
      rw [houtside]
      exact h.past_append rfl

theorem inv_step {call : CacheCall tau} (h : Inv b s)
    (hstep : step b s call = some s') : Inv b s' := by
  unfold step at hstep
  split at hstep
  · rename_i hlater
    rw [← Option.some.inj hstep]
    cases call with
    | toCache ctx response endpoint reqEvent =>
        exact inv_toCache h ctx response endpoint reqEvent
    | updateCache response ctx endpoint =>
        exact inv_updateCache h response ctx endpoint
    | fromCached invokeId endpoint reqEvent =>
        rw [CacheCall.stores, List.append_nil]
        exact h.of_rowsOf (rowsOf_fromCached b invokeId endpoint reqEvent _)
          (outside_fromCached b invokeId endpoint reqEvent _)
    | delete uniqueWhere =>
        rw [CacheCall.stores, List.append_nil]
        exact h.of_rowsOf (rowsOf_deleteWhere uniqueWhere _)
          (outside_deleteWhere uniqueWhere _)
    | pass outside =>
        rw [CacheCall.stores, List.append_nil]
        exact ⟨h.rows, fun e he => Nat.le_trans (h.past e he) hlater⟩
  · cases hstep

/-! ## What a lookup returns -/

variable {invokeId : Text} {endpoint : EndpointDto} {reqEvent : EventObject}

theorem cacheTtl_of_loadCacheConfig {cacheKey : Text}
    {cacheTtl : Option Nat}
    (h : loadCacheConfig b endpoint reqEvent =
      .ok (some (cacheKey, cacheTtl))) :
    endpoint.cacheTtl = cacheTtl.map Int.ofNat := by
  unfold loadCacheConfig at h
  split at h
  · cases h
  · rename_i hany
    split at h
    · cases h
    · rcases Option.map_eq_some_iff.mp (Except.ok.inj h) with ⟨_, _, hpair⟩
      rw [← (Prod.mk.inj hpair).right]
      cases httl : endpoint.cacheTtl with
      | none => rfl
      | some ttl =>
          have hnonneg : 0 ≤ ttl := by
            simpa [httl] using hany
          exact congrArg some (Int.toNat_of_nonneg hnonneg).symm

theorem hit_of_fromCached {w next : CachedWorld tau} {cached : CachedLookup}
    {response : PendingOrResponse}
    (h : exec (fromCached b invokeId endpoint reqEvent) w =
      (.ok cached, next)) (hresponse : cached.response = some response) :
    exists cacheKey row,
      loadCacheConfig b endpoint reqEvent =
        .ok (some (cacheKey, cached.cacheTtl)) ∧
      w.cached.findUnique ⟨endpoint.id, cacheKey⟩ = some row ∧
      isExpired row cached.cacheTtl endpoint (b.now w.outside) = false ∧
      row.value.response = response := by
  unfold fromCached at h
  split at h
  · cases h
  · cases h
    cases hresponse
  · rename_i cacheKey cacheTtl hconfig
    split at h
    · rw [exec_bind_of_ok (exec_findOne cacheKey endpoint.id w)] at h
      split at h
      · cases h
        cases hresponse
      · rename_i row hfound
        rw [exec_bind_of_ok (exec_get w)] at h
        split at h
        · rcases exec_bind_eq_ok h with ⟨_, middle, _, hlast⟩
          cases hlast
          cases hresponse
        · rename_i hexpired
          rcases exec_bind_eq_ok h with ⟨_, middle, _, hlast⟩
          cases hlast
          exact ⟨cacheKey, row, hconfig, hfound,
            Bool.eq_false_iff.mpr hexpired, Option.some.inj hresponse⟩
    · cases h
      cases hresponse

theorem le_of_not_expired {row : CachedRow} {ttl now : Nat}
    (hpositive : 0 < ttl)
    (h : isExpired row (some ttl) endpoint now = false) :
    now ≤ row.value.createdAt + ttl * 1000 := by
  have hset : (some ttl).getD 0 ≠ 0 := Nat.ne_of_gt hpositive
  unfold isExpired at h
  rw [if_pos hset] at h
  simpa using h

theorem pending_of_not_expired {row : CachedRow} {cacheTtl : Option Nat}
    {now : Nat} (hnone : cacheTtl.getD 0 = 0)
    (h : isExpired row cacheTtl endpoint now = false) :
    row.value.response.statusCode = some 2 := by
  unfold isExpired at h
  rw [if_neg (not_not_intro hnone)] at h
  split at h
  · simpa using h
  · cases h

/-- What a lookup of the key returns: the last response that was stored under
it, in a row that is young enough or, without a time to live, pending. -/
structure Found (b : Backend tau) (endpoint : EndpointDto) (key : CachedKey)
    (s : History tau) (response : PendingOrResponse)
    (last first : Store) : Prop where
  stored : lastStored s.log key = some last
  same : response = column last.response
  created : lastCreated s.log key = some first
  past : first.time ≤ b.now s.world.outside
  young : forall ttl : Nat, 0 < ttl -> endpoint.cacheTtl = some (.ofNat ttl) ->
    b.now s.world.outside ≤ first.time + ttl * 1000
  pending : endpoint.cacheTtl.getD 0 ≤ 0 -> response.statusCode = some 2

/-- After any calls there is one row for each key, and every response that is
returned was stored last under the key of the lookup. -/
theorem found_latest {outside : tau} {calls : List (CacheCall tau)}
    (hrun : run (step b) (init outside) calls = some s) :
    s.world.cached.rows.Pairwise (fun r q => r.key ≠ q.key) ∧
      forall invokeId endpoint reqEvent cached next response,
        exec (fromCached b invokeId endpoint reqEvent) s.world =
            (.ok cached, next) ->
          cached.response = some response ->
          exists cacheKey last first,
            loadCacheConfig b endpoint reqEvent =
              .ok (some (cacheKey, cached.cacheTtl)) ∧
            Found b endpoint ⟨endpoint.id, cacheKey⟩ s response last
              first := by
  have hinv : Inv b s :=
    run_invariant (fun _ _ _ h hstep => inv_step h hstep)
      (inv_init b outside) hrun
  constructor
  · exact s.world.cached.key_unique
  · intro invokeId endpoint reqEvent cached next response hexec hresponse
    rcases hit_of_fromCached hexec hresponse with
      ⟨cacheKey, row, hconfig, hfound, hexpired, hrow⟩
    rcases hinv.rows _ row hfound with ⟨last, first, hlatest⟩
    have httl := cacheTtl_of_loadCacheConfig hconfig
    refine ⟨cacheKey, last, first, hconfig, ?_⟩
    constructor
    · exact hlatest.stored
    · rw [← hrow, hlatest.response]
    · exact hlatest.created
    · exact hinv.past first (mem_of_lastCreated hlatest.created)
    · intro ttl hpositive hset
      rw [hset] at httl
      rcases Option.map_eq_some_iff.mp httl.symm with ⟨n, hn, hsame⟩
      rw [hn, Int.ofNat.inj hsame] at hexpired
      rw [← hlatest.createdAt]
      exact le_of_not_expired hpositive hexpired
    · intro hnone
      rw [← hrow]
      apply pending_of_not_expired _ hexpired
      rw [httl] at hnone
      cases hcached : cached.cacheTtl with
      | none => rfl
      | some n =>
          rw [hcached] at hnone
          exact Nat.le_zero.mp (Int.ofNat_le.mp hnone)

/-! ## Pets that are looked up after a minute -/

def clockBackend : Backend Nat where
  findEntry := fun _ => return none
  findRealm := fun _ => return none
  findFirstUserIdentity := fun _ _ => return none
  serverAdaptors := fun _ => none
  now := id
  evalKey := fun _ _ _ => none

def keyedStatus : InvokeStatus :=
  { petStatus with
      cacheKey := some minuteEndpoint.name
      cacheTtl := some 60 }

/-- The response `Tom` is stored over an empty one, and found a minute after
that one was stored. -/
theorem found_latest_minute :
    exists s last first,
      run (step clockBackend) (init 0)
        [.toCache keyedStatus (some (.ofData none)) minuteEndpoint
            (petCall none),
          .pass 60000,
          .updateCache (some (.ofData tom)) keyedStatus minuteEndpoint] =
        some s ∧
      Found clockBackend minuteEndpoint
        ⟨minuteEndpoint.id, minuteEndpoint.name⟩ s (.ofData tom) last
        first := by
  have hrun : run (step clockBackend) (init 0)
      [.toCache keyedStatus (some (.ofData none)) minuteEndpoint
          (petCall none),
        .pass 60000,
        .updateCache (some (.ofData tom)) keyedStatus minuteEndpoint] =
      some _ := rfl
  rcases (found_latest hrun).right [] minuteEndpoint (petCall none) _ _ _ rfl
    rfl with ⟨cacheKey, last, first, hconfig, hfound⟩
  cases hconfig
  exact ⟨_, last, first, hrun, hfound⟩

end History
end Cached
end CallgentApi
