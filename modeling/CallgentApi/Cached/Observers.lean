import CallgentApi.Cached.Routes
import CallgentApi.Lib.Chunks
import CallgentApi.Lib.Transition

/-!
# Observers of a row that others change

Requests for one endpoint and cache key look the row up, delete it, observe it,
update it and notify its observers at the same time.  Each of these is several
operations of the database, and nothing keeps the row as it was between them.
-/

namespace CallgentApi
namespace Cached

open Js Event Invoke Effect Transition

variable {tau : Type}

/-- An endpoint that caches, with the key and the time to live of a row. -/
structure Site (tau : Type) where
  backend : Backend tau
  endpoint : EndpointDto
  cacheKey : Text
  cacheTtl : Option Nat
  cacheable : reallyCache (some cacheKey) cacheTtl endpoint = true

def Site.key (site : Site tau) : CachedKey :=
  ⟨site.endpoint.id, site.cacheKey⟩

/-- Where a client stands, with the row it has read. -/
inductive Stage where
  | idle
  /-- `fromCached` is about to delete the row. -/
  | expired (row : CachedRow)
  /-- `fromCached` is about to observe the row. -/
  | pending (row : CachedRow) (invokeKey : Text)
  /-- `updateCache` is about to update the row. -/
  | read (row : CachedRow) (response : Option PendingOrResponse)
  /-- `updateCache` is about to notify the observers it has read. -/
  | updated (invokeKeys : List Text) (response : PendingOrResponse)

/-- The cache with its clients, and the invoke keys of the requests that were
answered with a pending response. -/
structure Shared (tau : Type) where
  world : CachedWorld tau
  stage : Nat -> Stage
  answered : List Text

/-- The operations of the clients; `create` is the one of `toCache`, and `pass`
is what goes on outside. -/
inductive Move (tau : Type) where
  | find (i : Nat) (invokeKey : Text)
  | delete (i : Nat)
  | addObserver (i : Nat)
  | read (i : Nat) (response : Option PendingOrResponse)
  | update (i : Nat)
  | notify (i : Nat)
  | create (ctx : InvokeStatus) (response : Option PendingOrResponse)
      (reqEvent : EventObject)
  | pass (outside : tau)

namespace Shared

def init (w : CachedWorld tau) : Shared tau where
  world := w
  stage := fun _ => .idle
  answered := []

def put (s : Shared tau) (w : CachedWorld tau) (i : Nat) (stage : Stage) :
    Shared tau :=
  { s with world := w, stage := Function.update s.stage i stage }

def pendingKey (invokeKey : Text) (response : PendingOrResponse) :
    List Text :=
  if response.statusCode = some 2 then [invokeKey] else []

/-- A request returns the response it has found. -/
def answer (s : Shared tau) (response : PendingOrResponse)
    (invokeKey : Text) : Shared tau :=
  { s with answered := s.answered ++ pendingKey invokeKey response }

def find (site : Site tau) (s : Shared tau) (i : Nat) (invokeKey : Text) :
    Option (Shared tau) :=
  match s.stage i with
  | .idle =>
      match s.world.cached.findUnique site.key with
      | none => some s
      | some row =>
          if isExpired row site.cacheTtl site.endpoint
              (site.backend.now s.world.outside) then
            some (s.put s.world i (.expired row))
          else if site.endpoint.isAsync ∧
              row.value.response.statusCode = some 2 then
            some (s.put s.world i (.pending row invokeKey))
          else some (s.answer row.value.response invokeKey)
  | _ => none

def delete (s : Shared tau) (i : Nat) : Option (Shared tau) :=
  match s.stage i with
  | .expired row => some (s.put (exec (Cached.delete row.pk) s.world).2 i .idle)
  | _ => none

def addObserver (s : Shared tau) (i : Nat) : Option (Shared tau) :=
  match s.stage i with
  | .pending row invokeKey =>
      match exec (Cached.addObserver row.pk invokeKey) s.world with
      | (.ok _, w) =>
          some ((s.put w i .idle).answer row.value.response invokeKey)
      | (.error _, w) => some (s.put w i .idle)
  | _ => none

def read (site : Site tau) (s : Shared tau) (i : Nat)
    (response : Option PendingOrResponse) : Option (Shared tau) :=
  match s.stage i with
  | .idle =>
      match s.world.cached.findUnique site.key with
      | none => some s
      | some row => some (s.put s.world i (.read row response))
  | _ => none

def update (s : Shared tau) (i : Nat) : Option (Shared tau) :=
  match s.stage i with
  | .read _ none => some (s.put s.world i .idle)
  | .read row (some response) =>
      match exec (Cached.update row.pk response) s.world with
      | (.ok _, w) => some (s.put w i (.updated row.value.invokeKeys response))
      | (.error _, w) => some (s.put w i .idle)
  | _ => none

def notify (s : Shared tau) (i : Nat) : Option (Shared tau) :=
  match s.stage i with
  | .updated invokeKeys response =>
      some (s.put (exec (notifyObservers invokeKeys response) s.world).2 i
        .idle)
  | _ => none

def step (site : Site tau) (s : Shared tau) :
    Move tau -> Option (Shared tau)
  | .find i invokeKey => s.find site i invokeKey
  | .delete i => s.delete i
  | .addObserver i => s.addObserver i
  | .read i response => s.read site i response
  | .update i => s.update i
  | .notify i => s.notify i
  | .create ctx response reqEvent =>
      let stored := toCache site.backend ctx response site.endpoint reqEvent
      some { s with world := (exec stored s.world).2 }
  | .pass outside => some { s with world := { s.world with outside := outside } }

/-! ## Where an observer is -/

def Notified (s : Shared tau) (invokeKey : Text) : Prop :=
  exists d, (invokeKey, d) ∈ s.world.resumed

def ToNotify (s : Shared tau) (invokeKey : Text) : Prop :=
  exists i invokeKeys response, s.stage i = .updated invokeKeys response ∧
    invokeKey ∈ notifiedKeys invokeKeys

/-- It is stored in a row that is still pending. -/
def Waiting (s : Shared tau) (invokeKey : Text) : Prop :=
  exists row, row ∈ s.world.cached.rows ∧
    row.value.response.statusCode = some 2 ∧ invokeKey ∈ row.value.invokeKeys

def Quiet (s : Shared tau) : Prop :=
  forall i, s.stage i = .idle

/-- While no operation is in progress, every request that was answered with a
pending response is notified or still observes a pending row. -/
def NoneDropped (s : Shared tau) : Prop :=
  s.Quiet -> forall invokeKey, invokeKey ∈ s.answered ->
    s.Notified invokeKey ∨ s.Waiting invokeKey

def RowOf (s : Shared tau) (pk : Nat) (row : CachedRow) : Prop :=
  row ∈ s.world.cached.rows ∧ row.pk = pk

/-- What a step must not do.  A synchronous endpoint must not answer with a
pending row, which it does not observe.  An expired row must not be deleted
together with observers that nobody has notified.  An observer must not be
added to a row that is not pending any more, or that an update has already
read.  The chunks of `_group` must not leave out an observer. -/
def KeepsObservers (site : Site tau) (s : Shared tau) : Move tau -> Prop
  | .find _ _ => forall row, site.endpoint.isAsync = false ->
      s.world.cached.findUnique site.key = some row ->
      isExpired row site.cacheTtl site.endpoint
        (site.backend.now s.world.outside) = false ->
        row.value.response.statusCode ≠ some 2
  | .delete i => forall held row, s.stage i = .expired held ->
      s.RowOf held.pk row -> row.value.response.statusCode = some 2 ->
        forall invokeKey, invokeKey ∈ row.value.invokeKeys ->
          s.Notified invokeKey ∨ s.ToNotify invokeKey
  | .addObserver i => forall held invokeKey row,
      s.stage i = .pending held invokeKey -> s.RowOf held.pk row ->
        row.value.response.statusCode = some 2 ∧
          forall j other response, s.stage j = .read other (some response) ->
            other.pk = held.pk -> response.statusCode = some 2
  | .update i => forall row response, s.stage i = .read row (some response) ->
      response.statusCode ≠ some 2 -> forall invokeKey,
        invokeKey ∈ row.value.invokeKeys ->
          invokeKey ∈ notifiedKeys row.value.invokeKeys
  | _ => True

/-! ## The chunks of the observers -/

theorem notifiedKeys_eq_take (invokeKeys : List Text) :
    notifiedKeys invokeKeys =
      invokeKeys.take ((invokeKeys.dedup.length + 2) / 3 * 3) :=
  Chunks.flatten_chunks invokeKeys 3 _

theorem notifiedKeys_of_nodup {invokeKeys : List Text}
    (h : invokeKeys.Nodup) : notifiedKeys invokeKeys = invokeKeys := by
  rw [notifiedKeys_eq_take, h.dedup]
  apply List.take_of_length_le
  omega

/-! ## What a step does -/

@[simp] theorem put_stage_self (s : Shared tau) (w : CachedWorld tau)
    (i : Nat) (stage : Stage) : (s.put w i stage).stage i = stage := by
  simp [put]

theorem put_stage_of_ne (s : Shared tau) (w : CachedWorld tau) {i j : Nat}
    (stage : Stage) (h : j ≠ i) : (s.put w i stage).stage j = s.stage j := by
  simp [put, h]

theorem find_some {site : Site tau} {s s' : Shared tau} {i : Nat}
    {invokeKey : Text} (h : s.find site i invokeKey = some s') :
    s.stage i = .idle ∧
      (s' = s ∨
        (exists row, s' = s.put s.world i (.expired row)) ∨
        (exists row, s' = s.put s.world i (.pending row invokeKey)) ∨
        exists row, s.world.cached.findUnique site.key = some row ∧
          isExpired row site.cacheTtl site.endpoint
            (site.backend.now s.world.outside) = false ∧
          (site.endpoint.isAsync = true ->
            row.value.response.statusCode ≠ some 2) ∧
          s' = s.answer row.value.response invokeKey) := by
  unfold find at h
  cases hstage : s.stage i with
  | idle =>
      rw [hstage] at h
      refine ⟨rfl, ?_⟩
      cases hfound : s.world.cached.findUnique site.key with
      | none =>
          rw [hfound] at h
          exact Or.inl (Option.some.inj h).symm
      | some row =>
          rw [hfound] at h
          dsimp only at h
          split at h
          · exact Or.inr (Or.inl ⟨row, (Option.some.inj h).symm⟩)
          · rename_i hexpired
            split at h
            · exact Or.inr (Or.inr (Or.inl ⟨row, (Option.some.inj h).symm⟩))
            · rename_i hobserved
              refine Or.inr (Or.inr (Or.inr ⟨row, rfl, ?_, ?_, ?_⟩))
              · exact Bool.eq_false_of_not_eq_true hexpired
              · exact fun hasync hpending => hobserved ⟨hasync, hpending⟩
              · exact (Option.some.inj h).symm
  | expired | pending | read | updated =>
      rw [hstage] at h
      cases h

theorem delete_some {s s' : Shared tau} {i : Nat}
    (h : s.delete i = some s') :
    exists held, s.stage i = .expired held ∧
      (s' = s.put s.world i .idle ∨
        s' = s.put
          { s.world with cached := s.world.cached.erase held.pk } i .idle) := by
  unfold delete at h
  cases hstage : s.stage i with
  | expired held =>
      rw [hstage] at h
      refine ⟨held, rfl, ?_⟩
      rw [← Option.some.inj h]
      have hcases := exec_write_cases recordNotFound
        (fun t => t.delete held.pk) s.world
      rcases hcases with ⟨t, ht, hexec⟩ | ⟨_, hexec⟩
      · right
        rw [← Table.eq_erase_of_delete ht]
        exact congrArg (fun r => s.put r.2 i .idle) hexec
      · left
        exact congrArg (fun r => s.put r.2 i .idle) hexec
  | idle | pending | read | updated =>
      rw [hstage] at h
      cases h

/-- What `addObserver` makes of the columns. -/
def pushKey (invokeKey : Text) (data : CachedData) : CachedData :=
  { data with invokeKeys := data.invokeKeys ++ [invokeKey] }

/-- What `update` makes of the columns. -/
def setResponse (response : PendingOrResponse) (data : CachedData) :
    CachedData :=
  { data with response := column response }

theorem addObserver_some {s s' : Shared tau} {i : Nat}
    (h : s.addObserver i = some s') :
    exists held invokeKey, s.stage i = .pending held invokeKey ∧
      (s' = s.put s.world i .idle ∨
        exists row, s.RowOf held.pk row ∧
          s' = (s.put { s.world with
            cached := s.world.cached.edit held.pk (pushKey invokeKey) }
              i .idle).answer held.value.response invokeKey) := by
  unfold addObserver at h
  cases hstage : s.stage i with
  | pending held invokeKey =>
      rw [hstage] at h
      refine ⟨held, invokeKey, rfl, ?_⟩
      have hcases := exec_write_cases recordNotFound
        (fun t => t.update held.pk (pushKey invokeKey)) s.world
      rcases hcases with ⟨t, ht, hexec⟩ | ⟨_, hexec⟩
      · right
        rcases Table.exists_row_of_update ht with ⟨row, hmem, hpk⟩
        refine ⟨row, ⟨hmem, hpk⟩, ?_⟩
        have hadd : exec (Cached.addObserver held.pk invokeKey) s.world =
            (.ok (), { s.world with cached := t }) := hexec
        simp only [hadd] at h
        rw [← Option.some.inj h, Table.eq_edit_of_update ht]
      · left
        have hadd : exec (Cached.addObserver held.pk invokeKey) s.world =
            (.error recordNotFound, s.world) := hexec
        simp only [hadd] at h
        exact (Option.some.inj h).symm
  | idle | expired | read | updated =>
      rw [hstage] at h
      cases h

theorem read_some {site : Site tau} {s s' : Shared tau} {i : Nat}
    {response : Option PendingOrResponse}
    (h : s.read site i response = some s') :
    s.stage i = .idle ∧
      (s' = s ∨
        exists row, s.world.cached.findUnique site.key = some row ∧
          s' = s.put s.world i (.read row response)) := by
  unfold read at h
  cases hstage : s.stage i with
  | idle =>
      rw [hstage] at h
      refine ⟨rfl, ?_⟩
      cases hfound : s.world.cached.findUnique site.key with
      | none =>
          rw [hfound] at h
          exact Or.inl (Option.some.inj h).symm
      | some row =>
          rw [hfound] at h
          exact Or.inr ⟨row, rfl, (Option.some.inj h).symm⟩
  | expired | pending | read | updated =>
      rw [hstage] at h
      cases h

theorem update_some {s s' : Shared tau} {i : Nat}
    (h : s.update i = some s') :
    exists held response, s.stage i = .read held response ∧
      (s' = s.put s.world i .idle ∨
        exists r, response = some r ∧
          s' = s.put { s.world with
            cached := s.world.cached.edit held.pk (setResponse r) }
              i (.updated held.value.invokeKeys r)) := by
  unfold update at h
  cases hstage : s.stage i with
  | read held response =>
      rw [hstage] at h
      refine ⟨held, response, rfl, ?_⟩
      cases response with
      | none => exact Or.inl (Option.some.inj h).symm
      | some r =>
          have hcases := exec_write_cases recordNotFound
            (fun t => t.update held.pk (setResponse r)) s.world
          rcases hcases with ⟨t, ht, hexec⟩ | ⟨_, hexec⟩
          · right
            have hupdate : exec (Cached.update held.pk r) s.world =
                (.ok (), { s.world with cached := t }) := hexec
            simp only [hupdate] at h
            refine ⟨r, rfl, ?_⟩
            rw [← Option.some.inj h, Table.eq_edit_of_update ht]
          · left
            have hupdate : exec (Cached.update held.pk r) s.world =
                (.error recordNotFound, s.world) := hexec
            simp only [hupdate] at h
            exact (Option.some.inj h).symm
  | idle | expired | pending | updated =>
      rw [hstage] at h
      cases h

theorem notify_some {s s' : Shared tau} {i : Nat}
    (h : s.notify i = some s') :
    exists invokeKeys response, s.stage i = .updated invokeKeys response ∧
      s' = s.put { s.world with
        resumed := s.world.resumed ++
          (notifiedKeys invokeKeys).map fun key => (key, response.value) }
        i .idle := by
  unfold notify at h
  cases hstage : s.stage i with
  | updated invokeKeys response =>
      rw [hstage] at h
      exact ⟨invokeKeys, response, rfl, (Option.some.inj h).symm⟩
  | idle | expired | pending | read =>
      rw [hstage] at h
      cases h

theorem snd_exec_toCache (b : Backend tau) (ctx : InvokeStatus)
    (response : Option PendingOrResponse) (endpoint : EndpointDto)
    (reqEvent : EventObject) (w : CachedWorld tau) :
    (exec (toCache b ctx response endpoint reqEvent) w).2 = w ∨
      exists key data h,
        (exec (toCache b ctx response endpoint reqEvent) w).2 =
          { w with cached := w.cached.insert key data h } := by
  unfold toCache
  cases truthy ctx.cacheKey with
  | none => exact Or.inl rfl
  | some cacheKey =>
      dsimp only
      split
      · cases response with
        | none => exact Or.inl rfl
        | some r =>
            dsimp only
            rw [exec_bind_of_ok (exec_get w)]
            let key : CachedKey := ⟨endpoint.id, cacheKey⟩
            let data := newData (b.now w.outside) r reqEvent
            cases hfound : w.cached.findUnique key with
            | none =>
                have hexec : exec (write uniqueConstraint
                    fun t : CachedTable => t.create key data) w = _ :=
                  exec_write_of_some (Table.create_of_none data hfound) _
                rw [exec_bind_of_ok hexec]
                exact Or.inr ⟨key, data, hfound, rfl⟩
            | some row =>
                have hexec : exec (write uniqueConstraint
                    fun t : CachedTable => t.create key data) w = _ :=
                  exec_write_of_none (Table.create_of_some data hfound) _
                rw [exec_bind_of_error hexec]
                exact Or.inl rfl
      · exact Or.inl rfl

/-! ## The moves of one request in a row -/

/-- The invoke key, if `fromCached` returns a pending response. -/
def answeredBy (invokeKey : Text) : Except Thrown CachedLookup -> List Text
  | .ok cached => (cached.response.map (pendingKey invokeKey)).getD []
  | .error _ => []

theorem run_eq_fromCached {site : Site tau} {s : Shared tau} {i : Nat}
    {invokeId : Text} {reqEvent : EventObject}
    (hconfig : loadCacheConfig site.backend site.endpoint reqEvent =
      .ok (some (site.cacheKey, site.cacheTtl)))
    (hidle : s.stage i = .idle) :
    exists rest t,
      run (step site) s
          (.find i (observerKey invokeId reqEvent.id) :: rest) = some t ∧
        t.stage i = .idle ∧
        t.world = (exec (fromCached site.backend invokeId site.endpoint
          reqEvent) s.world).2 ∧
        t.answered = s.answered ++
          answeredBy (observerKey invokeId reqEvent.id)
            (exec (fromCached site.backend invokeId site.endpoint reqEvent)
              s.world).1 := by
  have hlookup := exec_findOne site.cacheKey site.endpoint.id s.world
  unfold fromCached
  rw [hconfig]
  dsimp only
  rw [if_pos site.cacheable, exec_bind_of_ok hlookup]
  cases hfound : s.world.cached.findUnique site.key with
  | none =>
      have hmissing : s.world.cached.findUnique
          ⟨site.endpoint.id, site.cacheKey⟩ = none := hfound
      rw [hmissing]
      refine ⟨[], s, ?_, hidle, rfl, (List.append_nil _).symm⟩
      simp [run, step, find, hidle, hfound]
  | some row =>
      have hrow : s.world.cached.findUnique
          ⟨site.endpoint.id, site.cacheKey⟩ = some row := hfound
      rw [hrow]
      dsimp only
      rw [exec_bind_of_ok (exec_get s.world)]
      cases hexpired : isExpired row site.cacheTtl site.endpoint
          (site.backend.now s.world.outside) with
      | true =>
          let erased : CachedWorld tau :=
            { s.world with cached := s.world.cached.erase row.pk }
          have hdelete : exec (Cached.delete row.pk) s.world =
              (.ok (), erased) :=
            exec_write_of_some (Table.delete_of_findUnique hfound) _
          rw [if_pos rfl, exec_bind_of_ok hdelete]
          refine ⟨[.delete i], s.put erased i .idle, ?_,
            put_stage_self _ _ _ _, rfl, (List.append_nil _).symm⟩
          simp [run, step, find, delete, hidle, hfound, hexpired, put, hdelete]
      | false =>
          rw [if_neg Bool.false_ne_true]
          unfold observe
          by_cases hobserved : site.endpoint.isAsync = true ∧
              row.value.response.statusCode = some 2
          · let edited : CachedWorld tau :=
              { s.world with
                  cached := s.world.cached.edit row.pk
                    (pushKey (observerKey invokeId reqEvent.id)) }
            have hadd : exec (Cached.addObserver row.pk
                (observerKey invokeId reqEvent.id)) s.world =
                (.ok (), edited) :=
              exec_write_of_some (Table.update_of_findUnique hfound _) _
            rw [if_pos hobserved, exec_bind_of_ok hadd]
            refine ⟨[.addObserver i], (s.put edited i .idle).answer
              row.value.response (observerKey invokeId reqEvent.id), ?_,
              put_stage_self s edited i .idle, rfl, rfl⟩
            simp [run, step, find, addObserver, hidle, hfound, hexpired, put,
              hadd, hobserved]
          · rw [if_neg hobserved]
            refine ⟨[], s.answer row.value.response
              (observerKey invokeId reqEvent.id), ?_, hidle, rfl, rfl⟩
            simp [run, step, find, hidle, hfound, hexpired, hobserved]

theorem run_eq_updateCache {site : Site tau} {s : Shared tau} {i : Nat}
    {ctx : InvokeStatus} (response : PendingOrResponse)
    (hkey : ctx.cacheKey = some site.cacheKey)
    (httl : ctx.cacheTtl = site.cacheTtl) (hidle : s.stage i = .idle) :
    exists rest t,
      run (step site) s (.read i (some response) :: rest) = some t ∧
        t.stage i = .idle ∧ t.answered = s.answered ∧
        t.world = (exec (updateCache (some response) ctx site.endpoint)
          s.world).2 := by
  have hlookup := exec_findOne site.cacheKey site.endpoint.id s.world
  have htruthy : truthy ctx.cacheKey = some site.cacheKey := by
    rw [hkey]
    exact truthy_of_reallyCache site.cacheable
  have hreally : reallyCache ctx.cacheKey ctx.cacheTtl site.endpoint =
      true := by
    rw [hkey, httl]
    exact site.cacheable
  unfold updateCache
  rw [htruthy]
  dsimp only
  rw [if_pos hreally, exec_bind_of_ok hlookup]
  cases hfound : s.world.cached.findUnique site.key with
  | none =>
      have hmissing : s.world.cached.findUnique
          ⟨site.endpoint.id, site.cacheKey⟩ = none := hfound
      rw [hmissing]
      refine ⟨[], s, ?_, hidle, rfl, rfl⟩
      simp [run, step, read, hidle, hfound]
  | some row =>
      have hrow : s.world.cached.findUnique
          ⟨site.endpoint.id, site.cacheKey⟩ = some row := hfound
      let edited : CachedWorld tau :=
        { s.world with
            cached := s.world.cached.edit row.pk (setResponse response) }
      have hupdate : exec (Cached.update row.pk response) s.world =
          (.ok (), edited) :=
        exec_write_of_some (Table.update_of_findUnique hfound _) _
      rw [hrow]
      dsimp only
      rw [exec_bind_of_ok hupdate]
      let notified : CachedWorld tau :=
        (exec (notifyObservers row.value.invokeKeys response) edited).2
      refine ⟨[.update i, .notify i], s.put notified i .idle, ?_,
        put_stage_self s notified i .idle, rfl, rfl⟩
      simp [run, step, read, update, notify, hidle, hfound, put, hupdate,
        notified]

/-! ## What the steps keep -/

structure Covers (t : CachedTable) (held : CachedRow) : Prop where
  lt : held.pk < t.nextPk
  keys : forall row, row ∈ t.rows -> row.pk = held.pk ->
    row.value.invokeKeys ⊆ held.value.invokeKeys

namespace Covers

variable {t : CachedTable} {held row : CachedRow}

theorem of_mem (h : row ∈ t.rows) : Covers t row where
  lt := t.pk_lt row h
  keys := by
    intro other hother hpk
    rw [Table.eq_of_pk hother h hpk]
    exact List.Subset.refl _

theorem erase (h : Covers t held) (pk : Nat) : Covers (t.erase pk) held where
  lt := h.lt
  keys := fun row hrow => h.keys row (Table.mem_erase.mp hrow).left

theorem edit (h : Covers t held) {pk : Nat} {f : CachedData -> CachedData}
    (hf : held.pk = pk -> forall data, (f data).invokeKeys = data.invokeKeys) :
    Covers (t.edit pk f) held where
  lt := h.lt
  keys := by
    intro row hrow hpk
    rcases Table.mem_edit.mp hrow with ⟨old, hold, rfl⟩
    rw [Table.editRow_pk] at hpk
    have hkeys := h.keys old hold hpk
    unfold Table.editRow
    split
    · rename_i hedited
      show (f old.value).invokeKeys ⊆ _
      rw [hf (hpk.symm.trans hedited)]
      exact hkeys
    · exact hkeys

theorem insert (h : Covers t held) {key : CachedKey} {data : CachedData}
    (hfree : t.findUnique key = none) :
    Covers (t.insert key data hfree) held where
  lt := Nat.lt_succ_of_lt h.lt
  keys := by
    intro row hrow hpk
    rcases List.mem_append.mp hrow with hold | hnew
    · exact h.keys row hold hpk
    · rw [List.mem_singleton.mp hnew] at hpk
      exact absurd hpk (Nat.ne_of_gt h.lt)

end Covers

/-- Every answered request is notified, about to be notified or waiting, and
an update that ends the wait of a row notifies everybody who waits. -/
structure Accounted (s : Shared tau) : Prop where
  answered : forall invokeKey, invokeKey ∈ s.answered ->
    s.Notified invokeKey ∨ s.ToNotify invokeKey ∨ s.Waiting invokeKey
  covered : forall i held response, s.stage i = .read held (some response) ->
    response.statusCode ≠ some 2 -> Covers s.world.cached held

theorem accounted_init (w : CachedWorld tau) : Accounted (init w) where
  answered := by
    intro invokeKey h
    cases h
  covered := by
    intro i held response h
    cases h

theorem toNotify_put {s : Shared tau} {w : CachedWorld tau} {i : Nat}
    {stage : Stage} {invokeKey : Text}
    (hnot : forall invokeKeys response,
      s.stage i ≠ .updated invokeKeys response)
    (h : s.ToNotify invokeKey) : (s.put w i stage).ToNotify invokeKey := by
  rcases h with ⟨j, invokeKeys, response, hstage, hmem⟩
  have hne : j ≠ i := by
    intro heq
    rw [heq] at hstage
    exact hnot invokeKeys response hstage
  refine ⟨j, invokeKeys, response, ?_, hmem⟩
  rw [put_stage_of_ne s w stage hne]
  exact hstage

/-- A step of one client keeps the account if it settles those who wait and
does not spoil the copies that the others hold. -/
theorem Accounted.put {s : Shared tau} (h : Accounted s)
    {w : CachedWorld tau} {i : Nat} {stage : Stage}
    (hnot : forall invokeKeys response,
      s.stage i ≠ .updated invokeKeys response)
    (hresumed : w.resumed = s.world.resumed)
    (hwaiting : forall invokeKey, s.Waiting invokeKey ->
      s.Notified invokeKey ∨ s.ToNotify invokeKey ∨
        (s.put w i stage).ToNotify invokeKey ∨
        (s.put w i stage).Waiting invokeKey)
    (hcovers : forall j held response,
      s.stage j = .read held (some response) ->
      response.statusCode ≠ some 2 -> Covers s.world.cached held ->
        Covers w.cached held)
    (hstage : forall held response, stage = .read held (some response) ->
      Covers w.cached held) : Accounted (s.put w i stage) where
  answered := by
    have hnotified : forall invokeKey, s.Notified invokeKey ->
        (s.put w i stage).Notified invokeKey := by
      rintro invokeKey ⟨d, hmem⟩
      have hmem' : (invokeKey, d) ∈ w.resumed := hresumed ▸ hmem
      exact ⟨d, hmem'⟩
    intro invokeKey hanswered
    rcases h.answered invokeKey hanswered with hdone | hsoon | hwaits
    · exact Or.inl (hnotified invokeKey hdone)
    · exact Or.inr (Or.inl (toNotify_put hnot hsoon))
    · rcases hwaiting invokeKey hwaits with hdone | hsoon | hnow | hstill
      · exact Or.inl (hnotified invokeKey hdone)
      · exact Or.inr (Or.inl (toNotify_put hnot hsoon))
      · exact Or.inr (Or.inl hnow)
      · exact Or.inr (Or.inr hstill)
  covered := by
    intro j held response hread hdone
    by_cases hji : j = i
    · rw [hji, put_stage_self] at hread
      exact hstage held response hread
    · rw [put_stage_of_ne s w stage hji] at hread
      exact hcovers j held response hread hdone
        (h.covered j held response hread hdone)

theorem Accounted.move {s : Shared tau} (h : Accounted s) {i : Nat}
    {stage : Stage}
    (hnot : forall invokeKeys response,
      s.stage i ≠ .updated invokeKeys response)
    (hstage : forall held response, stage = .read held (some response) ->
      Covers s.world.cached held) : Accounted (s.put s.world i stage) :=
  h.put hnot rfl (fun _ hwaits => Or.inr (Or.inr (Or.inr hwaits)))
    (fun _ _ _ _ _ hcovers => hcovers) hstage

theorem Accounted.find {site : Site tau} {s s' : Shared tau} {i : Nat}
    {invokeKey : Text} (h : Accounted s)
    (hkeeps : s.KeepsObservers site (.find i invokeKey))
    (hstep : s.find site i invokeKey = some s') : Accounted s' := by
  rcases find_some hstep with ⟨hidle, hcases⟩
  have hnot : forall invokeKeys response,
      s.stage i ≠ .updated invokeKeys response := by
    intro invokeKeys response
    rw [hidle]
    exact Stage.noConfusion
  rcases hcases with rfl | ⟨row, rfl⟩ | ⟨row, rfl⟩ |
    ⟨row, hfound, hexpired, hasync, rfl⟩
  · exact h
  · exact h.move hnot fun _ _ => Stage.noConfusion
  · exact h.move hnot fun _ _ => Stage.noConfusion
  · have hdone : row.value.response.statusCode ≠ some 2 := by
      cases hkind : site.endpoint.isAsync with
      | false => exact hkeeps row hkind hfound hexpired
      | true => exact hasync hkind
    unfold answer pendingKey
    rw [if_neg hdone, List.append_nil]
    exact h

theorem Accounted.delete {site : Site tau} {s s' : Shared tau} {i : Nat}
    (h : Accounted s) (hkeeps : s.KeepsObservers site (.delete i))
    (hstep : s.delete i = some s') : Accounted s' := by
  rcases delete_some hstep with ⟨held, hexpired, hcases⟩
  have hnot : forall invokeKeys response,
      s.stage i ≠ .updated invokeKeys response := by
    intro invokeKeys response
    rw [hexpired]
    exact Stage.noConfusion
  rcases hcases with rfl | rfl
  · exact h.move hnot fun _ _ => Stage.noConfusion
  · apply h.put hnot
    · rfl
    · rintro invokeKey ⟨row, hrow, hpending, hmem⟩
      by_cases hpk : row.pk = held.pk
      · have htold := hkeeps held row hexpired ⟨hrow, hpk⟩ hpending
          invokeKey hmem
        rcases htold with hdone | hsoon
        · exact Or.inl hdone
        · exact Or.inr (Or.inl hsoon)
      · have hleft : row ∈ (s.world.cached.erase held.pk).rows :=
          Table.mem_erase.mpr ⟨hrow, hpk⟩
        exact Or.inr (Or.inr (Or.inr ⟨row, hleft, hpending, hmem⟩))
    · intro j other response _ _ hcovers
      exact hcovers.erase held.pk
    · exact fun _ _ => Stage.noConfusion

theorem waiting_edit {s : Shared tau} {pk i : Nat} {stage : Stage}
    {f : CachedData -> CachedData} {invokeKey : Text}
    (hf : forall row, s.RowOf pk row ->
      row.value.response.statusCode = some 2 ->
      invokeKey ∈ row.value.invokeKeys ->
        (f row.value).response.statusCode = some 2 ∧
          invokeKey ∈ (f row.value).invokeKeys)
    (h : s.Waiting invokeKey) :
    (s.put { s.world with cached := s.world.cached.edit pk f } i
      stage).Waiting invokeKey := by
  rcases h with ⟨row, hrow, hpending, hmem⟩
  have hedited : Table.editRow pk f row ∈ (s.world.cached.edit pk f).rows :=
    Table.mem_edit.mpr ⟨row, hrow, rfl⟩
  refine ⟨Table.editRow pk f row, hedited, ?_⟩
  unfold Table.editRow
  split
  · rename_i hpk
    exact hf row ⟨hrow, hpk⟩ hpending hmem
  · exact ⟨hpending, hmem⟩

theorem Accounted.addObserver {site : Site tau} {s s' : Shared tau} {i : Nat}
    (h : Accounted s) (hkeeps : s.KeepsObservers site (.addObserver i))
    (hstep : s.addObserver i = some s') : Accounted s' := by
  rcases addObserver_some hstep with ⟨held, invokeKey, hpending, hcases⟩
  have hnot : forall invokeKeys response,
      s.stage i ≠ .updated invokeKeys response := by
    intro invokeKeys response
    rw [hpending]
    exact Stage.noConfusion
  rcases hcases with rfl | ⟨row, hrow, rfl⟩
  · exact h.move hnot fun _ _ => Stage.noConfusion
  · rcases hkeeps held invokeKey row hpending hrow with ⟨hwaits, halone⟩
    have hput : Accounted (s.put { s.world with
        cached := s.world.cached.edit held.pk (pushKey invokeKey) } i
          .idle) := by
      apply h.put hnot
      · rfl
      · intro other hother
        refine Or.inr (Or.inr (Or.inr (waiting_edit ?_ hother)))
        intro row _ hstatus hmem
        exact ⟨hstatus, List.mem_append_left _ hmem⟩
      · intro j other response hread hdone hcovers
        apply hcovers.edit
        intro hpk
        exact absurd (halone j other response hread hpk) hdone
      · exact fun _ _ => Stage.noConfusion
    unfold answer pendingKey
    split
    · constructor
      · intro other hother
        rcases List.mem_append.mp hother with hold | hnew
        · exact hput.answered other hold
        · right
          right
          rw [List.mem_singleton.mp hnew]
          refine ⟨Table.editRow held.pk (pushKey invokeKey) row,
            Table.mem_edit.mpr ⟨row, hrow.left, rfl⟩, ?_⟩
          unfold Table.editRow
          rw [if_pos hrow.right]
          exact ⟨hwaits, List.mem_append_right _ List.mem_cons_self⟩
      · exact hput.covered
    · rw [List.append_nil]
      exact hput

theorem Accounted.read {site : Site tau} {s s' : Shared tau} {i : Nat}
    {response : Option PendingOrResponse} (h : Accounted s)
    (hstep : s.read site i response = some s') : Accounted s' := by
  rcases read_some hstep with ⟨hidle, hcases⟩
  rcases hcases with rfl | ⟨row, hfound, rfl⟩
  · exact h
  · apply h.move
    · intro invokeKeys response
      rw [hidle]
      exact Stage.noConfusion
    · intro held r heq
      cases heq
      exact Covers.of_mem (Table.mem_of_findUnique hfound)

theorem Accounted.update {site : Site tau} {s s' : Shared tau} {i : Nat}
    (h : Accounted s) (hkeeps : s.KeepsObservers site (.update i))
    (hstep : s.update i = some s') : Accounted s' := by
  rcases update_some hstep with ⟨held, response, hread, hcases⟩
  have hnot : forall invokeKeys response,
      s.stage i ≠ .updated invokeKeys response := by
    intro invokeKeys response
    rw [hread]
    exact Stage.noConfusion
  rcases hcases with rfl | ⟨r, rfl, rfl⟩
  · exact h.move hnot fun _ _ => Stage.noConfusion
  · apply h.put hnot
    · rfl
    · intro invokeKey hwaits
      by_cases hdone : r.statusCode = some 2
      · refine Or.inr (Or.inr (Or.inr (waiting_edit ?_ hwaits)))
        intro row _ _ hmem
        exact ⟨hdone, hmem⟩
      · rcases hwaits with ⟨row, hrow, hpending, hmem⟩
        right
        right
        by_cases hpk : row.pk = held.pk
        · -- the update ends the wait of this row, so its copy notifies
          left
          have hcopy := (h.covered i held r hread hdone).keys row hrow hpk hmem
          exact ⟨i, held.value.invokeKeys, r, put_stage_self _ _ _ _,
            hkeeps held r hread hdone invokeKey hcopy⟩
        · right
          have hsame : Table.editRow held.pk (setResponse r) row = row :=
            if_neg hpk
          refine ⟨row, Table.mem_edit.mpr ⟨row, hrow, hsame⟩, hpending, hmem⟩
    · intro j other response _ _ hcovers
      exact hcovers.edit fun _ _ => rfl
    · exact fun _ _ => Stage.noConfusion

theorem Accounted.notify {s s' : Shared tau} {i : Nat} (h : Accounted s)
    (hstep : s.notify i = some s') : Accounted s' := by
  rcases notify_some hstep with ⟨invokeKeys, response, hupdated, rfl⟩
  constructor
  · intro invokeKey hanswered
    rcases h.answered invokeKey hanswered with
      ⟨d, hmem⟩ | ⟨j, keys, r, hj, hmem⟩ | hwaits
    · exact Or.inl ⟨d, List.mem_append_left _ hmem⟩
    · by_cases hji : j = i
      · rw [hji, hupdated] at hj
        cases hj
        left
        exact ⟨response.value, List.mem_append_right _
          (List.mem_map.mpr ⟨invokeKey, hmem, rfl⟩)⟩
      · right
        left
        refine ⟨j, keys, r, ?_, hmem⟩
        rw [put_stage_of_ne s _ _ hji]
        exact hj
    · exact Or.inr (Or.inr hwaits)
  · intro j held r hread
    by_cases hji : j = i
    · rw [hji, put_stage_self] at hread
      cases hread
    · rw [put_stage_of_ne s _ _ hji] at hread
      exact h.covered j held r hread

theorem Accounted.create {s : Shared tau} (h : Accounted s)
    (b : Backend tau) (ctx : InvokeStatus)
    (response : Option PendingOrResponse) (endpoint : EndpointDto)
    (reqEvent : EventObject) :
    Accounted { s with
      world := (exec (toCache b ctx response endpoint reqEvent)
        s.world).2 } := by
  rcases snd_exec_toCache b ctx response endpoint reqEvent s.world with
    hsame | ⟨key, data, hfree, hinsert⟩
  · rw [hsame]
    exact h
  · rw [hinsert]
    constructor
    · intro invokeKey hanswered
      rcases h.answered invokeKey hanswered with hdone | hsoon |
        ⟨row, hrow, hpending, hmem⟩
      · exact Or.inl hdone
      · exact Or.inr (Or.inl hsoon)
      · have hrow' : row ∈ (s.world.cached.insert key data hfree).rows :=
          List.mem_append_left _ hrow
        exact Or.inr (Or.inr ⟨row, hrow', hpending, hmem⟩)
    · intro j held r hread hdone
      exact (h.covered j held r hread hdone).insert hfree

theorem accounted_step {site : Site tau} (s : Shared tau) (move : Move tau)
    (s' : Shared tau) (h : Accounted s) (hkeeps : s.KeepsObservers site move)
    (hstep : s.step site move = some s') : Accounted s' := by
  cases move with
  | find i invokeKey => exact h.find hkeeps hstep
  | delete i => exact h.delete hkeeps hstep
  | addObserver i => exact h.addObserver hkeeps hstep
  | read i response => exact h.read hstep
  | update i => exact h.update hkeeps hstep
  | notify i => exact h.notify hstep
  | create ctx response reqEvent =>
      rw [← Option.some.inj hstep]
      exact h.create _ ctx response _ reqEvent
  | pass outside =>
      rw [← Option.some.inj hstep]
      exact ⟨h.answered, h.covered⟩

/-- In every interleaving whose steps keep the observers, no observer is
dropped. -/
theorem none_dropped {site : Site tau} {w : CachedWorld tau}
    {moves : List (Move tau)} {t : Shared tau}
    (hmeets : StepsMeet (step site) (KeepsObservers site) (init w) moves)
    (hrun : run (step site) (init w) moves = some t) : t.NoneDropped := by
  have haccounted : Accounted t :=
    run_invariant_of_meets accounted_step (accounted_init w) hmeets hrun
  intro hquiet invokeKey hanswered
  rcases haccounted.answered invokeKey hanswered with hdone |
    ⟨i, invokeKeys, response, hupdated, _⟩ | hwaits
  · exact Or.inl hdone
  · rw [hquiet i] at hupdated
    cases hupdated
  · exact Or.inr hwaits

/-! ## An observer between the lookup and the update -/

def petSite : Site Bool where
  backend := petBackend
  endpoint := minuteEndpoint
  cacheKey := minuteEndpoint.name
  cacheTtl := some 60
  cacheable := rfl

def petFound (later : List (Move Bool)) : List (Move Bool) :=
  .create
      { petStatus with
          cacheKey := some petSite.cacheKey, cacheTtl := petSite.cacheTtl }
      (some .pending) (petCall none) ::
    .find 0 "-a".toList :: later

/-- The request observes the row before the callback reads it. -/
def inTime : List (Move Bool) :=
  petFound [.addObserver 0, .read 1 (some (.ofData tom)), .update 1,
    .notify 1]

theorem none_dropped_inTime :
    ((run (step petSite) (init ⟨.empty, [], false⟩) inTime).get
      rfl).NoneDropped := by
  refine @none_dropped Bool petSite ⟨.empty, [], false⟩ inTime _ ?_
    (Option.some_get _).symm
  refine ⟨True.intro, fun s1 h1 => ⟨?_, fun s2 h2 => ⟨?_, fun s3 h3 =>
    ⟨True.intro, fun s4 h4 => ⟨?_, fun _ _ => ⟨True.intro, fun _ _ =>
      True.intro⟩⟩⟩⟩⟩⟩
  · intro row hsync
    cases hsync
  · rcases Option.some.inj h1
    rcases Option.some.inj h2
    intro held invokeKey row hstage hrow
    rw [List.mem_singleton.mp hrow.left]
    refine ⟨rfl, ?_⟩
    intro j other response hread
    cases j with
    | zero => cases hread
    | succ j => cases hread
  · rcases Option.some.inj h1
    rcases Option.some.inj h2
    rcases Option.some.inj h3
    rcases Option.some.inj h4
    intro row response hread _
    cases hread
    rw [notifiedKeys_of_nodup (by decide)]
    exact fun _ => id

def tooLate : List (Move Bool) :=
  petFound [.read 1 (some (.ofData tom)), .addObserver 0, .update 1,
    .notify 1]

theorem tooLate_drops :
    exists t,
      run (step petSite) (init ⟨.empty, [], false⟩) tooLate = some t ∧
        t.answered = ["-a".toList] ∧ t.world.resumed = [] ∧
        ¬ t.NoneDropped := by
  refine ⟨_, rfl, rfl, rfl, ?_⟩
  intro h
  have hquiet : Quiet ((run (step petSite) (init ⟨.empty, [], false⟩)
      tooLate).get rfl) := by
    intro i
    match i with
    | 0 => rfl
    | 1 => rfl
    | i + 2 => rfl
  rcases h hquiet "-a".toList List.mem_cons_self with ⟨d, hmem⟩ |
    ⟨row, hrow, hpending, _⟩
  · cases hmem
  · rw [List.mem_singleton.mp hrow] at hpending
    cases hpending

end Shared
end Cached
end CallgentApi
