import CallgentApi.Cached.Routes
import CallgentApi.Lib.Transition

/-!
# The chain of a request, one operation of the cache at a time

A lookup reads the row and then writes: it deletes the row or observes it.  The
other processors of the chain use the cache once at most.
-/

namespace CallgentApi
namespace Cached

open Js Event Realms Invoke Effect Transition

variable {tau : Type}

/-! ## The two operations of a lookup -/

inductive Held where
  | nothing
  | delete (pk : Nat)
  | addObserver (pk : Nat) (invokeKey : Text)

def Held.write : Held -> Effect (CachedWorld tau) Thrown Unit
  | .nothing => return ()
  | .delete pk => Cached.delete pk
  | .addObserver pk invokeKey => Cached.addObserver pk invokeKey

/-- `fromCached` up to its write: what it returns and what it writes before. -/
def lookup (b : Backend tau) (invokeId : Text) (endpoint : EndpointDto)
    (reqEvent : EventObject) :
    Effect (CachedWorld tau) Thrown (CachedLookup × Held) :=
  match loadCacheConfig b endpoint reqEvent with
  | .error e => throw e
  | .ok none => return (⟨none, none, none⟩, .nothing)
  | .ok (some (cacheKey, cacheTtl)) =>
      if reallyCache (some cacheKey) cacheTtl endpoint then do
        match ← findOne cacheKey endpoint.id with
        | none => return (⟨some cacheKey, cacheTtl, none⟩, .nothing)
        | some row =>
            let w ← get
            if isExpired row cacheTtl endpoint (b.now w.outside) then
              return (⟨some cacheKey, cacheTtl, none⟩, .delete row.pk)
            else
              let held : Held :=
                if endpoint.isAsync ∧ row.value.response.statusCode = some 2 then
                  .addObserver row.pk (observerKey invokeId reqEvent.id)
                else .nothing
              return (⟨some cacheKey, cacheTtl, some row.value.response⟩, held)
      else return (⟨some cacheKey, cacheTtl, none⟩, .nothing)

def writeThenReturn (found : CachedLookup × Held) :
    Effect (CachedWorld tau) Thrown CachedLookup := do
  found.2.write
  return found.1

theorem exec_lookup_write (b : Backend tau) (invokeId : Text)
    (endpoint : EndpointDto) (reqEvent : EventObject) (w : CachedWorld tau) :
    exec (lookup b invokeId endpoint reqEvent >>= writeThenReturn) w =
      exec (fromCached b invokeId endpoint reqEvent) w := by
  unfold lookup fromCached
  cases loadCacheConfig b endpoint reqEvent with
  | error e => rfl
  | ok config =>
      cases config with
      | none => rfl
      | some config =>
          rcases config with ⟨cacheKey, cacheTtl⟩
          dsimp only
          split
          · rw [bind_assoc]
            rw [exec_bind_of_ok (exec_findOne cacheKey endpoint.id w),
              exec_bind_of_ok (exec_findOne cacheKey endpoint.id w)]
            cases w.cached.findUnique ⟨endpoint.id, cacheKey⟩ with
            | none => rfl
            | some row =>
                dsimp only
                rw [bind_assoc]
                rw [exec_bind_of_ok (exec_get w),
                  exec_bind_of_ok (exec_get w)]
                split
                · rfl
                · unfold observe
                  split
                  · rfl
                  · rfl
          · rfl

theorem snd_exec_lookup (b : Backend tau) (invokeId : Text)
    (endpoint : EndpointDto) (reqEvent : EventObject) (w : CachedWorld tau) :
    (exec (lookup b invokeId endpoint reqEvent) w).2 = w := by
  unfold lookup
  split
  · rfl
  · rfl
  · split
    · rw [exec_bind_of_ok (exec_findOne _ endpoint.id w)]
      split
      · rfl
      · rw [exec_bind_of_ok (exec_get w)]
        split
        · rfl
        · rfl
    · rfl

/-! ## The chain in steps -/

/-- Where the chain of a request stands: before a processor, after the read of
its lookup, or where a processor has ended it. -/
inductive Place (tau : Type) where
  | before (rest : List (SepProcessor (CachedWorld tau)))
      (status : InvokeStatus) (preData : Option PendingOrResponse)
  | found (rest : List (SepProcessor (CachedWorld tau)))
      (status : InvokeStatus) (cached : CachedLookup) (held : Held)
  | ended (name : Text)
      (result : Except Thrown (InvokeStatus × Option PendingOrResponse))

/-- `InvokeCached` from its write on. -/
def foundProcessor (cached : CachedLookup) (held : Held) :
    SepProcessor (CachedWorld tau) where
  getName := cachedName
  body ctx _ _ := do
    Action.outside held.write
    match cached.response with
    | none => return (withCacheKey ctx cached, none)
    | some response => return (end_ (withCacheKey ctx cached), some response)

def goOn (name : Text) (rest : List (SepProcessor (CachedWorld tau))) :
    Except Thrown Processed -> Place tau
  | .error e => .ended name (.error e)
  | .ok r =>
      if r.stop then .ended name (.ok (r.ctx, r.data))
      else .before rest r.ctx r.data

structure Client (tau : Type) where
  place : Place tau
  call : CallState (CachedWorld tau)

def Client.process (c : Client tau) (endpoint : EndpointDto)
    (p : SepProcessor (CachedWorld tau))
    (rest : List (SepProcessor (CachedWorld tau))) (status : InvokeStatus)
    (preData : Option PendingOrResponse) : Client tau :=
  let next := rest.head?.map SepProcessor.getName
  let r := (p.process status endpoint next preData).exec c.call
  ⟨goOn p.getName rest r.1, r.2⟩

def Client.find (b : Backend tau) (c : Client tau) (endpoint : EndpointDto)
    (rest : List (SepProcessor (CachedWorld tau))) (status : InvokeStatus) :
    Client tau :=
  let r := exec (lookup b status.invokeId endpoint c.call.event)
    c.call.world.outside
  match r.1 with
  | .error e => ⟨.ended cachedName (.error e), c.call⟩
  | .ok (cached, held) => ⟨.found rest status cached held, c.call⟩

/-- One step of the chain; `none` once it has ended. -/
def Client.step (b : Backend tau) (endpoint : EndpointDto)
    (c : Client tau) : Option (Client tau) :=
  match c.place with
  | .before [] status _ => some ⟨.ended [] (.ok (status, none)), c.call⟩
  | .before (p :: rest) status preData =>
      if isAt (startedAt status p.getName) p.getName then
        if p.getName = cachedName then
          some (c.find b endpoint rest (startedAt status p.getName))
        else
          some (c.process endpoint p rest (startedAt status p.getName) preData)
      else some ⟨.before rest (startedAt status p.getName) preData, c.call⟩
  | .found rest status cached held =>
      some (c.process endpoint (foundProcessor cached held) rest status none)
  | .ended _ _ => none

section Step

variable {p : SepProcessor (CachedWorld tau)} {status : InvokeStatus}

theorem Client.step_lookup (b : Backend tau) (endpoint : EndpointDto)
    (rest : List (SepProcessor (CachedWorld tau)))
    (preData : Option PendingOrResponse) (s : CallState (CachedWorld tau))
    (hat : isAt (startedAt status p.getName) p.getName = true)
    (hname : p.getName = cachedName) :
    Client.step b endpoint ⟨.before (p :: rest) status preData, s⟩ =
      some (Client.find b ⟨.before (p :: rest) status preData, s⟩ endpoint
        rest (startedAt status p.getName)) := by
  unfold Client.step
  dsimp only
  rw [if_pos hat, if_pos hname]

theorem Client.step_process (b : Backend tau) (endpoint : EndpointDto)
    (rest : List (SepProcessor (CachedWorld tau)))
    (preData : Option PendingOrResponse) (s : CallState (CachedWorld tau))
    (hat : isAt (startedAt status p.getName) p.getName = true)
    (hname : p.getName ≠ cachedName) :
    Client.step b endpoint ⟨.before (p :: rest) status preData, s⟩ =
      some (Client.process ⟨.before (p :: rest) status preData, s⟩ endpoint p
        rest (startedAt status p.getName) preData) := by
  unfold Client.step
  dsimp only
  rw [if_pos hat, if_neg hname]

end Step

def Client.alone (b : Backend tau) (endpoint : EndpointDto) (c : Client tau)
    (n : Nat) : Option (Client tau) :=
  run (fun c (_ : Unit) => c.step b endpoint) c (List.replicate n ())

theorem Client.alone_succ {b : Backend tau} {endpoint : EndpointDto}
    {c c' : Client tau} (h : c.step b endpoint = some c') (n : Nat) :
    c.alone b endpoint (n + 1) = c'.alone b endpoint n := by
  unfold alone
  rw [List.replicate_succ, run, h]

theorem exec_outside_fromCached (b : Backend tau) (endpoint : EndpointDto)
    (invokeId : Text) (s : CallState (CachedWorld tau)) :
    (Action.outside (fromCached b invokeId endpoint s.event)).exec s =
      match (exec (lookup b invokeId endpoint s.event) s.world.outside).1 with
      | .error e => (.error e, s)
      | .ok found => (Action.outside (writeThenReturn found)).exec s := by
  have hreads := snd_exec_lookup b invokeId endpoint s.event s.world.outside
  have hwhole := exec_lookup_write b invokeId endpoint s.event s.world.outside
  cases hlookup : exec (lookup b invokeId endpoint s.event)
      s.world.outside with
  | mk result w =>
      rw [hlookup] at hreads
      change w = s.world.outside at hreads
      rw [hreads] at hlookup
      unfold Action.outside
      rw [exec_zoom, ← hwhole]
      cases result with
      | error e =>
          rw [exec_bind_of_error hlookup]
      | ok found =>
          rw [exec_bind_of_ok hlookup]
          rfl

theorem exec_sepCached_process (b : Backend tau) (endpoint : EndpointDto)
    (status : InvokeStatus) (next : Option Text)
    (preData : Option PendingOrResponse) (s : CallState (CachedWorld tau)) :
    ((sepCachedProcessor b.chainHost).process status endpoint next
        preData).exec s =
      match (exec (lookup b status.invokeId endpoint s.event)
          s.world.outside).1 with
      | .error e => (.error e, s)
      | .ok (cached, held) =>
          ((foundProcessor cached held).process status endpoint next
            none).exec s := by
  have hfrom := exec_outside_fromCached b endpoint status.invokeId s
  have hbody : ((sepCachedProcessor b.chainHost).body status endpoint
      preData).exec s =
        match (exec (lookup b status.invokeId endpoint s.event)
            s.world.outside).1 with
        | .error e => (.error e, s)
        | .ok (cached, held) =>
            ((foundProcessor cached held).body status endpoint none).exec s := by
    unfold sepCachedProcessor foundProcessor
    dsimp only
    rw [exec_bind_of_ok (exec_getEvent s)]
    show (Action.outside (fromCached b status.invokeId endpoint s.event) >>=
      _).exec s = _
    rw [exec_bind, hfrom]
    cases (exec (lookup b status.invokeId endpoint s.event)
        s.world.outside).1 with
    | error e => rfl
    | ok found =>
        rcases found with ⟨cached, held⟩
        dsimp only
        rw [exec_bind]
        unfold writeThenReturn Action.outside
        rw [exec_zoom, exec_zoom, exec_bind]
        cases exec (held.write : Effect (CachedWorld tau) Thrown Unit)
            s.world.outside with
        | mk result w =>
            cases result with
            | error e => rfl
            | ok _ => rfl
  unfold SepProcessor.process
  rw [exec_bind, hbody]
  cases (exec (lookup b status.invokeId endpoint s.event)
      s.world.outside).1 with
  | error e => rfl
  | ok found =>
      rcases found with ⟨cached, held⟩
      exact (exec_bind _ _ _).symm

def restOfLoop (endpoint : EndpointDto)
    (rest : List (SepProcessor (CachedWorld tau))) :
    Except Thrown Processed ->
      Action (CachedWorld tau) (InvokeStatus × Option PendingOrResponse)
  | .error e => throw e
  | .ok r =>
      if r.stop then return (r.ctx, r.data)
      else runChain endpoint rest r.ctx r.data

/-- The client ends alone with the result and the state of the action. -/
def EndsAs (b : Backend tau) (endpoint : EndpointDto) (c : Client tau)
    (x : Action (CachedWorld tau) (InvokeStatus × Option PendingOrResponse))
    (s : CallState (CachedWorld tau)) : Prop :=
  exists n name,
    c.alone b endpoint n = some ⟨.ended name (x.exec s).1, (x.exec s).2⟩

theorem EndsAs.of_step {b : Backend tau} {endpoint : EndpointDto}
    {c c' : Client tau}
    {x : Action (CachedWorld tau) (InvokeStatus × Option PendingOrResponse)}
    {s : CallState (CachedWorld tau)} (hstep : c.step b endpoint = some c')
    (h : EndsAs b endpoint c' x s) : EndsAs b endpoint c x s := by
  rcases h with ⟨n, name, halone⟩
  refine ⟨n + 1, name, ?_⟩
  rw [Client.alone_succ hstep]
  exact halone

theorem EndsAs.congr {b : Backend tau} {endpoint : EndpointDto}
    {c : Client tau}
    {x y : Action (CachedWorld tau) (InvokeStatus × Option PendingOrResponse)}
    {s s' : CallState (CachedWorld tau)} (h : EndsAs b endpoint c x s)
    (heq : x.exec s = y.exec s') : EndsAs b endpoint c y s' := by
  unfold EndsAs
  rw [← heq]
  exact h

theorem alone_eq_runChain {b : Backend tau} {endpoint : EndpointDto}
    {rest : List (SepProcessor (CachedWorld tau))}
    (hcached : forall p, p ∈ rest -> p.getName = cachedName ->
      p = sepCachedProcessor b.chainHost)
    (status : InvokeStatus) (preData : Option PendingOrResponse)
    (s : CallState (CachedWorld tau)) :
    EndsAs b endpoint ⟨.before rest status preData, s⟩
      (runChain endpoint rest status preData) s := by
  induction rest generalizing status preData s with
  | nil => exact ⟨1, [], rfl⟩
  | cons p rest ih =>
      have hrest : forall q, q ∈ rest -> q.getName = cachedName ->
          q = sepCachedProcessor b.chainHost :=
        fun q hq => hcached q (List.mem_cons_of_mem p hq)
      have hgoOn : forall name (r : Except Thrown Processed)
          (s : CallState (CachedWorld tau)),
          EndsAs b endpoint ⟨goOn name rest r, s⟩
            (restOfLoop endpoint rest r) s := by
        intro name r s
        cases r with
        | error e => exact ⟨0, name, rfl⟩
        | ok r =>
            unfold goOn restOfLoop
            dsimp only
            split
            · exact ⟨0, name, rfl⟩
            · exact ih hrest r.ctx r.data s
      -- a processor that runs in one step, and the loop after it
      have hprocess : forall (q : SepProcessor (CachedWorld tau)) status
          preData (c : Client tau),
          EndsAs b endpoint (c.process endpoint q rest status preData)
            (q.process status endpoint (rest.head?.map SepProcessor.getName)
              preData >>= fun r => restOfLoop endpoint rest (.ok r))
            c.call := by
        intro q status preData c
        unfold Client.process
        dsimp only
        cases hexec : (q.process status endpoint
            (rest.head?.map SepProcessor.getName) preData).exec c.call with
        | mk r next =>
            apply (hgoOn q.getName r next).congr
            rw [exec_bind, hexec]
            cases r with
            | error e => rfl
            | ok r => rfl
      unfold runChain
      split
      · rename_i hat
        by_cases hname : p.getName = cachedName
        · have hstep := Client.step_lookup b endpoint rest preData s hat hname
          rw [hcached p List.mem_cons_self hname] at hat hstep ⊢
          have hsplit := exec_sepCached_process b endpoint
            (startedAt status (sepCachedProcessor b.chainHost).getName)
            (rest.head?.map SepProcessor.getName) preData s
          apply EndsAs.of_step hstep
          unfold Client.find
          dsimp only
          cases hlookup : (exec (lookup b
              (startedAt status (sepCachedProcessor b.chainHost).getName
                ).invokeId endpoint s.event) s.world.outside).1 with
          | error e =>
              rw [hlookup] at hsplit
              refine ⟨0, cachedName, ?_⟩
              rw [exec_bind, hsplit]
              rfl
          | ok found =>
              rcases found with ⟨cached, held⟩
              rw [hlookup] at hsplit
              apply EndsAs.of_step rfl
              apply (hprocess _ _ _ _).congr
              rw [exec_bind, exec_bind, hsplit]
              rfl
        · have hstep := Client.step_process b endpoint rest preData s hat hname
          exact EndsAs.of_step hstep (hprocess p _ _ _)
      · rename_i hat
        have hstep : Client.step b endpoint
            ⟨.before (p :: rest) status preData, s⟩ =
              some ⟨.before rest (startedAt status p.getName) preData, s⟩ := by
          unfold Client.step
          dsimp only
          rw [if_neg hat]
        exact EndsAs.of_step hstep (ih hrest _ _ _)

/-- A request whose chain is entered at its first processor. -/
def Client.enter (b : Backend tau) (status : InvokeStatus)
    (s : CallState (CachedWorld tau)) : Client tau where
  place := .before (processors b.chainHost) status
    (some (.ofData status.response))
  call := s

theorem enter_endsAs_chain (b : Backend tau) {endpoint : EndpointDto}
    {status : InvokeStatus} {s : CallState (CachedWorld tau)}
    (hfinds : Finds endpoint status s) (hopen : chainOpen status = true) :
    EndsAs b endpoint (.enter b status s) (chain b.chainHost status) s := by
  have hcached : forall p, p ∈ processors b.chainHost ->
      p.getName = cachedName -> p = sepCachedProcessor b.chainHost := by
    intro p hp hname
    simp only [processors, List.mem_cons, List.not_mem_nil, or_false] at hp
    rcases hp with rfl | rfl | rfl | rfl | rfl | rfl | rfl
    · exact absurd hname (show authName ≠ cachedName by decide)
    · rfl
    · exact absurd hname (show sepName ≠ cachedName by decide)
    · exact absurd hname (show postprocessName ≠ cachedName by decide)
    · exact absurd hname (show cacheName ≠ cachedName by decide)
    · exact absurd hname (show callbackPostprocessName ≠ cachedName by decide)
    · exact absurd hname (show callbackName ≠ cachedName by decide)
  apply (alone_eq_runChain hcached status _ s).congr
  rw [exec_chain_open hfinds hopen]

end Cached
end CallgentApi
