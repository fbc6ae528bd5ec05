import CallgentApi.Invoke.Chain

/-!
# Passages through the chain

One call of the chain enters some of its processors.  Between two calls the
invocation stands at a processor, or has ended.
-/

namespace CallgentApi
namespace Invoke

open Js Event Realms Effect

variable {sigma : Type}

/-- The names of the processors that the loop enters. -/
def entered (endpoint : EndpointDto) :
    List (SepProcessor sigma) -> InvokeStatus -> Option PendingOrResponse ->
      CallState sigma -> List Text
  | [], _, _, _ => []
  | p :: rest, status, preData, s =>
      if isAt (startedAt status p.getName) p.getName then
        p.getName ::
          match (p.process (startedAt status p.getName) endpoint
              (rest.head?.map SepProcessor.getName) preData).exec s with
          | (.ok r, next) =>
              if r.stop then [] else entered endpoint rest r.ctx r.data next
          | (.error _, _) => []
      else entered endpoint rest (startedAt status p.getName) preData s

def enteredByChain (host : ChainHost sigma) (status : InvokeStatus)
    (s : CallState sigma) : List Text :=
  match s.event.context.endpoints with
  | none => []
  | some endpoints =>
      match endpoints.find? fun e => some e.name == status.epName with
      | none => []
      | some endpoint =>
          if chainOpen status then
            entered endpoint (processors host) status
              (some (.ofData status.response)) s
          else []

/-- The result of a chain and the state it leaves. -/
abbrev ChainEnd (sigma : Type) :=
  Except Thrown (InvokeStatus × Option PendingOrResponse) × CallState sigma

/-- How the loop goes on at each processor, with the names it enters and its
end. -/
inductive Passage (endpoint : EndpointDto) :
    List (SepProcessor sigma) -> InvokeStatus -> Option PendingOrResponse ->
      CallState sigma -> List Text -> ChainEnd sigma -> Prop where
  | off {status preData s} :
      Passage endpoint [] status preData s [] (.ok (status, none), s)
  | skips {p rest status preData s trace last}
      (hnot : isAt (startedAt status p.getName) p.getName = false)
      (hrest : Passage endpoint rest (startedAt status p.getName) preData s
        trace last) :
      Passage endpoint (p :: rest) status preData s trace last
  | throws {p rest status preData s e next}
      (hat : isAt (startedAt status p.getName) p.getName = true)
      (hexec : (p.process (startedAt status p.getName) endpoint
          (rest.head?.map SepProcessor.getName) preData).exec s =
        (.error e, next)) :
      Passage endpoint (p :: rest) status preData s [p.getName]
        (.error e, next)
  | stops {p rest status preData s r next}
      (hat : isAt (startedAt status p.getName) p.getName = true)
      (hexec : (p.process (startedAt status p.getName) endpoint
          (rest.head?.map SepProcessor.getName) preData).exec s =
        (.ok r, next))
      (hstop : r.stop = true) :
      Passage endpoint (p :: rest) status preData s [p.getName]
        (.ok (r.ctx, r.data), next)
  | passes {p rest status preData s r next trace last}
      (hat : isAt (startedAt status p.getName) p.getName = true)
      (hexec : (p.process (startedAt status p.getName) endpoint
          (rest.head?.map SepProcessor.getName) preData).exec s =
        (.ok r, next))
      (hpass : r.stop = false)
      (hrest : Passage endpoint rest r.ctx r.data next trace last) :
      Passage endpoint (p :: rest) status preData s (p.getName :: trace) last

section Passages

variable {endpoint : EndpointDto} {p : SepProcessor sigma}
  {ps rest : List (SepProcessor sigma)} {status : InvokeStatus}
  {preData : Option PendingOrResponse} {s : CallState sigma}
  {trace : List Text} {last : ChainEnd sigma}

theorem Passage.exec_runChain
    (h : Passage endpoint ps status preData s trace last) :
    (runChain endpoint ps status preData).exec s = last := by
  induction h with
  | off => rfl
  | skips hnot hrest ih =>
      unfold runChain
      rw [hnot]
      exact ih
  | throws hat hexec =>
      unfold runChain
      rw [if_pos hat]
      exact exec_bind_of_error hexec _
  | stops hat hexec hstop =>
      unfold runChain
      rw [if_pos hat]
      dsimp only
      rw [exec_bind_of_ok hexec, if_pos hstop]
      rfl
  | passes hat hexec hpass hrest ih =>
      unfold runChain
      rw [if_pos hat]
      dsimp only
      rw [exec_bind_of_ok hexec, hpass]
      exact ih

theorem passage_entered (endpoint : EndpointDto)
    (ps : List (SepProcessor sigma)) (status : InvokeStatus)
    (preData : Option PendingOrResponse) (s : CallState sigma) :
    Passage endpoint ps status preData s
      (entered endpoint ps status preData s)
      ((runChain endpoint ps status preData).exec s) := by
  induction ps generalizing status preData s with
  | nil => exact Passage.off
  | cons p rest ih =>
      by_cases hat : isAt (startedAt status p.getName) p.getName = true
      · cases hexec : (p.process (startedAt status p.getName) endpoint
            (rest.head?.map SepProcessor.getName) preData).exec s with
        | mk result next =>
            cases result with
            | error e =>
                have hthrows : Passage endpoint (p :: rest) status preData s
                    [p.getName] (.error e, next) :=
                  Passage.throws hat hexec
                rw [hthrows.exec_runChain]
                unfold entered
                rw [if_pos hat, hexec]
                exact hthrows
            | ok r =>
                cases hstop : r.stop with
                | true =>
                    have hstops : Passage endpoint (p :: rest) status preData s
                        [p.getName] (.ok (r.ctx, r.data), next) :=
                      Passage.stops hat hexec hstop
                    rw [hstops.exec_runChain]
                    unfold entered
                    rw [if_pos hat, hexec]
                    dsimp only
                    rw [if_pos hstop]
                    exact hstops
                | false =>
                    have hpasses := Passage.passes hat hexec hstop
                      (ih r.ctx r.data next)
                    rw [hpasses.exec_runChain]
                    unfold entered
                    rw [if_pos hat, hexec]
                    dsimp only
                    rw [hstop]
                    exact hpasses
      · have hnot := Bool.eq_false_iff.mpr hat
        have hskips := Passage.skips hnot
          (ih (startedAt status p.getName) preData s)
        rw [hskips.exec_runChain]
        unfold entered
        rw [hnot]
        exact hskips

end Passages

/-! ## Where an invocation stands -/

/-- The invocation stands at the processor of the name; without a name, the
chain has ended. -/
def StandsAt (name : Option Text) (status : InvokeStatus) : Prop :=
  exists ctx, status.processor = some ⟨name, ctx, none⟩

namespace StandsAt

variable {name : Text} {status : InvokeStatus}

theorem startedAt_eq {name : Option Text} (h : StandsAt name status)
    (first : Text) : startedAt status first = status := by
  rcases h with ⟨ctx, hctx⟩
  unfold startedAt
  rw [hctx]

theorem isAt_eq {name : Option Text} (h : StandsAt name status)
    (other : Text) : isAt status other = (name == some other) := by
  rcases h with ⟨ctx, hctx⟩
  unfold isAt
  rw [hctx]
  rfl

theorem isAt_self (h : StandsAt (some name) status) :
    isAt (startedAt status name) name = true := by
  rw [h.startedAt_eq, h.isAt_eq]
  exact beq_self_eq_true _

theorem isAt_ne (h : StandsAt (some name) status) {other : Text}
    (hne : name ≠ other) :
    isAt (startedAt status other) other = false := by
  rw [h.startedAt_eq, h.isAt_eq]
  exact beq_false_of_ne fun heq => hne (Option.some.inj heq)

end StandsAt

theorem exec_process_of_body {p : SepProcessor sigma}
    {status ctx : InvokeStatus} {endpoint : EndpointDto}
    {preData data : Option PendingOrResponse} {s next : CallState sigma}
    {place : ProcessorState} (hplace : ctx.processor = some place)
    (hbody : (p.body status endpoint preData).exec s = (.ok (ctx, data), next))
    (nextProcessor : Option Text) :
    (p.process status endpoint nextProcessor preData).exec s =
      (.ok { ctx :=
              { ctx with processor := some (advance nextProcessor place).1 }
             data := data
             stop := (advance nextProcessor place).2 }, next) := by
  unfold SepProcessor.process
  rw [exec_bind_of_ok hbody]
  dsimp only
  rw [hplace]
  rfl

theorem exec_process_of_error {p : SepProcessor sigma} {status : InvokeStatus}
    {endpoint : EndpointDto} {preData : Option PendingOrResponse}
    {s next : CallState sigma} {e : Thrown}
    (hbody : (p.body status endpoint preData).exec s = (.error e, next))
    (nextProcessor : Option Text) :
    (p.process status endpoint nextProcessor preData).exec s =
      (.error e, next) :=
  exec_bind_of_error hbody _

theorem exec_process_eq_ok {p : SepProcessor sigma} {status : InvokeStatus}
    {endpoint : EndpointDto} {nextProcessor : Option Text}
    {preData : Option PendingOrResponse} {s next : CallState sigma}
    {r : Processed}
    (h : (p.process status endpoint nextProcessor preData).exec s =
      (.ok r, next)) :
    exists ctx place,
      (p.body status endpoint preData).exec s = (.ok (ctx, r.data), next) ∧
      ctx.processor = some place ∧
      r.ctx.processor = some (advance nextProcessor place).1 ∧
      r.stop = (advance nextProcessor place).2 := by
  rcases exec_bind_eq_ok h with ⟨⟨ctx, data⟩, middle, hbody, hrest⟩
  dsimp only at hrest
  cases hplace : ctx.processor with
  | none =>
      rw [hplace] at hrest
      have hthrew := congrArg Prod.fst hrest
      cases hthrew
  | some place =>
      rw [hplace] at hrest
      cases hrest
      exact ⟨ctx, place, hbody, hplace, rfl, rfl⟩

section Advance

variable {nextProcessor : Option Text} {name : Text} {memory : Option Text}

theorem advance_open (hname : name ≠ []) :
    advance nextProcessor ⟨some name, memory, none⟩ =
      (⟨nextProcessor, memory, none⟩, (truthy nextProcessor).isNone) := by
  simp [advance, truthy_some_of_ne_nil hname]

theorem advance_break_current :
    advance nextProcessor ⟨some name, memory, some true⟩ =
      (⟨some name, memory, none⟩, true) := by
  simp [advance]

theorem advance_break_next (hname : name ≠ []) :
    advance nextProcessor ⟨some name, memory, some false⟩ =
      (⟨nextProcessor, memory, none⟩, true) := by
  simp [advance, truthy_some_of_ne_nil hname]

theorem advance_end :
    advance nextProcessor ⟨none, memory, none⟩ =
      (⟨none, memory, none⟩, true) := by
  simp [advance]

end Advance

/-- The invocation has gone to a place where the chain stops or not. -/
structure GoesTo (name : Option Text) (stop : Bool) (r : Processed) :
    Prop where
  stands : StandsAt name r.ctx
  stop_eq : r.stop = stop

theorem GoesTo.of_advance {r : Processed} {nextProcessor name : Option Text}
    {place : ProcessorState} {memory : Option Text} {stop : Bool}
    (hprocessor : r.ctx.processor = some (advance nextProcessor place).1)
    (hstop : r.stop = (advance nextProcessor place).2)
    (hadvance : advance nextProcessor place = (⟨name, memory, none⟩, stop)) :
    GoesTo name stop r := by
  rw [hadvance] at hprocessor hstop
  constructor
  · exists memory
  · exact hstop

/-! ## What each processor does -/

def authName : Text := "InvokeAuth".toList
def cachedName : Text := "InvokeCached".toList
def sepName : Text := "InvokeSep".toList
def postprocessName : Text := "InvokePostprocess".toList
def cacheName : Text := "InvokeCache".toList
def callbackPostprocessName : Text := "CallbackPostprocess".toList
def callbackName : Text := "InvokeCallback".toList

section Processors

variable {host : ChainHost sigma} {status : InvokeStatus}
  {endpoint : EndpointDto} {nextProcessor : Option Text}
  {preData : Option PendingOrResponse} {s next : CallState sigma}
  {r : Processed}

theorem process_goes_on {p : SepProcessor sigma} {name : Text}
    (hname : name ≠ []) (hat : StandsAt (some name) status)
    (hbody : forall ctx data,
      (p.body status endpoint preData).exec s = (.ok (ctx, data), next) ->
        ctx.processor = status.processor)
    (h : (p.process status endpoint nextProcessor preData).exec s =
      (.ok r, next)) :
    GoesTo nextProcessor (truthy nextProcessor).isNone r := by
  rcases exec_process_eq_ok h with
    ⟨ctx, place, hok, hplace, hprocessor, hstop⟩
  rcases hat with ⟨memory, hmemory⟩
  rw [hbody ctx r.data hok, hmemory] at hplace
  cases hplace
  exact GoesTo.of_advance hprocessor hstop (advance_open hname)

theorem process_sepAuth (hat : StandsAt (some authName) status)
    (h : ((sepAuthProcessor host).process status endpoint nextProcessor
      preData).exec s = (.ok r, next)) :
    GoesTo nextProcessor (truthy nextProcessor).isNone r ∨
      (GoesTo (some authName) true r ∧ r.data = some .pending) := by
  rcases exec_process_eq_ok h with
    ⟨ctx, place, hbody, hplace, hprocessor, hstop⟩
  rcases hat with ⟨memory, hmemory⟩
  rcases exec_bind_eq_ok hbody with ⟨returned, middle, _, hrest⟩
  split at hrest
  · have hctx := congrArg Prod.fst (exec_pure_eq_ok hrest).left
    change status = ctx at hctx
    rw [← hctx, hmemory] at hplace
    cases hplace
    apply Or.inl
    exact GoesTo.of_advance hprocessor hstop
      (advance_open (List.cons_ne_nil _ _))
  · have hvalue := (exec_pure_eq_ok hrest).left
    have hctx := congrArg Prod.fst hvalue
    have hdata := congrArg Prod.snd hvalue
    dsimp only at hctx hdata
    rw [← hctx] at hplace
    simp only [break_, withProcessor, hmemory, Option.map_some,
      Option.some.injEq] at hplace
    rw [← hplace] at hprocessor hstop
    apply Or.inr
    constructor
    · exact GoesTo.of_advance hprocessor hstop advance_break_current
    · exact hdata.symm

theorem processor_withCacheKey (ctx : InvokeStatus) (cached : CachedLookup) :
    (withCacheKey ctx cached).processor = ctx.processor := by
  unfold withCacheKey
  split
  · rfl
  · rfl

theorem process_sepCached (hat : StandsAt (some cachedName) status)
    (h : ((sepCachedProcessor host).process status endpoint nextProcessor
      preData).exec s = (.ok r, next)) :
    GoesTo nextProcessor (truthy nextProcessor).isNone r ∨
      GoesTo none true r := by
  rcases exec_process_eq_ok h with
    ⟨ctx, place, hbody, hplace, hprocessor, hstop⟩
  rcases hat with ⟨memory, hmemory⟩
  rcases exec_bind_eq_ok hbody with ⟨reqEvent, _, _, hrest⟩
  rcases exec_bind_eq_ok hrest with ⟨cached, middle, _, hlast⟩
  split at hlast
  · have hctx := congrArg Prod.fst (exec_pure_eq_ok hlast).left
    dsimp only at hctx
    rw [← hctx, processor_withCacheKey, hmemory] at hplace
    cases hplace
    apply Or.inl
    exact GoesTo.of_advance hprocessor hstop
      (advance_open (List.cons_ne_nil _ _))
  · have hctx := congrArg Prod.fst (exec_pure_eq_ok hlast).left
    dsimp only at hctx
    rw [← hctx] at hplace
    simp only [end_, withProcessor, processor_withCacheKey, hmemory,
      Option.map_some, Option.some.injEq] at hplace
    rw [← hplace] at hprocessor hstop
    apply Or.inr
    exact GoesTo.of_advance hprocessor hstop advance_end

theorem body_sepInvoke {ctx : InvokeStatus} {data : Option PendingOrResponse}
    (h : ((sepInvokeProcessor host).body status endpoint preData).exec s =
      (.ok (ctx, data), next)) : ctx = status := by
  rcases exec_bind_eq_ok h with ⟨reqEvent, _, _, hrest⟩
  rcases exec_bind_eq_ok hrest with ⟨sentry, _, _, hinvoke⟩
  split at hinvoke
  · cases hinvoke
  · rcases exec_bind_eq_ok hinvoke with ⟨answer, _, _, hlast⟩
    cases hlast
    rfl

theorem process_sepInvoke (hat : StandsAt (some sepName) status)
    (h : ((sepInvokeProcessor host).process status endpoint nextProcessor
      preData).exec s = (.ok r, next)) :
    GoesTo nextProcessor (truthy nextProcessor).isNone r :=
  process_goes_on (List.cons_ne_nil _ _) hat
    (fun _ _ hbody => congrArg InvokeStatus.processor (body_sepInvoke hbody)) h

theorem exec_postprocess_ok {ctx : InvokeStatus}
    {data : Option PendingOrResponse}
    (h : (postprocess host status endpoint preData).exec s =
      (.ok (ctx, data), next)) :
    ctx = status ∧
      (data = preData ∨ PendingOrResponse.isPending data = false) ∧
      (PendingOrResponse.isPending preData = false ->
        PendingOrResponse.isPending data = false) := by
  unfold postprocess at h
  split at h
  · cases h
  · split at h
    · cases h
      exact ⟨rfl, Or.inl rfl, id⟩
    · rcases exec_bind_eq_ok h with ⟨reqEvent, _, _, hrest⟩
      split at hrest
      · cases hrest
      · rcases exec_bind_eq_ok hrest with ⟨value, _, _, hlast⟩
        cases hlast
        exact ⟨rfl, Or.inr rfl, fun _ => rfl⟩

theorem process_postprocess {p : SepProcessor sigma} {name : Text}
    (hbody : p.body = postprocess host) (hname : name ≠ [])
    (hat : StandsAt (some name) status)
    (h : (p.process status endpoint nextProcessor preData).exec s =
      (.ok r, next)) :
    GoesTo nextProcessor (truthy nextProcessor).isNone r ∧
      (PendingOrResponse.isPending preData = false ->
        PendingOrResponse.isPending r.data = false) := by
  constructor
  · apply process_goes_on hname hat _ h
    intro ctx data hok
    rw [hbody] at hok
    exact congrArg InvokeStatus.processor (exec_postprocess_ok hok).left
  · rcases exec_process_eq_ok h with ⟨ctx, place, hok, _⟩
    rw [hbody] at hok
    exact (exec_postprocess_ok hok).right.right

theorem process_sepCache (hat : StandsAt (some cacheName) status)
    (h : ((sepCacheProcessor host).process status endpoint nextProcessor
      preData).exec s = (.ok r, next)) :
    r.data = preData ∧
      GoesTo (if PendingOrResponse.isPending preData then nextProcessor
        else none) true r := by
  rcases exec_process_eq_ok h with
    ⟨ctx, place, hbody, hplace, hprocessor, hstop⟩
  rcases hat with ⟨memory, hmemory⟩
  rcases exec_bind_eq_ok hbody with ⟨reqEvent, _, _, hrest⟩
  rcases exec_bind_eq_ok hrest with ⟨_, _, _, hlast⟩
  have hvalue := (exec_pure_eq_ok hlast).left
  have hctx := congrArg Prod.fst hvalue
  have hdata := congrArg Prod.snd hvalue
  dsimp only at hctx hdata
  rw [← hctx] at hplace
  constructor
  · exact hdata.symm
  · split at hplace
    · rename_i hpending
      simp only [break_, withProcessor, hmemory, Option.map_some,
        Option.some.injEq] at hplace
      rw [← hplace] at hprocessor hstop
      rw [if_pos hpending]
      exact GoesTo.of_advance hprocessor hstop
        (advance_break_next (List.cons_ne_nil _ _))
    · rename_i hdone
      simp only [end_, withProcessor, hmemory, Option.map_some,
        Option.some.injEq] at hplace
      rw [← hplace] at hprocessor hstop
      rw [if_neg hdone]
      exact GoesTo.of_advance hprocessor hstop advance_end

theorem body_sepCallback {ctx : InvokeStatus}
    {data : Option PendingOrResponse}
    (h : ((sepCallbackProcessor host).body status endpoint preData).exec s =
      (.ok (ctx, data), next)) : ctx = status ∧ data = preData := by
  rcases exec_bind_eq_ok h with ⟨_, _, _, hlast⟩
  cases hlast
  exact ⟨rfl, rfl⟩

theorem process_sepCallback (hat : StandsAt (some callbackName) status)
    (h : ((sepCallbackProcessor host).process status endpoint nextProcessor
      preData).exec s = (.ok r, next)) :
    GoesTo nextProcessor (truthy nextProcessor).isNone r ∧
      r.data = preData := by
  constructor
  · apply process_goes_on (List.cons_ne_nil _ _) hat _ h
    intro ctx data hbody
    exact congrArg InvokeStatus.processor (body_sepCallback hbody).left
  · rcases exec_process_eq_ok h with ⟨ctx, place, hbody, _⟩
    exact (body_sepCallback hbody).right

end Processors

end Invoke
end CallgentApi
