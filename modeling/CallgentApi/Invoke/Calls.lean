import CallgentApi.Invoke.Passage

/-!
# Calls of the chain

A chain that is left pending waits at the check of the invocation or for a
callback, or it has ended and waits for another invocation.
-/

namespace CallgentApi
namespace Invoke

open Js Event Realms Effect

variable {sigma : Type}

/-! ## Passages from a place -/

/-- Whether the chain has left its invocation pending. -/
def pendingEnd
    (result : Except Thrown (InvokeStatus × Option PendingOrResponse)) :
    Bool :=
  PendingOrResponse.isPending (result.toOption.bind Prod.snd)

/-- The chain has left its invocation at the name. -/
def LeftAt (name : Option Text)
    (result : Except Thrown (InvokeStatus × Option PendingOrResponse)) :
    Prop :=
  exists status resp, result = .ok (status, resp) ∧ StandsAt name status

section Places

variable {endpoint : EndpointDto} {p : SepProcessor sigma}
  {rest : List (SepProcessor sigma)} {status : InvokeStatus}
  {preData : Option PendingOrResponse} {s : CallState sigma}
  {trace : List Text} {last : ChainEnd sigma}

theorem Passage.skip {name : Text}
    (h : Passage endpoint (p :: rest) status preData s trace last)
    (hat : StandsAt (some name) status) (hne : name ≠ p.getName) :
    Passage endpoint rest status preData s trace last := by
  have hnot := hat.isAt_ne hne
  cases h with
  | skips _ hrest =>
      rw [hat.startedAt_eq] at hrest
      exact hrest
  | throws hin =>
      rw [hnot] at hin
      cases hin
  | stops hin =>
      rw [hnot] at hin
      cases hin
  | passes hin =>
      rw [hnot] at hin
      cases hin

theorem Passage.started
    (h : Passage endpoint (p :: rest) status preData s trace last)
    (hagain : startedAt (startedAt status p.getName) p.getName =
      startedAt status p.getName) :
    Passage endpoint (p :: rest) (startedAt status p.getName) preData s trace
      last := by
  cases h with
  | skips hnot hrest =>
      rw [← hagain] at hnot hrest
      exact Passage.skips hnot hrest
  | throws hin hexec =>
      rw [← hagain] at hin hexec
      exact Passage.throws hin hexec
  | stops hin hexec hstop =>
      rw [← hagain] at hin hexec
      exact Passage.stops hin hexec hstop
  | passes hin hexec hpass hrest =>
      rw [← hagain] at hin hexec
      exact Passage.passes hin hexec hpass hrest

theorem Passage.enter
    (h : Passage endpoint (p :: rest) status preData s trace last)
    (hat : StandsAt (some p.getName) status) :
    (trace = [p.getName] ∧ exists e, last.1 = .error e) ∨
      exists r next,
        (p.process status endpoint (rest.head?.map SepProcessor.getName)
          preData).exec s = (.ok r, next) ∧
        ((r.stop = true ∧ trace = [p.getName] ∧
            last = (.ok (r.ctx, r.data), next)) ∨
          (r.stop = false ∧ exists tail, trace = p.getName :: tail ∧
            Passage endpoint rest r.ctx r.data next tail last)) := by
  have hstarted := hat.startedAt_eq p.getName
  have hin := hat.isAt_self
  cases h with
  | skips hnot _ =>
      rw [hin] at hnot
      cases hnot
  | throws _ hexec => exact Or.inl ⟨rfl, _, rfl⟩
  | stops _ hexec hstop =>
      rw [hstarted] at hexec
      exact Or.inr ⟨_, _, hexec, Or.inl ⟨hstop, rfl, rfl⟩⟩
  | passes _ hexec hpass hrest =>
      rw [hstarted] at hexec
      exact Or.inr ⟨_, _, hexec, Or.inr ⟨hpass, _, rfl, hrest⟩⟩

theorem pendingEnd_of_error {e : Thrown} (h : last.1 = .error e) :
    pendingEnd last.1 = false := by
  rw [h]
  rfl

/-- The chain enters the first of the names; when it is left pending, it has
entered them all and the invocation waits for its callback. -/
structure ToCallback (names trace : List Text) (last : ChainEnd sigma) :
    Prop where
  entered : trace <+: names
  pending : pendingEnd last.1 = true ->
    trace = names ∧ LeftAt (some callbackPostprocessName) last.1

theorem ToCallback.cons {q : SepProcessor sigma} {names : List Text}
    (h : Passage endpoint (p :: q :: rest) status preData s trace last)
    (hat : StandsAt (some p.getName) status)
    (hprocess : forall r next,
      (p.process status endpoint (some q.getName) preData).exec s =
        (.ok r, next) -> GoesTo (some q.getName) false r)
    (hrest : forall ctx data s tail,
      Passage endpoint (q :: rest) ctx data s tail last ->
        StandsAt (some q.getName) ctx -> ToCallback names tail last) :
    ToCallback (p.getName :: names) trace last := by
  rcases h.enter hat with ⟨rfl, e, herror⟩ |
    ⟨r, next, hexec, ⟨hstop, _⟩ | ⟨_, tail, rfl, hpassage⟩⟩
  · constructor
    · exact List.cons_prefix_cons.mpr ⟨rfl, List.nil_prefix⟩
    · intro hpending
      rw [pendingEnd_of_error herror] at hpending
      cases hpending
  · rw [(hprocess r next hexec).stop_eq] at hstop
    cases hstop
  · have hnames := hrest r.ctx r.data next tail hpassage
      (hprocess r next hexec).stands
    constructor
    · exact List.cons_prefix_cons.mpr ⟨rfl, hnames.entered⟩
    · intro hpending
      rcases hnames.pending hpending with ⟨hall, hleft⟩
      exact ⟨congrArg (List.cons p.getName) hall, hleft⟩

end Places

/-- The processors between the check and the callback. -/
def toCallback : List Text :=
  [cachedName, sepName, postprocessName, cacheName]

/-- How a chain that has not gone past the check ends: pending, it waits for
the check, for another invocation or for its own response. -/
inductive FromAuth : List Text -> ChainEnd sigma -> Prop where
  | done {trace : List Text} {last : ChainEnd sigma}
      (hentered : trace <+: authName :: toCallback)
      (hdone : pendingEnd last.1 = false) : FromAuth trace last
  | auth {last : ChainEnd sigma} (hleft : LeftAt (some authName) last.1) :
      FromAuth [authName] last
  | cached {last : ChainEnd sigma} (hleft : LeftAt none last.1) :
      FromAuth [authName, cachedName] last
  | callback {last : ChainEnd sigma}
      (hleft : LeftAt (some callbackPostprocessName) last.1) :
      FromAuth (authName :: toCallback) last

section Chain

variable {host : ChainHost sigma} {endpoint : EndpointDto}
  {status : InvokeStatus} {preData : Option PendingOrResponse}
  {s : CallState sigma} {trace : List Text} {last : ChainEnd sigma}

theorem passage_from_cache
    (h : Passage endpoint ((processors host).drop 4) status preData s trace
      last) (hat : StandsAt (some cacheName) status) :
    ToCallback [cacheName] trace last := by
  rcases h.enter hat with ⟨rfl, e, herror⟩ |
    ⟨r, next, hexec, ⟨_, rfl, rfl⟩ | ⟨hpass, _⟩⟩
  · constructor
    · exact List.prefix_rfl
    · intro hpending
      rw [pendingEnd_of_error herror] at hpending
      cases hpending
  · rcases process_sepCache hat hexec with ⟨hdata, hgoes⟩
    constructor
    · exact List.prefix_rfl
    · intro hpending
      change PendingOrResponse.isPending r.data = true at hpending
      rw [hdata] at hpending
      rw [if_pos hpending] at hgoes
      exact ⟨rfl, r.ctx, r.data, rfl, hgoes.stands⟩
  · rw [(process_sepCache hat hexec).right.stop_eq] at hpass
    cases hpass

theorem passage_from_postprocess
    (h : Passage endpoint ((processors host).drop 3) status preData s trace
      last) (hat : StandsAt (some postprocessName) status) :
    ToCallback [postprocessName, cacheName] trace last := by
  apply ToCallback.cons h hat
  · intro r next hexec
    exact (process_postprocess rfl (List.cons_ne_nil _ _) hat hexec).left
  · intro ctx data s tail hpassage hat
    exact passage_from_cache hpassage hat

theorem passage_from_sepInvoke
    (h : Passage endpoint ((processors host).drop 2) status preData s trace
      last) (hat : StandsAt (some sepName) status) :
    ToCallback [sepName, postprocessName, cacheName] trace last := by
  apply ToCallback.cons h hat
  · intro r next hexec
    exact process_sepInvoke hat hexec
  · intro ctx data s tail hpassage hat
    exact passage_from_postprocess hpassage hat

theorem passage_from_cached
    (h : Passage endpoint ((processors host).drop 1) status preData s trace
      last) (hat : StandsAt (some cachedName) status) :
    FromAuth (authName :: trace) last := by
  rcases h.enter hat with ⟨rfl, e, herror⟩ |
    ⟨r, next, hexec, ⟨hstop, rfl, rfl⟩ | ⟨hpass, tail, rfl, hpassage⟩⟩
  · apply FromAuth.done
    · exact ⟨[sepName, postprocessName, cacheName], rfl⟩
    · exact pendingEnd_of_error herror
  · rcases process_sepCached hat hexec with hgoes | hends
    · rw [hgoes.stop_eq] at hstop
      cases hstop
    · exact FromAuth.cached ⟨r.ctx, r.data, rfl, hends.stands⟩
  · rcases process_sepCached hat hexec with hgoes | hends
    · have hnames := passage_from_sepInvoke hpassage hgoes.stands
      cases hpending : pendingEnd last.1 with
      | true =>
          rcases hnames.pending hpending with ⟨rfl, hleft⟩
          exact FromAuth.callback hleft
      | false =>
          apply FromAuth.done _ hpending
          apply List.cons_prefix_cons.mpr
          constructor
          · rfl
          · exact List.cons_prefix_cons.mpr ⟨rfl, hnames.entered⟩
    · rw [hends.stop_eq] at hpass
      cases hpass

theorem passage_from_auth
    (h : Passage endpoint (processors host) status preData s trace last)
    (hat : StandsAt (some authName) status) : FromAuth trace last := by
  rcases h.enter hat with ⟨rfl, e, herror⟩ |
    ⟨r, next, hexec, ⟨hstop, rfl, rfl⟩ | ⟨hpass, tail, rfl, hpassage⟩⟩
  · apply FromAuth.done
    · exact ⟨toCallback, rfl⟩
    · exact pendingEnd_of_error herror
  · rcases process_sepAuth hat hexec with hgoes | ⟨hleaves, _⟩
    · rw [hgoes.stop_eq] at hstop
      cases hstop
    · exact FromAuth.auth ⟨r.ctx, r.data, rfl, hleaves.stands⟩
  · rcases process_sepAuth hat hexec with hgoes | ⟨hleaves, _⟩
    · exact passage_from_cached hpassage hgoes.stands
    · rw [hleaves.stop_eq] at hpass
      cases hpass

theorem passage_from_callbackPostprocess
    (h : Passage endpoint (processors host) status preData s trace last)
    (hat : StandsAt (some callbackPostprocessName) status)
    (hdone : PendingOrResponse.isPending preData = false) :
    trace <+: [callbackPostprocessName, callbackName] ∧
      pendingEnd last.1 = false := by
  have hne : callbackPostprocessName ≠ authName ∧
      callbackPostprocessName ≠ cachedName ∧
      callbackPostprocessName ≠ sepName ∧
      callbackPostprocessName ≠ postprocessName ∧
      callbackPostprocessName ≠ cacheName := by
    decide
  rcases hne with ⟨hauth, hcached, hsep, hpostprocess, hcache⟩
  have hlast : Passage endpoint ((processors host).drop 5) status preData s
      trace last :=
    ((((h.skip hat hauth).skip hat hcached).skip hat hsep).skip hat
      hpostprocess).skip hat hcache
  rcases hlast.enter hat with ⟨rfl, e, herror⟩ |
    ⟨r, next, hexec, hnext⟩
  · constructor
    · exact ⟨[callbackName], rfl⟩
    · exact pendingEnd_of_error herror
  · rcases process_postprocess rfl (List.cons_ne_nil _ _) hat hexec with
      ⟨hgoes, hdata⟩
    rcases hnext with ⟨hstop, _⟩ | ⟨_, tail, rfl, hpassage⟩
    · rw [hgoes.stop_eq] at hstop
      cases hstop
    · rcases hpassage.enter hgoes.stands with ⟨rfl, e, herror⟩ |
        ⟨r', next', hexec', ⟨_, rfl, rfl⟩ | ⟨hpass, _⟩⟩
      · exact ⟨List.prefix_rfl, pendingEnd_of_error herror⟩
      · constructor
        · exact List.prefix_rfl
        · change PendingOrResponse.isPending r'.data = false
          rw [(process_sepCallback hgoes.stands hexec').right]
          exact hdata hdone
      · rw [(process_sepCallback hgoes.stands hexec').left.stop_eq] at hpass
        cases hpass

/-! ## Calls of the chain -/

theorem chainOpen_of_standsAt {name : Text} (hname : name ≠ [])
    (h : StandsAt (some name) status) : chainOpen status = true := by
  rcases h with ⟨ctx, hctx⟩
  simp [chainOpen, hctx, truthy_some_of_ne_nil hname]

theorem chainOpen_of_ended (h : StandsAt none status) :
    chainOpen status = false := by
  rcases h with ⟨ctx, hctx⟩
  simp [chainOpen, hctx]

theorem passage_of_fresh (hfresh : status.processor = none)
    (h : Passage endpoint (processors host) status preData s trace last) :
    FromAuth trace last := by
  have hat : StandsAt (some authName) (startedAt status authName) := by
    unfold startedAt
    rw [hfresh]
    exists none
  exact passage_from_auth (h.started (hat.startedAt_eq authName)) hat

end Chain

end Invoke
end CallgentApi
