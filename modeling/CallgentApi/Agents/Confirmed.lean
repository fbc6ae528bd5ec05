import CallgentApi.Agents.Candidates

/-!
# Which endpoint a purpose is given

What is returned lists every purpose that has a candidate once, with one of
its candidates, when the model has not been asked or its answer does so.
-/

namespace CallgentApi
namespace Agents

open Js Event Effect Config

/-! ## The groups -/

def Purpose.key (p : Purpose) : Text :=
  displayText p.purposeKey

def UsedEndpoint.key (u : UsedEndpoint) : Text :=
  displayText u.purposeKey

def hasCandidates (n : Nat) (p : Purpose) : Bool :=
  p.candidateEndpoints.length == n

/-- The purposes in the order in which they have been taken. -/
structure Grouped (taken : List Purpose) (g : Groups) : Prop where
  unaddressed : g.unaddressed = taken.filter (hasCandidates 0)
  single : g.single = taken.filter (hasCandidates 1)
  double : g.double = taken.filter (hasCandidates 2)
  two : forall p, p ∈ taken -> p.candidateEndpoints.length ≤ 2

theorem filter_hasCandidates (n : Nat) (taken : List Purpose) {p : Purpose}
    {k : Nat} (h : p.candidateEndpoints.length = k) :
    (taken ++ [p]).filter (hasCandidates n) =
      taken.filter (hasCandidates n) ++ if k = n then [p] else [] := by
  have hp : hasCandidates n p = (k == n) := by
    unfold hasCandidates
    rw [h]
  rw [List.filter_append, List.filter_singleton, hp]
  by_cases hkn : k = n
  · rw [hkn, beq_self_eq_true, if_pos rfl]
    rfl
  · rw [beq_false_of_ne hkn, if_neg hkn]
    rfl

theorem grouped_addToGroup {taken : List Purpose} {g next : Groups}
    {p : Purpose} (h : Grouped taken g) (hadd : addToGroup g p = .ok next) :
    Grouped (taken ++ [p]) next := by
  have htwo : p.candidateEndpoints.length ≤ 2 ->
      forall q, q ∈ taken ++ [p] -> q.candidateEndpoints.length ≤ 2 := by
    intro hp q hq
    rcases List.mem_append.mp hq with hq | hq
    · exact h.two q hq
    · rw [List.mem_singleton.mp hq]
      exact hp
  unfold addToGroup at hadd
  split at hadd
  · rename_i hlist
    cases hadd
    have hlength : p.candidateEndpoints.length = 0 := by rw [hlist]; rfl
    constructor
    · rw [filter_hasCandidates 0 taken hlength, ← h.unaddressed]
      rfl
    · rw [filter_hasCandidates 1 taken hlength, ← h.single]
      exact (List.append_nil _).symm
    · rw [filter_hasCandidates 2 taken hlength, ← h.double]
      exact (List.append_nil _).symm
    · exact htwo (hlength ▸ Nat.zero_le 2)
  · rename_i hlist
    cases hadd
    have hlength : p.candidateEndpoints.length = 1 := by rw [hlist]; rfl
    constructor
    · rw [filter_hasCandidates 0 taken hlength, ← h.unaddressed]
      exact (List.append_nil _).symm
    · rw [filter_hasCandidates 1 taken hlength, ← h.single]
      rfl
    · rw [filter_hasCandidates 2 taken hlength, ← h.double]
      exact (List.append_nil _).symm
    · exact htwo (hlength ▸ Nat.le_succ 1)
  · rename_i hlist
    cases hadd
    have hlength : p.candidateEndpoints.length = 2 := by rw [hlist]; rfl
    constructor
    · rw [filter_hasCandidates 0 taken hlength, ← h.unaddressed]
      exact (List.append_nil _).symm
    · rw [filter_hasCandidates 1 taken hlength, ← h.single]
      exact (List.append_nil _).symm
    · rw [filter_hasCandidates 2 taken hlength, ← h.double]
      rfl
    · exact htwo (hlength ▸ Nat.le_refl 2)
  · cases hadd

theorem grouped_group {purposes : List Purpose} {g : Groups}
    (h : group purposes = .ok g) : Grouped purposes g := by
  apply Fallible.foldlM_history Grouped _ _ h
  · intro taken state input next htaken hadd
    exact grouped_addToGroup htaken hadd
  · constructor
    · rfl
    · rfl
    · rfl
    · intro p hp
      cases hp

/-! ## The endpoints by their names -/

/-- Under a name stands the endpoint that an element has named so. -/
structure Named (numbers : NumberReader) (endpoints : List Endpoint)
    (taken : List Json) (epsMap : List (Text × Option Endpoint)) : Prop where
  nodup : (epsMap.map Prod.fst).Nodup
  found : forall name value, epsMap.lookup name = some value ->
    exists x, x ∈ taken ∧ isTruthy (x.field "epName".toList) = true ∧
      displayText (x.field "epName".toList) = name ∧
      value = endpoints.find? fun ep =>
        ep.isNamed numbers (x.field "epName".toList)
  present : forall x, x ∈ taken ->
    isTruthy (x.field "epName".toList) = true ->
    displayText (x.field "epName".toList) ≠ "__proto__".toList ->
    (epsMap.lookup (displayText (x.field "epName".toList))).isSome = true

theorem Named.skip {numbers : NumberReader} {endpoints : List Endpoint}
    {taken : List Json} {epsMap : List (Text × Option Endpoint)}
    (h : Named numbers endpoints taken epsMap) {x : Json}
    (hx : isTruthy (x.field "epName".toList) = true ->
      displayText (x.field "epName".toList) = "__proto__".toList) :
    Named numbers endpoints (taken ++ [x]) epsMap := by
  constructor
  · exact h.nodup
  · intro name value hvalue
    rcases h.found name value hvalue with ⟨y, hy, hrest⟩
    exact ⟨y, List.mem_append_left _ hy, hrest⟩
  · intro y hy hname hproto
    rcases List.mem_append.mp hy with hy | hy
    · exact h.present y hy hname hproto
    · rw [List.mem_singleton.mp hy] at hname hproto
      exact absurd (hx hname) hproto

theorem named_setEndpoint {numbers : NumberReader} {endpoints : List Endpoint}
    {taken : List Json} {epsMap : List (Text × Option Endpoint)}
    (h : Named numbers endpoints taken epsMap) {x : Json}
    (hname : isTruthy (x.field "epName".toList) = true) :
    Named numbers endpoints (taken ++ [x])
      (setEndpoint numbers endpoints epsMap (x.field "epName".toList)) := by
  unfold setEndpoint
  split
  · rename_i hproto
    exact h.skip fun _ => hproto
  · constructor
    · exact nodup_keys_setEntry h.nodup _ _
    · intro name value hvalue
      by_cases heq : name = displayText (x.field "epName".toList)
      · rw [heq, lookup_setEntry_self] at hvalue
        cases hvalue
        exact ⟨x, List.mem_append_right _ List.mem_cons_self, hname, heq.symm,
          rfl⟩
      · rw [lookup_setEntry_of_ne heq] at hvalue
        rcases h.found name value hvalue with ⟨y, hy, hrest⟩
        exact ⟨y, List.mem_append_left _ hy, hrest⟩
    · intro y hy hnameY hproto
      by_cases heq : displayText (y.field "epName".toList) =
          displayText (x.field "epName".toList)
      · rw [heq, lookup_setEntry_self]
        rfl
      · rw [lookup_setEntry_of_ne heq]
        rcases List.mem_append.mp hy with hy | hy
        · exact h.present y hy hnameY hproto
        · rw [List.mem_singleton.mp hy] at heq
          exact absurd rfl heq

theorem named_addChoice {numbers : NumberReader} {endpoints : List Endpoint}
    {taken : List Json} {c next : Choices} {x : Json}
    (h : Named numbers endpoints taken c.epsMap)
    (hadd : addChoice numbers endpoints c x = .ok next) :
    Named numbers endpoints (taken ++ [x]) next.epsMap := by
  unfold addChoice at hadd
  dsimp only at hadd
  split at hadd
  · split at hadd
    · cases hadd
    · rename_i hname
      cases hadd
      exact h.skip fun hx => absurd hx hname
  · split at hadd
    · rename_i hname
      cases hadd
      exact named_setEndpoint h hname
    · rename_i hname
      cases hadd
      exact h.skip fun hx => absurd hx hname

theorem named_mergeChoices {numbers : NumberReader}
    {endpoints : List Endpoint} {purposes0 purposes1 : List Json} {c : Choices}
    (h : mergeChoices numbers endpoints purposes0 purposes1 = .ok c) :
    Named numbers endpoints (purposes1 ++ purposes0) c.epsMap := by
  apply Fallible.foldlM_history
    (fun taken (state : Choices) =>
      Named numbers endpoints taken state.epsMap) _ _ h
  · intro taken state input next htaken hadd
    exact named_addChoice htaken hadd
  · constructor
    · exact List.nodup_nil
    · intro name value hvalue
      cases hvalue
    · intro x hx
      cases hx

/-! ## Names with words -/

theorem isTextual_of_words {v : Value} (h : HasWords (displayText v)) :
    IsTextual v := by
  have hspace := h.space_mem
  cases v with
  | none => exact absurd hspace (by decide)
  | some w =>
      cases w with
      | null => exact absurd hspace (by decide)
      | bool b =>
          cases b with
          | true => exact absurd hspace (by decide)
          | false => exact absurd hspace (by decide)
      | num n => exact absurd hspace (n.space_not_mem_text)
      | str s => exact ⟨.str s, rfl, Or.inr ⟨s, rfl⟩⟩
      | arr items => exact ⟨.arr items, rfl, Or.inl rfl⟩
      | obj fields => exact ⟨.obj fields, rfl, Or.inl rfl⟩

theorem Endpoint.isNamed_iff_display (numbers : NumberReader) (ep : Endpoint)
    (v : Value) :
    ep.isNamed numbers v = true <-> displayText v = ep.name := by
  rw [ep.isNamed_iff numbers v]
  constructor
  · exact And.right
  · intro hname
    exact ⟨isTextual_of_words (hname ▸ ep.words), hname⟩

theorem find_isNamed_congr (numbers : NumberReader)
    (endpoints : List Endpoint) {v w : Value}
    (h : displayText v = displayText w) :
    (endpoints.find? fun ep => ep.isNamed numbers v) =
      endpoints.find? fun ep => ep.isNamed numbers w := by
  congr 1
  funext ep
  rw [Bool.eq_iff_iff, ep.isNamed_iff_display, ep.isNamed_iff_display, h]

theorem display_of_find {numbers : NumberReader} {endpoints : List Endpoint}
    {v : Value} {ep : Endpoint}
    (h : (endpoints.find? fun ep => ep.isNamed numbers v) = some ep) :
    displayText v = ep.name := by
  have hnamed := List.find?_some h
  exact (ep.isNamed_iff_display numbers v).mp hnamed

theorem ne_proto_of_words {name : Text} (h : HasWords name) :
    name ≠ "__proto__".toList := by
  intro heq
  have hspace := h.space_mem
  rw [heq] at hspace
  exact absurd hspace (by decide)

section Chosen

variable {numbers : NumberReader} {endpoints : List Endpoint}
  {taken : List Json} {epsMap : List (Text × Option Endpoint)}

theorem mem_chosenEndpoints {used : List UsedEndpoint} {u : UsedEndpoint}
    (hu : u ∈ used) {ep : Endpoint}
    (hnamed : ep.isNamed numbers u.epName = true)
    (hlookup : epsMap.lookup (displayText u.epName) = some (some ep))
    (h : Named numbers endpoints taken epsMap) :
    some ep ∈ chosenEndpoints numbers epsMap used := by
  have hname := (ep.isNamed_iff_display numbers _).mp hnamed
  apply mem_valuesOf.mpr
  exists displayText u.epName
  rw [List.mem_filter]
  constructor
  · exact (lookup_iff_mem h.nodup).mp hlookup
  · apply List.any_eq_true.mpr
    exists u
    constructor
    · exact hu
    · rw [Json.looseEq_comm, hname]
      exact hnamed

theorem Named.lookup_eq (h : Named numbers endpoints taken epsMap) {x : Json}
    (hx : x ∈ taken) (hname : isTruthy (x.field "epName".toList) = true)
    {ep : Endpoint}
    (hep : (endpoints.find? fun ep =>
      ep.isNamed numbers (x.field "epName".toList)) = some ep) :
    epsMap.lookup (displayText (x.field "epName".toList)) =
      some (some ep) := by
  have hdisplay := display_of_find hep
  have hsome := h.present x hx hname
    (ne_proto_of_words (hdisplay ▸ ep.words))
  cases hlookup : epsMap.lookup (displayText (x.field "epName".toList)) with
  | none =>
      rw [hlookup] at hsome
      cases hsome
  | some value =>
      rcases h.found _ value hlookup with ⟨y, _, _, hy, hvalue⟩
      rw [hvalue, find_isNamed_congr numbers endpoints hy, hep]

end Chosen

/-! ## What is returned -/

/-- How `_confirmEndpoints` returns: with the single candidates, or with an
answer where a purpose has two. -/
structure Confirmed (numbers : NumberReader) (c : Choices) (g : Groups)
    (answer : Value) (used : List UsedEndpoint) : Prop where
  grouped : possibleGroups (valuesOf c.purposesSet) = .ok g
  single : g.double = [] -> used = g.single.map confirmedEndpoint
  accepts : g.double ≠ [] ->
    (confirmQuestion numbers (valuesOf c.epsMap)
      (g.single.map confirmedEndpoint) g.double).Accepts answer
  double : g.double ≠ [] -> used = usedEndpointsOf answer

theorem exists_confirmed_of_chooseEndpoints {omega : Type} {t : Task omega}
    {endpoints : List Endpoint}
    {state next : Conversation TemplateArgs omega}
    {chosen : List (Option Endpoint)} {used : List UsedEndpoint}
    (h : exec (chooseEndpoints t endpoints) state =
      (.ok (chosen, used), next)) :
    exists answer0 answer1 purposes0 purposes1 c g answer,
      Chosen t.numbers endpoints answer0 answer1 purposes0 purposes1 c ∧
      Confirmed t.numbers c g answer used ∧
      chosen = chosenEndpoints t.numbers c.epsMap used := by
  unfold chooseEndpoints at h
  rcases exec_bind_eq_ok h with ⟨c, state1, hchoose, h1⟩
  rcases exec_bind_eq_ok h1 with ⟨used', state2, hconfirm, h2⟩
  have hpair := (exec_pure_eq_ok h2).left
  have hchosenEq : chosenEndpoints t.numbers c.epsMap used' = chosen :=
    congrArg Prod.fst hpair
  have hused : used' = used := congrArg Prod.snd hpair
  rw [hused] at hconfirm hchosenEq
  rcases exists_chosen_of_choose hchoose with
    ⟨answer0, answer1, purposes0, purposes1, hchosen⟩
  unfold confirmEndpoints at hconfirm
  rcases exec_bind_eq_ok hconfirm with ⟨g, state3, hgroup, h3⟩
  have hgrouped : possibleGroups (valuesOf c.purposesSet) = .ok g :=
    congrArg Prod.fst hgroup
  dsimp only at h3
  split at h3
  · rename_i hdouble
    have hnil := List.isEmpty_iff.mp hdouble
    have hsingle := (exec_pure_eq_ok h3).left
    refine ⟨answer0, answer1, purposes0, purposes1, c, g, none, hchosen,
      ⟨hgrouped, fun _ => hsingle.symm, ?_, ?_⟩, hchosenEq.symm⟩
    · intro hne
      exact absurd hnil hne
    · intro hne
      exact absurd hnil hne
  · rename_i hdouble
    have hne : g.double ≠ [] := fun hnil =>
      hdouble (List.isEmpty_iff.mpr hnil)
    rcases exec_bind_eq_ok h3 with ⟨answer, state4, hask, h4⟩
    have hanswer := (exec_pure_eq_ok h4).left
    refine ⟨answer0, answer1, purposes0, purposes1, c, g, answer, hchosen,
      ⟨hgrouped, ?_, fun _ => (accepts_of_ask rfl hask).left,
        fun _ => hanswer.symm⟩, hchosenEq.symm⟩
    intro hnil
    exact absurd hnil hne

theorem Confirmed.spec {numbers : NumberReader} {c : Choices} {g : Groups}
    {answer : Value} {used : List UsedEndpoint}
    (h : Confirmed numbers c g answer used) :
    Grouped (valuesOf c.purposesSet) g := by
  have hpossible := h.grouped
  unfold possibleGroups at hpossible
  rcases Fallible.exists_of_bind_ok hpossible with ⟨g', hgroup, hg⟩
  split at hg
  · have heq : g' = g := Except.ok.inj hg
    rw [heq] at hgroup
    exact grouped_group hgroup
  · cases hg

structure GivenOnce (used : List UsedEndpoint) (p : Purpose)
    (u : UsedEndpoint) : Prop where
  once : used.filter (fun v => v.key == p.key) = [u]
  truthy : isTruthy u.epName = true
  own : exists candidate, candidate ∈ p.candidateEndpoints ∧
    displayText candidate.epName = displayText u.epName

/-- Every purpose with a candidate is given one, whose endpoint has been
chosen. -/
def Assigned (numbers : NumberReader) (endpoints : List Endpoint)
    (purposes : List Purpose) (used : List UsedEndpoint)
    (chosen : List (Option Endpoint)) : Prop :=
  forall p, p ∈ purposes -> p.candidateEndpoints ≠ [] ->
    exists u ep, GivenOnce used p u ∧
      (endpoints.find? fun ep => ep.isNamed numbers u.epName) = some ep ∧
      some ep ∈ chosen

/-- The check of an answer that the validator leaves out. -/
def confirms (purposes : List Purpose) (used : List UsedEndpoint) : Bool :=
  purposes.all fun p =>
    p.candidateEndpoints.isEmpty ||
      match used.filter fun v => v.key == p.key with
      | [u] =>
          isTruthy u.epName && p.candidateEndpoints.any fun candidate =>
            displayText candidate.epName == displayText u.epName
      | _ => false

theorem confirms_iff {purposes : List Purpose} {used : List UsedEndpoint} :
    confirms purposes used = true <->
      forall p, p ∈ purposes -> p.candidateEndpoints ≠ [] ->
        exists u, GivenOnce used p u := by
  unfold confirms
  rw [List.all_eq_true]
  constructor
  · intro h p hp hne
    have hcheck := h p hp
    rw [show p.candidateEndpoints.isEmpty = false from
      List.isEmpty_eq_false_iff.mpr hne, Bool.false_or] at hcheck
    split at hcheck
    · rename_i u hfilter
      rcases Bool.and_eq_true_iff.mp hcheck with ⟨htruthy, hany⟩
      rcases List.any_eq_true.mp hany with ⟨candidate, hmem, hname⟩
      exact ⟨u, hfilter, htruthy, candidate, hmem, beq_iff_eq.mp hname⟩
    · cases hcheck
  · intro h p hp
    cases hempty : p.candidateEndpoints.isEmpty with
    | true => rfl
    | false =>
        rcases h p hp (List.isEmpty_eq_false_iff.mp hempty) with ⟨u, hu⟩
        rcases hu.own with ⟨candidate, hmem, hname⟩
        rw [Bool.false_or, hu.once]
        dsimp only
        rw [hu.truthy, Bool.true_and]
        exact List.any_eq_true.mpr ⟨candidate, hmem, beq_iff_eq.mpr hname⟩

theorem filter_key_eq {purposes : List Purpose}
    (h : (purposes.map Purpose.key).Nodup) {p : Purpose}
    (hp : p ∈ purposes) :
    (purposes.filter fun q => q.key == p.key) = [p] := by
  induction purposes with
  | nil => cases hp
  | cons first rest ih =>
      rw [List.map_cons, List.nodup_cons] at h
      rcases List.mem_cons.mp hp with heq | hrest
      · have hnone : (rest.filter fun q => q.key == p.key) = [] := by
          rw [List.filter_eq_nil_iff]
          intro q hq hkey
          apply h.left
          rw [← heq, ← beq_iff_eq.mp hkey]
          exact List.mem_map_of_mem hq
        rw [List.filter_cons, ← heq, beq_self_eq_true, if_pos rfl, hnone]
      · have hne : (first.key == p.key) = false := by
          apply beq_false_of_ne
          intro hkey
          apply h.left
          rw [hkey]
          exact List.mem_map_of_mem hrest
        rw [List.filter_cons, hne, if_neg Bool.false_ne_true]
        exact ih h.right hrest

theorem Merged.nodup_keys {elements : List Json} {c : Choices}
    (h : Merged elements c) :
    ((valuesOf c.purposesSet).map Purpose.key).Nodup := by
  have hkeys : c.purposesSet.map (Purpose.key ∘ Prod.snd) =
      c.purposesSet.map Prod.fst := by
    apply List.map_congr_left
    intro entry hentry
    exact (h.purposes entry.1 entry.2
      ((lookup_iff_mem h.nodup).mpr hentry)).left
  have hperm := (valuesOf_perm c.purposesSet).map Purpose.key
  rw [List.map_map, hkeys] at hperm
  exact hperm.nodup_iff.mpr h.nodup

theorem Merged.exists_of_candidate {elements : List Json} {c : Choices}
    (h : Merged elements c) {p : Purpose}
    (hp : p ∈ valuesOf c.purposesSet) {candidate : Candidate}
    (hcandidate : candidate ∈ p.candidateEndpoints) :
    exists x, x ∈ elements ∧ isTruthy (x.field "epName".toList) = true ∧
      candidate = candidateOf x := by
  rcases mem_valuesOf.mp hp with ⟨key, hentry⟩
  have hlookup := (lookup_iff_mem h.nodup).mpr hentry
  rw [(h.purposes key p hlookup).right] at hcandidate
  rcases List.mem_map.mp hcandidate with ⟨x, hx, heq⟩
  rcases List.mem_filter.mp hx with ⟨hx, hfor⟩
  exact ⟨x, hx, (isFor_of_mem hfor).right, heq.symm⟩

theorem findEndpoint_spec {numbers : NumberReader} {epName : Value}
    {endpoints : List (Option Endpoint)} {ep : Endpoint}
    (h : findEndpoint numbers epName endpoints = .ok (some ep)) :
    some ep ∈ endpoints ∧ ep.isNamed numbers epName = true := by
  induction endpoints with
  | nil => cases h
  | cons first rest ih =>
      cases first with
      | none => cases h
      | some first =>
          unfold findEndpoint at h
          split at h
          · rename_i hnamed
            cases h
            exact ⟨List.mem_cons_self, hnamed⟩
          · rcases ih h with ⟨hmem, hnamed⟩
            exact ⟨List.mem_cons_of_mem _ hmem, hnamed⟩

theorem exists_named_of_confirmation {numbers : NumberReader}
    {endpoints : List (Option Endpoint)} {confirmed : List UsedEndpoint}
    {double : List Purpose} {answer : Value}
    (h : (confirmQuestion numbers endpoints confirmed double).Accepts answer)
    {u : UsedEndpoint} (hu : u ∈ usedEndpointsOf answer)
    (hname : isTruthy u.epName = true) :
    exists ep, some ep ∈ endpoints ∧ ep.isNamed numbers u.epName = true := by
  have hvalid : validConfirmation numbers endpoints answer = .ok true :=
    h.valid
  unfold validConfirmation at hvalid
  rcases Fallible.exists_of_bind_ok hvalid with ⟨some_, hsome, hevery⟩
  cases some_ with
  | false => cases hevery
  | true =>
      rw [if_pos rfl] at hevery
      unfold usedEndpointsOf at hu
      split at hu
      · rename_i items
        rcases List.mem_map.mp hu with ⟨x, hx, hux⟩
        have hhas : hasCandidate numbers endpoints x = .ok true :=
          Fallible.forall_of_allM hevery x hx
        unfold hasCandidate at hhas
        rcases Fallible.exists_of_bind_ok hhas with ⟨epName, hread, hfound⟩
        have hep : epName = u.epName := by
          rw [read_eq_field hread, ← hux]
          rfl
        rw [hep, hname, Bool.not_true, if_neg Bool.false_ne_true] at hfound
        rcases Fallible.exists_of_bind_ok hfound with ⟨found, hfind, hcheck⟩
        cases found with
        | none => cases hcheck
        | some ep => exact ⟨ep, findEndpoint_spec hfind⟩
      · cases hu

section Assigned

variable {numbers : NumberReader} {endpoints : List Endpoint}
  {answer0 answer1 answer : Value} {purposes0 purposes1 : List Json}
  {c : Choices} {g : Groups} {used : List UsedEndpoint}

theorem Confirmed.exists_single (h : Confirmed numbers c g answer used)
    (hdouble : g.double = []) {p : Purpose}
    (hp : p ∈ valuesOf c.purposesSet) (hne : p.candidateEndpoints ≠ []) :
    exists candidate, p.candidateEndpoints = [candidate] := by
  have hspec := h.spec
  match hlist : p.candidateEndpoints with
  | [] => exact absurd hlist hne
  | [candidate] => exact ⟨candidate, rfl⟩
  | [first, second] =>
      have hmem : p ∈ g.double := by
        rw [hspec.double, List.mem_filter]
        constructor
        · exact hp
        · unfold hasCandidates
          rw [hlist]
          rfl
      rw [hdouble] at hmem
      cases hmem
  | first :: second :: third :: rest =>
      have htwo := hspec.two p hp
      rw [hlist] at htwo
      exact absurd (Nat.le_of_succ_le_succ (Nat.le_of_succ_le_succ htwo))
        (Nat.not_succ_le_zero _)

theorem Confirmed.givenOnce_single
    (hchosen : Chosen numbers endpoints answer0 answer1 purposes0 purposes1 c)
    (h : Confirmed numbers c g answer used) (hdouble : g.double = [])
    {p : Purpose} (hp : p ∈ valuesOf c.purposesSet) {candidate : Candidate}
    (hcandidate : p.candidateEndpoints = [candidate]) :
    GivenOnce used p (confirmedEndpoint p) ∧
      (confirmedEndpoint p).epName = candidate.epName := by
  have hmerged := merged_mergeChoices hchosen.merged
  have hspec := h.spec
  have hname : (confirmedEndpoint p).epName = candidate.epName := by
    unfold confirmedEndpoint
    rw [hcandidate]
    rfl
  have hmem : candidate ∈ p.candidateEndpoints := by
    rw [hcandidate]
    exact List.mem_cons_self
  have hsingle : p ∈ g.single := by
    rw [hspec.single, List.mem_filter]
    constructor
    · exact hp
    · unfold hasCandidates
      rw [hcandidate]
      rfl
  have hkeys : (g.single.map Purpose.key).Nodup := by
    rw [hspec.single]
    exact (List.filter_sublist.map Purpose.key).nodup hmerged.nodup_keys
  constructor
  · constructor
    · rw [h.single hdouble, List.filter_map]
      show (g.single.filter fun q => q.key == p.key).map confirmedEndpoint = _
      rw [filter_key_eq hkeys hsingle]
      rfl
    · rcases hmerged.exists_of_candidate hp hmem with ⟨x, _, htruthy, heq⟩
      rw [hname, heq]
      exact htruthy
    · exact ⟨candidate, hmem, by rw [hname]⟩
  · exact hname

theorem Confirmed.exists_chosen
    (hchosen : Chosen numbers endpoints answer0 answer1 purposes0 purposes1 c)
    (h : Confirmed numbers c g answer used) (hdouble : g.double ≠ [])
    {u : UsedEndpoint} (hu : u ∈ used) (hname : isTruthy u.epName = true) :
    exists ep,
      (endpoints.find? fun ep => ep.isNamed numbers u.epName) = some ep ∧
        some ep ∈ chosenEndpoints numbers c.epsMap used := by
  have hnamed := named_mergeChoices hchosen.merged
  have hanswer := hu
  rw [h.double hdouble] at hanswer
  rcases exists_named_of_confirmation (h.accepts hdouble) hanswer hname with
    ⟨ep, hep, hepNamed⟩
  have hdisplay := (ep.isNamed_iff_display numbers _).mp hepNamed
  rcases mem_valuesOf.mp hep with ⟨key, hentry⟩
  have hlookup := (lookup_iff_mem hnamed.nodup).mpr hentry
  rcases hnamed.found key _ hlookup with ⟨y, _, _, hkey, hfound⟩
  have hy := display_of_find hfound.symm
  have hsame : displayText u.epName = displayText (y.field "epName".toList) :=
    hdisplay.trans hy.symm
  exists ep
  constructor
  · rw [find_isNamed_congr numbers endpoints hsame]
    exact hfound.symm
  · apply mem_chosenEndpoints hu hepNamed _ hnamed
    rw [hsame, hkey]
    exact hlookup

theorem Chosen.exists_endpoint
    (h : Chosen numbers endpoints answer0 answer1 purposes0 purposes1 c)
    (hplain0 : Plain answer0 purposes0) (hplain1 : Plain answer1 purposes1)
    {p : Purpose} (hp : p ∈ valuesOf c.purposesSet) {candidate : Candidate}
    (hcandidate : candidate ∈ p.candidateEndpoints) :
    exists ep, ep ∈ endpoints ∧
      ep.isNamed numbers candidate.epName = true := by
  rcases (merged_mergeChoices h.merged).exists_of_candidate hp hcandidate with
    ⟨x, hx, hname, heq⟩
  rw [heq]
  rcases List.mem_append.mp hx with hx | hx
  · have hused := hplain1.mem_used h.purposes1_eq hx hname
    rcases exists_named_of_accepts h.accepts1 hused hname with
      ⟨ep, hep, hnamed⟩
    exact ⟨ep, (List.mem_filter.mp hep).left, hnamed⟩
  · have hused := hplain0.mem_used h.purposes0_eq hx hname
    exact exists_named_of_accepts h.accepts0 hused hname

theorem Confirmed.assigned_iff_of_single
    (hchosen : Chosen numbers endpoints answer0 answer1 purposes0 purposes1 c)
    (h : Confirmed numbers c g answer used) (hdouble : g.double = []) :
    Assigned numbers endpoints (valuesOf c.purposesSet) used
        (chosenEndpoints numbers c.epsMap used) <->
      forall p candidate, p ∈ valuesOf c.purposesSet ->
        candidate ∈ p.candidateEndpoints -> exists ep, ep ∈ endpoints ∧
          ep.isNamed numbers candidate.epName = true := by
  constructor
  · intro hassigned p candidate hp hcandidate
    have hne : p.candidateEndpoints ≠ [] := List.ne_nil_of_mem hcandidate
    rcases hassigned p hp hne with ⟨u, ep, hgiven, hfind, _⟩
    rcases h.exists_single hdouble hp hne with ⟨only, honly⟩
    rcases hgiven.own with ⟨own, hown, hname⟩
    rw [honly] at hcandidate hown
    rw [List.mem_singleton.mp hown] at hname
    rw [List.mem_singleton.mp hcandidate]
    exists ep
    constructor
    · exact List.mem_of_find?_eq_some hfind
    · rw [ep.isNamed_iff_display, hname]
      exact display_of_find hfind
  · intro hendpoints p hp hne
    rcases h.exists_single hdouble hp hne with ⟨candidate, hcandidate⟩
    have hmem : candidate ∈ p.candidateEndpoints := by
      rw [hcandidate]
      exact List.mem_cons_self
    rcases h.givenOnce_single hchosen hdouble hp hcandidate with
      ⟨hgiven, hname⟩
    rcases hendpoints p candidate hp hmem with ⟨ep, hep, hepNamed⟩
    rcases (merged_mergeChoices hchosen.merged).exists_of_candidate hp hmem
      with ⟨x, hx, htruthy, heq⟩
    have hfield : candidate.epName = x.field "epName".toList := by
      rw [heq]
      rfl
    cases hfind : endpoints.find? fun ep =>
        ep.isNamed numbers candidate.epName with
    | none =>
        exact absurd hepNamed (List.find?_eq_none.mp hfind ep hep)
    | some found =>
        have hnamed := named_mergeChoices hchosen.merged
        have hlookup : c.epsMap.lookup (displayText candidate.epName) =
            some (some found) := by
          rw [hfield] at hfind
          rw [hfield]
          exact hnamed.lookup_eq hx htruthy hfind
        have hused : confirmedEndpoint p ∈ used := by
          have honce : confirmedEndpoint p ∈
              used.filter fun v => v.key == p.key := by
            rw [hgiven.once]
            exact List.mem_cons_self
          exact (List.mem_filter.mp honce).left
        refine ⟨confirmedEndpoint p, found, hgiven, ?_, ?_⟩
        · rw [hname]
          exact hfind
        · apply mem_chosenEndpoints hused _ _ hnamed
          · rw [found.isNamed_iff_display, hname]
            exact display_of_find hfind
          · rw [hname]
            exact hlookup

theorem Confirmed.assigned_iff_of_double
    (hchosen : Chosen numbers endpoints answer0 answer1 purposes0 purposes1 c)
    (h : Confirmed numbers c g answer used) (hdouble : g.double ≠ []) :
    Assigned numbers endpoints (valuesOf c.purposesSet) used
        (chosenEndpoints numbers c.epsMap used) <->
      confirms (valuesOf c.purposesSet) (usedEndpointsOf answer) = true := by
  rw [← h.double hdouble, confirms_iff]
  constructor
  · intro hassigned p hp hne
    rcases hassigned p hp hne with ⟨u, _, hgiven, _⟩
    exact ⟨u, hgiven⟩
  · intro hgiven p hp hne
    rcases hgiven p hp hne with ⟨u, hu⟩
    have hmem : u ∈ used.filter fun v => v.key == p.key := by
      rw [hu.once]
      exact List.mem_cons_self
    rcases h.exists_chosen hchosen hdouble (List.mem_filter.mp hmem).left
      hu.truthy with ⟨ep, hep⟩
    exact ⟨u, ep, hu, hep⟩

/-- Every purpose is given one of its candidates when none has two and all
candidates are endpoints, as those of plain answers are, or when the answer
lists every purpose so. -/
theorem assigned_iff
    (hchosen : Chosen numbers endpoints answer0 answer1 purposes0 purposes1 c)
    (h : Confirmed numbers c g answer used) :
    (Assigned numbers endpoints (valuesOf c.purposesSet) used
        (chosenEndpoints numbers c.epsMap used) <->
      (g.double = [] -> forall p candidate, p ∈ valuesOf c.purposesSet ->
        candidate ∈ p.candidateEndpoints -> exists ep, ep ∈ endpoints ∧
          ep.isNamed numbers candidate.epName = true) ∧
      (g.double ≠ [] -> confirms (valuesOf c.purposesSet)
        (usedEndpointsOf answer) = true)) ∧
    (Plain answer0 purposes0 -> Plain answer1 purposes1 -> g.double = [] ->
      Assigned numbers endpoints (valuesOf c.purposesSet) used
        (chosenEndpoints numbers c.epsMap used)) := by
  constructor
  · by_cases hdouble : g.double = []
    · rw [h.assigned_iff_of_single hchosen hdouble]
      constructor
      · intro hendpoints
        exact ⟨fun _ => hendpoints, fun hne => absurd hdouble hne⟩
      · intro hboth
        exact hboth.left hdouble
    · rw [h.assigned_iff_of_double hchosen hdouble]
      constructor
      · intro hconfirms
        exact ⟨fun hnil => absurd hnil hdouble, fun _ => hconfirms⟩
      · intro hboth
        exact hboth.right hdouble
  · intro hplain0 hplain1 hdouble
    rw [h.assigned_iff_of_single hchosen hdouble]
    intro p candidate hp hcandidate
    exact hchosen.exists_endpoint hplain0 hplain1 hp hcandidate

end Assigned

/-! ## Bills -/

def payment : Json := .str "pay".toList

def refund : Json := .str "back".toList

def billPurpose (key : Json) (names : List String) : Purpose :=
  ⟨some key, none, none, names.map billCandidate⟩

def billEndpoint (name : String) : Text × Option Endpoint :=
  (name.toList, billing.find? fun ep =>
    ep.isNamed digitNumbers (some (.str name.toList)))

theorem plain_choiceOf (key : Text) (name : String) :
    Plain (some (choiceOf [(.str key, name)]))
      [chosenBill (.str key) name] := by
  constructor
  · intro x hx
    rw [List.mem_singleton.mp hx]
    refine ⟨key, ?_⟩
    show List.lookup _ (List.map _ _) = _
    simp only [List.map_cons, List.lookup_cons]
    rfl
  · intro x hx
    cases hx

/-- A bill is paid and a payment is given back, with one endpoint for each. -/
def settled : Choices where
  purposesSet := [("back".toList, billPurpose refund ["GET /refunds"]),
    ("pay".toList, billPurpose payment ["GET /bills"])]
  epsMap := [billEndpoint "GET /refunds", billEndpoint "GET /bills"]

theorem assigned_iff_settled :
    exists g used,
      Chosen digitNumbers billing
        (some (choiceOf [(payment, "GET /bills")]))
        (some (choiceOf [(refund, "GET /refunds")]))
        [chosenBill payment "GET /bills"]
        [chosenBill refund "GET /refunds"] settled ∧
      Confirmed digitNumbers settled g none used ∧
      Assigned digitNumbers billing (valuesOf settled.purposesSet) used
        (chosenEndpoints digitNumbers settled.epsMap used) := by
  have hchosen : Chosen digitNumbers billing
      (some (choiceOf [(payment, "GET /bills")]))
      (some (choiceOf [(refund, "GET /refunds")]))
      [chosenBill payment "GET /bills"]
      [chosenBill refund "GET /refunds"] settled :=
    ⟨⟨fun _ => rfl, rfl⟩, rfl, ⟨fun _ => rfl, rfl⟩, rfl, rfl⟩
  let g : Groups := ⟨[], settled.purposesSet.map Prod.snd, []⟩
  have hconfirmed : Confirmed digitNumbers settled g none
      (g.single.map confirmedEndpoint) := by
    constructor
    · rw [valuesOf_names rfl]
      rfl
    · intro _
      rfl
    · intro hne
      exact absurd rfl hne
    · intro hne
      exact absurd rfl hne
  exact ⟨g, _, hchosen, hconfirmed, (assigned_iff hchosen hconfirmed).right
    (plain_choiceOf _ _) (plain_choiceOf _ _) rfl⟩

def openChoices : Choices where
  purposesSet :=
    [("pay".toList, billPurpose payment ["POST /payments", "GET /bills"]),
      ("back".toList, billPurpose refund ["GET /refunds"])]
  epsMap := [billEndpoint "POST /payments", billEndpoint "GET /bills",
    billEndpoint "GET /refunds"]

/-- The answer confirms how to pay, and says nothing of what is given back. -/
def confirmation : Json :=
  .arr [chosenBill payment "POST /payments"]

theorem not_assigned_refund :
    exists g used,
      Chosen digitNumbers billing
        (some (choiceOf [(payment, "GET /bills"), (refund, "GET /refunds")]))
        (some (choiceOf [(payment, "POST /payments")]))
        [chosenBill payment "GET /bills", chosenBill refund "GET /refunds"]
        [chosenBill payment "POST /payments"] openChoices ∧
      Confirmed digitNumbers openChoices g (some confirmation) used ∧
      ¬ Assigned digitNumbers billing (valuesOf openChoices.purposesSet) used
        (chosenEndpoints digitNumbers openChoices.epsMap used) := by
  have hchosen : Chosen digitNumbers billing
      (some (choiceOf [(payment, "GET /bills"), (refund, "GET /refunds")]))
      (some (choiceOf [(payment, "POST /payments")]))
      [chosenBill payment "GET /bills", chosenBill refund "GET /refunds"]
      [chosenBill payment "POST /payments"] openChoices :=
    ⟨⟨fun _ => rfl, rfl⟩, rfl, ⟨fun _ => rfl, rfl⟩, rfl, rfl⟩
  let g : Groups := ⟨[], [billPurpose refund ["GET /refunds"]],
    [billPurpose payment ["POST /payments", "GET /bills"]]⟩
  have hconfirmed : Confirmed digitNumbers openChoices g (some confirmation)
      (usedEndpointsOf (some confirmation)) := by
    constructor
    · rw [valuesOf_names rfl]
      rfl
    · intro hnil
      cases hnil
    · intro _
      rw [valuesOf_names rfl]
      exact ⟨fun _ => rfl, rfl⟩
    · intro _
      rfl
  refine ⟨g, _, hchosen, hconfirmed, ?_⟩
  intro hassigned
  have hmem : billPurpose refund ["GET /refunds"] ∈
      valuesOf openChoices.purposesSet := by
    rw [valuesOf_names rfl]
    exact List.mem_cons_of_mem _ List.mem_cons_self
  rcases hassigned _ hmem (List.cons_ne_nil _ _) with ⟨u, ep, hgiven, _⟩
  have honce : [] = [u] := hgiven.once
  cases honce

end Agents
end CallgentApi
