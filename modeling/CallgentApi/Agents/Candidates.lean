import CallgentApi.Agents.Confirm

/-!
# How many candidates a purpose has

The confirmation sorts the purposes into three groups, for none, one and two
candidates.
-/

namespace CallgentApi
namespace Agents

open Js Event Effect Config

/-! ## What is kept of an answer -/

def DifferentKeys (x y : Json) : Prop :=
  Json.sameValue (y.field "purposeKey".toList) (x.field "purposeKey".toList) =
    false

theorem uniqueFrom_spec {existing : List Value} {arr kept : List Json}
    (h : uniqueFrom "purposeKey" existing arr = .ok kept) :
    kept.Sublist arr ∧ kept.Pairwise DifferentKeys ∧
      (forall x, x ∈ arr -> x ≠ .null) ∧
      forall x value, x ∈ kept -> value ∈ existing ->
        Json.sameValue (x.field "purposeKey".toList) value = false := by
  induction arr generalizing existing kept with
  | nil =>
      cases h
      refine ⟨List.Sublist.refl [], List.Pairwise.nil, ?_, ?_⟩
      · intro x hx
        cases hx
      · intro x value hx
        cases hx
  | cons first rest ih =>
      unfold uniqueFrom at h
      rcases Fallible.exists_of_bind_ok h with ⟨value, hvalue, h⟩
      rcases read_eq_ok_iff.mp hvalue with ⟨w, hw, hnull, hfield⟩
      cases hw
      have hnulls : (forall x, x ∈ rest -> x ≠ .null) ->
          forall x, x ∈ first :: rest -> x ≠ .null := by
        intro hrest x hx
        rcases List.mem_cons.mp hx with heq | hx
        · rw [heq]
          exact hnull
        · exact hrest x hx
      split at h
      · rcases ih h with ⟨hsub, hpairs, hnone, hexisting⟩
        exact ⟨hsub.cons first, hpairs, hnulls hnone, hexisting⟩
      · rename_i hnew
        rcases Fallible.exists_of_bind_ok h with ⟨later, hlater, h⟩
        cases h
        rcases ih hlater with ⟨hsub, hpairs, hnone, hexisting⟩
        refine ⟨hsub.cons_cons first, ?_, hnulls hnone, ?_⟩
        · rw [List.pairwise_cons]
          constructor
          · intro y hy
            rw [hfield] at hexisting
            exact hexisting y _ hy
              (List.mem_append_right _ List.mem_cons_self)
          · exact hpairs
        · intro x other hx hother
          rcases List.mem_cons.mp hx with heq | hx
          · rw [heq, ← hfield]
            cases hsame : Json.sameValue value other with
            | false => rfl
            | true =>
                exact absurd (List.any_eq_true.mpr ⟨other, hother, hsame⟩) hnew
          · exact hexisting x other hx (List.mem_append_left _ hother)

/-- The elements of `unaddressedAPI` or of `usedEndpoints`. -/
def listed (answer : Value) (key : String) : List Json :=
  spread (answer.bind fun v => v.field key.toList)

theorem purposesOf_spec {answer : Value} {purposes : List Json}
    (h : purposesOf answer = .ok purposes) :
    purposes.Sublist
        (listed answer "unaddressedAPI" ++ listed answer "usedEndpoints") ∧
      purposes.Pairwise DifferentKeys := by
  unfold purposesOf at h
  rcases Fallible.exists_of_bind_ok h with ⟨used, hused, h⟩
  rcases Fallible.exists_of_bind_ok h with ⟨unaddressed, hunaddressed, h⟩
  rcases Fallible.exists_of_bind_ok h with ⟨both, hboth, h⟩
  rcases read_eq_ok_iff.mp hused with ⟨w, hw, _, hused⟩
  rcases read_eq_ok_iff.mp hunaddressed with ⟨w', hw', _, hunaddressed⟩
  rw [hw] at hw'
  cases hw'
  have hlist : both = listed answer "unaddressedAPI" ++
      listed answer "usedEndpoints" := by
    have hfirst : listed answer "unaddressedAPI" = spread unaddressed := by
      rw [hw, hunaddressed]
      rfl
    have hsecond : listed answer "usedEndpoints" = spread used := by
      rw [hw, hused]
      rfl
    rw [hfirst, hsecond]
    unfold concat at hboth
    split at hboth
    · rename_i hfalsy
      cases hboth
      unfold spread
      rw [hfalsy]
      rfl
    · rename_i items hitems
      cases hboth
      have hspread : spread unaddressed = items := by
        unfold spread
        rw [hitems]
      rw [hspread]
    · cases hboth
  rcases uniqueFrom_spec h with ⟨hsub, hpairs, _, _⟩
  rw [← hlist]
  exact ⟨hsub, hpairs⟩

/-! ## The candidates of a purpose -/

/-- The element names an endpoint, for the purpose that is kept under the
key. -/
def isFor (key : Text) (x : Json) : Bool :=
  keyOf x == key && isTruthy (x.field "epName".toList)

/-- What the elements that have been taken have been added to. -/
structure Merged (taken : List Json) (c : Choices) : Prop where
  nodup : (c.purposesSet.map Prod.fst).Nodup
  purposes : forall key p, c.purposesSet.lookup key = some p ->
    displayText p.purposeKey = key ∧
      p.candidateEndpoints = (taken.filter (isFor key)).map candidateOf
  named : forall x, x ∈ taken -> isTruthy (x.field "epName".toList) = true ->
    (c.purposesSet.lookup (keyOf x)).isSome = true

theorem Merged.filter_of_lookup {taken : List Json} {c : Choices}
    (h : Merged taken c) {key : Text}
    (hnone : c.purposesSet.lookup key = none) :
    taken.filter (isFor key) = [] := by
  rw [List.filter_eq_nil_iff]
  intro x hx hfor
  rcases Bool.and_eq_true_iff.mp hfor with ⟨hkey, hname⟩
  have hsome := h.named x hx hname
  rw [beq_iff_eq.mp hkey, hnone] at hsome
  cases hsome

theorem filter_append_single (key : Text) (taken : List Json) (x : Json) :
    (taken ++ [x]).filter (isFor key) =
      taken.filter (isFor key) ++ if isFor key x then [x] else [] := by
  rw [List.filter_append, List.filter_singleton]
  cases isFor key x <;> rfl

theorem Merged.set {taken : List Json} {c : Choices} (h : Merged taken c)
    (x : Json) (epsMap : List (Text × Option Endpoint)) {p : Purpose}
    (hkey : displayText p.purposeKey = keyOf x)
    (hcandidates : p.candidateEndpoints =
      ((taken ++ [x]).filter (isFor (keyOf x))).map candidateOf) :
    Merged (taken ++ [x])
      ⟨setEntry c.purposesSet (keyOf x) p, epsMap⟩ := by
  constructor
  · exact nodup_keys_setEntry h.nodup _ _
  · intro key q hq
    by_cases heq : key = keyOf x
    · rw [heq, lookup_setEntry_self] at hq
      cases hq
      rw [heq]
      exact ⟨hkey, hcandidates⟩
    · rw [lookup_setEntry_of_ne heq] at hq
      rcases h.purposes key q hq with ⟨hq, hold⟩
      have hother : isFor key x = false := by
        unfold isFor
        rw [beq_false_of_ne (Ne.symm heq)]
        rfl
      rw [filter_append_single, hother, hold]
      exact ⟨hq, by rw [if_neg Bool.false_ne_true, List.append_nil]⟩
  · intro y hy hname
    by_cases heq : keyOf y = keyOf x
    · rw [heq, lookup_setEntry_self]
      rfl
    · rw [lookup_setEntry_of_ne heq]
      rcases List.mem_append.mp hy with hy | hy
      · exact h.named y hy hname
      · exact absurd (congrArg keyOf (List.mem_singleton.mp hy)) heq

theorem merged_addChoice {numbers : NumberReader} {endpoints : List Endpoint}
    {taken : List Json} {c next : Choices} {x : Json} (h : Merged taken c)
    (hadd : addChoice numbers endpoints c x = .ok next) :
    Merged (taken ++ [x]) next := by
  have hfound : forall p, p = (c.purposesSet.lookup (keyOf x)).getD
        (newPurpose x) ->
      displayText p.purposeKey = keyOf x ∧
        p.candidateEndpoints =
          (taken.filter (isFor (keyOf x))).map candidateOf := by
    intro p hp
    cases hlookup : c.purposesSet.lookup (keyOf x) with
    | none =>
        rw [hlookup] at hp
        rw [hp, h.filter_of_lookup hlookup]
        exact ⟨rfl, rfl⟩
    | some q =>
        rw [hlookup] at hp
        rw [hp]
        exact h.purposes (keyOf x) q hlookup
  rcases hfound _ rfl with ⟨hkey, hold⟩
  unfold addChoice at hadd
  dsimp only at hadd
  split at hadd
  · split at hadd
    · cases hadd
    · rename_i hname
      cases hadd
      have hnot : forall key, isFor key x = false := by
        intro key
        unfold isFor
        rw [Bool.eq_false_of_not_eq_true hname, Bool.and_false]
      constructor
      · exact h.nodup
      · intro key p hp
        rw [filter_append_single, hnot, if_neg Bool.false_ne_true,
          List.append_nil]
        exact h.purposes key p hp
      · intro y hy hy'
        rcases List.mem_append.mp hy with hy | hy
        · exact h.named y hy hy'
        · rw [List.mem_singleton.mp hy] at hy'
          exact absurd hy' hname
  · split at hadd
    · rename_i hname
      cases hadd
      have hfor : isFor (keyOf x) x = true := by
        unfold isFor
        rw [hname, beq_self_eq_true]
        rfl
      apply h.set x
      · exact hkey
      · rw [filter_append_single, hfor, if_pos rfl, List.map_append, hold]
        rfl
    · rename_i hname
      cases hadd
      have hnot : isFor (keyOf x) x = false := by
        unfold isFor
        rw [Bool.eq_false_of_not_eq_true hname, Bool.and_false]
      apply h.set x
      · exact hkey
      · rw [filter_append_single, hnot, if_neg Bool.false_ne_true,
          List.append_nil, hold]

theorem merged_mergeChoices {numbers : NumberReader}
    {endpoints : List Endpoint} {purposes0 purposes1 : List Json}
    {c : Choices}
    (h : mergeChoices numbers endpoints purposes0 purposes1 = .ok c) :
    Merged (purposes1 ++ purposes0) c := by
  apply Fallible.foldlM_history Merged _ _ h
  · intro taken state input next htaken hadd
    exact merged_addChoice htaken hadd
  · constructor
    · exact List.nodup_nil
    · intro key p hp
      cases hp
    · intro x hx
      cases hx

/-! ## The bound -/

def Distinct (p : Purpose) : Prop :=
  p.candidateEndpoints.length ≤ 2 ∧
    (p.candidateEndpoints.map fun c => displayText c.epName).Nodup

/-- Every purpose has at most two candidates, which are distinct, and the
groups take all of them. -/
def InRange (purposes : List Purpose) : Prop :=
  (forall p, p ∈ purposes -> Distinct p) ∧
    exists grouped, group purposes = .ok grouped

theorem exists_addToGroup {grouped : Groups} {p : Purpose}
    (h : p.candidateEndpoints.length ≤ 2) :
    exists next, addToGroup grouped p = .ok next := by
  unfold addToGroup
  split
  · exact ⟨_, rfl⟩
  · exact ⟨_, rfl⟩
  · exact ⟨_, rfl⟩
  · rename_i hnil hsingle hdouble
    match hlist : p.candidateEndpoints with
    | [] => exact absurd hlist hnil
    | [a] => exact absurd hlist (hsingle a)
    | [a, b] => exact absurd hlist (hdouble a b)
    | a :: b :: c :: rest =>
        rw [hlist] at h
        simp at h

theorem exists_group {purposes : List Purpose}
    (h : forall p, p ∈ purposes -> p.candidateEndpoints.length ≤ 2) :
    exists grouped, group purposes = .ok grouped := by
  unfold group
  generalize (⟨[], [], []⟩ : Groups) = start
  induction purposes generalizing start with
  | nil => exact ⟨start, rfl⟩
  | cons p rest ih =>
      rcases @exists_addToGroup start p (h p List.mem_cons_self) with
        ⟨next, hnext⟩
      rw [List.foldlM_cons, hnext]
      exact ih (fun q hq => h q (List.mem_cons_of_mem p hq)) next

/-- Two elements name endpoints for one purpose. -/
def SamePurpose (x y : Json) : Prop :=
  keyOf x = keyOf y ∧ isTruthy (x.field "epName".toList) = true ∧
    isTruthy (y.field "epName".toList) = true

/-- No three elements name an endpoint for one purpose, and no two the same
one. -/
structure Apart (elements : List Json) : Prop where
  three : forall x y z, [x, y, z].Sublist elements -> SamePurpose x y ->
    ¬ SamePurpose y z
  twice : forall x y, [x, y].Sublist elements -> SamePurpose x y ->
    displayText (x.field "epName".toList) ≠
      displayText (y.field "epName".toList)

theorem isFor_of_mem {key : Text} {x : Json} (h : isFor key x = true) :
    keyOf x = key ∧ isTruthy (x.field "epName".toList) = true := by
  rcases Bool.and_eq_true_iff.mp h with ⟨hkey, hname⟩
  exact ⟨beq_iff_eq.mp hkey, hname⟩

theorem isFor_keyOf {key : Text} {x : Json} (hkey : keyOf x = key)
    (h : isTruthy (x.field "epName".toList) = true) : isFor key x = true := by
  unfold isFor
  rw [h, hkey, beq_self_eq_true]
  rfl

theorem samePurpose_of_isFor {key : Text} {x y : Json}
    (hx : isFor key x = true) (hy : isFor key y = true) : SamePurpose x y := by
  rcases isFor_of_mem hx with ⟨hkeyX, hnameX⟩
  rcases isFor_of_mem hy with ⟨hkeyY, hnameY⟩
  exact ⟨hkeyX.trans hkeyY.symm, hnameX, hnameY⟩

theorem Apart.of_purposes {elements : List Json}
    (hthree : forall key, (elements.filter (isFor key)).length ≤ 2)
    (htwice : forall key, ((elements.filter (isFor key)).map fun x =>
      displayText (x.field "epName".toList)).Nodup) : Apart elements := by
  constructor
  · intro x y z hsub hxy hyz
    have hfor : [x, y, z].filter (isFor (keyOf x)) = [x, y, z] := by
      rw [List.filter_eq_self]
      intro w hw
      simp only [List.mem_cons, List.not_mem_nil, or_false] at hw
      rcases hw with hw | hw | hw
      · rw [hw]
        exact isFor_keyOf rfl hxy.right.left
      · rw [hw]
        exact isFor_keyOf hxy.left.symm hxy.right.right
      · rw [hw]
        exact isFor_keyOf (hxy.left.trans hyz.left).symm hyz.right.right
    have hlength := (hsub.filter (isFor (keyOf x))).length_le
    rw [hfor] at hlength
    exact absurd (hlength.trans (hthree (keyOf x))) (Nat.not_succ_le_self 2)
  · intro x y hsub hxy
    have hfor : [x, y].filter (isFor (keyOf x)) = [x, y] := by
      rw [List.filter_eq_self]
      intro w hw
      simp only [List.mem_cons, List.not_mem_nil, or_false] at hw
      rcases hw with hw | hw
      · rw [hw]
        exact isFor_keyOf rfl hxy.right.left
      · rw [hw]
        exact isFor_keyOf hxy.left.symm hxy.right.right
    have hpair := (hsub.filter (isFor (keyOf x))).map fun w =>
      displayText (w.field "epName".toList)
    rw [hfor] at hpair
    exact List.pairwise_iff_forall_sublist.mp (htwice (keyOf x)) hpair

theorem Apart.length_le {elements : List Json} (h : Apart elements)
    (key : Text) : (elements.filter (isFor key)).length ≤ 2 := by
  match hlist : elements.filter (isFor key) with
  | [] => exact Nat.zero_le 2
  | [x] => exact Nat.le_succ 1
  | [x, y] => exact Nat.le_refl 2
  | x :: y :: z :: rest =>
      have hsub : [x, y, z].Sublist elements := by
        apply List.Sublist.trans _ (List.filter_sublist (p := isFor key))
        rw [hlist]
        exact ((((List.nil_sublist rest).cons_cons z).cons_cons y).cons_cons x)
      have hmem : forall w, w ∈ x :: y :: z :: rest -> isFor key w = true := by
        intro w hw
        rw [← hlist] at hw
        exact (List.mem_filter.mp hw).right
      have hx := hmem x List.mem_cons_self
      have hy := hmem y (List.mem_cons_of_mem _ List.mem_cons_self)
      have hz := hmem z (List.mem_cons_of_mem _
        (List.mem_cons_of_mem _ List.mem_cons_self))
      exact absurd (samePurpose_of_isFor hy hz)
        (h.three x y z hsub (samePurpose_of_isFor hx hy))

theorem Apart.nodup {elements : List Json} (h : Apart elements) (key : Text) :
    ((elements.filter (isFor key)).map fun x =>
      displayText (x.field "epName".toList)).Nodup := by
  unfold List.Nodup
  rw [List.pairwise_map, List.pairwise_iff_forall_sublist]
  intro x y hsub
  have hmem : forall w, w ∈ [x, y] -> isFor key w = true :=
    fun w hw => (List.mem_filter.mp (hsub.subset hw)).right
  apply h.twice x y (hsub.trans List.filter_sublist)
  exact samePurpose_of_isFor (hmem x List.mem_cons_self)
    (hmem y (List.mem_cons_of_mem _ List.mem_cons_self))

theorem Merged.inRange_iff {elements : List Json} {c : Choices}
    (h : Merged elements c) :
    InRange (valuesOf c.purposesSet) <-> Apart elements := by
  have hcandidates : forall key p, c.purposesSet.lookup key = some p ->
      p.candidateEndpoints.length = (elements.filter (isFor key)).length ∧
        (p.candidateEndpoints.map fun c => displayText c.epName) =
          (elements.filter (isFor key)).map fun x =>
            displayText (x.field "epName".toList) := by
    intro key p hp
    rw [(h.purposes key p hp).right, List.length_map, List.map_map]
    exact ⟨rfl, rfl⟩
  constructor
  · intro hrange
    have hdistinct : forall key p, c.purposesSet.lookup key = some p ->
        Distinct p := by
      intro key p hp
      apply hrange.left p
      exact mem_valuesOf.mpr ⟨key, (lookup_iff_mem h.nodup).mp hp⟩
    apply Apart.of_purposes
    · intro key
      cases hp : c.purposesSet.lookup key with
      | none =>
          rw [h.filter_of_lookup hp]
          exact Nat.zero_le 2
      | some p =>
          rw [← (hcandidates key p hp).left]
          exact (hdistinct key p hp).left
    · intro key
      cases hp : c.purposesSet.lookup key with
      | none =>
          rw [h.filter_of_lookup hp]
          exact List.nodup_nil
      | some p =>
          rw [← (hcandidates key p hp).right]
          exact (hdistinct key p hp).right
  · intro hapart
    have hdistinct : forall p, p ∈ valuesOf c.purposesSet -> Distinct p := by
      intro p hp
      rcases mem_valuesOf.mp hp with ⟨key, hentry⟩
      have hlookup := (lookup_iff_mem h.nodup).mpr hentry
      rcases hcandidates key p hlookup with ⟨hlength, hnames⟩
      unfold Distinct
      rw [hlength, hnames]
      exact ⟨hapart.length_le key, hapart.nodup key⟩
    exact ⟨hdistinct, exists_group fun p hp => (hdistinct p hp).left⟩

/-! ## Answers with one key for each purpose -/

/-- The value is a text, or becomes one when it is compared. -/
def IsTextual (v : Value) : Prop :=
  exists w, v = some w ∧ (w.hasIdentity = true ∨ exists s, w = .str s)

theorem Endpoint.isNamed_iff (numbers : NumberReader) (ep : Endpoint)
    (v : Value) :
    ep.isNamed numbers v = true <-> IsTextual v ∧ displayText v = ep.name := by
  unfold Endpoint.isNamed
  cases v with
  | none =>
      constructor
      · intro hfalse
        cases hfalse
      · intro h
        rcases h with ⟨⟨w, hw, _⟩, _⟩
        cases hw
  | some w =>
      rw [Json.looseEq_words_iff numbers ep.words]
      constructor
      · intro h
        exact ⟨⟨w, rfl, h.left⟩, h.right⟩
      · intro h
        rcases h with ⟨⟨w', hw, htextual⟩, hname⟩
        cases hw
        exact ⟨htextual, hname⟩

theorem exists_named_of_accepts {numbers : NumberReader}
    {endpoints : List Endpoint} {topic : Topic} {answer : Value}
    (h : (choicesQuestion numbers endpoints topic).Accepts answer) {x : Json}
    (hx : x ∈ listed answer "usedEndpoints")
    (hname : isTruthy (x.field "epName".toList) = true) :
    exists ep, ep ∈ endpoints ∧
      ep.isNamed numbers (x.field "epName".toList) = true := by
  have hvalid : validChoices numbers endpoints answer = .ok true := h.valid
  unfold validChoices at hvalid
  rcases Fallible.exists_of_bind_ok hvalid with ⟨used, hused, hvalid1⟩
  rcases Fallible.exists_of_bind_ok hvalid1 with
    ⟨unaddressed, hunaddressed, hvalid2⟩
  rcases Fallible.exists_of_bind_ok hvalid2 with
    ⟨someChosen, hchosen, hvalid3⟩
  rcases read_eq_ok_iff.mp hused with ⟨w, hw, _, hfield⟩
  cases someChosen with
  | false => cases hvalid3
  | true =>
      rw [if_pos rfl] at hvalid3
      cases used with
      | none => cases hvalid3
      | some used =>
          cases used with
          | arr items =>
              have hitems : listed answer "usedEndpoints" = items := by
                unfold listed
                rw [hw]
                show spread (w.field "usedEndpoints".toList) = items
                rw [← hfield]
                rfl
              rw [hitems] at hx
              have hhas : hasEndpoint numbers endpoints x = .ok true :=
                Fallible.forall_of_allM hvalid3 x hx
              unfold hasEndpoint at hhas
              rcases Fallible.exists_of_bind_ok hhas with
                ⟨epName, hread, hfound⟩
              rw [read_eq_field hread, hname, Bool.not_true,
                Bool.false_or] at hfound
              split at hfound
              · rename_i hany
                exact List.any_eq_true.mp hany
              · cases hfound
          | null => cases hvalid3
          | bool b => cases hvalid3
          | num n => cases hvalid3
          | str s => cases hvalid3
          | obj fields => cases hvalid3

/-- What an answer is expected to look like: the keys are texts, and no
element of `unaddressedAPI` names an endpoint. -/
structure Plain (answer : Value) (purposes : List Json) : Prop where
  keys : forall x, x ∈ purposes ->
    exists s, x.field "purposeKey".toList = some (.str s)
  unaddressed : forall x, x ∈ listed answer "unaddressedAPI" ->
    isTruthy (x.field "epName".toList) = false

theorem Plain.keys_ne {answer : Value} {purposes : List Json}
    (h : Plain answer purposes) (hpurposes : purposesOf answer = .ok purposes)
    {x y : Json} (hsub : [x, y].Sublist purposes) : keyOf x ≠ keyOf y := by
  intro hkey
  rcases h.keys x (hsub.subset List.mem_cons_self) with ⟨s, hs⟩
  rcases h.keys y (hsub.subset (List.mem_cons_of_mem x List.mem_cons_self)) with
    ⟨t, ht⟩
  have hdifferent : DifferentKeys x y :=
    List.pairwise_iff_forall_sublist.mp (purposesOf_spec hpurposes).right hsub
  unfold keyOf at hkey
  rw [hs, ht] at hkey
  unfold DifferentKeys at hdifferent
  rw [hs, ht] at hdifferent
  have hst : s = t := hkey
  rw [hst] at hdifferent
  exact absurd hdifferent (by
    rw [show Json.sameValue (some (.str t)) (some (.str t)) = (t == t) from rfl,
      beq_self_eq_true]
    exact Bool.noConfusion)

theorem Plain.mem_used {answer : Value} {purposes : List Json}
    (h : Plain answer purposes) (hpurposes : purposesOf answer = .ok purposes)
    {x : Json} (hx : x ∈ purposes)
    (hname : isTruthy (x.field "epName".toList) = true) :
    x ∈ listed answer "usedEndpoints" := by
  rcases List.mem_append.mp ((purposesOf_spec hpurposes).left.subset hx) with
    hx | hx
  · rw [h.unaddressed x hx] at hname
    cases hname
  · exact hx

/-- Two answers that have been accepted, one after the other, and what they
are merged to. -/
structure Chosen (numbers : NumberReader) (endpoints : List Endpoint)
    (answer0 answer1 : Value) (purposes0 purposes1 : List Json)
    (c : Choices) : Prop where
  accepts0 : (chooseQuestion numbers endpoints).Accepts answer0
  purposes0_eq : purposesOf answer0 = .ok purposes0
  accepts1 : (reChooseQuestion numbers
    (leftEndpoints numbers endpoints purposes0) purposes0).Accepts answer1
  purposes1_eq : purposesOf answer1 = .ok purposes1
  merged : mergeChoices numbers endpoints purposes0 purposes1 = .ok c

section Chosen

variable {numbers : NumberReader} {endpoints : List Endpoint}
  {answer0 answer1 : Value} {purposes0 purposes1 : List Json} {c : Choices}

theorem Chosen.names_ne
    (h : Chosen numbers endpoints answer0 answer1 purposes0 purposes1 c)
    {x y : Json} (hx : x ∈ listed answer1 "usedEndpoints")
    (hy : y ∈ listed answer0 "usedEndpoints") (hkept : y ∈ purposes0)
    (hnameX : isTruthy (x.field "epName".toList) = true)
    (hnameY : isTruthy (y.field "epName".toList) = true) :
    displayText (x.field "epName".toList) ≠
      displayText (y.field "epName".toList) := by
  intro heq
  rcases exists_named_of_accepts h.accepts1 hx hnameX with ⟨ep, hep, hnamed⟩
  rcases exists_named_of_accepts h.accepts0 hy hnameY with ⟨ep', _, hnamed'⟩
  have hname := ((ep.isNamed_iff numbers _).mp hnamed).right
  have htextual := ((ep'.isNamed_iff numbers _).mp hnamed').left
  have hsame : ep.isNamed numbers (y.field "epName".toList) = true :=
    (ep.isNamed_iff numbers _).mpr ⟨htextual, heq ▸ hname⟩
  unfold Endpoint.isNamed at hsame
  rw [Json.looseEq_comm] at hsame
  have hleft := (List.mem_filter.mp hep).right
  rw [Bool.not_eq_true', ← Bool.not_eq_true, List.any_eq_true] at hleft
  exact hleft ⟨y, hkept, hsame⟩

theorem Chosen.apart_of_plain
    (h : Chosen numbers endpoints answer0 answer1 purposes0 purposes1 c)
    (hplain0 : Plain answer0 purposes0) (hplain1 : Plain answer1 purposes1) :
    Apart (purposes1 ++ purposes0) := by
  have hpair : forall x y, [x, y].Sublist (purposes1 ++ purposes0) ->
      keyOf x = keyOf y -> x ∈ purposes1 ∧ y ∈ purposes0 := by
    intro x y hsub hkey
    rcases List.sublist_append_iff.mp hsub with ⟨front, back, hlist, hfront,
      hback⟩
    match front, hlist with
    | [], hlist =>
        rw [List.nil_append] at hlist
        rw [← hlist] at hback
        exact absurd hkey (hplain0.keys_ne h.purposes0_eq hback)
    | [a], hlist =>
        cases hlist
        exact ⟨hfront.subset List.mem_cons_self,
          hback.subset List.mem_cons_self⟩
    | [a, b], hlist =>
        cases hlist
        exact absurd hkey (hplain1.keys_ne h.purposes1_eq hfront)
    | a :: b :: c :: rest, hlist => cases hlist
  constructor
  · intro x y z hsub hxy hyz
    have hxz : [x, z].Sublist [x, y, z] :=
      (List.Sublist.cons y (List.Sublist.refl [z])).cons_cons x
    have hyz' : [y, z].Sublist [x, y, z] :=
      List.Sublist.cons x (List.Sublist.refl [y, z])
    have hxy' : [x, y].Sublist [x, y, z] :=
      ((List.nil_sublist [z]).cons_cons y).cons_cons x
    have hy0 := (hpair x y (hxy'.trans hsub) hxy.left).right
    have hy1 := (hpair y z (hyz'.trans hsub) hyz.left).left
    rcases List.sublist_append_iff.mp hsub with ⟨front, back, hlist, hfront,
      hback⟩
    match front, hlist with
    | [], hlist =>
        rw [List.nil_append] at hlist
        rw [← hlist] at hback
        exact hplain0.keys_ne h.purposes0_eq (hxy'.trans hback) hxy.left
    | [a], hlist =>
        cases hlist
        exact hplain0.keys_ne h.purposes0_eq hback hyz.left
    | a :: b :: rest, hlist =>
        injection hlist with hx hlist
        injection hlist with hy hlist
        rw [← hx, ← hy] at hfront
        exact hplain1.keys_ne h.purposes1_eq
          ((((List.nil_sublist rest).cons_cons y).cons_cons x).trans hfront)
          hxy.left
  · intro x y hsub hxy
    rcases hpair x y hsub hxy.left with ⟨hx, hy⟩
    exact h.names_ne (hplain1.mem_used h.purposes1_eq hx hxy.right.left)
      (hplain0.mem_used h.purposes0_eq hy hxy.right.right) hy
      hxy.right.left hxy.right.right

end Chosen

theorem exists_chosen_of_choose {omega : Type} {t : Task omega}
    {endpoints : List Endpoint}
    {state next : Conversation TemplateArgs omega} {c : Choices}
    (h : exec (choose t endpoints) state = (.ok c, next)) :
    exists answer0 answer1 purposes0 purposes1,
      Chosen t.numbers endpoints answer0 answer1 purposes0 purposes1 c := by
  unfold choose at h
  rcases exec_bind_eq_ok h with ⟨purposes0, state1, hfirst, h1⟩
  rcases exec_bind_eq_ok h1 with ⟨_, state2, _, h2⟩
  rcases exec_bind_eq_ok h2 with ⟨purposes1, state3, hsecond, h3⟩
  rcases exec_bind_eq_ok h3 with ⟨merged, state4, hmerge, h4⟩
  rcases exec_bind_eq_ok h4 with ⟨_, state5, _, h5⟩
  rcases exec_bind_eq_ok hfirst with ⟨answer0, asked0, hask0, hpurposes0⟩
  rcases exec_bind_eq_ok hsecond with ⟨answer1, asked1, hask1, hpurposes1⟩
  have hmerged : merged = c := (exec_pure_eq_ok h5).left
  refine ⟨answer0, answer1, purposes0, purposes1, ?_⟩
  constructor
  · exact (accepts_of_ask rfl hask0).left
  · exact congrArg Prod.fst hpurposes0
  · exact (accepts_of_ask rfl hask1).left
  · exact congrArg Prod.fst hpurposes1
  · rw [← hmerged]
    exact congrArg Prod.fst hmerge

section Chosen

variable {numbers : NumberReader} {endpoints : List Endpoint}
  {answer0 answer1 : Value} {purposes0 purposes1 : List Json} {c : Choices}

/-- The bound holds for exactly the answers that are kept apart, which are all
that are plain. -/
theorem inRange_iff_apart
    (h : Chosen numbers endpoints answer0 answer1 purposes0 purposes1 c) :
    (InRange (valuesOf c.purposesSet) <-> Apart (purposes1 ++ purposes0)) ∧
      (Plain answer0 purposes0 -> Plain answer1 purposes1 ->
        InRange (valuesOf c.purposesSet)) := by
  have hiff := (merged_mergeChoices h.merged).inRange_iff
  constructor
  · exact hiff
  · intro hplain0 hplain1
    exact hiff.mpr (h.apart_of_plain hplain0 hplain1)

end Chosen

/-! ## Bills -/

def digitNumbers : NumberReader where
  numberOf s :=
    if s.all Char.isDigit then
      (parseDigits s).map fun n => JsonNumber.ofInt n
    else none
  numberOf_words := by
    intro s h
    apply if_neg
    intro hall
    exact absurd (List.all_eq_true.mp hall ' ' h.space_mem)
      Bool.false_ne_true

def billing : List Endpoint :=
  [⟨"GET /bills".toList, none,
      ⟨"GE".toList, 'T', '/', "bills".toList, rfl, rfl, rfl⟩⟩,
    ⟨"GET /refunds".toList, none,
      ⟨"GE".toList, 'T', '/', "refunds".toList, rfl, rfl, rfl⟩⟩,
    ⟨"POST /payments".toList, none,
      ⟨"POS".toList, 'T', '/', "payments".toList, rfl, rfl, rfl⟩⟩]

/-- An answer that uses an endpoint for each of the keys. -/
def choiceOf (used : List (Json × String)) : Json :=
  example_ [("unaddressedAPI", .arr []),
    ("usedEndpoints", .arr (used.map fun entry =>
      example_ [("purposeKey", entry.1),
        ("epName", .str entry.2.toList)]))]

def chosenBill (key : Json) (name : String) : Json :=
  example_ [("purposeKey", key), ("epName", .str name.toList)]

/-- One key for each answer. -/
theorem inRange_iff_apart_payment :
    exists c,
      Chosen digitNumbers billing
        (some (choiceOf [(.str "pay".toList, "GET /bills")]))
        (some (choiceOf [(.str "pay".toList, "POST /payments")]))
        [chosenBill (.str "pay".toList) "GET /bills"]
        [chosenBill (.str "pay".toList) "POST /payments"] c ∧
      (InRange (valuesOf c.purposesSet) <->
        Apart ([chosenBill (.str "pay".toList) "POST /payments"] ++
          [chosenBill (.str "pay".toList) "GET /bills"])) := by
  have hchosen : Chosen digitNumbers billing
      (some (choiceOf [(.str "pay".toList, "GET /bills")]))
      (some (choiceOf [(.str "pay".toList, "POST /payments")]))
      [chosenBill (.str "pay".toList) "GET /bills"]
      [chosenBill (.str "pay".toList) "POST /payments"]
      _ := ⟨⟨fun _ => rfl, rfl⟩, rfl, ⟨fun _ => rfl, rfl⟩, rfl, rfl⟩
  exact ⟨_, hchosen, (inRange_iff_apart hchosen).left⟩

def billCandidate (name : String) : Candidate :=
  ⟨some (.str name.toList), none⟩

def crowdedPurpose : Purpose where
  purposeKey := some (.str "1".toList)
  usedFor := none
  needExternalAPI := none
  candidateEndpoints := [billCandidate "POST /payments",
    billCandidate "GET /bills", billCandidate "GET /refunds"]

/-- The keys `1` and `"1"` are different values with one text: the purpose has
three candidates, for which there is no group. -/
theorem not_inRange_bills :
    exists c,
      Chosen digitNumbers billing
        (some (choiceOf [(.num (.ofInt 1), "GET /bills"),
          (.str "1".toList, "GET /refunds")]))
        (some (choiceOf [(.str "1".toList, "POST /payments")]))
        [chosenBill (.num (.ofInt 1)) "GET /bills",
          chosenBill (.str "1".toList) "GET /refunds"]
        [chosenBill (.str "1".toList) "POST /payments"] c ∧
      c.purposesSet = [("1".toList, crowdedPurpose)] ∧
      ¬ InRange (valuesOf c.purposesSet) ∧
      group (valuesOf c.purposesSet) =
        .error (.readUndefined "push".toList) := by
  have hchosen : Chosen digitNumbers billing
      (some (choiceOf [(.num (.ofInt 1), "GET /bills"),
        (.str "1".toList, "GET /refunds")]))
      (some (choiceOf [(.str "1".toList, "POST /payments")]))
      [chosenBill (.num (.ofInt 1)) "GET /bills",
        chosenBill (.str "1".toList) "GET /refunds"]
      [chosenBill (.str "1".toList) "POST /payments"]
      _ := ⟨⟨fun _ => rfl, rfl⟩, rfl, ⟨fun _ => rfl, rfl⟩, rfl, rfl⟩
  have hvalues : valuesOf [("1".toList, crowdedPurpose)] = [crowdedPurpose] :=
    List.perm_singleton.mp (valuesOf_perm _)
  refine ⟨_, hchosen, rfl, ?_⟩
  show ¬ InRange (valuesOf [("1".toList, crowdedPurpose)]) ∧
    group (valuesOf [("1".toList, crowdedPurpose)]) = _
  rw [hvalues]
  constructor
  · intro hrange
    have htwo := (hrange.left crowdedPurpose List.mem_cons_self).left
    exact absurd htwo (Nat.not_succ_le_self 2)
  · rfl

end Agents
end CallgentApi
