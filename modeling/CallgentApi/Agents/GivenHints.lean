import CallgentApi.Agents.SafeRuns

/-!
# The hints that are given

Where the arguments are confirmed, every hint has been let through by the
validator for a purpose of that key, nobody is to be asked about it any more,
and nothing of the talk is left in it.
-/

namespace CallgentApi
namespace Agents

open Js Event Effect Config Fallible

/-! ## Hints that are cleared -/

/-- The hint without what only the talk has needed. -/
def ArgHint.settled (arg : ArgHint) : ArgHint where
  argName := arg.argName
  fromAPI := if hasLength arg.fromAPI then arg.fromAPI else none
  fromUser :=
    if arg.flag then readSome arg.fromUser "userProvided" else none
  mapping :=
    if isTruthy arg.mapping then
      deleteField (deleteField arg.mapping "mismatch") "conversion"
    else arg.mapping

def PurposeHints.settled (hints : PurposeHints) : PurposeHints :=
  { hints with args := hints.args.map ArgHint.settled }

/-- Where the user provides the argument there is no question, and where there
is no question no conversion is missing. -/
structure ArgHint.Clear (arg : ArgHint) : Prop where
  question : arg.flag = true -> arg.needConfirm = false
  conversion : isTruthy arg.mapping = true -> arg.needConfirm = false ->
    isTruthy (readSome (readSome arg.mapping "conversion") "missing") = false

structure Findings.Quiet (found : Findings) : Prop where
  needConfirms : found.needConfirms = []
  mismatches : found.mismatches = []

section Clear

variable {purposeKey : Value} {found : Findings} {arg : ArgHint}

theorem clearFromUser_quiet {result : Findings × ArgHint}
    (h : clearFromUser purposeKey found arg = .ok result)
    (hquiet : result.1.Quiet) :
    found.Quiet ∧ (arg.flag = true -> arg.needConfirm = false) ∧
      result.2 = { arg with fromUser := arg.settled.fromUser } := by
  unfold ArgHint.settled
  unfold clearFromUser at h
  cases hflag : arg.flag with
  | false =>
      rw [hflag] at h
      cases h
      exact ⟨hquiet, Bool.noConfusion, rfl⟩
  | true =>
      rw [hflag, if_pos rfl] at h
      cases hneed : arg.needConfirm with
      | false =>
          rw [hneed] at h
          cases h
          exact ⟨hquiet, fun _ => rfl, rfl⟩
      | true =>
          rw [hneed, if_pos rfl] at h
          rcases exists_of_bind_ok h with ⟨next, hnext, hresult⟩
          cases hresult
          exact absurd hquiet.needConfirms (ne_nil_of_pushUnder hnext)

theorem clearMapping_quiet {fromUser : Value} {result : Findings × ArgHint}
    (h : clearMapping purposeKey fromUser found arg = .ok result)
    (hquiet : result.1.Quiet) :
    found.Quiet ∧
      (isTruthy arg.mapping = true ->
        isTruthy (readSome fromUser "needConfirm") = false ->
        isTruthy (readSome (readSome arg.mapping "conversion") "missing") =
          false) ∧
      result.2 = { arg with mapping := arg.settled.mapping } := by
  unfold ArgHint.settled
  unfold clearMapping at h
  cases htruthy : isTruthy arg.mapping with
  | false =>
      rw [htruthy] at h
      cases h
      exact ⟨hquiet, Bool.noConfusion, rfl⟩
  | true =>
      rw [htruthy, if_neg (show ¬ (!true) = true from Bool.false_ne_true)] at h
      rcases exists_of_bind_ok h with ⟨needConfirm, hread, h1⟩
      have hneed : needConfirm = readSome fromUser "needConfirm" := by
        have hsome := read_of_not_nullish (isNullish_of_read hread)
          "needConfirm"
        rw [hread] at hsome
        exact Except.ok.inj hsome
      rw [hneed, readSome_deleteField (show "conversion".toList ≠
        "mismatch".toList from by decide)] at h1
      cases hmissing : !isTruthy (readSome fromUser "needConfirm") &&
          isTruthy (readSome (readSome arg.mapping "conversion") "missing") with
      | false =>
          rw [hmissing] at h1
          cases h1
          refine ⟨hquiet, ?_, rfl⟩
          intro _ hno
          rw [hno] at hmissing
          exact hmissing
      | true =>
          rw [hmissing, if_pos rfl] at h1
          rcases exists_of_bind_ok h1 with ⟨next, hnext, hresult⟩
          cases hresult
          exact absurd hquiet.mismatches (ne_nil_of_pushUnder hnext)

theorem clearFromAPI_eq (arg : ArgHint) :
    clearFromAPI arg = { arg with fromAPI := arg.settled.fromAPI } := by
  unfold clearFromAPI ArgHint.settled
  split
  · rfl
  · rfl

theorem clearArg_quiet {state result : Findings × List ArgHint}
    (h : clearArg purposeKey state arg = .ok result)
    (hquiet : result.1.Quiet) :
    state.1.Quiet ∧ arg.Clear ∧ result.2 = state.2 ++ [arg.settled] := by
  unfold clearArg at h
  rcases exists_of_bind_ok h with ⟨first, hfirst, h1⟩
  rcases exists_of_bind_ok h1 with ⟨second, hsecond, hresult⟩
  cases hresult
  rcases clearMapping_quiet hsecond hquiet with ⟨hquiet1, hmisses, hmapped⟩
  rcases clearFromUser_quiet hfirst hquiet1 with ⟨hquiet0, hasks, hcleared⟩
  rw [hcleared, clearFromAPI_eq] at hmisses hmapped
  refine ⟨hquiet0, ⟨hasks, hmisses⟩, ?_⟩
  rw [hmapped]
  rfl

theorem clearMapping_of_needConfirm {fromUser : Value}
    (h : isTruthy (readSome fromUser "needConfirm") = true)
    (found : Findings) (arg : ArgHint) :
    clearMapping purposeKey fromUser found arg =
      .ok (found, { arg with mapping := arg.settled.mapping }) := by
  have hread : read fromUser "needConfirm" =
      .ok (readSome fromUser "needConfirm") := by
    cases fromUser with
    | none => cases h
    | some w =>
        apply read_of_ne_null
        intro hnull
        rw [hnull] at h
        cases h
  unfold clearMapping ArgHint.settled
  dsimp only
  rw [hread]
  cases isTruthy arg.mapping with
  | false => rfl
  | true =>
      rw [if_neg (show ¬ (!true) = true from Bool.false_ne_true), ok_bind, h]
      rfl

theorem clearArg_of_unflagged (hflag : arg.flag = false)
    (hneed : arg.needConfirm = true) (state : Findings × List ArgHint) :
    clearArg purposeKey state arg =
      .ok (state.1, state.2 ++ [arg.settled]) := by
  have hcleared : clearFromUser purposeKey state.1 arg =
      .ok (state.1, { arg with fromUser := arg.settled.fromUser }) := by
    unfold clearFromUser ArgHint.settled
    rw [hflag]
    rfl
  unfold clearArg
  rw [hcleared, ok_bind]
  dsimp only
  rw [clearFromAPI_eq, clearMapping_of_needConfirm hneed, ok_bind]
  rfl

theorem clearPurpose_quiet {hints : PurposeHints}
    {state result : Findings × List PurposeHints}
    (h : clearPurpose state hints = .ok result) (hquiet : result.1.Quiet) :
    state.1.Quiet ∧ (forall arg, arg ∈ hints.args -> arg.Clear) ∧
      result.2 = state.2 ++ [hints.settled] := by
  unfold clearPurpose at h
  rcases exists_of_bind_ok h with ⟨last, hfold, hresult⟩
  cases hresult
  have hall : last.1.Quiet -> state.1.Quiet ∧
      (forall arg, arg ∈ hints.args -> arg.Clear) ∧
      last.2 = hints.args.map ArgHint.settled := by
    apply foldlM_history (fun (taken : List ArgHint)
      (inner : Findings × List ArgHint) => inner.1.Quiet -> state.1.Quiet ∧
        (forall arg, arg ∈ taken -> arg.Clear) ∧
        inner.2 = taken.map ArgHint.settled) _ _ hfold
    · intro taken inner arg next hinner hclear hnext
      rcases clearArg_quiet hclear hnext with ⟨hquiet1, harg, hargs⟩
      rcases hinner hquiet1 with ⟨hquiet0, htaken, heq⟩
      refine ⟨hquiet0, ?_, ?_⟩
      · simpa [or_imp, forall_and] using ⟨htaken, harg⟩
      · rw [hargs, heq, List.map_append]
        rfl
    · intro hstart
      exact ⟨hstart, fun _ hmem => (nomatch hmem), rfl⟩
  rcases hall hquiet with ⟨hquiet0, hclear, hargs⟩
  refine ⟨hquiet0, hclear, ?_⟩
  rw [hargs]
  rfl

end Clear

theorem clearHints_spec {hints cleared : List PurposeHints}
    (h : clearHints hints = .ok cleared) :
    cleared = hints.map PurposeHints.settled ∧
      forall found, found ∈ hints -> forall arg, arg ∈ found.args ->
        arg.Clear := by
  unfold clearHints at h
  rcases exists_of_bind_ok h with ⟨last, hfold, h1⟩
  have hall : last.1.Quiet -> last.2 = hints.map PurposeHints.settled ∧
      forall found, found ∈ hints -> forall arg, arg ∈ found.args ->
        arg.Clear := by
    apply foldlM_history (fun (taken : List PurposeHints)
      (state : Findings × List PurposeHints) => state.1.Quiet ->
        state.2 = taken.map PurposeHints.settled ∧
        forall found, found ∈ taken -> forall arg, arg ∈ found.args ->
          arg.Clear) _ _ hfold
    · intro taken state found next hstate hclear hnext
      rcases clearPurpose_quiet hclear hnext with ⟨hquiet, hfound, heq⟩
      rcases hstate hquiet with ⟨htaken, hall⟩
      constructor
      · rw [heq, htaken, List.map_append]
        rfl
      · intro other hmem
        rcases List.mem_append.mp hmem with hold | hnew
        · exact hall other hold
        · rw [List.mem_singleton.mp hnew]
          exact hfound
    · intro _
      exact ⟨rfl, fun _ hmem => (nomatch hmem)⟩
  dsimp only at h1
  have hempty : forall {v : Type} {entries : List (Text × v)},
      ¬ (!(valuesOf entries).isEmpty) = true -> entries = [] := by
    intro v entries hnot
    have hnil : valuesOf entries = [] := by
      simpa using hnot
    have hlength := (valuesOf_perm entries).length_eq
    rw [hnil, List.length_map] at hlength
    exact List.length_eq_zero_iff.mp hlength.symm
  split at h1
  · cases h1
  · rename_i hmismatches
    split at h1
    · cases h1
    · rename_i hneed
      cases h1
      exact hall ⟨hempty hneed, hempty hmismatches⟩

/-! ## Hints that have been accepted -/

section Accepted

variable (numbers : NumberReader) (endpoints : List (Option Endpoint))
  (purposes : List UsedEndpoint)

/-- The validator has let the argument through, for a purpose that has the
key. -/
structure AcceptedFor (purposeKey : Value) (arg : ArgHint)
    (item : Json) (purpose : UsedEndpoint) (ep : Endpoint)
    (params : ParamTable) : Prop where
  chosen : purposes.find? (fun p =>
    Json.looseEq numbers p.purposeKey purposeKey) = some purpose
  endpoint : findEndpoint numbers purpose.epName endpoints = .ok (some ep)
  table : paramTable ep.params = .ok params
  valid : checkArgument params ep.name item = .ok true
  hint : readHint item = .ok arg

/-- The argument has been accepted for the key, or for one that is found in its
place. -/
def Vouched (purposeKey : Value) (arg : ArgHint) : Prop :=
  exists key, (key = purposeKey ∨
      Json.looseEq numbers purposeKey key = true) ∧
    exists item purpose ep params,
      AcceptedFor numbers endpoints purposes key arg item purpose ep params

def AllVouched (hints : List PurposeHints) : Prop :=
  forall h, h ∈ hints -> forall arg, arg ∈ h.args ->
    Vouched numbers endpoints purposes h.purposeKey arg

variable {numbers endpoints purposes}

theorem acceptedFor_of_check {item : Json} {h : PurposeHints}
    (hcheck : checkPurpose numbers endpoints purposes item = .ok true)
    (hread : readPurpose item = .ok h) {arg : ArgHint} (harg : arg ∈ h.args) :
    exists x purpose ep params, AcceptedFor numbers endpoints purposes
      h.purposeKey arg x purpose ep params := by
  unfold readPurpose at hread
  rcases exists_of_bind_ok hread with ⟨purposeKey, hkey, h1⟩
  rcases exists_of_bind_ok h1 with ⟨args, hargs, h2⟩
  rcases exists_of_bind_ok h2 with ⟨elements, helements, h3⟩
  rcases exists_of_bind_ok h3 with ⟨hints, hmap, heq⟩
  cases heq
  unfold checkPurpose at hcheck
  rw [hkey, ok_bind, hargs, ok_bind] at hcheck
  split at hcheck
  · cases hcheck
  · rename_i purpose hpurpose
    rcases exists_of_bind_ok hcheck with ⟨found, hfound, h4⟩
    split at h4
    · cases h4
    · rename_i ep
      rcases exists_of_bind_ok h4 with ⟨params, hparams, h5⟩
      rcases every_eq_true h5 with ⟨items, hitems, hall⟩
      rw [hitems] at helements
      cases helements
      rcases exists_of_mem_mapM hmap harg with ⟨x, hx, hhint⟩
      exact ⟨x, purpose, ep, params, hpurpose, hfound, hparams, hall x hx,
        hhint⟩

theorem allVouched_of_valid {answer : Value} {hints : List PurposeHints}
    (hvalid : validHints numbers endpoints purposes answer = .ok true)
    (hread : readHints answer = .ok hints) :
    AllVouched numbers endpoints purposes hints := by
  rcases every_eq_true hvalid with ⟨items, hitems, hall⟩
  unfold readHints at hread
  rw [hitems] at hread
  intro h hmem arg harg
  rcases exists_of_mem_mapM hread hmem with ⟨item, hitem, hpurpose⟩
  exact ⟨h.purposeKey, Or.inl rfl,
    acceptedFor_of_check (hall item hitem) hpurpose harg⟩

theorem valid_of_validAgain {again : List ReConfirm} {answer : Value}
    (h : validAgain numbers endpoints purposes again answer = .ok true) :
    validHints numbers endpoints purposes answer = .ok true := by
  unfold validAgain at h
  rcases exists_of_bind_ok h with ⟨covered, _, hvalid⟩
  cases covered with
  | false => cases hvalid
  | true => exact hvalid

theorem allVouched_trustHints {hints merged : List PurposeHints}
    {answer : Value} (hold : AllVouched numbers endpoints purposes hints)
    (hvalid : validHints numbers endpoints purposes answer = .ok true)
    (h : trustHints numbers hints answer = .ok merged) :
    AllVouched numbers endpoints purposes merged := by
  unfold trustHints at h
  rcases exists_of_bind_ok h with ⟨all, hread, hfold⟩
  rcases every_eq_true hvalid with ⟨items, hitems, hall⟩
  have hread' : items.mapM readPurpose = .ok all := by
    unfold readHints at hread
    rw [hitems] at hread
    exact hread
  apply foldlM_invariant (AllVouched numbers endpoints purposes) _ hold hfold
  intro state later next hlater hstate hnext found hfound arg harg
  rcases (trust_spec hnext).right found hfound with ⟨old, hmem, hkey, hargs⟩
  rcases hargs arg harg with hargs | ⟨hequal, hargs⟩
  · rw [← hkey]
    exact hstate old hmem arg hargs
  · rcases exists_of_mem_mapM hread' hlater with ⟨item, hitem, hpurpose⟩
    rw [← hkey]
    exact ⟨later.purposeKey, Or.inr hequal,
      acceptedFor_of_check (hall item hitem) hpurpose hargs⟩

end Accepted

/-! ## What the talk gives -/

/-- The hints are those of clear arguments that have all been accepted. -/
def Settled (numbers : NumberReader) (endpoints : List (Option Endpoint))
    (purposes : List UsedEndpoint) (hints : List PurposeHints) : Prop :=
  exists given, hints = given.map PurposeHints.settled ∧
    AllVouched numbers endpoints purposes given ∧
    forall h, h ∈ given -> forall arg, arg ∈ h.args -> arg.Clear

section Talk

variable {omega : Type} {t : Task omega} {endpoints : List (Option Endpoint)}
  {purposes : List UsedEndpoint}

theorem returns_ask {q : Question} (hschema : q.parseSchema.truthy = true) :
    Returns (fun answer => q.Accepts answer) (ask t q) := by
  intro c answer next h
  exact (accepts_of_ask hschema h).left

theorem returns_ofResult {s e a : Type} (x : Except e a) :
    Returns (fun value => x = .ok value) (ofResult x : Effect s e a) := by
  intro state value next h
  exact congrArg Prod.fst h

theorem returns_confirmAgain {hints : List PurposeHints}
    (h : AllVouched t.numbers endpoints purposes hints) :
    Returns (AllVouched t.numbers endpoints purposes)
      (confirmAgain t endpoints purposes hints) := by
  unfold confirmAgain
  refine Returns.bind_any ?_
  intro again
  split
  · exact Returns.pure h
  · refine Returns.bind_any ?_
    intro _
    have hask := returns_ask (t := t)
      (q := reConfirmQuestion t.numbers endpoints purposes again) rfl
    refine Returns.bind hask ?_
    intro answer haccepts state merged next hexec
    exact allVouched_trustHints h (valid_of_validAgain haccepts.valid)
      (returns_ofResult (trustHints t.numbers hints answer) state merged next
        hexec)

/-- Whatever the models answer, the hints that are given have been accepted
and are settled. -/
theorem settled_confirmEndpointArgs (t : Task omega)
    (endpoints : List (Option Endpoint)) (purposes : List UsedEndpoint) :
    Returns (Settled t.numbers endpoints purposes)
      (confirmEndpointArgs t endpoints purposes) := by
  unfold confirmEndpointArgs
  have hask := returns_ask (t := t)
    (q := argsQuestion t.numbers endpoints purposes) rfl
  refine Returns.bind hask ?_
  intro answer haccepts
  refine Returns.bind (returns_ofResult _) ?_
  intro hints hread
  refine Returns.bind
    (returns_confirmAgain (allVouched_of_valid haccepts.valid hread)) ?_
  intro given hgiven state cleared next hexec
  have hcleared : clearHints given = .ok cleared :=
    returns_ofResult (clearHints given) state cleared next hexec
  rcases clearHints_spec hcleared with ⟨heq, hclear⟩
  exact ⟨given, heq, hgiven, hclear⟩

end Talk

end Agents
end CallgentApi
