import CallgentApi.Agents.Safety
import CallgentApi.Agents.SchemaPaths

/-!
# Runs that end as expected

An answer is harmless where the steps after it do not refuse what its
validator has let through.
-/

namespace CallgentApi
namespace Agents

open Js Event Effect Config Fallible

/-! ## Hints that are replaced -/

section UpdateFirst

variable {a b : Type} {p : a -> Bool} {f : a -> a}

theorem map_updateFirst {g : a -> b} (h : forall x, g (f x) = g x)
    (l : List a) : (updateFirst p f l).map g = l.map g := by
  induction l with
  | nil => rfl
  | cons x rest ih =>
      unfold updateFirst
      split
      · rw [List.map_cons, List.map_cons, h]
      · rw [List.map_cons, List.map_cons, ih]

theorem mem_updateFirst {l : List a} {x : a} (h : x ∈ updateFirst p f l) :
    x ∈ l ∨ exists y, y ∈ l ∧ p y = true ∧ x = f y := by
  induction l with
  | nil => cases h
  | cons y rest ih =>
      unfold updateFirst at h
      split at h
      · rename_i hp
        rcases List.mem_cons.mp h with heq | hrest
        · exact Or.inr ⟨y, List.mem_cons_self, hp, heq⟩
        · exact Or.inl (List.mem_cons_of_mem y hrest)
      · rcases List.mem_cons.mp h with heq | hrest
        · rw [heq]
          exact Or.inl List.mem_cons_self
        · rcases ih hrest with hold | ⟨z, hz, hp, heq⟩
          · exact Or.inl (List.mem_cons_of_mem y hold)
          · exact Or.inr ⟨z, List.mem_cons_of_mem y hz, hp, heq⟩

end UpdateFirst

section Trust

variable {numbers : NumberReader}

theorem mem_foldl_replaceArg {later args : List ArgHint} {arg : ArgHint}
    (h : arg ∈ later.foldl (replaceArg numbers) args) :
    arg ∈ args ∨ arg ∈ later := by
  induction later generalizing args with
  | nil => exact Or.inl h
  | cons first rest ih =>
      rcases ih h with hold | hnew
      · rcases mem_updateFirst hold with hold | ⟨_, _, _, heq⟩
        · exact Or.inl hold
        · rw [heq]
          exact Or.inr List.mem_cons_self
      · exact Or.inr (List.mem_cons_of_mem first hnew)

def Covered (numbers : NumberReader) (hints : List PurposeHints)
    (later : PurposeHints) : Prop :=
  later.args ≠ [] ->
    exists purposeKey, purposeKey ∈ hints.map PurposeHints.purposeKey ∧
      Json.looseEq numbers purposeKey later.purposeKey = true

variable {hints next : List PurposeHints} {later : PurposeHints}

theorem trust_ok_iff :
    (exists next, trust numbers hints later = .ok next) <->
      Covered numbers hints later := by
  have hany : (hints.any fun h =>
      Json.looseEq numbers h.purposeKey later.purposeKey) = true <->
      exists purposeKey, purposeKey ∈ hints.map PurposeHints.purposeKey ∧
        Json.looseEq numbers purposeKey later.purposeKey = true := by
    rw [List.any_eq_true]
    constructor
    · intro h
      rcases h with ⟨found, hmem, hequal⟩
      exact ⟨_, List.mem_map_of_mem hmem, hequal⟩
    · intro h
      rcases h with ⟨purposeKey, hmem, hequal⟩
      rcases List.mem_map.mp hmem with ⟨found, hfound, heq⟩
      rw [← heq] at hequal
      exact ⟨found, hfound, hequal⟩
  unfold Covered trust
  rw [← hany]
  dsimp only
  cases hargs : later.args with
  | nil =>
      apply iff_of_true ⟨_, rfl⟩
      intro hne
      exact absurd rfl hne
  | cons first rest =>
      cases hints.any fun h =>
          Json.looseEq numbers h.purposeKey later.purposeKey with
      | true => exact iff_of_true ⟨_, rfl⟩ fun _ => rfl
      | false =>
          apply iff_of_false
          · intro hok
            rcases hok with ⟨next, hnext⟩
            cases hnext
          · intro h
            cases h (List.cons_ne_nil first rest)

theorem trust_spec (h : trust numbers hints later = .ok next) :
    next.map PurposeHints.purposeKey = hints.map PurposeHints.purposeKey ∧
      forall found, found ∈ next -> exists old, old ∈ hints ∧
        old.purposeKey = found.purposeKey ∧
        forall arg, arg ∈ found.args -> arg ∈ old.args ∨
          Json.looseEq numbers old.purposeKey later.purposeKey = true ∧
            arg ∈ later.args := by
  unfold trust at h
  dsimp only at h
  split at h
  · cases h
  · cases h
    constructor
    · apply map_updateFirst
      intro found
      rfl
    · intro found hfound
      rcases mem_updateFirst hfound with hold | ⟨old, hold, hequal, heq⟩
      · exact ⟨found, hold, rfl, fun arg harg => Or.inl harg⟩
      · refine ⟨old, hold, by rw [heq], ?_⟩
        intro arg harg
        rw [heq] at harg
        rcases mem_foldl_replaceArg harg with hargs | hargs
        · exact Or.inl hargs
        · exact Or.inr ⟨hequal, hargs⟩

theorem throws_trust : Throws IsTypeError (trust numbers hints later) := by
  unfold trust
  dsimp only
  split
  · exact Throws.error rfl
  · exact Throws.ok _

theorem foldlM_trust_ok_iff (all : List PurposeHints) :
    (exists merged, all.foldlM (trust numbers) hints = .ok merged) <->
      forall later, later ∈ all -> Covered numbers hints later := by
  apply foldlM_ok_iff fun state : List PurposeHints =>
    state.map PurposeHints.purposeKey = hints.map PurposeHints.purposeKey
  · intro state later _ hkeys
    rw [trust_ok_iff]
    unfold Covered
    rw [hkeys]
  · intro state later next _ hkeys hnext
    exact (trust_spec hnext).left.trans hkeys
  · rfl

theorem readable_foldlM_trust {all merged : List PurposeHints}
    (hall : Readable all) (hhints : Readable hints)
    (h : all.foldlM (trust numbers) hints = .ok merged) : Readable merged := by
  apply foldlM_invariant Readable _ hhints h
  intro state later next hmem hstate hnext found hfound arg harg
  rcases (trust_spec hnext).right found hfound with ⟨old, hold, _, hargs⟩
  rcases hargs arg harg with hargs | ⟨_, hargs⟩
  · exact hstate old hold arg hargs
  · exact hall later hmem arg hargs

end Trust

/-! ## Harmless answers -/

def Stage.Harmless (numbers : NumberReader) : Stage -> Value -> Prop
  | choose _, answer => NoNull answer
  | reChoose _ purposes0, answer =>
      NoNull answer ∧ forall purposes1, purposesOf answer = .ok purposes1 ->
        Mergeable (purposes1 ++ purposes0)
  | confirm _ _, _ => True
  | args _ _, answer =>
      forall hints, readHints answer = .ok hints ->
        ForArgs (fun key arg => arg.Confirmable key) hints ∧
          (ForArgs (fun _ arg => arg.isUncertain ≠ .ok true) hints ->
            ForArgs (fun key arg => arg.Clearable key) hints)
  | reConfirm _ _ argsHints _, answer =>
      forall later, readHints answer = .ok later ->
        (forall hints, hints ∈ later -> Covered numbers argsHints hints) ∧
          forall merged, later.foldlM (trust numbers) argsHints = .ok merged ->
            ForArgs (fun key arg => arg.Clearable key) merged
  | ended _, _ => True

def Stage.KeepsReadable : Stage -> Prop
  | reConfirm _ _ argsHints _ => Readable argsHints
  | _ => True

section Step

variable {numbers : NumberReader} {stage next : Stage} {answer : Value}

theorem accepts_of_step (h : stage.step numbers answer = some next) :
    exists q, stage.question numbers = some q ∧ q.Accepts answer ∧
      next = stage.next numbers answer := by
  unfold Stage.step at h
  split at h
  · cases h
  · rename_i q hq
    split at h
    · rename_i haccepts
      exact ⟨q, hq, Question.accepts_iff.mp haccepts,
        (Option.some.inj h).symm⟩
    · cases h

theorem isFine_afterHints_iff {endpoints : List (Option Endpoint)}
    {purposes : List UsedEndpoint}
    (h : validHints numbers endpoints purposes answer = .ok true) :
    (Stage.orEnd (Stage.afterHints endpoints purposes answer)).IsFine <->
      (Stage.args endpoints purposes).Harmless numbers answer := by
  rcases exists_hints_of_valid h with ⟨hints, hhints, hreadable⟩
  have hconfirm := reConfirmArgs_ok_iff hints
  have hfine : (Stage.orEnd
      (Stage.afterHints endpoints purposes answer)).IsFine <->
      ForArgs (fun key arg => arg.Confirmable key) hints ∧
        (ForArgs (fun _ arg => arg.isUncertain ≠ .ok true) hints ->
          ForArgs (fun key arg => arg.Clearable key) hints) := by
    unfold Stage.afterHints
    rw [hhints, ok_bind]
    cases hagain : reConfirmArgs hints with
    | error e =>
        apply iff_of_false
        · intro hfine
          exact Expected.not_isTypeError hfine
            (throws_reConfirmArgs hints e hagain)
        · intro hok
          rcases hconfirm.mpr hok.left with ⟨again, hok⟩
          rw [hagain] at hok
          cases hok
    | ok again =>
        rw [and_iff_right (hconfirm.mp ⟨again, hagain⟩),
          ← reConfirmArgs_nil_iff hagain, ← isFine_clearHints_iff hreadable,
          ok_bind]
        cases again with
        | nil =>
            constructor
            · intro hfine _
              exact hfine
            · intro hfine
              exact hfine rfl
        | cons first rest =>
            apply iff_of_true
            · exact True.intro
            · intro hnil
              cases hnil
  constructor
  · intro h hints' hhints'
    rw [hhints] at hhints'
    rw [← Except.ok.inj hhints']
    exact hfine.mp h
  · intro h
    exact hfine.mpr (h hints hhints)

theorem isFine_afterTrust_iff {argsHints : List PurposeHints}
    {endpoints : List (Option Endpoint)} {purposes : List UsedEndpoint}
    {again : List ReConfirm}
    (h : validAgain numbers endpoints purposes again answer = .ok true)
    (hreadable : Readable argsHints) :
    (Stage.ended
      (trustHints numbers argsHints answer >>= clearHints)).IsFine <->
      (Stage.reConfirm endpoints purposes argsHints again).Harmless numbers
        answer := by
  unfold validAgain at h
  rcases exists_of_bind_ok h with ⟨covered, _, hvalid⟩
  cases covered with
  | false => cases hvalid
  | true =>
      rcases exists_hints_of_valid hvalid with ⟨later, hlater, hreadableLater⟩
      unfold trustHints
      rw [hlater, ok_bind]
      have htrust := @foldlM_trust_ok_iff numbers argsHints later
      constructor
      · intro hfine later' heq
        rw [hlater] at heq
        rw [← Except.ok.inj heq]
        cases hmerged : later.foldlM (trust numbers) argsHints with
        | error e =>
            rw [hmerged] at hfine
            exact absurd (Throws.foldlM (fun _ _ => throws_trust) later
              argsHints e hmerged) (Expected.not_isTypeError hfine)
        | ok merged =>
            rw [hmerged] at hfine
            constructor
            · exact htrust.mp ⟨merged, hmerged⟩
            · intro merged' heq'
              rw [← Except.ok.inj heq']
              exact (isFine_clearHints_iff (readable_foldlM_trust
                hreadableLater hreadable hmerged)).mp hfine
      · intro hharmless
        rcases hharmless later hlater with ⟨hcovered, hclearable⟩
        rcases htrust.mpr hcovered with ⟨merged, hmerged⟩
        rw [hmerged]
        exact (isFine_clearHints_iff (readable_foldlM_trust
          hreadableLater hreadable hmerged)).mpr (hclearable merged hmerged)

theorem isFine_step_iff (hkeeps : stage.KeepsReadable)
    (h : stage.step numbers answer = some next) :
    next.IsFine <-> stage.Harmless numbers answer := by
  rcases accepts_of_step h with ⟨q, hq, haccepts, hnext⟩
  rw [hnext]
  cases stage with
  | choose endpoints =>
      cases hq
      show (Stage.orEnd (do
        return Stage.reChoose endpoints (← purposesOf answer))).IsFine <->
          NoNull answer
      have hthrows : Throws IsTypeError (do
          return Stage.reChoose endpoints (← purposesOf answer)) :=
        Throws.bind (throws_purposesOf answer) fun _ _ => Throws.ok _
      rw [← purposesOf_ok_iff haccepts, isFine_orEnd_iff hthrows]
      constructor
      · intro hok
        rcases hok with ⟨stage, hstage, _⟩
        rcases exists_of_bind_ok hstage with ⟨purposes, hpurposes, _⟩
        exact ⟨purposes, hpurposes⟩
      · intro hok
        rcases hok with ⟨purposes, hpurposes⟩
        rw [hpurposes]
        exact ⟨_, rfl, True.intro⟩
  | reChoose endpoints purposes0 =>
      cases hq
      exact isFine_afterChoices_iff haccepts
  | confirm choices grouped => exact iff_of_true True.intro True.intro
  | args endpoints purposes =>
      cases hq
      exact isFine_afterHints_iff haccepts.valid
  | reConfirm endpoints purposes argsHints again =>
      cases hq
      exact isFine_afterTrust_iff haccepts.valid hkeeps
  | ended result => cases hq

theorem keepsReadable_orEnd {x : Except Thrown Stage}
    (h : forall stage, x = .ok stage -> stage.KeepsReadable) :
    (Stage.orEnd x).KeepsReadable := by
  cases x with
  | error e => exact True.intro
  | ok stage => exact h stage rfl

theorem keepsReadable_step (h : stage.step numbers answer = some next) :
    next.KeepsReadable := by
  rcases accepts_of_step h with ⟨q, hq, haccepts, hnext⟩
  rw [hnext]
  cases stage with
  | choose endpoints =>
      apply keepsReadable_orEnd
      intro stage hstage
      rcases exists_of_bind_ok hstage with ⟨purposes, _, heq⟩
      cases heq
      exact True.intro
  | reChoose endpoints purposes0 =>
      apply keepsReadable_orEnd
      intro stage hstage
      rcases exists_of_bind_ok hstage with ⟨purposes1, _, h1⟩
      rcases exists_of_bind_ok h1 with ⟨choices, _, h2⟩
      rcases exists_of_bind_ok h2 with ⟨grouped, _, h3⟩
      split at h3
      · cases h3
        exact True.intro
      · cases h3
        exact True.intro
  | confirm choices grouped => exact True.intro
  | args endpoints purposes =>
      cases hq
      rcases exists_hints_of_valid haccepts.valid with
        ⟨hints, hhints, hreadable⟩
      apply keepsReadable_orEnd
      intro stage hstage
      rcases exists_of_bind_ok hstage with ⟨hints', hhints', h1⟩
      rcases exists_of_bind_ok h1 with ⟨again, _, h2⟩
      rw [hhints] at hhints'
      cases hhints'
      split at h2
      · cases h2
        exact True.intro
      · cases h2
        exact hreadable
  | reConfirm endpoints purposes argsHints again => exact True.intro
  | ended result => cases hq

end Step

/-- Whatever has been accepted, a run has no end but the expected ones. -/
def EndsWell (numbers : NumberReader) (endpoints : List Endpoint)
    (answers : List Value) : Prop :=
  Transition.Along (Stage.step numbers) Stage.IsFine (.choose endpoints)
    answers

/-- Of the accepted answers, only those that are not harmless end a run with
a type error. -/
theorem endsWell_iff (numbers : NumberReader) (endpoints : List Endpoint)
    {answers : List Value} {last : Stage}
    (hrun : Transition.run (Stage.step numbers) (.choose endpoints) answers =
      some last) :
    EndsWell numbers endpoints answers <->
      Transition.StepsMeet (Stage.step numbers) (Stage.Harmless numbers)
        (.choose endpoints) answers := by
  have hiff := @Transition.along_iff_stepsMeet_of_inv _ _
    (Stage.step numbers) (Stage.Harmless numbers) Stage.KeepsReadable
    Stage.IsFine (.choose endpoints) last answers
    (fun _ _ _ _ _ hstep => keepsReadable_step hstep)
    (fun _ _ _ _ hkeeps _ hstep => isFine_step_iff hkeeps hstep)
    True.intro hrun
  exact hiff.trans (and_iff_right True.intro)

/-! ## A bill that is looked up -/

theorem hasWords_bills : HasWords "GET /bills".toList :=
  ⟨"GE".toList, 'T', '/', "bills".toList, rfl, rfl, rfl⟩

def billById : Endpoint where
  name := "GET /bills".toList
  params := some (example_ [("parameters", .arr [example_
    [("name", .str "id".toList),
      ("schema", example_ [("type", .str "string".toList)])]])])
  words := hasWords_bills

/-- The first answer chooses the endpoint, the second adds a purpose that
needs none. -/
def billChoices : List Value :=
  [some (choiceOf [(payment, "GET /bills")]),
    some (example_ [("unaddressedAPI", .arr [example_
      [("purposeKey", .str "log".toList)]]), ("usedEndpoints", .arr [])])]

/-- The number is taken from what the user says; the mapping may be left
out. -/
def billArg (mapping : List (String × Json)) : Json :=
  example_ ([("argName", .str "id".toList),
    (fromUserKey, example_ [("flag", .bool true)])] ++ mapping)

def billHints (mapping : List (String × Json)) : Value :=
  some (.arr [example_ [("purposeKey", payment),
    ("args", .arr [billArg mapping])]])

def billParams : ParamTable where
  own := [("id".toList, some (example_ [("type", .str "string".toList)])),
    ("requestBody".toList, some (.obj []))]
  behind := .objectPrototype

def billArgs : Stage :=
  .args [some billById] [⟨some payment, none,
    some (.str "GET /bills".toList), none⟩]

theorem run_billChoices :
    Transition.run (Stage.step digitNumbers) (.choose [billById]) billChoices =
      some billArgs := by
  let purposes0 := [chosenBill payment "GET /bills"]
  let purposes1 := [example_ [("purposeKey", .str "log".toList)]]
  let choices : Choices := {
    purposesSet := [("log".toList, billPurpose (.str "log".toList) []),
      ("pay".toList, billPurpose payment ["GET /bills"])]
    epsMap := [("GET /bills".toList, some billById)] }
  have hfirst : Stage.step digitNumbers (.choose [billById])
      (some (choiceOf [(payment, "GET /bills")])) =
      some (.reChoose [billById] purposes0) := rfl
  have hmerge : mergeChoices digitNumbers [billById] purposes0 purposes1 =
      .ok choices := rfl
  have hgroups : possibleGroups (valuesOf choices.purposesSet) =
      .ok ⟨[billPurpose (.str "log".toList) []],
        [billPurpose payment ["GET /bills"]], []⟩ := by
    rw [valuesOf_names rfl]
    rfl
  have hchosen : Stage.chosen digitNumbers choices
      ([billPurpose payment ["GET /bills"]].map confirmedEndpoint) =
      billArgs := by
    unfold Stage.chosen chosenEndpoints
    rw [valuesOf_names rfl]
    rfl
  have hnext : Stage.afterChoices digitNumbers [billById] purposes0
      (some (example_ [("unaddressedAPI", .arr [example_
        [("purposeKey", .str "log".toList)]]), ("usedEndpoints", .arr [])])) =
      .ok billArgs := by
    unfold Stage.afterChoices
    rw [show purposesOf _ = .ok purposes1 from rfl, ok_bind, hmerge, ok_bind,
      hgroups, ok_bind, ← hchosen]
    rfl
  have hsecond : Stage.step digitNumbers (.reChoose [billById] purposes0)
      (some (example_ [("unaddressedAPI", .arr [example_
        [("purposeKey", .str "log".toList)]]), ("usedEndpoints", .arr [])])) =
      some billArgs := by
    rw [step_of_accepts rfl ⟨fun _ => rfl, rfl⟩]
    show some (Stage.orEnd (Stage.afterChoices _ _ _ _)) = _
    rw [hnext]
    rfl
  unfold billChoices
  rw [Transition.run, hfirst]
  dsimp only
  rw [Transition.run, hsecond]
  rfl

theorem paramTable_bill : paramTable billById.params = .ok billParams := rfl

theorem checkArgument_bill (mapping : List (String × Json)) :
    checkArgument billParams "GET /bills".toList (billArg mapping) =
      .ok true := by
  have hid : hasArgument billParams "id".toList = .ok true := by
    unfold hasArgument
    rw [show "id".toList.splitOn '.' = ["id".toList] by decide]
    dsimp only
    rw [hasTarget_nil]
    rfl
  have hsource : hasSource (billArg mapping) = .ok true := rfl
  unfold checkArgument
  rw [show read (some (billArg mapping)) "argName" =
    .ok (some (.str "id".toList)) from rfl, ok_bind,
    show textOf (some (.str "id".toList)) = .ok "id".toList from rfl, ok_bind]
  dsimp only
  rw [show shortName "id".toList = "id".toList by decide, hid, ok_bind,
    hsource, ok_bind]
  rfl

theorem accepts_billHints {mapping : List (String × Json)}
    (hshape : checkJsonType hintsExample (billHints mapping) = .ok ()) :
    (argsQuestion digitNumbers [some billById] [⟨some payment, none,
      some (.str "GET /bills".toList), none⟩]).Accepts (billHints mapping) := by
  have hevery : every (some (.arr [billArg mapping]))
      (checkArgument billParams "GET /bills".toList) = .ok true := by
    show [billArg mapping].allM _ = _
    rw [List.allM_cons, checkArgument_bill]
    rfl
  have hargs : read (some (example_ [("purposeKey", payment),
      ("args", .arr [billArg mapping])])) "args" =
      .ok (some (.arr [billArg mapping])) := by
    simp [read, example_, Json.field, List.lookup]
  have hpurpose : checkPurpose digitNumbers [some billById]
      [⟨some payment, none, some (.str "GET /bills".toList), none⟩]
      (example_ [("purposeKey", payment), ("args", .arr [billArg mapping])]) =
      .ok true := by
    unfold checkPurpose
    rw [hargs, show read _ "purposeKey" = .ok (some payment) from rfl,
      ok_bind, ok_bind, show List.find? _ _ = some _ from rfl]
    dsimp only
    rw [show findEndpoint digitNumbers (some (.str "GET /bills".toList))
      [some billById] = .ok (some billById) from rfl, ok_bind]
    dsimp only
    rw [paramTable_bill, ok_bind]
    exact hevery
  constructor
  · intro _
    exact hshape
  · show List.allM _ [example_ [("purposeKey", payment),
      ("args", .arr [billArg mapping])]] = _
    rw [List.allM_cons, hpurpose]
    rfl

/-- The mapping is left out: the answer is accepted, and the next step reads
it. -/
theorem not_endsWell_bill :
    Transition.run (Stage.step digitNumbers) (.choose [billById])
        (billChoices ++ [billHints []]) =
        some (.ended (.error (.readUndefined "mismatch".toList))) ∧
      ¬ EndsWell digitNumbers [billById] (billChoices ++ [billHints []]) := by
  have hrun : Transition.run (Stage.step digitNumbers) (.choose [billById])
      (billChoices ++ [billHints []]) =
      some (.ended (.error (.readUndefined "mismatch".toList))) := by
    have hstep : Stage.step digitNumbers billArgs (billHints []) =
        some (billArgs.next digitNumbers (billHints [])) :=
      step_of_accepts rfl (accepts_billHints rfl)
    rw [Transition.run_append run_billChoices, Transition.run, hstep]
    rfl
  constructor
  · exact hrun
  · intro h
    have hfine : Expected (.readUndefined "mismatch".toList) := h.last hrun
    exact hfine.not_isTypeError rfl

/-- With a mapping, the run ends with the hints. -/
theorem endsWell_iff_bill :
    EndsWell digitNumbers [billById]
        (billChoices ++ [billHints [("mapping", example_ [])]]) <->
      Transition.StepsMeet (Stage.step digitNumbers)
        (Stage.Harmless digitNumbers) (.choose [billById])
        (billChoices ++ [billHints [("mapping", example_ [])]]) := by
  have hrun : Transition.run (Stage.step digitNumbers) billArgs
      [billHints [("mapping", example_ [])]] =
      some (.ended (.ok [⟨some payment, [⟨some (.str "id".toList), none,
        none, some (example_ [])⟩]⟩])) := by
    have hagain : reConfirmArgs [⟨some payment, [⟨some (.str "id".toList),
        none, some (example_ [("flag", .bool true)]),
        some (example_ [])⟩]⟩] = .ok [] := by
      unfold reConfirmArgs
      show Except.ok ((valuesOf ([] : List (Text × KeyGroup Value))).map _) = _
      rw [valuesOf_names rfl]
      rfl
    have hcleared : clearHints [⟨some payment, [⟨some (.str "id".toList),
        none, some (example_ [("flag", .bool true)]),
        some (example_ [])⟩]⟩] =
        .ok [⟨some payment, [⟨some (.str "id".toList), none, none,
          some (example_ [])⟩]⟩] := by
      unfold clearHints
      show (if !(valuesOf ([] : List (Text × KeyGroup ArgHint))).isEmpty
        then _ else
          if !(valuesOf ([] : List (Text × KeyGroup (Value × Value)))).isEmpty
          then _ else Except.ok _) = _
      rw [valuesOf_names rfl, valuesOf_names rfl]
      rfl
    have hafter : Stage.afterHints [some billById] [⟨some payment, none,
        some (.str "GET /bills".toList), none⟩]
        (billHints [("mapping", example_ [])]) =
        .ok (.ended (.ok [⟨some payment, [⟨some (.str "id".toList), none,
          none, some (example_ [])⟩]⟩])) := by
      unfold Stage.afterHints
      rw [show readHints (billHints [("mapping", example_ [])]) =
        .ok [⟨some payment, [⟨some (.str "id".toList), none,
          some (example_ [("flag", .bool true)]), some (example_ [])⟩]⟩]
        from rfl, ok_bind, hagain, ok_bind, hcleared]
      rfl
    have hstep : Stage.step digitNumbers billArgs
        (billHints [("mapping", example_ [])]) =
        some (.orEnd (Stage.afterHints [some billById] [⟨some payment, none,
          some (.str "GET /bills".toList), none⟩]
          (billHints [("mapping", example_ [])]))) :=
      step_of_accepts rfl (accepts_billHints rfl)
    rw [Transition.run, hstep, hafter]
    rfl
  exact endsWell_iff digitNumbers [billById]
    ((Transition.run_append run_billChoices _).trans hrun)

end Agents
end CallgentApi
