import Mathlib.Data.List.Perm.Basic
import CallgentApi.Realms.Service

/-!
# Alternatives of a security guard

The securities of an entry or an endpoint are alternatives, and the items of an
alternative are realms that are all to be checked.  The checks depend on the
realms, on the tokens of the caller and on the processors that are registered.
-/

namespace CallgentApi
namespace Realms

open Js Event Effect

variable {sigma : Type}

/-! ## The service with any processors -/

/-- What `moduleRef` finds for an auth type. -/
abbrev Processors (sigma : Type) :=
  Text -> Except Thrown (AuthProcessor sigma)

section From

variable (processors : Processors sigma) (repo : Repository sigma)

/-- `_loadRealm(security, true)`. -/
def loadEnabledRealmFrom (security : Option RealmSecurityItem) :
    Action sigma (Option (CallgentRealm × AuthProcessor sigma)) :=
  match security with
  | none => throw (Thrown.readUndefined "realmPk".toList)
  | some item => do
      let realm ← Action.outside (repo.findRealm item.realmPk)
      match realm.filter CallgentRealm.enabled with
      | none => return none
      | some realm =>
          match processors realm.authType with
          | .error e => throw e
          | .ok processor => return some (realm, processor)

/-- `_checkSecurityItem`; `none` when the check fails. -/
def checkSecurityItemFrom (item : Option RealmSecurityItem) :
    Action sigma (Option Returned) := do
  Action.modifyContext fun context => { context with securityItem := item }
  match ← loadEnabledRealmFrom processors repo item with
  | none => return none
  | some (realm, processor) =>
      let reqEvent ← Action.getEvent
      let userToken ← findUserToken repo realm reqEvent.context.callerId
      match ← validateUserToken processor realm userToken with
      | some result => return some result
      | none =>
          match ← processor.authProcess realm item with
          | some ret => return some ret
          | none => postAuthProcess

/-- `_checkSecurity`. -/
def checkSecurityFrom (security : RealmSecurityVO) :
    Action sigma (Option Returned) := do
  Action.modifyContext fun context => { context with security := some security }
  checkSecurityItemFrom processors repo security.head?

def checkFailed (sep : Bool) : Thrown :=
  Thrown.unauthorized ("Check ".toList ++
    (if sep then "SEP".toList else "CEP".toList) ++
    " authentications failed.".toList)

def checkAlternativesFrom (sep : Bool) :
    List RealmSecurityVO -> Action sigma (Option Returned)
  | [] => throw (checkFailed sep)
  | security :: rest => do
      match ← checkSecurityFrom processors repo security with
      | some result => return some result
      | none => checkAlternativesFrom sep rest

def checkSecuritiesFrom (securities : List RealmSecurityVO) (sep : Bool) :
    Action sigma (Option Returned) :=
  if securities.isEmpty then return none
  else checkAlternativesFrom processors repo sep securities

end From

theorem checkSecurities_eq_from (repo : Repository sigma)
    (securities : List RealmSecurityVO) (sep : Bool) :
    checkSecurities repo securities sep =
      checkSecuritiesFrom getAuthProcessor repo securities sep := by
  have hloop : checkAlternatives repo sep securities =
      checkAlternativesFrom getAuthProcessor repo sep securities := by
    induction securities with
    | nil => rfl
    | cons security rest ih =>
        rw [checkAlternatives, ih]
        rfl
  unfold checkSecurities checkSecuritiesFrom
  rw [hloop]

/-! ## The result of a check -/

/-- What a processor answers, whatever has been checked before. -/
structure Answers where
  attachToken : Text -> CallgentRealm -> Except Thrown Verdict
  validateTokenByUrl : Text -> CallgentRealm -> Except Thrown Verdict
  authProcess : CallgentRealm -> RealmSecurityItem ->
    Except Thrown (Option Returned)

/-- The realms, the tokens of the users, and what the processors answer. -/
structure Tables where
  realms : Nat -> Option CallgentRealm
  userTokens : Text -> Text -> Option Text
  processors : Text -> Except Thrown Answers

namespace Tables

variable (tables : Tables)

/-- The token of the caller, which only a realm per user has. -/
def userToken (caller : Option Text) (realm : CallgentRealm) : Option Text :=
  match truthy caller with
  | none => none
  | some userId =>
      if realm.scheme.perUser = some true then
        tables.userTokens userId (decimal realm.pk)
      else none

def verdictOn (answers : Answers) (token : Text) (realm : CallgentRealm)
    (item : RealmSecurityItem) : Except Thrown Verdict :=
  if item.attach = some true then answers.attachToken token realm
  else if (truthy realm.scheme.validationUrl).isSome then
    answers.validateTokenByUrl token realm
  else
    .error (Thrown.unauthorized
      ("Cannot validate auth token, validationUrl must not empty. callgentId=".toList ++
        realm.callgentId))

def ofVerdict : Verdict -> Option Returned
  | some true => some ⟨none⟩
  | some false => none
  | none => some ⟨some postValidateTokenName⟩

def userCheck (answers : Answers) (token : Option Text)
    (realm : CallgentRealm) (item : RealmSecurityItem) :
    Except Thrown (Option Returned) :=
  match token with
  | none => .ok none
  | some credentials => (verdictOn answers credentials realm item).map ofVerdict

def check (caller : Option Text) (item : RealmSecurityItem) :
    Except Thrown (Option Returned) :=
  match (tables.realms item.realmPk).filter CallgentRealm.enabled with
  | none => .ok none
  | some realm =>
      match tables.processors realm.authType with
      | .error e => .error e
      | .ok answers =>
          match userCheck answers (tables.userToken caller realm) realm
              item with
          | .ok none => answers.authProcess realm item
          | settled => settled

def headCheck (caller : Option Text) (security : RealmSecurityVO) :
    Except Thrown (Option Returned) :=
  match security.head? with
  | none => .error (Thrown.readUndefined "realmPk".toList)
  | some item => tables.check caller item

end Tables

def firstSettled (failed : Thrown) :
    List (Except Thrown (Option Returned)) -> Except Thrown (Option Returned)
  | [] => .error failed
  | .ok none :: rest => firstSettled failed rest
  | settled :: _ => settled

def Ready (expected : Json -> sigma -> Prop) (caller : Option Text)
    (s : CallState sigma) : Prop :=
  s.event.context.callerId = caller ∧
    expected s.event.context.req s.world.outside

def Checking (expected : Json -> sigma -> Prop) (caller : Option Text)
    (item : RealmSecurityItem) (s : CallState sigma) : Prop :=
  Ready expected caller s ∧ s.event.context.securityItem = some item

/-- A token is checked as it is said, in each state in which it may be. -/
structure TokenCheck.Answering (expected : Json -> sigma -> Prop)
    (caller : Option Text) (checks : TokenCheck sigma) (answers : Answers) :
    Prop where
  attachToken : forall token realm item,
    Ends (Checking expected caller item) (Checking expected caller item)
      (answers.attachToken token realm) (checks.attachToken token realm)
  validateTokenByUrl : forall token realm item,
    Ends (Checking expected caller item) (Checking expected caller item)
      (answers.validateTokenByUrl token realm)
      (checks.validateTokenByUrl token realm)

structure AuthProcessor.Answering (expected : Json -> sigma -> Prop)
    (caller : Option Text) (processor : AuthProcessor sigma)
    (answers : Answers) : Prop
    extends processor.toTokenCheck.Answering expected caller answers where
  authProcess : forall realm item,
    Ends (Checking expected caller item) (Ready expected caller)
      (answers.authProcess realm item)
      (processor.authProcess realm (some item))

inductive Found (expected : Json -> sigma -> Prop) (caller : Option Text) :
    Except Thrown (AuthProcessor sigma) -> Except Thrown Answers -> Prop where
  | missing (e : Thrown) : Found expected caller (.error e) (.error e)
  | registered {processor : AuthProcessor sigma} {answers : Answers}
      (h : processor.Answering expected caller answers) :
      Found expected caller (.ok processor) (.ok answers)

/-- The repository reads the tables, and the processors answer as they say. -/
structure Settled (expected : Json -> sigma -> Prop) (caller : Option Text)
    (processors : Processors sigma) (repo : Repository sigma)
    (tables : Tables) : Prop where
  findRealm : forall pk item,
    Ends (Checking expected caller item) (Checking expected caller item)
      (.ok (tables.realms pk)) (Action.outside (repo.findRealm pk))
  findFirstUserIdentity : forall userId provider item,
    Ends (Checking expected caller item) (Checking expected caller item)
      (.ok (tables.userTokens userId provider))
      (Action.outside (repo.findFirstUserIdentity userId provider))
  processors : forall authType,
    Found expected caller (processors authType) (tables.processors authType)

section Checks

variable {expected : Json -> sigma -> Prop} {caller : Option Text}
  {processors : Processors sigma} {repo : Repository sigma} {tables : Tables}

theorem ends_verdictOn {self : TokenCheck sigma} {answers : Answers}
    (h : self.Answering expected caller answers) (token : Text)
    (realm : CallgentRealm) (item : RealmSecurityItem) :
    Ends (Checking expected caller item) (Checking expected caller item)
      (Tables.verdictOn answers token realm item)
      (verdictOn self token realm (some item)) := by
  unfold Tables.verdictOn verdictOn
  rw [Option.bind_some]
  split
  · exact h.attachToken token realm item
  · split
    · exact h.validateTokenByUrl token realm item
    · exact Ends.throw _

theorem ends_validateToken {self : TokenCheck sigma} {answers : Answers}
    (h : self.Answering expected caller answers) (token : Text)
    (realm : CallgentRealm) (item : RealmSecurityItem) :
    Ends (Checking expected caller item) (Checking expected caller item)
      ((Tables.verdictOn answers token realm item).map Tables.ofVerdict)
      (validateToken self token realm) := by
  intro s hs
  have hverdict := ends_verdictOn h token realm item
  unfold validateToken
  rw [exec_bind_of_ok (exec_getEvent s), hs.right]
  cases hanswer : Tables.verdictOn answers token realm item with
  | error e =>
      rw [hanswer] at hverdict
      exact (hverdict.bind_error _) s hs
  | ok verdict =>
      rw [hanswer] at hverdict
      refine (hverdict.bind ?_) s hs
      cases verdict with
      | none => exact Ends.pure _
      | some valid =>
          cases valid with
          | true => exact Ends.pure _
          | false => exact Ends.pure _

theorem ends_findUserToken
    (h : Settled expected caller processors repo tables)
    (realm : CallgentRealm) (item : RealmSecurityItem) :
    Ends (Checking expected caller item) (Checking expected caller item)
      (.ok (tables.userToken caller realm))
      (findUserToken repo realm caller) := by
  unfold Tables.userToken findUserToken
  cases truthy caller with
  | none => exact Ends.pure _
  | some userId =>
      dsimp only
      split
      · exact h.findFirstUserIdentity _ _ item
      · exact Ends.pure _

theorem ends_validateUserToken {processor : AuthProcessor sigma}
    {answers : Answers} (h : processor.Answering expected caller answers)
    (token : Option Text) (realm : CallgentRealm) (item : RealmSecurityItem) :
    Ends (Checking expected caller item) (Checking expected caller item)
      (Tables.userCheck answers token realm item)
      (validateUserToken processor realm token) := by
  unfold Tables.userCheck validateUserToken
  split
  · exact Ends.pure _
  · exact ends_validateToken h.toAnswering _ realm item

theorem ends_processor {processor : AuthProcessor sigma} {answers : Answers}
    (hsettled : Settled expected caller processors repo tables)
    (h : processor.Answering expected caller answers) (realm : CallgentRealm)
    (item : RealmSecurityItem) :
    Ends (Checking expected caller item) (Ready expected caller)
      (match Tables.userCheck answers (tables.userToken caller realm) realm
          item with
        | .ok none => answers.authProcess realm item
        | settled => settled)
      (do
        let reqEvent ← Action.getEvent
        let userToken ← findUserToken repo realm reqEvent.context.callerId
        match ← validateUserToken processor realm userToken with
        | some result => return some result
        | none =>
            match ← processor.authProcess realm (some item) with
            | some ret => return some ret
            | none => postAuthProcess) := by
  intro s hs
  have hready : forall s : CallState sigma, Checking expected caller item s ->
      Ready expected caller s := fun _ h => h.left
  have huser := ends_validateUserToken h (tables.userToken caller realm) realm
    item
  rw [exec_bind_of_ok (exec_getEvent s), hs.left.left]
  refine ((ends_findUserToken hsettled realm item).bind ?_) s hs
  cases hcheck : Tables.userCheck answers (tables.userToken caller realm)
      realm item with
  | error e =>
      rw [hcheck] at huser
      exact (huser.weaken hready).bind_error _
  | ok found =>
      rw [hcheck] at huser
      refine huser.bind ?_
      cases found with
      | some result => exact (Ends.pure _).weaken hready
      | none =>
          have hauth := h.authProcess realm item
          dsimp only
          cases hanswer : answers.authProcess realm item with
          | error e =>
              rw [hanswer] at hauth
              exact hauth.bind_error _
          | ok ret =>
              rw [hanswer] at hauth
              refine hauth.bind ?_
              cases ret with
              | some ret => exact Ends.pure _
              | none => exact Ends.pure _

theorem ends_loadEnabledRealm
    (h : Settled expected caller processors repo tables)
    (item : RealmSecurityItem) :
    Ends (Checking expected caller item) (Checking expected caller item)
      (match (tables.realms item.realmPk).filter CallgentRealm.enabled with
        | none => .ok none
        | some realm =>
            (processors realm.authType).map fun processor =>
              some (realm, processor))
      (loadEnabledRealmFrom processors repo (some item)) := by
  refine (h.findRealm item.realmPk item).bind ?_
  cases (tables.realms item.realmPk).filter CallgentRealm.enabled with
  | none => exact Ends.pure _
  | some realm =>
      dsimp only
      cases processors realm.authType with
      | error e => exact Ends.throw e
      | ok processor => exact Ends.pure _

theorem ends_checkSecurityItem
    (h : Settled expected caller processors repo tables)
    (item : RealmSecurityItem) :
    Ends (Ready expected caller) (Ready expected caller)
      (tables.check caller item)
      (checkSecurityItemFrom processors repo (some item)) := by
  have hready : forall s : CallState sigma, Checking expected caller item s ->
      Ready expected caller s := fun _ h => h.left
  have hset : Ends (Ready expected caller) (Checking expected caller item)
      (.ok ()) (Action.modifyContext fun context =>
        { context with securityItem := some item } : Action sigma Unit) :=
    Ends.modify fun _ hs => ⟨hs, rfl⟩
  refine hset.bind ?_
  have hload := ends_loadEnabledRealm h item
  unfold Tables.check
  cases hrealm : (tables.realms item.realmPk).filter CallgentRealm.enabled with
  | none =>
      rw [hrealm] at hload
      exact hload.bind ((Ends.pure _).weaken hready)
  | some realm =>
      rw [hrealm] at hload
      have hfound := h.processors realm.authType
      dsimp only at hload ⊢
      generalize processors realm.authType = found at hload hfound
      generalize tables.processors realm.authType = answering at hfound ⊢
      cases hfound with
      | missing e => exact (hload.weaken hready).bind_error _
      | registered hanswering =>
          exact hload.bind (ends_processor h hanswering realm item)

theorem ends_checkSecurity
    (h : Settled expected caller processors repo tables)
    (security : RealmSecurityVO) :
    Ends (Ready expected caller) (Ready expected caller)
      (tables.headCheck caller security)
      (checkSecurityFrom processors repo security) := by
  have hset : Ends (Ready expected caller) (Ready expected caller)
      (.ok ()) (Action.modifyContext fun context =>
        { context with security := some security } : Action sigma Unit) :=
    Ends.modify fun _ hs => hs
  refine hset.bind ?_
  cases security with
  | nil => exact fun s hs => ⟨rfl, hs⟩
  | cons item rest => exact ends_checkSecurityItem h item

theorem ends_checkAlternatives
    (h : Settled expected caller processors repo tables) (sep : Bool)
    (securities : List RealmSecurityVO) :
    Ends (Ready expected caller) (Ready expected caller)
      (firstSettled (checkFailed sep)
        (securities.map (tables.headCheck caller)))
      (checkAlternativesFrom processors repo sep securities) := by
  induction securities with
  | nil => exact Ends.throw _
  | cons security rest ih =>
      have hfirst := ends_checkSecurity h security
      rw [List.map_cons]
      unfold checkAlternativesFrom
      cases hcheck : tables.headCheck caller security with
      | error e =>
          rw [hcheck] at hfirst
          exact hfirst.bind_error _
      | ok result =>
          rw [hcheck] at hfirst
          refine hfirst.bind ?_
          cases result with
          | none => exact ih
          | some result => exact Ends.pure _

end Checks

/-! ## The verdict -/

def Passes (result : Except Thrown (Option Returned)) : Prop :=
  result = .ok (some ⟨none⟩)

/-- A list of alternatives lets a request pass if it is empty, or if each item
of an alternative passes. -/
def Permits (tables : Tables) (caller : Option Text)
    (securities : List RealmSecurityVO) : Prop :=
  securities = [] ∨ exists security, security ∈ securities ∧
    forall item, item ∈ security -> Passes (tables.check caller item)

/-- The check has accepted the request: nothing goes on, and nothing is to
come. -/
def Accepted (result : Except Thrown (Option Returned)) : Prop :=
  result = .ok none ∨ Passes result

def Unauthorized (result : Except Thrown (Option Returned)) : Prop :=
  exists message, result = .error (Thrown.unauthorized message)

def VerdictOn (tables : Tables) (caller : Option Text)
    (securities : List RealmSecurityVO)
    (result : Except Thrown (Option Returned)) : Prop :=
  (Permits tables caller securities -> Accepted result) ∧
    (¬ Permits tables caller securities -> Unauthorized result)

/-- The first items decide: none throws beside an alternative that passes, and
none passes where no alternative does. -/
inductive HeadsDecide (tables : Tables) (caller : Option Text)
    (securities : List RealmSecurityVO) : Prop where
  | nil (h : securities = [])
  | permits (security : RealmSecurityVO) (hmem : security ∈ securities)
      (hpasses : forall item, item ∈ security ->
        Passes (tables.check caller item))
      (hheads : forall security, security ∈ securities ->
        exists item, security.head? = some item ∧
          (Passes (tables.check caller item) ∨
            tables.check caller item = .ok none))
  | refuses
      (hheads : forall security, security ∈ securities ->
        exists item, security.head? = some item ∧
          (tables.check caller item = .ok none ∨
            Unauthorized (tables.check caller item)))

theorem firstSettled_cons_of_ne {failed : Thrown}
    {result : Except Thrown (Option Returned)} (h : result ≠ .ok none)
    (rest : List (Except Thrown (Option Returned))) :
    firstSettled failed (result :: rest) = result := by
  cases result with
  | error e => rfl
  | ok returned =>
      cases returned with
      | none => exact absurd rfl h
      | some returned => rfl

theorem firstSettled_cases (failed : Thrown)
    (results : List (Except Thrown (Option Returned))) :
    (firstSettled failed results = .error failed ∧
        forall result, result ∈ results -> result = .ok none) ∨
      (firstSettled failed results ∈ results ∧
        firstSettled failed results ≠ .ok none) := by
  induction results with
  | nil =>
      refine Or.inl ⟨rfl, ?_⟩
      intro result hmem
      cases hmem
  | cons result rest ih =>
      by_cases hnone : result = .ok none
      · rw [hnone]
        rcases ih with ⟨hfailed, hall⟩ | ⟨hmem, hne⟩
        · refine Or.inl ⟨hfailed, ?_⟩
          intro other hother
          rcases List.mem_cons.mp hother with rfl | hrest
          · rfl
          · exact hall other hrest
        · exact Or.inr ⟨List.mem_cons_of_mem _ hmem, hne⟩
      · rw [firstSettled_cons_of_ne hnone]
        exact Or.inr ⟨List.mem_cons_self, hnone⟩

theorem permits_perm {tables : Tables} {caller : Option Text}
    {securities others : List RealmSecurityVO}
    (h : others.Perm securities) :
    Permits tables caller others <-> Permits tables caller securities := by
  unfold Permits
  constructor
  · rintro (rfl | ⟨security, hmem, hpasses⟩)
    · exact Or.inl h.symm.eq_nil
    · exact Or.inr ⟨security, h.mem_iff.mp hmem, hpasses⟩
  · rintro (rfl | ⟨security, hmem, hpasses⟩)
    · exact Or.inl h.eq_nil
    · exact Or.inr ⟨security, h.mem_iff.mpr hmem, hpasses⟩

section Verdict

variable {expected : Json -> sigma -> Prop} {caller : Option Text}
  {processors : Processors sigma} {repo : Repository sigma} {tables : Tables}

theorem headCheck_of_head? {security : RealmSecurityVO}
    {item : RealmSecurityItem} (h : security.head? = some item) :
    tables.headCheck caller security = tables.check caller item := by
  unfold Tables.headCheck
  rw [h]

theorem checkSecurities_eq_firstSettled
    (h : Settled expected caller processors repo tables)
    {s : CallState sigma} (hs : Ready expected caller s) (sep : Bool)
    {securities : List RealmSecurityVO} (hne : securities ≠ []) :
    ((checkSecuritiesFrom processors repo securities sep).exec s).1 =
      firstSettled (checkFailed sep)
        (securities.map (tables.headCheck caller)) := by
  have hempty : ¬ securities.isEmpty = true := by
    intro hempty
    exact hne (List.isEmpty_iff.mp hempty)
  unfold checkSecuritiesFrom
  rw [if_neg hempty]
  exact (ends_checkAlternatives h sep securities s hs).left

theorem exists_perm_settled
    (h : Settled expected caller processors repo tables)
    {s : CallState sigma} (hs : Ready expected caller s) (sep : Bool)
    {securities : List RealmSecurityVO} {security : RealmSecurityVO}
    (hmem : security ∈ securities)
    (hsettles : tables.headCheck caller security ≠ .ok none) :
    exists others, others.Perm securities ∧
      ((checkSecuritiesFrom processors repo others sep).exec s).1 =
        tables.headCheck caller security := by
  rcases List.append_of_mem hmem with ⟨before, after, rfl⟩
  refine ⟨security :: (before ++ after), List.perm_middle.symm, ?_⟩
  rw [checkSecurities_eq_firstSettled h hs sep (List.cons_ne_nil _ _),
    List.map_cons, firstSettled_cons_of_ne hsettles]

theorem head_of_accepted {security : RealmSecurityVO}
    (h : tables.headCheck caller security = .ok none ∨
      Accepted (tables.headCheck caller security)) :
    exists item, security.head? = some item ∧
      (Passes (tables.check caller item) ∨
        tables.check caller item = .ok none) := by
  cases security with
  | nil =>
      rcases h with h | h | h
      · cases h
      · cases h
      · cases h
  | cons item rest =>
      refine ⟨item, rfl, ?_⟩
      rcases h with h | h | h
      · exact Or.inr h
      · exact Or.inr h
      · exact Or.inl h

theorem head_of_unauthorized {security : RealmSecurityVO}
    (h : tables.headCheck caller security = .ok none ∨
      Unauthorized (tables.headCheck caller security)) :
    exists item, security.head? = some item ∧
      (tables.check caller item = .ok none ∨
        Unauthorized (tables.check caller item)) := by
  cases security with
  | nil =>
      rcases h with h | ⟨message, h⟩
      · cases h
      · cases h
  | cons item rest => exact ⟨item, rfl, h⟩

theorem headsDecide_of_verdicts
    (h : Settled expected caller processors repo tables)
    {s : CallState sigma} (hs : Ready expected caller s) {sep : Bool}
    {securities : List RealmSecurityVO}
    (hverdicts : forall others, others.Perm securities ->
      VerdictOn tables caller securities
        ((checkSecuritiesFrom processors repo others sep).exec s).1) :
    HeadsDecide tables caller securities := by
  have hheads : forall security, security ∈ securities ->
      tables.headCheck caller security = .ok none ∨
        VerdictOn tables caller securities
          (tables.headCheck caller security) := by
    intro security hmem
    by_cases hsettles : tables.headCheck caller security = .ok none
    · exact Or.inl hsettles
    · rcases exists_perm_settled h hs sep hmem hsettles with
        ⟨others, hperm, hresult⟩
      rw [← hresult]
      exact Or.inr (hverdicts others hperm)
  by_cases hpermits : Permits tables caller securities
  · rcases hpermits with hnil | ⟨security, hmem, hpasses⟩
    · exact .nil hnil
    · refine .permits security hmem hpasses ?_
      intro other hother
      apply head_of_accepted
      rcases hheads other hother with hfails | hverdict
      · exact Or.inl hfails
      · exact Or.inr (hverdict.left (Or.inr ⟨security, hmem, hpasses⟩))
  · refine .refuses ?_
    intro other hother
    apply head_of_unauthorized
    rcases hheads other hother with hfails | hverdict
    · exact Or.inl hfails
    · exact Or.inr (hverdict.right hpermits)

theorem accepted_of_permits
    (h : Settled expected caller processors repo tables)
    {s : CallState sigma} (hs : Ready expected caller s) (sep : Bool)
    {securities : List RealmSecurityVO} {security : RealmSecurityVO}
    (hmem : security ∈ securities)
    (hpasses : forall item, item ∈ security ->
      Passes (tables.check caller item))
    (hheads : forall security, security ∈ securities ->
      exists item, security.head? = some item ∧
        (Passes (tables.check caller item) ∨
          tables.check caller item = .ok none)) :
    Accepted ((checkSecuritiesFrom processors repo securities sep).exec s).1 := by
  have hne : securities ≠ [] := List.ne_nil_of_mem hmem
  rw [checkSecurities_eq_firstSettled h hs sep hne]
  rcases firstSettled_cases (checkFailed sep)
    (securities.map (tables.headCheck caller)) with ⟨_, hall⟩ | ⟨hfirst, hne⟩
  · -- the alternative that passes settles the matter
    rcases hheads security hmem with ⟨item, hitem, _⟩
    have hfails := hall _ (List.mem_map_of_mem hmem)
    rw [headCheck_of_head? hitem,
      hpasses item (List.mem_of_head? hitem)] at hfails
    cases hfails
  · rcases List.mem_map.mp hfirst with ⟨other, hother, hresult⟩
    rcases hheads other hother with ⟨item, hitem, hitemPasses | hfails⟩
    · rw [← hresult, headCheck_of_head? hitem]
      exact Or.inr hitemPasses
    · rw [← hresult, headCheck_of_head? hitem] at hne
      exact absurd hfails hne

theorem unauthorized_of_refuses
    (h : Settled expected caller processors repo tables)
    {s : CallState sigma} (hs : Ready expected caller s) (sep : Bool)
    {securities : List RealmSecurityVO} (hne : securities ≠ [])
    (hheads : forall security, security ∈ securities ->
      exists item, security.head? = some item ∧
        (tables.check caller item = .ok none ∨
          Unauthorized (tables.check caller item))) :
    Unauthorized
      ((checkSecuritiesFrom processors repo securities sep).exec s).1 := by
  rw [checkSecurities_eq_firstSettled h hs sep hne]
  rcases firstSettled_cases (checkFailed sep)
    (securities.map (tables.headCheck caller)) with ⟨hfailed, _⟩ | ⟨hfirst, hne⟩
  · rw [hfailed]
    exact ⟨_, rfl⟩
  · rcases List.mem_map.mp hfirst with ⟨other, hother, hresult⟩
    rcases hheads other hother with ⟨item, hitem, hfails | hthrows⟩
    · rw [← hresult, headCheck_of_head? hitem] at hne
      exact absurd hfails hne
    · rw [← hresult, headCheck_of_head? hitem]
      exact hthrows

theorem not_permits_of_refuses {securities : List RealmSecurityVO}
    (hne : securities ≠ [])
    (hheads : forall security, security ∈ securities ->
      exists item, security.head? = some item ∧
        (tables.check caller item = .ok none ∨
          Unauthorized (tables.check caller item))) :
    ¬ Permits tables caller securities := by
  rintro (hnil | ⟨security, hmem, hpasses⟩)
  · exact hne hnil
  · rcases hheads security hmem with ⟨item, hitem, hrefused⟩
    rw [hpasses item (List.mem_of_head? hitem)] at hrefused
    rcases hrefused with h | ⟨_, h⟩
    · cases h
    · cases h

/-- Whatever the alternatives stand for, the service says what they say, in
whichever order they stand, exactly if their first items decide. -/
theorem verdict_iff (h : Settled expected caller processors repo tables)
    {s : CallState sigma} (hs : Ready expected caller s) (sep : Bool)
    (securities : List RealmSecurityVO) :
    (forall others, others.Perm securities ->
        VerdictOn tables caller securities
          ((checkSecuritiesFrom processors repo others sep).exec s).1) <->
      HeadsDecide tables caller securities := by
  by_cases hnil : securities = []
  · refine iff_of_true ?_ (.nil hnil)
    intro others hperm
    rw [hnil] at hperm
    rw [hperm.eq_nil, hnil]
    exact ⟨fun _ => Or.inl rfl, fun hnot => absurd (Or.inl rfl) hnot⟩
  · constructor
    · exact headsDecide_of_verdicts h hs
    · intro hdecide others hperm
      have hothers : others ≠ [] := by
        intro hothers
        rw [hothers] at hperm
        exact hnil hperm.symm.eq_nil
      cases hdecide with
      | nil h => exact absurd h hnil
      | permits security hmem hpasses hheads =>
          have haccepted := accepted_of_permits h hs sep
            (hperm.mem_iff.mpr hmem) hpasses
            fun other hother => hheads other (hperm.mem_iff.mp hother)
          exact ⟨fun _ => haccepted,
            fun hnot => absurd (Or.inr ⟨security, hmem, hpasses⟩) hnot⟩
      | refuses hheads =>
          have hrefused := unauthorized_of_refuses h hs sep hothers
            fun other hother => hheads other (hperm.mem_iff.mp hother)
          exact ⟨fun hpermits =>
              absurd hpermits (not_permits_of_refuses hnil hheads),
            fun _ => hrefused⟩

end Verdict

/-! ## The registered processors -/

/-- A key is attached if it may be, and its check at an url is not known yet. -/
def keyAnswers : Answers where
  attachToken := fun _ _ => .ok (some true)
  validateTokenByUrl := fun _ _ => .ok none
  authProcess := fun realm item =>
    if item.attach = some true then .ok (some ⟨none⟩)
    else if (truthy realm.scheme.validationUrl).isSome then
      .ok (some ⟨some postValidateTokenName⟩)
    else
      .error (Thrown.unauthorized
        ("Cannot validate auth token, validationUrl must not empty. callgentId=".toList ++
          realm.callgentId))

def registered (authType : Text) : Except Thrown Answers :=
  (getAuthProcessor authType : Except Thrown (AuthProcessor Unit)).map
    fun _ => keyAnswers

section Registered

variable {caller : Option Text}

def attachableRequest (req : Json) (_ : sigma) : Prop := Attachable req

theorem ends_attachToken (token : Text) (realm : CallgentRealm)
    (item : RealmSecurityItem) :
    Ends (Checking attachableRequest caller item)
      (Checking attachableRequest caller item) (.ok (some true))
      (attachToken token realm : Action sigma Verdict) := by
  intro s hs
  rcases attachable_attachTo hs.left.right realm.scheme realm.secret with
    ⟨req, hreq, hattachable⟩
  unfold attachToken
  rw [exec_bind_of_ok (exec_getEvent s), hreq]
  exact ⟨rfl, ⟨hs.left.left, hattachable⟩, hs.right⟩

theorem answering_keyAuthProcessor :
    (keyAuthProcessor : AuthProcessor sigma).Answering attachableRequest
      caller keyAnswers where
  attachToken := ends_attachToken
  validateTokenByUrl := fun _ _ _ => Ends.pure _
  authProcess := by
    intro realm item
    have hself : TokenCheck.Answering
        (attachableRequest : Json -> sigma -> Prop) caller
        ⟨attachToken, fun _ _ => return none⟩ keyAnswers :=
      ⟨ends_attachToken, fun _ _ _ => Ends.pure _⟩
    have hvalid := (ends_validateToken hself realm.secret realm item).weaken
      fun _ h => h.left
    unfold Tables.verdictOn at hvalid
    dsimp only [keyAnswers] at hvalid ⊢
    by_cases hattach : item.attach = some true
    · rw [if_pos hattach] at hvalid ⊢
      exact hvalid.bind (Ends.pure _)
    · rw [if_neg hattach] at hvalid ⊢
      by_cases hurl : (truthy realm.scheme.validationUrl).isSome = true
      · rw [if_pos hurl] at hvalid ⊢
        exact hvalid.bind (Ends.pure _)
      · rw [if_neg hurl] at hvalid ⊢
        exact hvalid.bind_error _

theorem found_registered (authType : Text) :
    Found (attachableRequest : Json -> sigma -> Prop) caller
      (getAuthProcessor authType) (registered authType) := by
  unfold registered getAuthProcessor
  split
  · exact .registered answering_keyAuthProcessor
  · split
    · exact .registered answering_keyAuthProcessor
    · exact .missing _

theorem settled_registered {repo : Repository sigma}
    {realms : Nat -> Option CallgentRealm}
    {userTokens : Text -> Text -> Option Text}
    (hrealms : forall pk w, (repo.findRealm pk).exec w = (.ok (realms pk), w))
    (htokens : forall userId provider w,
      (repo.findFirstUserIdentity userId provider).exec w =
        (.ok (userTokens userId provider), w)) :
    Settled attachableRequest caller getAuthProcessor repo
      ⟨realms, userTokens, registered⟩ where
  findRealm := by
    intro pk item s hs
    rw [exec_outside (hrealms pk s.world.outside)]
    exact ⟨rfl, hs⟩
  findFirstUserIdentity := by
    intro userId provider item s hs
    rw [exec_outside (htokens userId provider s.world.outside)]
    exact ⟨rfl, hs⟩
  processors := found_registered

end Registered

/-! ## A shop with one realm -/

def shopRealm : CallgentRealm where
  pk := 1
  callgentId := "shop".toList
  authType := "apiKey".toList
  enabled := true
  scheme :=
    { perUser := none
      validationUrl := none
      name := some "x-key".toList
      in_ := some "header".toList }
  secret := "open".toList

def shopTables : Tables where
  realms := fun pk => if pk = 1 then some shopRealm else none
  userTokens := fun _ _ => none
  processors := registered

def shopRepository : Repository Unit where
  findEntry := fun _ => return none
  findRealm := fun pk => return shopTables.realms pk
  findFirstUserIdentity := fun _ _ => return none

def shopRequest : CallState Unit :=
  ⟨.clientRequest "e1".toList "cen1".toList "restAPI".toList (.obj [])
      "t".toList [] [] none ⟨"shop".toList, "shop".toList, none, none, none⟩
      none,
    ⟨none, ()⟩, []⟩

/-- The realm with its key attached, the realm with its key checked, and a
realm that is not there. -/
def keyItem : RealmSecurityItem := ⟨1, none, some true⟩

def guestItem : RealmSecurityItem := ⟨1, none, none⟩

def goneItem : RealmSecurityItem := ⟨2, none, some true⟩

theorem settled_shop : Settled attachableRequest none getAuthProcessor
    shopRepository shopTables :=
  settled_registered (fun _ _ => rfl) fun _ _ _ => rfl

theorem ready_shopRequest : Ready attachableRequest none shopRequest :=
  ⟨rfl, ⟨[], rfl⟩, ⟨[], rfl⟩, ⟨[], rfl⟩⟩

theorem verdict_shop :
    VerdictOn shopTables none [[goneItem], [keyItem]]
      ((checkSecuritiesFrom getAuthProcessor shopRepository
        [[keyItem], [goneItem]] true).exec shopRequest).1 := by
  have hdecide : HeadsDecide shopTables none [[goneItem], [keyItem]] := by
    apply HeadsDecide.permits [keyItem] (by simp)
    · intro item hmem
      rw [List.mem_singleton.mp hmem]
      rfl
    · intro security hmem
      rcases List.mem_cons.mp hmem with rfl | hmem
      · exact ⟨goneItem, rfl, Or.inr rfl⟩
      · rw [List.mem_singleton.mp hmem]
        exact ⟨keyItem, rfl, Or.inl rfl⟩
  exact (verdict_iff settled_shop ready_shopRequest true _).mpr hdecide _
    (List.Perm.swap _ _ _)

/-- The second item is not checked, an item that throws ends the check of the
alternatives behind it, and an empty alternative is an error. -/
theorem verdict_fails :
    (¬ Permits shopTables none [[keyItem, goneItem]] ∧
        Accepted ((checkSecurities shopRepository [[keyItem, goneItem]]
          true).exec shopRequest).1) ∧
      (Permits shopTables none [[guestItem], [keyItem]] ∧
        Unauthorized ((checkSecurities shopRepository
          [[guestItem], [keyItem]] true).exec shopRequest).1 ∧
        Accepted ((checkSecurities shopRepository
          [[keyItem], [guestItem]] true).exec shopRequest).1) ∧
      Permits shopTables none [[]] ∧
        ((checkSecurities shopRepository [[]] true).exec shopRequest).1 =
          .error (Thrown.readUndefined "realmPk".toList) := by
  refine ⟨⟨?_, Or.inr rfl⟩, ⟨Or.inr ⟨[keyItem], by simp, ?_⟩, ⟨_, rfl⟩,
    Or.inr rfl⟩, Or.inr ⟨[], by simp, by simp⟩, rfl⟩
  · rintro (hnil | ⟨security, hmem, hpasses⟩)
    · cases hnil
    · rw [List.mem_singleton.mp hmem] at hpasses
      have hgone := hpasses goneItem (by simp)
      cases hgone
  · intro item hmem
    rw [List.mem_singleton.mp hmem]
    rfl

end Realms
end CallgentApi
