import CallgentApi.Realms.Service

/-!
# What a check attaches

Of the guards that a check goes through, the first one whose realm is enabled
decides.  Its secret is attached to the request of the event if the guard says
so, and the check has passed then; no other way through a guard changes the
request.
-/

namespace CallgentApi
namespace Realms

open Js Event Effect

variable {sigma : Type}

/-! ## The realm that decides -/

/-- The rows of the tables while requests are processed. -/
structure Rows where
  entries : Text -> Option EntryDto
  realms : Nat -> Option CallgentRealm

structure Repository.Holds (rows : Rows) (repo : Repository sigma) :
    Prop where
  findEntry : forall id,
    Returns (fun found => found = rows.entries id) (repo.findEntry id)
  findRealm : forall pk,
    Returns (fun found => found = rows.realms pk) (repo.findRealm pk)

namespace Rows

def enabledRealm (rows : Rows) (item : RealmSecurityItem) :
    Option CallgentRealm :=
  (rows.realms item.realmPk).filter CallgentRealm.enabled

/-- The first guard with an enabled realm; a guard without items ends the
check. -/
def deciding (rows : Rows) :
    List RealmSecurityVO -> Option (RealmSecurityItem × CallgentRealm)
  | [] => none
  | security :: rest =>
      match security.head? with
      | none => none
      | some item =>
          match rows.enabledRealm item with
          | none => rows.deciding rest
          | some realm => some (item, realm)

/-- The guards of an endpoint; those of its entry are checked if it has none
of its own. -/
def guardsOf (rows : Rows) (endpoint : EndpointDto) :
    List RealmSecurityVO :=
  if endpoint.securities.isEmpty then
    ((rows.entries endpoint.entryId).map EntryDto.securities).getD []
  else endpoint.securities

end Rows

/-! ## One token -/

inductive TokenChecked (item : RealmSecurityItem) (realm : CallgentRealm)
    (req : Json) : Except Thrown (Option Returned) -> Json -> Prop where
  | attached {req' : Json} (hattach : item.attach = some true)
      (hreq : attachTo req realm.scheme realm.secret = .ok req') :
      TokenChecked item realm req (.ok (some ⟨none⟩)) req'
  | pending :
      TokenChecked item realm req (.ok (some ⟨some postValidateTokenName⟩)) req
  | refused (e : Thrown) : TokenChecked item realm req (.error e) req

def UnderCheck (req : Json) (item : RealmSecurityItem) (event : EventObject) :
    Prop :=
  event.context.req = req ∧ event.context.securityItem = some item

theorem getAuthProcessor_eq {authType : Text} {processor : AuthProcessor sigma}
    (h : getAuthProcessor authType = .ok processor) :
    processor = keyAuthProcessor := by
  unfold getAuthProcessor at h
  split at h
  · exact (Except.ok.inj h).symm
  · split at h
    · exact (Except.ok.inj h).symm
    · cases h

section Token

variable {req : Json} {item : RealmSecurityItem} (realm : CallgentRealm)

theorem triple_verdictOn (token : Text) :
    Triple (fun s => UnderCheck req item s.event)
      (verdictOn (keyAuthProcessor : AuthProcessor sigma).toTokenCheck token
        realm (some item))
      fun result s =>
        (item.attach = some true ∧ result = .ok (some true) ∧
          attachTo req realm.scheme realm.secret = .ok s.event.context.req) ∨
        ((result = .ok none ∨ exists e, result = .error e) ∧
          s.event.context.req = req) := by
  intro s hchecking
  unfold verdictOn
  dsimp only [Option.bind_some]
  split
  · rename_i hattach
    unfold keyAuthProcessor attachToken
    dsimp only
    rw [exec_bind_of_ok (exec_getEvent s), hchecking.left]
    cases hreq : attachTo req realm.scheme realm.secret with
    | error e => exact Or.inr ⟨Or.inr ⟨e, rfl⟩, hchecking.left⟩
    | ok req' => exact Or.inl ⟨hattach, rfl, rfl⟩
  · split
    · exact Or.inr ⟨Or.inl rfl, hchecking.left⟩
    · exact Or.inr ⟨Or.inr ⟨_, rfl⟩, hchecking.left⟩

theorem triple_validateToken (token : Text) :
    Triple (fun s => UnderCheck req item s.event)
      (validateToken (keyAuthProcessor : AuthProcessor sigma).toTokenCheck
        token realm)
      fun result s =>
        TokenChecked item realm req result s.event.context.req := by
  intro s hchecking
  unfold validateToken
  rw [exec_bind_of_ok (exec_getEvent s), hchecking.right]
  refine (Triple.bind (triple_verdictOn realm token) ?_ ?_ :
    Triple _ _ fun result s =>
      TokenChecked item realm req result s.event.context.req) s hchecking
  · intro verdict next hnext
    rcases hnext with ⟨hattach, hverdict, hreq⟩ | ⟨hverdict | ⟨e, hverdict⟩, hreq⟩
    · cases hverdict
      exact .attached hattach hreq
    · cases hverdict
      rw [← hreq]
      exact .pending
    · cases hverdict
  · intro e next hnext
    rcases hnext with ⟨_, hverdict, _⟩ | ⟨_, hreq⟩
    · cases hverdict
    · rw [hreq]
      exact .refused e

theorem triple_authProcess :
    Triple (fun s => UnderCheck req item s.event)
      ((keyAuthProcessor : AuthProcessor sigma).authProcess realm (some item))
      fun result s =>
        TokenChecked item realm req result s.event.context.req := by
  refine Triple.bind (triple_validateToken realm realm.secret) ?_ ?_
  · intro returned s hchecked
    cases returned with
    | some returned => exact hchecked
    | none => cases hchecked
  · exact fun _ _ h => h

end Token

/-! ## The guards -/

inductive GuardChecked (rows : Rows) (security : RealmSecurityVO)
    (req : Json) : Except Thrown (Option Returned) -> Json -> Prop where
  | disabled {item : RealmSecurityItem} (hhead : security.head? = some item)
      (hrealm : rows.enabledRealm item = none) :
      GuardChecked rows security req (.ok none) req
  | checked {item : RealmSecurityItem} {realm : CallgentRealm}
      {result : Except Thrown (Option Returned)} {req' : Json}
      (hhead : security.head? = some item)
      (hrealm : rows.enabledRealm item = some realm)
      (hchecked : TokenChecked item realm req result req') :
      GuardChecked rows security req result req'
  | refused (e : Thrown) : GuardChecked rows security req (.error e) req

/-- What the check of guards that are alternatives does to the request. -/
inductive Checked (rows : Rows) (guards : List RealmSecurityVO)
    (req : Json) : Except Thrown (Option Returned) -> Json -> Prop where
  | unguarded (h : guards = []) : Checked rows guards req (.ok none) req
  | attached {item : RealmSecurityItem} {realm : CallgentRealm} {req' : Json}
      (hdeciding : rows.deciding guards = some (item, realm))
      (hattach : item.attach = some true)
      (hreq : attachTo req realm.scheme realm.secret = .ok req') :
      Checked rows guards req (.ok (some ⟨none⟩)) req'
  | pending :
      Checked rows guards req (.ok (some ⟨some postValidateTokenName⟩)) req
  | refused (e : Thrown) : Checked rows guards req (.error e) req

section Guards

variable {rows : Rows} {repo : Repository sigma} {req : Json}

theorem triple_findUserToken (pre : EventObject -> Prop)
    (realm : CallgentRealm) (userId : Option Text) :
    Triple (fun s => pre s.event) (findUserToken repo realm userId)
      fun _ s => pre s.event := by
  unfold findUserToken
  split
  · exact Triple.pure fun _ h => h
  · split
    · exact (triple_outside (Returns.trivial _) pre).weaken fun _ _ h => h.right
    · exact Triple.pure fun _ h => h

theorem triple_loadEnabledRealm (h : repo.Holds rows)
    (item : RealmSecurityItem) (pre : EventObject -> Prop) :
    Triple (fun s => pre s.event) (loadEnabledRealm repo (some item))
      fun result s =>
        (forall found, result = .ok found ->
          found = (rows.enabledRealm item).map fun realm =>
            (realm, keyAuthProcessor)) ∧
        pre s.event := by
  refine Triple.bind (triple_outside (h.findRealm item.realmPk) pre) ?_ ?_
  · intro realm s hs
    have hfound : rows.enabledRealm item =
        realm.filter CallgentRealm.enabled := by
      rw [hs.left realm rfl]
      rfl
    rw [hfound]
    cases realm.filter CallgentRealm.enabled with
    | none =>
        refine ⟨?_, hs.right⟩
        intro found hresult
        exact (Except.ok.inj hresult).symm
    | some realm =>
        dsimp only
        split
        · refine ⟨?_, hs.right⟩
          intro found hresult
          cases hresult
        · rename_i hprocessor
          rw [getAuthProcessor_eq hprocessor]
          refine ⟨?_, hs.right⟩
          intro found hresult
          exact (Except.ok.inj hresult).symm
  · intro e s hs
    refine ⟨?_, hs.right⟩
    intro found hresult
    cases hresult

theorem triple_validateUserToken {item : RealmSecurityItem}
    (realm : CallgentRealm) (userToken : Option Text) :
    Triple (fun s => UnderCheck req item s.event)
      (validateUserToken (keyAuthProcessor : AuthProcessor sigma) realm
        userToken)
      fun result s =>
        (result = .ok none ∧ UnderCheck req item s.event) ∨
          (result ≠ .ok none ∧
            TokenChecked item realm req result s.event.context.req) := by
  unfold validateUserToken
  split
  · exact Triple.pure fun _ h => Or.inl ⟨rfl, h⟩
  · refine (triple_validateToken realm _).weaken fun result s h => Or.inr ⟨?_, h⟩
    intro hnone
    rw [hnone] at h
    cases h

theorem triple_checkToken {item : RealmSecurityItem} (realm : CallgentRealm) :
    Triple (fun s => UnderCheck req item s.event)
      (do
        let reqEvent ← Action.getEvent
        let userToken ← findUserToken repo realm reqEvent.context.callerId
        match ← validateUserToken keyAuthProcessor realm userToken with
        | some result => return some result
        | none =>
            match ← keyAuthProcessor.authProcess realm (some item) with
            | some ret => return some ret
            | none => postAuthProcess)
      fun result s =>
        TokenChecked item realm req result s.event.context.req := by
  refine Triple.bind (triple_getEvent _) ?_ fun _ _ h => absurd h.left nofun
  intro reqEvent s hs
  refine (Triple.bind (triple_findUserToken _ realm _) ?_ ?_ :
    Triple _ _ fun result s =>
      TokenChecked item realm req result s.event.context.req) s hs.right
  · intro userToken
    refine Triple.bind (triple_validateUserToken realm userToken) ?_ ?_
    · intro valid s hs
      rcases hs with ⟨hnone, hs⟩ | ⟨hsome, hchecked⟩
      · cases hnone
        refine (Triple.bind (triple_authProcess realm) ?_ ?_ :
          Triple _ _ fun result s =>
            TokenChecked item realm req result s.event.context.req) s hs
        · intro ret s hchecked
          cases ret with
          | some ret => exact hchecked
          | none => cases hchecked
        · exact fun _ _ h => h
      · cases valid with
        | some valid => exact hchecked
        | none => exact absurd rfl hsome
    · intro e s hs
      rcases hs with ⟨hnone, _⟩ | ⟨_, hchecked⟩
      · cases hnone
      · exact hchecked
  · intro e s hs
    rw [hs.left]
    exact .refused e

theorem triple_checkSecurityItem (h : repo.Holds rows)
    {security : RealmSecurityVO} {item : RealmSecurityItem}
    (hhead : security.head? = some item) :
    Triple (fun s => s.event.context.req = req)
      (checkSecurityItem repo (some item))
      fun result s =>
        GuardChecked rows security req result s.event.context.req := by
  have hset : Triple (fun s => s.event.context.req = req)
      (Action.modifyContext fun context =>
        { context with securityItem := some item } : Action sigma Unit)
      fun _ s => UnderCheck req item s.event :=
    fun s hs => ⟨hs, rfl⟩
  refine Triple.bind hset ?_ ?_
  · intro _
    refine Triple.bind (triple_loadEnabledRealm h item _) ?_ ?_
    · intro found s hs
      rw [hs.left found rfl]
      cases hrealm : rows.enabledRealm item with
      | none =>
          rw [← hs.right.left]
          exact .disabled hhead hrealm
      | some realm =>
          exact .checked hhead hrealm (triple_checkToken realm s hs.right)
    · intro e s hs
      rw [hs.right.left]
      exact .refused e
  · intro e s hs
    rw [hs.left]
    exact .refused e

theorem triple_checkSecurity (h : repo.Holds rows)
    (security : RealmSecurityVO) :
    Triple (fun s => s.event.context.req = req) (checkSecurity repo security)
      fun result s =>
        GuardChecked rows security req result s.event.context.req := by
  have hset : Triple (fun s => s.event.context.req = req)
      (Action.modifyContext fun context =>
        { context with security := some security } : Action sigma Unit)
      fun _ s => s.event.context.req = req :=
    fun s hs => hs
  refine Triple.bind hset ?_ ?_
  · intro _
    cases hhead : security.head? with
    | none =>
        intro s hs
        rw [← hs]
        exact .refused _
    | some item => exact triple_checkSecurityItem h hhead
  · intro e s hs
    rw [hs]
    exact .refused e

theorem deciding_cons_of_none {item : RealmSecurityItem}
    {security : RealmSecurityVO} (hhead : security.head? = some item)
    (h : rows.enabledRealm item = none) (rest : List RealmSecurityVO) :
    rows.deciding (security :: rest) = rows.deciding rest := by
  rw [Rows.deciding, hhead]
  dsimp only
  rw [h]

theorem deciding_cons_of_some {item : RealmSecurityItem}
    {security : RealmSecurityVO} {realm : CallgentRealm}
    (hhead : security.head? = some item)
    (h : rows.enabledRealm item = some realm) (rest : List RealmSecurityVO) :
    rows.deciding (security :: rest) = some (item, realm) := by
  rw [Rows.deciding, hhead]
  dsimp only
  rw [h]

theorem Checked.cons {security : RealmSecurityVO}
    {rest : List RealmSecurityVO}
    (hdeciding : rows.deciding (security :: rest) = rows.deciding rest)
    {result : Except Thrown (Option Returned)} {req' : Json}
    (hne : result ≠ .ok none) (h : Checked rows rest req result req') :
    Checked rows (security :: rest) req result req' := by
  cases h with
  | unguarded _ => exact absurd rfl hne
  | attached hrest hattach hreq =>
      exact .attached (hdeciding.trans hrest) hattach hreq
  | pending => exact .pending
  | refused e => exact .refused e

theorem TokenChecked.checked {item : RealmSecurityItem}
    {realm : CallgentRealm} {guards : List RealmSecurityVO}
    (hdeciding : rows.deciding guards = some (item, realm))
    {result : Except Thrown (Option Returned)} {req' : Json}
    (h : TokenChecked item realm req result req') :
    Checked rows guards req result req' := by
  cases h with
  | attached hattach hreq => exact .attached hdeciding hattach hreq
  | pending => exact .pending
  | refused e => exact .refused e

theorem triple_checkAlternatives (h : repo.Holds rows) (sep : Bool)
    (guards : List RealmSecurityVO) :
    Triple (fun s => s.event.context.req = req)
      (checkAlternatives repo sep guards)
      fun result s =>
        result ≠ .ok none ∧
          Checked rows guards req result s.event.context.req := by
  induction guards with
  | nil =>
      intro s hs
      rw [← hs]
      exact ⟨nofun, .refused _⟩
  | cons security rest ih =>
      refine Triple.bind (triple_checkSecurity h security) ?_ ?_
      · intro result s hs
        cases result with
        | none =>
            cases hs with
            | disabled hhead hrealm =>
                have hrest := ih s rfl
                exact ⟨hrest.left, hrest.right.cons
                  (deciding_cons_of_none hhead hrealm rest) hrest.left⟩
            | checked _ _ hchecked => cases hchecked
        | some returned =>
            refine ⟨nofun, ?_⟩
            cases hs with
            | checked hhead hrealm hchecked =>
                exact hchecked.checked
                  (deciding_cons_of_some hhead hrealm rest)
      · intro e s hs
        refine ⟨nofun, ?_⟩
        cases hs with
        | checked hhead hrealm hchecked =>
            exact hchecked.checked (deciding_cons_of_some hhead hrealm rest)
        | refused e => exact .refused e

theorem triple_checkSecurities (h : repo.Holds rows)
    (guards : List RealmSecurityVO) (sep : Bool) :
    Triple (fun s => s.event.context.req = req)
      (checkSecurities repo guards sep)
      fun result s =>
        (result = .ok none -> guards = []) ∧
          Checked rows guards req result s.event.context.req := by
  unfold checkSecurities
  split
  · rename_i hempty
    intro s hs
    rw [← hs]
    exact ⟨fun _ => List.isEmpty_iff.mp hempty,
      .unguarded (List.isEmpty_iff.mp hempty)⟩
  · exact (triple_checkAlternatives h sep guards).weaken
      fun _ _ hs => ⟨fun hnone => absurd hnone hs.left, hs.right⟩

theorem guardsOf_of_deciding {endpoint : EndpointDto}
    {found : RealmSecurityItem × CallgentRealm}
    (h : rows.deciding endpoint.securities = some found) :
    rows.guardsOf endpoint = endpoint.securities := by
  have hne : endpoint.securities ≠ [] := by
    intro hnil
    rw [hnil] at h
    cases h
  unfold Rows.guardsOf
  rw [if_neg (fun hempty => hne (List.isEmpty_iff.mp hempty))]

/-- The check of an endpoint attaches the secret that its guards decide on, or
leaves the request alone. -/
theorem triple_checkSepAuth (h : repo.Holds rows) (endpoint : EndpointDto) :
    Triple (fun s => s.event.context.req = req) (checkSepAuth repo endpoint)
      fun result s => Checked rows (rows.guardsOf endpoint) req result
        s.event.context.req := by
  refine Triple.bind (triple_checkSecurities h endpoint.securities true) ?_ ?_
  · intro result s hs
    cases result with
    | none =>
        have hnil := hs.left rfl
        have hreq : s.event.context.req = req := by
          cases hs.right
          rfl
        refine (Triple.bind (triple_outside (h.findEntry endpoint.entryId)
          fun event => event.context.req = req) ?_ ?_ :
            Triple _ _ fun result s => Checked rows (rows.guardsOf endpoint)
              req result s.event.context.req) s hreq
        · intro sen s hs
          have hsen := hs.left sen rfl
          cases sen with
          | none =>
              rw [← hs.right]
              exact .refused _
          | some sen =>
              have hguards : rows.guardsOf endpoint = sen.securities := by
                unfold Rows.guardsOf
                rw [hnil, ← hsen]
                rfl
              rw [hguards]
              exact (triple_checkSecurities h sen.securities true s
                hs.right).right
        · intro e s hs
          rw [hs.right]
          exact .refused e
    | some returned =>
        cases hs.right with
        | attached hdeciding hattach hreq =>
            rw [← guardsOf_of_deciding hdeciding] at hdeciding
            exact .attached hdeciding hattach hreq
        | pending => exact .pending
  · intro e s hs
    cases hs.right
    exact .refused e

end Guards

end Realms
end CallgentApi
