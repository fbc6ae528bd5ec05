import CallgentApi.Config.Upserts

/-!
# The derived fields of realms

The key of a realm and whether it is enabled are derived from what is stored
of it.  An upsert derives them from what it is given, and writes them over a
realm that keeps what is not given.
-/

namespace CallgentApi
namespace Config

open Js Event Realms Cached Transition

/-! ## The services -/

inductive RealmCall where
  | create (dto : CreateRealmDto)
  | upsertRealm (entryId : Text) (scheme : RealmSchemeVO) (form : RealmForm)
      (servers : List Text)
  | update (callgentId realmKey : Text) (dto : UpdateRealmDto)
  | delete (callgentId realmKey : Text)

def RealmCall.op : RealmCall -> Op
  | .create dto => .createRealm dto
  | .upsertRealm entryId scheme form servers =>
      .upsertRealm entryId scheme form servers
  | .update callgentId realmKey dto => .updateRealm callgentId realmKey dto
  | .delete callgentId realmKey => .deleteRealm callgentId realmKey

def realmStep (platform : Platform) (c : Tables) (call : RealmCall) :
    Option Tables :=
  step platform c call.op

/-- The key and the flag of a realm are those its processor derives from what
is stored. -/
def Ruled (realmKey : Text) (realm : Realm) : Prop :=
  exists processor, getSchemeProcessor realm.authType = .ok processor ∧
    realmKey = processor.getRealmKey realm.scheme realm.realm ∧
    realm.enabled = SchemeProcessor.checkEnabled realm.scheme realm.secret

def Derived (c : Tables) : Prop :=
  forall row, row ∈ c.realms.rows -> Ruled row.key.2 row.value

/-- An upsert over a realm gives a secret, if the one that is stored would
enable the realm, and a realm name, if there is one stored. -/
def GivesStored (platform : Platform) (c : Tables) : RealmCall -> Prop
  | .upsertRealm entryId scheme form servers =>
      forall entry u row, c.entries.findUnique entryId = some entry ->
        constructUpsert platform entry.value scheme form servers = .ok u ->
          c.realms.findUnique u.key = some row ->
            (form.secret = none ->
              SchemeProcessor.checkEnabled u.realm.scheme row.value.secret =
                false) ∧
            (form.realm = none -> row.value.realm.getD [] = [])
  | _ => True

/-! ## What is constructed -/

theorem ruled_of_constructRealm {hostname : Text -> Option Text}
    {processor : SchemeProcessor} {authType realmKey : Text}
    {scheme : RealmSchemeVO} {form : RealmForm} {entry : Option Entry}
    {servers : List Text} {realm : Realm}
    (hprocessor : getSchemeProcessor authType = .ok processor)
    (h : processor.constructRealm hostname authType scheme form entry servers =
      .ok (realmKey, realm)) :
    Ruled realmKey realm ∧ realm.realm = form.realm ∧
      realm.secret = form.secret := by
  rcases Fallible.exists_of_bind_ok h with ⟨provider, _, h⟩
  cases h
  exact ⟨⟨processor, hprocessor, rfl, rfl⟩, rfl, rfl⟩

theorem ruled_of_constructUpsert {platform : Platform} {entry : Entry}
    {scheme : RealmSchemeVO} {form : RealmForm} {servers : List Text}
    {u : Upsert}
    (h : constructUpsert platform entry scheme form servers = .ok u) :
    Ruled u.realmKey u.realm ∧ u.realm.realm = form.realm ∧
      u.realm.secret = form.secret := by
  rcases Fallible.exists_of_bind_ok h with ⟨processor, hprocessor, h⟩
  rcases Fallible.exists_of_bind_ok h with ⟨named, hnamed, h⟩
  rcases named with ⟨realmKey, realm⟩
  cases h
  exact ruled_of_constructRealm hprocessor hnamed

theorem getRealmKey_eq_iff {authType : Text} {processor : SchemeProcessor}
    (h : getSchemeProcessor authType = .ok processor) (scheme : RealmSchemeVO)
    (realm other : Option Text) :
    processor.getRealmKey scheme realm = processor.getRealmKey scheme other <->
      realm.getD [] = other.getD [] := by
  unfold getSchemeProcessor at h
  split at h
  · cases h
    simp [SchemeProcessor.apiKey]
  · split at h
    · cases h
      simp [SchemeProcessor.http]
    · cases h

theorem ruled_over_iff {u : Upsert} {old : Realm}
    (hu : Ruled u.realmKey u.realm) :
    Ruled u.realmKey (u.over old) <->
      (u.realm.secret = none ->
        SchemeProcessor.checkEnabled u.realm.scheme old.secret = false) ∧
      (u.realm.realm = none -> old.realm.getD [] = []) := by
  rcases hu with ⟨processor, hprocessor, hkey, henabled⟩
  have hrule : Ruled u.realmKey (u.over old) <->
      u.realmKey = processor.getRealmKey u.realm.scheme
          (u.realm.realm.or old.realm) ∧
        u.realm.enabled = SchemeProcessor.checkEnabled u.realm.scheme
          (u.realm.secret.or old.secret) := by
    constructor
    · intro h
      rcases h with ⟨other, hother, hrule⟩
      rw [Except.ok.inj (hother.symm.trans hprocessor)] at hrule
      exact hrule
    · exact fun hrule => ⟨processor, hprocessor, hrule⟩
  rw [hrule, hkey, getRealmKey_eq_iff hprocessor, henabled, and_comm]
  apply and_congr
  · cases hsecret : u.realm.secret with
    | none =>
        have hdisabled :
            SchemeProcessor.checkEnabled u.realm.scheme none = false := by
          simp [SchemeProcessor.checkEnabled]
        rw [hdisabled, Option.none_or]
        exact ⟨fun h _ => h.symm, fun h => (h rfl).symm⟩
    | some secret => simp
  · cases hrealm : u.realm.realm with
    | none =>
        rw [Option.none_or]
        exact ⟨fun h _ => h.symm, fun h => (h rfl).symm⟩
    | some realm => simp

section Step

variable {platform : Platform} {c c' : Tables}

theorem derived_insert_iff {key : Text × Text} {realm : Realm}
    {hnew : c.realms.findUnique key = none} (h : Derived c) :
    Derived { c with realms := c.realms.insert key realm hnew } <->
      Ruled key.2 realm := by
  constructor
  · intro hderived
    have hmem : ⟨c.realms.nextPk, key, realm⟩ ∈
        (c.realms.insert key realm hnew).rows :=
      Table.mem_insert.mpr (Or.inr rfl)
    exact hderived _ hmem
  · intro hruled row hrow
    change row ∈ (c.realms.insert key realm hnew).rows at hrow
    rcases Table.mem_insert.mp hrow with hold | heq
    · exact h row hold
    · rw [heq]
      exact hruled

theorem derived_move_iff {found : RealmRow} {key : Text × Text}
    {f : Realm -> Realm} {hfree : c.realms.Free found.pk key}
    (hfound : found ∈ c.realms.rows) (h : Derived c) :
    Derived { c with realms := c.realms.move found.pk key f hfree } <->
      Ruled key.2 (f found.value) := by
  constructor
  · intro hderived
    have hmem : Table.moveRow found.pk key f found ∈
        (c.realms.move found.pk key f hfree).rows :=
      Table.mem_move.mpr ⟨found, hfound, rfl⟩
    have hmoved := hderived _ hmem
    unfold Table.moveRow at hmoved
    rw [if_pos rfl] at hmoved
    exact hmoved
  · intro hruled row hrow
    change row ∈ (c.realms.move found.pk key f hfree).rows at hrow
    rcases Table.mem_move.mp hrow with ⟨old, hold, heq⟩
    rw [← heq]
    unfold Table.moveRow
    by_cases hpk : old.pk = found.pk
    · rw [if_pos hpk, Table.eq_of_pk hold hfound hpk]
      exact hruled
    · rw [if_neg hpk]
      exact h old hold

theorem derived_createRealm {dto : CreateRealmDto} (h : Derived c)
    (hcreate : createRealm platform c dto = .ok c') : Derived c' := by
  rcases Fallible.exists_of_bind_ok hcreate with
    ⟨processor, hprocessor, hcreate⟩
  rcases Fallible.exists_of_bind_ok hcreate with ⟨named, hnamed, hcreate⟩
  rcases named with ⟨realmKey, realm⟩
  rcases Fallible.exists_of_bind_ok hcreate with ⟨realms, hrealms, hcreate⟩
  cases hcreate
  rcases Table.exists_insert_of_create (eq_of_written hrealms) with
    ⟨hnew, heq⟩
  rw [heq]
  exact (derived_insert_iff h).mpr
    (ruled_of_constructRealm hprocessor hnamed).left

theorem derived_updateRealm {callgentId realmKey : Text}
    {dto : UpdateRealmDto} (h : Derived c)
    (hupdate : updateRealm platform c callgentId realmKey dto = .ok c') :
    Derived c' := by
  unfold updateRealm at hupdate
  rcases Fallible.exists_of_bind_ok hupdate with
    ⟨⟨key, realm⟩, hnamed, hupdate⟩
  rcases Fallible.exists_of_bind_ok hupdate with ⟨old, hold, hupdate⟩
  rcases Fallible.exists_of_bind_ok hupdate with ⟨realms, hrealms, hupdate⟩
  rcases Fallible.exists_of_bind_ok hnamed with ⟨scheme, _, hnamed⟩
  rcases Fallible.exists_of_bind_ok hnamed with
    ⟨processor, hprocessor, hnamed⟩
  cases hupdate
  rcases Table.exists_move_of_updateKey (eq_of_written hrealms) with
    ⟨hfree, heq⟩
  rw [heq]
  exact (derived_move_iff (Table.mem_of_findUnique (eq_of_written hold)) h).mpr
    (ruled_of_constructRealm hprocessor hnamed).left

theorem derived_deleteRealm {callgentId realmKey : Text} (h : Derived c)
    (hdelete : deleteRealm c callgentId realmKey = .ok c') : Derived c' := by
  rcases Fallible.exists_of_bind_ok hdelete with ⟨realm, _, hdelete⟩
  rcases Fallible.exists_of_bind_ok hdelete with ⟨realms, hrealms, hdelete⟩
  cases hdelete
  intro row hrow
  change row ∈ realms.rows at hrow
  rw [Table.eq_erase_of_delete (eq_of_written hrealms)] at hrow
  exact h row (Table.mem_erase.mp hrow).left

def Upsert.onto (u : Upsert) (t : Table (Text × Text) Realm) :
    Table (Text × Text) Realm :=
  match h : t.findUnique u.key with
  | some found =>
      t.move found.pk u.key u.over (Table.free_of_findUnique h)
  | none => t.insert u.key u.realm h

theorem upsertRealm_of_constructed (hplatform : platform.FindsByKey)
    {entryId : Text} {entry : EntryRow} {scheme : RealmSchemeVO}
    {form : RealmForm} {servers : List Text} {u : Upsert}
    (hentry : c.entries.findUnique entryId = some entry)
    (hu : constructUpsert platform entry.value scheme form servers = .ok u) :
    upsertRealm platform c entryId scheme form servers =
      .ok { c with realms := u.onto c.realms } := by
  unfold upsertRealm findEntry
  rw [hentry]
  show (constructUpsert platform entry.value scheme form servers >>= _) = _
  rw [hu]
  show (upsertStep platform u c.realms (.writing
    (platform.findFirst u.key c.realms)) >>= _) = _
  rw [hplatform]
  have hwritten : exists state,
      upsertStep platform u c.realms (.writing (c.realms.findUnique u.key)) =
        .ok (u.onto c.realms, state) := by
    have hcall := fun found (h : c.realms.findUnique u.key = found) =>
      congrArg (fun found =>
        upsertStep platform u c.realms (.writing found)) h
    unfold Upsert.onto
    split
    · rename_i found hfound
      exact ⟨_, (hcall _ hfound).trans (upsertStep_writing hfound rfl)⟩
    · rename_i hnew
      have hcreate : upsertStep platform u c.realms (.writing none) =
          .ok (c.realms.insert u.key u.realm hnew,
            .done ⟨c.realms.nextPk, u.key, u.realm⟩) := by
        rw [upsertStep_creating, Table.create_of_none u.realm hnew]
      exact ⟨_, (hcall _ hnew).trans hcreate⟩
  rcases hwritten with ⟨state, hwritten⟩
  rw [hwritten]
  rfl

theorem derived_onto_iff {u : Upsert} (h : Derived c)
    (hu : Ruled u.realmKey u.realm) :
    Derived { c with realms := u.onto c.realms } <->
      forall row, c.realms.findUnique u.key = some row ->
        Ruled u.realmKey (u.over row.value) := by
  unfold Upsert.onto
  split
  · rename_i found hfound
    rw [derived_move_iff (Table.mem_of_findUnique hfound) h]
    constructor
    · intro hover row hrow
      rw [← Option.some.inj (hfound.symm.trans hrow)]
      exact hover
    · exact fun hall => hall found hfound
  · rename_i hnew
    rw [derived_insert_iff h]
    apply iff_of_true hu
    intro row hrow
    rw [hnew] at hrow
    cases hrow

theorem derived_upsertRealm_iff (hplatform : platform.FindsByKey)
    {entryId : Text} {scheme : RealmSchemeVO} {form : RealmForm}
    {servers : List Text} (h : Derived c)
    (hstep : realmStep platform c (.upsertRealm entryId scheme form servers) =
      some c') :
    Derived c' <->
      GivesStored platform c (.upsertRealm entryId scheme form servers) := by
  unfold realmStep RealmCall.op step at hstep
  unfold perform at hstep
  dsimp only at hstep
  cases hentry : c.entries.findUnique entryId with
  | none =>
      have herror : upsertRealm platform c entryId scheme form servers =
          .error recordNotFound := by
        unfold upsertRealm findEntry
        rw [hentry]
        rfl
      rw [herror] at hstep
      rw [← Option.some.inj hstep]
      apply iff_of_true h
      intro entry u row hother
      rw [hentry] at hother
      cases hother
  | some entry =>
      cases hu : constructUpsert platform entry.value scheme form servers with
      | error e =>
          have herror : upsertRealm platform c entryId scheme form servers =
              .error e := by
            unfold upsertRealm findEntry
            rw [hentry]
            show (constructUpsert platform entry.value scheme form servers >>=
              _) = _
            rw [hu]
            rfl
          rw [herror] at hstep
          rw [← Option.some.inj hstep]
          apply iff_of_true h
          intro other u row hother hconstruct
          rw [← Option.some.inj (hentry.symm.trans hother), hu] at hconstruct
          cases hconstruct
      | ok u =>
          rcases ruled_of_constructUpsert hu with ⟨hruled, hrealm, hsecret⟩
          rw [upsertRealm_of_constructed hplatform hentry hu] at hstep
          have hgives : GivesStored platform c
              (.upsertRealm entryId scheme form servers) <->
                forall row, c.realms.findUnique u.key = some row ->
                  Ruled u.realmKey (u.over row.value) := by
            constructor
            · intro hgiven row hrow
              rw [ruled_over_iff hruled, hsecret, hrealm]
              exact hgiven entry u row hentry hu hrow
            · intro hgiven other v row hother hconstruct hrow
              rw [← Option.some.inj (hentry.symm.trans hother), hu]
                at hconstruct
              rw [← Except.ok.inj hconstruct] at hrow ⊢
              rw [← hsecret, ← hrealm, ← ruled_over_iff hruled]
              exact hgiven row hrow
          rw [hgives, ← derived_onto_iff h hruled, ← Option.some.inj hstep]

theorem realmStep_cases {call : RealmCall}
    (h : realmStep platform c call = some c') :
    perform platform c call.op = .ok c' ∨ c' = c := by
  unfold realmStep step at h
  split at h
  · rename_i next hnext
    rw [← Option.some.inj h]
    exact Or.inl hnext
  · exact Or.inr (Option.some.inj h).symm

theorem derived_realmStep_iff (hplatform : platform.FindsByKey)
    {call : RealmCall} (h : Derived c)
    (hstep : realmStep platform c call = some c') :
    Derived c' <-> GivesStored platform c call := by
  cases call with
  | upsertRealm entryId scheme form servers =>
      exact derived_upsertRealm_iff hplatform h hstep
  | create dto =>
      apply iff_of_true _ True.intro
      rcases realmStep_cases hstep with hnext | hsame
      · exact derived_createRealm h hnext
      · rw [hsame]
        exact h
  | update callgentId realmKey dto =>
      apply iff_of_true _ True.intro
      rcases realmStep_cases hstep with hnext | hsame
      · exact derived_updateRealm h hnext
      · rw [hsame]
        exact h
  | delete callgentId realmKey =>
      apply iff_of_true _ True.intro
      rcases realmStep_cases hstep with hnext | hsame
      · exact derived_deleteRealm h hnext
      · rw [hsame]
        exact h

/-- The derived fields of the realms are right in every state of a run exactly
when each upsert over a realm gives what is stored and they depend on. -/
theorem derived_iff_givesStored (hplatform : platform.FindsByKey)
    {calls : List RealmCall} (h : Derived c)
    (hrun : run (realmStep platform) c calls = some c') :
    Along (realmStep platform) Derived c calls <->
      StepsMeet (realmStep platform) (GivesStored platform) c calls := by
  have htrue : forall c call c', call ∈ calls -> True ->
      realmStep platform c call = some c' -> True :=
    fun _ _ _ _ h _ => h
  have hstep : forall c call c', call ∈ calls -> True -> Derived c ->
      realmStep platform c call = some c' ->
        (Derived c' <-> GivesStored platform c call) :=
    fun _ _ _ _ _ hderived hstep =>
      derived_realmStep_iff hplatform hderived hstep
  rw [along_iff_stepsMeet_of_inv htrue hstep True.intro hrun]
  exact and_iff_right h

end Step

/-! ## A second import -/

def createKey : RealmCall :=
  .create
    { callgentId := "shop".toList
      authType := "apiKey".toList
      scheme := keyScheme
      form := ⟨none, some (.str "open".toList)⟩ }

def giveAgain (secret : Value) : RealmCall :=
  .upsertRealm "e1".toList keyScheme ⟨none, secret⟩ []

def keyedShop : Tables :=
  { oneShop with
    realms := Table.empty.insert shopKey.key
      { shopKey.realm with
        secret := some (.str "open".toList)
        enabled := true } rfl }

theorem derived_oneShop : Derived oneShop :=
  fun _ hrow => nomatch hrow

theorem createKey_oneShop :
    realmStep shopHosts oneShop createKey = some keyedShop :=
  rfl

theorem derived_giveAgain :
    exists c, run (realmStep shopHosts) oneShop
        [createKey, giveAgain (some (.str "new".toList))] = some c ∧
      Along (realmStep shopHosts) Derived oneShop
        [createKey, giveAgain (some (.str "new".toList))] := by
  have hgives : StepsMeet (realmStep shopHosts) (GivesStored shopHosts) oneShop
      [createKey, giveAgain (some (.str "new".toList))] := by
    refine ⟨True.intro, ?_⟩
    intro c hc
    rw [← Option.some.inj (createKey_oneShop.symm.trans hc)]
    refine ⟨?_, fun _ _ => True.intro⟩
    intro entry u row _ _ hrow
    constructor
    · intro hnone
      cases hnone
    · intro _
      rw [List.mem_singleton.mp (Table.mem_of_findUnique hrow)]
      rfl
  exact ⟨_, rfl,
    (derived_iff_givesStored findsByKey_shopHosts derived_oneShop rfl).mpr
      hgives⟩

/-- A second import without secrets disables the realm, which keeps its
secret. -/
theorem not_derived_giveAgain :
    exists c, run (realmStep shopHosts) oneShop [createKey, giveAgain none] =
        some c ∧
      Derived oneShop ∧ ¬ Derived c := by
  refine ⟨_, rfl, derived_oneShop, ?_⟩
  intro h
  rcases h _ List.mem_cons_self with ⟨_, _, _, henabled⟩
  revert henabled
  decide

end Config
end CallgentApi
