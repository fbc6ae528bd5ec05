import CallgentApi.Hub.References

/-!
# The names of stored endpoints

An endpoint is stored under the name of its method and path.  An update names
it again after what it is given of them.
-/

namespace CallgentApi
namespace Hub

open Js Event Realms Cached Config Transition

/-! ## `EndpointsService.update` -/

/-- What is given for an endpoint: nothing, `null`, or a value. -/
abbrev Given (t : Type) := Option (Option t)

def Given.over {t : Type} (given : Given t) (old : Option t) : Option t :=
  given.getD old

/-- `UpdateEndpointDto`. -/
structure UpdateEndpointDto where
  id : Text
  path : Given Text
  method : Given Text
  summary : Given Text
  description : Given Text
  servers : Option (List Json)
  securities : Option (List Guard)
  params : Value
  responses : Value
  rawJson : Option Json
  callgentId : Option Text
  entryId : Given Text
  cacheKey : Given Text
  cacheTtl : Given Int

def displayPath : Given Text -> Text
  | none => "undefined".toList
  | some none => "null".toList
  | some (some path) => path

/-- What an update writes over an endpoint, which has a method and a path. -/
def UpdateEndpointDto.apply (dto : UpdateEndpointDto) (method : Text)
    (endpoint : StoredEndpoint) : StoredEndpoint :=
  { endpoint with
    path := (dto.path.getD none).getD endpoint.path
    method := method
    summary := dto.summary.over endpoint.summary
    description := dto.description.over endpoint.description
    servers := dto.servers.getD endpoint.servers
    securities := dto.securities.getD endpoint.securities
    params := dto.params.or endpoint.params
    responses := dto.responses.or endpoint.responses
    rawJson := dto.rawJson.getD endpoint.rawJson
    entryId := dto.entryId.over endpoint.entryId
    cacheKey := dto.cacheKey.over endpoint.cacheKey
    cacheTtl := dto.cacheTtl.over endpoint.cacheTtl }

/-- `dto.method.toUpperCase()` needs a method. -/
def givenMethod (dto : UpdateEndpointDto) : Except Thrown Text :=
  match dto.method with
  | none => .error (.readUndefined "toUpperCase".toList)
  | some none =>
      .error (.typeError
        "Cannot read properties of null (reading 'toUpperCase')".toList)
  | some (some method) => .ok method

/-- `EndpointsService.update`. -/
def updateEndpoint (c : Tables) (dto : UpdateEndpointDto) :
    Except Thrown Tables := do
  if dto.id.isEmpty then return c
  let method ← givenMethod dto
  let name := formalApiName method (displayPath dto.path)
  if dto.path = some none then
    throw (.plain "Argument `path` must not be null.".toList)
  let found ← written recordNotFound (findEndpoint c dto.id)
  let endpoints ← written uniqueConstraint
    (c.endpoints.updateKey found.pk (dto.callgentId.getD found.key.1, name)
      (dto.apply method))
  return { c with endpoints := endpoints }

inductive EndpointCall where
  | service (op : Op)
  | update (dto : UpdateEndpointDto)

def endpointStep (platform : Platform) (c : Tables) :
    EndpointCall -> Option Tables
  | .service op => step platform c op
  | .update dto =>
      match updateEndpoint c dto with
      | .ok c' => some c'
      | .error _ => some c

/-! ## Names -/

def NamedRow (row : StoredEndpointRow) : Prop :=
  row.key.2 = formalApiName row.value.method row.value.path

/-- Each endpoint stands under the name of its method and path. -/
def Named (c : Tables) : Prop :=
  forall row, row ∈ c.endpoints.rows -> NamedRow row

/-- An update that gives the method of an endpoint gives its path as well,
unless it is refused for the name that it makes. -/
def GivesPath (c : Tables) : EndpointCall -> Prop
  | .service _ => True
  | .update dto =>
      dto.id ≠ [] -> forall row method, findEndpoint c dto.id = some row ->
        dto.method = some (some method) -> dto.path = none ->
          c.endpoints.Free row.pk (dto.callgentId.getD row.key.1,
            formalApiName method "undefined".toList) ->
          row.value.path = "undefined".toList

section Step

variable {platform : Platform} {c c' : Tables}

/-- Endpoints keep their names, methods and paths, or are new and named. -/
def KeepsNames (c c' : Tables) : Prop :=
  forall row, row ∈ c'.endpoints.rows -> NamedRow row ∨
    exists old, old ∈ c.endpoints.rows ∧ row.key = old.key ∧
      row.value.method = old.value.method ∧ row.value.path = old.value.path

theorem Named.of_keeps (h : Named c) (hkeeps : KeepsNames c c') :
    Named c' := by
  intro row hrow
  rcases hkeeps row hrow with hnamed | ⟨old, hold, hkey, hmethod, hpath⟩
  · exact hnamed
  · unfold NamedRow
    rw [hkey, hmethod, hpath]
    exact h old hold

theorem Named.of_endpoints (h : Named c) (heq : c'.endpoints = c.endpoints) :
    Named c' := by
  unfold Named
  rw [heq]
  exact h

theorem named_onRealms
    (service : Config.Tables -> Except Thrown Config.Tables) (h : Named c)
    (hservice : onRealms c service = .ok c') : Named c' := by
  rcases Fallible.exists_of_bind_ok hservice with ⟨next, _, heq⟩
  cases heq
  exact h

theorem named_createEntry {id : Text} {dto : CreateEntryDto} (h : Named c)
    (hcreate : createEntry platform c id dto = .ok c') : Named c' := by
  rcases createEntry_cases hcreate with ⟨host, entries, _, heq, _⟩
  rw [heq]
  exact h

theorem named_createCallgent {tenantPk : Int} {id restAPI email : Text}
    {dto : CreateCallgentDto} (h : Named c)
    (hcreate : createCallgent platform c tenantPk id dto restAPI email =
      .ok c') : Named c' := by
  rcases Fallible.exists_of_bind_ok hcreate with ⟨callgents, _, hrest⟩
  unfold callgentCreated at hrest
  split at hrest
  · cases hrest
    exact h
  · rcases Fallible.exists_of_bind_ok hrest with ⟨mid, hmid, hlast⟩
    exact named_createEntry (named_createEntry (c := { c with
      callgents := callgents }) h hmid) hlast

theorem named_updateSecurities {type : SecurityTarget} {id : Text}
    {forms : List SecurityForm} (h : Named c)
    (hupdate : updateSecurities platform c type id forms = .ok c') :
    Named c' := by
  cases type with
  | entry =>
      rcases Fallible.exists_of_bind_ok hupdate with ⟨entry, _, hrest⟩
      rcases Fallible.exists_of_bind_ok hrest with ⟨securities, _, hrest'⟩
      rcases Fallible.exists_of_bind_ok hrest' with ⟨entries, _, heq⟩
      cases heq
      exact h
  | function =>
      rcases Fallible.exists_of_bind_ok hupdate with ⟨endpoint, _, hrest⟩
      rcases Fallible.exists_of_bind_ok hrest with ⟨entry, _, hrest'⟩
      rcases Fallible.exists_of_bind_ok hrest' with ⟨securities, _, hlast⟩
      rcases Fallible.exists_of_bind_ok hlast with ⟨endpoints, hedit, heq⟩
      cases heq
      apply h.of_keeps
      intro row hrow
      have hrow' : row ∈ endpoints.rows := hrow
      rw [Table.eq_edit_of_update (eq_of_written hedit),
        Table.mem_edit] at hrow'
      rcases hrow' with ⟨old, hold, hedited⟩
      refine Or.inr ⟨old, hold, ?_⟩
      rw [← hedited]
      unfold Table.editRow
      split
      · exact ⟨rfl, rfl, rfl⟩
      · exact ⟨rfl, rfl, rfl⟩

theorem named_deleteRealm {callgentId realmKey : Text} (h : Named c)
    (hdelete : deleteRealm c callgentId realmKey = .ok c') : Named c' := by
  rcases Fallible.exists_of_bind_ok hdelete with ⟨realm, _, hrest⟩
  rcases Fallible.exists_of_bind_ok hrest with ⟨realms, _, heq⟩
  cases heq
  apply h.of_keeps
  intro row hrow
  rcases Table.mem_mapValues.mp hrow with ⟨old, hold, hmapped⟩
  refine Or.inr ⟨old, hold, ?_⟩
  rw [← hmapped]
  dsimp only
  split
  · exact ⟨rfl, rfl, rfl⟩
  · exact ⟨rfl, rfl, rfl⟩

theorem named_createMany {adaptorKey callgentId : Text}
    {named : List (Text × StoredEndpoint)} (h : Named c)
    (hnamed : forall endpoint, endpoint ∈ named ->
      endpoint.1 = formalApiName endpoint.2.method endpoint.2.path)
    (hcreate : createMany platform c adaptorKey callgentId named = .ok c') :
    Named c' := by
  rcases createMany_cases hcreate with
    ⟨isAsync, endpoints, added, heq, hrows, _, hall⟩
  rw [heq]
  intro row hrow
  have hrow' : row ∈ endpoints.rows := hrow
  rw [hrows] at hrow'
  rcases List.mem_append.mp hrow' with hold | hadded
  · exact h row hold
  · rcases Correspondence.exists_of_mem_forall₂ hall hadded with
      ⟨endpoint, hendpoint, hkey, hvalue⟩
    unfold NamedRow
    rw [hkey, hvalue]
    exact hnamed endpoint hendpoint

theorem named_createBatch {entryId : Text} {spec : ImportSpec}
    {schedule : List Nat} {ids : Nat -> Text} (h : Named c)
    (hcreate : createBatch platform c entryId spec schedule ids = .ok c') :
    Named c' := by
  rcases createBatch_cases hcreate with
    ⟨entry, upserts, imported, named, _, _, _, hnamed, hmany⟩
  apply named_createMany (c := { c with realms := imported.realms }) h _ hmany
  intro endpoint hendpoint
  rcases Fallible.exists_of_mem_mapM hnamed hendpoint with
    ⟨numbered, _, happly⟩
  rcases Fallible.exists_of_bind_ok happly with ⟨guards, _, heq⟩
  cases heq
  rfl

theorem named_duplicateEntry {realmMap : RealmMap} {ids : GeneratedIds}
    {numbered : (StoredEntryRow × List StoredEndpointRow) × Nat}
    (h : Named c)
    (hsource : forall row, row ∈ numbered.1.2 -> NamedRow row)
    (hduplicate : duplicateEntry platform realmMap ids c numbered = .ok c') :
    Named c' := by
  rcases Fallible.exists_of_bind_ok hduplicate with ⟨securities, _, hrest⟩
  rcases Fallible.exists_of_bind_ok hrest with ⟨mid, hmid, hrest'⟩
  rcases Fallible.exists_of_bind_ok hrest' with ⟨eps, heps, hmany⟩
  apply named_createMany (named_createEntry h hmid) _ hmany
  intro endpoint hendpoint
  rcases Fallible.exists_of_mem_mapM heps hendpoint with
    ⟨source, hmem, hdup⟩
  rcases Fallible.exists_of_bind_ok hdup with ⟨copies, _, heq⟩
  cases heq
  exact hsource source.1 (List.fst_mem_of_mem_zipIdx hmem)

theorem named_duplicateCallgent {fromId : Text} {dto : DuplicateDto}
    {fromTenant toTenant : Int} {ids : GeneratedIds} (h : Named c)
    (hduplicate : duplicateCallgent platform c fromId dto fromTenant toTenant
      ids = .ok c') : Named c' := by
  rcases duplicateCallgent_cases hduplicate with
    ⟨callgents, mid, realmMap, hrealms, hentries⟩
  have hmid : Named mid := by
    apply Fallible.foldlM_invariant (fun s : Tables × RealmMap => Named s.1)
      _ _ hrealms
    · intro s row next _ hs hnext
      rcases Fallible.exists_of_bind_ok hnext with ⟨made, hmade, heq⟩
      cases heq
      exact named_onRealms _ hs hmade
    · exact h
  apply Fallible.foldlM_invariant Named _ hmid hentries
  intro state numbered next hnumbered hstate hnext
  apply named_duplicateEntry hstate _ hnext
  intro row hrow
  rcases List.mem_map.mp (List.fst_mem_of_mem_zipIdx hnumbered) with
    ⟨entry, _, heq⟩
  rw [← heq] at hrow
  exact hmid row (List.mem_filter.mp hrow).left

theorem named_perform {op : Op} (h : Named c)
    (hperform : perform platform c op = .ok c') : Named c' := by
  cases op with
  | createCallgent tenantPk id dto restAPI email =>
      exact named_createCallgent h hperform
  | createEntry id dto => exact named_createEntry h hperform
  | updateEntry id dto =>
      rcases Fallible.exists_of_bind_ok hperform with ⟨entry, _, hrest⟩
      rcases Fallible.exists_of_bind_ok hrest with ⟨entries, _, heq⟩
      cases heq
      exact h
  | createRealm dto =>
      exact named_onRealms (fun view => Config.createRealm platform view dto) h
        hperform
  | upsertRealm entryId scheme form servers =>
      exact named_onRealms (fun view =>
        upsertRealm platform view entryId scheme form servers) h hperform
  | updateRealm callgentId realmKey dto =>
      exact named_onRealms (fun view =>
        updateRealm platform view callgentId realmKey dto) h hperform
  | deleteRealm callgentId realmKey => exact named_deleteRealm h hperform
  | updateSecurities type id forms => exact named_updateSecurities h hperform
  | createBatch entryId spec schedule ids => exact named_createBatch h hperform
  | forkFromHub tenantPk dupId dto ids =>
      exact named_duplicateCallgent h hperform
  | commitToHub tenantPk dupId dto ids =>
      exact named_duplicateCallgent h hperform

/-! ## The names of updates -/

theorem updateEndpoint_cases {dto : UpdateEndpointDto} (hid : dto.id ≠ [])
    (h : updateEndpoint c dto = .ok c') :
    exists method found,
      exists hfree : c.endpoints.Free found.pk
        (dto.callgentId.getD found.key.1,
          formalApiName method (displayPath dto.path)),
      dto.method = some (some method) ∧ dto.path ≠ some none ∧
      findEndpoint c dto.id = some found ∧
      c' = { c with
        endpoints := c.endpoints.move found.pk _ (dto.apply method) hfree } :=
    by
  unfold updateEndpoint at h
  have hempty : dto.id.isEmpty ≠ true :=
    fun h => hid (List.isEmpty_iff.mp h)
  rw [if_neg hempty] at h
  rcases Fallible.exists_of_bind_ok h with ⟨method, hmethod, hrest⟩
  have hgiven : dto.method = some (some method) := by
    unfold givenMethod at hmethod
    split at hmethod
    · cases hmethod
    · cases hmethod
    · rename_i given hdto
      rw [hdto, Except.ok.inj hmethod]
  dsimp only at hrest
  split at hrest
  · cases hrest
  · rename_i hpath
    rcases Fallible.exists_of_bind_ok hrest with ⟨found, hfound, hrest'⟩
    rcases Fallible.exists_of_bind_ok hrest' with ⟨endpoints, hmove, heq⟩
    cases heq
    rcases Table.exists_move_of_updateKey (eq_of_written hmove) with
      ⟨hfree, heq⟩
    rw [heq]
    exact ⟨method, found, hfree, hgiven, hpath, eq_of_written hfound, rfl⟩

theorem updateEndpoint_of_no_path {dto : UpdateEndpointDto}
    {found : StoredEndpointRow} {method : Text} (hid : dto.id ≠ [])
    (hfound : findEndpoint c dto.id = some found)
    (hmethod : dto.method = some (some method)) (hpath : dto.path = none)
    (hfree : c.endpoints.Free found.pk (dto.callgentId.getD found.key.1,
      formalApiName method "undefined".toList)) :
    updateEndpoint c dto = .ok
      { c with
        endpoints := c.endpoints.move found.pk _ (dto.apply method) hfree } :=
    by
  have hempty : dto.id.isEmpty ≠ true :=
    fun h => hid (List.isEmpty_iff.mp h)
  have hgiven : givenMethod dto = .ok method := by
    unfold givenMethod
    rw [hmethod]
  have hname : displayPath dto.path = "undefined".toList := by
    rw [hpath]
    rfl
  have hnot : dto.path ≠ some none := by
    rw [hpath]
    exact fun heq => nomatch heq
  unfold updateEndpoint
  rw [if_neg hempty, hgiven]
  show (if dto.path = some none then _ else _) = _
  rw [if_neg hnot, hfound, hname]
  show (written uniqueConstraint (c.endpoints.updateKey found.pk _ _) >>= _) =
    _
  unfold Table.updateKey
  rw [dif_pos hfree]
  rfl

theorem named_move_iff {dto : UpdateEndpointDto} {method : Text}
    {found : StoredEndpointRow} (h : Named c)
    (hfound : found ∈ c.endpoints.rows)
    {hfree : c.endpoints.Free found.pk (dto.callgentId.getD found.key.1,
      formalApiName method (displayPath dto.path))} :
    Named { c with
        endpoints := c.endpoints.move found.pk _ (dto.apply method) hfree } <->
      displayPath dto.path =
        (dto.path.getD none).getD found.value.path := by
  have hself : Table.moveRow found.pk (dto.callgentId.getD found.key.1,
      formalApiName method (displayPath dto.path)) (dto.apply method) found =
        ⟨found.pk, (dto.callgentId.getD found.key.1,
          formalApiName method (displayPath dto.path)),
          dto.apply method found.value⟩ :=
    if_pos rfl
  constructor
  · intro hnamed
    have hmoved : Table.moveRow found.pk _ (dto.apply method) found ∈
        (c.endpoints.move found.pk _ (dto.apply method) hfree).rows :=
      Table.mem_move.mpr ⟨found, hfound, rfl⟩
    have hrow := hnamed _ hmoved
    rw [hself] at hrow
    have hsame : formalApiName method (displayPath dto.path) =
        formalApiName method ((dto.path.getD none).getD found.value.path) :=
      hrow
    unfold formalApiName at hsame
    exact (List.cons.inj (List.append_cancel_left hsame)).right
  · intro hpath row hrow
    rcases List.mem_map.mp hrow with ⟨old, hold, heq⟩
    by_cases hpk : old.pk = found.pk
    · rw [Table.eq_of_pk hold hfound hpk, hself] at heq
      rw [← heq]
      show formalApiName method (displayPath dto.path) =
        formalApiName method ((dto.path.getD none).getD found.value.path)
      rw [hpath]
    · unfold Table.moveRow at heq
      rw [if_neg hpk] at heq
      rw [← heq]
      exact h old hold

theorem mem_of_findEndpoint {id : Text} {found : StoredEndpointRow}
    (h : findEndpoint c id = some found) : found ∈ c.endpoints.rows :=
  List.mem_of_find?_eq_some h

theorem named_endpointStep_iff {call : EndpointCall} (h : Named c)
    (hstep : endpointStep platform c call = some c') :
    Named c' <-> GivesPath c call := by
  cases call with
  | service op =>
      apply iff_of_true _ True.intro
      have hstep' : step platform c op = some c' := hstep
      unfold step at hstep'
      split at hstep'
      · rename_i next hnext
        cases hstep'
        exact named_perform h hnext
      · cases hstep'
        exact h
  | update dto =>
      unfold endpointStep at hstep
      dsimp only at hstep
      split at hstep
      · rename_i next hnext
        cases hstep
        by_cases hid : dto.id = []
        · have hsame : c' = c := by
            unfold updateEndpoint at hnext
            rw [hid] at hnext
            exact (Except.ok.inj hnext).symm
          rw [hsame]
          exact iff_of_true h fun hne => absurd hid hne
        · rcases updateEndpoint_cases hid hnext with
            ⟨method, found, hfree, hmethod, hnull, hfound, heq⟩
          rw [heq, named_move_iff h (mem_of_findEndpoint hfound)]
          constructor
          · intro hpath _ row given hrow hgiven hnone _
            rw [hnone] at hpath
            rw [Option.some.inj (hrow.symm.trans hfound)]
            exact hpath.symm
          · intro hgives
            cases hpath : dto.path with
            | none =>
                rw [hpath] at hfree
                exact (hgives hid found method hfound hmethod hpath
                  hfree).symm
            | some given =>
                cases given with
                | none => exact absurd hpath hnull
                | some path => rfl
      · rename_i e herror
        cases hstep
        apply iff_of_true h
        intro hid row method hrow hmethod hpath hfree
        rw [updateEndpoint_of_no_path hid hrow hmethod hpath hfree] at herror
        cases herror

theorem exists_endpointStep (platform : Platform) (c : Tables)
    (call : EndpointCall) :
    exists c', endpointStep platform c call = some c' := by
  cases call with
  | service op =>
      show exists c', step platform c op = some c'
      unfold step
      split
      · exact ⟨_, rfl⟩
      · exact ⟨_, rfl⟩
  | update dto =>
      unfold endpointStep
      dsimp only
      split
      · exact ⟨_, rfl⟩
      · exact ⟨_, rfl⟩

end Step

/-- Over every sequence of calls, each stored endpoint has the name of its
method and path in every state that is reached, exactly when no update gives a
method without a path. -/
theorem named_iff_givesPath (platform : Platform)
    (calls : List EndpointCall) :
    Along (endpointStep platform) Named .empty calls <->
      StepsMeet (endpointStep platform) GivesPath .empty calls := by
  rcases exists_run_of_total (exists_endpointStep platform) .empty calls with
    ⟨t, hrun⟩
  have hempty : Named .empty := by
    intro row hrow
    cases hrow
  have hinv : forall (s : Tables) (call : EndpointCall) s', call ∈ calls ->
      True -> endpointStep platform s call = some s' -> True :=
    fun _ _ _ _ h _ => h
  rw [along_iff_stepsMeet_of_inv hinv
    (fun s call s' _ _ hs hstep => named_endpointStep_iff hs hstep)
    True.intro hrun]
  exact and_iff_right hempty

/-! ## An order that is placed with another method -/

def postOrders : UpdateEndpointDto where
  id := "f1".toList
  path := none
  method := some (some "POST".toList)
  summary := none
  description := none
  servers := none
  securities := none
  params := none
  responses := none
  rawJson := none
  callgentId := none
  entryId := none
  cacheKey := none
  cacheTtl := none

def postedShop : List EndpointCall :=
  (openShop []).map EndpointCall.service ++ [.update postOrders]

theorem not_named_postOrders :
    exists c row, run (endpointStep hubHosts) .empty postedShop = some c ∧
      row ∈ c.endpoints.rows ∧
      row.key.2 = "POST undefined".toList ∧
      row.value.method = "POST".toList ∧
      row.value.path = "/orders".toList ∧ ¬ Named c := by
  refine ⟨_, _, rfl, List.mem_cons_self, rfl, rfl, rfl, ?_⟩
  intro hnamed
  have hname := hnamed _ List.mem_cons_self
  have hsame : "POST undefined".toList = "POST /orders".toList := hname
  exact absurd hsame (by decide)

end Hub
end CallgentApi
