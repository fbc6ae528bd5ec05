import CallgentApi.Lib.Alternatives
import CallgentApi.Lib.Correspondence
import CallgentApi.Config.Upserts

/-!
# The guards of an import

An operation may declare its own security in place of that of its document.
`createBatch` stores the guards of both.
-/

namespace CallgentApi
namespace Config

open Js Event Realms Cached Alternatives

/-! ## What a document requires -/

structure Operation where
  method : Text
  path : Text
  security : Option (List Requirement)

structure Specification where
  operations : List Operation
  securitySchemes : List (Text × RealmSchemeVO)
  servers : List Text
  security : Option (List Requirement)

/-- A missing list and an empty one are imported alike. -/
def Operation.api (operation : Operation) : Api where
  method := operation.method
  path := operation.path
  securities := operation.security.getD []

def Specification.apiSpec (spec : Specification) : ApiSpec where
  apis := spec.operations.map Operation.api
  securitySchemes := spec.securitySchemes
  servers := spec.servers
  securities := spec.security.getD []

def schemeNames (requirements : List Requirement) : List (List Text) :=
  requirements.map (List.map Prod.fst)

/-- The alternatives of an operation: its own, where it declares some, even
none. -/
def Specification.required (spec : Specification) (operation : Operation) :
    List (List Text) :=
  schemeNames (operation.security.getD (spec.security.getD []))

/-- The alternatives of the document and those of the operation. -/
def Specification.merged (spec : Specification) (operation : Operation) :
    List (List Text) :=
  schemeNames (spec.security.getD []) ++
    schemeNames (operation.security.getD [])

def DistinctRealms (platform : Platform) (entry : Entry)
    (spec : Specification) : Prop :=
  forall upserts, spec.securitySchemes.mapM (fun named =>
      constructUpsert platform entry named.2 ⟨none, none⟩ spec.servers) =
        .ok upserts ->
    (upserts.map Upsert.key).Nodup

def Authenticated (platform : Platform) (entry : Entry) (spec : Specification)
    (realms : Table (Text × Text) Realm) (s : Text -> Prop) (pk : Nat) : Prop :=
  exists named u row, named ∈ spec.securitySchemes ∧ s named.1 ∧
    constructUpsert platform entry named.2 ⟨none, none⟩ spec.servers = .ok u ∧
    realms.findUnique u.key = some row ∧ row.pk = pk

def GuardsAccept (platform : Platform) (entry : Entry) (spec : Specification)
    (realms : Table (Text × Text) Realm) (s : Text -> Prop)
    (securities : List RealmSecurityVO) : Prop :=
  Accepts (fun item : RealmSecurityItem =>
    Authenticated platform entry spec realms s item.realmPk) securities

/-! ## The realms of schemes -/

section Import

variable {platform : Platform} {entry : Entry} {spec : Specification}
  {upserts : List Upsert} {imported : Importing}

theorem exists_of_mem_realmMap {realms : Table (Text × Text) Realm}
    {order : List Nat} {names : List Text}
    (hprogress : Progress realms upserts order imported)
    {name : Text} {row : RealmRow}
    (h : (name, row) ∈ realmMap names imported.states) :
    exists (i : Nat) (u : Upsert) (found : RealmRow), names[i]? = some name ∧
      upserts[i]? = some u ∧
      imported.realms.findUnique u.key = some found ∧ found.pk = row.pk := by
  rcases List.mem_filterMap.mp h with ⟨⟨other, state⟩, hmem, hdone⟩
  cases state with
  | looking => cases hdone
  | writing existing => cases hdone
  | done written =>
      cases hdone
      rcases List.mem_iff_getElem?.mp hmem with ⟨i, hi⟩
      rcases List.getElem?_zip_eq_some.mp hi with ⟨hname, hstate⟩
      have hlt := (List.getElem?_eq_some_iff.mp hstate).choose
      have hu := List.getElem?_eq_getElem (hprogress.length ▸ hlt)
      rcases hprogress.spot i _ hu with ⟨state, hat, hremains, _⟩
      rw [← Option.some.inj (hstate.symm.trans hat)] at hremains
      rcases hremains with ⟨_, found, hfound, hpk⟩
      exact ⟨i, _, found, hname, hu, hfound, hpk⟩

theorem authenticated_iff {realms : Table (Text × Text) Realm}
    {order : List Nat} (hprogress : Progress realms upserts order imported)
    (hupserts : spec.securitySchemes.mapM (fun named =>
      constructUpsert platform entry named.2 ⟨none, none⟩ spec.servers) =
        .ok upserts)
    (hdistinct : (upserts.map Upsert.key).Nodup)
    {name : Text} {row : RealmRow}
    (h : (name, row) ∈
      realmMap (spec.securitySchemes.map Prod.fst) imported.states)
    (s : Text -> Prop) :
    Authenticated platform entry spec imported.realms s row.pk <-> s name := by
  have hall := Fallible.forall₂_of_mapM hupserts
  rcases exists_of_mem_realmMap hprogress h with
    ⟨i, u, found, hname, hu, hfound, hpk⟩
  rw [List.getElem?_map] at hname
  rcases Option.map_eq_some_iff.mp hname with ⟨named, hnamed, heq⟩
  constructor
  · intro hauthenticated
    rcases hauthenticated with
      ⟨other, v, stored, hother, hs, hv, hstored, hsame⟩
    rcases List.mem_iff_getElem?.mp hother with ⟨j, hj⟩
    rcases Correspondence.getElem?_of_forall₂ hall hj with ⟨w, hw, hconstruct⟩
    have hwv : w = v := Except.ok.inj (hconstruct.symm.trans hv)
    have hrow : stored = found :=
      Table.eq_of_pk (Table.mem_of_findUnique hstored)
        (Table.mem_of_findUnique hfound) (hsame.trans hpk.symm)
    have hkeys : u.key = v.key := by
      rw [← Table.key_of_findUnique hfound, ← hrow,
        Table.key_of_findUnique hstored]
    have hget : (upserts.map Upsert.key)[i]? =
        (upserts.map Upsert.key)[j]? := by
      rw [List.getElem?_map, List.getElem?_map, hu, hw, hwv]
      exact congrArg some hkeys
    have hlt : i < (upserts.map Upsert.key).length := by
      rw [List.length_map]
      exact (List.getElem?_eq_some_iff.mp hu).choose
    have hij : i = j := (List.getElem?_inj hlt hdistinct).mp hget
    rw [← hij] at hj
    rw [← heq, Option.some.inj (hnamed.symm.trans hj)]
    exact hs
  · intro hs
    rcases Correspondence.getElem?_of_forall₂ hall hnamed with
      ⟨w, hw, hconstruct⟩
    rw [Option.some.inj (hw.symm.trans hu)] at hconstruct
    exact ⟨named, u, found, List.mem_of_getElem? hnamed, heq.symm ▸ hs,
      hconstruct, hfound, hpk⟩

end Import

/-! ## The guards of requirements -/

section Guard

variable {platform : Platform} {entry : Entry}
  {realms : List (Text × RealmRow)} {P : Nat -> Prop} {s : Text -> Prop}

theorem meets_setItem {item : RealmSecurityItem} {guard : RealmSecurityVO} :
    Meets (fun item => P item.realmPk) (setItem item guard) <->
      P item.realmPk ∧ Meets (fun item => P item.realmPk) guard := by
  unfold Meets
  induction guard with
  | nil => simp [setItem]
  | cons first rest ih =>
      unfold setItem
      split
      · simp
      · split
        · rename_i hsame
          simp [hsame]
        · rw [List.forall_mem_cons, ih, List.forall_mem_cons]
          exact and_left_comm

theorem meets_requirementGuard
    (hrealms : forall name row, (name, row) ∈ realms ->
      (P row.pk <-> s name)) {requirement : Requirement}
    {guard : RealmSecurityVO}
    (h : requirementGuard platform entry realms requirement = .ok guard) :
    Meets (fun item => P item.realmPk) guard <->
      Meets s (requirement.map Prod.fst) := by
  have hall : forall start, requirement.foldlM (fun guard required => do
      let row ← written
        (.badRequest ("Unknown security scheme name: ".toList ++ required.1))
        (realms.lookup required.1)
      let item ← constructSecurity platform entry row (some required.2)
      return setItem item guard) start = .ok guard ->
        (Meets (fun item => P item.realmPk) guard <->
          Meets (fun item => P item.realmPk) start ∧
            Meets s (requirement.map Prod.fst)) := by
    clear h
    induction requirement with
    | nil =>
        intro start h
        cases h
        simp [Meets]
    | cons required rest ih =>
        intro start h
        rw [List.foldlM_cons] at h
        rcases Fallible.exists_of_bind_ok h with ⟨next, hnext, hrest⟩
        rcases Fallible.exists_of_bind_ok hnext with ⟨row, hrow, hitem⟩
        rcases Fallible.exists_of_bind_ok hitem with ⟨item, hconstruct, heq⟩
        cases heq
        rcases List.lookup_eq_some_iff.mp (eq_of_written hrow) with
          ⟨before, after, hsplit, _⟩
        have hmem : (required.1, row) ∈ realms := by
          rw [hsplit]
          exact List.mem_append_right before List.mem_cons_self
        have hpk : item.realmPk = row.pk := by
          rcases Fallible.exists_of_bind_ok hconstruct with
            ⟨processor, _, hprocessor⟩
          cases hprocessor
          rfl
        have hfirst : P item.realmPk <-> s required.1 := by
          rw [hpk]
          exact hrealms _ _ hmem
        have hnames : Meets s ((required :: rest).map Prod.fst) <->
            s required.1 ∧ Meets s (rest.map Prod.fst) :=
          List.forall_mem_cons
        rw [ih _ hrest, meets_setItem, hfirst, hnames, ← and_assoc,
          and_comm (a := s required.1), and_assoc]
  rw [hall [] h]
  constructor
  · exact And.right
  · intro hnames
    refine ⟨?_, hnames⟩
    intro item hitem
    cases hitem

theorem accepts_guards
    (hrealms : forall name row, (name, row) ∈ realms ->
      (P row.pk <-> s name)) {requirements : List Requirement}
    {guards : List RealmSecurityVO}
    (h : requirements.mapM (requirementGuard platform entry realms) =
      .ok guards) :
    Accepts (fun item : RealmSecurityItem => P item.realmPk) guards <->
      Accepts s (schemeNames requirements) := by
  have hguards : List.Forall₂ (fun requirement guard =>
      Meets s (requirement.map Prod.fst) <->
        Meets (fun item : RealmSecurityItem => P item.realmPk) guard)
      requirements guards := by
    apply (Fallible.forall₂_of_mapM h).imp
    intro requirement guard hguard
    exact (meets_requirementGuard hrealms hguard).symm
  exact (accepts_congr (List.forall₂_map_left_iff.mpr hguards)).symm

end Guard

/-! ## The stored endpoints -/

theorem exists_stored_of_createMany {platform : Platform} {c c' : Tables}
    {entry : EntryRow} {named : List (Text × Endpoint)}
    (h : createMany platform c entry named = .ok c') {endpoint : Text × Endpoint}
    (hendpoint : endpoint ∈ named) :
    exists row isAsync, row ∈ c'.endpoints.rows ∧
      row.key = (entry.value.callgentId, endpoint.1) ∧
      row.value = { endpoint.2 with isAsync := isAsync } := by
  unfold createMany at h
  split at h
  · cases hendpoint
  · rcases Fallible.exists_of_bind_ok h with ⟨isAsync, _, hstored⟩
    rcases Fallible.exists_of_bind_ok hstored with ⟨endpoints, hfold, heq⟩
    cases heq
    have hstep : forall (state : Table (Text × Text) Endpoint) input next,
        insertEndpoint entry.value.callgentId state input = .ok next ->
          exists row, next.rows = state.rows ++ [row] ∧
            row.key = (entry.value.callgentId, input.1) ∧
            row.value = input.2 := by
      intro state input next hnext
      unfold insertEndpoint at hnext
      split at hnext
      · cases hnext
      · rcases Table.exists_insert_of_create (eq_of_written hnext) with
          ⟨hnew, heq⟩
        rw [heq]
        exact ⟨_, rfl, rfl, rfl⟩
    rcases Fallible.foldlM_appends_one Table.rows hstep hfold with
      ⟨added, hrows, hall⟩
    rcases Correspondence.exists_zip_of_forall₂
      (List.forall₂_map_left_iff.mp hall) hendpoint with
      ⟨row, hrow, hkey, hvalue⟩
    refine ⟨row, isAsync, ?_, hkey, hvalue⟩
    show row ∈ endpoints.rows
    rw [hrows]
    exact List.mem_append_right _ (List.of_mem_zip hrow).right

theorem exists_stored_of_createBatch {platform : Platform}
    (hplatform : platform.FindsByKey) {c c' : Tables} {entryId : Text}
    {entry : EntryRow} {spec : Specification} {schedule : List Nat}
    {ids : Nat -> Text} (hentry : findEntry c entryId = .ok entry)
    (hdistinct : DistinctRealms platform entry.value spec)
    (h : createBatch platform c entryId spec.apiSpec schedule ids = .ok c')
    {i : Nat} {operation : Operation}
    (hoperation : spec.operations[i]? = some operation) :
    exists row, row ∈ c'.endpoints.rows ∧
      row.key = (entry.value.callgentId,
        formalApiName operation.method operation.path) ∧
      row.value.id = ids i ∧
      forall s, GuardsAccept platform entry.value spec c'.realms s
          row.value.securities <->
        Accepts s (spec.merged operation) := by
  rcases createBatch_cases h with
    ⟨found, upserts, imported, named, hfound, hupserts, himport, hnamed,
      hcreate⟩
  have hsame : found = entry := by
    have hentry' := eq_of_written hentry
    exact Option.some.inj (hfound.symm.trans hentry')
  rw [hsame] at hupserts hnamed hcreate
  have hprogress := progress_after hplatform
    (show after platform c.realms upserts _ = .ok imported from himport)
  have hrealms : c'.realms = imported.realms :=
    (createMany_cases hcreate).right.left
  have hnumbered : spec.apiSpec.apis.zipIdx[i]? =
      some (operation.api, i) := by
    show (spec.operations.map Operation.api).zipIdx[i]? = _
    rw [List.getElem?_zipIdx, List.getElem?_map, hoperation]
    simp
  rcases Correspondence.getElem?_of_forall₂
    (Fallible.forall₂_of_mapM hnamed) hnumbered with
    ⟨endpoint, hendpoint, happly⟩
  rcases exists_stored_of_createMany hcreate
    (List.mem_of_getElem? hendpoint) with
    ⟨row, isAsync, hrow, hkey, hvalue⟩
  rcases Fallible.exists_of_bind_ok happly with ⟨guards, hguards, heq⟩
  cases heq
  refine ⟨row, hrow, hkey, ?_, ?_⟩
  · rw [hvalue]
  · intro s
    rw [hvalue, hrealms]
    have haccepts := accepts_guards
      (P := Authenticated platform entry.value spec imported.realms s)
      (fun name written hwritten =>
        authenticated_iff hprogress hupserts (hdistinct upserts hupserts)
          hwritten s) hguards
    unfold Specification.merged
    rw [show schemeNames (spec.security.getD []) ++
        schemeNames (operation.security.getD []) =
          schemeNames (spec.security.getD [] ++ operation.security.getD [])
      from List.map_append.symm]
    exact haccepts

/-- The guards that are stored for an operation accept what the alternatives
of the document and of the operation accept together.  It is what the operation
requires exactly if it declares no security or absorbs that of the document. -/
theorem stored_accepts_merged {platform : Platform}
    (hplatform : platform.FindsByKey) {c c' : Tables} {entryId : Text}
    {entry : EntryRow} {spec : Specification} {schedule : List Nat}
    {ids : Nat -> Text} (hentry : findEntry c entryId = .ok entry)
    (hdistinct : DistinctRealms platform entry.value spec)
    (h : createBatch platform c entryId spec.apiSpec schedule ids = .ok c')
    {i : Nat} {operation : Operation}
    (hoperation : spec.operations[i]? = some operation) :
    exists row, row ∈ c'.endpoints.rows ∧
      row.key = (entry.value.callgentId,
        formalApiName operation.method operation.path) ∧
      row.value.id = ids i ∧
      (forall s, GuardsAccept platform entry.value spec c'.realms s
          row.value.securities <->
        Accepts s (spec.merged operation)) ∧
      ((forall s, GuardsAccept platform entry.value spec c'.realms s
          row.value.securities <->
        Accepts s (spec.required operation)) <->
          forall own, operation.security = some own ->
            Absorbed (schemeNames (spec.security.getD []))
              (schemeNames own)) := by
  rcases exists_stored_of_createBatch hplatform hentry hdistinct h
    hoperation with ⟨row, hrow, hkey, hid, haccepts⟩
  refine ⟨row, hrow, hkey, hid, haccepts, ?_⟩
  simp only [haccepts]
  unfold Specification.merged Specification.required
  cases operation.security with
  | none =>
      constructor
      · intro _ own hown
        cases hown
      · intro _ s
        show Accepts s (_ ++ []) <-> _
        rw [List.append_nil]
        rfl
  | some own =>
      have hiff := absorbed_iff (schemeNames (spec.security.getD []))
        (schemeNames own)
      constructor
      · intro hsame other hother
        rw [← Option.some.inj hother]
        exact hiff.mpr hsame
      · intro habsorbed
        exact hiff.mp (habsorbed own rfl)

/-! ## An operation that is open -/

def openItems : Specification where
  operations := [⟨"get".toList, "/items".toList, some []⟩]
  securitySchemes := [("key".toList, keyScheme)]
  servers := []
  security := some [[("key".toList, [])]]

theorem distinctRealms_openItems :
    DistinctRealms shopHosts oneShopEntry openItems := by
  intro upserts hupserts
  cases hupserts
  exact List.nodup_singleton _

theorem stored_accepts_openItems :
    exists c' row, createBatch shopHosts oneShop "e1".toList openItems.apiSpec
        [] (fun _ => "f1".toList) = .ok c' ∧
      row ∈ c'.endpoints.rows ∧
      row.key = ("shop".toList, "GET /items".toList) ∧
      row.value.id = "f1".toList ∧
      (forall s, GuardsAccept shopHosts oneShopEntry openItems c'.realms s
          row.value.securities <->
        Accepts s [["key".toList]]) ∧
      ((forall s, GuardsAccept shopHosts oneShopEntry openItems c'.realms s
          row.value.securities <-> Accepts s []) <->
        forall own, some [] = some own ->
          Absorbed [["key".toList]] (schemeNames own)) := by
  have hcreate : exists c', createBatch shopHosts oneShop "e1".toList
      openItems.apiSpec [] (fun _ => "f1".toList) = .ok c' := ⟨_, rfl⟩
  rcases hcreate with ⟨c', hcreate⟩
  have hentry : findEntry oneShop "e1".toList =
      .ok ⟨1, "e1".toList, oneShopEntry⟩ := rfl
  have hoperation : openItems.operations[0]? =
      some ⟨"get".toList, "/items".toList, some []⟩ := rfl
  rcases stored_accepts_merged findsByKey_shopHosts hentry
    distinctRealms_openItems hcreate hoperation with ⟨row, hstored⟩
  exact ⟨c', row, hcreate, hstored⟩

/-- The key is required of the items as well. -/
theorem key_required_of_openItems :
    exists c' row, createBatch shopHosts oneShop "e1".toList openItems.apiSpec
        [] (fun _ => "f1".toList) = .ok c' ∧
      DistinctRealms shopHosts oneShopEntry openItems ∧
      c'.endpoints.rows = [row] ∧
      Accepts (fun _ => False)
        (openItems.required ⟨"get".toList, "/items".toList, some []⟩) ∧
      ¬ GuardsAccept shopHosts oneShopEntry openItems c'.realms
        (fun _ => False) row.value.securities := by
  refine ⟨_, _, rfl, distinctRealms_openItems, rfl, accepts_nil, ?_⟩
  intro haccepts
  rcases haccepts with hnil | ⟨guard, hguard, hmeets⟩
  · cases hnil
  · rw [List.mem_singleton.mp hguard] at hmeets
    rcases hmeets _ List.mem_cons_self with ⟨named, _, _, _, hs, _⟩
    exact hs

end Config
end CallgentApi
