import CallgentApi.Config.Import
import CallgentApi.Entries.Forwarded

/-!
# The names of endpoints

An import stores an endpoint under its method and path.  A direct request asks
for the endpoint that is named by its own method and by what follows the entry
in its url, where the query still stands.
-/

namespace CallgentApi
namespace Config

open Js Realms Entries

/-! ## The name that a request asks for -/

/-- The name that `RestApiController.invoke` computes. -/
def invokedName (method url callgentId entryId : Text) : Text :=
  let basePath := "invoke/".toList ++ (callgentId ++ '/' :: (entryId ++ ['/']))
  let epName := substr url
    (indexOfText url basePath 0 + Int.ofNat basePath.length)
  if epName.isEmpty then epName else formalApiName method ('/' :: epName)

/-- A direct request as it comes over the wire, where a space ends the method
and the url. -/
structure DirectRequest extends InvokeRequest where
  method_space : ' ' ∉ method
  suffix_space : ' ' ∉ toInvokeRequest.suffix

namespace DirectRequest

def rest (r : DirectRequest) : Text :=
  r.path ++ (r.queryText.map fun text => '?' :: text).getD []

def epName (r : DirectRequest) : Text :=
  invokedName r.method r.url r.callgentId r.entryId

theorem suffix_eq (r : DirectRequest) : r.suffix = '/' :: r.rest := rfl

theorem indexOfText_basePath (basePath tail : Text) :
    indexOfText ("/api/rest/".toList ++ (("invoke/".toList ++ basePath) ++ tail))
      ("invoke/".toList ++ basePath) 0 = 10 := by
  have hap : 'i' ∉ "/ap".toList := by decide
  have hrest : 'i' ∉ "/rest/".toList := by decide
  have hbehind : findText ("invoke/".toList ++ basePath)
      ("/rest/".toList ++ (("invoke/".toList ++ basePath) ++ tail)) =
        some 6 := by
    refine (findText_append_of_not_mem hrest _ _).trans ?_
    rw [show 'i' :: _ = "invoke/".toList ++ basePath from rfl,
      findText_append_self]
    rfl
  have hi : findText ("invoke/".toList ++ basePath)
      ('i' :: ("/rest/".toList ++ (("invoke/".toList ++ basePath) ++ tail))) =
        some 7 := by
    rw [findText, if_neg (by simp [startsWith, List.isPrefixOf]), hbehind]
    rfl
  have hfind : findText ("invoke/".toList ++ basePath)
      ("/api/rest/".toList ++ (("invoke/".toList ++ basePath) ++ tail)) =
        some 10 := by
    refine (findText_append_of_not_mem hap _ _).trans ?_
    exact congrArg (Option.map fun n => 3 + n) hi
  have hclamp : forall s : Text, clamp s 0 = 0 := fun s => Nat.zero_min _
  unfold indexOfText
  rw [hclamp, List.drop_zero, hfind]
  rfl

theorem epName_eq (r : DirectRequest) :
    r.epName = if r.rest.isEmpty then [] else
      formalApiName r.method ('/' :: r.rest) := by
  let basePath := r.callgentId ++ '/' :: (r.entryId ++ ['/'])
  have hurl : r.url =
      "/api/rest/".toList ++ (("invoke/".toList ++ basePath) ++ r.rest) := by
    have hfront : apiPrefix ++ invokePath =
        "/api/rest/".toList ++ "invoke/".toList := rfl
    have hbase : basePath ++ r.rest =
        r.callgentId ++ '/' :: (r.entryId ++ '/' :: r.rest) := by
      simp [basePath]
    unfold InvokeRequest.url
    rw [hfront, suffix_eq, ← hbase, List.append_assoc "/api/rest/".toList,
      List.append_assoc "invoke/".toList]
  have hindex := indexOfText_basePath basePath r.rest
  have hstop : (10 : Int) + Int.ofNat ("invoke/".toList ++ basePath).length =
      Int.ofNat ("/api/rest/".toList ++ ("invoke/".toList ++ basePath)).length := by
    have hlength : forall front back : Text,
        (front ++ back).length = front.length + back.length :=
      fun _ _ => List.length_append
    rw [hlength "/api/rest/".toList]
    exact (Int.natCast_add 10 _).symm
  have hsubstr : substr r.url
      (indexOfText r.url ("invoke/".toList ++ basePath) 0 +
        Int.ofNat ("invoke/".toList ++ basePath).length) = r.rest := by
    rw [hurl, hindex, hstop, ← List.append_assoc]
    exact substr_append _ _
  unfold epName invokedName
  dsimp only
  rw [show r.callgentId ++ '/' :: (r.entryId ++ ['/']) = basePath from rfl,
    hsubstr]
  cases r.rest with
  | nil => rfl
  | cons c rest => rfl

end DirectRequest

/-! ## When the names agree -/

theorem space_not_mem_toUpperCase {s : Text} (h : ' ' ∉ s) :
    ' ' ∉ toUpperCase s := by
  intro hmem
  rcases List.mem_map.mp hmem with ⟨c, hc, hupper⟩
  exact h (eq_space_of_toUpper hupper ▸ hc)

theorem formalApiName_inj {method path method' path' : Text}
    (hmethod : ' ' ∉ method) (hpath : ' ' ∉ path)
    (h : formalApiName method path = formalApiName method' path') :
    toUpperCase method = toUpperCase method' ∧ path = path' := by
  have hupper := space_not_mem_toUpperCase hmethod
  unfold formalApiName at h
  rcases List.append_eq_append_iff.mp h with
    ⟨between, hleft, hright⟩ | ⟨between, hleft, hright⟩
  · cases between with
    | nil =>
        rw [List.append_nil] at hleft
        exact ⟨hleft.symm, (List.cons.inj hright).right⟩
    | cons c rest =>
        have htail := (List.cons.inj hright).right
        rw [htail] at hpath
        exact absurd (List.mem_append_right rest List.mem_cons_self) hpath
  · cases between with
    | nil =>
        rw [List.append_nil] at hleft
        exact ⟨hleft, (List.cons.inj hright).right.symm⟩
    | cons c rest =>
        rw [hleft, (List.cons.inj hright).left] at hupper
        exact absurd (List.mem_append_right _ List.mem_cons_self) hupper

/-- The request is one for the endpoint: its method, in upper case, and its
path. -/
def DirectRequest.Requests (r : DirectRequest) (endpoint : Endpoint) : Prop :=
  toUpperCase r.method = toUpperCase endpoint.method ∧
    '/' :: r.path = endpoint.path

/-- The url of the request goes on as the path of the endpoint does, be it with
a query. -/
def DirectRequest.Spells (r : DirectRequest) (endpoint : Endpoint) : Prop :=
  toUpperCase r.method = toUpperCase endpoint.method ∧
    '/' :: r.rest = endpoint.path

namespace DirectRequest

variable {r : DirectRequest}

theorem rest_of_none (h : r.queryText = none) : r.rest = r.path := by
  unfold rest
  rw [h]
  exact List.append_nil _

theorem none_of_rest_eq_path (h : r.rest = r.path) : r.queryText = none := by
  unfold rest at h
  cases hquery : r.queryText with
  | none => rfl
  | some text =>
      rw [hquery] at h
      have hlength := congrArg List.length h
      simp at hlength

theorem none_of_question (h : '?' ∉ r.rest) : r.queryText = none := by
  unfold rest at h
  cases hquery : r.queryText with
  | none => rfl
  | some text =>
      rw [hquery] at h
      exact absurd (List.mem_append_right _ List.mem_cons_self) h

theorem epName_eq_formalApiName_iff {method path : Text} :
    r.epName = formalApiName method path <->
      r.rest ≠ [] ∧ toUpperCase r.method = toUpperCase method ∧
        '/' :: r.rest = path := by
  rw [epName_eq]
  cases hrest : r.rest with
  | nil =>
      apply iff_of_false
      · intro h
        have hspace : ' ' ∈ formalApiName method path :=
          List.mem_append_right _ List.mem_cons_self
        rw [← h] at hspace
        cases hspace
      · exact fun h => h.left rfl
  | cons c rest =>
      have hspace : ' ' ∉ '/' :: c :: rest := by
        rw [← hrest, ← suffix_eq]
        exact r.suffix_space
      constructor
      · intro h
        exact ⟨List.cons_ne_nil c rest,
          formalApiName_inj r.method_space hspace h⟩
      · intro h
        change formalApiName r.method ('/' :: c :: rest) = _
        unfold formalApiName
        rw [h.right.left, h.right.right]

end DirectRequest

/-- A request asks for the name of an imported endpoint exactly if it is one
for the endpoint, as long as it has no query, its path is not the root, and the
path of the endpoint does not spell a query itself. -/
theorem epName_iff {platform : Platform} {c c' : Tables} {entryId : Text}
    {spec : ApiSpec} {schedule : List Nat} {ids : Nat -> Text}
    (h : createBatch platform c entryId spec schedule ids = .ok c')
    {row : EndpointRow} (hrow : row ∈ c'.endpoints.rows)
    (hnew : row ∉ c.endpoints.rows) (r : DirectRequest) :
    (r.epName = row.key.2 <-> r.Requests row.value) <->
      (r.Requests row.value ->
        r.queryText = none ∧ row.value.path ≠ ['/']) ∧
      (r.Spells row.value -> '?' ∉ row.value.path) := by
  rw [name_of_createBatch h hrow hnew, DirectRequest.epName_eq_formalApiName_iff]
  constructor
  · intro hiff
    constructor
    · intro hrequests
      have hname := hiff.mpr hrequests
      have hrest : '/' :: r.rest = '/' :: r.path :=
        hname.right.right.trans hrequests.right.symm
      constructor
      · exact DirectRequest.none_of_rest_eq_path (List.cons.inj hrest).right
      · intro hroot
        have hempty := hname.right.right.trans hroot
        exact hname.left (List.cons.inj hempty).right
    · intro hspells hquestion
      have hrest : r.rest ≠ [] := by
        intro hnil
        rw [← hspells.right, hnil] at hquestion
        cases hquestion with
        | tail _ hmem => cases hmem
      have hpath := (hiff.mp ⟨hrest, hspells⟩).right
      rw [← hpath] at hquestion
      cases hquestion with
      | tail _ hmem => exact r.path_question hmem
  · intro hplain
    constructor
    · intro hname
      have hquestion : '?' ∉ r.rest := by
        intro hmem
        have hpath := hplain.right hname.right
        rw [← hname.right.right] at hpath
        exact hpath (List.mem_cons_of_mem _ hmem)
      have hrest := DirectRequest.rest_of_none
        (DirectRequest.none_of_question hquestion)
      rw [hrest] at hname
      exact hname.right
    · intro hrequests
      rcases hplain.left hrequests with ⟨hnone, hroot⟩
      rw [DirectRequest.rest_of_none hnone]
      constructor
      · intro hnil
        apply hroot
        rw [← hrequests.right, hnil]
      · exact hrequests

/-! ## The endpoints of a shop -/

def shopPlatform : Platform where
  hostname := fun _ => none
  adaptors := fun _ => some ⟨some false, none⟩
  findFirst := fun key realms => realms.findUnique key

def shopEntry : Entry where
  type := .server
  adaptorKey := "restAPI".toList
  name := "shop".toList
  host := "https://shop.example".toList
  callgentId := "shop".toList
  securities := []

theorem findUnique_noEntries :
    (Table.empty : Table Text Entry).findUnique "e1".toList = none := rfl

def shopTables : Tables :=
  { Tables.empty with
    entries := Table.empty.insert "e1".toList shopEntry findUnique_noEntries }

def shopSpec : ApiSpec where
  apis := [⟨"GET".toList, "/list".toList, []⟩]
  securitySchemes := []
  servers := []
  securities := []

def listEndpoint : Endpoint where
  id := "p1".toList
  method := "GET".toList
  path := "/list".toList
  entryId := some "e1".toList
  adaptorKey := "restAPI".toList
  securities := []
  isAsync := false

def shopImported : Tables :=
  { shopTables with
    endpoints := Table.empty.insert ("shop".toList, "GET /list".toList)
      listEndpoint rfl }

theorem createBatch_shop :
    createBatch shopPlatform shopTables "e1".toList shopSpec []
      (fun _ => "p1".toList) = .ok shopImported := rfl

theorem get_ne_nil : "GET".toList ≠ [] := by decide

/-- A request for the list of the shop, with a query or without one. -/
def invokeList (queryText : Option Text) : InvokeRequest where
  method := "GET".toList
  callgentId := "shop".toList
  entryId := "c1".toList
  path := "list".toList
  queryText := queryText
  headers := []
  body := none
  method_ne_nil := get_ne_nil
  callgentId_slash := by decide
  entryId_slash := by decide
  path_question := by decide
  headers_lower := LowerKeys.nil

def listRequest : DirectRequest :=
  { invokeList none with
    method_space := by decide
    suffix_space := by decide }

def listPageRequest : DirectRequest :=
  { invokeList (some "page=2".toList) with
    method_space := by decide
    suffix_space := by decide }

theorem epName_listRequest : listRequest.epName = "GET /list".toList := by
  have hrow : (⟨1, ("shop".toList, "GET /list".toList), listEndpoint⟩ :
      EndpointRow) ∈ shopImported.endpoints.rows := List.mem_cons_self
  apply ((epName_iff createBatch_shop hrow List.not_mem_nil listRequest).mpr
    _).mpr
  · exact ⟨rfl, rfl⟩
  · constructor
    · exact fun _ => ⟨rfl, by decide⟩
    · exact fun _ => by decide

/-- The query stands in the name that is asked for. -/
theorem epName_listPageRequest :
    createBatch shopPlatform shopTables "e1".toList shopSpec []
        (fun _ => "p1".toList) = .ok shopImported ∧
      listPageRequest.Requests listEndpoint ∧
      listPageRequest.epName = "GET /list?page=2".toList ∧
      forall row, row ∈ shopImported.endpoints.rows ->
        listPageRequest.epName ≠ row.key.2 := by
  constructor
  · exact createBatch_shop
  · refine ⟨⟨rfl, rfl⟩, rfl, ?_⟩
    intro row hrow
    have heq := List.mem_singleton.mp hrow
    rw [heq]
    decide

end Config
end CallgentApi
