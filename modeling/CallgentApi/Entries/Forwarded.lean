import CallgentApi.Entries.Attached

/-!
# What is forwarded of a direct request

A request to `rest/invoke/{callgentId}/{entryId}/{path}?{query}` is cut down to
its path and query, its parsed query, its method, its headers and its body, and
is sent to the entry of the service in this form.
-/

namespace CallgentApi
namespace Entries

open Js Event Realms Invoke Effect Url

variable {sigma : Type}

/-! ## A request to `rest/invoke` -/

def apiPrefix : Text := "/api".toList

/-- A request as the server has read it: header names in lower case, each
once, and its parts where the url has them. -/
structure InvokeRequest where
  method : Text
  callgentId : Text
  entryId : Text
  path : Text
  /-- What follows the `?`, if there is one. -/
  queryText : Option Text
  headers : List (Text × Json)
  body : Value
  method_ne_nil : method ≠ []
  callgentId_slash : '/' ∉ callgentId
  entryId_slash : '/' ∉ entryId
  path_question : '?' ∉ path
  headers_lower : LowerKeys (headers.map Prod.fst)

namespace InvokeRequest

/-- The path and the query behind the callgent and the entry. -/
def suffix (r : InvokeRequest) : Text :=
  '/' :: r.path ++ (r.queryText.map fun text => '?' :: text).getD []

def url (r : InvokeRequest) : Text :=
  (apiPrefix ++ invokePath) ++ (r.callgentId ++ '/' :: (r.entryId ++ r.suffix))

/-- The query, which is empty without a `?`. -/
def query (r : InvokeRequest) : Text :=
  r.queryText.getD []

/-- The raw request, with the query as the server parses it. -/
def toJson (parse : Text -> Json) (r : InvokeRequest) : Json :=
  .obj ([("method".toList, .str r.method), ("url".toList, .str r.url),
      ("headers".toList, .obj r.headers),
      ("query".toList, parse r.query)] ++ optional "body".toList r.body)

theorem urlSuffix_url (r : InvokeRequest) : urlSuffix r.url = r.suffix := by
  have hfirst : indexOfText r.url invokePath 0 = 4 := rfl
  have hstart : (4 : Int) + 13 =
      Int.ofNat (apiPrefix ++ invokePath).length := rfl
  have hcallgent : indexOfText r.url ['/']
      (Int.ofNat (apiPrefix ++ invokePath).length) =
        Int.ofNat ((apiPrefix ++ invokePath).length + r.callgentId.length) :=
    indexOfText_append_cons r.callgentId_slash _ _
  have hnext : Int.ofNat ((apiPrefix ++ invokePath).length +
      r.callgentId.length) + 1 =
        Int.ofNat (apiPrefix ++ invokePath ++ (r.callgentId ++ ['/'])).length := by
    simp
    omega
  have hurl : r.url = (apiPrefix ++ invokePath ++ (r.callgentId ++ ['/'])) ++
      (r.entryId ++ r.suffix) := by
    simp [url]
  have hentry : indexOfText r.url ['/']
      (Int.ofNat (apiPrefix ++ invokePath ++ (r.callgentId ++ ['/'])).length) =
        Int.ofNat (apiPrefix ++ invokePath ++ (r.callgentId ++ ['/']) ++
          r.entryId).length := by
    have hlength : forall front back : Text,
        (front ++ back).length = front.length + back.length :=
      fun _ _ => List.length_append
    rw [hurl, hlength _ r.entryId]
    exact indexOfText_append_cons r.entryId_slash _ _
  unfold urlSuffix
  dsimp only
  rw [hfirst, hstart, hcallgent, hnext, hentry, hurl, ← List.append_assoc]
  exact substr_append _ _

theorem req2Json_toJson (parse : Text -> Json) (r : InvokeRequest) :
    req2Json (r.toJson parse) =
      .ok (.obj ([("url".toList, .str r.suffix),
          ("method".toList, .str r.method),
          ("headers".toList, .obj (filterHeaders r.headers)),
          ("params".toList, parse r.query)] ++
        optional "data".toList r.body)) := by
  have hmethod : ((r.toJson parse).field "method".toList).filter
      Json.truthy = some (.str r.method) := by
    have htruthy : (Json.str r.method).truthy = true := by
      cases hm : r.method with
      | nil => exact absurd hm r.method_ne_nil
      | cons c rest => rfl
    exact Option.filter_some_pos htruthy
  have hbody : (r.toJson parse).field "body".toList = r.body := by
    cases hb : r.body with
    | none =>
        unfold toJson
        rw [hb]
        rfl
    | some body =>
        unfold toJson
        rw [hb]
        rfl
  have hvalid : ¬ indexOfText r.url invokePath 0 < 0 := by
    intro h
    cases h
  unfold req2Json
  rw [hmethod, hbody]
  change (if indexOfText r.url invokePath 0 < 0 then _ else _) = _
  rw [if_neg hvalid]
  change Except.ok (Json.obj ([("url".toList, .str (urlSuffix r.url)), _, _] ++
    _ ++ _)) = _
  rw [urlSuffix_url]
  rfl

end InvokeRequest

/-! ## What is sent for a request -/

/-- The event with another request in its context. -/
def withReq (event : EventObject) (req : Json) : EventObject :=
  { event with context := { event.context with req := req } }

/-- The request of an event is preprocessed, secrets are attached to it, and it
is sent to the entry. -/
def outbound (event : EventObject) (attached : List (RealmScheme × Text))
    (sen : EntryDto) : Except Thrown AxiosConfig := do
  let req ← preprocessed event
  let req ← attachEach req attached
  requestConfig (some sen) (withReq event req)

def forwardedFields (parse : Text -> Json) (r : InvokeRequest) :
    List (Text × Json) :=
  [("url".toList, .str r.suffix), ("method".toList, .str r.method),
    ("headers".toList, .obj (filterHeaders r.headers)),
    ("params".toList, parse r.query)] ++ optional "data".toList r.body

theorem attachable_forwarded (parse : Text -> Json) (r : InvokeRequest) :
    Attachable (.obj (forwardedFields parse r)) := by
  refine ⟨⟨_, rfl⟩, ⟨_, rfl⟩, ?_⟩
  cases hb : r.body with
  | none =>
      unfold forwardedFields
      rw [hb]
      exact ⟨[], rfl⟩
  | some body =>
      unfold forwardedFields
      rw [hb]
      exact ⟨[], rfl⟩

theorem attachable_attachEach {req : Json} (h : Attachable req)
    (attached : List (RealmScheme × Text)) :
    exists req', attachEach req attached = .ok req' := by
  induction attached generalizing req with
  | nil => exact ⟨req, rfl⟩
  | cons attachment rest ih =>
      rcases attachment with ⟨scheme, secret⟩
      rcases attachable_attachTo h scheme secret with ⟨next, hnext, hattachable⟩
      unfold attachEach
      rw [hnext]
      exact ih hattachable

section Outbound

variable {parse : Text -> Json} {r : InvokeRequest} {event : EventObject}

theorem exists_outbound (h : event.context.req = r.toJson parse)
    (attached : List (RealmScheme × Text)) (sen : EntryDto) :
    exists req,
      attachEach (.obj (forwardedFields parse r)) attached = .ok req ∧
      outbound event attached sen =
        .ok (axiosConfig req sen event.context.securityItem) ∧
      forall key, key ≠ "headers".toList -> key ≠ "query".toList ->
        req.field key = (Json.obj (forwardedFields parse r)).field key := by
  rcases attachable_attachEach (attachable_forwarded parse r) attached with
    ⟨req, hreq⟩
  rcases isObject_attachEach hreq with ⟨fields, rfl⟩
  have hpreprocessed : preprocessed event =
      .ok (.obj (forwardedFields parse r)) := by
    unfold preprocessed
    rw [h]
    exact InvokeRequest.req2Json_toJson parse r
  refine ⟨_, hreq, ?_, fun key => field_attachEach hreq⟩
  unfold outbound
  rw [hpreprocessed]
  change (attachEach (.obj (forwardedFields parse r)) attached >>= fun req =>
    requestConfig (some sen) (withReq event req)) = _
  rw [hreq]
  rfl

end Outbound

/-! ## The url that is sent -/

/-- How the client that sends requests reads a url and writes `params`. -/
structure UrlRules where
  isAbsolute : Text -> Bool
  serialize : Value -> Text

/-- A url that begins with two slashes has a host of its own.  Parameters that
are parsed and written again are parameters, and none are added. -/
structure UrlRules.Documented (rules : UrlRules) (parse : Text -> Json) :
    Prop where
  absolute : forall rest,
    rules.isAbsolute ('/' :: rest) = true <-> rest.head? = some '/'
  serialize : forall text,
    parameters (rules.serialize (some (parse text))) = [] <->
      parameters text = []

def pathSent (rules : UrlRules) (config : AxiosConfig) : Option Text :=
  match config.url with
  | some (.str url) => if rules.isAbsolute url then none else some (path url)
  | _ => none

def parametersSent (rules : UrlRules) (config : AxiosConfig) : List Text :=
  (match config.url with
    | some (.str url) => parameters (query url)
    | _ => []) ++
  parameters (rules.serialize config.params)

structure SentAsIs (rules : UrlRules) (sen : EntryDto) (r : InvokeRequest)
    (config : AxiosConfig) : Prop where
  method : config.method = some (.str r.method)
  baseURL : config.baseURL = sen.host
  path : pathSent rules config = some ('/' :: r.path)
  parameters : (parametersSent rules config).Perm (parameters r.query)
  data : config.data = r.body

theorem path_suffix (r : InvokeRequest) : path r.suffix = '/' :: r.path := by
  have hnot : '?' ∉ '/' :: r.path := by
    rw [List.mem_cons, not_or]
    exact ⟨by decide, r.path_question⟩
  unfold InvokeRequest.suffix
  cases r.queryText with
  | none =>
      rw [Option.map_none, Option.getD_none, List.append_nil]
      exact path_of_not_mem hnot
  | some text => exact path_append_cons hnot text

theorem query_suffix (r : InvokeRequest) : query r.suffix = r.query := by
  have hnot : '?' ∉ '/' :: r.path := by
    rw [List.mem_cons, not_or]
    exact ⟨by decide, r.path_question⟩
  unfold InvokeRequest.suffix InvokeRequest.query
  cases r.queryText with
  | none =>
      rw [Option.map_none, Option.getD_none, List.append_nil]
      exact query_of_not_mem hnot
  | some text => exact query_append_cons hnot text

theorem head?_suffix (r : InvokeRequest) :
    (r.path ++ (r.queryText.map fun text => '?' :: text).getD []).head? =
        some '/' <->
      r.path.head? = some '/' := by
  cases hpath : r.path with
  | cons c rest => exact Iff.rfl
  | nil =>
      refine iff_of_false ?_ (by simp)
      cases r.queryText with
      | none => simp
      | some text => simp

section Sent

variable {rules : UrlRules} {parse : Text -> Json} {r : InvokeRequest}
  {config : AxiosConfig}

theorem pathSent_iff (hrules : rules.Documented parse)
    (hurl : config.url = some (.str r.suffix)) :
    pathSent rules config = some ('/' :: r.path) <->
      r.path.head? ≠ some '/' := by
  have habsolute : rules.isAbsolute r.suffix = true <->
      r.path.head? = some '/' := by
    rw [← head?_suffix]
    exact hrules.absolute _
  unfold pathSent
  rw [hurl]
  dsimp only
  by_cases h : rules.isAbsolute r.suffix = true
  · rw [if_pos h]
    refine iff_of_false ?_ fun hne => hne (habsolute.mp h)
    intro hnone
    cases hnone
  · rw [if_neg h, path_suffix]
    exact iff_of_true rfl fun heq => h (habsolute.mpr heq)

theorem parametersSent_perm_iff (hrules : rules.Documented parse)
    (hurl : config.url = some (.str r.suffix))
    (hparams : config.params = some (parse r.query)) :
    (parametersSent rules config).Perm (parameters r.query) <->
      parameters r.query = [] := by
  have hsent : parametersSent rules config =
      parameters r.query ++ parameters (rules.serialize
        (some (parse r.query))) := by
    unfold parametersSent
    rw [hurl, hparams]
    dsimp only
    rw [query_suffix]
  rw [hsent]
  constructor
  · intro hperm
    have hlength := hperm.length_eq
    rw [List.length_append] at hlength
    apply (hrules.serialize r.query).mp
    apply List.eq_nil_of_length_eq_zero
    omega
  · intro hnil
    rw [(hrules.serialize r.query).mpr hnil, List.append_nil]

/-- Whatever secrets are attached to it, a direct request reaches the entry as
it is exactly if it has no query parameters and its path does not begin with a
slash. -/
theorem sentAsIs_iff (hrules : rules.Documented parse) {event : EventObject}
    (h : event.context.req = r.toJson parse)
    (attached : List (RealmScheme × Text)) (sen : EntryDto) :
    exists config, outbound event attached sen = .ok config ∧
      (SentAsIs rules sen r config <->
        parameters r.query = [] ∧ r.path.head? ≠ some '/') := by
  rcases exists_outbound h attached sen with ⟨req, _, houtbound, hfields⟩
  have hurl : req.field "url".toList = some (.str r.suffix) :=
    hfields "url".toList (by decide) (by decide)
  have hmethod : req.field "method".toList = some (.str r.method) :=
    hfields "method".toList (by decide) (by decide)
  have hparams : req.field "params".toList = some (parse r.query) :=
    hfields "params".toList (by decide) (by decide)
  have hdata : req.field "data".toList = r.body := by
    rw [hfields "data".toList (by decide) (by decide)]
    unfold forwardedFields
    cases r.body with
    | none => rfl
    | some body => rfl
  refine ⟨_, houtbound, ?_⟩
  constructor
  · intro hsent
    exact ⟨(parametersSent_perm_iff hrules hurl hparams).mp hsent.parameters,
      (pathSent_iff hrules hurl).mp hsent.path⟩
  · rintro ⟨hquery, hpath⟩
    exact
      { method := hmethod
        baseURL := rfl
        path := (pathSent_iff hrules hurl).mpr hpath
        parameters :=
          (parametersSent_perm_iff hrules hurl hparams).mpr hquery
        data := hdata }

end Sent

/-! ## A page of the pets -/

/-- A parameter of a query with its name and value, as they are written. -/
def parameterOf (piece : Text) : Text × Json :=
  (piece.takeWhile fun c => c != '=',
    .str ((piece.dropWhile fun c => c != '=').drop 1))

def plainQuery (text : Text) : Json :=
  .obj ((parameters text).map parameterOf)

def writeParameter (entry : Text × Json) : Text :=
  entry.1 ++ '=' :: entry.2.display

def writeParameters (params : Value) : Text :=
  match params with
  | some (.obj fields) => ['&'].intercalate (fields.map writeParameter)
  | _ => []

/-- An absolute url has two slashes, maybe behind a scheme and a colon. -/
def hasOwnHost (url : Text) : Bool :=
  match url with
  | [] => false
  | c :: rest =>
      if c = '/' then rest.head? == some '/'
      else
        c.isAlpha && startsWith
          (rest.dropWhile fun c => c.isAlphanum || "+-.".toList.contains c)
          "://".toList

def plainRules : UrlRules where
  isAbsolute := hasOwnHost
  serialize := writeParameters

theorem writeParameters_ne_nil (entry : Text × Json)
    (rest : List (Text × Json)) :
    parameters (writeParameters (some (.obj (entry :: rest)))) ≠ [] := by
  have hequals : '=' ∈ writeParameter entry :=
    List.mem_append_right _ List.mem_cons_self
  have hwritten :
      '=' ∈ writeParameters (some (.obj (entry :: rest))) := by
    change '=' ∈ ['&'].intercalate ((entry :: rest).map writeParameter)
    cases rest with
    | nil => simpa using hequals
    | cons next rest =>
        rw [List.map_cons, List.map_cons, List.intercalate_cons_cons]
        exact List.mem_append_left _ (List.mem_append_left _ hequals)
  exact parameters_ne_nil hwritten (by decide)

theorem documented_plainRules : plainRules.Documented plainQuery where
  absolute := by
    intro rest
    change (rest.head? == some '/') = true <-> _
    rw [beq_iff_eq]
  serialize := by
    intro text
    change parameters (writeParameters (some (plainQuery text))) = [] <-> _
    unfold plainQuery
    cases parameters text with
    | nil => exact iff_of_true rfl rfl
    | cons piece rest =>
        rw [List.map_cons]
        apply iff_of_false
        · exact writeParameters_ne_nil _ _
        · intro hcons
          cases hcons

/-- A request for the pets, at the path and with the query that are given. -/
def petPage (page : String) (queryText : Option Text)
    (h : '?' ∉ page.toList) : InvokeRequest where
  method := "GET".toList
  callgentId := "pets".toList
  entryId := "e1".toList
  path := page.toList
  queryText := queryText
  headers := []
  body := none
  method_ne_nil := by decide
  callgentId_slash := by decide
  entryId_slash := by decide
  path_question := h
  headers_lower := ⟨by decide, by decide⟩

theorem sentAsIs_petPage :
    exists config,
      outbound (withReq petState.event
        ((petPage "list" none (by decide)).toJson plainQuery)) []
          petServer = .ok config ∧
      SentAsIs plainRules petServer (petPage "list" none (by decide))
        config := by
  let r := petPage "list" none (by decide)
  have hreq : (withReq petState.event (r.toJson plainQuery)).context.req =
      r.toJson plainQuery := rfl
  rcases sentAsIs_iff documented_plainRules hreq [] petServer with
    ⟨config, hconfig, hiff⟩
  exact ⟨config, hconfig, hiff.mpr ⟨rfl, by decide⟩⟩

/-- The parameter `a` is sent twice. -/
theorem sent_twice :
    exists config,
      outbound (withReq petState.event
        ((petPage "list" (some "a=1".toList) (by decide)).toJson plainQuery))
          [] petServer = .ok config ∧
      parametersSent plainRules config = ["a=1".toList, "a=1".toList] ∧
      ¬ SentAsIs plainRules petServer
        (petPage "list" (some "a=1".toList) (by decide)) config := by
  refine ⟨_, rfl, rfl, ?_⟩
  intro hsent
  have hlength := hsent.parameters.length_eq
  cases hlength

end Entries
end CallgentApi
