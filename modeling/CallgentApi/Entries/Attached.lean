import CallgentApi.Lib.Url
import CallgentApi.Entries.RestApi

/-!
# Where an attached secret arrives

A processor writes the secret of a realm into the request of the event, and the
adaptor sends that request.  A header arrives unless it is one of the two that
the adaptor leaves out, a cookie if its name can be carried, and a query
parameter is never sent.  A header `__proto__` is not written at all.
-/

namespace CallgentApi
namespace Entries

open Js Event Realms Invoke Effect Url

variable {sigma : Type}

/-! ## What is sent -/

/-- The value a header is sent with: the case of its name does not matter, and
of several entries the last one counts. -/
def headerSent (headers : List (Text × Value)) (name : Text) : Value :=
  headers.foldl (fun sent entry =>
    if toLowerCase entry.1 = toLowerCase name then entry.2 else sent) none

/-- The parameter is in the url, as it is encoded, or in the `params`. -/
def InQuery (url params : Value) (name : Text) (secret : Text) : Prop :=
  (exists text, url = some (.str text) ∧
      encodeURIComponent name ++ '=' :: encodeURIComponent secret ∈
        parameters (query text)) ∨
    params.bind (fun v => v.field name) = some (.str secret)

def clientCookies (req : Json) : List (Text × Text) :=
  match ((fieldOrEmpty req "headers".toList).field
      "cookie".toList).filter Json.truthy with
  | none => []
  | some old => cookies old.display

/-- The request carries the secret where the scheme wants it; a cookie stands
next to those of the client. -/
def Carries (scheme : RealmScheme) (secret : Text) (req : Json)
    (config : AxiosConfig) : Prop :=
  let name := interpolate scheme.name
  if scheme.in_ = some "cookie".toList then
    exists text, headerSent config.headers "cookie".toList = some (.str text) ∧
      (name, encodeURIComponent secret) ∈ cookies text ∧
      forall cookie, cookie ∈ clientCookies req -> cookie ∈ cookies text
  else if scheme.in_ = some "header".toList then
    headerSent config.headers name = some (.str secret)
  else InQuery config.url config.params name secret

/-! ## Entries of one name -/

section Entries

variable {entries : List (Text × Value)} {name key : Text} {value : Value}

def entriesOf (entries : List (Text × Value)) (name : Text) :
    List (Text × Value) :=
  entries.filter fun entry => decide (toLowerCase entry.1 = toLowerCase name)

theorem headerSent_entriesOf (entries : List (Text × Value)) (name : Text) :
    headerSent (entriesOf entries name) name = headerSent entries name := by
  unfold headerSent entriesOf
  rw [List.foldl_filter]
  congr
  funext sent entry
  by_cases h : toLowerCase entry.1 = toLowerCase name
  · simp [h]
  · simp [h]

theorem headerSent_append_cons {before after : List (Text × Value)}
    (hkey : toLowerCase key = toLowerCase name)
    (hafter : forall entry, entry ∈ after ->
      toLowerCase entry.1 ≠ toLowerCase name) :
    headerSent (before ++ (key, value) :: after) name = value := by
  have hnone : entriesOf after name = [] := by
    apply List.filter_eq_nil_iff.mpr
    intro entry hmem
    simpa using hafter entry hmem
  rw [← headerSent_entriesOf, entriesOf, List.filter_append,
    List.filter_cons_of_pos (by simpa using hkey)]
  change headerSent (entriesOf before name ++ (key, value) ::
    entriesOf after name) name = value
  rw [hnone]
  unfold headerSent
  rw [List.foldl_append, List.foldl_cons, List.foldl_nil, if_pos hkey]

theorem entriesOf_setEntry_of_ne (h : toLowerCase key ≠ toLowerCase name)
    (entries : List (Text × Value)) (value : Value) :
    entriesOf (setEntry entries key value) name = entriesOf entries name := by
  unfold entriesOf
  rcases setEntry_cases entries key value with
    ⟨before, old, after, rfl, _, hset⟩ | ⟨_, hset⟩
  · rw [hset]
    simp [List.filter_append, h]
  · rw [hset]
    simp [List.filter_append, h]

theorem headerSent_setEntry_of_ne (h : toLowerCase key ≠ toLowerCase name)
    (entries : List (Text × Value)) (value : Value) :
    headerSent (setEntry entries key value) name = headerSent entries name := by
  rw [← headerSent_entriesOf, entriesOf_setEntry_of_ne h, headerSent_entriesOf]

theorem entriesOf_setEntry (h : toLowerCase key = toLowerCase name)
    (entries : List (Text × Value)) (value : Value) :
    entriesOf (setEntry entries key value) name =
      setEntry (entriesOf entries name) key value := by
  unfold entriesOf
  induction entries with
  | nil => simp [setEntry, h]
  | cons entry rest ih =>
      rcases entry with ⟨k, old⟩
      by_cases hkey : k = key
      · rw [hkey]
        simp [setEntry, h]
      · by_cases hname : toLowerCase k = toLowerCase name
        · simp [setEntry, hkey, hname, ih]
        · simp [setEntry, hkey, hname, ih]

theorem headerSent_setEntry_congr {others : List (Text × Value)}
    (h : toLowerCase key = toLowerCase name)
    (hsame : entriesOf entries name = entriesOf others name) (value : Value) :
    headerSent (setEntry entries key value) name =
      headerSent (setEntry others key value) name := by
  rw [← headerSent_entriesOf, entriesOf_setEntry h, hsame,
    ← entriesOf_setEntry h, headerSent_entriesOf]

theorem setEntry_append_of_mem (h : key ∈ entries.map Prod.fst)
    (others : List (Text × Value)) (value : Value) :
    setEntry (entries ++ others) key value =
      setEntry entries key value ++ others := by
  induction entries with
  | nil => cases h
  | cons entry rest ih =>
      rcases entry with ⟨k, old⟩
      by_cases hkey : k = key
      · simp [setEntry, hkey]
      · have hrest : key ∈ rest.map Prod.fst := by
          rcases List.mem_cons.mp h with heq | hrest
          · exact absurd heq.symm hkey
          · exact hrest
        simp only [List.cons_append, setEntry, if_neg hkey, ih hrest]

theorem setEntry_append_of_not_mem (h : key ∉ entries.map Prod.fst)
    (others : List (Text × Value)) (value : Value) :
    setEntry (entries ++ others) key value =
      entries ++ setEntry others key value := by
  induction entries with
  | nil => rfl
  | cons entry rest ih =>
      rcases entry with ⟨k, old⟩
      rw [List.map_cons, List.mem_cons, not_or] at h
      simp only [List.cons_append, setEntry, if_neg (Ne.symm h.left),
        ih h.right]

end Entries

/-! ## Headers in lower case -/

/-- Names of headers as the server has read them: in lower case, each once. -/
structure LowerKeys (keys : List Text) : Prop where
  lower : forall key, key ∈ keys -> toLowerCase key = key
  nodup : keys.Nodup

theorem LowerKeys.nil : LowerKeys [] :=
  ⟨fun _ h => absurd h List.not_mem_nil, List.nodup_nil⟩

theorem LowerKeys.setEntry {v : Type} {entries : List (Text × v)}
    (h : LowerKeys (entries.map Prod.fst)) {key : Text}
    (hkey : toLowerCase key = key) (value : v) :
    LowerKeys ((setEntry entries key value).map Prod.fst) := by
  rw [keys_setEntry]
  split
  · exact h
  · rename_i hnot
    constructor
    · intro other hmem
      rcases List.mem_append.mp hmem with hold | hnew
      · exact h.lower other hold
      · rw [List.mem_singleton.mp hnew]
        exact hkey
    · apply List.Nodup.append h.nodup (List.nodup_singleton key)
      intro other hold hnew
      rw [List.mem_singleton.mp hnew] at hold
      exact hnot hold

theorem lowerKeys_addHeader {rawHeaders headers : List (Text × Json)}
    (h : LowerKeys (headers.map Prod.fst)) (key : Text) :
    LowerKeys ((addHeader rawHeaders headers key).map Prod.fst) := by
  unfold addHeader
  dsimp only
  split
  · exact h
  · split
    · exact h
    · unfold assignEntry
      split
      · exact h
      · exact h.setEntry (toLowerCase_toLowerCase key) _

theorem lowerKeys_filterHeaders (rawHeaders : List (Text × Json)) :
    LowerKeys ((filterHeaders rawHeaders).map Prod.fst) := by
  have hfold : forall (keys : List Text) (headers : List (Text × Json)),
      LowerKeys (headers.map Prod.fst) ->
        LowerKeys ((keys.foldl (addHeader rawHeaders) headers).map
          Prod.fst) := by
    intro keys
    induction keys with
    | nil => exact fun _ h => h
    | cons key rest ih => exact fun _ h => ih _ (lowerKeys_addHeader h key)
  exact hfold _ [] LowerKeys.nil

theorem lookup_protoName_filterHeaders (rawHeaders : List (Text × Json)) :
    (filterHeaders rawHeaders).lookup protoName = none := by
  have hfold : forall (keys : List Text) (headers : List (Text × Json)),
      headers.lookup protoName = none ->
        (keys.foldl (addHeader rawHeaders) headers).lookup protoName =
          none := by
    intro keys
    induction keys with
    | nil => exact fun _ h => h
    | cons key rest ih =>
        intro headers h
        apply ih
        unfold addHeader
        dsimp only
        split
        · exact h
        · split
          · exact h
          · exact lookup_protoName_assignEntry h _ _
  exact hfold _ [] rfl

section Sent

variable {entries : List (Text × Value)} {name key : Text} {value : Value}

theorem headerSent_setEntry (h : LowerKeys (entries.map Prod.fst))
    (name : Text) (value : Value) :
    headerSent (setEntry entries name value) name = value := by
  rcases setEntry_cases entries name value with
    ⟨before, old, after, rfl, _, hset⟩ | ⟨_, hset⟩
  · rw [hset]
    apply headerSent_append_cons rfl
    intro entry hmem hlower
    have hkeys : (before ++ (name, old) :: after).map Prod.fst =
        before.map Prod.fst ++ name :: after.map Prod.fst := by
      rw [List.map_append, List.map_cons]
    have hafter : entry.1 ∈ after.map Prod.fst := List.mem_map_of_mem hmem
    rw [hkeys] at h
    have hname := h.lower name
      (List.mem_append_right _ List.mem_cons_self)
    have hentry := h.lower entry.1
      (List.mem_append_right _ (List.mem_cons_of_mem _ hafter))
    rw [← hentry, hlower, hname] at hafter
    have hcons := (List.nodup_append.mp h.nodup).right.left
    exact (List.nodup_cons.mp hcons).left hafter
  · rw [hset]
    exact headerSent_append_cons rfl fun entry hmem =>
      absurd hmem List.not_mem_nil

theorem headerSent_left_out (h : LowerKeys (entries.map Prod.fst))
    (hname : toLowerCase name = key) (v : Json) :
    headerSent (setEntry (setEntry entries name (some v)) key none) name =
        some v <->
      name ≠ key ∧ key ∈ entries.map Prod.fst := by
  have hkey : toLowerCase key = toLowerCase name := by
    rw [← hname, toLowerCase_toLowerCase]
  by_cases heq : name = key
  · have hsame : toLowerCase name = name := hname.trans heq.symm
    have hsent := headerSent_setEntry (h.setEntry hsame (some v)) name none
    rw [← heq, hsent]
    constructor
    · intro hnone
      cases hnone
    · intro hne
      exact absurd rfl hne.left
  · have hnot : name ∉ entries.map Prod.fst := by
      intro hmem
      exact heq ((h.lower name hmem).symm.trans hname)
    have happend : setEntry entries name (some v) =
        entries ++ [(name, some v)] := by
      have hset := setEntry_append_of_not_mem hnot [] (some v)
      rw [List.append_nil] at hset
      exact hset
    rw [happend]
    by_cases hmem : key ∈ entries.map Prod.fst
    · rw [setEntry_append_of_mem hmem]
      refine iff_of_true ?_ ⟨heq, hmem⟩
      exact headerSent_append_cons rfl fun entry hmem =>
        absurd hmem List.not_mem_nil
    · rw [setEntry_append_of_not_mem hmem]
      refine iff_of_false ?_ fun hboth => hmem hboth.right
      have hset : setEntry [(name, some v)] key none =
          [(name, some v), (key, none)] := by
        simp [setEntry, heq]
      have hsent : headerSent (entries ++ [(name, some v)] ++ (key, none) :: [])
          name = none :=
        headerSent_append_cons hkey fun entry hmem =>
          absurd hmem List.not_mem_nil
      rw [List.append_assoc] at hsent
      rw [hset, show [(name, some v), (key, none)] =
        [(name, some v)] ++ [(key, none)] from rfl, hsent]
      intro hnone
      cases hnone

def leftOut : List Text :=
  ["host".toList, "content-length".toList]

/-- The name is not that of a header left out, or it is written in another
case than the client's. -/
def HeaderKept (keys : List Text) (name : Text) : Prop :=
  forall key, key ∈ leftOut -> toLowerCase name = key ->
    name ≠ key ∧ key ∈ keys

theorem header_sent_iff (h : LowerKeys (entries.map Prod.fst)) (name : Text)
    (v : Json) :
    headerSent (setEntry (setEntry (setEntry entries name (some v))
        "host".toList none) "content-length".toList none) name = some v <->
      HeaderKept (entries.map Prod.fst) name := by
  have hhost : toLowerCase "host".toList = "host".toList := by decide
  have hlength : toLowerCase "content-length".toList =
      "content-length".toList := by decide
  have hne : "content-length".toList ≠ "host".toList := by decide
  unfold HeaderKept leftOut
  simp only [List.mem_cons, List.not_mem_nil, or_false, forall_eq_or_imp,
    forall_eq]
  by_cases hnameHost : toLowerCase name = "host".toList
  · rw [headerSent_setEntry_of_ne (by rw [hlength, hnameHost]; exact hne),
      headerSent_left_out h hnameHost]
    constructor
    · intro hkept
      exact ⟨fun _ => hkept,
        fun hother => absurd (hother.symm.trans hnameHost) hne⟩
    · intro hkept
      exact hkept.left hnameHost
  · have hentries := entriesOf_setEntry_of_ne
      (fun heq => hnameHost (heq.symm.trans hhost))
      (setEntry entries name (some v)) none
    by_cases hnameLength : toLowerCase name = "content-length".toList
    · have hsame : toLowerCase "content-length".toList = toLowerCase name := by
        rw [hlength, hnameLength]
      rw [headerSent_setEntry_congr hsame hentries,
        headerSent_left_out h hnameLength]
      constructor
      · intro hkept
        exact ⟨fun hother => absurd hother hnameHost, fun _ => hkept⟩
      · intro hkept
        exact hkept.right hnameLength
    · rw [headerSent_setEntry_of_ne
          (fun heq => hnameLength (heq.symm.trans hlength)),
        headerSent_setEntry_of_ne (fun heq => hnameHost (heq.symm.trans hhost)),
        headerSent_setEntry h]
      refine iff_of_true rfl ⟨?_, ?_⟩
      · intro hother
        exact absurd hother hnameHost
      · intro hother
        exact absurd hother hnameLength

end Sent

/-! ## A preprocessed request -/

/-- A request as `req2Json` leaves it. -/
structure Preprocessed (req : Json) : Prop where
  isObject : exists fields, req = .obj fields
  headers : exists headers, fieldOrEmpty req "headers".toList = .obj headers ∧
    LowerKeys (headers.map Prod.fst) ∧ headers.lookup protoName = none

theorem preprocessed_req2Json {request req : Json} {method : Json}
    (hmethod : (request.field "method".toList).filter Json.truthy = some method)
    (h : req2Json request = .ok req) : Preprocessed req := by
  unfold req2Json at h
  rw [hmethod] at h
  dsimp only at h
  split at h
  · cases h
  · split at h
    · cases h
    · split at h
      · cases h
      · rename_i rawHeaders _
        rw [← Except.ok.inj h]
        exact ⟨⟨_, rfl⟩, filterHeaders rawHeaders, rfl,
          lowerKeys_filterHeaders rawHeaders,
          lookup_protoName_filterHeaders rawHeaders⟩
  · cases h

theorem spread_obj (headers : List (Text × Json)) :
    spread (some (.obj headers)) =
      headers.map fun entry => (entry.1, some entry.2) := rfl

theorem keys_spread (headers : List (Text × Json)) :
    (spread (some (.obj headers))).map Prod.fst = headers.map Prod.fst := by
  rw [spread_obj, List.map_map]
  rfl

theorem headerSent_of_lookup_eq_none {headers : List (Text × Json)}
    (h : LowerKeys (headers.map Prod.fst)) {name : Text}
    (hname : toLowerCase name = name) (hnone : headers.lookup name = none) :
    headerSent (spread (some (.obj headers))) name = none := by
  have hentries : entriesOf (spread (some (.obj headers))) name = [] := by
    rw [entriesOf, spread_obj, List.filter_eq_nil_iff]
    intro entry hmem
    rcases List.mem_map.mp hmem with ⟨header, hheader, rfl⟩
    have hne : name ≠ header.1 := by
      intro heq
      have hlookup := List.lookup_eq_none_iff.mp hnone header hheader
      rw [heq, bne_self_eq_false] at hlookup
      cases hlookup
    have hlower := h.lower header.1 (List.mem_map_of_mem hheader)
    rw [decide_eq_true_eq, hlower, hname]
    exact Ne.symm hne
  rw [← headerSent_entriesOf, hentries]
  rfl

theorem spread_setField (headers : List (Text × Json)) (name : Text)
    (v : Json) :
    spread (some (.obj (Json.setField headers name v))) =
      setEntry (spread (some (.obj headers))) name (some v) := by
  rw [Json.setField_eq_setEntry, spread_obj, spread_obj]
  induction headers with
  | nil => rfl
  | cons entry rest ih =>
      rcases entry with ⟨k, old⟩
      simp only [setEntry, List.map_cons]
      split
      · rfl
      · rw [List.map_cons, ih]

theorem headerSent_assigned (fields : List (Text × Json))
    {headers : List (Text × Json)}
    (h : LowerKeys (headers.map Prod.fst)) (name : Text) (v : Json)
    (sen : EntryDto) (item : Option RealmSecurityItem) :
    headerSent (axiosConfig (.obj (Json.setField fields "headers".toList
        (.obj (Json.setField headers name v)))) sen item).headers name =
          some v <->
      HeaderKept (headers.map Prod.fst) name := by
  have hheaders : (Json.obj (Json.setField fields "headers".toList
      (.obj (Json.setField headers name v)))).field "headers".toList =
        some (.obj (Json.setField headers name v)) :=
    Json.lookup_setField_self _ _ _
  have hlower : LowerKeys ((spread (some (.obj headers))).map Prod.fst) := by
    rw [keys_spread]
    exact h
  unfold axiosConfig
  dsimp only
  rw [hheaders, spread_setField, header_sent_iff hlower, keys_spread]

theorem headerSent_unassigned (fields : List (Text × Json))
    {headers : List (Text × Json)}
    (h : LowerKeys (headers.map Prod.fst))
    (hnone : headers.lookup protoName = none) (sen : EntryDto)
    (item : Option RealmSecurityItem) :
    headerSent (axiosConfig (.obj (Json.setField fields "headers".toList
      (.obj headers))) sen item).headers protoName = none := by
  have hheaders : (Json.obj (Json.setField fields "headers".toList
      (.obj headers))).field "headers".toList = some (.obj headers) :=
    Json.lookup_setField_self _ _ _
  unfold axiosConfig
  dsimp only
  rw [hheaders, headerSent_setEntry_of_ne (by decide),
    headerSent_setEntry_of_ne (by decide),
    headerSent_of_lookup_eq_none h (by decide) hnone]

/-! ## Each place -/

theorem semicolon_not_mem_encoded (s : Text) :
    ';' ∉ encodeURIComponent s := by
  intro hmem
  rcases mem_encodeURIComponent hmem with h | h
  · revert h
    decide
  · cases h

theorem cookies_withCookie (cookie : Option Json) (name value : Text) :
    cookies (withCookie cookie name value) =
      (match cookie.filter Json.truthy with
        | none => []
        | some old => cookies old.display) ++
        cookies (name ++ '=' :: encodeURIComponent value) := by
  unfold withCookie
  cases cookie.filter Json.truthy with
  | none => rfl
  | some old =>
      dsimp only
      rw [List.append_assoc, List.cons_append, cookies_append_cons]

def Arrives (scheme : RealmScheme) (secret : Text) (req : Json) : Prop :=
  let name := interpolate scheme.name
  if scheme.in_ = some "cookie".toList then CookieName name
  else if scheme.in_ = some "header".toList then
    name ≠ protoName ∧
      exists headers, fieldOrEmpty req "headers".toList = .obj headers ∧
        HeaderKept (headers.map Prod.fst) name
  else
    InQuery (req.field "url".toList) (req.field "params".toList) name secret

section Places

variable {scheme : RealmScheme} {secret : Text} {req req' : Json}

theorem carries_cookie_iff (h : Preprocessed req)
    (hin : scheme.in_ = some "cookie".toList)
    (hattach : attachTo req scheme secret = .ok req') (sen : EntryDto)
    (item : Option RealmSecurityItem) :
    Carries scheme secret req (axiosConfig req' sen item) <->
      CookieName (interpolate scheme.name) := by
  rcases h with ⟨⟨fields, rfl⟩, headers, hheaders, hlower, _⟩
  have hname : "headers".toList ≠ protoName ∧ "cookie".toList ≠ protoName := by
    decide
  unfold attachTo at hattach
  dsimp only at hattach
  rw [if_pos hin, assignIn_eq hname.left hheaders, hheaders,
    assignEntry_of_ne hname.right, ← Json.setField_eq_setEntry] at hattach
  have hkept : HeaderKept (headers.map Prod.fst) "cookie".toList := by
    have hnot : toLowerCase "cookie".toList ∉ leftOut := by decide
    intro key hkey hname
    rw [← hname] at hkey
    exact absurd hkey hnot
  unfold Carries clientCookies
  dsimp only
  rw [if_pos hin, ← Except.ok.inj hattach, hheaders,
    (headerSent_assigned fields hlower "cookie".toList _ sen item).mpr hkept]
  constructor
  · rintro ⟨text, htext, hmem, _⟩
    exact cookieName_of_mem hmem
  · intro hname
    refine ⟨_, rfl, ?_, ?_⟩
    · rw [cookies_withCookie, cookies_of_cookieName hname
        (semicolon_not_mem_encoded secret)]
      exact List.mem_append_right _ List.mem_cons_self
    · intro cookie hcookie
      rw [cookies_withCookie]
      exact List.mem_append_left _ hcookie

theorem carries_header_iff (h : Preprocessed req)
    (hin : scheme.in_ = some "header".toList)
    (hattach : attachTo req scheme secret = .ok req') (sen : EntryDto)
    (item : Option RealmSecurityItem) :
    Carries scheme secret req (axiosConfig req' sen item) <->
      interpolate scheme.name ≠ protoName ∧
        exists headers, fieldOrEmpty req "headers".toList = .obj headers ∧
          HeaderKept (headers.map Prod.fst) (interpolate scheme.name) := by
  have hcookie : scheme.in_ ≠ some "cookie".toList := by
    rw [hin]
    decide
  rcases h with ⟨⟨fields, rfl⟩, headers, hheaders, hlower, hnone⟩
  have hname : "headers".toList ≠ protoName := by decide
  unfold attachTo at hattach
  dsimp only at hattach
  rw [if_neg hcookie, if_pos hin, assignIn_eq hname hheaders] at hattach
  unfold Carries
  dsimp only
  rw [if_neg hcookie, if_pos hin, ← Except.ok.inj hattach]
  by_cases hproto : interpolate scheme.name = protoName
  · rw [hproto, assignEntry_protoName hnone,
      headerSent_unassigned fields hlower hnone]
    exact iff_of_false nofun fun h => h.left rfl
  rw [and_iff_right hproto, assignEntry_of_ne hproto,
    ← Json.setField_eq_setEntry, headerSent_assigned fields hlower]
  constructor
  · intro hkept
    exact ⟨headers, hheaders, hkept⟩
  · rintro ⟨headers', hheaders', hkept⟩
    rw [hheaders] at hheaders'
    rw [Json.obj.inj hheaders']
    exact hkept

theorem carries_query_iff (h : Preprocessed req)
    (hin : scheme.in_ = some "query".toList)
    (hattach : attachTo req scheme secret = .ok req') (sen : EntryDto)
    (item : Option RealmSecurityItem) :
    Carries scheme secret req (axiosConfig req' sen item) <->
      InQuery (req.field "url".toList) (req.field "params".toList)
        (interpolate scheme.name) secret := by
  have hcookie : scheme.in_ ≠ some "cookie".toList := by
    rw [hin]
    decide
  have hheader : scheme.in_ ≠ some "header".toList := by
    rw [hin]
    decide
  rcases h with ⟨⟨fields, rfl⟩, _⟩
  unfold attachTo assignIn at hattach
  dsimp only at hattach
  rw [if_neg hcookie, if_neg hheader, if_pos hin] at hattach
  split at hattach
  · cases hattach
  · rename_i assigned _
    rw [← Except.ok.inj hattach]
    have hurl : "url".toList ≠ "query".toList := by decide
    have hparams : "params".toList ≠ "query".toList := by decide
    unfold Carries axiosConfig Json.field
    dsimp only
    rw [if_neg hcookie, if_neg hheader, lookup_assignEntry_of_ne hurl,
      lookup_assignEntry_of_ne hparams]

theorem carries_iff_arrives (h : Preprocessed req)
    (hin : scheme.in_ = some "cookie".toList ∨
      scheme.in_ = some "header".toList ∨ scheme.in_ = some "query".toList)
    (hattach : attachTo req scheme secret = .ok req') (sen : EntryDto)
    (item : Option RealmSecurityItem) :
    Carries scheme secret req (axiosConfig req' sen item) <->
      Arrives scheme secret req := by
  unfold Arrives
  dsimp only
  by_cases hcookie : scheme.in_ = some "cookie".toList
  · rw [if_pos hcookie]
    exact carries_cookie_iff h hcookie hattach sen item
  · rw [if_neg hcookie]
    by_cases hheader : scheme.in_ = some "header".toList
    · rw [if_pos hheader]
      exact carries_header_iff h hheader hattach sen item
    · rw [if_neg hheader]
      have hquery := (hin.resolve_left hcookie).resolve_left hheader
      exact carries_query_iff h hquery hattach sen item

end Places

/-- An attached secret is part of the request that is sent exactly if it
arrives there. -/
theorem attached_arrives_iff {s s' : CallState sigma} {token : Text}
    {realm : CallgentRealm} (h : Preprocessed s.event.context.req)
    (hin : realm.scheme.in_ = some "cookie".toList ∨
      realm.scheme.in_ = some "header".toList ∨
      realm.scheme.in_ = some "query".toList)
    (hattach : (attachToken token realm : Action sigma Verdict).exec s =
      (.ok (some true), s')) (sen : EntryDto) :
    exists config, requestConfig (some sen) s'.event = .ok config ∧
      (Carries realm.scheme realm.secret s.event.context.req config <->
        Arrives realm.scheme realm.secret s.event.context.req) := by
  unfold attachToken at hattach
  rw [exec_bind_of_ok (exec_getEvent s)] at hattach
  cases hreq : attachTo s.event.context.req realm.scheme realm.secret with
  | error e =>
      rw [hreq] at hattach
      cases hattach
  | ok req =>
      rw [hreq] at hattach
      have hs : s'.event.context.req = req := by
        cases hattach
        rfl
      refine ⟨axiosConfig req sen s'.event.context.securityItem, ?_,
        carries_iff_arrives h hin hreq sen _⟩
      unfold requestConfig
      rw [hs]
      rcases h.isObject with ⟨fields, hfields⟩
      rw [hfields] at hreq
      rcases isObject_attachTo hreq with ⟨fields', rfl⟩
      rfl

/-! ## A key for the pets -/

def petScheme (in_ : String) : RealmScheme where
  perUser := none
  validationUrl := none
  name := some "x-key".toList
  in_ := some in_.toList

def petRealm (in_ : String) : CallgentRealm where
  pk := 1
  callgentId := "pets".toList
  authType := "apiKey".toList
  enabled := true
  scheme := petScheme in_
  secret := "open".toList

/-- What has become of `GET /api/rest/invoke/pets/e1/list`. -/
def petReq : Json :=
  .obj [("url".toList, .str "/list".toList), ("method".toList, .str "GET".toList),
    ("headers".toList, .obj [("host".toList, .str "localhost".toList)]),
    ("params".toList, .obj [])]

def petState : CallState Unit :=
  ⟨.clientRequest "e1".toList "cen1".toList restAPIKey petReq "t".toList [] []
      none ⟨"pets".toList, "pets".toList, none, none, none⟩ none,
    ⟨none, ()⟩, []⟩

def petServer : EntryDto where
  id := "sen1".toList
  host := "http://pets".toList
  securities := []

def petAttached (in_ : String) : CallState Unit :=
  ((attachToken [] (petRealm in_) : Action Unit Verdict).exec petState).2

theorem preprocessed_petReq : Preprocessed petReq := by
  refine ⟨⟨_, rfl⟩, _, rfl, ⟨?_, List.nodup_singleton _⟩, rfl⟩
  intro key hkey
  rw [List.mem_singleton.mp hkey]
  decide

theorem header_arrives :
    exists config,
      requestConfig (some petServer) (petAttached "header").event =
        .ok config ∧
      Carries (petScheme "header") "open".toList petReq config := by
  have hattach : (attachToken [] (petRealm "header") :
      Action Unit Verdict).exec petState =
        (.ok (some true), petAttached "header") := rfl
  rcases attached_arrives_iff preprocessed_petReq (Or.inr (Or.inl rfl))
    hattach petServer with ⟨config, hconfig, hiff⟩
  refine ⟨config, hconfig, hiff.mpr ?_⟩
  refine ⟨by decide, _, rfl, ?_⟩
  intro key hkey hname
  rw [← hname] at hkey
  exact absurd hkey (by decide)

/-- The key of a query is written where nothing reads it. -/
theorem query_lost :
    ((attachToken [] (petRealm "query") : Action Unit Verdict).exec
        petState).1 = .ok (some true) ∧
      exists config,
        requestConfig (some petServer) (petAttached "query").event =
          .ok config ∧
        ¬ Carries (petScheme "query") "open".toList petReq config := by
  refine ⟨rfl, _, rfl, ?_⟩
  rintro (⟨text, htext, hmem⟩ | hparams)
  · cases htext
    revert hmem
    decide
  · cases hparams

end Entries
end CallgentApi
