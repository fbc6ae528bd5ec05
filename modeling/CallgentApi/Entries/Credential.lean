import CallgentApi.Entries.Forwarded

/-!
# The credential of the caller

The platform accepts a token in a header of its own or in a cookie.  The header
is not forwarded; the cookie stands in the header `cookie`, which is.
-/

namespace CallgentApi
namespace Entries

open Js Event Realms Invoke Effect Url

/-! ## Headers by their names -/

def nameLe (a b : Text) : Bool :=
  decide (a ≤ b)

theorem pairwise_names (keys : List Text) :
    (keys.mergeSort nameLe).Pairwise fun a b => nameLe a b = true := by
  apply List.pairwise_mergeSort
  · intro a b c hab hbc
    unfold nameLe at hab hbc ⊢
    rw [decide_eq_true_eq] at hab hbc ⊢
    exact le_trans hab hbc
  · intro a b
    unfold nameLe
    rw [Bool.or_eq_true, decide_eq_true_eq, decide_eq_true_eq]
    exact le_total a b

def isForwarded (key : Text) : Bool :=
  !startsWith key callgentPrefix

theorem forwardedNames_congr {keys others : List Text} (hkeys : keys.Nodup)
    (hothers : others.Nodup)
    (hsame : forall key, isForwarded key = true ->
      (key ∈ keys <-> key ∈ others)) :
    (keys.mergeSort nameLe).filter isForwarded =
      (others.mergeSort nameLe).filter isForwarded := by
  have hperm : (keys.filter isForwarded).Perm (others.filter isForwarded) := by
    rw [List.perm_ext_iff_of_nodup (hkeys.filter _) (hothers.filter _)]
    intro key
    rw [List.mem_filter, List.mem_filter]
    constructor
    · rintro ⟨hmem, hforwarded⟩
      exact ⟨(hsame key hforwarded).mp hmem, hforwarded⟩
    · rintro ⟨hmem, hforwarded⟩
      exact ⟨(hsame key hforwarded).mpr hmem, hforwarded⟩
  have hleft := (List.mergeSort_perm keys nameLe).filter isForwarded
  have hright := (List.mergeSort_perm others nameLe).filter isForwarded
  refine List.Perm.eq_of_pairwise ?_
    ((pairwise_names keys).filter isForwarded)
    ((pairwise_names others).filter isForwarded)
    ((hleft.trans hperm).trans hright.symm)
  intro a b _ _ hab hba
  unfold nameLe at hab hba
  rw [decide_eq_true_eq] at hab hba
  exact le_antisymm hab hba

theorem foldl_addHeader_filter (rawHeaders : List (Text × Json))
    {keys : List Text} (h : forall key, key ∈ keys -> toLowerCase key = key)
    (headers : List (Text × Json)) :
    keys.foldl (addHeader rawHeaders) headers =
      (keys.filter isForwarded).foldl (addHeader rawHeaders) headers := by
  rw [List.foldl_filter]
  apply List.foldl_ext
  intro headers key hmem
  unfold isForwarded addHeader
  dsimp only
  rw [h key hmem]
  cases startsWith key callgentPrefix with
  | true => rfl
  | false => rfl

theorem mem_keys_iff_lookup (headers : List (Text × Json)) (key : Text) :
    key ∈ headers.map Prod.fst <-> (headers.lookup key).isSome = true := by
  rw [← Option.ne_none_iff_isSome, ne_eq, List.lookup_eq_none_iff]
  constructor
  · intro hmem hnone
    rcases List.mem_map.mp hmem with ⟨entry, hentry, rfl⟩
    have hne := hnone entry hentry
    simp at hne
  · intro hsome
    by_contra hnot
    apply hsome
    intro entry hentry
    rw [bne_iff_ne]
    rintro rfl
    exact hnot (List.mem_map_of_mem hentry)

theorem filterHeaders_congr {raw others : List (Text × Json)}
    (hraw : LowerKeys (raw.map Prod.fst))
    (hothers : LowerKeys (others.map Prod.fst))
    (hsame : forall key, isForwarded key = true ->
      raw.lookup key = others.lookup key) :
    filterHeaders raw = filterHeaders others := by
  have hlower : forall {keys : List Text}, LowerKeys keys ->
      forall key, key ∈ keys.mergeSort nameLe -> toLowerCase key = key :=
    fun hkeys key hmem =>
      hkeys.lower key ((List.mergeSort_perm _ nameLe).mem_iff.mp hmem)
  have hnames := forwardedNames_congr hraw.nodup hothers.nodup
    fun key hforwarded => by
      rw [mem_keys_iff_lookup, mem_keys_iff_lookup, hsame key hforwarded]
  have hleft := foldl_addHeader_filter raw (hlower hraw) []
  have hright := foldl_addHeader_filter others (hlower hothers) []
  change ((raw.map Prod.fst).mergeSort nameLe).foldl (addHeader raw) [] =
    ((others.map Prod.fst).mergeSort nameLe).foldl (addHeader others) []
  rw [hleft, hright, ← hnames]
  apply List.foldl_ext
  intro headers key hmem
  rcases List.mem_filter.mp hmem with ⟨hsorted, hforwarded⟩
  unfold addHeader
  dsimp only
  rw [hlower hraw key hsorted, hsame key hforwarded]

theorem lookup_addHeader {raw headers : List (Text × Json)} {key name : Text}
    (hkey : toLowerCase key = key) (hname : isForwarded name = true)
    (hproto : name ≠ protoName) :
    (addHeader raw headers key).lookup name =
      if key = name then (raw.lookup name).or (headers.lookup name)
      else headers.lookup name := by
  unfold addHeader
  dsimp only
  rw [hkey]
  by_cases heq : key = name
  · have hforwarded : ¬ startsWith name callgentPrefix = true := by
      unfold isForwarded at hname
      simpa using hname
    rw [heq, if_pos rfl, if_neg hforwarded]
    cases raw.lookup name with
    | none => rfl
    | some value =>
        dsimp only
        rw [assignEntry_of_ne hproto]
        exact lookup_setEntry_self _ _ _
  · rw [if_neg heq]
    split
    · rfl
    · split
      · rfl
      · exact lookup_assignEntry_of_ne (Ne.symm heq) _ _

theorem lookup_foldl_addHeader {raw : List (Text × Json)} {name : Text}
    {keys : List Text} (hkeys : forall key, key ∈ keys -> toLowerCase key = key)
    (headers : List (Text × Json)) (hname : isForwarded name = true)
    (hproto : name ≠ protoName) :
    (keys.foldl (addHeader raw) headers).lookup name =
      if name ∈ keys then (raw.lookup name).or (headers.lookup name)
      else headers.lookup name := by
  induction keys generalizing headers with
  | nil => rfl
  | cons key rest ih =>
      have hrest : forall key, key ∈ rest -> toLowerCase key = key :=
        fun key hmem => hkeys key (List.mem_cons_of_mem _ hmem)
      rw [List.foldl_cons, ih hrest,
        lookup_addHeader (hkeys key List.mem_cons_self) hname hproto]
      by_cases heq : key = name
      · rw [if_pos heq, if_pos (List.mem_cons.mpr (Or.inl heq.symm))]
        cases raw.lookup name with
        | none => split <;> rfl
        | some value => split <;> rfl
      · have hiff : name ∈ key :: rest <-> name ∈ rest := by
          rw [List.mem_cons]
          exact or_iff_right (Ne.symm heq)
        rw [if_neg heq, if_congr hiff rfl rfl]

theorem lookup_filterHeaders {raw : List (Text × Json)}
    (hraw : LowerKeys (raw.map Prod.fst)) {name : Text}
    (hname : isForwarded name = true) (hproto : name ≠ protoName) :
    (filterHeaders raw).lookup name = raw.lookup name := by
  have hperm := List.mergeSort_perm (raw.map Prod.fst) nameLe
  have hlower : forall key, key ∈ (raw.map Prod.fst).mergeSort nameLe ->
      toLowerCase key = key :=
    fun key hmem => hraw.lower key (hperm.mem_iff.mp hmem)
  change (((raw.map Prod.fst).mergeSort nameLe).foldl (addHeader raw)
    []).lookup name = raw.lookup name
  rw [lookup_foldl_addHeader hlower [] hname hproto]
  by_cases hmem : name ∈ raw.map Prod.fst
  · rw [if_pos (hperm.mem_iff.mpr hmem)]
    cases raw.lookup name with
    | none => rfl
    | some value => rfl
  · rw [if_neg fun hsorted => hmem (hperm.mem_iff.mp hsorted)]
    rw [mem_keys_iff_lookup, Bool.not_eq_true, Option.isSome_eq_false_iff,
      Option.isNone_iff_eq_none] at hmem
    exact hmem.symm

theorem headerSent_spread {headers : List (Text × Json)}
    (h : LowerKeys (headers.map Prod.fst)) {name : Text}
    (hname : toLowerCase name = name) :
    headerSent (spread (some (.obj headers))) name = headers.lookup name := by
  rw [spread_obj]
  induction headers with
  | nil => rfl
  | cons entry rest ih =>
      rcases entry with ⟨key, value⟩
      rw [List.map_cons] at h
      have hkey := h.lower key List.mem_cons_self
      have hrest : LowerKeys (rest.map Prod.fst) :=
        ⟨fun other hmem => h.lower other (List.mem_cons_of_mem _ hmem),
          (List.nodup_cons.mp h.nodup).right⟩
      rw [List.map_cons]
      by_cases heq : key = name
      · have hlast : headerSent ([] ++ (key, some value) ::
            rest.map fun entry => (entry.1, some entry.2)) name =
              some value := by
          apply headerSent_append_cons (by rw [heq])
          intro entry hmem hlower
          rcases List.mem_map.mp hmem with ⟨entry', hentry', rfl⟩
          have hmem' : entry'.1 ∈ rest.map Prod.fst :=
            List.mem_map_of_mem hentry'
          dsimp only at hlower
          rw [hrest.lower _ hmem', hname, ← heq] at hlower
          rw [hlower] at hmem'
          exact (List.nodup_cons.mp h.nodup).left hmem'
        rw [heq, List.lookup_cons_self]
        rw [heq] at hlast
        exact hlast
      · have hne : ¬ toLowerCase key = toLowerCase name := by
          rw [hkey, hname]
          exact heq
        have hbeq : (name == key) = false := beq_false_of_ne (Ne.symm heq)
        rw [List.lookup_cons, hbeq]
        unfold headerSent at ih ⊢
        rw [List.foldl_cons, if_neg hne]
        exact ih hrest

/-! ## The two runs -/

def authorizationHeader : Text := "x-callgent-authorization".toList

/-- The cookies of a request, without the one that carries the credential; an
empty name means that there is none. -/
def otherCookies (cookieName : Text) (r : InvokeRequest) :
    List (Text × Text) :=
  match r.headers.lookup "cookie".toList with
  | none => []
  | some header =>
      (cookies header.display).filter fun cookie =>
        decide (cookieName = [] ∨ cookie.1 ≠ cookieName)

structure DifferInCredential (cookieName : Text) (r r' : InvokeRequest) :
    Prop where
  method : r.method = r'.method
  url : r.url = r'.url
  body : r.body = r'.body
  headers : forall key, key ≠ authorizationHeader -> key ≠ "cookie".toList ->
    r.headers.lookup key = r'.headers.lookup key
  cookies : otherCookies cookieName r = otherCookies cookieName r'

structure SameRequest (config config' : AxiosConfig) : Prop where
  url : config.url = config'.url
  method : config.method = config'.method
  params : config.params = config'.params
  data : config.data = config'.data
  baseURL : config.baseURL = config'.baseURL
  withCredentials : config.withCredentials = config'.withCredentials
  headers : forall name,
    headerSent config.headers name = headerSent config'.headers name

theorem SameRequest.refl (config : AxiosConfig) : SameRequest config config :=
  ⟨rfl, rfl, rfl, rfl, rfl, rfl, fun _ => rfl⟩

theorem cookie_sent (parse : Text -> Json) (r : InvokeRequest)
    (sen : EntryDto) (item : Option RealmSecurityItem) :
    headerSent (axiosConfig (.obj (forwardedFields parse r)) sen item).headers
        "cookie".toList =
      r.headers.lookup "cookie".toList := by
  have hhost : toLowerCase "host".toList ≠ toLowerCase "cookie".toList := by
    decide
  have hlength : toLowerCase "content-length".toList ≠
      toLowerCase "cookie".toList := by
    decide
  change headerSent (setEntry (setEntry
    (spread (some (.obj (filterHeaders r.headers)))) "host".toList none)
    "content-length".toList none) "cookie".toList = _
  rw [headerSent_setEntry_of_ne hlength, headerSent_setEntry_of_ne hhost,
    headerSent_spread (lowerKeys_filterHeaders r.headers) (by decide),
    lookup_filterHeaders r.headers_lower (by decide) (by decide)]

section Runs

variable {cookieName : Text} {r r' : InvokeRequest}

theorem forwardedFields_congr (h : DifferInCredential cookieName r r')
    (hcookie : r.headers.lookup "cookie".toList =
      r'.headers.lookup "cookie".toList) (parse : Text -> Json) :
    forwardedFields parse r = forwardedFields parse r' := by
  have hheaders : filterHeaders r.headers = filterHeaders r'.headers := by
    apply filterHeaders_congr r.headers_lower r'.headers_lower
    intro key hforwarded
    by_cases hkey : key = "cookie".toList
    · rw [hkey]
      exact hcookie
    · apply h.headers key _ hkey
      rintro rfl
      cases hforwarded
  have hsuffix : r.suffix = r'.suffix := by
    rw [← InvokeRequest.urlSuffix_url, h.url, InvokeRequest.urlSuffix_url]
  have hquery : r.query = r'.query := by
    rw [← query_suffix, hsuffix, query_suffix]
  unfold forwardedFields
  rw [hsuffix, h.method, hheaders, hquery, h.body]

theorem outbound_nil {event : EventObject} {parse : Text -> Json}
    (h : event.context.req = r.toJson parse) (sen : EntryDto) :
    outbound event [] sen = .ok (axiosConfig (.obj (forwardedFields parse r))
      sen event.context.securityItem) := by
  rcases exists_outbound h [] sen with ⟨req, hreq, hout, _⟩
  rw [hout, ← Except.ok.inj hreq]

/-- Two requests that differ in the credential alone are sent alike, whatever
secrets are attached to them, exactly if they have the same cookie header. -/
theorem credential_hidden_iff (h : DifferInCredential cookieName r r')
    (event : EventObject) (parse : Text -> Json) :
    (forall attached sen, exists config config',
        outbound (withReq event (r.toJson parse)) attached sen = .ok config ∧
        outbound (withReq event (r'.toJson parse)) attached sen =
          .ok config' ∧
        SameRequest config config') <->
      r.headers.lookup "cookie".toList =
        r'.headers.lookup "cookie".toList := by
  have hevent : forall r : InvokeRequest,
      (withReq event (r.toJson parse)).context.req = r.toJson parse :=
    fun _ => rfl
  constructor
  · intro hsame
    rcases hsame [] ⟨[], [], []⟩ with ⟨config, config', hout, hout', hconfig⟩
    rw [outbound_nil (hevent r)] at hout
    rw [outbound_nil (hevent r')] at hout'
    have hcookie := hconfig.headers "cookie".toList
    rw [← Except.ok.inj hout, ← Except.ok.inj hout', cookie_sent,
      cookie_sent] at hcookie
    exact hcookie
  · intro hcookie attached sen
    rcases exists_outbound (hevent r) attached sen with ⟨req, hreq, hout, _⟩
    rcases exists_outbound (hevent r') attached sen with
      ⟨req', hreq', hout', _⟩
    rw [forwardedFields_congr h hcookie, hreq'] at hreq
    rw [Except.ok.inj hreq] at hout'
    exact ⟨_, _, hout, hout', SameRequest.refl _⟩

end Runs

/-! ## Two callers of the pets -/

theorem get_ne_nil : "GET".toList ≠ [] := by decide

theorem pets_slash : '/' ∉ "pets".toList := by decide

theorem e1_slash : '/' ∉ "e1".toList := by decide

theorem list_question : '?' ∉ "list".toList := by decide

def petList (header value : Text)
    (h : LowerKeys (["accept".toList, header])) : InvokeRequest where
  method := "GET".toList
  callgentId := "pets".toList
  entryId := "e1".toList
  path := "list".toList
  queryText := none
  headers := [("accept".toList, .str "*/*".toList), (header, .str value)]
  body := none
  method_ne_nil := get_ne_nil
  callgentId_slash := pets_slash
  entryId_slash := e1_slash
  path_question := list_question
  headers_lower := h

theorem lookup_petList {header value key : Text}
    {h : LowerKeys (["accept".toList, header])} (hkey : key ≠ header) :
    (petList header value h).headers.lookup key =
      [("accept".toList, Json.str "*/*".toList)].lookup key := by
  have hne : (key == header) = false := beq_false_of_ne hkey
  unfold petList
  dsimp only
  rw [List.lookup_cons, List.lookup_cons, List.lookup_cons, hne]

def jwtCookie : Text := "x-callgent-jwt".toList

def withToken (token : String) : InvokeRequest :=
  petList authorizationHeader token.toList ⟨by decide, by decide⟩

def withCookieToken (token : String) : InvokeRequest :=
  petList "cookie".toList (jwtCookie ++ '=' :: token.toList)
    ⟨by decide, by decide⟩

theorem differ_withToken :
    DifferInCredential jwtCookie (withToken "a") (withToken "b") where
  method := rfl
  url := rfl
  body := rfl
  headers := fun _ hkey _ =>
    (lookup_petList hkey).trans (lookup_petList hkey).symm
  cookies := rfl

theorem credential_hidden_header :
    exists config config',
      outbound (withReq petState.event ((withToken "a").toJson fun _ => .null))
        [] petServer = .ok config ∧
      outbound (withReq petState.event ((withToken "b").toJson fun _ => .null))
        [] petServer = .ok config' ∧
      SameRequest config config' :=
  (credential_hidden_iff differ_withToken petState.event _).mpr rfl []
    petServer

/-- The cookie of the platform is sent to the service. -/
theorem credential_sent_cookie :
    DifferInCredential jwtCookie (withCookieToken "a") (withCookieToken "b") ∧
      exists config config',
        outbound
          (withReq petState.event ((withCookieToken "a").toJson fun _ => .null))
          [] petServer = .ok config ∧
        outbound
          (withReq petState.event ((withCookieToken "b").toJson fun _ => .null))
          [] petServer = .ok config' ∧
        ¬ SameRequest config config' := by
  constructor
  · exact ⟨rfl, rfl, rfl, fun _ _ hkey =>
      (lookup_petList hkey).trans (lookup_petList hkey).symm, by decide⟩
  · have hsent : forall r : InvokeRequest,
        outbound (withReq petState.event (r.toJson fun _ => .null)) []
          petServer =
            .ok (axiosConfig (.obj (forwardedFields (fun _ => .null) r))
              petServer none) :=
      fun r => outbound_nil rfl petServer
    refine ⟨_, _, hsent _, hsent _, ?_⟩
    intro hsame
    have hcookie := hsame.headers "cookie".toList
    rw [cookie_sent, cookie_sent] at hcookie
    cases hcookie

end Entries
end CallgentApi
