import CallgentApi.Hub.References

/-!
# Copies of callgents

What a duplicate has of its source.  The endpoints are read by a list of
fields, and the services compute some of what they store: the copy agrees with
its source exactly if the source has only what is read, as it is computed.
-/

namespace CallgentApi
namespace Hub

open Js Event Realms Cached Config Transition Correspondence

/-! ## What is to agree -/

def endpointsOf (c : Tables) (callgentId : Text) : List StoredEndpointRow :=
  c.endpoints.rows.filter fun row => row.key.1 == callgentId

structure RealmAgrees (row copy : RealmRow) : Prop where
  realmKey : copy.key.2 = row.key.2
  authType : copy.value.authType = row.value.authType
  realm : copy.value.realm = row.value.realm
  scheme : copy.value.scheme = row.value.scheme
  perUser : copy.value.perUser = row.value.perUser
  secret : copy.value.secret = none

def copiedPks (rows copies : List RealmRow) : RealmMap :=
  (rows.map TableRow.pk).zip (copies.map TableRow.pk)

def Renamed (pks : RealmMap) (item : RealmSecurityItem)
    (entry : Nat × RealmSecurityItem) : Prop :=
  pks.lookup item.realmPk = some entry.1 ∧
    entry.2 = { item with realmPk := entry.1 }

structure GuardCopied (pks : RealmMap) (guard copy : Guard) : Prop where
  copied : forall item, item ∈ guard.values ->
    exists entry, entry ∈ copy.entries ∧ Renamed pks item entry
  only : forall entry, entry ∈ copy.entries ->
    exists item, item ∈ guard.values ∧ Renamed pks item entry

abbrev SecuritiesCopied (pks : RealmMap) : List Guard -> List Guard -> Prop :=
  List.Forall₂ (GuardCopied pks)

structure EntryAgrees (pks : RealmMap) (row copy : StoredEntryRow) : Prop where
  type : copy.value.type = row.value.type
  adaptorKey : copy.value.adaptorKey = row.value.adaptorKey
  name : copy.value.name = row.value.name
  summary : copy.value.summary = row.value.summary
  instruction : copy.value.instruction = row.value.instruction
  priority : copy.value.priority = row.value.priority
  host : row.value.type = .server -> copy.value.host = row.value.host
  initParams : copy.value.initParams = row.value.initParams
  content : copy.value.content = row.value.content
  securities : SecuritiesCopied pks row.value.securities copy.value.securities

structure EndpointAgrees (pks : RealmMap)
    (entries : List (StoredEntryRow × StoredEntryRow))
    (row copy : StoredEndpointRow) : Prop where
  entry : exists pair, pair ∈ entries ∧
    row.value.entryId = some pair.1.key ∧
    copy.value.entryId = some pair.2.key
  name : copy.key.2 = row.key.2
  adaptorKey : copy.value.adaptorKey = row.value.adaptorKey
  path : copy.value.path = row.value.path
  method : copy.value.method = row.value.method
  summary : copy.value.summary = row.value.summary
  description : copy.value.description = row.value.description
  servers : copy.value.servers = row.value.servers
  params : copy.value.params = row.value.params
  responses : copy.value.responses = row.value.responses
  rawJson : copy.value.rawJson = row.value.rawJson
  isAsync : copy.value.isAsync = row.value.isAsync
  cacheKey : copy.value.cacheKey = row.value.cacheKey
  cacheTtl : copy.value.cacheTtl = row.value.cacheTtl
  securities : SecuritiesCopied pks row.value.securities copy.value.securities

/-- A callgent and its copy.  Realms and entries are copied in the order in
which they are stored, endpoints entry by entry. -/
structure Faithful (c c' : Tables) (source copy : Text) : Prop where
  realms : List.Forall₂ RealmAgrees (realmsOf c source) (realmsOf c' copy)
  entries : List.Forall₂
    (EntryAgrees (copiedPks (realmsOf c source) (realmsOf c' copy)))
    (entriesOf c source) (entriesOf c' copy)
  endpoints : Correspond
    (EndpointAgrees (copiedPks (realmsOf c source) (realmsOf c' copy))
      ((entriesOf c source).zip (entriesOf c' copy)))
    (endpointsOf c source) (endpointsOf c' copy)

/-! ## What a source has -/

def Constructed (platform : Platform) (row : RealmRow) : Prop :=
  exists processor provider,
    getSchemeProcessor row.value.authType = .ok processor ∧
    row.value.scheme.provider = some provider ∧
    platform.hostname (SchemeProcessor.providerUrl provider) =
      some provider ∧
    row.key.2 = processor.getRealmKey row.value.scheme row.value.realm ∧
    row.value.perUser = false

/-- An entry with a name and with a host that has no place for an id. -/
def EntryPlain (ids : GeneratedIds) (numbered : StoredEntryRow × Nat) : Prop :=
  numbered.1.value.name ≠ [] ∧
    (numbered.1.value.type = .server ->
      replaceId numbered.1.value.host (ids.entry numbered.2) =
        numbered.1.value.host)

structure EndpointPlain (platform : Platform) (entry : StoredEntryRow)
    (row : StoredEndpointRow) : Prop where
  servers : row.value.servers = []
  cacheKey : row.value.cacheKey = none
  cacheTtl : row.value.cacheTtl = some 0
  isAsync : (platform.adaptors entry.value.adaptorKey).bind
    EntryAdaptor.isAsync = some row.value.isAsync

structure Copyable (platform : Platform) (ids : GeneratedIds) (c : Tables)
    (source : Text) : Prop where
  realms : forall row, row ∈ realmsOf c source -> Constructed platform row
  entries : forall numbered, numbered ∈ (entriesOf c source).zipIdx ->
    EntryPlain ids numbered
  endpoints : forall entry, entry ∈ entriesOf c source ->
    forall row, row ∈ endpointsAt c entry.key ->
      EndpointPlain platform entry row
  /-- The endpoints of the callgent are those at its entries. -/
  placed : forall row, row ∈ c.endpoints.rows ->
    (row.key.1 = source <->
      exists entry, entry ∈ entriesOf c source ∧
        row.value.entryId = some entry.key)

/-! ## Guards -/

theorem mem_of_fold_renamed {pks : RealmMap}
    (hpks : forall a b pk, pks.lookup a = some pk -> pks.lookup b = some pk ->
      a = b) {items : List RealmSecurityItem} {ret copy : Guard}
    (hitems : items.Pairwise fun a b => a.realmPk ≠ b.realmPk)
    (hnew : forall item, item ∈ items -> forall entry, entry ∈ ret.entries ->
      pks.lookup item.realmPk ≠ some entry.1)
    (h : items.foldlM (fun (ret : Guard) item => do
      let pk ← written (.readUndefined "pk".toList) (pks.lookup item.realmPk)
      return ret.set pk { item with realmPk := pk }) ret = .ok copy)
    (entry : Nat × RealmSecurityItem) :
    (entry ∈ copy.entries <->
      entry ∈ ret.entries ∨ exists item, item ∈ items ∧ Renamed pks item entry) ∧
    forall item, item ∈ items -> (pks.lookup item.realmPk).isSome := by
  induction items generalizing ret with
  | nil =>
      cases h
      simp
  | cons first rest ih =>
      rcases List.pairwise_cons.mp hitems with ⟨hfirst, hrest⟩
      rw [List.foldlM_cons] at h
      rcases Fallible.exists_of_bind_ok h with ⟨mid, hmid, h⟩
      rcases Fallible.exists_of_bind_ok hmid with ⟨pk, hpk, hmid⟩
      have hpk := eq_of_written hpk
      cases hmid
      have hnewRest : forall item, item ∈ rest -> forall entry,
          entry ∈ (ret.set pk { first with realmPk := pk }).entries ->
            pks.lookup item.realmPk ≠ some entry.1 := by
        intro item hitem made hmade hlookup
        rcases SortedObject.mem_set.mp hmade with heq | ⟨hold, _⟩
        · rw [heq] at hlookup
          exact hfirst item hitem (hpks _ _ _ hpk hlookup)
        · exact hnew item (List.mem_cons_of_mem _ hitem) made hold hlookup
      rcases ih hrest hnewRest h with ⟨hmem, hsome⟩
      have hkept : entry ∈ ret.entries -> entry.1 ≠ pk := by
        intro hold heq
        apply hnew first List.mem_cons_self entry hold
        rw [hpk, heq]
      have hrenamed : Renamed pks first entry <->
          entry = (pk, { first with realmPk := pk }) := by
        constructor
        · intro hrenamed
          have heq : entry.1 = pk :=
            Option.some.inj (hrenamed.left.symm.trans hpk)
          rw [← heq, ← hrenamed.right]
        · intro heq
          rw [heq]
          exact ⟨hpk, rfl⟩
      constructor
      · rw [hmem, SortedObject.mem_set, List.exists_mem_cons_iff, hrenamed,
          and_iff_left_of_imp hkept, or_comm (a := entry = _), or_assoc]
      · intro item hitem
        rcases List.mem_cons.mp hitem with heq | hitem
        · rw [heq, hpk]
          rfl
        · exact hsome item hitem

theorem lookup_zip_injective {as bs : List Nat} (hbs : bs.Nodup) {a b pk : Nat}
    (ha : (as.zip bs).lookup a = some pk)
    (hb : (as.zip bs).lookup b = some pk) : a = b := by
  have hmem : forall {xs ys : List Nat} {x : Nat},
      (xs.zip ys).lookup x = some pk -> pk ∈ ys := by
    intro xs ys x hlookup
    rcases List.lookup_eq_some_iff.mp hlookup with ⟨before, after, hzip, _⟩
    have hpair : (x, pk) ∈ xs.zip ys := by
      rw [hzip]
      exact List.mem_append_right _ List.mem_cons_self
    exact (List.of_mem_zip hpair).right
  induction as generalizing bs with
  | nil => cases ha
  | cons first as ih =>
      cases bs with
      | nil => cases ha
      | cons copy bs =>
          rcases List.nodup_cons.mp hbs with ⟨hcopy, hrest⟩
          rw [List.zip_cons_cons, List.lookup_cons] at ha hb
          by_cases hfirst : a = first
          · by_cases hsecond : b = first
            · rw [hfirst, hsecond]
            · rw [beq_iff_eq.mpr hfirst] at ha
              rw [beq_false_of_ne hsecond] at hb
              rw [← Option.some.inj ha] at hmem hb
              exact absurd (hmem hb) hcopy
          · rw [beq_false_of_ne hfirst] at ha
            by_cases hsecond : b = first
            · rw [beq_iff_eq.mpr hsecond] at hb
              rw [← Option.some.inj hb] at hmem ha
              exact absurd (hmem ha) hcopy
            · rw [beq_false_of_ne hsecond] at hb
              exact ih hrest ha hb

def Renaming (pks : RealmMap) : Prop :=
  forall a b pk, pks.lookup a = some pk -> pks.lookup b = some pk -> a = b

def Keyed (securities : List Guard) : Prop :=
  forall guard, guard ∈ securities -> forall entry, entry ∈ guard.entries ->
    entry.1 = entry.2.realmPk

theorem Guarded.keyed {realms : Table (Text × Text) Realm} {callgentId : Text}
    {securities : List Guard} (h : Guarded realms callgentId securities) :
    Keyed securities :=
  fun guard hguard entry hentry => (h guard hguard entry hentry).left

theorem guardCopied_of_dupGuard {pks : RealmMap} (hpks : Renaming pks)
    {guard copy : Guard}
    (hkeyed : forall entry, entry ∈ guard.entries ->
      entry.1 = entry.2.realmPk)
    (h : dupGuard pks guard = .ok copy) : GuardCopied pks guard copy := by
  have hitems : guard.values.Pairwise fun a b => a.realmPk ≠ b.realmPk := by
    apply List.pairwise_map.mpr
    apply guard.sorted.imp_of_mem
    intro a b ha hb hlt
    rw [← hkeyed a ha, ← hkeyed b hb]
    exact ne_of_lt hlt
  have hcopied := mem_of_fold_renamed hpks hitems
    (fun _ _ _ hentry => absurd hentry List.not_mem_nil) h
  constructor
  · intro item hitem
    rcases Option.isSome_iff_exists.mp
      ((hcopied (0, item)).right item hitem) with ⟨pk, hpk⟩
    exact ⟨(pk, { item with realmPk := pk }),
      (hcopied _).left.mpr (Or.inr ⟨item, hitem, hpk, rfl⟩), hpk, rfl⟩
  · intro entry hentry
    rcases (hcopied entry).left.mp hentry with hnone | hitem
    · cases hnone
    · exact hitem

theorem securitiesCopied_of_dupSecurities {pks : RealmMap}
    (hpks : Renaming pks) {securities copies : List Guard}
    (hkeyed : Keyed securities)
    (h : dupSecurities pks securities = .ok copies) :
    SecuritiesCopied pks securities copies := by
  have hguards := (List.forall₂_and_left _ _).mpr
    ⟨hkeyed, Fallible.forall₂_of_mapM h⟩
  apply hguards.imp
  intro guard copy hcopy
  exact guardCopied_of_dupGuard hpks hcopy.left hcopy.right

/-! ## Rows and what is made of them -/

def RealmDuplicated (platform : Platform) (callgentId : Text)
    (row copy : RealmRow) : Prop :=
  copy.key.1 = callgentId ∧ exists processor,
    getSchemeProcessor row.value.authType = .ok processor ∧
    processor.constructRealm platform.hostname row.value.authType
      row.value.scheme ⟨row.value.realm, none⟩ none [] =
        .ok (copy.key.2, copy.value)

def EntryDuplicated (platform : Platform) (pks : RealmMap) (ids : GeneratedIds)
    (numbered : StoredEntryRow × Nat) (copy : StoredEntryRow) : Prop :=
  copy.key = ids.entry numbered.2 ∧ exists securities host,
    dupSecurities pks numbered.1.value.securities = .ok securities ∧
    preCreate platform (ids.entry numbered.2)
      ⟨numbered.1.value.type, numbered.1.value.adaptorKey,
        numbered.1.value.name, some numbered.1.value.host, ids.callgent⟩ =
      .ok host ∧
    copy.value =
      (dupEntry ids.callgent securities numbered.1.value).stored host

def EndpointDuplicated (platform : Platform) (pks : RealmMap)
    (ids : GeneratedIds) (numbered : StoredEntryRow × Nat)
    (row copy : StoredEndpointRow) : Prop :=
  copy.key = (ids.callgent, row.key.2) ∧ exists id named isAsync,
    dupEndpoint pks (ids.entry numbered.2) id row = .ok named ∧
    (platform.adaptors numbered.1.value.adaptorKey).bind
      EntryAdaptor.isAsync = some isAsync ∧
    copy.value = { named.2 with isAsync := isAsync }

section Rows

variable {platform : Platform} {pks : RealmMap} {ids : GeneratedIds}

theorem provider_of_implyProvider {authType : Text}
    {processor : SchemeProcessor} {hostname : Text -> Option Text}
    (hprocessor : getSchemeProcessor authType = .ok processor)
    {given : Option Text} {provider : Text}
    (h : processor.implyProvider hostname given none [] = .ok provider) :
    exists name, given = some name ∧
      hostname (SchemeProcessor.providerUrl name) = some provider := by
  have hserver : processor.serverUrl hostname [] = none := by
    unfold getSchemeProcessor at hprocessor
    split at hprocessor
    · cases hprocessor
      rfl
    · split at hprocessor
      · cases hprocessor
        rfl
      · cases hprocessor
  unfold SchemeProcessor.implyProvider SchemeProcessor.impliedUrl at h
  cases hgiven : truthy given with
  | none =>
      rw [hgiven] at h
      dsimp only [Option.filter_none] at h
      rw [hserver] at h
      cases h
  | some name =>
      have hname : given = some name :=
        (Option.filter_eq_some_iff.mp hgiven).left
      rw [hgiven] at h
      dsimp only at h
      split at h
      · cases h
      · rename_i url hurl
        have hsame : SchemeProcessor.providerUrl name = url :=
          Option.some.inj (Option.filter_eq_some_iff.mp hurl).left
        split at h
        · cases h
        · rename_i host hhost
          cases h
          exact ⟨name, hname, hsame ▸ hhost⟩

theorem realmAgrees_iff {callgentId : Text} {row copy : RealmRow}
    (h : RealmDuplicated platform callgentId row copy) :
    RealmAgrees row copy <-> Constructed platform row := by
  rcases h with ⟨_, processor, hprocessor, hconstruct⟩
  rcases Fallible.exists_of_bind_ok hconstruct with
    ⟨provider, hprovider, hcopy⟩
  rcases provider_of_implyProvider hprocessor hprovider with
    ⟨name, hname, hhost⟩
  have hkey := congrArg Prod.fst (Except.ok.inj hcopy)
  have hvalue := congrArg Prod.snd (Except.ok.inj hcopy)
  dsimp only at hkey hvalue
  constructor
  · intro hagrees
    have hscheme : { row.value.scheme with provider := some provider } =
        row.value.scheme := by
      rw [← hagrees.scheme, ← hvalue]
    have hsame : row.value.scheme.provider = some provider :=
      (congrArg RealmSchemeVO.provider hscheme).symm
    refine ⟨processor, provider, hprocessor, hsame, ?_, ?_, ?_⟩
    · rw [hname] at hsame
      rw [Option.some.inj hsame] at hhost
      exact hhost
    · rw [← hagrees.realmKey, ← hkey, hscheme]
    · rw [← hagrees.perUser, ← hvalue]
  · intro hconstructed
    rcases hconstructed with
      ⟨other, stored, hother, hstored, hnormal, hrealmKey, hperUser⟩
    have hsame : provider = stored := by
      have heq : name = stored :=
        Option.some.inj (hname.symm.trans hstored)
      rw [heq, hnormal] at hhost
      exact (Option.some.inj hhost).symm
    have hscheme : { row.value.scheme with provider := some provider } =
        row.value.scheme := by
      rw [hsame, ← hstored]
    rw [Except.ok.inj (hother.symm.trans hprocessor)] at hrealmKey
    constructor
    · rw [← hkey, hscheme, hrealmKey]
    · rw [← hvalue]
    · rw [← hvalue]
    · rw [← hvalue]
      exact hscheme
    · rw [← hvalue, hperUser]
    · rw [← hvalue]

theorem replaceId_ne_nil {host id : Text} (hhost : host ≠ [])
    (hid : id ≠ []) : replaceId host id ≠ [] := by
  unfold replaceId
  split
  · exact hhost
  · intro hnil
    exact hid (List.append_eq_nil_iff.mp
      (List.append_eq_nil_iff.mp hnil).left).right

theorem host_of_given {id host : Text} {chosen : Option Text}
    (h : (match truthy chosen with
      | none => Except.error (Thrown.badRequest "host is required".toList)
      | some host => pure (replaceId host id)) = Except.ok host) :
    exists given, chosen = some given ∧ given ≠ [] ∧
      host = replaceId given id := by
  cases hgiven : truthy chosen with
  | none =>
      rw [hgiven] at h
      cases h
  | some given =>
      rw [hgiven] at h
      cases h
      exact ⟨given, (Option.filter_eq_some_iff.mp hgiven).left,
        ne_nil_of_truthy hgiven, rfl⟩

theorem host_of_preCreate {id : Text} {dto : Config.CreateEntryDto}
    {host : Text} (hid : id ≠ [])
    (h : preCreate platform id dto = .ok host) :
    host ≠ [] ∧ (dto.type = .server ->
      exists given, dto.host = some given ∧ host = replaceId given id) := by
  rcases Fallible.exists_of_bind_ok h with ⟨adaptor, _, h⟩
  split at h
  · rename_i htype
    split at h
    · cases h
    · rcases host_of_given h with ⟨given, hgiven, hne, heq⟩
      rw [heq]
      exact ⟨replaceId_ne_nil hne hid, fun _ => ⟨given, hgiven, rfl⟩⟩
  · rename_i htype
    split at h
    · cases h
    · rcases host_of_given h with ⟨given, _, hne, heq⟩
      rw [heq]
      exact ⟨replaceId_ne_nil hne hid, fun hserver => absurd hserver htype⟩

theorem entryAgrees_iff {numbered : StoredEntryRow × Nat}
    {copy : StoredEntryRow} (hpks : Renaming pks)
    (hkeyed : Keyed numbered.1.value.securities)
    (h : EntryDuplicated platform pks ids numbered copy) :
    EntryAgrees pks numbered.1 copy <-> EntryPlain ids numbered := by
  rcases h with ⟨_, securities, host, hsecurities, hhost, hcopy⟩
  rcases host_of_preCreate (ids.entry_ne_nil numbered.2) hhost with
    ⟨hhostNe, hserver⟩
  have hname : copy.value.name =
      if numbered.1.value.name.isEmpty then host
      else numbered.1.value.name := by
    rw [hcopy]
    rfl
  have hhostCopy : copy.value.host = host := by
    rw [hcopy]
    rfl
  constructor
  · intro hagrees
    constructor
    · intro hnil
      have hsame := hagrees.name
      rw [hname, hnil] at hsame
      exact hhostNe hsame
    · intro htype
      rcases hserver htype with ⟨given, hgiven, heq⟩
      have hsame := hagrees.host htype
      rw [hhostCopy, heq, ← Option.some.inj hgiven] at hsame
      exact hsame
  · intro hplain
    constructor
    · rw [hcopy]
      rfl
    · rw [hcopy]
      rfl
    · have hnotEmpty : numbered.1.value.name.isEmpty = false := by
        simpa using hplain.left
      rw [hname, hnotEmpty]
      rfl
    · rw [hcopy]
      rfl
    · rw [hcopy]
      rfl
    · rw [hcopy]
      rfl
    · intro htype
      rcases hserver htype with ⟨given, hgiven, heq⟩
      rw [hhostCopy, heq, ← Option.some.inj hgiven]
      exact hplain.right htype
    · rw [hcopy]
      rfl
    · rw [hcopy]
      rfl
    · rw [hcopy]
      exact securitiesCopied_of_dupSecurities hpks hkeyed hsecurities

theorem endpointAgrees_iff {numbered : StoredEntryRow × Nat}
    {row copy : StoredEndpointRow}
    {entries : List (StoredEntryRow × StoredEntryRow)} (hpks : Renaming pks)
    (hkeyed : Keyed row.value.securities)
    (hentry : exists pair, pair ∈ entries ∧
      row.value.entryId = some pair.1.key ∧
      pair.2.key = ids.entry numbered.2)
    (h : EndpointDuplicated platform pks ids numbered row copy) :
    EndpointAgrees pks entries row copy <->
      EndpointPlain platform numbered.1 row := by
  rcases h with ⟨hkey, id, named, isAsync, hnamed, hisAsync, hcopy⟩
  rcases Fallible.exists_of_bind_ok hnamed with
    ⟨securities, hsecurities, hnamed⟩
  cases hnamed
  constructor
  · intro hagrees
    have hservers := hagrees.servers
    have hcacheKey := hagrees.cacheKey
    have hcacheTtl := hagrees.cacheTtl
    have hasync := hagrees.isAsync
    rw [hcopy] at hservers hcacheKey hcacheTtl hasync
    refine ⟨hservers.symm, hcacheKey.symm, hcacheTtl.symm, ?_⟩
    rw [hisAsync]
    exact congrArg some hasync
  · intro hplain
    rcases hentry with ⟨pair, hpair, hof, hcopyKey⟩
    have hasync : isAsync = row.value.isAsync :=
      Option.some.inj (hisAsync.symm.trans hplain.isAsync)
    have hname : copy.key.2 = row.key.2 := by
      rw [hkey]
    have hplaced : copy.value.entryId = some pair.2.key := by
      rw [hcopy, hcopyKey]
    refine ⟨⟨pair, hpair, hof, hplaced⟩, hname, ?_, ?_, ?_, ?_, ?_, ?_, ?_, ?_,
      ?_, ?_, ?_, ?_, ?_⟩
    all_goals rw [hcopy]
    · exact hplain.servers.symm
    · exact hasync
    · exact hplain.cacheKey.symm
    · exact hplain.cacheTtl.symm
    · exact securitiesCopied_of_dupSecurities hpks hkeyed hsecurities

end Rows

/-! ## What a duplicate stores -/

section Stored

variable {platform : Platform} {pks : RealmMap} {ids : GeneratedIds}
  {c c' : Tables} {source : Text}

theorem duplicateRealms_cases {callgentId : Text} {rows : List RealmRow}
    {s next : Tables × RealmMap}
    (h : rows.foldlM (duplicateRealm platform callgentId) s = .ok next) :
    exists realms copies, next.1 = { s.1 with realms := realms } ∧
      realms.rows = s.1.realms.rows ++ copies ∧
      next.2 = s.2 ++ copiedPks rows copies ∧
      List.Forall₂ (RealmDuplicated platform callgentId) rows copies := by
  induction rows generalizing s with
  | nil =>
      cases h
      exact ⟨_, [], rfl, (List.append_nil _).symm, (List.append_nil _).symm,
        List.Forall₂.nil⟩
  | cons first rest ih =>
      rw [List.foldlM_cons] at h
      rcases Fallible.exists_of_bind_ok h with ⟨mid, hmid, h⟩
      rcases duplicateRealm_cases hmid with
        ⟨processor, realmKey, realm, realms, hprocessor, hconstruct, heq,
          hrows⟩
      rcases ih h with ⟨realms', copies, hnext, hrows', hpks, hall⟩
      rw [heq] at hnext hrows' hpks
      refine ⟨realms', ⟨s.1.realms.nextPk, (callgentId, realmKey), realm⟩ ::
        copies, hnext, ?_, ?_, ?_⟩
      · rw [hrows', hrows, List.append_assoc]
        rfl
      · rw [hpks, List.append_assoc]
        rfl
      · exact List.Forall₂.cons ⟨rfl, processor, hprocessor, hconstruct⟩ hall

theorem endpointsDuplicated {numbered : StoredEntryRow × Nat}
    {rows : List StoredEndpointRow} {endpointId : Nat -> Text}
    {named : List (Text × StoredEndpoint)} {isAsync : Bool}
    {added : List StoredEndpointRow}
    (hnamed : rows.zipIdx.mapM (fun row => dupEndpoint pks
      (ids.entry numbered.2) (endpointId row.2) row.1) = .ok named)
    (hasync : named ≠ [] ->
      (platform.adaptors numbered.1.value.adaptorKey).bind
        EntryAdaptor.isAsync = some isAsync)
    (hadded : List.Forall₂ (fun named row =>
      row.key = (ids.callgent, named.1) ∧
        row.value = { named.2 with isAsync := isAsync }) named added) :
    List.Forall₂ (EndpointDuplicated platform pks ids numbered) rows added := by
  have hcomp := forall₂_comp (Fallible.forall₂_of_mapM hnamed) hadded
  have hrows := List.zipIdx_map_fst 0 rows
  rw [← hrows, List.forall₂_map_left_iff]
  apply hcomp.imp
  intro row copy hcopy
  rcases hcopy with ⟨made, hmade, hmakes, hkey, hvalue⟩
  have hname : made.1 = row.1.key.2 := by
    rcases Fallible.exists_of_bind_ok hmakes with ⟨_, _, hmakes⟩
    cases hmakes
    rfl
  refine ⟨hname ▸ hkey, _, made, isAsync, hmakes, ?_, hvalue⟩
  exact hasync (List.ne_nil_of_mem hmade)

theorem duplicateEntry_cases
    {numbered : (StoredEntryRow × List StoredEndpointRow) × Nat}
    (h : duplicateEntry platform pks ids c numbered = .ok c') :
    c'.realms = c.realms ∧
      (exists copy, c'.entries.rows = c.entries.rows ++ [copy] ∧
        copy.value.callgentId = ids.callgent ∧
        EntryDuplicated platform pks ids (numbered.1.1, numbered.2) copy) ∧
      exists added, c'.endpoints.rows = c.endpoints.rows ++ added ∧
        List.Forall₂
          (EndpointDuplicated platform pks ids (numbered.1.1, numbered.2))
          numbered.1.2 added := by
  rcases Fallible.exists_of_bind_ok h with ⟨securities, hsecurities, h⟩
  rcases Fallible.exists_of_bind_ok h with ⟨mid, hmid, h⟩
  rcases Fallible.exists_of_bind_ok h with ⟨named, hnamed, hmany⟩
  rcases createEntry_cases hmid with ⟨host, entries, hhost, heq, hrows⟩
  rcases createMany_cases hmany with
    ⟨isAsync, endpoints, added, hsame, hendpoints, hasync, hadded⟩
  rw [hsame, heq]
  refine ⟨rfl, ⟨_, hrows, rfl, rfl, securities, host, hsecurities, hhost,
    rfl⟩, added, ?_, ?_⟩
  · show endpoints.rows = _
    rw [hendpoints, heq]
  · exact endpointsDuplicated hnamed hasync hadded

structure Unused (c : Tables) (callgentId : Text) : Prop where
  realms : forall row, row ∈ c.realms.rows -> row.key.1 ≠ callgentId
  entries : forall row, row ∈ c.entries.rows ->
    row.value.callgentId ≠ callgentId
  endpoints : forall row, row ∈ c.endpoints.rows -> row.key.1 ≠ callgentId

/-- The rows of the duplicate, in the order of those they are made of. -/
structure DuplicateOf (platform : Platform) (ids : GeneratedIds)
    (c c' : Tables) (source : Text) (pks : RealmMap)
    (added : List (List StoredEndpointRow)) : Prop where
  renamed : pks = copiedPks (realmsOf c source) (realmsOf c' ids.callgent)
  realms : List.Forall₂ (RealmDuplicated platform ids.callgent)
    (realmsOf c source) (realmsOf c' ids.callgent)
  entries : List.Forall₂ (EntryDuplicated platform pks ids)
    (entriesOf c source).zipIdx (entriesOf c' ids.callgent)
  endpoints : List.Forall₂ (fun numbered =>
      List.Forall₂ (EndpointDuplicated platform pks ids numbered)
        (endpointsAt c numbered.1.key))
    (entriesOf c source).zipIdx added
  added : endpointsOf c' ids.callgent = added.flatten

theorem filter_append_of {row : Type} {old new : List row} {p : row -> Bool}
    (hold : forall r, r ∈ old -> p r = false)
    (hnew : forall r, r ∈ new -> p r = true) :
    (old ++ new).filter p = new := by
  rw [List.filter_append, List.filter_eq_self.mpr hnew,
    List.filter_eq_nil_iff.mpr, List.nil_append]
  intro r hr
  rw [hold r hr]
  exact Bool.false_ne_true

theorem exists_duplicateOf {dto : DuplicateDto} {fromTenant toTenant : Int}
    (hnew : Unused c ids.callgent)
    (h : duplicateCallgent platform c source dto fromTenant toTenant ids =
      .ok c') :
    exists pks added, DuplicateOf platform ids c c' source pks added := by
  rcases duplicateCallgent_cases h with
    ⟨callgents, mid, pks, hrealms, hentries⟩
  rcases duplicateRealms_cases hrealms with
    ⟨realms, realmCopies, hmid, hrealmRows, hpks, hrealmCopies⟩
  dsimp only at hmid hrealmRows hpks
  rw [List.nil_append] at hpks
  have hkeptRealms : c'.realms = mid.realms :=
    Fallible.foldlM_invariant (fun c : Tables => c.realms = mid.realms)
      (fun _ _ _ _ hinv hstep => (duplicateEntry_cases hstep).left.trans hinv)
      rfl hentries
  have hstepEntry : forall (state : Tables) numbered next,
      duplicateEntry platform pks ids state numbered = .ok next ->
        exists copy, next.entries.rows = state.entries.rows ++ [copy] ∧
          copy.value.callgentId = ids.callgent ∧
          EntryDuplicated platform pks ids (numbered.1.1, numbered.2) copy :=
    fun _ _ _ hstep => (duplicateEntry_cases hstep).right.left
  have hstepEndpoints : forall (state : Tables) numbered next,
      duplicateEntry platform pks ids state numbered = .ok next ->
        exists added, next.endpoints.rows = state.endpoints.rows ++ added ∧
          List.Forall₂
            (EndpointDuplicated platform pks ids (numbered.1.1, numbered.2))
            numbered.1.2 added :=
    fun _ _ _ hstep => (duplicateEntry_cases hstep).right.right
  rcases Fallible.foldlM_appends_one _ hstepEntry hentries with
    ⟨entryCopies, hentryRows, hentryCopies⟩
  rcases Fallible.foldlM_appends _ hstepEndpoints hentries with
    ⟨added, hendpointRows, hadded⟩
  rw [hmid] at hkeptRealms hentryRows hentryCopies hendpointRows hadded
  have hnumbered : ((entriesOf c source).map fun entry =>
      (entry, endpointsAt mid entry.key)).zipIdx =
        (entriesOf c source).zipIdx.map fun numbered =>
          ((numbered.1, endpointsAt c numbered.1.key), numbered.2) := by
    rw [hmid, List.zipIdx_map]
    rfl
  have hrealmsOf : realmsOf c' ids.callgent = realmCopies := by
    unfold realmsOf
    rw [hkeptRealms]
    show realms.rows.filter _ = _
    rw [hrealmRows]
    apply filter_append_of
    · intro row hrow
      exact beq_false_of_ne (hnew.realms row hrow)
    · intro row hrow
      rcases exists_of_mem_forall₂ hrealmCopies hrow with ⟨_, _, hcallgent, _⟩
      exact beq_iff_eq.mpr hcallgent
  have hentriesOf : entriesOf c' ids.callgent = entryCopies := by
    unfold entriesOf
    rw [hentryRows]
    apply filter_append_of
    · intro row hrow
      exact beq_false_of_ne (hnew.entries row hrow)
    · intro row hrow
      rcases exists_of_mem_forall₂ hentryCopies hrow with ⟨_, _, hcallgent, _⟩
      exact beq_iff_eq.mpr hcallgent
  have hendpointsOf : endpointsOf c' ids.callgent = added.flatten := by
    unfold endpointsOf
    rw [hendpointRows]
    apply filter_append_of
    · intro row hrow
      exact beq_false_of_ne (hnew.endpoints row hrow)
    · intro row hrow
      rcases List.mem_flatten.mp hrow with ⟨rows, hrows, hrow⟩
      rcases exists_of_mem_forall₂ hadded hrows with ⟨_, _, hcopies⟩
      rcases exists_of_mem_forall₂ hcopies hrow with ⟨_, _, hkey, _⟩
      rw [hkey]
      exact beq_self_eq_true _
  refine ⟨pks, added, ?_, ?_, ?_, ?_, hendpointsOf⟩
  · rw [hpks, hrealmsOf]
  · rw [hrealmsOf]
    exact hrealmCopies
  · rw [hentriesOf]
    have hcopies := hentryCopies.imp fun _ _ hcopy => hcopy.right
    rw [← hmid, hnumbered, List.forall₂_map_left_iff] at hcopies
    exact hcopies
  · rw [← hmid, hnumbered, List.forall₂_map_left_iff] at hadded
    exact hadded

theorem nodup_names (c : Tables) (callgentId : Text) :
    ((endpointsOf c callgentId).map fun row => row.key.2).Nodup := by
  apply List.pairwise_map.mpr
  apply (c.endpoints.key_unique.filter _).imp_of_mem
  intro a b ha hb hne heq
  apply hne
  have hfst : a.key.1 = b.key.1 := by
    rw [beq_iff_eq.mp (List.mem_filter.mp ha).right,
      beq_iff_eq.mp (List.mem_filter.mp hb).right]
  exact Prod.ext hfst heq

theorem renaming_copiedPks (c : Tables) (rows : List RealmRow)
    (callgentId : Text) :
    Renaming (copiedPks rows (realmsOf c callgentId)) := by
  have hnodup : ((realmsOf c callgentId).map TableRow.pk).Nodup :=
    List.pairwise_map.mpr (c.realms.pk_unique.filter _)
  exact fun _ _ _ ha hb => lookup_zip_injective hnodup ha hb

def placedEndpoints (c : Tables) (callgentId : Text) :
    List StoredEndpointRow :=
  ((entriesOf c callgentId).zipIdx.map fun numbered =>
    endpointsAt c numbered.1.key).flatten

theorem mem_placedEndpoints {callgentId : Text} {row : StoredEndpointRow} :
    row ∈ placedEndpoints c callgentId <->
      row ∈ c.endpoints.rows ∧ exists entry, entry ∈ entriesOf c callgentId ∧
        row.value.entryId = some entry.key := by
  unfold placedEndpoints
  rw [show (fun numbered : StoredEntryRow × Nat =>
      endpointsAt c numbered.1.key) =
        (fun entry : StoredEntryRow => endpointsAt c entry.key) ∘ Prod.fst
      from rfl, ← List.map_map, List.zipIdx_map_fst, ← List.flatMap_def,
    List.mem_flatMap]
  constructor
  · intro h
    rcases h with ⟨entry, hentry, hrow⟩
    rcases List.mem_filter.mp hrow with ⟨hmem, hof⟩
    exact ⟨hmem, entry, hentry, beq_iff_eq.mp hof⟩
  · intro h
    rcases h with ⟨hmem, entry, hentry, hof⟩
    exact ⟨entry, hentry, List.mem_filter.mpr ⟨hmem, beq_iff_eq.mpr hof⟩⟩

variable {added : List (List StoredEndpointRow)}

/-- An endpoint of the duplicate with the entry that it is copied for. -/
def Placed (platform : Platform) (pks : RealmMap) (ids : GeneratedIds)
    (c : Tables) (source : Text) (row copy : StoredEndpointRow) : Prop :=
  exists numbered, numbered ∈ (entriesOf c source).zipIdx ∧
    row ∈ endpointsAt c numbered.1.key ∧
    EndpointDuplicated platform pks ids numbered row copy

theorem DuplicateOf.placed
    (h : DuplicateOf platform ids c c' source pks added) :
    List.Forall₂ (Placed platform pks ids c source) (placedEndpoints c source)
      (endpointsOf c' ids.callgent) := by
  rw [h.added]
  apply forall₂_flatten
  rw [List.forall₂_map_left_iff]
  have hnumbered := (List.forall₂_and_left _ _).mpr
    ⟨fun numbered hmem => hmem, h.endpoints⟩
  apply hnumbered.imp
  intro numbered copies hcopies
  rcases hcopies with ⟨hmem, hcopies⟩
  have hrows := (List.forall₂_and_left _ _).mpr
    ⟨fun row hrow => hrow, hcopies⟩
  apply hrows.imp
  intro row copy hcopy
  exact ⟨numbered, hmem, hcopy.left, hcopy.right⟩

theorem DuplicateOf.exists_pair
    (h : DuplicateOf platform ids c c' source pks added)
    {numbered : StoredEntryRow × Nat}
    (hnumbered : numbered ∈ (entriesOf c source).zipIdx) :
    exists pair, pair ∈ (entriesOf c source).zip (entriesOf c' ids.callgent) ∧
      pair.1 = numbered.1 ∧ pair.2.key = ids.entry numbered.2 := by
  rcases exists_zip_of_forall₂ h.entries hnumbered with
    ⟨copy, hzip, hkey, _⟩
  have hmem := List.mem_map_of_mem (f := Prod.map Prod.fst id) hzip
  rw [← List.zip_map_left, List.zipIdx_map_fst] at hmem
  exact ⟨_, hmem, rfl, hkey⟩

theorem DuplicateOf.renaming
    (h : DuplicateOf platform ids c c' source pks added) : Renaming pks := by
  rw [h.renamed]
  exact renaming_copiedPks c' _ _

theorem DuplicateOf.agrees_iff
    (h : DuplicateOf platform ids c c' source pks added)
    (hsound : Referenced c) {numbered : StoredEntryRow × Nat}
    (hnumbered : numbered ∈ (entriesOf c source).zipIdx)
    {row copy : StoredEndpointRow}
    (hrow : row ∈ endpointsAt c numbered.1.key)
    (hcopy : EndpointDuplicated platform pks ids numbered row copy) :
    EndpointAgrees pks
        ((entriesOf c source).zip (entriesOf c' ids.callgent)) row copy <->
      EndpointPlain platform numbered.1 row := by
  rcases List.mem_filter.mp hrow with ⟨hmem, hof⟩
  rcases h.exists_pair hnumbered with ⟨pair, hpair, hentry, hcopyKey⟩
  apply endpointAgrees_iff h.renaming (hsound.endpoints row hmem).keyed _ hcopy
  refine ⟨pair, hpair, ?_, hcopyKey⟩
  rw [hentry]
  exact beq_iff_eq.mp hof

theorem DuplicateOf.nodup_placed
    (h : DuplicateOf platform ids c c' source pks added) :
    ((placedEndpoints c source).map fun row => row.key.2).Nodup := by
  have hnames := map_eq_of_forall₂ (f := fun row => row.key.2)
    (g := fun copy => copy.key.2) h.placed
  rw [hnames]
  · exact nodup_names c' ids.callgent
  · intro row copy hcopy
    rcases hcopy with ⟨_, _, _, hkey, _⟩
    rw [hkey]

theorem DuplicateOf.correspond
    (h : DuplicateOf platform ids c c' source pks added)
    (hsound : Referenced c)
    (hplain : forall entry, entry ∈ entriesOf c source ->
      forall row, row ∈ endpointsAt c entry.key ->
        EndpointPlain platform entry row)
    (hplaced : forall row, row ∈ c.endpoints.rows ->
      (row.key.1 = source <-> exists entry, entry ∈ entriesOf c source ∧
        row.value.entryId = some entry.key)) :
    Correspond (EndpointAgrees pks
        ((entriesOf c source).zip (entriesOf c' ids.callgent)))
      (endpointsOf c source) (endpointsOf c' ids.callgent) := by
  have hagrees : forall row copy, Placed platform pks ids c source row copy ->
      EndpointAgrees pks
        ((entriesOf c source).zip (entriesOf c' ids.callgent)) row copy := by
    intro row copy hcopy
    rcases hcopy with ⟨numbered, hnumbered, hrow, hcopy⟩
    have hentry := List.fst_mem_of_mem_zipIdx hnumbered
    exact (h.agrees_iff hsound hnumbered hrow hcopy).mpr
      (hplain _ hentry row hrow)
  apply correspond_of_forall₂ (h.placed.imp hagrees)
  apply (List.perm_ext_iff_of_nodup h.nodup_placed.of_map
    (nodup_names c source).of_map).mpr
  intro row
  rw [mem_placedEndpoints]
  constructor
  · intro hrow
    exact List.mem_filter.mpr
      ⟨hrow.left, beq_iff_eq.mpr ((hplaced row hrow.left).mpr hrow.right)⟩
  · intro hrow
    rcases List.mem_filter.mp hrow with ⟨hmem, hof⟩
    exact ⟨hmem, (hplaced row hmem).mp (beq_iff_eq.mp hof)⟩

theorem DuplicateOf.agrees_of_correspond
    (h : DuplicateOf platform ids c c' source pks added)
    (hcorrespond : Correspond (EndpointAgrees pks
        ((entriesOf c source).zip (entriesOf c' ids.callgent)))
      (endpointsOf c source) (endpointsOf c' ids.callgent))
    {row : StoredEndpointRow} (hrow : row ∈ placedEndpoints c source) :
    row ∈ endpointsOf c source ∧ exists copy,
      Placed platform pks ids c source row copy ∧
        EndpointAgrees pks
          ((entriesOf c source).zip (entriesOf c' ids.callgent)) row copy := by
  rcases exists_zip_of_forall₂ h.placed hrow with ⟨copy, hzip, hcopy⟩
  rcases hcorrespond.exists_of_right (List.of_mem_zip hzip).right with
    ⟨other, hother, hagrees⟩
  have hsame : other = row := by
    rcases hagrees.entry with ⟨pair, hpair, hof, _⟩
    have hplaced : other ∈ placedEndpoints c source :=
      mem_placedEndpoints.mpr ⟨(List.mem_filter.mp hother).left, pair.1,
        (List.of_mem_zip hpair).left, hof⟩
    apply List.inj_on_of_nodup_map h.nodup_placed hplaced hrow
    rcases hcopy with ⟨_, _, _, hkey, _⟩
    rw [← hagrees.name, hkey]
  rw [hsame] at hother hagrees
  exact ⟨hother, copy, hcopy, hagrees⟩

theorem DuplicateOf.endpoints_iff
    (h : DuplicateOf platform ids c c' source pks added)
    (hsound : Referenced c) :
    Correspond (EndpointAgrees pks
        ((entriesOf c source).zip (entriesOf c' ids.callgent)))
      (endpointsOf c source) (endpointsOf c' ids.callgent) <->
      (forall entry, entry ∈ entriesOf c source ->
        forall row, row ∈ endpointsAt c entry.key ->
          EndpointPlain platform entry row) ∧
      forall row, row ∈ c.endpoints.rows ->
        (row.key.1 = source <->
          exists entry, entry ∈ entriesOf c source ∧
            row.value.entryId = some entry.key) := by
  constructor
  · intro hcorrespond
    constructor
    · intro entry hentry row hrow
      rcases List.mem_filter.mp hrow with ⟨hmem, hof⟩
      have hof := beq_iff_eq.mp hof
      rcases h.agrees_of_correspond hcorrespond
        (mem_placedEndpoints.mpr ⟨hmem, entry, hentry, hof⟩) with
        ⟨_, copy, ⟨numbered, hnumbered, hat, hcopy⟩, hagrees⟩
      have hsame : numbered.1 = entry := by
        have hkey : numbered.1.key = entry.key := Option.some.inj
          ((beq_iff_eq.mp (List.mem_filter.mp hat).right).symm.trans hof)
        have hfound := Table.findUnique_of_mem
          (List.mem_filter.mp (List.fst_mem_of_mem_zipIdx hnumbered)).left
        rw [hkey, Table.findUnique_of_mem (List.mem_filter.mp hentry).left]
          at hfound
        exact (Option.some.inj hfound).symm
      rw [← hsame]
      exact (h.agrees_iff hsound hnumbered hat hcopy).mp hagrees
    · intro row hmem
      constructor
      · intro hof
        rcases hcorrespond.exists_of_left
          (List.mem_filter.mpr ⟨hmem, beq_iff_eq.mpr hof⟩) with
          ⟨copy, _, hagrees⟩
        rcases hagrees.entry with ⟨pair, hpair, hentry, _⟩
        exact ⟨pair.1, (List.of_mem_zip hpair).left, hentry⟩
      · intro hat
        have hrow := (h.agrees_of_correspond hcorrespond
          (mem_placedEndpoints.mpr ⟨hmem, hat⟩)).left
        exact beq_iff_eq.mp (List.mem_filter.mp hrow).right
  · intro hplain
    exact h.correspond hsound hplain.left hplain.right

theorem DuplicateOf.realms_iff
    (h : DuplicateOf platform ids c c' source pks added) :
    List.Forall₂ RealmAgrees (realmsOf c source)
        (realmsOf c' ids.callgent) <->
      forall row, row ∈ realmsOf c source -> Constructed platform row :=
  forall₂_iff_forall h.realms fun _ _ _ hcopy => realmAgrees_iff hcopy

theorem DuplicateOf.entries_iff
    (h : DuplicateOf platform ids c c' source pks added)
    (hsound : Referenced c) :
    List.Forall₂ (EntryAgrees pks) (entriesOf c source)
        (entriesOf c' ids.callgent) <->
      forall numbered, numbered ∈ (entriesOf c source).zipIdx ->
        EntryPlain ids numbered := by
  have hagrees : forall numbered copy,
      numbered ∈ (entriesOf c source).zipIdx ->
        EntryDuplicated platform pks ids numbered copy ->
          (EntryAgrees pks numbered.1 copy <-> EntryPlain ids numbered) := by
    intro numbered copy hnumbered hcopy
    have hmem := List.fst_mem_of_mem_zipIdx hnumbered
    have hkeyed := hsound.entries _ (List.mem_filter.mp hmem).left
    exact entryAgrees_iff h.renaming hkeyed.keyed hcopy
  rw [← forall₂_iff_forall h.entries hagrees,
    ← List.forall₂_map_left_iff (f := Prod.fst), List.zipIdx_map_fst]

/-- A callgent that is committed or forked is copied exactly if it has only
what is read, as it is computed for the copy. -/
theorem faithful_iff_copyable {dto : DuplicateDto} {fromTenant toTenant : Int}
    (hsound : Referenced c) (hnew : Unused c ids.callgent)
    (h : duplicateCallgent platform c source dto fromTenant toTenant ids =
      .ok c') :
    Faithful c c' source ids.callgent <-> Copyable platform ids c source := by
  rcases exists_duplicateOf hnew h with ⟨pks, added, hof⟩
  have hrealms := hof.realms_iff
  have hentries := hof.entries_iff hsound
  have hendpoints := hof.endpoints_iff hsound
  rw [hof.renamed] at hentries hendpoints
  constructor
  · intro hfaithful
    have hplain := hendpoints.mp hfaithful.endpoints
    exact ⟨hrealms.mp hfaithful.realms, hentries.mp hfaithful.entries,
      hplain.left, hplain.right⟩
  · intro hcopyable
    exact ⟨hrealms.mpr hcopyable.realms, hentries.mpr hcopyable.entries,
      hendpoints.mpr ⟨hcopyable.endpoints, hcopyable.placed⟩⟩

end Stored

/-! ## The shop and its copy -/

def shopDto : DuplicateDto := ⟨"shop".toList, none, none, none⟩

def shopTables : Tables :=
  (run (step hubHosts) .empty (openShop [])).getD .empty

theorem run_openShop :
    run (step hubHosts) .empty (openShop []) = some shopTables := rfl

theorem unused_hub : Unused shopTables "hub".toList := by
  have hrealms : shopTables.realms.rows.all fun row =>
      row.key.1 == "shop".toList := rfl
  have hentries : shopTables.entries.rows.all fun row =>
      row.value.callgentId == "shop".toList := rfl
  have hendpoints : shopTables.endpoints.rows.all fun row =>
      row.key.1 == "shop".toList := rfl
  have hne : "shop".toList ≠ "hub".toList := by decide
  constructor
  · intro row hrow
    rw [beq_iff_eq.mp (List.all_eq_true.mp hrealms row hrow)]
    exact hne
  · intro row hrow
    rw [beq_iff_eq.mp (List.all_eq_true.mp hentries row hrow)]
    exact hne
  · intro row hrow
    rw [beq_iff_eq.mp (List.all_eq_true.mp hendpoints row hrow)]
    exact hne

theorem copyable_shop :
    Copyable hubHosts hubIds shopTables "shop".toList := by
  have hendpoints : forall row, row ∈ shopTables.endpoints.rows ->
      row.key.1 = "shop".toList ∧ row.value.entryId = some "e3".toList ∧
        row.value.servers = [] ∧ row.value.cacheKey = none ∧
        row.value.cacheTtl = some 0 ∧ row.value.isAsync = false := by
    intro row hrow
    rw [List.mem_singleton.mp hrow]
    exact ⟨rfl, rfl, rfl, rfl, rfl, rfl⟩
  constructor
  · intro row hrow
    rw [List.mem_singleton.mp hrow]
    exact ⟨.apiKey, "shop.example".toList, rfl, rfl, rfl, rfl, rfl⟩
  · have hplain : (entriesOf shopTables "shop".toList).zipIdx.all
        fun numbered => !numbered.1.value.name.isEmpty &&
          replaceId numbered.1.value.host (hubIds.entry numbered.2) ==
            numbered.1.value.host := rfl
    intro numbered hnumbered
    have hchecked := List.all_eq_true.mp hplain numbered hnumbered
    rw [Bool.and_eq_true, beq_iff_eq] at hchecked
    refine ⟨?_, fun _ => hchecked.right⟩
    intro hnil
    rw [hnil] at hchecked
    cases hchecked.left
  · intro entry _ row hrow
    rcases hendpoints row (List.mem_filter.mp hrow).left with
      ⟨_, _, hservers, hcacheKey, hcacheTtl, hasync⟩
    refine ⟨hservers, hcacheKey, hcacheTtl, ?_⟩
    rw [hasync]
    rfl
  · intro row hrow
    rcases hendpoints row hrow with ⟨hof, hentry, _⟩
    have hserver : ⟨3, "e3".toList,
        shopEntry.stored "https://shop.example/v1".toList⟩ ∈
          entriesOf shopTables "shop".toList :=
      List.mem_cons_of_mem _ (List.mem_cons_of_mem _ List.mem_cons_self)
    exact iff_of_true hof ⟨_, hserver, hentry⟩

def hubTables : Tables :=
  match commitToHub hubHosts shopTables 1 "shop".toList shopDto hubIds with
  | .ok c => c
  | .error _ => shopTables

theorem commit_shop :
    commitToHub hubHosts shopTables 1 "shop".toList shopDto hubIds =
      .ok hubTables := rfl

theorem faithful_commitShop :
    run (step hubHosts) .empty (openShop []) = some shopTables ∧
      commitToHub hubHosts shopTables 1 "shop".toList shopDto hubIds =
        .ok hubTables ∧
      Faithful shopTables hubTables "shop".toList "hub".toList := by
  have hsound := referenced_run documented_hubHosts run_openShop
  exact ⟨run_openShop, commit_shop,
    (faithful_iff_copyable hsound unused_hub commit_shop).mpr copyable_shop⟩

/-- The servers of an operation are not read. -/
theorem not_faithful_servers :
    exists c c', run (step hubHosts) .empty
        (openShop [.str "https://eu.shop.example".toList]) = some c ∧
      commitToHub hubHosts c 1 "shop".toList shopDto hubIds = .ok c' ∧
      ¬ Faithful c c' "shop".toList "hub".toList := by
  refine ⟨_, _, rfl, rfl, ?_⟩
  intro h
  rcases h.endpoints.exists_of_left List.mem_cons_self with
    ⟨copy, hcopy, hagrees⟩
  have hservers := hagrees.servers
  rw [List.mem_singleton.mp hcopy] at hservers
  cases hservers

end Hub
end CallgentApi
