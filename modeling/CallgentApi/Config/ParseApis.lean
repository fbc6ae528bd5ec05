import CallgentApi.Lib.Fallible
import CallgentApi.Event.Engine

/-!
# Parsing an API

`parseApis` reads an OpenAPI document and turns every field of every path item
into an api of that method.
-/

namespace CallgentApi
namespace Config

open Js Event

/-! ## Values of the language -/

def displayText (v : Value) : Text :=
  (v.map Json.display).getD "undefined".toList

def isTruthy (v : Value) : Bool :=
  v.any Json.truthy

/-- `v || ''` in a template string. -/
def displayed (v : Value) : Text :=
  if isTruthy v then displayText v else []

/-- `!!v?.length`. -/
def hasLength : Value -> Bool
  | some (.str s) => !s.isEmpty
  | some (.arr items) => !items.isEmpty
  | some (.obj fields) => isTruthy (fields.lookup "length".toList)
  | _ => false

def displayItem : Json -> Text
  | .null => []
  | v => v.display

/-- `Object.entries(v)`; a letter of two code units stands at both. -/
def entriesOf : Json -> Except Thrown (List (Text × Json))
  | .null =>
      .error (.typeError "Cannot convert undefined or null to object".toList)
  | .obj fields => .ok fields
  | .arr items => .ok (items.zipIdx.map fun item => (decimal item.2, item.1))
  | .str s =>
      let codes := s.flatMap fun c =>
        if c.toNat < 0x10000 then [c] else [c, c]
      .ok (codes.zipIdx.map fun c => (decimal c.2, .str [c.1]))
  | .bool _ | .num _ => .ok []

/-! ## `parseApis` -/

structure ParsedApi where
  path : Text
  method : Text
  summary : Text
  description : Text
  securities : Value
  servers : Value
  parameters : Value
  requestBody : Value
  responses : Value
  rawJson : Json

structure ParsedSpec where
  apis : List ParsedApi
  securitySchemes : Value
  servers : Value
  securities : Value

def operationSummary (restApi : Json) : Text :=
  let operationId := restApi.field "operationId".toList
  let summary := restApi.field "summary".toList
  displayed operationId ++
    (if isTruthy operationId && isTruthy summary then ": ".toList else []) ++
    displayed summary

/-- `restApi.tags.join(', ')` where the tags have a length. -/
def tagsText (tags : Value) : Except Thrown Text :=
  if hasLength tags then
    match tags with
    | some (.arr items) =>
        .ok ("Tags: ".toList ++
          ", ".toList.intercalate (items.map displayItem))
    | _ => .error (.typeError "restApi.tags.join is not a function".toList)
  else .ok []

def operationDescription (restApi : Json) : Except Thrown Text := do
  let description := restApi.field "description".toList
  let tags := restApi.field "tags".toList
  let text ← tagsText tags
  return displayed description ++
    (if isTruthy description && hasLength tags then "; ".toList else []) ++
    text

def parseOperation (path method : Text) (restApi : Json) :
    Except Thrown ParsedApi :=
  match restApi with
  | .null =>
      .error (.typeError
        "Cannot read properties of null (reading 'operationId')".toList)
  | restApi => do
      let description ← operationDescription restApi
      return {
        path := path
        method := toUpperCase method
        summary := operationSummary restApi
        description := description
        securities := restApi.field "security".toList
        servers := restApi.field "servers".toList
        parameters := restApi.field "parameters".toList
        requestBody := restApi.field "requestBody".toList
        responses := restApi.field "responses".toList
        rawJson := restApi }

def parsePath (named : Text × Json) : Except Thrown (List ParsedApi) := do
  let entries ← entriesOf named.2
  entries.mapM fun entry => parseOperation named.1 entry.1 entry.2

/-- `Object.entries(paths)`, when there are paths. -/
def pathEntries (paths : Value) : Except Thrown (List (Text × Json)) :=
  match paths.filter Json.truthy with
  | none => .ok []
  | some paths => entriesOf paths

def specOf (json : Json) : Except Thrown ParsedSpec := do
  let openapi := json.field "openapi".toList
  match openapi with
  | some (.str version) =>
      if startsWith version "3.0".toList then
        let ps ← pathEntries (json.field "paths".toList)
        match ps with
        | [] => .error (.notFound "No API found in the text.".toList)
        | ps =>
            let apis ← ps.mapM parsePath
            return {
              apis := apis.flatten
              securitySchemes := (json.field "components".toList).bind
                fun components => components.field "securitySchemes".toList
              servers := json.field "servers".toList
              securities := json.field "security".toList }
      else
        .error (.badRequest
          ("Only openAPI `3.0.x` is supported now, openapi=".toList ++
            version))
  | none | some .null =>
      .error (.badRequest
        ("Only openAPI `3.0.x` is supported now, openapi=".toList ++
          displayText openapi))
  | some _ =>
      .error (.typeError "openapi?.startsWith is not a function".toList)

inductive SpecFormat where
  | json
  | yaml
  | text
deriving DecidableEq

def SpecFormat.name : SpecFormat -> Text
  | .json => "json".toList
  | .yaml => "yaml".toList
  | .text => "text".toList

/-- The libraries that read a text and resolve the references of a
document. -/
structure SpecReaders where
  postmanToOpenApi : Text -> Except Thrown Text
  parseJson : Text -> Except Thrown Json
  parseYaml : Text -> Except Thrown Json
  dereference : Json -> Except Thrown Json

def isPostman (text : Text) (format : Option SpecFormat) : Bool :=
  (format.isNone || format == some .json) && startsWith text ['{'] &&
    decide (0 < indexOfText text
      "https://schema.getpostman.com/json/collection".toList 0)

def readFormat (readers : SpecReaders) (text : Text)
    (format : Option SpecFormat) : Except Thrown Value :=
  match format with
  | some .json => (readers.parseJson text).map some
  | some .yaml => (readers.parseYaml text).map some
  | _ =>
      match readers.parseJson text with
      | .ok json => .ok (some json)
      | .error _ =>
          match readers.parseYaml text with
          | .ok json => .ok (some json)
          | .error _ => .ok none

def readText (readers : SpecReaders) (text : Text)
    (format : Option SpecFormat) : Except Thrown Json := do
  let (text, format) ←
    if isPostman text format then
      (readers.postmanToOpenApi text).map fun text => (text, some .json)
    else .ok (text, format)
  let json ← readFormat readers text format
  match json with
  | some json =>
      if isTruthy (json.field "openapi".toList) &&
          isTruthy (json.field "paths".toList) then return json
      else throw (Thrown.plain "TODO: Not implemented.".toList)
  | none => throw (Thrown.plain "TODO: Not implemented.".toList)

/-- The name of the format in an error: of the one that was given, unless the
text has been converted before. -/
def formatName (readers : SpecReaders) (text : Text)
    (format : Option SpecFormat) : Text :=
  if isPostman text format &&
      (readers.postmanToOpenApi text).toBool then SpecFormat.json.name
  else (format.map SpecFormat.name).getD "text".toList

def parseApis (readers : SpecReaders) (text : Text)
    (format : Option SpecFormat) : Except Thrown ParsedSpec :=
  match readText readers text format with
  | .error e =>
      .error (.badRequest ("Failed to parse content as ".toList ++
        formatName readers text format ++ " format, msg: ".toList ++
        e.message))
  | .ok json =>
      match readers.dereference json with
      | .error e =>
          .error (.badRequest
            ("Invalid openAPI.JSON, failed to dereference, ".toList ++
              e.message))
      | .ok json => specOf json

/-! ## Documents -/

def httpMethods : List Text :=
  ["get".toList, "put".toList, "post".toList, "delete".toList,
    "options".toList, "head".toList, "patch".toList, "trace".toList]

def isExtension (key : Text) : Bool :=
  startsWith key "x-".toList

structure ValidOperation (v : Json) : Prop where
  isObject : exists fields, v = .obj fields
  texts : forall key x,
    key ∈ ["operationId".toList, "summary".toList, "description".toList] ->
      v.field key = some x -> exists s, x = .str s
  lists : forall key x,
    key ∈ ["tags".toList, "parameters".toList, "servers".toList,
        "security".toList] ->
      v.field key = some x -> exists items, x = .arr items

structure PathMetadata (entry : Text × Json) : Prop where
  name : entry.1 ∈ ["summary".toList, "description".toList, "servers".toList,
    "parameters".toList] ∨ isExtension entry.1 = true
  text : entry.1 ∈ ["summary".toList, "description".toList] ->
    exists s, entry.2 = .str s
  list : entry.1 ∈ ["servers".toList, "parameters".toList] ->
    exists items, entry.2 = .arr items

structure ValidPathItem (fields : List (Text × Json)) : Prop where
  distinct : (fields.map Prod.fst).Nodup
  entries : forall entry, entry ∈ fields ->
    (entry.1 ∈ httpMethods ∧ ValidOperation entry.2) ∨ PathMetadata entry

def isPath (key : Text) : Bool :=
  startsWith key ['/']

structure ValidPaths (paths : List (Text × Json)) : Prop where
  distinct : (paths.map Prod.fst).Nodup
  named : forall named, named ∈ paths ->
    isPath named.1 = true ∨ isExtension named.1 = true
  items : forall named, named ∈ paths -> isPath named.1 = true ->
    exists fields, named.2 = .obj fields ∧ ValidPathItem fields

/-- A document of OpenAPI `3.0.x` without references. -/
structure Document (json : Json) (paths : List (Text × Json)) : Prop where
  version : exists version, json.field "openapi".toList = some (.str version) ∧
    startsWith version "3.0".toList = true
  paths_eq : json.field "paths".toList = some (.obj paths)
  valid : ValidPaths paths

/-- An operation of a document, with the parameters that its path item
shares. -/
structure PathOperation where
  path : Text
  method : Text
  operation : Json
  shared : Value

def operationOf (named : Text × Json) (entry : Text × Json) :
    Option PathOperation :=
  if entry.1 ∈ httpMethods then
    some ⟨named.1, entry.1, entry.2, named.2.field "parameters".toList⟩
  else none

def fieldsOf : Json -> List (Text × Json)
  | .obj fields => fields
  | _ => []

def pathOperations (named : Text × Json) : List PathOperation :=
  if isPath named.1 then (fieldsOf named.2).filterMap (operationOf named)
  else []

def operationsOf (paths : List (Text × Json)) : List PathOperation :=
  paths.flatMap pathOperations

def items : Value -> List Json
  | some (.arr items) => items
  | _ => []

def SameParameter (p q : Json) : Prop :=
  p.field "name".toList = q.field "name".toList ∧
    p.field "in".toList = q.field "in".toList

/-- An api has the fields of an operation, and the shared parameters that the
operation does not override. -/
structure Describes (o : PathOperation) (api : ParsedApi) : Prop where
  path : api.path = o.path
  method : api.method = toUpperCase o.method
  summary : api.summary = operationSummary o.operation
  description : operationDescription o.operation = .ok api.description
  securities : api.securities = o.operation.field "security".toList
  servers : api.servers = o.operation.field "servers".toList
  requestBody : api.requestBody = o.operation.field "requestBody".toList
  responses : api.responses = o.operation.field "responses".toList
  rawJson : api.rawJson = o.operation
  own : forall p, p ∈ items (o.operation.field "parameters".toList) ->
    p ∈ items api.parameters
  shared : forall p, p ∈ items o.shared ->
    (exists q, q ∈ items (o.operation.field "parameters".toList) ∧
      SameParameter p q) ∨ p ∈ items api.parameters

/-- There is one api for each operation, in any order, and no other. -/
def ParsesOperations (result : Except Thrown ParsedSpec)
    (paths : List (Text × Json)) : Prop :=
  exists spec apis, result = .ok spec ∧ spec.apis.Perm apis ∧
    List.Forall₂ Describes (operationsOf paths) apis

/-- The entries of a path are operations, and those of an extension are
none. -/
def OnlyOperations (named : Text × Json) : Prop :=
  if isPath named.1 then
    forall entry, entry ∈ fieldsOf named.2 -> entry.1 ∈ httpMethods
  else entriesOf named.2 = .ok []

/-! ## The apis of operations -/

theorem exists_tagsText {tags : Value}
    (h : forall x, tags = some x -> exists items, x = .arr items) :
    exists text, tagsText tags = .ok text := by
  cases tags with
  | none => exact ⟨[], rfl⟩
  | some x =>
      rcases h x rfl with ⟨items, heq⟩
      rw [heq]
      unfold tagsText
      split
      · exact ⟨_, rfl⟩
      · exact ⟨[], rfl⟩

theorem exists_parseOperation (path method : Text) {v : Json} {shared : Value}
    (hvalid : ValidOperation v) (hshared : items shared = []) :
    exists api, parseOperation path method v = .ok api ∧
      Describes ⟨path, method, v, shared⟩ api := by
  have htags : "tags".toList ∈ ["tags".toList, "parameters".toList,
      "servers".toList, "security".toList] := List.mem_cons_self
  rcases hvalid.isObject with ⟨fields, hobject⟩
  rcases exists_tagsText (hvalid.lists "tags".toList · htags) with
    ⟨text, htext⟩
  have hdescription : operationDescription v = .ok
      (displayed (v.field "description".toList) ++
        (if isTruthy (v.field "description".toList) &&
          hasLength (v.field "tags".toList) then "; ".toList else []) ++
        text) := by
    unfold operationDescription
    dsimp only
    rw [htext]
    rfl
  have hparse : parseOperation path method v =
      (operationDescription v >>= fun description => .ok
        { path := path
          method := toUpperCase method
          summary := operationSummary v
          description := description
          securities := v.field "security".toList
          servers := v.field "servers".toList
          parameters := v.field "parameters".toList
          requestBody := v.field "requestBody".toList
          responses := v.field "responses".toList
          rawJson := v }) := by
    rw [hobject]
    rfl
  rw [hdescription] at hparse
  refine ⟨_, hparse, ?_⟩
  constructor
  case description => exact hdescription
  case own =>
      intro p hp
      exact hp
  case shared =>
      intro p hp
      rw [hshared] at hp
      cases hp
  all_goals rfl

theorem length_of_parsePath {named : Text × Json} {apis : List ParsedApi}
    (h : parsePath named = .ok apis) :
    exists entries, entriesOf named.2 = .ok entries ∧
      apis.length = entries.length := by
  rcases Fallible.exists_of_bind_ok h with ⟨entries, hentries, hmap⟩
  exact ⟨entries, hentries, Fallible.length_of_mapM hmap⟩

theorem entriesOf_eq {v : Json} {fields : List (Text × Json)}
    (h : v = .obj fields) : entriesOf v = .ok fields ∧ fieldsOf v = fields := by
  rw [h]
  exact ⟨rfl, rfl⟩

theorem length_pathOperations {named : Text × Json} {apis : List ParsedApi}
    (hitem : isPath named.1 = true ->
      exists fields, named.2 = .obj fields ∧ ValidPathItem fields)
    (h : parsePath named = .ok apis) :
    (pathOperations named).length ≤ apis.length ∧
      (apis.length ≤ (pathOperations named).length -> OnlyOperations named) := by
  rcases length_of_parsePath h with ⟨entries, hentries, hlength⟩
  unfold pathOperations OnlyOperations
  by_cases hpath : isPath named.1 = true
  · rcases hitem hpath with ⟨fields, hobject, _⟩
    rcases entriesOf_eq hobject with ⟨hof, hfields⟩
    rw [hof] at hentries
    rw [if_pos hpath, if_pos hpath, hfields, hlength,
      ← Except.ok.inj hentries]
    refine ⟨List.length_filterMap_le _ _, ?_⟩
    intro hle entry hentry
    by_contra hnot
    have hnone : operationOf named entry = none := if_neg hnot
    rcases List.append_of_mem hentry with ⟨before, after, heq⟩
    rw [heq, List.filterMap_append, List.filterMap_cons, hnone] at hle
    have hbefore := List.length_filterMap_le (operationOf named) before
    have hafter := List.length_filterMap_le (operationOf named) after
    simp only [List.length_append, List.length_cons] at hle
    omega
  · rw [if_neg hpath, if_neg hpath, hentries]
    refine ⟨Nat.zero_le _, ?_⟩
    intro hle
    have hzero : entries.length = 0 := by
      rw [← hlength]
      exact Nat.le_zero.mp hle
    rw [List.length_eq_zero_iff.mp hzero]

theorem length_operationsOf {paths : List (Text × Json)}
    {results : List (List ParsedApi)}
    (hitems : forall named, named ∈ paths -> isPath named.1 = true ->
      exists fields, named.2 = .obj fields ∧ ValidPathItem fields)
    (h : paths.mapM parsePath = .ok results) :
    (operationsOf paths).length ≤ results.flatten.length ∧
      (results.flatten.length ≤ (operationsOf paths).length ->
        forall named, named ∈ paths -> OnlyOperations named) := by
  induction paths generalizing results with
  | nil =>
      cases h
      refine ⟨Nat.le_refl 0, ?_⟩
      intro _ named hnamed
      cases hnamed
  | cons first rest ih =>
      rw [List.mapM_cons] at h
      rcases Fallible.exists_of_bind_ok h with ⟨apis, hfirst, h⟩
      rcases Fallible.exists_of_bind_ok h with ⟨others, hrest, h⟩
      cases h
      have hhead := length_pathOperations
        (hitems first List.mem_cons_self) hfirst
      have htail := ih
        (fun named hnamed => hitems named (List.mem_cons_of_mem first hnamed))
        hrest
      have hsplit : (operationsOf (first :: rest)).length =
          (pathOperations first).length + (operationsOf rest).length := by
        unfold operationsOf
        rw [List.flatMap_cons, List.length_append]
      rw [hsplit, List.flatten_cons, List.length_append]
      refine ⟨Nat.add_le_add hhead.left htail.left, ?_⟩
      intro hle named hnamed
      have hfirstLe := hhead.left
      have hrestLe := htail.left
      rcases List.mem_cons.mp hnamed with heq | hmem
      · rw [heq]
        exact hhead.right (by omega)
      · exact htail.right (by omega) named hmem

theorem items_shared {named : Text × Json} {fields : List (Text × Json)}
    (hobject : named.2 = .obj fields)
    (honly : forall entry, entry ∈ fields -> entry.1 ∈ httpMethods) :
    items (named.2.field "parameters".toList) = [] := by
  have hmethod : "parameters".toList ∉ httpMethods := by decide
  rw [hobject]
  show items (fields.lookup "parameters".toList) = []
  cases hfound : fields.lookup "parameters".toList with
  | none => rfl
  | some v =>
      rcases List.lookup_eq_some_iff.mp hfound with ⟨before, after, heq, _⟩
      have hmem : ("parameters".toList, v) ∈ fields := by
        rw [heq]
        exact List.mem_append_right before List.mem_cons_self
      exact absurd (honly _ hmem) hmethod

theorem exists_parseEntries {named : Text × Json}
    {entries : List (Text × Json)}
    (hshared : items (named.2.field "parameters".toList) = [])
    (hvalid : forall entry, entry ∈ entries ->
      entry.1 ∈ httpMethods ∧ ValidOperation entry.2) :
    exists apis,
      entries.mapM (fun entry => parseOperation named.1 entry.1 entry.2) =
        .ok apis ∧
      List.Forall₂ Describes (entries.filterMap (operationOf named)) apis := by
  induction entries with
  | nil => exact ⟨[], rfl, .nil⟩
  | cons entry rest ih =>
      rcases hvalid entry List.mem_cons_self with ⟨hmethod, hoperation⟩
      rcases exists_parseOperation named.1 entry.1 hoperation hshared with
        ⟨api, hparse, hdescribes⟩
      rcases ih (fun other hother =>
        hvalid other (List.mem_cons_of_mem entry hother)) with
        ⟨apis, hrest, hall⟩
      have hsome : operationOf named entry = some ⟨named.1, entry.1, entry.2,
          named.2.field "parameters".toList⟩ := if_pos hmethod
      refine ⟨api :: apis, ?_, ?_⟩
      · rw [List.mapM_cons, hparse, hrest]
        rfl
      · rw [List.filterMap_cons, hsome]
        exact .cons hdescribes hall

theorem exists_parsePath {named : Text × Json}
    (hitem : isPath named.1 = true ->
      exists fields, named.2 = .obj fields ∧ ValidPathItem fields)
    (honly : OnlyOperations named) :
    exists apis, parsePath named = .ok apis ∧
      List.Forall₂ Describes (pathOperations named) apis := by
  unfold OnlyOperations at honly
  unfold pathOperations parsePath
  by_cases hpath : isPath named.1 = true
  · rcases hitem hpath with ⟨fields, hobject, hfields⟩
    rcases entriesOf_eq hobject with ⟨hof, hfieldsOf⟩
    rw [if_pos hpath, hfieldsOf] at honly
    rw [if_pos hpath, hfieldsOf, hof]
    apply exists_parseEntries (items_shared hobject honly)
    intro entry hentry
    refine ⟨honly entry hentry, ?_⟩
    rcases hfields.entries entry hentry with ⟨_, hvalid⟩ | hmetadata
    · exact hvalid
    · have hnot : entry.1 ∉ ["summary".toList, "description".toList,
          "servers".toList, "parameters".toList] ∧
            isExtension entry.1 = false := by
        have hall : forall method, method ∈ httpMethods ->
            method ∉ ["summary".toList, "description".toList,
              "servers".toList, "parameters".toList] ∧
              isExtension method = false := by
          decide
        exact hall entry.1 (honly entry hentry)
      rcases hmetadata.name with hname | hextension
      · exact absurd hname hnot.left
      · rw [hnot.right] at hextension
        cases hextension
  · rw [if_neg hpath] at honly ⊢
    rw [honly]
    exact ⟨[], rfl, .nil⟩

theorem exists_parsePaths {paths : List (Text × Json)}
    (hitems : forall named, named ∈ paths -> isPath named.1 = true ->
      exists fields, named.2 = .obj fields ∧ ValidPathItem fields)
    (honly : forall named, named ∈ paths -> OnlyOperations named) :
    exists results, paths.mapM parsePath = .ok results ∧
      List.Forall₂ Describes (operationsOf paths) results.flatten := by
  induction paths with
  | nil => exact ⟨[], rfl, .nil⟩
  | cons first rest ih =>
      rcases exists_parsePath (hitems first List.mem_cons_self)
        (honly first List.mem_cons_self) with ⟨apis, hparse, hfirst⟩
      rcases ih
        (fun named hnamed => hitems named (List.mem_cons_of_mem first hnamed))
        (fun named hnamed => honly named (List.mem_cons_of_mem first hnamed))
        with ⟨results, hmap, hrest⟩
      refine ⟨apis :: results, ?_, ?_⟩
      · rw [List.mapM_cons, hparse, hmap]
        rfl
      · exact List.rel_append hfirst hrest

/-! ## Which documents are parsed as they should be -/

theorem specOf_document {json : Json} {first : Text × Json}
    {rest : List (Text × Json)} (h : Document json (first :: rest)) :
    specOf json = ((first :: rest).mapM parsePath >>= fun apis => .ok
      { apis := apis.flatten
        securitySchemes := (json.field "components".toList).bind
          fun components => components.field "securitySchemes".toList
        servers := json.field "servers".toList
        securities := json.field "security".toList }) := by
  rcases h.version with ⟨version, hversion, hstarts⟩
  unfold specOf
  dsimp only
  rw [hversion]
  dsimp only
  rw [if_pos hstarts, h.paths_eq]
  rfl

theorem specOf_no_paths {json : Json} (h : Document json []) :
    specOf json = .error (.notFound "No API found in the text.".toList) := by
  rcases h.version with ⟨version, hversion, hstarts⟩
  unfold specOf
  dsimp only
  rw [hversion]
  dsimp only
  rw [if_pos hstarts, h.paths_eq]
  rfl

theorem parses_specOf_iff {json : Json} {paths : List (Text × Json)}
    (h : Document json paths) :
    ParsesOperations (specOf json) paths <->
      paths ≠ [] ∧ forall named, named ∈ paths -> OnlyOperations named := by
  cases paths with
  | nil =>
      constructor
      · intro hparses
        rcases hparses with ⟨spec, _, hspec, _⟩
        rw [specOf_no_paths h] at hspec
        cases hspec
      · intro hne
        exact absurd rfl hne.left
  | cons first rest =>
      have hitems := h.valid.items
      constructor
      · intro hparses
        rcases hparses with ⟨spec, apis, hspec, hperm, hall⟩
        rw [specOf_document h] at hspec
        rcases Fallible.exists_of_bind_ok hspec with ⟨results, hmap, heq⟩
        cases heq
        have hlength : results.flatten.length ≤
            (operationsOf (first :: rest)).length := by
          rw [hall.length_eq]
          exact Nat.le_of_eq hperm.length_eq
        exact ⟨List.cons_ne_nil _ _,
          (length_operationsOf hitems hmap).right hlength⟩
      · intro honly
        rcases exists_parsePaths hitems honly.right with
          ⟨results, hmap, hall⟩
        rw [specOf_document h, hmap]
        exact ⟨_, _, rfl, List.Perm.refl _, hall⟩

/-- The apis of a document are its operations exactly when it has paths, its
path items have nothing but operations, and its extensions are empty. -/
theorem parses_operations_iff {readers : SpecReaders} {text : Text}
    {format : Option SpecFormat} {raw json : Json}
    {paths : List (Text × Json)}
    (hread : readText readers text format = .ok raw)
    (hresolve : readers.dereference raw = .ok json)
    (h : Document json paths) :
    ParsesOperations (parseApis readers text format) paths <->
      paths ≠ [] ∧ forall named, named ∈ paths -> OnlyOperations named := by
  have hparse : parseApis readers text format = specOf json := by
    unfold parseApis
    rw [hread]
    dsimp only
    rw [hresolve]
  rw [hparse]
  exact parses_specOf_iff h

/-! ## A document of one operation -/

def listPets : Json :=
  .obj [("operationId".toList, .str "listPets".toList),
    ("responses".toList, .obj [("default".toList,
      .obj [("description".toList, .str "pets".toList)])])]

def petLimit : Json :=
  .obj [("name".toList, .str "limit".toList),
    ("in".toList, .str "query".toList)]

/-- The path of the pets, with what its item has besides the operation. -/
def petPaths (shared : List (Text × Json)) : List (Text × Json) :=
  [("/pets".toList, .obj (("get".toList, listPets) :: shared))]

def petDocument (shared : List (Text × Json)) : Json :=
  .obj [("openapi".toList, .str "3.0.3".toList),
    ("paths".toList, .obj (petPaths shared))]

def petYaml : Text :=
  ("openapi: 3.0.3\npaths:\n  /pets:\n    get:\n" ++
    "      operationId: listPets\n      responses:\n" ++
    "        default:\n          description: pets\n").toList

def sharedYaml : Text :=
  "    parameters:\n    - name: limit\n      in: query\n".toList

def sharedLimit : List (Text × Json) :=
  [("parameters".toList, .arr [petLimit])]

def petReaders : SpecReaders where
  postmanToOpenApi _ := .error (.plain "not a collection".toList)
  parseJson _ := .error (.plain "Unexpected token".toList)
  parseYaml text :=
    if text = petYaml then .ok (petDocument [])
    else if text = petYaml ++ sharedYaml then .ok (petDocument sharedLimit)
    else .error (.plain "bad indentation".toList)
  dereference json := .ok json

theorem validOperation_listPets : ValidOperation listPets where
  isObject := ⟨_, rfl⟩
  texts := by
    intro key x hkey hx
    simp only [List.mem_cons, List.not_mem_nil, or_false] at hkey
    rcases hkey with rfl | rfl | rfl
    · exact ⟨_, (Option.some.inj hx).symm⟩
    · cases hx
    · cases hx
  lists := by
    intro key x hkey hx
    simp only [List.mem_cons, List.not_mem_nil, or_false] at hkey
    rcases hkey with rfl | rfl | rfl | rfl
    all_goals cases hx

theorem document_petDocument {shared : List (Text × Json)}
    (hdistinct : (("get".toList :: shared.map Prod.fst)).Nodup)
    (hshared : forall entry, entry ∈ shared -> PathMetadata entry) :
    Document (petDocument shared) (petPaths shared) where
  version := ⟨_, rfl, rfl⟩
  paths_eq := rfl
  valid := by
    constructor
    · exact List.nodup_singleton _
    · intro named hnamed
      rw [List.mem_singleton.mp hnamed]
      exact .inl rfl
    · intro named hnamed _
      rw [List.mem_singleton.mp hnamed]
      refine ⟨_, rfl, hdistinct, ?_⟩
      intro entry hentry
      rcases List.mem_cons.mp hentry with heq | hmem
      · rw [heq]
        exact .inl ⟨List.mem_cons_self, validOperation_listPets⟩
      · exact .inr (hshared entry hmem)

theorem readText_yaml {readers : SpecReaders} {text : Text} {json : Json}
    (h : readers.parseYaml text = .ok json)
    (hopenapi : isTruthy (json.field "openapi".toList) = true)
    (hpaths : isTruthy (json.field "paths".toList) = true) :
    readText readers text (some .yaml) = .ok json := by
  have hformat : readFormat readers text (some .yaml) = .ok (some json) := by
    unfold readFormat
    rw [h]
    rfl
  unfold readText
  rw [show isPostman text (some .yaml) = false from rfl]
  show (readFormat readers text (some .yaml) >>= _) = _
  rw [hformat]
  show (if _ then _ else _) = _
  rw [hopenapi, hpaths]
  rfl

theorem parses_operations_petDocument :
    ParsesOperations (parseApis petReaders petYaml (some .yaml))
        (petPaths []) <->
      petPaths [] ≠ [] ∧
        forall named, named ∈ petPaths [] -> OnlyOperations named := by
  have hdocument : Document (petDocument []) (petPaths []) := by
    apply document_petDocument (List.nodup_singleton _)
    intro entry hentry
    cases hentry
  have hyaml : petReaders.parseYaml petYaml = .ok (petDocument []) := by
    unfold petReaders
    dsimp only
    rw [if_pos rfl]
  exact parses_operations_iff (readText_yaml hyaml rfl rfl) rfl hdocument

/-- The shared parameters of a path become an api of their own. -/
theorem shared_parameters_parsed :
    exists raw json,
      readText petReaders (petYaml ++ sharedYaml) (some .yaml) = .ok raw ∧
      petReaders.dereference raw = .ok json ∧
      Document json (petPaths sharedLimit) ∧
      ¬ ParsesOperations
        (parseApis petReaders (petYaml ++ sharedYaml) (some .yaml))
        (petPaths sharedLimit) := by
  have hlimit : Document (petDocument sharedLimit) (petPaths sharedLimit) := by
    apply document_petDocument (by decide)
    intro entry hentry
    rw [List.mem_singleton.mp hentry]
    constructor
    · exact .inl (by decide)
    · intro hname
      exact absurd hname (by decide)
    · intro _
      exact ⟨_, rfl⟩
  have hyaml : petReaders.parseYaml (petYaml ++ sharedYaml) =
      .ok (petDocument sharedLimit) := by
    have hne : petYaml ++ sharedYaml ≠ petYaml := by
      intro heq
      have hlength := congrArg List.length heq
      rw [List.length_append] at hlength
      have hshared : 0 < sharedYaml.length := by decide
      omega
    unfold petReaders
    dsimp only
    rw [if_neg hne, if_pos rfl]
  have hread := readText_yaml hyaml rfl rfl
  refine ⟨_, _, hread, rfl, hlimit, ?_⟩
  unfold parseApis
  rw [hread]
  show ¬ ParsesOperations (specOf (petDocument sharedLimit)) _
  rw [parses_specOf_iff hlimit]
  intro honly
  have hmethods := honly.right _ List.mem_cons_self
  have hmethod : "parameters".toList ∈ httpMethods :=
    hmethods _ (List.mem_cons_of_mem _ List.mem_cons_self)
  exact absurd hmethod (by decide)

end Config
end CallgentApi
