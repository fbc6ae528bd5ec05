import CallgentApi.Lib.Table
import CallgentApi.Lib.Transition
import CallgentApi.Repo.Select
import CallgentApi.Agents.Templates

/-!
# The functions that map requests to arguments

A client that names the endpoint has its request mapped to the arguments by a
function that the model has written.  It is tried on the request before it is
stored, for the client entry and the endpoint, and it is written again when it
throws on a later one.
-/

namespace CallgentApi
namespace Agents

open Js Event Effect Config

/-! ## Functions as texts -/

abbrev JsFunction := Value -> Except Thrown Value

inductive Evaluated where
  | function (f : JsFunction)
  | value (v : Value)

/-- `new Function(body)()`; what is not truthy has the text of no function. -/
structure Evaluator where
  evaluate : Text -> Except Thrown Evaluated
  falsy : forall (v : Value) (f : JsFunction), isTruthy v = false ->
    evaluate ("return ".toList ++ displayText v) ≠ .ok (.function f)

def typeOfValue (v : Value) : Text :=
  (v.map typeOf).getD "undefined".toList

def invalidCode (message : Text) : Thrown :=
  .plain ("Invalid function code, msg: ".toList ++ message)

/-- `Utils.toFunction`. -/
def toFunction (code : Evaluator) (funCode : Value) :
    Except Thrown JsFunction :=
  match code.evaluate ("return ".toList ++ displayText funCode) with
  | .ok (.function f) => .ok f
  | .ok (.value v) =>
      .error (invalidCode
        ("code is not a function, but a ".toList ++ typeOfValue v))
  | .error e => .error (invalidCode e.message)

/-- `Utils.toFunction(funCode)(req)`. -/
def applyCode (code : Evaluator) (funCode req : Value) :
    Except Thrown Value := do
  let fun_ ← toFunction code funCode
  fun_ req

/-! ## Requests -/

structure EndpointDto where
  id : Text
  name : Text
  params : Value

/-- What is read of a `ClientRequestEvent` with an endpoint name. -/
structure InvokeEvent where
  id : Text
  srcId : Text
  paidBy : Text
  dataType : Text
  callgentName : Value
  epName : Text
  req : Value
  endpoints : List EndpointDto

def InvokeEvent.endpoint (reqEvent : InvokeEvent) : Option EndpointDto :=
  reqEvent.endpoints.find? fun e => e.name == reqEvent.epName

/-- The keys of `Req2ArgsRepo`. -/
def InvokeEvent.cepIdSepId (reqEvent : InvokeEvent) (endpoint : EndpointDto) :
    Text × Text :=
  (reqEvent.srcId, endpoint.id)

/-- Not `!endpoint.params || Object.keys(endpoint.params).length == 0`. -/
def EndpointDto.hasParams (endpoint : EndpointDto) : Bool :=
  isTruthy endpoint.params &&
    match entriesOf endpoint.params with
    | .ok entries => !entries.isEmpty
    | .error _ => false

/-- What the template `map2Endpoint` is rendered with. -/
structure MapArgs where
  req : Value
  epName : Text
  callgentName : Value
  cepAdaptor : Text
  endpoints : List EndpointDto

structure Mapping (omega : Type) where
  llm : LlmState MapArgs omega
  req2ArgsRepo : Table (Text × Text) Text
  /-- The functions that have been written, as they are logged. -/
  upserts : List ((Text × Text) × Text)

structure MapHost (omega : Type) where
  llm : LlmHost MapArgs omega
  code : Evaluator

section Map

variable {omega : Type}

/-- What is in the database as in `s`. -/
def Mapping.rollback (s next : Mapping omega) : Mapping omega where
  llm :=
    { next.llm with
        llmCache := s.llm.llmCache
        written := s.llm.written }
  req2ArgsRepo := s.req2ArgsRepo
  upserts := s.upserts

/-- The transaction of `_invokeListeners`, when no other one comes between. -/
def transactional {a : Type} (x : Effect (Mapping omega) Thrown a) :
    Effect (Mapping omega) Thrown a :=
  fun s =>
    match exec x s with
    | (.ok value, next) => (.ok value, next)
    | (.error e, next) => (.error e, s.rollback next)

theorem exec_transactional {a : Type} (x : Effect (Mapping omega) Thrown a)
    (s : Mapping omega) :
    exec (transactional x) s =
      match exec x s with
      | (.ok value, next) => (.ok value, next)
      | (.error e, next) => (.error e, s.rollback next) := rfl

/-! ## `_map2Endpoint` -/

def endpointNotFound (epName : Text) : Thrown :=
  .notFound ("map2Endpoint not found of name:".toList ++ epName)

def tryStored (code : Evaluator) (found : Option (TableRow (Text × Text) Text))
    (req : Value) : Option Value :=
  match found with
  | none => none
  | some row =>
      match applyCode code (some (.str row.value)) req with
      | .ok requestArgs => some requestArgs
      | .error _ => none

/-- Up to the stored function: the arguments, or the endpoint for which one is
to be generated. -/
def loadArgs (host : MapHost omega) (reqEvent : InvokeEvent) :
    Effect (Mapping omega) Thrown (Value ⊕ EndpointDto) := do
  match reqEvent.endpoint with
  | none => throw (endpointNotFound reqEvent.epName)
  | some endpoint =>
      if !endpoint.hasParams then return .inl (some (.obj []))
      let s ← get
      let found := s.req2ArgsRepo.findUnique (reqEvent.cepIdSepId endpoint)
      match tryStored host.code found reqEvent.req with
      | some requestArgs => return .inl requestArgs
      | none => return .inr endpoint

/-- `data.requestArgs = args`, where there is no such property without it. -/
def setRequestArgs (data args : Value) : Value :=
  match data, args with
  | some (.obj fields), some args =>
      some (.obj (Json.setField fields "requestArgs".toList args))
  | some (.obj fields), none =>
      some (.obj (fields.filter fun entry =>
        entry.1 != "requestArgs".toList))
  | data, _ => data

def wrongGeneration (message : Text) : Thrown :=
  .plain ("[map2Endpoint] Wrong generation `req2Args` function: ".toList ++
    message)

/-- `validate`: what the function makes of the request is kept. -/
def validateReq2Args (code : Evaluator) (req data : Value) :
    Except Thrown (Bool × Value) :=
  match read data "req2Args" >>= fun funCode => applyCode code funCode req with
  | .ok requestArgs => .ok (true, setRequestArgs data requestArgs)
  | .error e => .error (wrongGeneration e.message)

def req2ArgsValidator (code : Evaluator) (req : Value) : Validator where
  run data _ := validateReq2Args code req data
  primitive := by
    intro data data' i ok hprimitive hvalid
    unfold validateReq2Args at hvalid
    split at hvalid
    · rename_i requestArgs hargs
      cases hvalid
      cases data with
      | none => rfl
      | some data =>
          cases data with
          | obj fields => cases hprimitive
          | null => rfl
          | bool b => rfl
          | num n => rfl
          | str s => rfl
          | arr items => rfl
    · cases hvalid

def mapOptions (host : MapHost omega) (reqEvent : InvokeEvent) : Options where
  models := none
  bizKey := reqEvent.id
  paidBy := reqEvent.paidBy
  parseType := .json
  parseSchema := some (.obj [("req2Args".toList, .str [])])
  validate := some (req2ArgsValidator host.code reqEvent.req)

/-- `this.llmService.query('map2Endpoint', …)`. -/
def queryReq2Args (host : MapHost omega) (reqEvent : InvokeEvent) :
    Effect (Mapping omega) Thrown Value :=
  zoom Mapping.llm (fun s llm => { s with llm := llm })
    (query host.llm "map2Endpoint".toList
      ⟨reqEvent.req, reqEvent.epName, reqEvent.callgentName,
        reqEvent.dataType, reqEvent.endpoints⟩
      (mapOptions host reqEvent))

def req2ArgsFits (key : Text × Text) (req2Args : Text) : Bool :=
  key.1.length ≤ 30 && key.2.length ≤ 30 && req2Args.length ≤ 8192

/-- `prisma.req2ArgsRepo.upsert`; only a text can be stored. -/
def upsertReq2Args (key : Text × Text) (req2Args : Value) :
    Effect (Mapping omega) Thrown Unit := do
  match req2Args with
  | some (.str req2Args) =>
      if !req2ArgsFits key req2Args then
        throw (Cached.databaseError "P2000".toList)
      modify fun s =>
        { s with
            req2ArgsRepo := s.req2ArgsRepo.upsert key req2Args
            upserts := s.upserts ++ [(key, req2Args)] }
  | _ => throw (Cached.databaseError "req2Args".toList)

def generateArgs (host : MapHost omega) (reqEvent : InvokeEvent)
    (endpoint : EndpointDto) : Effect (Mapping omega) Thrown Value := do
  let mapped ← queryReq2Args host reqEvent
  let req2Args ← ofResult (read mapped "req2Args")
  if isTruthy req2Args then
    upsertReq2Args (reqEvent.cepIdSepId endpoint) req2Args
  ofResult (read mapped "requestArgs")

/-- `_map2Endpoint`: the `requestArgs`; it joins the transaction that it is
called in. -/
def map2Endpoint (host : MapHost omega) (reqEvent : InvokeEvent) :
    Effect (Mapping omega) Thrown Value := do
  match ← loadArgs host reqEvent with
  | .inl requestArgs => return requestArgs
  | .inr endpoint => generateArgs host reqEvent endpoint

/-! ## What is generated -/

variable {host : MapHost omega} {reqEvent : InvokeEvent}
  {s next : Mapping omega}

theorem isTruthy_of_applyCode {code : Evaluator} {funCode req args : Value}
    (h : applyCode code funCode req = .ok args) : isTruthy funCode = true := by
  cases htruthy : isTruthy funCode with
  | true => rfl
  | false =>
      unfold applyCode at h
      rcases Fallible.exists_of_bind_ok h with ⟨f, hf, _⟩
      unfold toFunction at hf
      split at hf
      · rename_i g hg
        exact absurd hg (code.falsy funCode g htruthy)
      · cases hf
      · cases hf

theorem exists_code_of_validate {code : Evaluator} {req data mapped : Value}
    {valid : Bool}
    (h : validateReq2Args code req data = .ok (valid, mapped)) :
    exists funCode args, applyCode code funCode req = .ok args ∧
      read mapped "req2Args" = .ok funCode ∧
      read mapped "requestArgs" = .ok args := by
  unfold validateReq2Args at h
  split at h
  · rename_i args hargs
    cases h
    rcases Fallible.exists_of_bind_ok hargs with ⟨funCode, hread, happly⟩
    refine ⟨funCode, args, happly, ?_⟩
    rcases read_eq_ok_iff.mp hread with ⟨w, hdata, _, hfield⟩
    have htruthy := isTruthy_of_applyCode happly
    cases w with
    | obj fields =>
        have hlookup : funCode = fields.lookup "req2Args".toList := hfield
        have hne : "req2Args".toList ≠ "requestArgs".toList := by decide
        rw [hdata]
        cases args with
        | none =>
            constructor
            · rw [hlookup]
              exact congrArg Except.ok (Repo.Select.lookup_filter_fst
                (p := fun key => key != "requestArgs".toList)
                (bne_iff_ne.mpr hne))
            · exact congrArg Except.ok (Repo.Select.lookup_filter_fst_of_not
                (p := fun key => key != "requestArgs".toList)
                (bne_self_eq_false _))
        | some args =>
            constructor
            · rw [hlookup]
              exact congrArg Except.ok (Json.lookup_setField_of_ne hne _ _)
            · exact congrArg Except.ok (Json.lookup_setField_self _ _ _)
    | null => rw [hfield] at htruthy; cases htruthy
    | bool b => rw [hfield] at htruthy; cases htruthy
    | num n => rw [hfield] at htruthy; cases htruthy
    | str t => rw [hfield] at htruthy; cases htruthy
    | arr items => rw [hfield] at htruthy; cases htruthy
  · cases h

theorem exists_code_of_query {mapped : Value}
    (h : exec (queryReq2Args host reqEvent) s = (.ok mapped, next)) :
    next = { s with llm := next.llm } ∧ exists funCode args,
      applyCode host.code funCode reqEvent.req = .ok args ∧
      read mapped "req2Args" = .ok funCode ∧
      read mapped "requestArgs" = .ok args := by
  unfold queryReq2Args at h
  rw [exec_zoom] at h
  generalize hquery : exec (query host.llm _ _ (mapOptions host reqEvent))
    s.llm = ended at h
  rcases ended with ⟨result, llm⟩
  cases h
  constructor
  · rfl
  · rcases exists_loop_of_query hquery with
      ⟨prompt, cache, vars, vars', ready, looped, _, _, _, hloop, _⟩
    rcases (parse_of_queryLoop hloop).left with ⟨i, hparse⟩
    rcases exists_parsed_of_parse hparse with ⟨data, _, hcheck⟩
    exact exists_code_of_validate hcheck

theorem exists_upsert_of_generate {endpoint : EndpointDto} {args : Value}
    (h : exec (generateArgs host reqEvent endpoint) s = (.ok args, next)) :
    exists req2Args,
      applyCode host.code (some (.str req2Args)) reqEvent.req = .ok args ∧
      req2ArgsFits (reqEvent.cepIdSepId endpoint) req2Args = true ∧
      next.req2ArgsRepo = s.req2ArgsRepo.upsert
        (reqEvent.cepIdSepId endpoint) req2Args ∧
      next.upserts =
        s.upserts ++ [(reqEvent.cepIdSepId endpoint, req2Args)] := by
  unfold generateArgs at h
  rcases exec_bind_eq_ok h with ⟨mapped, queried, hquery, hrest⟩
  rcases exists_code_of_query hquery with
    ⟨hqueried, funCode, made, happly, hcode, hargs⟩
  rw [exec_ofResult_bind_ok hcode, isTruthy_of_applyCode happly] at hrest
  rcases exec_bind_eq_ok hrest with ⟨_, stored, hupsert, hlast⟩
  have hpair : (.ok made, stored) = ((.ok args, next) :
      Except Thrown Value × Mapping omega) := by
    rw [← hlast, hargs]
    rfl
  cases hpair
  unfold upsertReq2Args at hupsert
  split at hupsert
  · rename_i req2Args
    exists req2Args
    split at hupsert
    · cases hupsert
    · rename_i hfits
      cases hupsert
      rw [hqueried]
      exact ⟨happly, by simpa using hfits, rfl, rfl⟩
  · cases hupsert

theorem exec_loadArgs (host : MapHost omega) (reqEvent : InvokeEvent)
    (s : Mapping omega) :
    exec (loadArgs host reqEvent) s =
      (match reqEvent.endpoint with
        | none => .error (endpointNotFound reqEvent.epName)
        | some endpoint =>
            if endpoint.hasParams then
              match tryStored host.code (s.req2ArgsRepo.findUnique
                  (reqEvent.cepIdSepId endpoint)) reqEvent.req with
              | some requestArgs => .ok (.inl requestArgs)
              | none => .ok (.inr endpoint)
            else .ok (.inl (some (.obj []))), s) := by
  unfold loadArgs
  cases reqEvent.endpoint with
  | none => rfl
  | some endpoint =>
      dsimp only
      cases endpoint.hasParams with
      | false => rfl
      | true =>
          show exec (get >>= _) s = _
          rw [exec_bind_of_ok (exec_get s)]
          cases tryStored host.code (s.req2ArgsRepo.findUnique
              (reqEvent.cepIdSepId endpoint)) reqEvent.req with
          | none => rfl
          | some requestArgs => rfl

theorem exists_row_of_tryStored {code : Evaluator}
    {found : Option (TableRow (Text × Text) Text)} {req args : Value}
    (h : tryStored code found req = some args) :
    exists row, found = some row ∧
      applyCode code (some (.str row.value)) req = .ok args := by
  unfold tryStored at h
  split at h
  · cases h
  · rename_i row
    split at h
    · rename_i made hmade
      cases h
      exact ⟨row, rfl, hmade⟩
    · cases h

theorem tryStored_of_applyCode {code : Evaluator}
    {row : TableRow (Text × Text) Text} {req args : Value}
    (h : applyCode code (some (.str row.value)) req = .ok args) :
    tryStored code (some row) req = some args := by
  unfold tryStored
  dsimp only
  rw [h]

/-! ## Calls that interleave -/

structure Uncommitted where
  reqEvent : InvokeEvent
  req2Args : List ((Text × Text) × Text)
  llmCache : List CacheRow

/-- The transaction holds the row of the pair, and other writers wait. -/
def Uncommitted.holds (tx : Uncommitted) (key : Text × Text) : Bool :=
  tx.req2Args.any fun written => written.1 == key

def Mapping.writtenBy (s next : Mapping omega) (reqEvent : InvokeEvent) :
    Uncommitted where
  reqEvent := reqEvent
  req2Args := next.upserts.drop s.upserts.length
  llmCache := next.llm.written.drop s.llm.written.length

def saveCacheRow (rows : List CacheRow) (row : CacheRow) : List CacheRow :=
  if rows.any fun r => r.pk == row.pk then
    rows.map fun r => if r.pk = row.pk then row else r
  else rows ++ [row]

def upsertAll (repo : Table (Text × Text) Text)
    (written : List ((Text × Text) × Text)) : Table (Text × Text) Text :=
  written.foldl (fun repo write => repo.upsert write.1 write.2) repo

/-- What the transaction has written can be read by the others. -/
def Mapping.commit (s : Mapping omega) (tx : Uncommitted) : Mapping omega where
  llm :=
    { s.llm with
        llmCache := tx.llmCache.foldl saveCacheRow s.llm.llmCache
        written := s.llm.written ++ tx.llmCache }
  req2ArgsRepo := upsertAll s.req2ArgsRepo tx.req2Args
  upserts := s.upserts ++ tx.req2Args

/-- The service with what is committed, the calls that wait for the model, the
transactions of calls that have returned, and the calls that have ended. -/
structure Mapped (omega : Type) where
  mapping : Mapping omega
  waiting : List (InvokeEvent × EndpointDto)
  uncommitted : List Uncommitted
  answers : List (InvokeEvent × Except Thrown Value)

inductive MapLabel where
  | call (reqEvent : InvokeEvent)
  /-- The `n`-th of the calls that wait. -/
  | finish (n : Nat)
  /-- The database refuses the `n`-th of the calls that wait: another one has
  written the row, or the time of its transaction is over. -/
  | refuse (n : Nat) (e : Thrown)
  /-- The `n`-th of the transactions that are not committed. -/
  | commit (n : Nat)
  | rollback (n : Nat)

def Mapped.start (llm : LlmState MapArgs omega) : Mapped omega where
  mapping := ⟨llm, .empty, []⟩
  waiting := []
  uncommitted := []
  answers := []

def Mapped.afterLoad (s : Mapped omega) (reqEvent : InvokeEvent) :
    Except Thrown (Value ⊕ EndpointDto) -> Mapped omega
  | .ok (.inl requestArgs) =>
      { s with answers := s.answers ++ [(reqEvent, .ok requestArgs)] }
  | .ok (.inr endpoint) =>
      { s with waiting := s.waiting ++ [(reqEvent, endpoint)] }
  | .error e => { s with answers := s.answers ++ [(reqEvent, .error e)] }

/-- The listeners go on after a call that returns, and commit later; a call
that throws has written nothing, or its transaction is aborted. -/
def Mapped.afterGenerate (s : Mapped omega) (n : Nat)
    (reqEvent : InvokeEvent) :
    Except Thrown Value × Mapping omega -> Mapped omega
  | (.ok requestArgs, next) =>
      { mapping := s.mapping.rollback next
        waiting := s.waiting.eraseIdx n
        uncommitted := s.uncommitted ++ [s.mapping.writtenBy next reqEvent]
        answers := s.answers ++ [(reqEvent, .ok requestArgs)] }
  | (.error e, next) =>
      { s with
          mapping := s.mapping.rollback next
          waiting := s.waiting.eraseIdx n
          answers := s.answers ++ [(reqEvent, .error e)] }

def mapStep (host : MapHost omega) (s : Mapped omega) :
    MapLabel -> Option (Mapped omega)
  | .call reqEvent =>
      let loaded := exec (loadArgs host reqEvent) s.mapping
      some ({ s with mapping := loaded.2 }.afterLoad reqEvent loaded.1)
  | .finish n =>
      match s.waiting[n]? with
      | none => none
      | some (reqEvent, endpoint) =>
          if s.uncommitted.any (·.holds (reqEvent.cepIdSepId endpoint)) then
            none
          else
            some (s.afterGenerate n reqEvent
              (exec (generateArgs host reqEvent endpoint) s.mapping))
  | .refuse n e =>
      match s.waiting[n]? with
      | none => none
      | some (reqEvent, _) =>
          some { s with
            waiting := s.waiting.eraseIdx n
            answers := s.answers ++ [(reqEvent, .error e)] }
  | .commit n =>
      match s.uncommitted[n]? with
      | none => none
      | some tx =>
          some { s with
            mapping := s.mapping.commit tx
            uncommitted := s.uncommitted.eraseIdx n }
  | .rollback n =>
      if n < s.uncommitted.length then
        some { s with uncommitted := s.uncommitted.eraseIdx n }
      else none

/-- How `loadArgs` ends with the functions of `s`. -/
def loadResult (host : MapHost omega) (reqEvent : InvokeEvent)
    (s : Mapping omega) : Except Thrown (Value ⊕ EndpointDto) :=
  (exec (loadArgs host reqEvent) s).1

theorem exec_loadArgs_eq (host : MapHost omega) (reqEvent : InvokeEvent)
    (s : Mapping omega) :
    exec (loadArgs host reqEvent) s = (loadResult host reqEvent s, s) := by
  unfold loadResult
  rw [exec_loadArgs]

theorem mapStep_call (host : MapHost omega) (s : Mapped omega)
    (reqEvent : InvokeEvent) :
    mapStep host s (.call reqEvent) =
      some (s.afterLoad reqEvent (loadResult host reqEvent s.mapping)) := by
  unfold mapStep
  dsimp only
  rw [exec_loadArgs_eq]

theorem exists_of_mapStep_finish {host : MapHost omega} {s next : Mapped omega}
    {n : Nat} (h : mapStep host s (.finish n) = some next) :
    exists reqEvent endpoint, s.waiting[n]? = some (reqEvent, endpoint) ∧
      next = s.afterGenerate n reqEvent
        (exec (generateArgs host reqEvent endpoint) s.mapping) := by
  unfold mapStep at h
  dsimp only at h
  split at h
  · cases h
  · rename_i reqEvent endpoint hwaits
    split at h
    · cases h
    · cases h
      exact ⟨reqEvent, endpoint, hwaits, rfl⟩

theorem exists_of_mapStep_refuse {host : MapHost omega} {s next : Mapped omega}
    {n : Nat} {e : Thrown} (h : mapStep host s (.refuse n e) = some next) :
    exists reqEvent, next =
      { s with
          waiting := s.waiting.eraseIdx n
          answers := s.answers ++ [(reqEvent, .error e)] } := by
  unfold mapStep at h
  dsimp only at h
  split at h
  · cases h
  · rename_i reqEvent endpoint hwaits
    cases h
    exact ⟨reqEvent, rfl⟩

theorem exists_of_mapStep_commit {host : MapHost omega} {s next : Mapped omega}
    {n : Nat} (h : mapStep host s (.commit n) = some next) :
    exists tx, s.uncommitted[n]? = some tx ∧ next =
      { s with
          mapping := s.mapping.commit tx
          uncommitted := s.uncommitted.eraseIdx n } := by
  unfold mapStep at h
  dsimp only at h
  split at h
  · cases h
  · rename_i tx htx
    cases h
    exact ⟨tx, htx, rfl⟩

theorem eq_of_mapStep_rollback {host : MapHost omega} {s next : Mapped omega}
    {n : Nat} (h : mapStep host s (.rollback n) = some next) :
    next = { s with uncommitted := s.uncommitted.eraseIdx n } := by
  unfold mapStep at h
  dsimp only at h
  split at h
  · cases h
    rfl
  · cases h

theorem exists_written_of_generate {host : MapHost omega}
    {reqEvent : InvokeEvent} {endpoint : EndpointDto} {s next : Mapping omega}
    {args : Value}
    (h : exec (generateArgs host reqEvent endpoint) s = (.ok args, next)) :
    exists req2Args,
      applyCode host.code (some (.str req2Args)) reqEvent.req = .ok args ∧
      req2ArgsFits (reqEvent.cepIdSepId endpoint) req2Args = true ∧
      next.req2ArgsRepo = s.req2ArgsRepo.upsert
        (reqEvent.cepIdSepId endpoint) req2Args ∧
      (s.writtenBy next reqEvent).req2Args =
        [(reqEvent.cepIdSepId endpoint, req2Args)] := by
  rcases exists_upsert_of_generate h with
    ⟨req2Args, happly, hfits, hrepo, hlog⟩
  refine ⟨req2Args, happly, hfits, hrepo, ?_⟩
  show next.upserts.drop s.upserts.length = _
  rw [hlog, List.drop_left]

theorem exec_map2Endpoint (host : MapHost omega) (reqEvent : InvokeEvent)
    (s : Mapping omega) :
    exec (map2Endpoint host reqEvent) s =
      match loadResult host reqEvent s with
      | .ok (.inl requestArgs) => (.ok requestArgs, s)
      | .ok (.inr endpoint) => exec (generateArgs host reqEvent endpoint) s
      | .error e => (.error e, s) := by
  have hload := exec_loadArgs_eq host reqEvent s
  unfold map2Endpoint
  cases hresult : loadResult host reqEvent s with
  | error e =>
      rw [hresult] at hload
      rw [exec_bind_of_error hload]
  | ok loaded =>
      rw [hresult] at hload
      rw [exec_bind_of_ok hload]
      cases loaded with
      | inl requestArgs => rfl
      | inr endpoint => rfl

theorem exists_run_of_generateArgs (host : MapHost omega)
    (reqEvent : InvokeEvent) (endpoint : EndpointDto) (s : Mapped omega)
    (halone : s.uncommitted = []) :
    exists labels last, Transition.run (mapStep host)
        { s with waiting := s.waiting ++ [(reqEvent, endpoint)] } labels =
          some last ∧
      last.waiting = s.waiting ∧ last.uncommitted = [] ∧
      last.answers = s.answers ++ [(reqEvent, (exec (transactional
        (generateArgs host reqEvent endpoint)) s.mapping).1)] ∧
      last.mapping.req2ArgsRepo = (exec (transactional
        (generateArgs host reqEvent endpoint)) s.mapping).2.req2ArgsRepo := by
  have herase : (s.waiting ++ [(reqEvent, endpoint)]).eraseIdx
      s.waiting.length = s.waiting := by
    simp [List.eraseIdx_append_of_length_le]
  have hfinish : mapStep host
      { s with waiting := s.waiting ++ [(reqEvent, endpoint)] }
      (.finish s.waiting.length) =
        some (Mapped.afterGenerate
          { s with waiting := s.waiting ++ [(reqEvent, endpoint)] }
          s.waiting.length reqEvent
          (exec (generateArgs host reqEvent endpoint) s.mapping)) := by
    unfold mapStep
    dsimp only
    rw [List.getElem?_concat_length, halone]
    rfl
  rw [exec_transactional]
  cases hexec : exec (generateArgs host reqEvent endpoint) s.mapping with
  | mk result next =>
      rw [hexec] at hfinish
      cases result with
      | error e =>
          exact ⟨[.finish s.waiting.length], _,
            Transition.run_singleton hfinish, herase, halone, rfl, rfl⟩
      | ok args =>
          rcases exists_written_of_generate hexec with
            ⟨req2Args, _, _, hrepo, hwritten⟩
          refine ⟨[.finish s.waiting.length, .commit 0],
            { mapping := (s.mapping.rollback next).commit
                (s.mapping.writtenBy next reqEvent)
              waiting := s.waiting
              uncommitted := []
              answers := s.answers ++ [(reqEvent, .ok args)] },
            ?_, rfl, rfl, rfl, ?_⟩
          · rw [Transition.run, hfinish]
            apply Transition.run_singleton
            unfold mapStep Mapped.afterGenerate
            dsimp only
            rw [halone, herase]
            rfl
          · show upsertAll s.mapping.req2ArgsRepo _ = next.req2ArgsRepo
            rw [hwritten, hrepo]
            rfl

theorem exists_run_of_map2Endpoint (host : MapHost omega)
    (reqEvent : InvokeEvent) (s : Mapped omega) (halone : s.uncommitted = []) :
    exists labels last,
      Transition.run (mapStep host) s labels = some last ∧
      last.waiting = s.waiting ∧ last.uncommitted = [] ∧
      last.answers = s.answers ++ [(reqEvent,
        (exec (transactional (map2Endpoint host reqEvent)) s.mapping).1)] ∧
      last.mapping.req2ArgsRepo =
        (exec (transactional (map2Endpoint host reqEvent))
          s.mapping).2.req2ArgsRepo := by
  have hcall := mapStep_call host s reqEvent
  rw [exec_transactional, exec_map2Endpoint]
  cases hresult : loadResult host reqEvent s.mapping with
  | error e =>
      rw [hresult] at hcall
      exact ⟨[.call reqEvent], _, Transition.run_singleton hcall, rfl, halone,
        rfl, rfl⟩
  | ok loaded =>
      rw [hresult] at hcall
      cases loaded with
      | inl requestArgs =>
          exact ⟨[.call reqEvent], _, Transition.run_singleton hcall, rfl,
            halone, rfl, rfl⟩
      | inr endpoint =>
          rcases exists_run_of_generateArgs host reqEvent endpoint s halone with
            ⟨labels, last, hrun, hends⟩
          refine ⟨.call reqEvent :: labels, last, ?_, hends⟩
          rw [Transition.run, hcall]
          exact hrun

/-! ## What the stored functions are -/

def Vetted (code : Evaluator)
    (answers : List (InvokeEvent × Except Thrown Value)) (key : Text × Text)
    (req2Args : Text) : Prop :=
  exists reqEvent endpoint args,
    (reqEvent, .ok args) ∈ answers ∧
    reqEvent.endpoint = some endpoint ∧
    reqEvent.cepIdSepId endpoint = key ∧
    applyCode code (some (.str req2Args)) reqEvent.req = .ok args

/-- An endpoint without parameters is called without arguments; else a
function that is vetted for the pair has made them. -/
def Answers (code : Evaluator)
    (answers : List (InvokeEvent × Except Thrown Value))
    (reqEvent : InvokeEvent) (args : Value) : Prop :=
  exists endpoint, reqEvent.endpoint = some endpoint ∧
    if endpoint.hasParams then
      exists req2Args,
        Vetted code answers (reqEvent.cepIdSepId endpoint) req2Args ∧
        applyCode code (some (.str req2Args)) reqEvent.req = .ok args
    else args = some (.obj [])

theorem Vetted.append {code : Evaluator}
    {answers : List (InvokeEvent × Except Thrown Value)} {key : Text × Text}
    {req2Args : Text} (h : Vetted code answers key req2Args)
    (later : List (InvokeEvent × Except Thrown Value)) :
    Vetted code (answers ++ later) key req2Args := by
  rcases h with ⟨reqEvent, endpoint, args, hmem, hrest⟩
  exact ⟨reqEvent, endpoint, args, List.mem_append_left later hmem, hrest⟩

theorem Answers.append {code : Evaluator}
    {answers : List (InvokeEvent × Except Thrown Value)}
    {reqEvent : InvokeEvent} {args : Value}
    (h : Answers code answers reqEvent args)
    (later : List (InvokeEvent × Except Thrown Value)) :
    Answers code (answers ++ later) reqEvent args := by
  rcases h with ⟨endpoint, hendpoint, hargs⟩
  refine ⟨endpoint, hendpoint, ?_⟩
  split
  · rename_i hparams
    rw [if_pos hparams] at hargs
    rcases hargs with ⟨req2Args, hvetted, happly⟩
    exact ⟨req2Args, hvetted.append later, happly⟩
  · rename_i hparams
    rwa [if_neg hparams] at hargs

/-- The call has returned what its function makes of its request. -/
def Uncommitted.Returned (code : Evaluator)
    (answers : List (InvokeEvent × Except Thrown Value)) (tx : Uncommitted) :
    Prop :=
  exists endpoint req2Args args,
    tx.reqEvent.endpoint = some endpoint ∧
    tx.req2Args = [(tx.reqEvent.cepIdSepId endpoint, req2Args)] ∧
    req2ArgsFits (tx.reqEvent.cepIdSepId endpoint) req2Args = true ∧
    (tx.reqEvent, .ok args) ∈ answers ∧
    applyCode code (some (.str req2Args)) tx.reqEvent.req = .ok args

theorem Uncommitted.Returned.append {code : Evaluator}
    {answers : List (InvokeEvent × Except Thrown Value)} {tx : Uncommitted}
    (h : tx.Returned code answers)
    (later : List (InvokeEvent × Except Thrown Value)) :
    tx.Returned code (answers ++ later) := by
  rcases h with ⟨endpoint, req2Args, args, hendpoint, hone, hfits, hmem, happly⟩
  exact ⟨endpoint, req2Args, args, hendpoint, hone, hfits,
    List.mem_append_left later hmem, happly⟩

structure Mapped.Sound (code : Evaluator) (s : Mapped omega) : Prop where
  rows : forall row, row ∈ s.mapping.req2ArgsRepo.rows ->
    Vetted code s.answers row.key row.value ∧
      req2ArgsFits row.key row.value = true
  waiting : forall reqEvent endpoint, (reqEvent, endpoint) ∈ s.waiting ->
    reqEvent.endpoint = some endpoint ∧ endpoint.hasParams = true
  uncommitted : forall tx, tx ∈ s.uncommitted -> tx.Returned code s.answers
  answers : forall reqEvent args, (reqEvent, .ok args) ∈ s.answers ->
    Answers code s.answers reqEvent args

namespace Mapped

theorem sound_start (code : Evaluator) (llm : LlmState MapArgs omega) :
    (start llm).Sound code := by
  constructor
  · intro row hrow
    cases hrow
  · intro reqEvent endpoint hmem
    cases hmem
  · intro tx hmem
    cases hmem
  · intro reqEvent args hmem
    cases hmem

theorem Sound.answered {code : Evaluator} {s : Mapped omega}
    (h : s.Sound code) {mapping : Mapping omega}
    (hrepo : mapping.req2ArgsRepo = s.mapping.req2ArgsRepo)
    {waiting : List (InvokeEvent × EndpointDto)}
    (hwaiting : forall call, call ∈ waiting -> call ∈ s.waiting)
    {reqEvent : InvokeEvent} {result : Except Thrown Value}
    (hresult : forall args, result = .ok args ->
      Answers code (s.answers ++ [(reqEvent, result)]) reqEvent args) :
    Sound code ⟨mapping, waiting, s.uncommitted,
      s.answers ++ [(reqEvent, result)]⟩ := by
  constructor
  · intro row hrow
    change row ∈ mapping.req2ArgsRepo.rows at hrow
    rw [hrepo] at hrow
    exact ⟨(h.rows row hrow).left.append _, (h.rows row hrow).right⟩
  · intro reqEvent endpoint hmem
    exact h.waiting reqEvent endpoint (hwaiting _ hmem)
  · intro tx hmem
    exact (h.uncommitted tx hmem).append _
  · intro other args hmem
    rcases List.mem_append.mp hmem with hold | hnew
    · exact (h.answers other args hold).append _
    · cases List.mem_singleton.mp hnew
      exact hresult args rfl

theorem Sound.afterLoad {host : MapHost omega} {s : Mapped omega}
    (h : s.Sound host.code) (reqEvent : InvokeEvent) :
    (s.afterLoad reqEvent
      (loadResult host reqEvent s.mapping)).Sound host.code := by
  have hload := congrArg Prod.fst (exec_loadArgs host reqEvent s.mapping)
  change loadResult host reqEvent s.mapping = _ at hload
  rw [hload]
  split
  · refine h.answered rfl (fun _ hmem => hmem) ?_
    intro args heq
    cases heq
  · rename_i endpoint hendpoint
    split
    · rename_i hparams
      split
      · rename_i requestArgs hstored
        rcases exists_row_of_tryStored hstored with ⟨row, hfound, happly⟩
        have hrow := h.rows row (Table.mem_of_findUnique hfound)
        rw [Table.key_of_findUnique hfound] at hrow
        refine h.answered rfl (fun _ hmem => hmem) ?_
        intro args heq
        cases heq
        refine ⟨endpoint, hendpoint, ?_⟩
        rw [if_pos hparams]
        exact ⟨row.value, hrow.left.append _, happly⟩
      · constructor
        · exact h.rows
        · intro other found hmem
          rcases List.mem_append.mp hmem with hold | hnew
          · exact h.waiting other found hold
          · cases List.mem_singleton.mp hnew
            exact ⟨hendpoint, hparams⟩
        · exact h.uncommitted
        · exact h.answers
    · rename_i hparams
      refine h.answered rfl (fun _ hmem => hmem) ?_
      intro args heq
      cases heq
      refine ⟨endpoint, hendpoint, ?_⟩
      rw [if_neg hparams]

theorem Sound.afterGenerate {host : MapHost omega} {s : Mapped omega}
    (h : s.Sound host.code) {n : Nat} {reqEvent : InvokeEvent}
    {endpoint : EndpointDto}
    (hwaits : s.waiting[n]? = some (reqEvent, endpoint)) :
    (s.afterGenerate n reqEvent (exec (generateArgs host reqEvent endpoint)
      s.mapping)).Sound host.code := by
  have hleft : forall call, call ∈ s.waiting.eraseIdx n ->
      call ∈ s.waiting := fun _ => List.mem_of_mem_eraseIdx
  cases hexec : exec (generateArgs host reqEvent endpoint) s.mapping with
  | mk result next =>
      cases result with
      | error e =>
          have hrepo : (s.mapping.rollback next).req2ArgsRepo =
              s.mapping.req2ArgsRepo := rfl
          refine h.answered hrepo hleft ?_
          intro args heq
          cases heq
      | ok args =>
          rcases exists_written_of_generate hexec with
            ⟨req2Args, happly, hfits, _, hwritten⟩
          rcases h.waiting reqEvent endpoint (List.mem_of_getElem? hwaits) with
            ⟨hendpoint, hparams⟩
          have hanswer : (reqEvent, .ok args) ∈
              s.answers ++ [(reqEvent, (.ok args : Except Thrown Value))] :=
            List.mem_append_right _ List.mem_cons_self
          have hsound : Sound host.code ⟨s.mapping.rollback next,
              s.waiting.eraseIdx n, s.uncommitted,
              s.answers ++ [(reqEvent, .ok args)]⟩ := by
            have hrepo : (s.mapping.rollback next).req2ArgsRepo =
                s.mapping.req2ArgsRepo := rfl
            refine h.answered hrepo hleft ?_
            intro args' heq
            cases heq
            refine ⟨endpoint, hendpoint, ?_⟩
            rw [if_pos hparams]
            exact ⟨req2Args, ⟨reqEvent, endpoint, args, hanswer, hendpoint,
              rfl, happly⟩, happly⟩
          refine ⟨hsound.rows, hsound.waiting, ?_, hsound.answers⟩
          intro tx hmem
          rcases List.mem_append.mp hmem with hold | hnew
          · exact hsound.uncommitted tx hold
          · rw [List.mem_singleton.mp hnew]
            exact ⟨endpoint, req2Args, args, hendpoint, hwritten, hfits,
              hanswer, happly⟩

theorem Sound.commit {code : Evaluator} {s : Mapped omega} (h : s.Sound code)
    {n : Nat} {tx : Uncommitted} (htx : s.uncommitted[n]? = some tx) :
    Sound code { s with
      mapping := s.mapping.commit tx
      uncommitted := s.uncommitted.eraseIdx n } := by
  rcases h.uncommitted tx (List.mem_of_getElem? htx) with
    ⟨endpoint, req2Args, args, hendpoint, hone, hfits, hmem, happly⟩
  refine ⟨?_, h.waiting,
    fun tx hmem => h.uncommitted tx (List.mem_of_mem_eraseIdx hmem), h.answers⟩
  intro row hrow
  change row ∈ (upsertAll s.mapping.req2ArgsRepo tx.req2Args).rows at hrow
  rw [hone] at hrow
  rcases Table.mem_upsert hrow with hold | ⟨hkey, hvalue⟩
  · exact h.rows row hold
  · rw [hkey, hvalue]
    exact ⟨⟨tx.reqEvent, endpoint, args, hmem, hendpoint, rfl, happly⟩, hfits⟩

theorem Sound.step {host : MapHost omega} {s next : Mapped omega}
    (h : s.Sound host.code) {label : MapLabel}
    (hstep : mapStep host s label = some next) : next.Sound host.code := by
  cases label with
  | call reqEvent =>
      rw [mapStep_call] at hstep
      cases hstep
      exact h.afterLoad reqEvent
  | finish n =>
      rcases exists_of_mapStep_finish hstep with
        ⟨reqEvent, endpoint, hwaits, rfl⟩
      exact h.afterGenerate hwaits
  | refuse n e =>
      rcases exists_of_mapStep_refuse hstep with ⟨reqEvent, rfl⟩
      refine h.answered rfl (fun _ => List.mem_of_mem_eraseIdx) ?_
      intro args heq
      cases heq
  | commit n =>
      rcases exists_of_mapStep_commit hstep with ⟨tx, htx, rfl⟩
      exact h.commit htx
  | rollback n =>
      cases eq_of_mapStep_rollback hstep
      exact ⟨h.rows, h.waiting,
        fun tx hmem => h.uncommitted tx (List.mem_of_mem_eraseIdx hmem),
        h.answers⟩

theorem sound_of_run {host : MapHost omega} {llm : LlmState MapArgs omega}
    {labels : List MapLabel} {s : Mapped omega}
    (hrun : Transition.run (mapStep host) (.start llm) labels = some s) :
    s.Sound host.code :=
  Transition.run_invariant (fun _ _ _ h => h.step)
    (sound_start host.code llm) hrun

end Mapped

/-- However calls interleave and whatever the models answer: each stored
function has made the arguments of a call for its pair, and all arguments that
calls return are made by functions that have done so, or are none for an
endpoint without parameters. -/
theorem vetted_of_run {host : MapHost omega} {llm : LlmState MapArgs omega}
    {labels : List MapLabel} {s : Mapped omega}
    (hrun : Transition.run (mapStep host) (.start llm) labels = some s) :
    (forall row, row ∈ s.mapping.req2ArgsRepo.rows ->
      Vetted host.code s.answers row.key row.value ∧
        req2ArgsFits row.key row.value = true) ∧
      forall reqEvent args, (reqEvent, .ok args) ∈ s.answers ->
        Answers host.code s.answers reqEvent args := by
  have hsound := Mapped.sound_of_run hrun
  exact ⟨hsound.rows, hsound.answers⟩

/-! ## A function is used until it is replaced -/

/-- A transaction is committed that has written a function for the pair. -/
def Replaces (key : Text × Text) (s : Mapped omega) (label : MapLabel) :
    Prop :=
  exists n tx, label = .commit n ∧ s.uncommitted[n]? = some tx ∧
    tx.holds key = true

def Mapped.Stores (s : Mapped omega) (key : Text × Text) (req2Args : Text) :
    Prop :=
  exists row, s.mapping.req2ArgsRepo.findUnique key = some row ∧
    row.value = req2Args

theorem Mapped.Stores.of_eq {s next : Mapped omega} {key : Text × Text}
    {req2Args : Text} (h : s.Stores key req2Args)
    (hrepo : next.mapping.req2ArgsRepo.findUnique key =
      s.mapping.req2ArgsRepo.findUnique key) : next.Stores key req2Args := by
  rcases h with ⟨row, hfound, hvalue⟩
  rw [← hrepo] at hfound
  exact ⟨row, hfound, hvalue⟩

theorem mapping_afterLoad (s : Mapped omega) (reqEvent : InvokeEvent)
    (result : Except Thrown (Value ⊕ EndpointDto)) :
    (s.afterLoad reqEvent result).mapping = s.mapping := by
  cases result with
  | error e => rfl
  | ok loaded =>
      cases loaded with
      | inl requestArgs => rfl
      | inr endpoint => rfl

theorem req2ArgsRepo_afterGenerate (s : Mapped omega) (n : Nat)
    (reqEvent : InvokeEvent) (ended : Except Thrown Value × Mapping omega) :
    (s.afterGenerate n reqEvent ended).mapping.req2ArgsRepo =
      s.mapping.req2ArgsRepo := by
  rcases ended with ⟨result, next⟩
  cases result with
  | error e => rfl
  | ok args => rfl

theorem findUnique_upsertAll_of_not_holds
    (repo : Table (Text × Text) Text) {tx : Uncommitted} {key : Text × Text}
    (h : tx.holds key = false) :
    (upsertAll repo tx.req2Args).findUnique key = repo.findUnique key := by
  unfold Uncommitted.holds at h
  unfold upsertAll
  generalize tx.req2Args = written at h ⊢
  induction written generalizing repo with
  | nil => rfl
  | cons write rest ih =>
      rw [List.any_cons, Bool.or_eq_false_iff] at h
      rw [List.foldl_cons, ih _ h.right]
      exact Table.findUnique_upsert_of_ne _ _ (ne_of_beq_false h.left).symm

theorem Mapped.Stores.step {s next : Mapped omega} {key : Text × Text}
    {req2Args : Text} (h : s.Stores key req2Args) {label : MapLabel}
    (hkeeps : ¬ Replaces key s label)
    (hstep : mapStep host s label = some next) : next.Stores key req2Args := by
  cases label with
  | call reqEvent =>
      rw [mapStep_call] at hstep
      cases hstep
      apply h.of_eq
      rw [mapping_afterLoad]
  | finish n =>
      rcases exists_of_mapStep_finish hstep with ⟨reqEvent, endpoint, _, rfl⟩
      apply h.of_eq
      rw [req2ArgsRepo_afterGenerate]
  | refuse n e =>
      rcases exists_of_mapStep_refuse hstep with ⟨reqEvent, rfl⟩
      exact h
  | commit n =>
      rcases exists_of_mapStep_commit hstep with ⟨tx, htx, rfl⟩
      apply h.of_eq
      apply findUnique_upsertAll_of_not_holds
      rw [Bool.eq_false_iff]
      intro hholds
      exact hkeeps ⟨n, tx, rfl, htx, hholds⟩
  | rollback n =>
      cases eq_of_mapStep_rollback hstep
      exact h

theorem mapStep_call_of_stores {s : Mapped omega} {reqEvent : InvokeEvent}
    {endpoint : EndpointDto} {req2Args : Text} {args : Value}
    (hstores : s.Stores (reqEvent.cepIdSepId endpoint) req2Args)
    (hendpoint : reqEvent.endpoint = some endpoint)
    (hparams : endpoint.hasParams = true)
    (happly : applyCode host.code (some (.str req2Args)) reqEvent.req =
      .ok args) :
    mapStep host s (.call reqEvent) =
      some { s with answers := s.answers ++ [(reqEvent, .ok args)] } := by
  rcases hstores with ⟨row, hfound, hvalue⟩
  rw [← hvalue] at happly
  have hload : loadResult host reqEvent s.mapping = .ok (.inl args) := by
    unfold loadResult
    rw [exec_loadArgs, hendpoint]
    dsimp only
    rw [if_pos hparams, hfound, tryStored_of_applyCode happly]
  rw [mapStep_call, hload]
  rfl

/-- When the transaction of a call that has generated a function has been
committed, the function, which has made the arguments that the call has
returned, answers later calls for the pair whose requests it maps, until
another transaction with a function for the pair is committed. -/
theorem served_of_run {llm : LlmState MapArgs omega}
    {before labels : List MapLabel} {s first last : Mapped omega} {n : Nat}
    {tx : Uncommitted}
    (hreach : Transition.run (mapStep host) (.start llm) before = some s)
    (htx : s.uncommitted[n]? = some tx)
    (hcommit : mapStep host s (.commit n) = some first)
    (hkeeps : Transition.StepsMeet (mapStep host) (fun s label =>
      forall key, tx.holds key = true -> ¬ Replaces key s label) first labels)
    (hrun : Transition.run (mapStep host) first labels = some last) :
    exists endpoint req2Args args,
      tx.reqEvent.endpoint = some endpoint ∧
      (tx.reqEvent, .ok args) ∈ s.answers ∧
      applyCode host.code (some (.str req2Args)) tx.reqEvent.req = .ok args ∧
      forall later found made, later.endpoint = some found ->
        found.hasParams = true ->
        later.cepIdSepId found = tx.reqEvent.cepIdSepId endpoint ->
        applyCode host.code (some (.str req2Args)) later.req = .ok made ->
        mapStep host last (.call later) =
          some { last with answers := last.answers ++ [(later, .ok made)] } := by
  rcases (Mapped.sound_of_run hreach).uncommitted tx
    (List.mem_of_getElem? htx) with
    ⟨endpoint, req2Args, args, hendpoint, hone, _, hmem, happly⟩
  refine ⟨endpoint, req2Args, args, hendpoint, hmem, happly, ?_⟩
  have hholds : tx.holds (tx.reqEvent.cepIdSepId endpoint) = true := by
    unfold Uncommitted.holds
    rw [hone, List.any_cons, beq_self_eq_true, Bool.true_or]
  have hfirst : first.Stores (tx.reqEvent.cepIdSepId endpoint) req2Args := by
    rcases exists_of_mapStep_commit hcommit with ⟨other, hother, rfl⟩
    cases hother.symm.trans htx
    show exists row, (upsertAll _ tx.req2Args).findUnique _ = some row ∧ _
    rw [hone]
    exact Table.findUnique_upsert_self _ _ _
  have hstep : forall (s : Mapped omega) label s',
      s.Stores (tx.reqEvent.cepIdSepId endpoint) req2Args ->
      (forall key, tx.holds key = true -> ¬ Replaces key s label) ->
      mapStep host s label = some s' ->
      s'.Stores (tx.reqEvent.cepIdSepId endpoint) req2Args :=
    fun _ _ _ hstores hmeets hstep =>
      hstores.step (hmeets _ hholds) hstep
  have hlast : last.Stores (tx.reqEvent.cepIdSepId endpoint) req2Args :=
    Transition.run_invariant_of_meets hstep hfirst hkeeps hrun
  intro later found made hfound hparams hkey hmade
  rw [← hkey] at hlast
  exact mapStep_call_of_stores hlast hfound hparams hmade

end Map

/-! ## A function that gives the request back -/

def echoText : Text := "\x7b\"req2Args\":\"f\"\x7d".toList

def echoReader : JsonReader where
  jsonrepair := fun text => .ok text
  parse := fun text =>
    if text = echoText then
      .ok (.obj [("req2Args".toList, .str "f".toList)])
    else .error (.plain "Unexpected token".toList)

def echoCode : Evaluator where
  evaluate := fun body =>
    if body = "return f".toList then .ok (.function fun req => .ok req)
    else .ok (.value none)
  falsy := by
    intro v f hfalsy
    have hne : displayText v ≠ "f".toList := by
      cases v with
      | none => decide
      | some w =>
          cases w with
          | null => decide
          | bool b =>
              cases b with
              | false => decide
              | true => cases hfalsy
          | num number =>
              have htext : number.text = ['0'] := by
                simpa [isTruthy, Json.truthy] using hfalsy
              show number.text ≠ _
              rw [htext]
              decide
          | str text =>
              cases text with
              | nil => decide
              | cons c rest => cases hfalsy
          | arr items => cases hfalsy
          | obj fields => cases hfalsy
    rw [if_neg]
    · intro heq
      cases heq
    · intro hbody
      exact hne (List.append_cancel_left hbody)

def echoHost : MapHost Unit where
  code := echoCode
  llm := {
    llmModels := .many ["gemini".toList]
    cacheEnable := false
    reader := echoReader
    dot := fun text => .ok fun _ => .ok text
    charge := fun _ => return ()
    fetch := fun _ =>
      return ⟨some "gemini".toList, some [⟨some echoText, none⟩], none, none⟩
    billed := fun _ _ _ outside => outside }

def echoLlm : LlmState MapArgs Unit where
  templates := fun _ => none
  llmTemplate := fun _ => some "Map the request".toList
  llmCache := []
  nextPk := 1
  written := []
  completions := []
  chats := []
  outside := ()

def echoEndpoint : EndpointDto where
  id := "sep".toList
  name := "GET /a".toList
  params := some (.obj [("parameters".toList, .arr [])])

def echoEvent : InvokeEvent where
  id := "event".toList
  srcId := "cep".toList
  paidBy := "user".toList
  dataType := "restAPI".toList
  callgentName := none
  epName := "GET /a".toList
  req := some (.str "request".toList)
  endpoints := [echoEndpoint]

def echoLabels : List MapLabel :=
  [.call echoEvent, .finish 0, .commit 0, .call echoEvent]

def echoed : Mapped Unit :=
  (Transition.run (mapStep echoHost) (.start echoLlm) echoLabels).getD
    (.start echoLlm)

theorem run_echoLabels :
    Transition.run (mapStep echoHost) (.start echoLlm) echoLabels =
      some echoed := rfl

def echoReturned : Mapped Unit :=
  (Transition.run (mapStep echoHost) (.start echoLlm)
    [.call echoEvent, .finish 0]).getD (.start echoLlm)

def echoCommitted : Mapped Unit :=
  (mapStep echoHost echoReturned (.commit 0)).getD echoReturned

def echoWritten : Uncommitted where
  reqEvent := echoEvent
  req2Args := [(echoEvent.cepIdSepId echoEndpoint, "f".toList)]
  llmCache := []

theorem served_echoed :
    exists endpoint req2Args args,
      echoEvent.endpoint = some endpoint ∧
      (echoEvent, .ok args) ∈ echoReturned.answers ∧
      applyCode echoCode (some (.str req2Args)) echoEvent.req = .ok args ∧
      forall later found made, later.endpoint = some found ->
        found.hasParams = true ->
        later.cepIdSepId found = echoEvent.cepIdSepId endpoint ->
        applyCode echoCode (some (.str req2Args)) later.req = .ok made ->
        mapStep echoHost echoed (.call later) =
          some { echoed with
            answers := echoed.answers ++ [(later, .ok made)] } := by
  have hreach : Transition.run (mapStep echoHost) (.start echoLlm)
      [.call echoEvent, .finish 0] = some echoReturned := rfl
  have htx : echoReturned.uncommitted[0]? = some echoWritten := rfl
  have hrun : Transition.run (mapStep echoHost) echoCommitted
      [.call echoEvent] = some echoed := rfl
  have hkeeps : Transition.StepsMeet (mapStep echoHost) (fun s label =>
      forall key, echoWritten.holds key = true -> ¬ Replaces key s label)
      echoCommitted [.call echoEvent] := by
    refine ⟨?_, fun _ _ => True.intro⟩
    intro key _ hreplaces
    rcases hreplaces with ⟨n, _, hlabel, _⟩
    cases hlabel
  exact served_of_run hreach htx rfl hkeeps hrun

theorem vetted_echoed :
    (forall row, row ∈ echoed.mapping.req2ArgsRepo.rows ->
      Vetted echoCode echoed.answers row.key row.value ∧
        req2ArgsFits row.key row.value = true) ∧
      forall reqEvent args, (reqEvent, .ok args) ∈ echoed.answers ->
        Answers echoCode echoed.answers reqEvent args :=
  vetted_of_run run_echoLabels

end Agents
end CallgentApi
