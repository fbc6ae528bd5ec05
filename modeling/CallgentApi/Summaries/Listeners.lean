import CallgentApi.Lib.Transition
import CallgentApi.Hub.Tables

/-!
# The summaries of entries and callgents

A change of endpoints has the model summarize their entry, and a summary that
is new has it summarize the callgent of the entry.  The listeners run apart
from what has changed the rows, and from each other.
-/

namespace CallgentApi
namespace Summaries

open Js Event Cached Hub

/-! ## Events -/

/-- What an event says has changed, and in what; the model is told of it. -/
structure Change (info new old : Type) where
  opBy : Text
  target : info
  news : Option (List new)
  olds : Option (List old)
  totally : Bool

/-- An entry as an event has it; the callgent may not be given. -/
structure EntryInfo where
  id : Text
  summary : Value
  instruction : Value
  callgentId : Text

/-- A callgent as an event has it; only its id is sure to be given. -/
structure CallgentInfo where
  id : Text
  name : Option Text
  summary : Value
  instruction : Value

/-- An entry before it was changed: as an event has had it, with the primary
key, or as it was stored. -/
inductive OldEntry where
  | known (pk : Nat) (entry : EntryInfo)
  | stored (row : StoredEntryRow)

/-- `EndpointsChangedEvent`. -/
abbrev EndpointsChange := Change EntryInfo StoredEndpointRow StoredEndpointRow

/-- `EntriesChangedEvent`. -/
abbrev EntriesChange := Change CallgentInfo StoredEntryRow OldEntry

/-- What the model says of an entry or a callgent. -/
structure Summary where
  summary : Value
  instruction : Value
  totally : Bool

/-! ## Summaries in the database -/

def ofColumn (text : Option Text) : Value :=
  some ((text.map Json.str).getD .null)

def EntryInfo.ofRow (row : StoredEntryRow) : EntryInfo where
  id := row.key
  summary := ofColumn row.value.summary
  instruction := ofColumn row.value.instruction
  callgentId := row.value.callgentId

def CallgentInfo.ofRow (row : CallgentRow) : CallgentInfo where
  id := row.key
  name := some row.value.name
  summary := ofColumn row.value.summary
  instruction := ofColumn row.value.instruction

/-- `a === b`, for texts and what is not there. -/
def sameText : Value -> Value -> Bool
  | none, none => true
  | some .null, some .null => true
  | some (.str a), some (.str b) => a == b
  | _, _ => false

def summaryMaxLen : Nat := 4095

def overwrite (old : Option Text) : Value -> Except Thrown (Option Text)
  | none => .ok old
  | some .null => .ok none
  | some (.str text) =>
      if summaryMaxLen < text.length then .error (databaseError "P2000".toList)
      else .ok (some text)
  | some _ => .error (.plain "PrismaClientValidationError".toList)

/-- `entriesService.update`, with the row that it returns. -/
def updateEntrySummary (c : Tables) (id : Text) (result : Summary) :
    Except Thrown (Tables × StoredEntryRow) := do
  let row ← findEntry c id
  let summary ← overwrite row.value.summary result.summary
  let instruction ← overwrite row.value.instruction result.instruction
  let write (entry : StoredEntry) : StoredEntry :=
    { entry with summary := summary, instruction := instruction }
  return ({ c with entries := c.entries.edit row.pk write },
    { row with value := write row.value })

/-- `callgentsService.update`. -/
def updateCallgentSummary (c : Tables) (id : Text) (result : Summary) :
    Except Thrown Tables := do
  if id.isEmpty then return c
  let row ← Config.written recordNotFound (c.callgents.findUnique id)
  let summary ← overwrite row.value.summary result.summary
  let instruction ← overwrite row.value.instruction result.instruction
  return { c with callgents := c.callgents.edit row.pk fun callgent =>
    { callgent with summary := summary, instruction := instruction } }

/-- A callgent that is read is viewed once more. -/
def viewed (pk : Nat) (c : Tables) : Tables :=
  { c with callgents := c.callgents.edit pk fun callgent =>
      { callgent with viewed := callgent.viewed + 1 } }

/-! ## The listeners -/

def readNull : Thrown :=
  .typeError "Cannot read properties of null (reading 'id')".toList

structure Listener (info new old : Type) where
  /-- What is summarized, and the row of a callgent that is viewed. -/
  load : Tables -> info -> Except Thrown (info × Option Nat)
  /-- All that belongs to it. -/
  findAll : Tables -> info -> List new
  /-- The summary is stored, unless it is the same, and is told. -/
  conclude : Tables -> Text -> info -> Summary ->
    Except Thrown (Tables × Option EntriesChange)

/-- `EndpointsChangedSumEntryListener`. -/
def endpointsChanged :
    Listener EntryInfo StoredEndpointRow StoredEndpointRow where
  load c oldEntry :=
    if oldEntry.callgentId.isEmpty then
      match c.entries.findUnique oldEntry.id with
      | none => .error readNull
      | some row => .ok (.ofRow row, none)
    else .ok (oldEntry, none)
  findAll c oldEntry :=
    c.endpoints.rows.filter fun row => row.value.entryId == some oldEntry.id
  conclude c opBy oldEntry result :=
    if sameText result.summary oldEntry.summary &&
        sameText result.instruction oldEntry.instruction then
      .ok (c, none)
    else do
      let (c, newEntry) ← updateEntrySummary c oldEntry.id result
      return (c, some {
        opBy := opBy
        target := ⟨oldEntry.callgentId, none, none, none⟩
        news := some [newEntry]
        olds := some [.known newEntry.pk oldEntry]
        totally := false })

/-- `EntriesChangedSumCallgentListener`. -/
def entriesChanged : Listener CallgentInfo StoredEntryRow OldEntry where
  load c callgent :=
    match callgent.name with
    | some _ => .ok (callgent, none)
    | none =>
        match c.callgents.findUnique callgent.id with
        | none => .error readNull
        | some row => .ok (.ofRow row, some row.pk)
  findAll c callgent :=
    c.entries.rows.filter fun row =>
      row.value.callgentId == callgent.id && row.value.type == .server
  conclude c _ callgent result := do
    let c ← updateCallgentSummary c callgent.id result
    return (c, none)

/-! ## `handleEvent` -/

/-- An event with what is summarized; a callgent that has been viewed is
written when the transaction ends. -/
structure Handling (info new old : Type) where
  data : Change info new old
  views : Option Nat

/-- Where `handleEvent` has come to. -/
inductive Stage (info new old : Type) where
  | queued (data : Change info new old)
  | loaded (handling : Handling info new old)
  | answered (handling : Handling info new old) (result : Summary)
  | listed (handling : Handling info new old) (news : List new)
  | concluding (handling : Handling info new old) (result : Summary)

/-- What a part of `handleEvent` comes to; there is no stage after its end. -/
structure Advance (info new old : Type) where
  tables : Tables
  stage : Option (Stage info new old)
  asked : Option (Change info new old)
  emitted : Option EntriesChange

section Listener

variable {info new old : Type}

def Handling.writes (handling : Handling info new old) (c : Tables) : Tables :=
  match handling.views with
  | none => c
  | some pk => viewed pk c

def rolledBack (c : Tables) : Advance info new old := ⟨c, none, none, none⟩

def Listener.finish (listener : Listener info new old) (c : Tables)
    (handling : Handling info new old) (result : Summary) :
    Advance info new old :=
  match listener.conclude (handling.writes c) handling.data.opBy
      handling.data.target result with
  | .error _ => rolledBack c
  | .ok (c, emitted) => ⟨c, none, none, emitted⟩

def totalChange (data : Change info new old) (news : List new) :
    Change info new old where
  opBy := data.opBy
  target := data.target
  news := some news
  olds := none
  totally := true

/-- `handleEvent` up to the next time that it awaits something; `answer` is
that of the model, if it is asked. -/
def Listener.advance (listener : Listener info new old) (c : Tables)
    (answer : Except Thrown Summary) :
    Stage info new old -> Advance info new old
  | .queued data =>
      match listener.load c data.target with
      | .error _ => rolledBack c
      | .ok (target, views) =>
          ⟨c, some (.loaded ⟨{ data with target := target }, views⟩), none,
            none⟩
  | .loaded handling =>
      ⟨c, answer.toOption.map (.answered handling), some handling.data, none⟩
  | .answered handling result =>
      if result.totally then
        match listener.findAll c handling.data.target with
        | [] => ⟨handling.writes c, none, none, none⟩
        | news => ⟨c, some (.listed handling news), none, none⟩
      else listener.finish c handling result
  | .listed handling news =>
      ⟨c, answer.toOption.map (.concluding handling),
        some (totalChange handling.data news), none⟩
  | .concluding handling result => listener.finish c handling result

end Listener

/-! ## Everything that goes on -/

abbrev EntryStage := Stage EntryInfo StoredEndpointRow StoredEndpointRow

abbrev CallgentStage := Stage CallgentInfo StoredEntryRow OldEntry

/-- The rows, the events that are handled, what the model has been asked, and
what has been told of entries. -/
structure State where
  tables : Tables
  entries : List EntryStage
  callgents : List CallgentStage
  summarizeEntry : List EndpointsChange
  summarizeCallgent : List EntriesChange
  emitted : List EntriesChange

inductive Label where
  /-- Endpoints have been created, updated or deleted. -/
  | endpointsChanged (data : EndpointsChange)
  /-- An entry has been deleted. -/
  | entriesChanged (data : EntriesChange)
  /-- The rows are changed by others. -/
  | outside (tables : Tables)
  | entry (i : Nat) (answer : Except Thrown Summary)
  | callgent (i : Nat) (answer : Except Thrown Summary)
  /-- The transaction is given up. -/
  | abortEntry (i : Nat)
  | abortCallgent (i : Nat)

def State.start (c : Tables) : State := ⟨c, [], [], [], [], []⟩

/-- The `i`-th stage replaced, or dropped. -/
def put {stage : Type} (stages : List stage) (i : Nat) :
    Option stage -> List stage
  | none => stages.eraseIdx i
  | some next => stages.set i next

def State.advanceEntry (s : State) (i : Nat)
    (a : Advance EntryInfo StoredEndpointRow StoredEndpointRow) : State where
  tables := a.tables
  entries := put s.entries i a.stage
  callgents := s.callgents ++ a.emitted.toList.map .queued
  summarizeEntry := s.summarizeEntry ++ a.asked.toList
  summarizeCallgent := s.summarizeCallgent
  emitted := s.emitted ++ a.emitted.toList

def State.advanceCallgent (s : State) (i : Nat)
    (a : Advance CallgentInfo StoredEntryRow OldEntry) : State where
  tables := a.tables
  entries := s.entries
  callgents := put s.callgents i a.stage ++ a.emitted.toList.map .queued
  summarizeEntry := s.summarizeEntry
  summarizeCallgent := s.summarizeCallgent ++ a.asked.toList
  emitted := s.emitted ++ a.emitted.toList

def step (s : State) : Label -> Option State
  | .endpointsChanged data =>
      some { s with entries := s.entries ++ [.queued data] }
  | .entriesChanged data =>
      some { s with callgents := s.callgents ++ [.queued data] }
  | .outside tables => some { s with tables := tables }
  | .entry i answer =>
      (s.entries[i]?).map fun stage =>
        s.advanceEntry i (endpointsChanged.advance s.tables answer stage)
  | .callgent i answer =>
      (s.callgents[i]?).map fun stage =>
        s.advanceCallgent i (entriesChanged.advance s.tables answer stage)
  | .abortEntry i =>
      (s.entries[i]?).map fun _ => { s with entries := s.entries.eraseIdx i }
  | .abortCallgent i =>
      (s.callgents[i]?).map fun _ =>
        { s with callgents := s.callgents.eraseIdx i }

end Summaries
end CallgentApi
