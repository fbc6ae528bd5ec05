import CallgentApi.Event.Engine
import CallgentApi.Lib.Fallible
import CallgentApi.Lib.Json

/-!
# The responses in a mail

An endpoint that is called by mail shows which responses it may give.  The
schemas of a response are walked through, and what the walk takes for granted
of a schema or a media type decides whether the mail can be written.
-/

namespace CallgentApi
namespace Emails

open Js Event

/-- A schema of an API, with its other keywords. -/
inductive Schema where
  | mk (type format pattern description : Option Text)
      (enum : Option (List Json)) (required : Value) (items : Option Schema)
      (properties : Option (List (Text × Schema)))
      (others : List (Text × Json))

namespace Schema

def required : Schema -> Value
  | mk _ _ _ _ _ required _ _ _ => required

/-- The schema with another `required`. -/
def withRequired (required : Value) : Schema -> Schema
  | mk type format pattern description enum _ items properties others =>
      mk type format pattern description enum required items properties others

end Schema

inductive Formatted where
  | list (items : List Formatted)
  | object (properties : List (Text × Formatted))
  | text (s : Text)
  | schema (s : Schema)
  | example (v : Json)

def keyword (label : String) (value : Option Text) : Text :=
  match value with
  | some s => label.toList ++ (s ++ ", ".toList)
  | none => []

def describeText (format pattern description : Option Text)
    (enum : Option (List Json)) : Text :=
  keyword "format: " (truthy format) ++
    (keyword "pattern: " (truthy pattern) ++
      (keyword "enums: " (enum.map fun values =>
          Json.stringify (.arr values)) ++
        (truthy description).getD "string".toList))

/-- The name of a property, marked where it has a `required` of its own. -/
def markedName (name : Text) (schema : Schema) : Text :=
  if (schema.required.filter Json.truthy).isSome then name ++ ['*'] else name

mutual

/-- `_formatSchema`, with what stands for `required` in the schema. -/
def formatAs (required : Value) : Schema -> Except Thrown Formatted
  | .mk type format pattern description enum own items properties others =>
      if type = some "array".toList then
        match items with
        | none => .error (.readUndefined "type".toList)
        | some items => do
            let item ← formatAs items.required items
            return .list [item]
      else if type = some "object".toList then
        match properties with
        | none =>
            .error (.typeError
              "Cannot convert undefined or null to object".toList)
        | some properties => do
            let props ← formatProperties [] properties
            return .object props
      else if type = some "string".toList then
        .ok (.text (describeText format pattern description enum))
      else
        .ok (.schema ((Schema.mk type format pattern description enum own
          items properties others).withRequired required))

def formatProperties (props : List (Text × Formatted)) :
    List (Text × Schema) -> Except Thrown (List (Text × Formatted))
  | [] => .ok props
  | (name, schema) :: rest => do
      let formatted ← formatAs none schema
      formatProperties (assignEntry props (markedName name schema) formatted)
        rest

end

/-- `_formatSchema`. -/
def formatSchema (schema : Schema) : Except Thrown Formatted :=
  formatAs schema.required schema

structure MediaType where
  schema : Option Schema
  examples : Option (List (Text × Json))
  example_ : Value

def formatOne (c : MediaType) : Except Thrown (List Formatted) :=
  match c.schema with
  | some schema => do
      let formatted ← formatSchema schema
      return [formatted]
  | none =>
      match c.examples with
      | some _ => .error (.typeError
          "Spread syntax requires ...iterable[Symbol.iterator] to be a function".toList)
      | none => .ok (((c.example_.filter Json.truthy).map .example).toList)

def unwrapOne (list : List Formatted) : Formatted :=
  match list with
  | [one] => one
  | list => .list list

/-- `_formatMediaType`. -/
def formatMediaType (content : Option (List (Text × MediaType))) :
    Except Thrown (Option Formatted) :=
  match content with
  | none => .ok none
  | some content => do
      let lists ← content.mapM fun c => formatOne c.2
      return some (unwrapOne lists.flatten)

structure ResponseObject where
  description : Text
  content : Option (List (Text × MediaType))

/-- The responses of an endpoint, by their status or `default`. -/
structure Responses where
  entries : List (Text × ResponseObject)
  nodup : (entries.map Prod.fst).Nodup

/-- A response as the mail shows it; the default one is not formatted. -/
inductive MailResponse where
  | default (response : ResponseObject) (name : Text)
  | status (name description : Text) (content : Option Formatted)

def defaultKey : Text := "default".toList

def defaultResponse (response : ResponseObject) : MailResponse :=
  .default response "Default Response".toList

def mailResponse (httpStatus : Text -> Option Text)
    (entry : Text × ResponseObject) : Except Thrown MailResponse := do
  let content ← formatMediaType entry.2.content
  return .status ((httpStatus entry.1).getD entry.1) entry.2.description content

/-- `_responses30x`, with the texts of statuses. -/
def responses30x (httpStatus : Text -> Option Text)
    (responses : Option Responses) : Except Thrown (List MailResponse) :=
  match responses with
  | none => .ok []
  | some responses => do
      let byDefault := (responses.entries.lookup defaultKey).map defaultResponse
      let list ← (responses.entries.filter fun entry =>
        entry.1 != defaultKey).mapM (mailResponse httpStatus)
      return byDefault.toList ++ list

/-! ## What the walk takes for granted -/

mutual

/-- An object says its properties and an array its items, all the way down. -/
def Complete : Schema -> Prop
  | .mk type _ _ _ _ _ items properties _ =>
      if type = some "array".toList then
        match items with
        | none => False
        | some items => Complete items
      else if type = some "object".toList then
        match properties with
        | none => False
        | some properties => CompleteAll properties
      else True

def CompleteAll : List (Text × Schema) -> Prop
  | [] => True
  | (_, schema) :: rest => Complete schema ∧ CompleteAll rest

end

def MediaType.Complete (c : MediaType) : Prop :=
  match c.schema with
  | some schema => Emails.Complete schema
  | none => c.examples = none

def ResponseObject.Complete (response : ResponseObject) : Prop :=
  forall content, response.content = some content ->
    forall c, c ∈ content -> c.2.Complete

/-- The response is listed: the default one as it is, another one with its
status and its description. -/
def Lists (httpStatus : Text -> Option Text) (entry : Text × ResponseObject) :
    MailResponse -> Prop
  | .default response name =>
      entry.1 = defaultKey ∧ response = entry.2 ∧
        name = "Default Response".toList
  | .status name description _ =>
      entry.1 ≠ defaultKey ∧ name = (httpStatus entry.1).getD entry.1 ∧
        description = entry.2.description

def ListsOnce (httpStatus : Text -> Option Text)
    (responses : Option Responses) : Prop :=
  exists list, responses30x httpStatus responses = .ok list ∧
    exists entries : List (Text × ResponseObject),
      entries.Perm ((responses.map Responses.entries).getD []) ∧
        List.Forall₂ (Lists httpStatus) entries list

/-! ## When the walk ends well -/

theorem isOk_bind {a b : Type} {x : Except Thrown a} {f : a -> b} :
    (exists v, (do let v ← x; return f v : Except Thrown b) = .ok v) <->
      exists v, x = .ok v := by
  cases x with
  | ok v => exact ⟨fun _ => ⟨v, rfl⟩, fun _ => ⟨f v, rfl⟩⟩
  | error e =>
      constructor
      · intro h
        rcases h with ⟨v, hv⟩
        cases hv
      · intro h
        rcases h with ⟨v, hv⟩
        cases hv

theorem not_exists_ok {a : Type} (e : Thrown) :
    ¬exists v : a, (.error e : Except Thrown a) = .ok v := by
  intro h
  rcases h with ⟨v, hv⟩
  cases hv

mutual

theorem formatAs_ok_iff (required : Value) (schema : Schema) :
    (exists f, formatAs required schema = .ok f) <-> Complete schema := by
  match schema with
  | .mk type format pattern description enum own items properties others =>
      unfold formatAs Complete
      by_cases harray : type = some "array".toList
      · rw [if_pos harray, if_pos harray]
        match items with
        | none => exact iff_of_false (not_exists_ok _) id
        | some items =>
            exact isOk_bind.trans (formatAs_ok_iff items.required items)
      · rw [if_neg harray, if_neg harray]
        by_cases hobject : type = some "object".toList
        · rw [if_pos hobject, if_pos hobject]
          match properties with
          | none => exact iff_of_false (not_exists_ok _) id
          | some properties =>
              exact isOk_bind.trans (formatProperties_ok_iff [] properties)
        · rw [if_neg hobject, if_neg hobject]
          apply iff_of_true
          · split
            · exact ⟨_, rfl⟩
            · exact ⟨_, rfl⟩
          · exact True.intro

theorem formatProperties_ok_iff (props : List (Text × Formatted))
    (properties : List (Text × Schema)) :
    (exists l, formatProperties props properties = .ok l) <->
      CompleteAll properties := by
  match properties with
  | [] => exact iff_of_true ⟨props, rfl⟩ True.intro
  | (name, schema) :: rest =>
      unfold formatProperties CompleteAll
      rw [← formatAs_ok_iff none schema]
      cases hformatted : formatAs none schema with
      | error e =>
          exact iff_of_false (not_exists_ok e)
            fun h => not_exists_ok e h.left
      | ok formatted =>
          have hrest := formatProperties_ok_iff
            (assignEntry props (markedName name schema) formatted) rest
          exact hrest.trans (and_iff_right ⟨formatted, rfl⟩).symm

end

theorem formatOne_ok_iff (c : MediaType) :
    (exists l, formatOne c = .ok l) <-> c.Complete := by
  unfold formatOne MediaType.Complete
  cases hschema : c.schema with
  | some schema =>
      exact isOk_bind.trans (formatAs_ok_iff schema.required schema)
  | none =>
      cases hexamples : c.examples with
      | none => exact iff_of_true ⟨_, rfl⟩ rfl
      | some examples =>
          exact iff_of_false (not_exists_ok _) (Option.some_ne_none examples)

theorem mapM_ok_iff {a b : Type} (f : a -> Except Thrown b) (l : List a) :
    (exists results, l.mapM f = .ok results) <->
      forall x, x ∈ l -> exists v, f x = .ok v := by
  induction l with
  | nil => exact iff_of_true ⟨[], rfl⟩ fun _ h => (nomatch h)
  | cons first rest ih =>
      rw [List.forall_mem_cons, ← ih, List.mapM_cons]
      cases hfirst : f first with
      | error e =>
          exact iff_of_false (not_exists_ok e) fun h => not_exists_ok e h.left
      | ok v =>
          exact isOk_bind.trans (and_iff_right ⟨v, rfl⟩).symm

theorem formatMediaType_ok_iff (content : Option (List (Text × MediaType))) :
    (exists f, formatMediaType content = .ok f) <->
      forall list, content = some list ->
        forall c, c ∈ list -> c.2.Complete := by
  cases content with
  | none => exact iff_of_true ⟨none, rfl⟩ fun _ h => (nomatch h)
  | some list =>
      have hall : (exists f, formatMediaType (some list) = .ok f) <->
          forall c, c ∈ list -> c.2.Complete := by
        refine isOk_bind.trans ?_
        rw [mapM_ok_iff]
        exact forall₂_congr fun c _ => formatOne_ok_iff c.2
      constructor
      · intro h other hother
        rw [← Option.some.inj hother]
        exact hall.mp h
      · intro h
        exact hall.mpr (h list rfl)

theorem mailResponse_ok_iff (httpStatus : Text -> Option Text)
    (entry : Text × ResponseObject) :
    (exists m, mailResponse httpStatus entry = .ok m) <->
      entry.2.Complete := by
  unfold mailResponse
  exact isOk_bind.trans (formatMediaType_ok_iff entry.2.content)

theorem lists_of_mailResponse {httpStatus : Text -> Option Text}
    {entry : Text × ResponseObject} {m : MailResponse}
    (hkey : entry.1 ≠ defaultKey) (h : mailResponse httpStatus entry = .ok m) :
    Lists httpStatus entry m := by
  rcases Fallible.exists_of_bind_ok h with ⟨content, _, hm⟩
  cases hm
  exact ⟨hkey, rfl, rfl⟩

/-! ## Which responses are listed -/

theorem filter_default {entries : List (Text × ResponseObject)}
    (hnodup : (entries.map Prod.fst).Nodup) :
    (entries.filter fun entry => entry.1 == defaultKey) =
      ((entries.lookup defaultKey).map fun response =>
        (defaultKey, response)).toList := by
  induction entries with
  | nil => rfl
  | cons entry rest ih =>
      rcases entry with ⟨key, response⟩
      rcases List.nodup_cons.mp hnodup with ⟨hkey, hrest⟩
      rw [List.lookup_cons]
      by_cases hdefault : key = defaultKey
      · rw [hdefault] at hkey ⊢
        have hnone : (rest.filter fun entry => entry.1 == defaultKey) = [] := by
          apply List.filter_eq_nil_iff.mpr
          intro other hother heq
          have hmem := List.mem_map_of_mem (f := Prod.fst) hother
          rw [beq_iff_eq.mp heq] at hmem
          exact hkey hmem
        rw [List.filter_cons, hnone, beq_self_eq_true]
        rfl
      · rw [List.filter_cons, beq_false_of_ne (Ne.symm hdefault), ih hrest]
        exact if_neg (by rw [beq_iff_eq]; exact hdefault)

section Listing

variable (httpStatus : Text -> Option Text) (responses : Responses)

def Responses.byStatus : List (Text × ResponseObject) :=
  responses.entries.filter fun entry => entry.1 != defaultKey

theorem mem_byStatus {entry : Text × ResponseObject} :
    entry ∈ responses.byStatus <->
      entry ∈ responses.entries ∧ entry.1 ≠ defaultKey := by
  unfold Responses.byStatus
  rw [List.mem_filter, bne_iff_ne]

theorem perm_default_first :
    (((responses.entries.lookup defaultKey).map fun response =>
        (defaultKey, response)).toList ++ responses.byStatus).Perm
      responses.entries := by
  rw [← filter_default responses.nodup]
  exact List.filter_append_perm _ responses.entries

theorem listsOnce_of_ok {list : List MailResponse}
    (h : responses30x httpStatus (some responses) = .ok list) :
    ListsOnce httpStatus (some responses) := by
  refine ⟨list, h, _, perm_default_first responses, ?_⟩
  rcases Fallible.exists_of_bind_ok h with ⟨byStatus, hbyStatus, h1⟩
  cases h1
  apply List.rel_append
  · cases responses.entries.lookup defaultKey with
    | none => exact List.Forall₂.nil
    | some response =>
        exact List.Forall₂.cons ⟨rfl, rfl, rfl⟩ List.Forall₂.nil
  · have hkeys : forall entry, entry ∈ responses.byStatus ->
        entry.1 ≠ defaultKey :=
      fun entry hentry => ((mem_byStatus responses).mp hentry).right
    have hboth := (List.forall₂_and_left _ _).mpr
      ⟨hkeys, Fallible.forall₂_of_mapM hbyStatus⟩
    apply hboth.imp
    intro entry m h
    exact lists_of_mailResponse h.left h.right

end Listing

/-- The responses are listed when the walk ends well in each with a status. -/
theorem listsOnce_iff (httpStatus : Text -> Option Text)
    (responses : Option Responses) :
    ListsOnce httpStatus responses <->
      forall given, responses = some given ->
        forall entry, entry ∈ given.entries ->
          entry.1 ≠ defaultKey -> entry.2.Complete := by
  cases responses with
  | none =>
      apply iff_of_true
      · exact ⟨[], rfl, [], List.Perm.refl [], List.Forall₂.nil⟩
      · intro given h
        cases h
  | some given =>
      have hall : (exists list, responses30x httpStatus (some given) = .ok list)
          <-> forall entry, entry ∈ given.byStatus -> entry.2.Complete := by
        refine isOk_bind.trans ?_
        rw [← Responses.byStatus, mapM_ok_iff]
        exact forall₂_congr fun entry _ => mailResponse_ok_iff httpStatus entry
      constructor
      · intro h other hother entry hentry hkey
        rw [← Option.some.inj hother] at hentry
        rcases h with ⟨list, hlist, _⟩
        exact hall.mp ⟨list, hlist⟩ entry
          ((mem_byStatus given).mpr ⟨hentry, hkey⟩)
      · intro h
        have hcomplete : forall entry, entry ∈ given.byStatus ->
            entry.2.Complete := by
          intro entry hentry
          rcases (mem_byStatus given).mp hentry with ⟨hmem, hkey⟩
          exact h given rfl entry hmem hkey
        rcases hall.mpr hcomplete with ⟨list, hlist⟩
        exact listsOnce_of_ok httpStatus given hlist

def anyObject : Responses where
  entries := [("200".toList, ⟨"ok".toList, some [("application/json".toList,
    ⟨some (.mk (some "object".toList) none none none none none none none []),
      none, none⟩)]⟩)]
  nodup := by decide

theorem not_listsOnce_anyObject :
    ¬ListsOnce (fun _ => none) (some anyObject) := by
  intro h
  rcases h with ⟨list, hlist, _⟩
  cases hlist

end Emails
end CallgentApi
