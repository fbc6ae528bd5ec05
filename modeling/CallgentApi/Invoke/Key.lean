import CallgentApi.Lib.JsString

/-!
# Invoke keys

An invoke key names an invocation of an event.  It is composed in three places
and parsed in one, which takes everything up to the first `-` for the invoke
id.  The ids of script commands start with that character themselves.
-/

namespace CallgentApi
namespace Invoke

open Js

/-- The invoke ids an invocation can carry: the empty one of a direct
invocation, or the code of a script command, counted down from `-1`. -/
inductive InvokeId where
  | direct
  | command (n : Nat)
deriving DecidableEq

namespace InvokeId

def text : InvokeId -> Text
  | direct => []
  | command n => decimal (Int.negSucc n)

theorem text_command (n : Nat) :
    (command n).text = '-' :: Nat.toDigits 10 (n + 1) :=
  decimal_negSucc n

end InvokeId

structure ParsedKey where
  invokeId : Text
  eventId : Text
deriving DecidableEq

def parseInvokeKey (invokeKey : Text) : ParsedKey :=
  let idx := indexOf invokeKey '-'
  { invokeId := substring invokeKey 0 idx
    eventId := substringFrom invokeKey (idx + 1) }

def composeInvokeKey (invokeId eventId : Text) : Text :=
  invokeId ++ '-' :: eventId

/-- The observer that `CachedService.fromCached` adds to a pending row. -/
def observerKey (invokeId eventId : Text) : Text :=
  invokeId ++ '-' :: eventId

/-- The relay id that `EmailAdaptor.invoke` puts into the mail. -/
def relayId (invokeId eventId : Text) : Text :=
  invokeId ++ '-' :: eventId

inductive KeySite where
  | invokeService
  | cachedService
  | emailAdaptor

def KeySite.compose : KeySite -> Text -> Text -> Text
  | invokeService => composeInvokeKey
  | cachedService => observerKey
  | emailAdaptor => relayId

@[simp] theorem KeySite.compose_eq (site : KeySite) :
    site.compose = composeInvokeKey := by
  cases site <;> rfl

theorem parseInvokeKey_of_not_mem {invokeId : Text} (h : '-' ∉ invokeId)
    (eventId : Text) :
    parseInvokeKey (composeInvokeKey invokeId eventId) =
      { invokeId := invokeId, eventId := eventId } := by
  unfold parseInvokeKey composeInvokeKey
  simp only [indexOf_append_cons h, substring_zero_append,
    substringFrom_append_cons]

theorem parseInvokeKey_invokeId_ne_cons (invokeKey rest : Text) :
    (parseInvokeKey invokeKey).invokeId ≠ '-' :: rest := by
  intro h
  have hnotMem := not_mem_substring_zero_indexOf invokeKey '-'
  change '-' ∉ (parseInvokeKey invokeKey).invokeId at hnotMem
  rw [h] at hnotMem
  exact hnotMem List.mem_cons_self

/-- The names of `Object.prototype`.  `invocations[id]` finds something under
them in every event, but no invocation. -/
def inheritedNames : List Text :=
  ["constructor".toList, "__proto__".toList, "hasOwnProperty".toList,
    "isPrototypeOf".toList, "propertyIsEnumerable".toList,
    "toLocaleString".toList, "toString".toList, "valueOf".toList,
    "__defineGetter__".toList, "__defineSetter__".toList,
    "__lookupGetter__".toList, "__lookupSetter__".toList]

/-- An invoke key of an event: its invoke id is not an inherited name. -/
structure IsKeyOf (eventId invokeKey : Text) : Prop where
  eventId_eq : (parseInvokeKey invokeKey).eventId = eventId
  not_inherited : (parseInvokeKey invokeKey).invokeId ∉ inheritedNames

theorem isKeyOf_direct (eventId : Text) :
    IsKeyOf eventId (composeInvokeKey [] eventId) := by
  have hkey := parseInvokeKey_of_not_mem List.not_mem_nil eventId
  have hnil : [] ∉ inheritedNames := by decide
  constructor
  · rw [hkey]
  · rw [hkey]
    exact hnil

/-- Wherever a key was composed, parsing returns its parts exactly when the
invocation is a direct one. -/
theorem parseInvokeKey_compose_iff (site : KeySite) (i : InvokeId)
    (eventId : Text) :
    parseInvokeKey (site.compose i.text eventId) =
        { invokeId := i.text, eventId := eventId } <->
      i = .direct := by
  rw [KeySite.compose_eq]
  constructor
  · intro h
    cases i with
    | direct => rfl
    | command n =>
        have hid := congrArg ParsedKey.invokeId h
        rw [InvokeId.text_command] at hid
        exact absurd hid (parseInvokeKey_invokeId_ne_cons _ _)
  · rintro rfl
    exact parseInvokeKey_of_not_mem List.not_mem_nil eventId

/-- The key of a script's first command on event `abc` is read as a direct
invocation of an event `1-abc`. -/
theorem parseInvokeKey_firstCommand :
    parseInvokeKey
        (composeInvokeKey (InvokeId.command 0).text "abc".toList) =
          { invokeId := [], eventId := "1-abc".toList } ∧
      parseInvokeKey
        (composeInvokeKey (InvokeId.command 0).text "abc".toList) ≠
          { invokeId := (InvokeId.command 0).text
            eventId := "abc".toList } := by
  decide

end Invoke
end CallgentApi
