import Mathlib.Data.List.DropRight
import CallgentApi.Lib.Search
import CallgentApi.Event.Engine

/-!
# Relayed emails

An invocation by email carries its id at the end of the subject, which is cut
out of the title of the email; the reply is recognised by its recipient and
its id is read behind the last `#` of its subject.
-/

namespace CallgentApi
namespace Emails

open Js Event

/-! ## Sending -/

inductive EmailRelayKey where
  | request
  | callgent
deriving DecidableEq

def EmailRelayKey.text : EmailRelayKey -> Text
  | request => "request".toList
  | callgent => "callgent".toList

/-- `EmailsService.getRelayAddress`. -/
def getRelayAddress (mailHost id : Text) (relayType : EmailRelayKey) : Text :=
  relayType.text ++ '+' :: (id ++ '@' :: mailHost)

/-- What the title of `relay-sep-invoke` names. -/
structure RelayContext where
  relayId : Text
  callgentName : Text
  endpointName : Text

def openTitle : Text := "<title>".toList

def closeTitle : Text := "</title>".toList

/-- The template up to the title; `dot` takes the line breaks away. -/
def templateHead : Text :=
  ("<!DOCTYPE html><html lang=\"en\"><head><meta charset=\"utf-8\">" ++
    "<!-- relay email title always ends with #relayId -->").toList

def titleHead (ctx : RelayContext) : Text :=
  "[Callgent] Function calling: '".toList ++ ctx.endpointName ++
    "' of Callgent ".toList ++ ctx.callgentName ++ ". ".toList

def title (ctx : RelayContext) : Text :=
  titleHead ctx ++ '#' :: ctx.relayId

/-- `relay-sep-invoke.dot`, with `body` for what follows the title. -/
def relaySepInvoke (ctx : RelayContext) (body : Text) : Text :=
  templateHead ++ (openTitle ++ (title ctx ++ (closeTitle ++ body)))

/-- `_extractSubject`. -/
def extractSubject (content : Text) : Option Text :=
  match findText openTitle content with
  | none => none
  | some idx =>
      some (trim (substring content (Int.ofNat (idx + 7))
        (indexOfText content closeTitle 0)))

structure Email where
  recipient : Text
  sender : Text
  subject : Text
  content : Text

/-- `sendTemplateEmail`, up to the call of the mail service. -/
def sendTemplateEmail (recipient sender content template : Text) :
    Except Thrown Email :=
  match truthy (extractSubject content) with
  | none => .error (.plain ("No subject found. template=".toList ++ template))
  | some subject => .ok ⟨recipient, sender, subject, content⟩

/-- What `EmailAdaptor.invoke` puts into the email. -/
structure Invocation where
  eventId : Text
  invokeId : Text
  endpointName : Text
  callgentName : Text

namespace Invocation

/-- `${ctx.invokeId}-${reqEvent.id}`. -/
def relayId (i : Invocation) : Text :=
  i.invokeId ++ '-' :: i.eventId

def context (i : Invocation) : RelayContext where
  relayId := i.relayId
  callgentName := i.callgentName
  endpointName := i.endpointName

end Invocation

/-- `EmailAdaptor.invoke`, with the host of the entry and the rest of the
email. -/
def invoke (mailHost emailTo body : Text) (i : Invocation) :
    Except Thrown Email :=
  sendTemplateEmail emailTo (getRelayAddress mailHost i.eventId .request)
    (relaySepInvoke i.context body) "relay-sep-invoke".toList

/-! ## Receiving -/

structure RelayEmail where
  rcptTo : Option Text
  subject : Text

/-- `EmailRelayEvent`. -/
structure EmailRelayEvent where
  relayKey : EmailRelayKey
  relayId : Text

def relayIdOf (subject : Text) : Text :=
  afterLast subject '#'

/-- `EmailsService.handleRelayEmail`: the event it emits, if any. -/
def handleRelayEmail (mailHost : Text) (email : RelayEmail) :
    Option EmailRelayEvent :=
  match email.rcptTo with
  | none => none
  | some mailTo =>
      if endsWith mailTo mailHost then
        let relayKey := substring mailTo 0 (indexOf mailTo '+')
        let relayId := relayIdOf email.subject
        if relayKey = EmailRelayKey.request.text then some ⟨.request, relayId⟩
        else if relayKey = EmailRelayKey.callgent.text then
          some ⟨.callgent, relayId⟩
        else none
      else none

/-! ## The subject of an invocation -/

theorem findText_openTitle (ctx : RelayContext) (body : Text) :
    findText openTitle (relaySepInvoke ctx body) =
      some templateHead.length := by
  have hapart : apart openTitle templateHead = true := by decide +kernel
  unfold relaySepInvoke
  rw [findText_append_of_apart hapart, findText_append_self, Option.map_some,
    Nat.add_zero]

theorem findText_closeTitle (ctx : RelayContext) (body : Text) :
    findText closeTitle (relaySepInvoke ctx body) =
      some (templateHead.length +
        (openTitle.length + (before closeTitle (title ctx)).length)) := by
  have hhead : apart closeTitle templateHead = true := by decide +kernel
  have hopen : apart closeTitle openTitle = true := by decide +kernel
  have hclose : apart closeTitle closeTitle.tail = true := by decide +kernel
  unfold relaySepInvoke
  rw [findText_append_of_apart hhead, findText_append_of_apart hopen,
    findText_append_needle hclose, Option.map_some, Option.map_some]

def cutTitle (ctx : RelayContext) : Text :=
  before closeTitle (title ctx)

theorem extractSubject_relaySepInvoke (ctx : RelayContext) (body : Text) :
    extractSubject (relaySepInvoke ctx body) = some (trim (cutTitle ctx)) := by
  have hclamp : clamp (relaySepInvoke ctx body) 0 = 0 := rfl
  have hclose : indexOfText (relaySepInvoke ctx body) closeTitle 0 =
      Int.ofNat ((templateHead ++ openTitle).length +
        (cutTitle ctx).length) := by
    unfold indexOfText
    rw [hclamp, List.drop_zero, findText_closeTitle, List.length_append,
      Nat.add_assoc]
    dsimp only
    rw [Nat.zero_add]
    rfl
  have hprefix : cutTitle ctx <+: title ctx := before_prefix _ _
  rcases hprefix with ⟨rest, hrest⟩
  have hcontent : relaySepInvoke ctx body =
      (templateHead ++ openTitle) ++
        (cutTitle ctx ++ (rest ++ (closeTitle ++ body))) := by
    unfold relaySepInvoke
    rw [← hrest, List.append_assoc, List.append_assoc]
  have hopen : templateHead.length + 7 = (templateHead ++ openTitle).length := by
    have hseven : openTitle.length = 7 := rfl
    rw [List.length_append, hseven]
  unfold extractSubject
  rw [findText_openTitle]
  dsimp only
  rw [hclose, hopen, hcontent, substring_append]

/-! ## The recipient of a reply -/

theorem relayKey_eq_iff (mailTo : Text) (key : EmailRelayKey) :
    substring mailTo 0 (indexOf mailTo '+') = key.text <->
      exists tail, mailTo = key.text ++ '+' :: tail := by
  have hkey : '+' ∉ key.text := by
    cases key with
    | request => decide
    | callgent => decide
  constructor
  · intro h
    by_cases hmem : '+' ∈ mailTo
    · rcases List.eq_append_cons_of_mem hmem with ⟨head, tail, heq, hnot⟩
      have hhead : substring mailTo 0 (indexOf mailTo '+') = head := by
        rw [heq, indexOf_append_cons hnot]
        exact substring_zero_append head ('+' :: tail)
      exists tail
      rw [← h, hhead]
      exact heq
    · have hnone : substring mailTo 0 (indexOf mailTo '+') = [] := by
        unfold indexOf
        rw [if_neg hmem]
        simp [substring, clamp]
      rw [hnone] at h
      cases key with
      | request => cases h
      | callgent => cases h
  · intro h
    rcases h with ⟨tail, heq⟩
    rw [heq, indexOf_append_cons hkey]
    exact substring_zero_append key.text ('+' :: tail)

theorem handleRelayEmail_eq_some_iff (mailHost subject : Text)
    (rcptTo : Option Text) (e : EmailRelayEvent) :
    handleRelayEmail mailHost ⟨rcptTo, subject⟩ = some e <->
      e.relayId = relayIdOf subject ∧
        exists tail, rcptTo = some (e.relayKey.text ++ '+' :: tail) ∧
          mailHost <:+ e.relayKey.text ++ '+' :: tail := by
  rcases e with ⟨relayKey, relayId⟩
  cases rcptTo with
  | none => simp [handleRelayEmail]
  | some mailTo =>
      have hsuffix : endsWith mailTo mailHost = true <-> mailHost <:+ mailTo :=
        List.isSuffixOf_iff_suffix
      have hkey := relayKey_eq_iff mailTo relayKey
      have hdistinct : EmailRelayKey.request.text ≠
          EmailRelayKey.callgent.text := by decide
      constructor
      · intro h
        unfold handleRelayEmail at h
        dsimp only at h
        split at h
        · rename_i hends
          have hread : substring mailTo 0 (indexOf mailTo '+') =
              relayKey.text ∧ relayId = relayIdOf subject := by
            split at h
            · rename_i hrequest
              cases h
              exact ⟨hrequest, rfl⟩
            · split at h
              · rename_i hcallgent
                cases h
                exact ⟨hcallgent, rfl⟩
              · cases h
          rcases hkey.mp hread.left with ⟨tail, heq⟩
          refine ⟨hread.right, tail, congrArg some heq, ?_⟩
          rw [← heq]
          exact hsuffix.mp hends
        · cases h
      · intro h
        rcases h with ⟨hid, tail, heq, hends⟩
        have hmail : mailTo = relayKey.text ++ '+' :: tail := Option.some.inj heq
        have hread := hkey.mpr ⟨tail, hmail⟩
        dsimp only at hid
        unfold handleRelayEmail
        dsimp only
        rw [← hmail] at hends
        rw [if_pos (hsuffix.mpr hends), hread, hid]
        cases relayKey with
        | request => rw [if_pos rfl]
        | callgent => rw [if_neg hdistinct.symm, if_pos rfl]

theorem handleRelayEmail_getRelayAddress (mailHost id subject : Text)
    (key : EmailRelayKey) :
    handleRelayEmail mailHost ⟨some (getRelayAddress mailHost id key), subject⟩ =
      some ⟨key, relayIdOf subject⟩ := by
  apply (handleRelayEmail_eq_some_iff _ _ _ _).mpr
  refine ⟨rfl, id ++ '@' :: mailHost, rfl, ?_⟩
  have hsplit : getRelayAddress mailHost id key =
      (key.text ++ '+' :: (id ++ ['@'])) ++ mailHost := by
    simp [getRelayAddress]
  show mailHost <:+ getRelayAddress mailHost id key
  rw [hsplit]
  exact List.suffix_append _ _

/-! ## The way back -/

/-- The id of an invocation is read from every reply to its email, whatever
stands before the subject. -/
def RoundTrips (mailHost emailTo body : Text) (i : Invocation) : Prop :=
  exists email, invoke mailHost emailTo body i = .ok email ∧
    forall front,
      handleRelayEmail mailHost ⟨some email.sender, front ++ email.subject⟩ =
        some ⟨.request, i.relayId⟩

/-- An event is emitted exactly for the addresses that `getRelayAddress`
gives. -/
def AcceptsAddresses (mailHost : Text) (rcptTo : Option Text) : Prop :=
  forall subject,
    (exists e, handleRelayEmail mailHost ⟨rcptTo, subject⟩ = some e) <->
      exists key id, rcptTo = some (getRelayAddress mailHost id key)

/-- The title, up to the first closing tag in it and without space at its end,
ends in `#` and the id, which holds no `#`. -/
def Readable (i : Invocation) : Prop :=
  '#' ∉ i.relayId ∧ '#' :: i.relayId <:+ trim (cutTitle i.context)

/-- A recipient that begins with a key and a plus and ends in the host has an
`@` before the host. -/
def Separated (mailHost : Text) (rcptTo : Option Text) : Prop :=
  forall (key : EmailRelayKey) (tail : Text),
    rcptTo = some (key.text ++ '+' :: tail) ->
      mailHost <:+ key.text ++ '+' :: tail -> '@' :: mailHost <:+ tail

theorem roundTrips_iff (mailHost emailTo body : Text) (i : Invocation) :
    RoundTrips mailHost emailTo body i <-> Readable i := by
  have hsubject := extractSubject_relaySepInvoke i.context body
  have hlast := forall_afterLast_iff (trim (cutTitle i.context)) i.relayId '#'
  constructor
  · intro h
    rcases h with ⟨email, hemail, hread⟩
    unfold invoke sendTemplateEmail at hemail
    rw [hsubject] at hemail
    apply hlast.mp
    intro front
    cases htruthy : truthy (some (trim (cutTitle i.context))) with
    | none =>
        rw [htruthy] at hemail
        cases hemail
    | some subject =>
        have hsame : subject = trim (cutTitle i.context) :=
          Option.some.inj (Option.filter_eq_some_iff.mp htruthy).left.symm
        rw [htruthy] at hemail
        have hemail' := Except.ok.inj hemail
        have hreply := hread front
        rw [← hemail', handleRelayEmail_getRelayAddress] at hreply
        have hid := congrArg EmailRelayEvent.relayId (Option.some.inj hreply)
        rw [hsame] at hid
        exact hid
  · intro h
    have hall := hlast.mpr h
    have hne : trim (cutTitle i.context) ≠ [] := by
      intro hnil
      have hsuffix := h.right
      rw [hnil] at hsuffix
      exact absurd (List.suffix_nil.mp hsuffix) (List.cons_ne_nil _ _)
    have hemail : invoke mailHost emailTo body i = .ok ⟨emailTo,
        getRelayAddress mailHost i.eventId .request,
        trim (cutTitle i.context), relaySepInvoke i.context body⟩ := by
      unfold invoke sendTemplateEmail
      rw [hsubject, truthy_some_of_ne_nil hne]
    refine ⟨_, hemail, ?_⟩
    intro front
    rw [handleRelayEmail_getRelayAddress]
    exact congrArg (fun id => some (EmailRelayEvent.mk .request id)) (hall front)

theorem acceptsAddresses_iff (mailHost : Text) (rcptTo : Option Text) :
    AcceptsAddresses mailHost rcptTo <-> Separated mailHost rcptTo := by
  constructor
  · intro h key tail heq hends
    have hemits : handleRelayEmail mailHost ⟨rcptTo, []⟩ =
        some ⟨key, relayIdOf []⟩ :=
      (handleRelayEmail_eq_some_iff _ _ _ _).mpr ⟨rfl, tail, heq, hends⟩
    rcases (h []).mp ⟨_, hemits⟩ with ⟨key', id, haddress⟩
    rw [haddress, handleRelayEmail_getRelayAddress] at hemits
    have hkey : key' = key :=
      congrArg EmailRelayEvent.relayKey (Option.some.inj hemits)
    rw [heq, hkey] at haddress
    have hsplit := List.append_cancel_left (Option.some.inj haddress)
    have htail : tail = id ++ '@' :: mailHost := (List.cons.inj hsplit).right
    rw [htail]
    exact List.suffix_append id ('@' :: mailHost)
  · intro h subject
    constructor
    · intro hemits
      rcases hemits with ⟨e, he⟩
      rcases (handleRelayEmail_eq_some_iff _ _ _ _).mp he with
        ⟨_, tail, heq, hends⟩
      rcases h e.relayKey tail heq hends with ⟨id, hid⟩
      exists e.relayKey, id
      rw [heq, ← hid]
      rfl
    · intro haddress
      rcases haddress with ⟨key, id, heq⟩
      rw [heq]
      exact ⟨_, handleRelayEmail_getRelayAddress mailHost id subject key⟩

theorem relayId_ne_nil (i : Invocation) : i.relayId ≠ [] := by
  unfold Invocation.relayId
  exact List.append_ne_nil_of_right_ne_nil _ (List.cons_ne_nil _ _)

theorem readable_iff_of_plain {i : Invocation}
    (h : findText closeTitle (title i.context) = none) :
    Readable i <->
      '#' ∉ i.relayId ∧
        isSpace (i.relayId.getLast (relayId_ne_nil i)) = false := by
  have hcut : cutTitle i.context = title i.context := by
    unfold cutTitle before
    rw [h]
  have htrim : trim (title i.context) =
      (title i.context).rdropWhile isSpace := by
    show ((title i.context).dropWhile isSpace).rdropWhile isSpace = _
    rfl
  have hne : title i.context ≠ [] :=
    List.append_ne_nil_of_right_ne_nil _ (List.cons_ne_nil _ _)
  have hlast : (title i.context).getLast hne =
      i.relayId.getLast (relayId_ne_nil i) := by
    have hsuffix : i.relayId <:+ title i.context :=
      (List.suffix_cons '#' i.relayId).trans (List.suffix_append _ _)
    exact (List.IsSuffix.getLast hsuffix (relayId_ne_nil i)).symm
  unfold Readable
  rw [hcut, htrim]
  constructor
  · intro hreadable
    refine ⟨hreadable.left, ?_⟩
    have hsuffix := hreadable.right
    have hcons : '#' :: i.relayId ≠ [] := List.cons_ne_nil _ _
    have hdropped : (title i.context).rdropWhile isSpace ≠ [] := by
      intro hnil
      rw [hnil] at hsuffix
      exact hcons (List.suffix_nil.mp hsuffix)
    have hnot := List.rdropWhile_last_not isSpace (title i.context) hdropped
    have hsame := List.IsSuffix.getLast hsuffix hcons
    rw [List.getLast_cons (relayId_ne_nil i)] at hsame
    rw [hsame]
    exact Bool.eq_false_iff.mpr hnot
  · intro hplain
    refine ⟨hplain.left, ?_⟩
    have hself : (title i.context).rdropWhile isSpace = title i.context := by
      apply List.rdropWhile_eq_self_iff.mpr
      intro hne'
      rw [hlast, hplain.right]
      exact Bool.false_ne_true
    rw [hself]
    exact List.suffix_append _ _

/-- The id of an invocation comes back and exactly the relay addresses are
accepted, when the id can be read from the title and the recipient has an `@`
before the host, and only then. -/
theorem relays_iff (mailHost emailTo body : Text) (i : Invocation)
    (rcptTo : Option Text) :
    RoundTrips mailHost emailTo body i ∧ AcceptsAddresses mailHost rcptTo <->
      Readable i ∧ Separated mailHost rcptTo := by
  rw [roundTrips_iff, acceptsAddresses_iff]

/-! ## A name with a tag, an address without an `@` -/

def taggedInvocation : Invocation where
  eventId := "e1".toList
  invokeId := "i1".toList
  endpointName := "GET /pets</title>".toList
  callgentName := "Pets".toList

/-- The id is lost behind a closing tag in a name, and an address in another
host is accepted. -/
theorem tagged_not_relayed :
    ¬ RoundTrips "relay.net".toList "pets@shop.net".toList []
        taggedInvocation ∧
      ¬ AcceptsAddresses "relay.net".toList
        (some "request+e1@my-relay.net".toList) := by
  constructor
  · rw [roundTrips_iff]
    intro hreadable
    exact absurd hreadable.right (by decide +kernel)
  · rw [acceptsAddresses_iff]
    intro hseparated
    have hat := hseparated .request "e1@my-relay.net".toList rfl
      (by decide +kernel)
    exact absurd hat (by decide +kernel)

end Emails
end CallgentApi
