import CallgentApi.Lib.Framing
import CallgentApi.Pipe.Client
import CallgentApi.Pipe.Server

/-!
# Replies on the socket stream

The server appends reply messages to the socket without a terminator, and the
socket hands them to the `data` handler in chunks of its own choosing.  The
handler keeps no buffer, so the replies arrive intact exactly when the chunks
are the messages.
-/

namespace CallgentApi
namespace Pipe

open Js

/-- A reply as `onLine` or `onConnect` writes it. -/
structure Reply where
  key : Text
  response : Option Json

namespace Reply

def payload (reply : Reply) : Text :=
  payloadText reply.response

def message (cmdPrefix : Text) (reply : Reply) : Text :=
  replyMessage cmdPrefix reply.key reply.payload

end Reply

/-- The `data` events of the socket, one after the other. -/
def receive (client : PipeClient) (chunks : List Text) : PipeClient :=
  chunks.foldl PipeClient.onData client

/-- Every reply has resolved its own request with its own payload, and nothing
else was resolved. -/
def DeliveredExactly (before after : PipeClient) (replies : List Reply) :
    Prop :=
  after.resolved.Perm
    (before.resolved ++ replies.map fun reply => (reply.key, reply.payload))

theorem receive_resolved (client : PipeClient) (chunks : List Text) :
    exists new,
      (receive client chunks).resolved = client.resolved ++ new ∧
      forall entry, entry ∈ new ->
        exists chunk pieces, chunk ∈ chunks ∧
          chunk.splitOn '|' = client.cmdPrefix :: entry.1 :: pieces ∧
          entry.2 = join '|' pieces := by
  induction chunks generalizing client with
  | nil => exact ⟨[], by simp [receive], by simp⟩
  | cons chunk rest ih =>
      rcases ih (client.onData chunk) with ⟨new, hresolved, hnew⟩
      have hrest : forall entry, entry ∈ new ->
          exists c pieces, c ∈ chunk :: rest ∧
            c.splitOn '|' = client.cmdPrefix :: entry.1 :: pieces ∧
            entry.2 = join '|' pieces := by
        intro entry hentry
        rcases hnew entry hentry with ⟨c, pieces, hc, hsplit, hvalue⟩
        rw [PipeClient.onData_cmdPrefix] at hsplit
        exact ⟨c, pieces, List.mem_cons_of_mem chunk hc, hsplit, hvalue⟩
      change (receive client (chunk :: rest)).resolved = _ at hresolved
      rcases client.onData_cases chunk with h | ⟨id, h⟩ |
        ⟨id, pieces, hsplit, _, h⟩
      · exact ⟨new, by rw [hresolved, h], hrest⟩
      · exact ⟨new, by rw [hresolved, h], hrest⟩
      · refine ⟨(id, join '|' pieces) :: new, by simp [hresolved, h], ?_⟩
        intro entry hentry
        rcases List.mem_cons.mp hentry with heq | hmem
        · subst heq
          exact ⟨chunk, pieces, List.mem_cons_self, hsplit, rfl⟩
        · exact hrest entry hmem

theorem onData_message {client : PipeClient} {reply : Reply}
    (hhead : '|' ∉ client.cmdPrefix) (hkey : '|' ∉ reply.key)
    (hpending : reply.key ∈ client.pendingRequests) :
    client.onData (reply.message client.cmdPrefix) =
      { client with
          resolved := client.resolved ++ [(reply.key, reply.payload)]
          pendingRequests := client.pendingRequests.erase reply.key } := by
  have hsplit := Separator.splitOn_record reply.payload hhead hkey
  have hjoin : join '|' (reply.payload.splitOn '|') = reply.payload :=
    List.intercalate_splitOn '|'
  have h := PipeClient.onData_of_pending hsplit hpending
  rw [hjoin] at h
  exact h

theorem receive_messages (client : PipeClient) (replies : List Reply)
    (hclean : forall reply, reply ∈ replies ->
      '|' ∉ client.cmdPrefix ∧ '|' ∉ reply.key)
    (hpending : forall reply, reply ∈ replies ->
      reply.key ∈ client.pendingRequests)
    (hnodup : (replies.map Reply.key).Nodup) :
    (receive client (replies.map (Reply.message client.cmdPrefix))).resolved =
      client.resolved ++
        replies.map fun reply => (reply.key, reply.payload) := by
  induction replies generalizing client with
  | nil => simp [receive]
  | cons reply rest ih =>
      have hself := hclean reply List.mem_cons_self
      have hstep := onData_message hself.left hself.right
        (hpending reply List.mem_cons_self)
      have hfresh : reply.key ∉ rest.map Reply.key :=
        (List.nodup_cons.mp hnodup).left
      have hrest := ih (client.onData (reply.message client.cmdPrefix))
        (fun other hother => by
          rw [PipeClient.onData_cmdPrefix]
          exact hclean other (List.mem_cons_of_mem reply hother))
        (fun other hother => by
          have hne : other.key ≠ reply.key := fun heq =>
            hfresh (heq ▸ List.mem_map_of_mem hother)
          rw [hstep]
          exact Finset.mem_erase.mpr
            ⟨hne, hpending other (List.mem_cons_of_mem reply hother)⟩)
        (List.nodup_cons.mp hnodup).right
      rw [PipeClient.onData_cmdPrefix] at hrest
      change (receive (client.onData (reply.message client.cmdPrefix))
        (rest.map (Reply.message client.cmdPrefix))).resolved = _
      rw [hrest, hstep]
      simp

theorem payload_ne_nil (reply : Reply) : reply.payload ≠ [] :=
  payloadText_ne_nil reply.response

theorem message_prefix_key {cmdPrefix : Text} {a b : Reply}
    (ha : '|' ∉ a.key) (hb : '|' ∉ b.key)
    (h : a.message cmdPrefix <+: b.message cmdPrefix) : a.key = b.key :=
  Separator.record_prefix_inj ha hb h

theorem message_mem_chunks {client : PipeClient} {chunks : List Text}
    {replies : List Reply}
    (hdelivered : DeliveredExactly client (receive client chunks) replies)
    {reply : Reply} (hreply : reply ∈ replies) :
    reply.message client.cmdPrefix ∈ chunks ∧
      '|' ∉ client.cmdPrefix ∧ '|' ∉ reply.key := by
  rcases receive_resolved client chunks with ⟨new, hresolved, hnew⟩
  unfold DeliveredExactly at hdelivered
  rw [hresolved, List.perm_append_left_iff] at hdelivered
  have hmem : (reply.key, reply.payload) ∈ new :=
    hdelivered.mem_iff.mpr (List.mem_map_of_mem hreply)
  rcases hnew _ hmem with ⟨chunk, pieces, hchunk, hsplit, hvalue⟩
  have hpieces : pieces ≠ [] := by
    intro hnil
    apply payload_ne_nil reply
    simpa [hnil, join, List.intercalate] using hvalue
  have hrecord := Separator.eq_record_of_splitOn hsplit hpieces
  have hmessage : chunk = reply.message client.cmdPrefix := by
    rw [hrecord, Reply.message, replyMessage]
    exact congrArg _ hvalue.symm
  refine ⟨hmessage ▸ hchunk, ?_, ?_⟩
  · exact Separator.not_mem_of_mem_splitOn (by rw [hsplit]; simp)
  · exact Separator.not_mem_of_mem_splitOn (by rw [hsplit]; simp)

/-- However the stream of the replies is cut into chunks, they are delivered
intact exactly when every chunk is one message. -/
theorem delivered_iff_chunks_eq_messages
    (client : PipeClient) (replies : List Reply)
    (hpending : forall reply, reply ∈ replies ->
      reply.key ∈ client.pendingRequests)
    (hnodup : (replies.map Reply.key).Nodup)
    (chunks : List Text) (hne : forall chunk, chunk ∈ chunks -> chunk ≠ [])
    (hstream : chunks.flatten =
      (replies.map (Reply.message client.cmdPrefix)).flatten) :
    DeliveredExactly client (receive client chunks) replies <->
      chunks = replies.map (Reply.message client.cmdPrefix) ∧
        forall reply, reply ∈ replies ->
          '|' ∉ client.cmdPrefix ∧ '|' ∉ reply.key := by
  constructor
  · intro hdelivered
    have hseen := fun reply (hreply : reply ∈ replies) =>
      message_mem_chunks hdelivered hreply
    have hclean : forall reply, reply ∈ replies ->
        '|' ∉ client.cmdPrefix ∧ '|' ∉ reply.key :=
      fun reply hreply => (hseen reply hreply).right
    have hkeys : forall a, a ∈ replies -> forall b, b ∈ replies ->
        a.message client.cmdPrefix <+: b.message client.cmdPrefix ->
          a = b := by
      intro a ha b hb hhead
      have hkey := message_prefix_key (hclean a ha).right
        (hclean b hb).right hhead
      exact List.inj_on_of_nodup_map hnodup ha hb hkey
    refine ⟨Framing.chunks_eq_blocks ?_ ?_ ?_ hne hstream, hclean⟩
    · refine List.Nodup.map_on ?_ (List.Nodup.of_map Reply.key hnodup)
      intro a ha b hb heq
      exact hkeys a ha b hb (heq ▸ List.prefix_refl _)
    · intro x hx y hy hxy
      rcases List.mem_map.mp hx with ⟨a, ha, rfl⟩
      rcases List.mem_map.mp hy with ⟨b, hb, rfl⟩
      rw [hkeys a ha b hb hxy]
    · intro message hmessage
      rcases List.mem_map.mp hmessage with ⟨reply, hreply, rfl⟩
      exact (hseen reply hreply).left
  · rintro ⟨rfl, hclean⟩
    unfold DeliveredExactly
    rw [receive_messages client replies hclean hpending hnodup]

def awaitingTwo : PipeClient :=
  let first := (PipeClient.init "abc".toList "x".toList).sendCommand []
  (first.1.sendCommand []).1

def firstReply : Reply := ⟨"x:-1".toList, some .null⟩

def secondReply : Reply := ⟨"x:-2".toList, some (.bool true)⟩

theorem delivered_iff_chunks_eq_messages_two :
    DeliveredExactly awaitingTwo
        (receive awaitingTwo
          [firstReply.message "abc".toList, secondReply.message "abc".toList])
        [firstReply, secondReply] <->
      [firstReply.message "abc".toList, secondReply.message "abc".toList] =
          [firstReply, secondReply].map (Reply.message "abc".toList) ∧
        forall reply, reply ∈ [firstReply, secondReply] ->
          '|' ∉ "abc".toList ∧ '|' ∉ reply.key :=
  delivered_iff_chunks_eq_messages awaitingTwo [firstReply, secondReply]
    (by decide) (by decide)
    [firstReply.message "abc".toList, secondReply.message "abc".toList]
    (by decide) (by decide)

/-- Two replies that arrive in one chunk: the first request is resolved with
both messages and the second one waits for ever. -/
theorem coalesced_replies_not_delivered :
    let chunk :=
      firstReply.message "abc".toList ++ secondReply.message "abc".toList
    (forall reply, reply ∈ [firstReply, secondReply] ->
        reply.key ∈ awaitingTwo.pendingRequests) ∧
      [chunk].flatten =
        ([firstReply, secondReply].map
          (Reply.message awaitingTwo.cmdPrefix)).flatten ∧
      (receive awaitingTwo [chunk]).resolved =
        [("x:-1".toList, "nullabc|x:-2|true".toList)] ∧
      ¬ DeliveredExactly awaitingTwo (receive awaitingTwo [chunk])
        [firstReply, secondReply] := by
  refine ⟨by decide, by decide, by decide, ?_⟩
  unfold DeliveredExactly
  decide

end Pipe
end CallgentApi
