import Mathlib.Data.List.Basic
import CallgentApi.Lib.Transition
import CallgentApi.Lib.JsString

/-!
# The connection of the pipe client

The client replaces its socket some time after every error and every close of
one.  An error is followed by a close, and a socket that is replaced is closed
too; so the attempts to reconnect are never fewer than the errors.
-/

namespace CallgentApi
namespace Pipe

open Js

/-! ## Sockets -/

inductive Socket where
  /-- `connect` has not been called: the client has shut down. -/
  | fresh
  | connecting
  | connected
  /-- Destroyed, or after an error; `close` is to be emitted. -/
  | closing
  | closed
deriving DecidableEq

def Socket.live : Socket -> Bool
  | connecting => true
  | connected => true
  | _ => false

def Socket.destroy (socket : Socket) : Socket :=
  if socket.live then closing else socket

/-! ## The client -/

structure Connection where
  /-- The sockets so far, `this.client` first. -/
  sockets : List Socket
  /-- The timeouts of `reconnect` that have not passed. -/
  timers : Nat
  /-- The heartbeats whose callback has not been called. -/
  pings : Nat
  isConnected : Bool
  shutdown : Bool
  heartbeat : Bool
  /-- The process has ended with the rejection of a `connect`, which nobody
  handles. -/
  crashed : Bool
  connectionWaiters : List Text
  /-- The commands that have gone on to be written. -/
  released : List Text

inductive Event where
  | connect (i : Nat)
  | error (i : Nat)
  | close (i : Nat)
  | timeout
  | beat
  | written
  | unwritten
  | sendCommand (requestId : Text)
  | shutDown

namespace Connection

/-- After `init`. -/
def start : Connection where
  sockets := [.connecting]
  timers := 0
  pings := 0
  isConnected := false
  shutdown := false
  heartbeat := false
  crashed := false
  connectionWaiters := []
  released := []

def reconnect (c : Connection) : Connection :=
  { c with heartbeat := false, timers := c.timers + 1 }

def setSocket (c : Connection) (i : Nat) (socket : Socket) : Connection :=
  { c with sockets := c.sockets.set i socket }

/-- The callback of `connect`. -/
def onConnect (c : Connection) (i : Nat) : Option Connection :=
  match c.sockets[i]? with
  | some .connecting =>
      some { c.setSocket i .connected with
        isConnected := true
        released := c.released ++ c.connectionWaiters
        connectionWaiters := []
        heartbeat := true }
  | _ => none

/-- The handler of `error`; before the socket is connected, the promise of
`connect` is rejected. -/
def onError (c : Connection) (i : Nat) : Option Connection :=
  match c.sockets[i]? with
  | some .connecting =>
      some { (c.setSocket i .closing).reconnect with crashed := true }
  | some .connected => some (c.setSocket i .closing).reconnect
  | _ => none

/-- The handler of `close`; a connected socket may also be closed by the
server. -/
def onClose (c : Connection) (i : Nat) : Option Connection :=
  match c.sockets[i]? with
  | some .closing =>
      some { (c.setSocket i .closed).reconnect with isConnected := false }
  | some .connected =>
      some { (c.setSocket i .closed).reconnect with isConnected := false }
  | _ => none

def onTimeout (c : Connection) : Option Connection :=
  match c.timers, c.sockets with
  | timers + 1, current :: older =>
      some { c with
        timers := timers
        sockets := (if c.shutdown then .fresh else .connecting) ::
          current.destroy :: older }
  | _, _ => none

def beat (c : Connection) : Option Connection :=
  if c.heartbeat && c.isConnected then some { c with pings := c.pings + 1 }
  else none

def onWritten (c : Connection) (failed : Bool) : Option Connection :=
  match c.pings with
  | pings + 1 =>
      let next := { c with pings := pings }
      some (if failed then next.reconnect else next)
  | 0 => none

/-- `sendCommand`, up to the end of `waitForConnection`. -/
def sendCommand (c : Connection) (requestId : Text) : Connection :=
  if c.isConnected then { c with released := c.released ++ [requestId] }
  else { c with connectionWaiters := c.connectionWaiters ++ [requestId] }

/-- `close`. -/
def shutDown (c : Connection) : Option Connection :=
  match c.sockets with
  | current :: older =>
      some { c with
        shutdown := true
        heartbeat := false
        sockets := current.destroy :: older }
  | [] => none

end Connection

def Connection.step (c : Connection) (event : Event) : Option Connection :=
  if c.crashed then none
  else
    match event with
    | .connect i => c.onConnect i
    | .error i => c.onError i
    | .close i => c.onClose i
    | .timeout => c.onTimeout
    | .beat => c.beat
    | .written => c.onWritten false
    | .unwritten => c.onWritten true
    | .sendCommand requestId => some (c.sendCommand requestId)
    | .shutDown => c.shutDown

/-! ## What is counted -/

/-- The socket will be closed, or be destroyed by a timeout. -/
def Socket.pending (socket : Socket) : Bool :=
  socket.live || socket == .closing

/-- The sockets that connect or are connected. -/
def Connection.live (c : Connection) : Nat :=
  c.sockets.countP Socket.live

def Connection.closing (c : Connection) : Nat :=
  c.sockets.countP fun socket => socket == .closing

def Event.isFailure : Event -> Bool
  | error _ => true
  | unwritten => true
  | _ => false

theorem countP_set_add {a : Type} (p : a -> Bool) {l : List a} {i : Nat}
    {old : a} (h : l[i]? = some old) (new : a) :
    (l.set i new).countP p + (if p old then 1 else 0) =
      l.countP p + (if p new then 1 else 0) := by
  induction l generalizing i with
  | nil => simp at h
  | cons x rest ih =>
      cases i with
      | zero =>
          simp only [List.getElem?_cons_zero, Option.some.injEq] at h
          simp only [List.set_cons_zero, List.countP_cons, h]
          omega
      | succ i =>
          have hrest := ih (by simpa using h)
          simp only [List.set_cons_succ, List.countP_cons]
          omega

theorem countP_pending (sockets : List Socket) :
    sockets.countP Socket.pending =
      sockets.countP (fun socket => socket == .closing) +
        sockets.countP Socket.live := by
  induction sockets with
  | nil => rfl
  | cons socket rest ih =>
      simp only [List.countP_cons, ih]
      cases socket <;> simp [Socket.pending, Socket.live] <;> omega

theorem pending_destroy (socket : Socket) :
    socket.destroy.pending = socket.pending := by
  cases socket <;> rfl

namespace Connection

variable {c next : Connection} {i : Nat}

/-- The timeouts, and the sockets whose end will set one. -/
def total (c : Connection) : Nat :=
  c.timers + c.sockets.countP Socket.pending

/-- One reconnection more for each failure; otherwise their number stays. -/
structure Adds (c next : Connection) (failures : Nat) : Prop where
  shutdown : next.shutdown = c.shutdown
  total : next.total = c.total + failures

theorem adds_onConnect (h : c.onConnect i = some next) : c.Adds next 0 := by
  unfold onConnect at h
  split at h
  · rename_i hi
    cases h
    refine ⟨rfl, ?_⟩
    have hcount := countP_set_add Socket.pending hi .connected
    simp only [Socket.pending, Socket.live] at hcount
    simpa [Connection.total, setSocket] using hcount
  · cases h

theorem adds_onError (h : c.onError i = some next) : c.Adds next 1 := by
  have hcount : forall {old : Socket}, c.sockets[i]? = some old ->
      old.pending = true ->
      (c.sockets.set i .closing).countP Socket.pending =
        c.sockets.countP Socket.pending := by
    intro old hi hold
    have hset := countP_set_add Socket.pending hi .closing
    rw [hold] at hset
    exact Nat.add_right_cancel hset
  unfold onError at h
  split at h
  · rename_i hi
    cases h
    refine ⟨rfl, ?_⟩
    simp only [Connection.total, setSocket, reconnect, hcount hi rfl]
    omega
  · rename_i hi
    cases h
    refine ⟨rfl, ?_⟩
    simp only [Connection.total, setSocket, reconnect, hcount hi rfl]
    omega
  · cases h

theorem adds_onClose (h : c.onClose i = some next) : c.Adds next 0 := by
  have hcount : forall {old : Socket}, c.sockets[i]? = some old ->
      old.pending = true ->
      (c.sockets.set i .closed).countP Socket.pending + 1 =
        c.sockets.countP Socket.pending := by
    intro old hi hold
    have hset := countP_set_add Socket.pending hi .closed
    rw [if_pos hold, if_neg (by decide)] at hset
    exact hset
  unfold onClose at h
  split at h
  · rename_i hi
    cases h
    refine ⟨rfl, ?_⟩
    have hset := hcount hi rfl
    simp only [Connection.total, setSocket, reconnect]
    omega
  · rename_i hi
    cases h
    refine ⟨rfl, ?_⟩
    have hset := hcount hi rfl
    simp only [Connection.total, setSocket, reconnect]
    omega
  · cases h

theorem adds_onTimeout (hopen : c.shutdown = false)
    (h : c.onTimeout = some next) : c.Adds next 0 := by
  unfold onTimeout at h
  split at h
  · rename_i timers current older htimers hsockets
    cases h
    refine ⟨rfl, ?_⟩
    have hnew : Socket.connecting.pending = true := rfl
    simp only [Connection.total, hopen, htimers, hsockets, List.countP_cons,
      pending_destroy, hnew, if_true, Bool.false_eq_true, if_false]
    omega
  · cases h

theorem adds_beat (h : c.beat = some next) : c.Adds next 0 := by
  unfold beat at h
  split at h
  · cases h
    exact ⟨rfl, rfl⟩
  · cases h

theorem adds_onWritten {failed : Bool} (h : c.onWritten failed = some next) :
    c.Adds next (if failed then 1 else 0) := by
  unfold onWritten at h
  split at h
  · cases h
    cases failed with
    | false => exact ⟨rfl, rfl⟩
    | true =>
        refine ⟨rfl, ?_⟩
        simp only [Connection.total, reconnect, if_true]
        omega
  · cases h

theorem adds_sendCommand (c : Connection) (requestId : Text) :
    c.Adds (c.sendCommand requestId) 0 := by
  unfold sendCommand
  split
  · exact ⟨rfl, rfl⟩
  · exact ⟨rfl, rfl⟩

theorem adds_step {event : Event} (hopen : c.shutdown = false)
    (hevent : event ≠ .shutDown) (h : c.step event = some next) :
    c.Adds next (if event.isFailure then 1 else 0) := by
  unfold step at h
  split at h
  · cases h
  · cases event with
    | connect i => exact adds_onConnect h
    | error i => exact adds_onError h
    | close i => exact adds_onClose h
    | timeout => exact adds_onTimeout hopen h
    | beat => exact adds_beat h
    | written => exact adds_onWritten h
    | unwritten => exact adds_onWritten h
    | sendCommand requestId =>
        cases h
        exact adds_sendCommand c requestId
    | shutDown => exact absurd rfl hevent

theorem adds_run {events : List Event} {last : Connection}
    (hopen : c.shutdown = false) (hevents : .shutDown ∉ events)
    (hrun : Transition.run step c events = some last) :
    c.Adds last (events.countP Event.isFailure) := by
  induction events generalizing c with
  | nil =>
      cases hrun
      exact ⟨rfl, rfl⟩
  | cons event rest ih =>
      rcases Transition.run_cons_some hrun with ⟨next, hstep, hrest⟩
      have hne : event ≠ .shutDown := by
        intro heq
        exact hevents (heq ▸ List.mem_cons_self)
      have hfirst := adds_step hopen hne hstep
      have hlater := ih (hfirst.shutdown.trans hopen)
        (fun hmem => hevents (List.mem_cons_of_mem event hmem)) hrest
      refine ⟨hlater.shutdown.trans hfirst.shutdown, ?_⟩
      rw [hlater.total, hfirst.total, List.countP_cons]
      omega

end Connection

/-- Until the client is shut down, the timeouts, the sockets about to close and
the live one are one more than the failures so far: after a failure, no
connection is ever left alone again. -/
theorem reconnections_of_run {events : List Event} {c : Connection}
    (hevents : .shutDown ∉ events)
    (hrun : Transition.run Connection.step .start events = some c) :
    c.timers + c.closing + c.live = 1 + events.countP Event.isFailure := by
  have htotal := (Connection.adds_run rfl hevents hrun).total
  have hstart : Connection.start.total = 1 := rfl
  rw [hstart] at htotal
  rw [← htotal]
  unfold Connection.total Connection.closing Connection.live
  rw [countP_pending]
  omega

/-! ## After the client has shut down -/

/-- Only `this.client` may be live; after `close` it is not, and no heartbeat
is set. -/
structure Connection.Sound (c : Connection) : Prop where
  first : forall (i : Nat) (socket : Socket), c.sockets[i]? = some socket ->
    socket.live = true -> i = 0
  down : c.shutdown = true -> c.heartbeat = false ∧
    forall (i : Nat) (socket : Socket), c.sockets[i]? = some socket ->
      socket.live = false

theorem closing_live {socket : Socket} (h : Socket.closing.live = true) :
    socket.live = true := by
  cases h

theorem closed_live {socket : Socket} (h : Socket.closed.live = true) :
    socket.live = true := by
  cases h

theorem live_destroy (socket : Socket) : socket.destroy.live = false := by
  cases socket <;> rfl

namespace Connection.Sound

variable {c next : Connection} {i : Nat} {old : Socket}

theorem start : Connection.start.Sound := by
  constructor
  · intro i socket hsocket _
    cases i with
    | zero => rfl
    | succ i => simp [Connection.start] at hsocket
  · intro h
    cases h

theorem setSocket (h : c.Sound) (hi : c.sockets[i]? = some old) {new : Socket}
    (hlive : new.live = true -> old.live = true) :
    (c.setSocket i new).Sound := by
  have hcases : forall {j : Nat} {socket : Socket},
      (c.sockets.set i new)[j]? = some socket ->
        j = i ∧ socket = new ∨ c.sockets[j]? = some socket := by
    intro j socket hsocket
    by_cases heq : j = i
    · left
      have hlt : i < c.sockets.length := (List.getElem?_eq_some_iff.mp hi).1
      rw [heq, List.getElem?_set_self hlt] at hsocket
      exact ⟨heq, (Option.some.inj hsocket).symm⟩
    · right
      rwa [List.getElem?_set_ne (Ne.symm heq)] at hsocket
  constructor
  · intro j socket hsocket hsocketLive
    rcases hcases hsocket with ⟨hj, heq⟩ | hold
    · rw [hj]
      exact h.first i old hi (hlive (heq ▸ hsocketLive))
    · exact h.first j socket hold hsocketLive
  · intro hdown
    rcases h.down hdown with ⟨hheartbeat, hnone⟩
    refine ⟨hheartbeat, ?_⟩
    intro j socket hsocket
    rcases hcases hsocket with ⟨_, heq⟩ | hold
    · rw [heq]
      cases hnew : new.live with
      | false => rfl
      | true =>
          rw [hnone i old hi] at hlive
          exact absurd (hlive hnew) Bool.false_ne_true
    · exact hnone j socket hold

theorem reconnect (h : c.Sound) : c.reconnect.Sound :=
  ⟨h.first, fun hdown => ⟨rfl, (h.down hdown).right⟩⟩

theorem onTimeout (h : c.Sound) (hstep : c.onTimeout = some next) :
    next.Sound := by
  unfold Connection.onTimeout at hstep
  split at hstep
  · rename_i timers current older _ hsockets
    cases hstep
    have holder : forall (j : Nat) (socket : Socket), older[j]? = some socket ->
        socket.live = false := by
      intro j socket hsocket
      cases hlive : socket.live with
      | false => rfl
      | true =>
          have hzero := h.first (j + 1) socket (by rw [hsockets]; exact hsocket)
            hlive
          cases hzero
    constructor
    · intro j socket hsocket hlive
      match j with
      | 0 => rfl
      | 1 =>
          simp only [List.getElem?_cons_succ, List.getElem?_cons_zero,
            Option.some.injEq] at hsocket
          rw [← hsocket, live_destroy] at hlive
          cases hlive
      | j + 2 =>
          rw [holder j socket hsocket] at hlive
          cases hlive
    · intro hdown
      refine ⟨(h.down hdown).left, ?_⟩
      intro j socket hsocket
      match j with
      | 0 =>
          simp only [show c.shutdown = true from hdown, if_true,
            List.getElem?_cons_zero, Option.some.injEq] at hsocket
          rw [← hsocket]
          rfl
      | 1 =>
          simp only [List.getElem?_cons_succ, List.getElem?_cons_zero,
            Option.some.injEq] at hsocket
          rw [← hsocket, live_destroy]
      | j + 2 => exact holder j socket hsocket
  · cases hstep

theorem shutDown (h : c.Sound) (hstep : c.shutDown = some next) :
    next.Sound := by
  unfold Connection.shutDown at hstep
  split at hstep
  · rename_i current older hsockets
    cases hstep
    have hnone : forall (j : Nat) (socket : Socket),
        (current.destroy :: older)[j]? = some socket ->
        socket.live = false := by
      intro j socket hsocket
      cases j with
      | zero =>
          simp only [List.getElem?_cons_zero, Option.some.injEq] at hsocket
          rw [← hsocket, live_destroy]
      | succ j =>
          cases hlive : socket.live with
          | false => rfl
          | true =>
              have hzero := h.first (j + 1) socket
                (by rw [hsockets]; exact hsocket) hlive
              cases hzero
    constructor
    · intro j socket hsocket hlive
      rw [hnone j socket hsocket] at hlive
      cases hlive
    · exact fun _ => ⟨rfl, hnone⟩
  · cases hstep

theorem step (h : c.Sound) {event : Event} (hstep : c.step event = some next) :
    next.Sound := by
  unfold Connection.step at hstep
  split at hstep
  · cases hstep
  · cases event with
    | connect i =>
        change c.onConnect i = some next at hstep
        unfold Connection.onConnect at hstep
        split at hstep
        · rename_i hi
          cases hstep
          have hset : (c.setSocket i .connected).Sound :=
            h.setSocket hi fun _ => rfl
          refine ⟨hset.first, ?_⟩
          intro hdown
          cases (h.down hdown).right i _ hi
        · cases hstep
    | error i =>
        change c.onError i = some next at hstep
        unfold Connection.onError at hstep
        split at hstep
        · rename_i hi
          cases hstep
          have hset := (h.setSocket hi closing_live).reconnect
          exact ⟨hset.first, hset.down⟩
        · rename_i hi
          cases hstep
          exact (h.setSocket hi closing_live).reconnect
        · cases hstep
    | close i =>
        change c.onClose i = some next at hstep
        unfold Connection.onClose at hstep
        split at hstep
        · rename_i hi
          cases hstep
          have hset := (h.setSocket hi closed_live).reconnect
          exact ⟨hset.first, hset.down⟩
        · rename_i hi
          cases hstep
          have hset := (h.setSocket hi closed_live).reconnect
          exact ⟨hset.first, hset.down⟩
        · cases hstep
    | timeout => exact h.onTimeout hstep
    | beat =>
        change c.beat = some next at hstep
        unfold Connection.beat at hstep
        split at hstep
        · cases hstep
          exact ⟨h.first, h.down⟩
        · cases hstep
    | written =>
        change c.onWritten false = some next at hstep
        unfold Connection.onWritten at hstep
        split at hstep
        · cases hstep
          exact ⟨h.first, h.down⟩
        · cases hstep
    | unwritten =>
        change c.onWritten true = some next at hstep
        unfold Connection.onWritten at hstep
        split at hstep
        · cases hstep
          exact ⟨h.first, fun hdown => ⟨rfl, (h.down hdown).right⟩⟩
        · cases hstep
    | sendCommand requestId =>
        cases hstep
        unfold Connection.sendCommand
        split
        · exact ⟨h.first, h.down⟩
        · exact ⟨h.first, h.down⟩
    | shutDown => exact h.shutDown hstep

end Connection.Sound

def Event.isOutside : Event -> Bool
  | sendCommand _ => false
  | shutDown => false
  | _ => true

def Connection.toCome (c : Connection) : Nat :=
  2 * c.closing + c.timers + 2 * c.pings

/-- A step after `close` connects nothing, and uses up what is to come. -/
structure Connection.Spends (c next : Connection) (event : Event) : Prop where
  shutdown : next.shutdown = true
  connects : forall i, event ≠ .connect i
  toCome : next.toCome + (if event.isOutside then 1 else 0) ≤ c.toCome

namespace Connection

variable {c next : Connection}

theorem spends_onClose (h : c.Sound) (hdown : c.shutdown = true) {i : Nat}
    (hstep : c.onClose i = some next) : c.Spends next (.close i) := by
  unfold onClose at hstep
  split at hstep
  · rename_i hi
    cases hstep
    refine ⟨hdown, nofun, ?_⟩
    have hset := countP_set_add (fun socket => socket == Socket.closing) hi
      .closed
    rw [if_pos (by decide), if_neg (by decide)] at hset
    simp only [toCome, closing, setSocket, reconnect, Event.isOutside, if_true]
    omega
  · rename_i hi
    cases (h.down hdown).right i _ hi
  · cases hstep

theorem spends_onTimeout (h : c.Sound) (hdown : c.shutdown = true)
    (hstep : c.onTimeout = some next) : c.Spends next .timeout := by
  unfold onTimeout at hstep
  split at hstep
  · rename_i timers current older htimers hsockets
    cases hstep
    refine ⟨hdown, nofun, ?_⟩
    have hlive := (h.down hdown).right 0 current (by rw [hsockets]; rfl)
    have hdestroy : current.destroy = current := by
      unfold Socket.destroy
      rw [hlive]
      rfl
    have hfresh : (Socket.fresh == Socket.closing) = false := rfl
    simp only [toCome, closing, hdestroy, hsockets, htimers, hdown,
      Event.isOutside, if_true, List.countP_cons, hfresh, Bool.false_eq_true,
      if_false]
    omega
  · cases hstep

theorem spends_onWritten (hdown : c.shutdown = true) {failed : Bool}
    {event : Event} (hevent : forall i, event ≠ .connect i)
    (hstep : c.onWritten failed = some next) : c.Spends next event := by
  unfold onWritten at hstep
  split at hstep
  · rename_i pings hpings
    cases hstep
    refine ⟨?_, hevent, ?_⟩
    · cases failed with
      | false => exact hdown
      | true => exact hdown
    · have hone : (if event.isOutside = true then 1 else 0) ≤ 1 := by
        split <;> omega
      cases failed with
      | false =>
          simp only [toCome, closing, hpings, Bool.false_eq_true, if_false]
          omega
      | true =>
          simp only [toCome, closing, hpings, reconnect, if_true]
          omega
  · cases hstep

theorem spends_shutDown (h : c.Sound) (hdown : c.shutdown = true)
    (hstep : c.shutDown = some next) : c.Spends next .shutDown := by
  unfold shutDown at hstep
  split at hstep
  · rename_i current older hsockets
    cases hstep
    refine ⟨rfl, nofun, ?_⟩
    have hlive := (h.down hdown).right 0 current (by rw [hsockets]; rfl)
    have hdestroy : current.destroy = current := by
      unfold Socket.destroy
      rw [hlive]
      rfl
    simp only [toCome, closing, hdestroy, hsockets, Event.isOutside,
      Bool.false_eq_true, if_false]
    omega
  · cases hstep

theorem spends_step (h : c.Sound) (hdown : c.shutdown = true) {event : Event}
    (hstep : c.step event = some next) : c.Spends next event := by
  unfold step at hstep
  split at hstep
  · cases hstep
  · cases event with
    | connect i =>
        change c.onConnect i = some next at hstep
        unfold onConnect at hstep
        split at hstep
        · rename_i hi
          cases (h.down hdown).right i _ hi
        · cases hstep
    | error i =>
        change c.onError i = some next at hstep
        unfold onError at hstep
        split at hstep
        · rename_i hi
          cases (h.down hdown).right i _ hi
        · rename_i hi
          cases (h.down hdown).right i _ hi
        · cases hstep
    | close i => exact spends_onClose h hdown hstep
    | timeout => exact spends_onTimeout h hdown hstep
    | beat =>
        change c.beat = some next at hstep
        unfold beat at hstep
        rw [(h.down hdown).left] at hstep
        cases hstep
    | written => exact spends_onWritten hdown nofun hstep
    | unwritten => exact spends_onWritten hdown nofun hstep
    | sendCommand requestId =>
        cases hstep
        unfold sendCommand
        split
        · exact ⟨hdown, nofun, Nat.le_refl _⟩
        · exact ⟨hdown, nofun, Nat.le_refl _⟩
    | shutDown => exact spends_shutDown h hdown hstep

theorem spends_run (h : c.Sound) (hdown : c.shutdown = true)
    {events : List Event} {last : Connection}
    (hrun : Transition.run step c events = some last) :
    (forall i, .connect i ∉ events) ∧
      events.countP Event.isOutside ≤ c.toCome := by
  induction events generalizing c with
  | nil => exact ⟨fun _ hmem => (nomatch hmem), Nat.zero_le _⟩
  | cons event rest ih =>
      rcases Transition.run_cons_some hrun with ⟨next, hstep, hrest⟩
      have hspends := spends_step h hdown hstep
      rcases ih (h.step hstep) hspends.shutdown hrest with ⟨hnone, hcount⟩
      constructor
      · intro i hmem
        rcases List.mem_cons.mp hmem with heq | hmem
        · exact hspends.connects i heq.symm
        · exact hnone i hmem
      · rw [List.countP_cons]
        have htoCome := hspends.toCome
        omega

end Connection

/-- Once the client has been shut down, it never connects again, and only as
many events are still to come as there are timeouts, and twice the sockets that
close and the heartbeats under way. -/
theorem stops_after_shutDown {events later : List Event} {c last : Connection}
    (hrun : Transition.run Connection.step .start events = some c)
    (hdown : c.shutdown = true)
    (hlater : Transition.run Connection.step c later = some last) :
    (forall i, .connect i ∉ later) ∧
      later.countP Event.isOutside ≤
        2 * c.closing + c.timers + 2 * c.pings := by
  have hsound : c.Sound :=
    Transition.run_invariant (fun _ _ _ hs hstep => hs.step hstep)
      Connection.Sound.start hrun
  exact Connection.spends_run hsound hdown hlater

/-! ## Commands that wait -/

def commandsOf (events : List Event) : List Text :=
  events.filterMap fun event =>
    match event with
    | .sendCommand requestId => some requestId
    | _ => none

/-- Commands that have gone on, and then those that wait; none waits while the
client is connected. -/
structure Connection.Queued (c : Connection) (commands : List Text) :
    Prop where
  order : c.released ++ c.connectionWaiters = commands
  connected : c.isConnected = true -> c.connectionWaiters = []

namespace Connection

variable {c next : Connection} {commands : List Text}

theorem queued_start : start.Queued [] :=
  ⟨rfl, fun h => (nomatch h)⟩

theorem queued_step (h : c.Queued commands) {event : Event}
    (hstep : c.step event = some next) :
    next.Queued (commands ++ commandsOf [event]) := by
  unfold step at hstep
  split at hstep
  · cases hstep
  · have hsame : commands ++ [] = commands := List.append_nil commands
    cases event with
    | connect i =>
        change c.onConnect i = some next at hstep
        unfold onConnect at hstep
        split at hstep
        · cases hstep
          constructor
          · simpa [commandsOf, setSocket] using h.order
          · exact fun _ => rfl
        · cases hstep
    | error i =>
        change c.onError i = some next at hstep
        unfold onError at hstep
        split at hstep
        · cases hstep
          exact ⟨h.order.trans hsame.symm, h.connected⟩
        · cases hstep
          exact ⟨h.order.trans hsame.symm, h.connected⟩
        · cases hstep
    | close i =>
        change c.onClose i = some next at hstep
        unfold onClose at hstep
        split at hstep
        · cases hstep
          exact ⟨h.order.trans hsame.symm, fun heq => (nomatch heq)⟩
        · cases hstep
          exact ⟨h.order.trans hsame.symm, fun heq => (nomatch heq)⟩
        · cases hstep
    | timeout =>
        change c.onTimeout = some next at hstep
        unfold onTimeout at hstep
        split at hstep
        · cases hstep
          exact ⟨h.order.trans hsame.symm, h.connected⟩
        · cases hstep
    | beat =>
        change c.beat = some next at hstep
        unfold beat at hstep
        split at hstep
        · cases hstep
          exact ⟨h.order.trans hsame.symm, h.connected⟩
        · cases hstep
    | written =>
        change c.onWritten false = some next at hstep
        unfold onWritten at hstep
        split at hstep
        · cases hstep
          exact ⟨h.order.trans hsame.symm, h.connected⟩
        · cases hstep
    | unwritten =>
        change c.onWritten true = some next at hstep
        unfold onWritten at hstep
        split at hstep
        · cases hstep
          exact ⟨h.order.trans hsame.symm, h.connected⟩
        · cases hstep
    | sendCommand requestId =>
        cases hstep
        unfold sendCommand
        split
        · rename_i hconnected
          have hnone := h.connected hconnected
          refine ⟨?_, fun _ => hnone⟩
          have horder := h.order
          rw [hnone, List.append_nil] at horder
          simp [commandsOf, hnone, horder]
        · rename_i hwaiting
          refine ⟨?_, fun hconnected => absurd hconnected hwaiting⟩
          simp [commandsOf, ← h.order]
    | shutDown =>
        change c.shutDown = some next at hstep
        unfold shutDown at hstep
        split at hstep
        · cases hstep
          exact ⟨h.order.trans hsame.symm, h.connected⟩
        · cases hstep

end Connection

/-- However often the client reconnects, commands go on in the order of their
calls, each of them once, and none waits while the client is connected. -/
theorem queued_of_run {events : List Event} {c : Connection}
    (hrun : Transition.run Connection.step .start events = some c) :
    c.released ++ c.connectionWaiters = commandsOf events ∧
      (c.isConnected = true -> c.connectionWaiters = []) := by
  have hqueued : forall {events : List Event} {first last : Connection}
      {commands : List Text}, first.Queued commands ->
      Transition.run Connection.step first events = some last ->
      last.Queued (commands ++ commandsOf events) := by
    intro events
    induction events with
    | nil =>
        intro first last commands hfirst hrun
        cases hrun
        simpa [commandsOf] using hfirst
    | cons event rest ih =>
        intro first last commands hfirst hrun
        rcases Transition.run_cons_some hrun with ⟨next, hstep, hrest⟩
        have hlater := ih (Connection.queued_step hfirst hstep) hrest
        rw [List.append_assoc] at hlater
        unfold commandsOf at hlater ⊢
        rwa [← List.filterMap_append] at hlater
  have hall := hqueued Connection.queued_start hrun
  exact ⟨hall.order, hall.connected⟩

/-! ## A connection that the server resets -/

/-- Once the socket has been connected, the server resets it; the second
timeout ends the new connection. -/
def resetOnce : List Event :=
  [.sendCommand "R:-1".toList, .connect 0, .error 0, .close 0, .timeout,
    .connect 0, .timeout]

theorem run_resetOnce : exists c,
    Transition.run Connection.step .start resetOnce = some c := by
  have hrun : (Transition.run Connection.step .start resetOnce).isSome = true :=
    rfl
  exact Option.isSome_iff_exists.mp hrun

theorem reconnections_resetOnce :
    exists c, Transition.run Connection.step .start resetOnce = some c ∧
      c.timers + c.closing + c.live =
        1 + resetOnce.countP Event.isFailure := by
  rcases run_resetOnce with ⟨c, hc⟩
  have hopen : .shutDown ∉ resetOnce := by simp [resetOnce]
  exact ⟨c, hc, reconnections_of_run hopen hc⟩

theorem queued_resetOnce :
    exists c, Transition.run Connection.step .start resetOnce = some c ∧
      c.released ++ c.connectionWaiters = commandsOf resetOnce ∧
      (c.isConnected = true -> c.connectionWaiters = []) := by
  rcases run_resetOnce with ⟨c, hc⟩
  exact ⟨c, hc, queued_of_run hc⟩

theorem stops_resetOnce :
    exists c last,
      Transition.run Connection.step .start (resetOnce ++ [.shutDown]) =
        some c ∧
      Transition.run Connection.step c [.close 0, .timeout] = some last ∧
      (forall i, .connect i ∉ [Event.close 0, .timeout]) ∧
      [Event.close 0, .timeout].countP Event.isOutside ≤
        2 * c.closing + c.timers + 2 * c.pings := by
  have hrun : (Transition.run Connection.step .start
      (resetOnce ++ [.shutDown])).isSome = true := rfl
  rcases Option.isSome_iff_exists.mp hrun with ⟨c, hc⟩
  have hdown : c.shutdown = true := by
    cases hc
    rfl
  have hlater : (Transition.run Connection.step c
      [.close 0, .timeout]).isSome = true := by
    cases hc
    rfl
  rcases Option.isSome_iff_exists.mp hlater with ⟨last, hlast⟩
  exact ⟨c, last, hc, hlast, stops_after_shutDown hc hdown hlast⟩

end Pipe
end CallgentApi
