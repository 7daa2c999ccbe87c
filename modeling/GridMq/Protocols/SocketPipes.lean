import GridMq.Core.Session
import GridMq.Library.Journal
import GridMq.Protocols.PipeQueues

set_option autoImplicit false

/-!
# The pipes attached to a socket (`src/core/pipe.c`, `src/core/sock.c`)

What all socket types share: pipes are attached and detached, their transports report that
messages arrived or were sent, and the IN and OUT events raised by that wait in the context of
the socket.  A socket type adds its own lists of the pipes that are ready.

A pipe is known by a name that no later pipe gets again.
-/

namespace GridMq.Protocols

open GridMq.Aio GridMq.Core GridMq.Library

/-- A pipe with the session behind it. -/
abbrev WirePipe := Pipe (Session (List UInt8))

/-- The pipes of a socket, the names that were used for pipes, and the events that are pending
in its context. -/
structure SocketPipes where
  pipes : Nat → Option WirePipe := fun _ => none
  used : List Nat := []
  events : List (Nat × PipeEvent) := []

namespace SocketPipes

/-- A pipe that is followed has to be attached. -/
def getPipe (self : SocketPipes) (p : Nat) : Except Abort WirePipe :=
  match self.pipes p with
  | none => .error .nullPointer
  | some pipe => .ok pipe

def setPipe (self : SocketPipes) (p : Nat) (pipe : Option WirePipe) : SocketPipes :=
  { self with pipes := Function.update self.pipes p pipe }

/-- `grid_fsm_raise` of an event of a pipe, if the call raised one. -/
def raise (self : SocketPipes) (p : Nat) (e : PipeEvent) (raised : Bool) :
    Except Abort SocketPipes :=
  if raised then do
    let events ← raiseEvent id self.events (p, e)
    return { self with events := events }
  else .ok self

/-- `grid_pipebase_start` of a pipe that the socket type accepts. -/
def attach (self : SocketPipes) (p sndprio rcvprio : Nat) : Except Abort SocketPipes :=
  let pipe : WirePipe := Pipe.start { sndprio := sndprio, rcvprio := rcvprio, session := {} }
  ({ self.setPipe p (some pipe) with used := p :: self.used }).raise p .pipeOut true

/-- `grid_pipebase_stop`. -/
def detach (self : SocketPipes) (p : Nat) : Except Abort SocketPipes := do
  let _ ← self.getPipe p
  return self.setPipe p none

/-- A message arrives on a pipe. -/
def arrive (self : SocketPipes) (p : Nat) (wire : List UInt8) : Except Abort SocketPipes := do
  let pipe ← self.getPipe p
  let r ← pipe.arrive wire
  (self.setPipe p (some r.1)).raise p .pipeIn r.2

/-- `grid_pipebase_sent`: the transport is done with the last message. -/
def sent (self : SocketPipes) (p : Nat) : Except Abort SocketPipes := do
  let pipe ← self.getPipe p
  let r ← pipe.sent
  (self.setPipe p (some r.1)).raise p .pipeOut r.2

/-- An event leaves the queue of the context. -/
def took (self : SocketPipes) (p : Nat) (e : PipeEvent) : SocketPipes :=
  { self with events := self.events.erase (p, e) }

/-- `grid_pipe_recv` of an attached pipe, and whether the pipe is released. -/
def recv (self : SocketPipes) (p : Nat) : Except Abort (SocketPipes × List UInt8 × Bool) := do
  let pipe ← self.getPipe p
  let r ← pipe.recv sessionVfptr
  return (self.setPipe p (some r.1), r.2.1, r.2.2)

/-- `grid_pipe_send` of an attached pipe, and whether the pipe is released. -/
def send (msg : Msg) (self : SocketPipes) (p : Nat) : Except Abort (SocketPipes × Bool) := do
  let pipe ← self.getPipe p
  let r ← pipe.send sessionVfptr msg
  return (self.setPipe p (some r.1), r.2)

/-! ## What the environment keeps to -/

/-- The messages that wait on the pipes. -/
def inboxes (self : SocketPipes) (p : Nat) : Option (List (List UInt8)) :=
  (self.pipes p).map (·.session.inbox)

/-- A name is used once. -/
def Fresh (self : SocketPipes) (p : Nat) : Prop := p ∉ self.used

def Attached (self : SocketPipes) (p : Nat) : Prop := (self.pipes p).isSome

/-- A transport reports that a message was sent only while one is being sent. -/
def Sending (self : SocketPipes) (p : Nat) : Prop := (self.pipes p).any (·.outstate == .async)

/-- The event of an attached pipe is next. -/
def Pending (self : SocketPipes) (p : Nat) (e : PipeEvent) : Prop :=
  (self.pipes p).isSome ∧ (p, e) ∈ self.events

instance (self : SocketPipes) (p : Nat) : Decidable (self.Fresh p) :=
  inferInstanceAs (Decidable (p ∉ self.used))

instance (self : SocketPipes) (p : Nat) : Decidable (self.Attached p) :=
  inferInstanceAs (Decidable ((self.pipes p).isSome = true))

instance (self : SocketPipes) (p : Nat) : Decidable (self.Sending p) :=
  inferInstanceAs (Decidable ((self.pipes p).any _ = true))

instance (self : SocketPipes) (p : Nat) (e : PipeEvent) : Decidable (self.Pending p e) :=
  inferInstanceAs (Decidable (_ ∧ _))

/-- The names in use, in the pipes and in the events, are used names. -/
structure Named (w : SocketPipes) : Prop where
  pipes : ∀ p pipe, w.pipes p = some pipe → p ∈ w.used
  events : ∀ e ∈ w.events, e.1 ∈ w.used

theorem named_init : Named {} where
  pipes p pipe h := absurd h (by simp)
  events e h := absurd h (by simp)

variable {self self' : SocketPipes} {p : Nat} {pipe pipe' : WirePipe} {e : PipeEvent}

@[simp] theorem setPipe_pipes (self : SocketPipes) (p : Nat) (pipe : Option WirePipe) :
    (self.setPipe p pipe).pipes = Function.update self.pipes p pipe := rfl

theorem getPipe_some (h : self.pipes p = some pipe) : self.getPipe p = .ok pipe := by
  simp [getPipe, h]

theorem pipe_of_attached (h : self.Attached p) : ∃ pipe, self.pipes p = some pipe :=
  Option.isSome_iff_exists.mp h

theorem inboxes_of_pipe (h : self.pipes p = some pipe) :
    self.inboxes p = some pipe.session.inbox := by
  simp [inboxes, h]

theorem inboxes_update (h : self'.pipes = Function.update self.pipes p (some pipe)) :
    self'.inboxes = Function.update self.inboxes p (some pipe.session.inbox) := by
  funext q
  unfold inboxes
  rw [h]
  rcases eq_or_ne q p with rfl | hq
  · simp
  · simp [Function.update_of_ne hq]

theorem inboxes_update_none (h : self'.pipes = Function.update self.pipes p none) :
    self'.inboxes = Function.update self.inboxes p none := by
  funext q
  unfold inboxes
  rw [h]
  rcases eq_or_ne q p with rfl | hq
  · simp
  · simp [Function.update_of_ne hq]

/-- Replacing a pipe by one with the same messages leaves all of them where they are. -/
theorem inboxes_same (hpipe : self.pipes p = some pipe)
    (h : self'.pipes = Function.update self.pipes p (some pipe'))
    (hinbox : pipe'.session.inbox = pipe.session.inbox) : self'.inboxes = self.inboxes := by
  rw [inboxes_update h, hinbox, ← inboxes_of_pipe hpipe, Function.update_eq_self]

/-- Replacing a pipe attaches and removes none. -/
theorem attached_replace (hpipe : self.pipes p = some pipe)
    (h : self'.pipes = Function.update self.pipes p (some pipe')) (q : Nat) :
    self'.Attached q ↔ self.Attached q := by
  unfold Attached
  rw [h]
  rcases eq_or_ne q p with rfl | hq
  · rw [Function.update_self, hpipe]
    simp
  · rw [Function.update_of_ne hq]

/-! ## What the calls do -/

theorem raise_ok (h : (p, e) ∉ self.events) :
    self.raise p e true = .ok { self with events := self.events ++ [(p, e)] } := by
  rw [raise, if_pos rfl, raiseEvent_ok (by simpa using h)]
  rfl

/-- A new pipe can be written to, and waits for its first message. -/
def started (sndprio rcvprio : Nat) : WirePipe :=
  Pipe.start { sndprio := sndprio, rcvprio := rcvprio, session := {} }

theorem attach_ok {sndprio rcvprio : Nat} (h : self.Named) (hfresh : self.Fresh p) :
    self.attach p sndprio rcvprio = .ok
      { pipes := Function.update self.pipes p (some (started sndprio rcvprio))
        used := p :: self.used
        events := self.events ++ [(p, .pipeOut)] } := by
  unfold attach
  refine raise_ok ?_
  intro hmem
  exact hfresh (h.events _ hmem)

theorem detach_ok (hpipe : self.pipes p = some pipe) :
    self.detach p = .ok (self.setPipe p none) := by
  rw [detach, getPipe_some hpipe]
  rfl

/-- The first message of a pipe is announced. -/
theorem arrive_first (wire : List UInt8) (hpipe : self.pipes p = some pipe)
    (hstate : pipe.instate = .async) (hinbox : pipe.session.inbox = [])
    (hfree : (p, .pipeIn) ∉ self.events) :
    self.arrive p wire = .ok { self.setPipe p (some { pipe with
      instate := .idle
      session := { pipe.session with inbox := [wire] } }) with
        events := self.events ++ [(p, .pipeIn)] } := by
  have hcall : pipe.arrive wire = .ok ({ pipe with
      instate := .idle
      session := { pipe.session with inbox := [wire] } }, true) := by
    simp [Pipe.arrive, hinbox, Pipe.received, hstate]
  rw [arrive, getPipe_some hpipe, ok_bind, hcall, ok_bind]
  exact raise_ok hfree

/-- The messages behind it are not. -/
theorem arrive_more (wire : List UInt8) (hpipe : self.pipes p = some pipe)
    (hinbox : pipe.session.inbox ≠ []) :
    self.arrive p wire = .ok (self.setPipe p (some { pipe with
      session := { pipe.session with inbox := pipe.session.inbox ++ [wire] } })) := by
  have hcall : pipe.arrive wire = .ok ({ pipe with
      session := { pipe.session with inbox := pipe.session.inbox ++ [wire] } }, false) := by
    simp [Pipe.arrive, hinbox]
  rw [arrive, getPipe_some hpipe, ok_bind, hcall, ok_bind]
  rfl

theorem sent_ok (hpipe : self.pipes p = some pipe) (hstate : pipe.outstate = .async)
    (hfree : (p, .pipeOut) ∉ self.events) :
    self.sent p = .ok { self.setPipe p (some { pipe with outstate := .idle }) with
      events := self.events ++ [(p, .pipeOut)] } := by
  have hcall : pipe.sent = .ok ({ pipe with outstate := .idle }, true) :=
    Pipe.sent_eq_ok.mpr (Or.inr ⟨hstate, rfl, rfl⟩)
  rw [sent, getPipe_some hpipe, ok_bind, hcall, ok_bind]
  exact raise_ok hfree

/-- A pipe gives its oldest message, and is kept as long as there are more. -/
theorem recv_ok {wire : List UInt8} {rest : List (List UInt8)} (hpipe : self.pipes p = some pipe)
    (hstate : pipe.instate = .idle) (hinbox : pipe.session.inbox = wire :: rest) :
    self.recv p = .ok (self.setPipe p (some { pipe with
      instate := if rest = [] then .async else .idle
      session := { pipe.session with inbox := rest } }), wire, decide (rest = [])) := by
  have hcall : pipe.recv sessionVfptr = .ok ({ pipe with
      instate := if rest = [] then .async else .idle
      session := { pipe.session with inbox := rest } }, wire, decide (rest = [])) := by
    cases rest with
    | nil => simp [Pipe.recv, sessionVfptr, hstate, hinbox]
    | cons next rest => simp [Pipe.recv, sessionVfptr, hstate, hinbox, Pipe.received]
  rw [recv, getPipe_some hpipe, ok_bind, hcall]
  rfl

/-- A pipe takes a message, and is released until it was sent. -/
theorem send_ok (msg : Msg) (hpipe : self.pipes p = some pipe) (hstate : pipe.outstate = .idle) :
    self.send msg p = .ok (self.setPipe p (some { pipe with
      outstate := .async
      session := { pipe.session with outbox := pipe.session.outbox ++ [msg.wire] } }), true) := by
  rw [send, getPipe_some hpipe, ok_bind, Pipe.send_ready hstate]
  rfl

end SocketPipes

end GridMq.Protocols
