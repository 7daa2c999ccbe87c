import GridMq.Aio.Timer
import GridMq.Core.Pipe
import GridMq.Transports.Msgqueue

set_option autoImplicit false

/-!
# inproc sessions (`src/transports/inproc/sinproc.c`)

The two sessions of a connection live in the contexts of two sockets and talk through
events that one context raises in the other.  A message stays in the sender's session
until the receiver, on SENT, moves it to its own queue and answers with RECEIVED.  What
of the events is under way is part of the state; they may arrive in any order.
-/

namespace GridMq.Transports

open GridMq.Aio GridMq.Core

/-- The two ends of a connection. -/
inductive Side where
  | left | right
  deriving DecidableEq, Repr

/-- The other end. -/
def Side.peer : Side → Side
  | .left => .right
  | .right => .left

@[simp] theorem Side.peer_peer (x : Side) : x.peer.peer = x := by
  cases x <;> rfl

@[simp] theorem Side.peer_ne (x : Side) : x.peer ≠ x := by
  cases x <;> simp [Side.peer]

@[simp] theorem Side.ne_peer (x : Side) : x ≠ x.peer := (Side.peer_ne x).symm

theorem Side.eq_or_eq_peer (x y : Side) : y = x ∨ y = x.peer := by
  cases x <;> cases y <;> simp [Side.peer]

/-- `GRID_SINPROC_STATE_*`. -/
inductive SinprocState where
  | idle | connecting | ready | active | disconnected | stoppingPeer | stopping
  deriving DecidableEq, Repr

/-- `struct grid_sinproc`, without its pipe and its events.  The two flags are
`GRID_SINPROC_FLAG_SENDING` and `GRID_SINPROC_FLAG_RECEIVING`; `peer` says whether the
pointer to the peer is set. -/
structure Sinproc where
  fsm : FsmState := .idle
  state : SinprocState := .idle
  sending : Bool := false
  receiving : Bool := false
  peer : Bool := false
  msgqueue : Msgqueue
  msg : Msg := {}

/-- What a session raises through its `event_connect`. -/
inductive Handshake where
  | ready | accepted
  deriving DecidableEq, Repr

/-- What a session is told through its `event_sent`, `event_received` and
`event_disconnect`. -/
inductive Notice where
  | sent | received | disconnect
  deriving DecidableEq, Repr

/-- An event from the peer. -/
inductive PeerEvent where
  | handshake (e : Handshake)
  | notice (e : Notice)
  deriving DecidableEq, Repr

/-- The sessions, with the events under way to each of them. -/
structure Link where
  ends : Side → Sinproc
  handshake : Side → Option Handshake := fun _ => none
  notice : Side → Notice → Bool := fun _ _ => false

/-- The connection: the pipes of both sides, which of them have been added to their
sockets, and the sessions behind them. -/
structure Pair where
  pipe : Side → Pipe Unit
  added : Side → Bool := fun _ => false
  link : Link

namespace Link

def setEnd (self : Link) (x : Side) (s : Sinproc) : Link :=
  { self with ends := fun y => if y = x then s else self.ends y }

def withNotice (self : Link) (x : Side) (e : Notice) (coming : Bool) : Link :=
  { self with notice := fun y f => if y = x ∧ f = e then coming else self.notice y f }

def withHandshake (self : Link) (x : Side) (e : Option Handshake) : Link :=
  { self with handshake := fun y => if y = x then e else self.handshake y }

/-- `grid_fsm_raiseto` of an event that belongs to the session it goes to.  An event that
is under way already fails an assertion of `grid_queue_push`. -/
def raiseNotice (self : Link) (x : Side) (e : Notice) : Except Abort Link := do
  gridAssert (self.notice x e = false)
  return self.withNotice x e true

/-- `grid_fsm_raiseto` of the `event_connect` of the peer. -/
def raiseHandshake (self : Link) (x : Side) (e : Handshake) : Except Abort Link := do
  gridAssert (self.handshake x = none)
  return self.withHandshake x (some e)

/-- An event has arrived. -/
def arrived (self : Link) (x : Side) : PeerEvent → Link
  | .handshake _ => self.withHandshake x none
  | .notice e => self.withNotice x e false

/-- The event is under way to the session. -/
def UnderWay (self : Link) (x : Side) : PeerEvent → Prop
  | .handshake e => self.handshake x = some e
  | .notice e => self.notice x e = true

instance (self : Link) (x : Side) (e : PeerEvent) : Decidable (self.UnderWay x e) := by
  cases e <;> exact inferInstanceAs (Decidable (_ = _))

variable (self : Link) (x y : Side) (s : Sinproc) (e f : Notice) (coming : Bool)
  (h : Option Handshake)

theorem setEnd_ends : (self.setEnd x s).ends y = if y = x then s else self.ends y := rfl

@[simp] theorem setEnd_ends_self : (self.setEnd x s).ends x = s := if_pos rfl

@[simp] theorem setEnd_ends_peer : (self.setEnd x s).ends x.peer = self.ends x.peer :=
  if_neg (by simp)

@[simp] theorem setEnd_peer_ends : (self.setEnd x.peer s).ends x = self.ends x :=
  if_neg (by simp)

@[simp] theorem setEnd_setEnd (s' : Sinproc) :
    (self.setEnd x s).setEnd x s' = self.setEnd x s' := by
  simp only [setEnd, Link.mk.injEq, and_true]
  funext y
  split <;> rfl

@[simp] theorem setEnd_notice : (self.setEnd x s).notice = self.notice := rfl

@[simp] theorem setEnd_handshake : (self.setEnd x s).handshake = self.handshake := rfl

@[simp] theorem withNotice_ends : (self.withNotice x e coming).ends = self.ends := rfl

@[simp] theorem withHandshake_ends : (self.withHandshake x h).ends = self.ends := rfl

@[simp] theorem withHandshake_notice : (self.withHandshake x h).notice = self.notice := rfl

@[simp] theorem arrived_ends (e : PeerEvent) : (self.arrived x e).ends = self.ends := by
  cases e <;> rfl

variable {self x e}

theorem raiseNotice_eq_ok {self' : Link} :
    self.raiseNotice x e = .ok self' ↔
      self.notice x e = false ∧ self' = self.withNotice x e true := by
  unfold raiseNotice gridAssert
  split
  · rename_i hfree
    simp only [ok_bind, pure_eq_ok, Except.ok.injEq, hfree, true_and, eq_comm]
  · rename_i hbusy
    simp [hbusy]

theorem raiseHandshake_eq_ok {self' : Link} {e : Handshake} :
    self.raiseHandshake x e = .ok self' ↔
      self.handshake x = none ∧ self' = self.withHandshake x (some e) := by
  unfold raiseHandshake gridAssert
  split
  · rename_i hfree
    simp only [ok_bind, pure_eq_ok, Except.ok.injEq, hfree, true_and, eq_comm]
  · rename_i hbusy
    simp [hbusy]

end Link

namespace Sinproc

/-- `grid_sinproc_send`.  The result `-ECONNRESET` fails the check of `grid_pipe_send`. -/
def send (x : Side) (self : Pipe Link) (msg : Msg) : Except Abort (Pipe Link) :=
  let sinproc := self.session.ends x
  if sinproc.state = .disconnected then .error .errnum
  else do
    gridAssert (sinproc.state = .active)
    gridAssert (sinproc.sending = false)
    let nmsg : Msg := { body := msg.sphdr ++ msg.body }
    if sinproc.peer = false then .error .nullPointer
    else do
      let link := self.session.setEnd x { sinproc with msg := nmsg, sending := true }
      return { self with session := ← link.raiseNotice x.peer .sent }

/-- A message of the peer that was lingering is tried once more. -/
def retry (x : Side) (link : Link) : Except Abort Link :=
  let sinproc := link.ends x
  if sinproc.state ≠ .disconnected ∧ sinproc.receiving = true then
    if sinproc.peer = false then .error .nullPointer
    else
      let peer := link.ends x.peer
      match sinproc.msgqueue.send peer.msg with
      | none => .ok link
      | some msgqueue =>
          ((link.setEnd x { sinproc with msgqueue := msgqueue, receiving := false }).setEnd
            x.peer { peer with msg := {} }).raiseNotice x.peer .received
  else .ok link

/-- `grid_sinproc_recv`. -/
def recv (x : Side) (self : Pipe Link) : Except Abort (Pipe Link × Msg) := do
  let sinproc := self.session.ends x
  gridAssert (sinproc.state = .active ∨ sinproc.state = .disconnected)
  match ← sinproc.msgqueue.recv with
  | none => .error .errnum
  | some (msg, msgqueue) =>
      let link ← retry x (self.session.setEnd x { sinproc with msgqueue := msgqueue })
      let self := { self with session := link }
      if (link.ends x).msgqueue.empty then return (self, msg)
      else
        let (self, _) ← self.received
        return (self, msg)

/-- `grid_sinproc_pipebase_vfptr`. -/
def vfptr (x : Side) : PipeVfptr Link Msg where
  send := send x
  recv := recv x

end Sinproc

namespace Pair

/-- The pipe of a side, with the sessions behind it. -/
def pipebase (self : Pair) (x : Side) : Pipe Link where
  instate := (self.pipe x).instate
  outstate := (self.pipe x).outstate
  sndprio := (self.pipe x).sndprio
  rcvprio := (self.pipe x).rcvprio
  session := self.link

/-- What a call on the pipe of a side leaves behind. -/
def withPipebase (self : Pair) (x : Side) (p : Pipe Link) : Pair :=
  let pipe : Pipe Unit :=
    { instate := p.instate, outstate := p.outstate, sndprio := p.sndprio
      rcvprio := p.rcvprio, session := () }
  { self with pipe := fun y => if y = x then pipe else self.pipe y, link := p.session }

/-- `grid_pipe_send`. -/
def send (self : Pair) (x : Side) (msg : Msg) : Except Abort Pair := do
  let (p, _) ← (self.pipebase x).send (Sinproc.vfptr x) msg
  return self.withPipebase x p

/-- `grid_pipe_recv`. -/
def recv (self : Pair) (x : Side) : Except Abort (Pair × Msg) := do
  let (p, msg, _) ← (self.pipebase x).recv (Sinproc.vfptr x)
  return (self.withPipebase x p, msg)

/-- `grid_pipebase_start`, which the socket may refuse, and the check of its result. -/
def startPipe (self : Pair) (x : Side) (refused : Bool) : Except Abort Pair :=
  if refused then .error .errnum
  else .ok { self.withPipebase x (self.pipebase x).start with
    added := fun y => if y = x then true else self.added y }

/-- `grid_pipebase_stop`. -/
def stopPipe (self : Pair) (x : Side) : Pair :=
  { self with added := fun y => if y = x then false else self.added y }

def setEnd (self : Pair) (x : Side) (s : Sinproc) : Pair :=
  { self with link := self.link.setEnd x s }

def raiseNotice (self : Pair) (x : Side) (e : Notice) : Except Abort Pair := do
  return { self with link := ← self.link.raiseNotice x e }

/-- `grid_sinproc_handler` for an event from the peer.  On DISCONNECT the owner of the
session is told; that event stays in the context and is left out. -/
def handler (self : Pair) (x : Side) (refused : Bool) (e : PeerEvent) : Except Abort Pair :=
  let sinproc := self.link.ends x
  match sinproc.state with
  | .idle => .error .badSource
  | .connecting =>
      match e with
      | .handshake .ready => do
          let self := self.setEnd x { sinproc with peer := true }
          let self ← self.startPipe x refused
          let self := self.setEnd x { self.link.ends x with state := .active }
          return { self with link := ← self.link.raiseHandshake x.peer .accepted }
      | _ => .error .badAction
  | .ready =>
      match e with
      | .handshake _ => do
          let self ← self.startPipe x refused
          return self.setEnd x { self.link.ends x with state := .active }
      | _ => .error .badAction
  | .active =>
      match e with
      | .notice .sent =>
          if sinproc.peer = false then .error .nullPointer
          else
            let empty := sinproc.msgqueue.empty
            let peer := self.link.ends x.peer
            match sinproc.msgqueue.send peer.msg with
            | none => .ok (self.setEnd x { sinproc with receiving := true })
            | some msgqueue => do
                let self := (self.setEnd x { sinproc with msgqueue := msgqueue }).setEnd x.peer
                  { peer with msg := {} }
                let self ←
                  if empty then do
                    let (p, _) ← (self.pipebase x).received
                    pure (self.withPipebase x p)
                  else pure self
                self.raiseNotice x.peer .received
      | .notice .received => do
          gridAssert (sinproc.sending = true)
          let (p, _) ← (self.pipebase x).sent
          let self := self.withPipebase x p
          return self.setEnd x { sinproc with sending := false }
      | .notice .disconnect =>
          if sinproc.peer = false then .error .nullPointer
          else do
            let self ← (self.stopPipe x).raiseNotice x.peer .disconnect
            return self.setEnd x { sinproc with state := .disconnected, peer := false }
      | .handshake _ => .error .badAction
  | .disconnected =>
      match e with
      | .notice .received => .ok self
      | _ => .error .badAction
  | .stoppingPeer | .stopping => .error .badState

/-- The end of `grid_sinproc_shutdown`: the session stops once its events have arrived. -/
def finish (self : Pair) (x : Side) : Except Abort Pair :=
  let sinproc := self.link.ends x
  if sinproc.state ≠ .stopping then .ok self
  else if self.link.notice x .received = true ∨ self.link.notice x .disconnect = true then .ok self
  else do
    gridAssert (self.link.handshake x.peer = none)
    gridAssert (self.link.notice x .sent = false)
    return self.setEnd x { sinproc with fsm := .idle }

/-- `grid_sinproc_shutdown` for an event from the peer. -/
def shutdown (self : Pair) (x : Side) (e : PeerEvent) : Except Abort Pair :=
  let sinproc := self.link.ends x
  match e with
  | .notice .received => self.finish x
  | _ =>
      match sinproc.state with
      | .stoppingPeer =>
          match e with
          | .notice .disconnect => (self.setEnd x { sinproc with state := .stopping }).finish x
          | _ => .error .badAction
      | _ => .error .badState

/-- `grid_fsm_feed` of an event that arrives. -/
def feed (self : Pair) (x : Side) (refused : Bool) (e : PeerEvent) : Except Abort Pair :=
  let self := { self with link := self.link.arrived x e }
  if (self.link.ends x).fsm = .stopping then self.shutdown x e else self.handler x refused e

/-- `grid_sinproc_stop`, with the STOP action of `grid_sinproc_shutdown`. -/
def stop (self : Pair) (x : Side) : Except Abort Pair :=
  let sinproc := self.link.ends x
  if sinproc.fsm ≠ .active then .ok self
  else if sinproc.state ≠ .idle ∧ sinproc.state ≠ .disconnected then
    if sinproc.peer = false then .error .nullPointer
    else do
      let self ← (self.stopPipe x).raiseNotice x.peer .disconnect
      (self.setEnd x { sinproc with fsm := .stopping, state := .stoppingPeer }).finish x
  else (self.setEnd x { sinproc with fsm := .stopping, state := .stopping }).finish x

/-- After `grid_sinproc_connect` on side `x` and `grid_sinproc_accept` on the other one: the
READY event is under way. -/
def accepted (x : Side) (sndprio rcvprio rcvbuf : Side → Nat) : Pair where
  pipe y := { sndprio := sndprio y, rcvprio := rcvprio y, session := () }
  link :=
    { ends := fun y =>
        if y = x then
          { fsm := .active, state := .connecting, msgqueue := .init (rcvbuf y) }
        else
          { fsm := .active, state := .ready, peer := true, msgqueue := .init (rcvbuf y) }
      handshake := fun y => if y = x then some .ready else none }

end Pair

end GridMq.Transports
