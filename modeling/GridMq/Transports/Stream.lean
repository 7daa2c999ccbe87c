import GridMq.Aio.Usock
import GridMq.Core.Pipe
import GridMq.Utils.Chunk
import GridMq.Library.Framing
import GridMq.Library.Transition

set_option autoImplicit false

/-!
# Sessions over a stream

What `src/transports/tcp/stcp.c` and `src/transports/ipc/sipc.c` have in common: both
carry messages over a connected usock, each behind a header with its size, and differ in
that header only.  The session is followed from the moment its pipe is started, together
with the events in the queue of its context, the usock, and the bytes on the wire in both
directions.
-/

namespace GridMq.Transports

open GridMq.Aio GridMq.Core GridMq.Library

/-- What stcp and sipc do differently. -/
structure WireFormat where
  /-- the size of `inhdr` and `outhdr` -/
  hdrLen : Nat
  /-- what is written before a message of that size -/
  outhdr : Nat → List UInt8
  /-- what is made of a header that was received, for a value of `GRID_RCVMAXSIZE`: the size
  of the message, or none if the connection is dropped -/
  checkHdr : Int → List UInt8 → Except Abort (Option Nat)

/-- `GRID_STCP_STATE_*` and `GRID_SIPC_STATE_*` from ACTIVE on. -/
inductive StreamState where
  | active | shuttingDown | done
  deriving DecidableEq, Repr

/-- `GRID_STCP_INSTATE_*`. -/
inductive StreamInState where
  | hdr | body | hasmsg
  deriving DecidableEq, Repr

/-- `GRID_STCP_OUTSTATE_*`. -/
inductive StreamOutState where
  | idle | sending
  deriving DecidableEq, Repr

/-- An event in the queue of the context: from the usock, from the pipe to the socket, and
`GRID_STCP_ERROR` from the session to its owner. -/
inductive StreamEvent where
  | usock (e : UsockEvent)
  | pipeIn
  | pipeOut
  | done
  deriving DecidableEq, Repr

/-- Which `struct grid_fsm_event` an event is raised through: a usock has one for both
SHUTDOWN and ERROR. -/
def StreamEvent.item : StreamEvent → StreamEvent
  | .usock .shutdown => .usock .error
  | e => e

/-- `struct grid_stcp`, its usock, the queue of its context, and the bytes that the peer
has sent and that were not read yet. -/
structure Stream where
  state : StreamState := .active
  instate : StreamInState := .hdr
  inhdr : List UInt8 := []
  inmsg : List UInt8 := []
  outstate : StreamOutState := .idle
  outmsg : Msg := {}
  usock : Usock := .connected
  events : List StreamEvent := []
  wire : List UInt8 := []
  /-- all bytes that were sent -/
  written : List UInt8 := []

namespace Stream

/-- `grid_fsm_raise`.  An event that is queued already fails an assertion of
`grid_queue_push`. -/
def raise (self : Stream) (e : StreamEvent) : Except Abort Stream := do
  gridAssert (e.item ∉ self.events.map StreamEvent.item)
  return { self with events := self.events ++ [e] }

def raiseIf (self : Stream) (cond : Bool) (e : StreamEvent) : Except Abort Stream :=
  if cond then self.raise e else .ok self

def raiseUsock (self : Stream) (e : Option UsockEvent) : Except Abort Stream :=
  match e with
  | none => .ok self
  | some e => self.raise (.usock e)

/-- `grid_usock_recv` on the usock of the session. -/
def usockRecv (self : Stream) (len : Nat) (io : Io) : Except Abort Stream := do
  let r ← self.usock.recv self.wire len io
  ({ self with usock := r.1, wire := r.2.1 } : Stream).raiseUsock r.2.2

/-- `grid_usock_send` on the usock of the session. -/
def usockSend (self : Stream) (iov : List (List UInt8)) (io : Io) : Except Abort Stream := do
  let r ← self.usock.send iov io
  ({ self with usock := r.1, written := self.written ++ r.2.1 } : Stream).raiseUsock r.2.2

/-- `grid_stcp_send` and `grid_sipc_send`. -/
def send (fmt : WireFormat) (self : Stream) (msg : Msg) (io : Io) : Except Abort Stream := do
  gridAssert (self.state = .active)
  gridAssert (self.outstate = .idle)
  let self := { self with outmsg := msg }
  let self ← self.usockSend
    [fmt.outhdr (msg.sphdr.length + msg.body.length), msg.sphdr, msg.body] io
  return { self with outstate := .sending }

/-- `grid_stcp_recv` and `grid_sipc_recv`. -/
def recv (fmt : WireFormat) (self : Stream) (io : Io) :
    Except Abort (Stream × List UInt8) := do
  gridAssert (self.state = .active)
  gridAssert (self.instate = .hasmsg)
  let msg := self.inmsg
  let self := { self with inmsg := [], instate := .hdr }
  let self ← self.usockRecv fmt.hdrLen io
  return (self, msg)

/-- The virtual functions of the pipe, for what happens to the calls they make. -/
def vfptr (fmt : WireFormat) (io : Io) : PipeVfptr Stream (List UInt8) where
  send pipe msg := do
    let session ← pipe.session.send fmt msg io
    return { pipe with session := session }
  recv pipe := do
    let r ← pipe.session.recv fmt io
    return ({ pipe with session := r.1 }, r.2)

end Stream

/-- A session, its pipe and what the socket knows of the pipe.  `sent`, `delivered` and
`arrived` record what went through it. -/
structure Session where
  pipe : Pipe Stream
  /-- `GRID_PIPEBASE_STATE_ACTIVE` -/
  attached : Bool := true
  /-- the socket may receive from the pipe -/
  readable : Bool := false
  /-- the socket may send to the pipe -/
  writable : Bool := false
  /-- the owner was told of the end of the session and has stopped it -/
  failed : Bool := false
  sent : List Msg := []
  delivered : List (List UInt8) := []
  arrived : List UInt8 := []

namespace Session

def setStream (self : Session) (stream : Stream) : Session :=
  { self with pipe := { self.pipe with session := stream } }

/-- `grid_pipebase_received`. -/
def pipeReceived (self : Session) : Except Abort Session := do
  let r ← self.pipe.received
  let stream ← r.1.session.raiseIf r.2 .pipeIn
  return { self with pipe := { r.1 with session := stream } }

/-- `grid_pipebase_sent`. -/
def pipeSent (self : Session) : Except Abort Session := do
  let r ← self.pipe.sent
  let stream ← r.1.session.raiseIf r.2 .pipeOut
  return { self with pipe := { r.1 with session := stream } }

/-- `grid_pipebase_stop`. -/
def pipeStop (self : Session) : Session :=
  { self with attached := false, readable := false, writable := false }

/-- `GRID_STCP_ERROR` is raised in the DONE state. -/
def fail (self : Session) : Except Abort Session := do
  let stream ← ({ self.pipe.session with state := .done } : Stream).raise .done
  return self.setStream stream

/-- `GRID_USOCK_RECEIVED` for a header. -/
def hdrReceived (fmt : WireFormat) (opt : Int) (self : Session) (io : Io) :
    Except Abort Session := do
  let stream := { self.pipe.session with inhdr := self.pipe.session.usock.inBuf }
  match ← fmt.checkHdr opt stream.inhdr with
  | none => (self.setStream stream).fail
  | some size => do
      chunkrefInit size
      if size = 0 then
        (self.setStream { stream with inmsg := [], instate := .hasmsg }).pipeReceived
      else do
        let stream ← ({ stream with instate := .body } : Stream).usockRecv size io
        return self.setStream stream

/-- An event of the usock in the ACTIVE state. -/
def activeHandler (fmt : WireFormat) (opt : Int) (self : Session) (type : UsockEvent) (io : Io) :
    Except Abort Session :=
  match type with
  | .sent => do
      gridAssert (self.pipe.session.outstate = .sending)
      (self.setStream { self.pipe.session with outstate := .idle, outmsg := {} }).pipeSent
  | .received =>
      match self.pipe.session.instate with
      | .hdr => self.hdrReceived fmt opt io
      | .body =>
          (self.setStream { self.pipe.session with
            instate := .hasmsg, inmsg := self.pipe.session.usock.inBuf }).pipeReceived
      | .hasmsg => .error .assertion
  | .shutdown =>
      .ok (self.pipeStop.setStream { self.pipe.session with state := .shuttingDown })
  | .error => self.pipeStop.fail
  | .connected => .error .badAction
  | .accepted => .error .badAction
  | .acceptError => .error .badAction
  | .stopped => .error .badAction

/-- `grid_stcp_handler` and `grid_sipc_handler`, for an event of the usock. -/
def handler (fmt : WireFormat) (opt : Int) (self : Session) (type : UsockEvent) (io : Io) :
    Except Abort Session :=
  match self.pipe.session.state with
  | .active => self.activeHandler fmt opt type io
  | .shuttingDown => if type = .error then self.fail else .error .badAction
  | .done => .error .badSource

/-- The session when its handshake is over: the pipe is started and the first header is
asked for.  `batch` is what was read behind the peer's protocol header. -/
def start (fmt : WireFormat) (batch wire : List UInt8) (io : Io) : Except Abort Session := do
  let stream : Stream := { usock := { Usock.connected with batch := batch }, wire := wire }
  let pipe : Pipe Stream := Pipe.start { sndprio := 8, rcvprio := 8, session := stream }
  let stream ← pipe.session.raise .pipeOut
  let stream ← stream.usockRecv fmt.hdrLen io
  return { pipe := { pipe with session := stream }, arrived := batch ++ wire }

/-! ## Steps -/

/-- What can happen to a session. -/
inductive Label where
  /-- the peer sends -/
  | arrive (bytes : List UInt8)
  /-- the next event of the queue is delivered -/
  | deliver (io : Io)
  /-- the worker executes the next task of the usock -/
  | workerTask
  /-- the worker finds the descriptor readable, writable or broken -/
  | fdIn (io : Io)
  | fdOut (io : Io)
  | fdErr
  /-- the socket sends or receives a message -/
  | send (msg : Msg) (io : Io)
  | recv (io : Io)
  deriving DecidableEq

/-- An event is delivered.  The owner stops a session that has failed. -/
def deliver (fmt : WireFormat) (opt : Int) (self : Session) (e : StreamEvent) (io : Io) :
    Except Abort Session :=
  match e with
  | .usock type => self.handler fmt opt type io
  | .pipeIn => .ok { self with readable := self.attached }
  | .pipeOut => .ok { self with writable := self.attached }
  | .done => .ok { self.pipeStop with failed := true }

/-- When a step can be taken.  The worker enters the context when its queue is empty; the
usock of a session that was stopped is its owner's again. -/
def Enabled (self : Session) : Label → Prop
  | .arrive _ => True
  | .deliver _ => self.pipe.session.events ≠ []
  | .workerTask => self.failed = false ∧ self.pipe.session.events = [] ∧
      self.pipe.session.usock.tasks ≠ []
  | .fdIn _ => self.failed = false ∧ self.pipe.session.events = [] ∧
      self.pipe.session.usock.pollIn = true
  | .fdOut _ => self.failed = false ∧ self.pipe.session.events = [] ∧
      self.pipe.session.usock.pollOut = true
  | .fdErr => self.failed = false ∧ self.pipe.session.events = [] ∧
      self.pipe.session.usock.fd = true
  | .send _ _ => self.writable = true
  | .recv _ => self.readable = true

instance (self : Session) (l : Label) : Decidable (self.Enabled l) :=
  match l with
  | .arrive _ => inferInstanceAs (Decidable True)
  | .deliver _ => inferInstanceAs (Decidable (_ ≠ _))
  | .workerTask => inferInstanceAs (Decidable (_ ∧ _ ∧ _ ≠ _))
  | .fdIn _ => inferInstanceAs (Decidable (_ ∧ _ ∧ _))
  | .fdOut _ => inferInstanceAs (Decidable (_ ∧ _ ∧ _))
  | .fdErr => inferInstanceAs (Decidable (_ ∧ _ ∧ _))
  | .send _ _ => inferInstanceAs (Decidable (_ = _))
  | .recv _ => inferInstanceAs (Decidable (_ = _))

/-- One step. -/
def next (fmt : WireFormat) (opt : Int) (self : Session) : Label → Except Abort Session
  | .arrive bytes =>
      .ok { self.setStream { self.pipe.session with wire := self.pipe.session.wire ++ bytes }
        with arrived := self.arrived ++ bytes }
  | .deliver io =>
      match self.pipe.session.events with
      | [] => .ok self
      | e :: events =>
          (self.setStream { self.pipe.session with events := events }).deliver fmt opt e io
  | .workerTask => do
      let r ← self.pipe.session.usock.runTask
      let stream ← ({ self.pipe.session with usock := r.1 } : Stream).raiseUsock r.2
      return self.setStream stream
  | .fdIn io => do
      let r ← self.pipe.session.usock.fdIn self.pipe.session.wire io
      let stream ← ({ self.pipe.session with usock := r.1, wire := r.2.1 } : Stream).raiseUsock
        r.2.2
      return self.setStream stream
  | .fdOut io => do
      let r ← self.pipe.session.usock.fdOut io
      let stream ← ({ self.pipe.session with
        usock := r.1, written := self.pipe.session.written ++ r.2.1 } : Stream).raiseUsock r.2.2
      return self.setStream stream
  | .fdErr => do
      let r ← self.pipe.session.usock.fdErr
      let stream ← ({ self.pipe.session with usock := r.1 } : Stream).raiseUsock r.2
      return self.setStream stream
  | .send msg io => do
      let r ← self.pipe.send (Stream.vfptr fmt io) msg
      return { self with pipe := r.1, writable := !r.2, sent := self.sent ++ [msg] }
  | .recv io => do
      let r ← self.pipe.recv (Stream.vfptr fmt io)
      return { self with
        pipe := r.1, readable := !r.2.2, delivered := self.delivered ++ [r.2.1] }

/-- The runs of a session whose socket has set `GRID_RCVMAXSIZE` to `opt`. -/
def system (fmt : WireFormat) (opt : Int) : System Session Label where
  init s := ∃ batch wire io, start fmt batch wire io = .ok s
  step s l s' := s.Enabled l ∧ s.next fmt opt l = .ok s'

end Session

/-- How the wire format cuts a stream into messages.  A stream ends at a header that drops
the connection or, with `some`, that aborts the process. -/
def WireFormat.framing (fmt : WireFormat) (opt : Int) : Framing UInt8 (Option Abort) where
  hdrLen := fmt.hdrLen
  size hdr :=
    match fmt.checkHdr opt hdr with
    | .error a => .error (some a)
    | .ok none => .error none
    | .ok (some size) =>
        match chunkrefInit size with
        | .error a => .error (some a)
        | .ok _ => .ok size

end GridMq.Transports
