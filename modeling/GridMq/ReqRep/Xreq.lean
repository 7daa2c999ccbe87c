import GridMq.Core.Session
import GridMq.Protocols.Priolist

set_option autoImplicit false

/-!
# The raw REQ socket (`src/protocols/reqrep/xreq.c`) and its pipes

Requests leave through the load balancer, replies come in through the fair queue
(`src/protocols/utils/lb.c`, `fq.c`).  The session behind a pipe is the queue of
messages that have arrived on it, as in `grid_sinproc_recv`; a TCP or IPC
session is the case of a queue that holds one message.  No transport sets
`GRID_PIPE_PARSED`.
-/

namespace GridMq.ReqRep

open GridMq.Core GridMq.Protocols

/-- A message that has arrived: its bytes, and how many requests the user had
sent by then. -/
structure Arrival where
  wire : List UInt8
  epoch : Nat
  deriving DecidableEq, Repr

/-- `struct grid_xreq`, with the pipes attached to it. -/
structure Xreq where
  pipes : Nat → Option (Pipe (Session Arrival)) := fun _ => none
  lb : Priolist := .init
  fq : Priolist := .init

/-- The split of a received message at the end of `grid_xreq_recv`; `none` is a
message that is too short. -/
def xreqSplit (bytes : List UInt8) : Option Msg :=
  if bytes.length < 4 then none
  else some { sphdr := bytes.take 4, body := bytes.drop 4 }

namespace Xreq

/-- A pipe that is followed has to be attached. -/
def getPipe (self : Xreq) (p : Nat) : Except Abort (Pipe (Session Arrival)) :=
  match self.pipes p with
  | none => .error .nullPointer
  | some pipe => .ok pipe

def setPipe (self : Xreq) (p : Nat) (pipe : Option (Pipe (Session Arrival))) : Xreq :=
  { self with pipes := fun q => if q = p then pipe else self.pipes q }

/-- The assertion of `grid_sock_stat_increment` for `CURRENT_SND_PRIORITY`. -/
def statPriority (self : Xreq) : Except Abort Unit :=
  gridAssert (self.lb.getPriority = -1 ∨
    0 < self.lb.getPriority ∧ self.lb.getPriority ≤ priolistSlots)

/-- `grid_pipebase_start` with `grid_xreq_add`. -/
def add (self : Xreq) (p sndprio rcvprio : Nat) : Except Abort Xreq := do
  gridAssert (1 ≤ sndprio ∧ sndprio ≤ 16)
  gridAssert (1 ≤ rcvprio ∧ rcvprio ≤ 16)
  return self.setPipe p (some (Pipe.start
    { sndprio := sndprio, rcvprio := rcvprio, session := {} }))

/-- `grid_pipebase_stop` with `grid_xreq_rm`. -/
def rm (self : Xreq) (p : Nat) : Except Abort Xreq := do
  let pipe ← self.getPipe p
  let self := { self with
    lb := self.lb.rm ⟨p, pipe.sndprio⟩, fq := self.fq.rm ⟨p, pipe.rcvprio⟩ }
  self.statPriority
  return self.setPipe p none

/-- `grid_xreq_in`. -/
def xreqIn (self : Xreq) (p : Nat) : Except Abort Xreq := do
  let pipe ← self.getPipe p
  let fq ← self.fq.activate ⟨p, pipe.rcvprio⟩
  return { self with fq := fq }

/-- `grid_xreq_out`. -/
def xreqOut (self : Xreq) (p : Nat) : Except Abort Xreq := do
  let pipe ← self.getPipe p
  let lb ← self.lb.activate ⟨p, pipe.sndprio⟩
  let self := { self with lb := lb }
  self.statPriority
  return self

/-- `grid_xreq_send_to` with `grid_lb_send`: the pipe the message was sent to;
`none` is `-EAGAIN`. -/
def sendTo (self : Xreq) (msg : Msg) : Except Abort (Xreq × Option Nat) := do
  match ← self.lb.getpipe with
  | none => return (self, none)
  | some d =>
      let pipe ← self.getPipe d.pipe
      let r ← pipe.send sessionVfptr msg
      let lb ← self.lb.advance r.2
      return ({ self.setPipe d.pipe (some r.1) with lb := lb }, some d.pipe)

/-- `grid_fq_recv`; `none` is `-EAGAIN`. -/
def fqRecv (self : Xreq) : Except Abort (Xreq × Option Arrival) := do
  match ← self.fq.getpipe with
  | none => return (self, none)
  | some d =>
      let pipe ← self.getPipe d.pipe
      let r ← pipe.recv sessionVfptr
      let fq ← self.fq.advance r.2.2
      return ({ self.setPipe d.pipe (some r.1) with fq := fq }, some r.2.1)

/-- `grid_xreq_recv`; `none` is `-EAGAIN`. -/
def recv (self : Xreq) : Except Abort (Xreq × Option Msg) := do
  let r ← self.fqRecv
  match r.2 with
  | none => return (r.1, none)
  | some a => return (r.1, xreqSplit a.wire)

/-- A message arrives on a pipe, and whether an IN event is raised. -/
def receivedMsg (self : Xreq) (p : Nat) (a : Arrival) : Except Abort (Xreq × Bool) := do
  let pipe ← self.getPipe p
  let r ← pipe.arrive a
  return (self.setPipe p (some r.1), r.2)

/-- A message has left a pipe, and whether an OUT event is raised. -/
def sentMsg (self : Xreq) (p : Nat) : Except Abort (Xreq × Bool) := do
  let pipe ← self.getPipe p
  let r ← pipe.sent
  return (self.setPipe p (some r.1), r.2)

/-- The messages waiting on the pipes of the fair queue. -/
def unread (self : Xreq) : Nat :=
  (((List.range priolistSlots).flatMap fun i => (self.fq.slots i).pipes).map fun d =>
    match self.pipes d.pipe with
    | none => 0
    | some pipe => pipe.session.inbox.length).sum

end Xreq

theorem Xreq.getPipe_eq_ok {x : Xreq} {p : Nat} {pipe : Pipe (Session Arrival)}
    (h : x.getPipe p = .ok pipe) : x.pipes p = some pipe := by
  unfold Xreq.getPipe at h
  cases hp : x.pipes p with
  | none => simp [hp] at h
  | some q => simpa [hp] using h

/-- A reply begins with the ID of the request it answers, below the mark of the
bottom of the stack. -/
theorem xreqSplit_eq_some {bytes : List UInt8} {msg : Msg} (h : xreqSplit bytes = some msg) :
    bytes = msg.sphdr ++ msg.body ∧ msg.sphdr.length = 4 := by
  unfold xreqSplit at h
  split at h
  · exact absurd h (by simp)
  · obtain rfl := Option.some.inj h
    exact ⟨(List.take_append_drop 4 bytes).symm, by simp; omega⟩

theorem xreqSplit_append {word : List UInt8} (h : word.length = 4) (rest : List UInt8) :
    xreqSplit (word ++ rest) = some { sphdr := word, body := rest } := by
  unfold xreqSplit
  rw [if_neg (by rw [List.length_append]; omega), List.take_left' h, List.drop_left' h]

end GridMq.ReqRep
