import GridMq.Aio.Timer
import Mathlib.Data.List.Basic

set_option autoImplicit false

/-!
# Connected stream sockets (`src/aio/usock.c`)

Sending and receiving on a usock that is connected.  The operating system decides how
much one call of `sendmsg` or `recvmsg` moves and when the connection breaks; each
modelled call takes that as an argument.  Events for the owner are returned to the
caller, which raises them in its context.
-/

namespace GridMq.Aio

/-- `GRID_USOCK_STATE_*`. -/
inductive UsockState where
  | idle | starting | beingAccepted | accepted | connecting | active | removingFd | done
  | listening | accepting | cancelling | stopping | stoppingAccept | acceptingError
  deriving DecidableEq, Repr

/-- The tasks a usock has the worker execute. -/
inductive UsockTask where
  | connecting | connected | accept | send | recv | stop
  deriving DecidableEq, Repr

/-- `GRID_USOCK_*`, the events for the owner. -/
inductive UsockEvent where
  | connected | accepted | sent | received | error | acceptError | stopped | shutdown
  deriving DecidableEq, Repr

/-- What `sendmsg` or `recvmsg` comes to: bytes moved, none of them for `EAGAIN`, or the
end of the connection. -/
inductive Io where
  | bytes (n : Nat)
  | reset
  deriving DecidableEq, Repr

/-- `GRID_USOCK_BATCH_SIZE`. -/
def usockBatchSize : Nat := 2048

/-- `GRID_USOCK_MAX_IOVCNT`. -/
def usockMaxIovcnt : Nat := 3

/-- `struct grid_usock`, with its tasks in the worker's queue and what the worker polls
its descriptor for.  `batch` is the part of the batch buffer that was not taken yet,
`inBuf` what the buffer of the owner has been filled with and `inLen` what it lacks;
`out` are the pieces still to be sent. -/
structure Usock where
  fsm : FsmState := .idle
  state : UsockState := .idle
  /-- a descriptor is open: `s` is not -1 -/
  fd : Bool := false
  batch : List UInt8 := []
  inBuf : List UInt8 := []
  inLen : Nat := 0
  out : List (List UInt8) := []
  tasks : List UsockTask := []
  pollIn : Bool := false
  pollOut : Bool := false
  deriving DecidableEq, Repr

namespace Usock

/-- A usock that has been connected or accepted. -/
def connected : Usock := { fsm := .active, state := .active, fd := true }

/-- `grid_worker_execute`.  A task that is queued already fails an assertion of
`grid_queue_push`. -/
def execute (self : Usock) (task : UsockTask) : Except Abort Usock := do
  gridAssert (task ∉ self.tasks)
  return { self with tasks := self.tasks ++ [task] }

/-- `GRID_USOCK_ACTION_ERROR` in the ACTIVE state, with `grid_usock_async_stop`. -/
def actionError (self : Usock) : Except Abort (Usock × Option UsockEvent) := do
  let self ← { self with state := .removingFd }.execute .stop
  return (self, some .shutdown)

/-- The loop of `grid_usock_send_raw` that takes the bytes sent off the pieces; nothing is
left when all was sent. -/
def advance : List (List UInt8) → Nat → Except Abort (List (List UInt8))
  | [], n => if n = 0 then .ok [] else .error .nullPointer
  | iov :: rest, n =>
      if n = 0 then .ok (iov :: rest)
      else if iov.length ≤ n then
        if rest = [] then do
          gridAssert (n = iov.length)
          return []
        else advance rest (n - iov.length)
      else .ok (iov.drop n :: rest)

/-- `grid_usock_send_raw`, where `n` bytes can be sent: the bytes that leave, and whether
all of them do. -/
def sendRaw (self : Usock) (n : Nat) : Except Abort (Usock × List UInt8 × Bool) := do
  let out ← advance self.out (min n self.out.flatten.length)
  return ({ self with out := out }, self.out.flatten.take n, out.isEmpty)

/-- `grid_usock_send`: the bytes that leave at once and the event. -/
def send (self : Usock) (iov : List (List UInt8)) (io : Io) :
    Except Abort (Usock × List UInt8 × Option UsockEvent) := do
  gridAssert (self.state = .active)
  gridAssert (iov.length ≤ usockMaxIovcnt)
  let self := { self with out := iov.filter (· ≠ []) }
  match io with
  | .reset => do
      let r ← self.actionError
      return (r.1, [], r.2)
  | .bytes n => do
      let r ← self.sendRaw n
      if r.2.2 then return (r.1, r.2.1, some .sent)
      else
        let self ← r.1.execute .send
        return (self, r.2.1, none)

/-- `grid_usock_recv_raw` for `length` bytes, from the batch buffer and then, for one
`recvmsg`, from `wire`: what is left on the wire, and the bytes; `none` for
`-ECONNRESET`. -/
def recvRaw (self : Usock) (wire : List UInt8) (length : Nat) (io : Io) :
    Usock × List UInt8 × Option (List UInt8) :=
  let batched := self.batch
  let got := batched.take length
  let self := { self with batch := batched.drop length }
  let left := length - got.length
  if batched ≠ [] ∧ left = 0 then (self, wire, some got)
  else
    match io with
    | .reset => (self, wire, none)
    | .bytes n =>
        if left > usockBatchSize then
          let n := min n left
          (self, wire.drop n, some (got ++ wire.take n))
        else
          let n := min n usockBatchSize
          ({ self with batch := (wire.take n).drop left }, wire.drop n,
            some (got ++ (wire.take n).take left))

/-- `grid_usock_recv`: what is left on the wire and the event. -/
def recv (self : Usock) (wire : List UInt8) (len : Nat) (io : Io) :
    Except Abort (Usock × List UInt8 × Option UsockEvent) := do
  gridAssert (self.state = .active)
  match self.recvRaw wire len io with
  | (self, wire, none) => do
      let r ← self.actionError
      return (r.1, wire, r.2)
  | (self, wire, some got) =>
      if got.length = len then return ({ self with inBuf := got }, wire, some .received)
      else do
        let self ← { self with inBuf := got, inLen := len - got.length }.execute .recv
        return (self, wire, none)

/-- The connection is given up by the worker: the label `error` of `grid_usock_handler`. -/
def fdError (self : Usock) : Usock × Option UsockEvent :=
  ({ self with pollIn := false, pollOut := false, fd := false, state := .done }, some .error)

/-- `GRID_WORKER_FD_IN`. -/
def fdIn (self : Usock) (wire : List UInt8) (io : Io) :
    Except Abort (Usock × List UInt8 × Option UsockEvent) :=
  match self.state with
  | .active =>
      match self.recvRaw wire self.inLen io with
      | (self, wire, none) => .ok (self.fdError.1, wire, self.fdError.2)
      | (self, wire, some got) =>
          let self := { self with
            inBuf := self.inBuf ++ got, inLen := self.inLen - got.length }
          if self.inLen = 0 then .ok ({ self with pollIn := false }, wire, some .received)
          else .ok (self, wire, none)
  | .removingFd => .ok (self, wire, none)
  | _ => .error .badSource

/-- `GRID_WORKER_FD_OUT` on a connected usock. -/
def fdOut (self : Usock) (io : Io) : Except Abort (Usock × List UInt8 × Option UsockEvent) :=
  match self.state with
  | .active =>
      match io with
      | .reset => .ok (self.fdError.1, [], self.fdError.2)
      | .bytes n => do
          let r ← self.sendRaw n
          if r.2.2 then return ({ r.1 with pollOut := false }, r.2.1, some .sent)
          else return (r.1, r.2.1, none)
  | .removingFd => .ok (self, [], none)
  | _ => .error .badSource

/-- `GRID_WORKER_FD_ERR` on a connected usock. -/
def fdErr (self : Usock) : Except Abort (Usock × Option UsockEvent) :=
  match self.state with
  | .active => .ok self.fdError
  | .removingFd => .ok (self, none)
  | _ => .error .badSource

/-- The tasks of a connected usock: `grid_internal_tasks`, and the STOP task in the
REMOVING_FD state.  A handle that is added is polled for nothing at first, and the poller
does not look at what `epoll_ctl` returns where the descriptor is gone. -/
def feedTask (self : Usock) (task : UsockTask) : Except Abort (Usock × Option UsockEvent) :=
  match task with
  | .send => .ok ({ self with pollOut := self.fd }, none)
  | .recv => .ok ({ self with pollIn := self.fd }, none)
  | .connected => .ok ({ self with pollIn := false, pollOut := false }, none)
  | .connecting => .ok ({ self with pollIn := false, pollOut := self.fd }, none)
  | .accept => .ok ({ self with pollIn := self.fd, pollOut := false }, none)
  | .stop =>
      match self.state with
      | .removingFd => .ok self.fdError
      | _ => .error .badSource

/-- The worker takes the next task from its queue. -/
def runTask (self : Usock) : Except Abort (Usock × Option UsockEvent) :=
  match self.tasks with
  | [] => .ok (self, none)
  | task :: tasks => { self with tasks := tasks }.feedTask task

end Usock

end GridMq.Aio
