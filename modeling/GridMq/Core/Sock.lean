import GridMq.Aio.Ctx
import GridMq.Aio.Timer
import GridMq.Utils.Efd
import GridMq.Library.Transition

set_option autoImplicit false

/-!
# The socket and its endpoints (`src/core/sock.c`, `src/core/ep.c`)

The state machine of a socket, the machines of its endpoints, and the queue of their
context.  The transport's part of an endpoint and the socket type are seen from outside:
they are asked to stop and report that they have.
-/

namespace GridMq.Core

open GridMq.Aio GridMq.Library

/-- `GRID_SOCK_STATE_*`. -/
inductive SockState where
  | init | active | zombie | stoppingEps | stopping | fini
  deriving DecidableEq, Repr

/-- `GRID_EP_STATE_*`. -/
inductive EpState where
  | idle | active | stopping
  deriving DecidableEq, Repr

/-- `struct grid_ep`, once it was started. -/
structure Ep where
  eid : Nat
  fsm : FsmState := .active
  state : EpState := .active
  /-- the transport has called `grid_ep_stopped` -/
  reported : Bool := false
  deriving DecidableEq, Repr

/-- An event in the queue of the socket's context. -/
inductive SockEvent where
  /-- `GRID_EP_ACTION_STOPPED`, from the transport to the endpoint -/
  | epAction (eid : Nat)
  /-- `GRID_EP_STOPPED`, from the endpoint to the socket -/
  | epStopped (eid : Nat)
  /-- `GRID_PIPE_IN` or `GRID_PIPE_OUT` of a pipe of an endpoint -/
  | pipe (eid pipe : Nat) (out : Bool)
  /-- `GRID_SOCK_ACTION_STOPPED`, from the socket type -/
  | stopped
  deriving DecidableEq, Repr

/-- What was asked of the socket type's part of the socket. -/
inductive SockbaseState where
  | running | stopping | reported | destroyed
  deriving DecidableEq, Repr

/-- What of `struct grid_socktype` and its virtual functions the socket depends on. -/
structure SockKind where
  /-- `GRID_SOCKTYPE_FLAG_NOSEND` and `GRID_SOCKTYPE_FLAG_NORECV` -/
  nosend : Bool
  norecv : Bool
  /-- there is a function `stop` -/
  hasStop : Bool

/-- `struct grid_sock`.  `freed` lists the endpoints that were terminated. -/
structure Sock where
  fsm : FsmState := .idle
  state : SockState := .init
  /-- `GRID_SOCK_FLAG_IN` and `GRID_SOCK_FLAG_OUT` -/
  flagIn : Bool := false
  flagOut : Bool := false
  sndfd : Efd := {}
  rcvfd : Efd := {}
  termsem : Nat := 0
  relesem : Nat := 0
  holds : Nat := 1
  eps : List Ep := []
  sdeps : List Ep := []
  eid : Nat := 1
  sockbase : SockbaseState := .running
  /-- some thread is in the context -/
  entered : Bool := false
  events : List SockEvent := []
  freed : List Nat := []
  deriving DecidableEq, Repr

namespace Ep

/-- `grid_ep_stop`: the transport is asked to stop. -/
def stop (self : Ep) : Ep :=
  if self.fsm = .active then { self with fsm := .stopping, state := .stopping } else self

/-- `GRID_EP_ACTION_STOPPED` is fed to the endpoint.  If it returns, `GRID_EP_STOPPED` is
raised. -/
def actionStopped (self : Ep) : Except Abort Ep :=
  match self.fsm with
  | .stopping =>
      -- `grid_ep_shutdown`
      match self.state with
      | .stopping => .ok { self with state := .idle, fsm := .idle }
      | .idle => .error .badState
      | .active => .error .badState
  | _ =>
      -- `grid_ep_handler`
      match self.state with
      | .idle => .error .badAction
      | .active => .error .badSource
      | .stopping => .error .badState

end Ep

namespace Sock

/-- `grid_ctx_raise`. -/
def raise (self : Sock) (e : SockEvent) : Except Abort Sock := do
  let events ← raiseEvent id self.events e
  return { self with events := events }

/-! ## Endpoints -/

/-- `grid_sock_add_ep`, once the transport has accepted the address. -/
def addEp (self : Sock) : Sock :=
  { self with eid := self.eid + 1, eps := self.eps ++ [{ eid := self.eid }] }

/-- `grid_sock_rm_ep`; `none` for `-EINVAL`. -/
def rmEp (self : Sock) (eid : Nat) : Option Sock :=
  match self.eps.find? (·.eid = eid) with
  | none => none
  | some ep => some { self with
      eps := self.eps.eraseP (·.eid = eid), sdeps := self.sdeps ++ [ep.stop] }

/-- The endpoint with an identifier is replaced. -/
def setEp (self : Sock) (ep : Ep) : Sock :=
  { self with
    eps := self.eps.map fun ep' => if ep'.eid = ep.eid then ep else ep'
    sdeps := self.sdeps.map fun ep' => if ep'.eid = ep.eid then ep else ep' }

def findEp (self : Sock) (eid : Nat) : Option Ep :=
  (self.eps ++ self.sdeps).find? (·.eid = eid)

/-- An endpoint that has stopped is taken out of its list, terminated and freed. -/
def freeEp (self : Sock) (eid : Nat) : Except Abort Sock :=
  match self.sdeps.find? (·.eid = eid) with
  | none => .error .assertion
  | some ep => do
      -- `grid_ep_term`
      gridAssert (ep.state = .idle)
      gridAssert (ep.fsm = .idle ∧ SockEvent.epStopped eid ∉ self.events)
      return { self with
        sdeps := self.sdeps.eraseP (·.eid = eid), freed := self.freed ++ [eid] }

/-! ## The end of a socket -/

/-- The label `finish1` of `grid_sock_shutdown`. -/
def finish1 (self : Sock) : Sock :=
  { self with
    sockbase := .destroyed, state := .fini, rcvfd := self.rcvfd.term, sndfd := self.sndfd.term
    termsem := self.termsem + 1 }

/-- The label `finish2` of `grid_sock_shutdown`. -/
def finish2 (kind : SockKind) (self : Sock) : Except Abort Sock :=
  if self.sdeps ≠ [] then .ok self
  else do
    gridAssert (self.eps = [])
    let self := { self with state := .stopping }
    return if kind.hasStop then { self with sockbase := .stopping } else self.finish1

/-- `grid_sock_shutdown`, for an event of the queue. -/
def shutdown (kind : SockKind) (self : Sock) (e : SockEvent) : Except Abort Sock :=
  match self.state with
  | .stoppingEps =>
      match e with
      | .epStopped eid => do
          let self ← self.freeEp eid
          self.finish2 kind
      | .epAction _ => .ok self
      | .pipe _ _ _ => .ok self
      | .stopped => .ok self
  | .stopping => do
      gridAssert (e = .stopped)
      return self.finish1
  | .init => .error .badState
  | .active => .error .badState
  | .zombie => .error .badState
  | .fini => .error .badState

/-- `grid_sock_stop`. -/
def stop (kind : SockKind) (self : Sock) : Except Abort Sock :=
  if self.fsm = .active then do
    -- `grid_sock_shutdown` with the STOP action
    let self := { self with fsm := .stopping }
    gridAssert (self.state = .active ∨ self.state = .zombie)
    let self := { self with
      rcvfd := if kind.norecv then self.rcvfd else self.rcvfd.stop
      sndfd := if kind.nosend then self.sndfd else self.sndfd.stop }
    let self := { self with
      eps := [], sdeps := self.sdeps ++ self.eps.map Ep.stop, state := .stoppingEps }
    self.finish2 kind
  else .ok self

/-! ## The machine -/

/-- `grid_sock_action_zombify`. -/
def actionZombify (kind : SockKind) (self : Sock) : Sock :=
  { self with
    state := .zombie
    flagIn := true
    rcvfd := if self.flagIn = false ∧ kind.norecv = false then self.rcvfd.signal else self.rcvfd
    flagOut := true
    sndfd := if self.flagOut = false ∧ kind.nosend = false then self.sndfd.signal
      else self.sndfd }

/-- `grid_sock_zombify`. -/
def zombify (kind : SockKind) (self : Sock) : Except Abort Sock :=
  match self.fsm with
  | .stopping =>
      match self.state with
      | .stoppingEps => .ok self
      | .stopping => .error .assertion
      | .init => .error .badState
      | .active => .error .badState
      | .zombie => .error .badState
      | .fini => .error .badState
  | _ =>
      match self.state with
      | .init => .ok (self.actionZombify kind)
      | .active => .ok (self.actionZombify kind)
      | .zombie => .error .badState
      | .stoppingEps => .error .badState
      | .stopping => .error .badState
      | .fini => .error .badState

/-- `grid_fsm_start` at the end of `grid_sock_init`. -/
def start (self : Sock) : Except Abort Sock := do
  gridAssert (self.fsm = .idle)
  match self.state with
  | .init => return { self with state := .active, fsm := .active }
  | .active => .error .badAction
  | .zombie => .error .badState
  | .stoppingEps => .error .badState
  | .stopping => .error .badState
  | .fini => .error .badState

/-- `grid_sock_handler`, for an event of the queue.  What the socket type does with a pipe
does not matter here. -/
def handler (self : Sock) (e : SockEvent) : Except Abort Sock :=
  match self.state with
  | .init =>
      match e with
      | .stopped => .error .badAction
      | .epStopped _ => .error .badSource
      | .pipe _ _ _ => .error .badSource
      | .epAction _ => .error .badSource
  | .active =>
      match e with
      | .stopped => .error .badAction
      | .epStopped eid => self.freeEp eid
      | .pipe _ _ _ => .ok self
      | .epAction _ => .error .badAction
  | .zombie => .error .badState
  | .stoppingEps => .error .badState
  | .stopping => .error .badState
  | .fini => .error .badState

/-- An event of the queue is processed: the endpoint's machine or the socket's is fed. -/
def process (kind : SockKind) (self : Sock) (e : SockEvent) : Except Abort Sock :=
  match e with
  | .epAction eid =>
      match self.findEp eid with
      | none => .error .nullPointer
      | some ep => do
          let ep ← ep.actionStopped
          (self.setEp ep).raise (.epStopped eid)
  | e => if self.fsm = .stopping then self.shutdown kind e else self.handler e

/-- One direction of `grid_sock_onleave`: the descriptor is signalled or unsignalled as
needed. -/
def adjust (no can : Bool) (fd : Efd) (flag : Bool) : Except Abort (Efd × Bool) :=
  if no then .ok (fd, flag)
  else if can then
    if flag then .ok (fd, flag) else .ok (fd.signal, true)
  else
    if flag then do
      let fd ← fd.unsignal
      return (fd, false)
    else .ok (fd, flag)

/-- `grid_sock_onleave`, where the socket type says that it can be read from or written
to. -/
def onleave (kind : SockKind) (self : Sock) (canRecv canSend : Bool) : Except Abort Sock :=
  if self.state ≠ .active then .ok self
  else do
    let (rcvfd, flagIn) ← adjust kind.norecv canRecv self.rcvfd self.flagIn
    let (sndfd, flagOut) ← adjust kind.nosend canSend self.sndfd self.flagOut
    return { self with rcvfd := rcvfd, flagIn := flagIn, sndfd := sndfd, flagOut := flagOut }

/-- What `grid_sock_term` does once it has waited for both semaphores. -/
def term (self : Sock) : Except Abort Sock := do
  -- `grid_fsm_stopped_noevent`
  gridAssert (self.fsm = .stopping)
  let self := { self with fsm := .idle }
  -- `grid_fsm_term`
  gridAssert (SockEvent.stopped ∉ self.events)
  -- `grid_list_term`
  gridAssert (self.sdeps = [])
  gridAssert (self.eps = [])
  return self

/-! ## Holds -/

/-- `grid_sock_hold`: what it returns, where zero is success. -/
inductive HoldResult where
  | zero | eterm | ebadf
  deriving DecidableEq, Repr

def hold (self : Sock) : Sock × HoldResult :=
  match self.state with
  | .active => ({ self with holds := self.holds + 1 }, .zero)
  | .init => ({ self with holds := self.holds + 1 }, .zero)
  | .zombie => (self, .eterm)
  | .stopping => (self, .ebadf)
  | .stoppingEps => (self, .ebadf)
  | .fini => (self, .ebadf)

/-- `grid_sock_rele`. -/
def rele (self : Sock) : Sock :=
  let self := { self with holds := self.holds - 1 }
  if self.holds = 0 then { self with relesem := self.relesem + 1 } else self

end Sock

end GridMq.Core
