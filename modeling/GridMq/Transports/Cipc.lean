import GridMq.Library.Transition
import GridMq.Transports.ConnCycle

set_option autoImplicit false

/-!
# Connecting IPC endpoints (`src/transports/ipc/cipc.c`)

The endpoint as a machine whose steps are its creation, its stop, the events it is handed
and what its worker and its session do.
-/

namespace GridMq.Transports

open GridMq.Aio GridMq.Library

/-- `sizeof (un->sun_path)`. -/
def sunPathSize : Nat := 108

/-- `GRID_CIPC_STATE_*`. -/
inductive CipcState where
  | idle
  /-- CONNECTING, ACTIVE, STOPPING_SIPC, STOPPING_USOCK, WAITING, STOPPING_BACKOFF -/
  | cycle (state : CycleState)
  | stoppingSipcFinal
  | stopping
  deriving DecidableEq, Repr

/-- What the operating system answers in a step: whether `socket` gives a descriptor, what
`connect` comes to, and the error of the usock. -/
structure Answers where
  socket : Bool := true
  connect : Connect := .inProgress
  errnum : Int := 0
  deriving DecidableEq, Repr

/-- `struct grid_cipc`, with what its runs are judged by. -/
structure Cipc where
  /-- the address string -/
  addr : List UInt8
  fsm : FsmState := .idle
  state : CipcState := .idle
  conn : Conn
  created : Bool := false
  /-- whether usock, session and timer were idle when each attempt began -/
  attempts : List Bool := []
  /-- calls of `grid_epbase_stopped` -/
  reports : Nat := 0
  deriving DecidableEq, Repr

namespace Cipc

/-- `grid_cipc_start_connecting`. -/
def startConnecting (self : Cipc) (os : Answers) : Except Abort Cipc := do
  let self := { self with attempts := self.attempts ++ [self.conn.allIdle] }
  let r ← self.conn.startUsock os.socket
  if r.2 = false then do
    let conn ← r.1.startRetry
    return { self with conn := conn, state := .cycle .waiting }
  else do
    -- the sizes of the send buffer and of the receive buffer
    r.1.usock.setsockopt
    r.1.usock.setsockopt
    gridAssert (self.addr.length < sunPathSize)
    let conn ← r.1.connect os.connect
    let conn ← conn.increment .inprogressConnections 1
    return { self with conn := conn, state := .cycle .connecting }

/-- `grid_cipc_handler` for an event. -/
def handler (self : Cipc) (os : Answers) (e : Event) : Except Abort Cipc :=
  match self.state with
  | .idle => .error .badSource
  | .cycle state => do
      let r ← self.conn.handler os.errnum state e
      let self := { self with conn := r.1 }
      match r.2 with
      | some state => return { self with state := .cycle state }
      | none => self.startConnecting os
  | .stoppingSipcFinal => .error .badState
  | .stopping => .error .badState

/-- `grid_cipc_shutdown` in the STOPPING state. -/
def shutdownStopping (self : Cipc) : Except Abort Cipc :=
  if (self.conn.retryIsIdle && self.conn.usockIsIdle) = true then do
    -- `grid_fsm_stopped_noevent`
    gridAssert (self.fsm = .stopping)
    return { self with state := .idle, fsm := .idle, reports := self.reports + 1 }
  else .ok self

/-- `grid_cipc_shutdown` in the STOPPING_SIPC_FINAL state. -/
def shutdownSipc (self : Cipc) : Except Abort Cipc :=
  if self.conn.sessionIsIdle = true then do
    let conn ← self.conn.halt
    let self := { self with conn := conn, state := .stopping }
    self.shutdownStopping
  else .ok self

/-- `grid_cipc_shutdown` for an event. -/
def shutdown (self : Cipc) : Except Abort Cipc :=
  match self.state with
  | .stoppingSipcFinal => self.shutdownSipc
  | .stopping => self.shutdownStopping
  | _ => .error .badState

/-- `grid_cipc_create`, from the start of the machine. -/
def create (self : Cipc) (os : Answers) : Except Abort Cipc := do
  gridAssert (self.fsm = .idle)
  match self.state with
  | .idle => do
      let self := { self with created := true }
      let self ← self.startConnecting os
      return { self with fsm := .active }
  | _ => .error .badAction

/-- `grid_cipc_stop`, with the STOP action of `grid_cipc_shutdown`. -/
def stop (self : Cipc) : Except Abort Cipc :=
  if self.fsm = .active then do
    let conn ← self.conn.dropSession
    let self := { self with fsm := .stopping, conn := conn, state := .stoppingSipcFinal }
    self.shutdownSipc
  else .ok self

/-- The context hands the endpoint its next event. -/
def deliver (self : Cipc) (os : Answers) : Except Abort Cipc :=
  match self.conn.events.head? with
  | none => .ok self
  | some e =>
      let self := { self with conn := self.conn.pop }
      if self.fsm = .stopping then self.shutdown else self.handler os e

/-! ## Steps -/

/-- What can happen. -/
inductive Label where
  | create (os : Answers)
  | stop
  | deliver (os : Answers)
  /-- the worker and the session -/
  | conn (l : Conn.Label)
  deriving DecidableEq

/-- When it can. -/
def Enabled (self : Cipc) : Label → Prop
  | .create _ => self.created = false
  | .stop => self.created = true
  | .deliver _ => self.conn.events ≠ []
  | .conn l => self.conn.Enabled l

/-- One step. -/
def next (self : Cipc) : Label → Except Abort Cipc
  | .create os => self.create os
  | .stop => self.stop
  | .deliver os => self.deliver os
  | .conn l => do
      let conn ← self.conn.next l
      return { self with conn := conn }

/-- The runs of an endpoint with an address and reconnect intervals. -/
def system (addr : List UInt8) (minivl maxivl : Int) : System Cipc Label where
  init s := s = { addr := addr, conn := { retry := { minivl := minivl, maxivl := maxivl } } }
  step s l s' := s.Enabled l ∧ s.next l = .ok s'

/-- Steps in which the functions of the endpoint run. -/
def Label.Own : Label → Prop
  | .conn _ => False
  | _ => True

/-- Steps that an endpoint which was stopped still has to see. -/
def Label.Pending : Label → Prop
  | .deliver _ => True
  | .conn l => l.Pending
  | _ => False

end Cipc

end GridMq.Transports
