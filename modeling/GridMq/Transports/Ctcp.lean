import GridMq.Library.Transition
import GridMq.Transports.ConnCycle

set_option autoImplicit false

/-!
# Connecting TCP endpoints (`src/transports/tcp/ctcp.c`, `src/transports/utils/port.c`)

The cycle of the IPC endpoints with a name that is resolved before every attempt, and a
local address that the socket is bound to.
-/

namespace GridMq.Transports

open GridMq.Aio GridMq.Library

/-! ## Ports -/

/-- `EINVAL`. -/
def portInval : Int := -22

/-- The loop of `grid_port_resolve`. -/
def portDigits (res : Int) : List UInt8 → Int
  | [] => if res = 0 then portInval else res
  | c :: port =>
      if c < 48 ∨ c > 57 then portInval
      else
        let res := res * 10 + (c.toNat - 48)
        if res > 0xffff then portInval else portDigits res port

/-- `grid_port_resolve`. -/
def portResolve (port : List UInt8) : Int := portDigits 0 port

/-- What follows the last colon of an address, found by `strrchr`. -/
def afterColon (addr : List UInt8) : Option (List UInt8) :=
  if 58 ∈ addr then some ((addr.reverse.takeWhile (· ≠ 58)).reverse) else none

/-- The port of an address, as `grid_ctcp_create` and `grid_ctcp_start_connecting` get it. -/
def addrPort (addr : List UInt8) : Int :=
  match afterColon addr with
  | none => portInval
  | some port => portResolve port

/-! ## The endpoint -/

/-- `GRID_CTCP_STATE_*`. -/
inductive CtcpState where
  | idle
  | resolving
  | stoppingDns
  /-- CONNECTING, ACTIVE, STOPPING_STCP, STOPPING_USOCK, WAITING, STOPPING_BACKOFF -/
  | cycle (state : CycleState)
  | stoppingStcpFinal
  | stopping
  deriving DecidableEq, Repr

/-- What is answered in a step: the resolver's answer and whether a lookup can be cancelled,
whether the local address resolves, whether `socket` and `bind` succeed, what `connect`
comes to, and the error of the usock. -/
structure TcpAnswers where
  resolve : Answer := .found
  cancelled : Bool := false
  iface : Bool := true
  socket : Bool := true
  bind : Bool := true
  connect : Connect := .inProgress
  errnum : Int := 0
  deriving DecidableEq, Repr

/-- `struct grid_ctcp`, with what its runs are judged by. -/
structure Ctcp where
  /-- the address string -/
  addr : List UInt8
  fsm : FsmState := .idle
  state : CtcpState := .idle
  conn : Conn
  dns : Dns := {}
  created : Bool := false
  /-- whether the usock was idle and had no descriptor, at each start of it -/
  attempts : List Bool := []
  deriving DecidableEq, Repr

namespace Ctcp

/-- `grid_dns_isidle`. -/
def dnsIsIdle (self : Ctcp) : Bool :=
  self.dns.isIdle (decide (Event.dns .stopped ∈ self.conn.events))

/-- An event of the resolver is raised. -/
def raiseDns (self : Ctcp) (r : Dns × Option DnsEvent) : Except Abort Ctcp := do
  let events ← raiseEvent? Event.item self.conn.events (r.2.map .dns)
  return { self with dns := r.1, conn := { self.conn with events := events } }

/-- `grid_ctcp_start_resolving`. -/
def startResolving (self : Ctcp) (os : TcpAnswers) : Except Abort Ctcp := do
  gridAssert (58 ∈ self.addr)
  let r ← self.dns.start (decide (Event.dns .stopped ∈ self.conn.events)) os.resolve
  let self ← self.raiseDns r
  return { self with state := .resolving }

/-- Waiting after an attempt that failed early. -/
def wait (self : Ctcp) : Except Abort Ctcp := do
  let conn ← self.conn.startRetry
  return { self with conn := conn, state := .cycle .waiting }

/-- `grid_ctcp_start_connecting`.  What was found has one of the two address families that
the resolver is asked for. -/
def startConnecting (self : Ctcp) (os : TcpAnswers) : Except Abort Ctcp :=
  if addrPort self.addr ≤ 0 then .error .errnum
  else if os.iface = false then self.wait
  else do
    let self := { self with
      attempts := self.attempts ++ [self.conn.usockIsIdle && !self.conn.usock.fd] }
    let r ← self.conn.startUsock os.socket
    let self := { self with conn := r.1 }
    if r.2 = false then self.wait
    else do
      -- the sizes of the send buffer and of the receive buffer
      self.conn.usock.setsockopt
      self.conn.usock.setsockopt
      if (← self.conn.usock.bind os.bind) = false then self.wait
      else do
        let conn ← self.conn.connect os.connect
        let conn ← conn.increment .inprogressConnections 1
        return { self with conn := conn, state := .cycle .connecting }

/-- `grid_ctcp_handler` for an event. -/
def handler (self : Ctcp) (os : TcpAnswers) (e : Event) : Except Abort Ctcp :=
  match self.state with
  | .idle => .error .badSource
  | .resolving =>
      match e with
      | .dns .done => do
          let self ← self.raiseDns (self.dns.stop os.cancelled)
          return { self with state := .stoppingDns }
      | .dns _ => .error .badAction
      | _ => .error .badSource
  | .stoppingDns =>
      match e with
      | .dns .stopped => if self.dns.result = .found then self.startConnecting os else self.wait
      | .dns _ => .error .badAction
      | _ => .error .badSource
  | .cycle state => do
      let r ← self.conn.handler os.errnum state e
      let self := { self with conn := r.1 }
      match r.2 with
      | some state => return { self with state := .cycle state }
      | none => self.startResolving os
  | .stoppingStcpFinal => .error .badState
  | .stopping => .error .badState

/-- `grid_ctcp_shutdown` in the STOPPING state. -/
def shutdownStopping (self : Ctcp) : Except Abort Ctcp :=
  if (self.conn.retryIsIdle && self.conn.usockIsIdle && self.dnsIsIdle) = true then do
    -- `grid_fsm_stopped_noevent`
    gridAssert (self.fsm = .stopping)
    return { self with state := .idle, fsm := .idle }
  else .ok self

/-- `grid_ctcp_shutdown` in the STOPPING_STCP_FINAL state. -/
def shutdownStcp (self : Ctcp) (os : TcpAnswers) : Except Abort Ctcp :=
  if self.conn.sessionIsIdle = true then do
    let conn ← self.conn.halt
    let self := { self with conn := conn }
    let self ← self.raiseDns (self.dns.stop os.cancelled)
    let self := { self with state := .stopping }
    self.shutdownStopping
  else .ok self

/-- `grid_ctcp_shutdown` for an event. -/
def shutdown (self : Ctcp) (os : TcpAnswers) : Except Abort Ctcp :=
  match self.state with
  | .stoppingStcpFinal => self.shutdownStcp os
  | .stopping => self.shutdownStopping
  | _ => .error .badState

/-- `grid_ctcp_create`, with its check of the port. -/
def create (self : Ctcp) (os : TcpAnswers) : Except Abort Ctcp :=
  if addrPort self.addr < 0 then .ok self
  else do
    gridAssert (self.fsm = .idle)
    match self.state with
    | .idle => do
        let self := { self with created := true }
        let self ← self.startResolving os
        return { self with fsm := .active }
    | _ => .error .badAction

/-- `grid_ctcp_stop`, with the STOP action of `grid_ctcp_shutdown`. -/
def stop (self : Ctcp) (os : TcpAnswers) : Except Abort Ctcp :=
  if self.fsm = .active then do
    let conn ← self.conn.dropSession
    let self := { self with fsm := .stopping, conn := conn, state := .stoppingStcpFinal }
    self.shutdownStcp os
  else .ok self

/-- The context hands the endpoint its next event. -/
def deliver (self : Ctcp) (os : TcpAnswers) : Except Abort Ctcp :=
  match self.conn.events.head? with
  | none => .ok self
  | some e =>
      let self := { self with conn := self.conn.pop }
      if self.fsm = .stopping then self.shutdown os else self.handler os e

/-! ## Steps -/

/-- What can happen. -/
inductive Label where
  | create (os : TcpAnswers)
  | stop (os : TcpAnswers)
  | deliver (os : TcpAnswers)
  /-- a lookup of the resolver comes to its end -/
  | notify (answer : Answer)
  /-- the worker and the session -/
  | conn (l : Conn.Label)
  deriving DecidableEq

/-- When it can.  Like the worker the resolver enters the context when its queue is
empty. -/
def Enabled (self : Ctcp) : Label → Prop
  | .create _ => self.created = false
  | .stop _ => self.created = true
  | .deliver _ => self.conn.events ≠ []
  | .notify answer => self.conn.events = [] ∧ self.dns.Ready answer
  | .conn l => self.conn.Enabled l

instance (self : Ctcp) (l : Label) : Decidable (self.Enabled l) :=
  match l with
  | .create _ => inferInstanceAs (Decidable (_ = _))
  | .stop _ => inferInstanceAs (Decidable (_ = _))
  | .deliver _ => inferInstanceAs (Decidable (_ ≠ _))
  | .notify _ => inferInstanceAs (Decidable (_ ∧ _))
  | .conn l => inferInstanceAs (Decidable (self.conn.Enabled l))

/-- One step. -/
def next (self : Ctcp) : Label → Except Abort Ctcp
  | .create os => self.create os
  | .stop os => self.stop os
  | .deliver os => self.deliver os
  | .notify answer => do
      let r ← self.dns.notify answer
      self.raiseDns r
  | .conn l => do
      let conn ← self.conn.next l
      return { self with conn := conn }

/-- Steps in which the functions of the endpoint run. -/
def Label.Own : Label → Prop
  | .conn _ => False
  | .notify _ => False
  | _ => True

/-- An attempt in which the local address cannot be bound to the socket. -/
def BindFails (self : Ctcp) : Label → Prop
  | .deliver os =>
      self.state = .stoppingDns ∧ self.conn.events.head? = some (.dns .stopped) ∧
        self.dns.result = .found ∧ os.iface = true ∧ os.socket = true ∧ os.bind = false
  | _ => False

instance (self : Ctcp) (l : Label) : Decidable (self.BindFails l) :=
  match l with
  | .deliver _ => inferInstanceAs (Decidable (_ ∧ _ ∧ _ ∧ _ ∧ _ ∧ _))
  | .create _ => inferInstanceAs (Decidable False)
  | .stop _ => inferInstanceAs (Decidable False)
  | .notify _ => inferInstanceAs (Decidable False)
  | .conn _ => inferInstanceAs (Decidable False)

/-- The runs of an endpoint with an address and reconnect intervals. -/
def system (addr : List UInt8) (minivl maxivl : Int) : System Ctcp Label where
  init s := s = { addr := addr, conn := { retry := { minivl := minivl, maxivl := maxivl } } }
  step s l s' := s.Enabled l ∧ s.next l = .ok s'

end Ctcp

end GridMq.Transports
