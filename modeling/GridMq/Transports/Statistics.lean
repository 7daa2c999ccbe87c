import GridMq.Library.Transition
import GridMq.Transports.Bound
import GridMq.Transports.Cipc
import GridMq.Transports.Ctcp

set_option autoImplicit false

/-!
# What the endpoints of a socket count

The handlers of all endpoints, each as far as the calls that it makes of
`grid_epbase_stat_increment`, `grid_epbase_set_error` and `grid_epbase_clear_error`.  What
the machines below an endpoint and the operating system say in a step is an argument.
-/

namespace GridMq.Transports

open GridMq.Aio GridMq.Library

/-! ## Calls -/

/-- A call of `grid_epbase_stat_increment`, `grid_epbase_set_error` or
`grid_epbase_clear_error`. -/
inductive StatCall where
  | increment (name : Stat) (n : Int)
  | setError (errnum : Int)
  | clearError
  deriving DecidableEq, Repr

namespace EpStat

/-- One call. -/
def call (self : EpStat) : StatCall → Except Abort EpStat
  | .increment name n => self.increment name n
  | .setError errnum => self.setError errnum
  | .clearError => self.clearError

/-- Several calls, one after the other. -/
def calls (self : EpStat) : List StatCall → Except Abort EpStat
  | [] => .ok self
  | c :: cs => do
      let self ← self.call c
      self.calls cs

/-- The statistics as an endpoint with some last error finds them. -/
def load (self : EpStat) (lastErrno : Int) : EpStat := { self with lastErrno := lastErrno }

end EpStat

/-- A connection attempt begins. -/
def StatCall.attempt : StatCall := .increment .inprogressConnections 1

/-- It ends. -/
def StatCall.attempted : StatCall := .increment .inprogressConnections (-1)

/-! ## Answers -/

/-- What the machines below an endpoint and the operating system say in a step. -/
structure EpAnswers where
  /-- `grid_usock_geterrno` -/
  errnum : Int := 0
  /-- `dns_result.error` is 0 -/
  resolved : Bool := true
  /-- `grid_ctcp_start_connecting`, `grid_cipc_start_connecting` come to `grid_usock_connect` -/
  connects : Bool := true
  /-- `grid_stcp_isidle`, `grid_sipc_isidle`, `grid_sinproc_isidle` -/
  sessionIdle : Bool := true
  /-- `grid_backoff_isidle`, `grid_usock_isidle`, `grid_dns_isidle` -/
  retryIdle : Bool := true
  usockIdle : Bool := true
  dnsIdle : Bool := true
  deriving DecidableEq, Repr

/-! ## Connecting over TCP and IPC -/

/-- `grid_ctcp_handler` and `grid_cipc_handler` in the states they share; `none` where the
endpoint begins anew. -/
def CycleState.handler (os : EpAnswers) :
    CycleState → Event → Except Abort (Option CycleState × List StatCall)
  | .connecting, .usock .connected =>
      .ok (some .active, [.attempted, .increment .establishedConnections 1, .clearError])
  | .connecting, .usock .error =>
      .ok (some .stoppingUsock, [.setError os.errnum, .attempted, .increment .connectErrors 1])
  | .connecting, .usock _ => .error .badAction
  | .connecting, _ => .error .badSource
  | .active, .session .error => .ok (some .stoppingSession, [.increment .brokenConnections 1])
  | .active, .session _ => .error .badAction
  | .active, _ => .error .badSource
  | .stoppingSession, .session .stopped => .ok (some .stoppingUsock, [])
  | .stoppingSession, .session _ => .error .badAction
  | .stoppingSession, _ => .error .badSource
  | .stoppingUsock, .usock .shutdown => .ok (some .stoppingUsock, [])
  | .stoppingUsock, .usock .stopped => .ok (some .waiting, [])
  | .stoppingUsock, .usock _ => .error .badAction
  | .stoppingUsock, _ => .error .badSource
  | .waiting, .retry .timeout => .ok (some .stoppingBackoff, [])
  | .waiting, .retry _ => .error .badAction
  | .waiting, _ => .error .badSource
  | .stoppingBackoff, .retry .stopped => .ok (none, [])
  | .stoppingBackoff, .retry _ => .error .badAction
  | .stoppingBackoff, _ => .error .badSource

/-- What is counted when a session is asked to stop, unless it is idle. -/
def dropCalls (os : EpAnswers) : List StatCall :=
  if os.sessionIdle = true then [] else [.increment .droppedConnections 1]

namespace CtcpState

/-- The state of `fsm`, which goes with that of the endpoint. -/
def fsm : CtcpState → FsmState
  | .idle => .idle
  | .stoppingStcpFinal => .stopping
  | .stopping => .stopping
  | _ => .active

/-- `grid_ctcp_start_connecting`. -/
def startConnecting (os : EpAnswers) : CtcpState × List StatCall :=
  if os.connects = true then (.cycle .connecting, [.attempt]) else (.cycle .waiting, [])

/-- `grid_ctcp_handler` for an event. -/
def handler (os : EpAnswers) : CtcpState → Event → Except Abort (CtcpState × List StatCall)
  | .idle, _ => .error .badSource
  | .resolving, .dns .done => .ok (.stoppingDns, [])
  | .resolving, .dns _ => .error .badAction
  | .resolving, _ => .error .badSource
  | .stoppingDns, .dns .stopped =>
      .ok (if os.resolved = true then startConnecting os else (.cycle .waiting, []))
  | .stoppingDns, .dns _ => .error .badAction
  | .stoppingDns, _ => .error .badSource
  | .cycle state, e => do
      let r ← state.handler os e
      match r.1 with
      | some state => return (.cycle state, r.2)
      | none => return (.resolving, r.2)
  | .stoppingStcpFinal, _ => .error .badState
  | .stopping, _ => .error .badState

/-- `grid_ctcp_shutdown` in the STOPPING state. -/
def shutdownStopping (os : EpAnswers) : CtcpState :=
  if (os.retryIdle && os.usockIdle && os.dnsIdle) = true then .idle else .stopping

/-- `grid_ctcp_shutdown` in the STOPPING_STCP_FINAL state. -/
def shutdownStcp (os : EpAnswers) : CtcpState :=
  if os.sessionIdle = true then shutdownStopping os else .stoppingStcpFinal

/-- `grid_ctcp_shutdown` for an event. -/
def shutdown (os : EpAnswers) : CtcpState → Except Abort CtcpState
  | .stoppingStcpFinal => .ok (shutdownStcp os)
  | .stopping => .ok (shutdownStopping os)
  | _ => .error .badState

/-- `grid_ctcp_stop`, with the STOP action of `grid_ctcp_shutdown`. -/
def stop (os : EpAnswers) (self : CtcpState) : CtcpState × List StatCall :=
  if self.fsm = .active then (shutdownStcp os, dropCalls os) else (self, [])

/-- `grid_fsm_feed`. -/
def feed (os : EpAnswers) (self : CtcpState) (e : Event) :
    Except Abort (CtcpState × List StatCall) :=
  if self.fsm = .stopping then (self.shutdown os).map fun state => (state, [])
  else self.handler os e

end CtcpState

namespace CipcState

/-- The state of `fsm`, which goes with that of the endpoint. -/
def fsm : CipcState → FsmState
  | .idle => .idle
  | .stoppingSipcFinal => .stopping
  | .stopping => .stopping
  | _ => .active

/-- `grid_cipc_start_connecting`. -/
def startConnecting (os : EpAnswers) : CipcState × List StatCall :=
  if os.connects = true then (.cycle .connecting, [.attempt]) else (.cycle .waiting, [])

/-- `grid_cipc_handler` for an event. -/
def handler (os : EpAnswers) : CipcState → Event → Except Abort (CipcState × List StatCall)
  | .idle, _ => .error .badSource
  | .cycle state, e => do
      let r ← state.handler os e
      match r.1 with
      | some state => return (.cycle state, r.2)
      | none => return ((startConnecting os).1, r.2 ++ (startConnecting os).2)
  | .stoppingSipcFinal, _ => .error .badState
  | .stopping, _ => .error .badState

/-- `grid_cipc_shutdown` in the STOPPING state. -/
def shutdownStopping (os : EpAnswers) : CipcState :=
  if (os.retryIdle && os.usockIdle) = true then .idle else .stopping

/-- `grid_cipc_shutdown` in the STOPPING_SIPC_FINAL state. -/
def shutdownSipc (os : EpAnswers) : CipcState :=
  if os.sessionIdle = true then shutdownStopping os else .stoppingSipcFinal

/-- `grid_cipc_shutdown` for an event. -/
def shutdown (os : EpAnswers) : CipcState → Except Abort CipcState
  | .stoppingSipcFinal => .ok (shutdownSipc os)
  | .stopping => .ok (shutdownStopping os)
  | _ => .error .badState

/-- `grid_cipc_stop`, with the STOP action of `grid_cipc_shutdown`. -/
def stop (os : EpAnswers) (self : CipcState) : CipcState × List StatCall :=
  if self.fsm = .active then (shutdownSipc os, dropCalls os) else (self, [])

/-- `grid_fsm_feed`. -/
def feed (os : EpAnswers) (self : CipcState) (e : Event) :
    Except Abort (CipcState × List StatCall) :=
  if self.fsm = .stopping then (self.shutdown os).map fun state => (state, [])
  else self.handler os e

end CipcState

/-! ## Connecting over inproc -/

/-- `GRID_CINPROC_STATE_*`. -/
inductive CinprocState where
  | idle | disconnected | active | stopping
  deriving DecidableEq, Repr

/-- `GRID_SINPROC_*`, the events of a session. -/
inductive SinprocEvent where
  | connect | ready | accepted | sent | received | disconnect | stopped
  deriving DecidableEq, Repr

/-- What `grid_cinproc_handler` is called with: an action of its own, an event from the
session of the peer (`GRID_SINPROC_SRC_PEER`), or one from its own session
(`GRID_CINPROC_SRC_SINPROC`). -/
inductive CinprocEvent where
  /-- `GRID_FSM_START` -/
  | start
  /-- `GRID_CINPROC_ACTION_CONNECT` -/
  | connect
  | peer (e : SinprocEvent)
  | sinproc (e : SinprocEvent)
  deriving DecidableEq, Repr

namespace CinprocState

/-- The state of `fsm`, which goes with that of the endpoint. -/
def fsm : CinprocState → FsmState
  | .idle => .idle
  | .stopping => .stopping
  | _ => .active

/-- `grid_cinproc_handler`. -/
def handler : CinprocState → CinprocEvent → Except Abort (CinprocState × List StatCall)
  | .idle, .start => .ok (.disconnected, [.attempt])
  | .idle, .connect => .error .badAction
  | .idle, _ => .error .badSource
  | .disconnected, .connect =>
      .ok (.active, [.attempted, .increment .establishedConnections 1])
  | .disconnected, .start => .error .badAction
  | .disconnected, .peer .connect =>
      .ok (.active, [.attempted, .increment .establishedConnections 1])
  | .disconnected, .peer _ => .error .badAction
  | .disconnected, .sinproc _ => .error .badSource
  | .active, .sinproc .disconnect => .ok (.disconnected, [.attempt])
  | .active, .sinproc _ => .error .badAction
  | .active, _ => .error .badSource
  | .stopping, _ => .error .badState

/-- `grid_cinproc_shutdown` in the STOPPING state. -/
def shutdownStopping (os : EpAnswers) : CinprocState :=
  if os.sessionIdle = true then .idle else .stopping

/-- `grid_cinproc_shutdown` for an event. -/
def shutdown (os : EpAnswers) : CinprocState → Except Abort CinprocState
  | .stopping => .ok (shutdownStopping os)
  | _ => .error .badState

/-- `grid_cinproc_stop`, with the STOP action of `grid_cinproc_shutdown`. -/
def stop (os : EpAnswers) (self : CinprocState) : CinprocState × List StatCall :=
  if self.fsm = .active then (shutdownStopping os, []) else (self, [])

/-- `grid_fsm_feed`. -/
def feed (os : EpAnswers) (self : CinprocState) (e : CinprocEvent) :
    Except Abort (CinprocState × List StatCall) :=
  if self.fsm = .stopping then (self.shutdown os).map fun state => (state, [])
  else self.handler e

end CinprocState

/-! ## Accepted connections -/

/-- What `grid_atcp_handler` and `grid_aipc_handler` are called with. -/
inductive AcceptedInput where
  | usock (e : UsockEvent)
  | listener (e : UsockEvent)
  | session (e : SessionEvent)
  deriving DecidableEq, Repr

namespace AcceptedState

/-- The state of `fsm`, which goes with that of the connection. -/
def fsm : AcceptedState → FsmState
  | .idle => .idle
  | .stoppingSessionFinal => .stopping
  | .stopping => .stopping
  | _ => .active

/-- `grid_atcp_handler` and `grid_aipc_handler` for an event. -/
def handler (os : EpAnswers) :
    AcceptedState → AcceptedInput → Except Abort (AcceptedState × List StatCall)
  | .idle, _ => .error .badSource
  | .accepting, .usock .accepted =>
      .ok (.active, [.clearError, .increment .acceptedConnections 1])
  | .accepting, .usock _ => .error .badAction
  | .accepting, .listener .acceptError =>
      .ok (.accepting, [.setError os.errnum, .increment .acceptErrors 1])
  | .accepting, .listener _ => .error .badAction
  | .accepting, .session _ => .error .badSource
  | .active, .session .error => .ok (.stoppingSession, [.increment .brokenConnections 1])
  | .active, .session _ => .error .badAction
  | .active, _ => .error .badSource
  | .stoppingSession, .session .stopped => .ok (.stoppingUsock, [])
  | .stoppingSession, .session _ => .error .badAction
  | .stoppingSession, _ => .error .badSource
  | .stoppingUsock, .usock .shutdown => .ok (.stoppingUsock, [])
  | .stoppingUsock, .usock .stopped => .ok (.done, [])
  | .stoppingUsock, .usock _ => .error .badAction
  | .stoppingUsock, _ => .error .badSource
  | .done, _ => .error .badState
  | .stoppingSessionFinal, _ => .error .badState
  | .stopping, _ => .error .badState

/-- `grid_atcp_shutdown` and `grid_aipc_shutdown` in the STOPPING state. -/
def shutdownStopping (os : EpAnswers) : AcceptedState :=
  if os.usockIdle = true then .idle else .stopping

/-- Both in the STOPPING_STCP_FINAL or STOPPING_SIPC_FINAL state. -/
def shutdownSession (os : EpAnswers) : AcceptedState :=
  if os.sessionIdle = true then shutdownStopping os else .stoppingSessionFinal

/-- `grid_atcp_shutdown` and `grid_aipc_shutdown` for an event; one ends with
`grid_fsm_bad_action`, the other with `grid_fsm_bad_state`. -/
def shutdown (unforeseen : Abort) (os : EpAnswers) : AcceptedState → Except Abort AcceptedState
  | .stoppingSessionFinal => .ok (shutdownSession os)
  | .stopping => .ok (shutdownStopping os)
  | _ => .error unforeseen

/-- `grid_atcp_stop` and `grid_aipc_stop`, with the STOP action of the shutdown functions. -/
def stop (os : EpAnswers) (self : AcceptedState) : AcceptedState × List StatCall :=
  if self.fsm = .active then (shutdownSession os, dropCalls os) else (self, [])

/-- `grid_fsm_feed`. -/
def feed (unforeseen : Abort) (os : EpAnswers) (self : AcceptedState) (e : AcceptedInput) :
    Except Abort (AcceptedState × List StatCall) :=
  if self.fsm = .stopping then (self.shutdown unforeseen os).map fun state => (state, [])
  else self.handler os e

end AcceptedState

/-! ## Endpoints -/

/-- The connections of an endpoint that listens. -/
abbrev Connections := Nat → Option AcceptedState

/-- The machine behind an endpoint. -/
inductive Machine where
  | ctcp (state : CtcpState)
  | cipc (state : CipcState)
  | cinproc (state : CinprocState)
  | btcp (conns : Connections)
  | bipc (conns : Connections)
  | binproc

/-- What `grid_ep_init` creates an endpoint with. -/
inductive Creation where
  /-- `grid_ctcp_create`, which starts to resolve -/
  | ctcp
  /-- `grid_cipc_create`, which starts to connect -/
  | cipc (os : EpAnswers)
  /-- `grid_cinproc_create` -/
  | cinproc
  | btcp
  | bipc
  | binproc

/-- The machine once it was started. -/
def Creation.machine : Creation → Except Abort (Machine × List StatCall)
  | .ctcp => .ok (.ctcp .resolving, [])
  | .cipc os => .ok (.cipc (CipcState.startConnecting os).1, (CipcState.startConnecting os).2)
  | .cinproc => (CinprocState.handler .idle .start).map fun r => (.cinproc r.1, r.2)
  | .btcp => .ok (.btcp fun _ => none, [])
  | .bipc => .ok (.bipc fun _ => none, [])
  | .binproc => .ok (.binproc, [])

/-- What can happen to a connection of an endpoint that listens. -/
inductive ConnStep where
  /-- `grid_btcp_start_accepting`, `grid_bipc_start_accepting` -/
  | start
  | event (e : AcceptedInput) (os : EpAnswers)
  /-- `grid_atcp_stop`, `grid_aipc_stop` -/
  | stop (os : EpAnswers)
  /-- `grid_atcp_term`, `grid_aipc_term` -/
  | term

namespace Connections

/-- When it can. -/
def Enabled (self : Connections) (i : Nat) : ConnStep → Prop
  | .start => self i = none
  | .event _ _ => self i ≠ none
  | .stop _ => self i ≠ none
  | .term => self i = some .idle

/-- The state of a connection is put in the place of the old one. -/
def set (self : Connections) (i : Nat) (r : AcceptedState × List StatCall) :
    Connections × List StatCall :=
  (Function.update self i (some r.1), r.2)

/-- One step of a connection. -/
def next (unforeseen : Abort) (self : Connections) (i : Nat) :
    ConnStep → Except Abort (Connections × List StatCall)
  | .start => .ok (self.set i (.accepting, []))
  | .event e os =>
      match self i with
      | none => .error .nullPointer
      | some c => (c.feed unforeseen os e).map (self.set i)
  | .stop os =>
      match self i with
      | none => .error .nullPointer
      | some c => .ok (self.set i (c.stop os))
  | .term => .ok (Function.update self i none, [])

end Connections

/-- What can happen to an endpoint. -/
inductive MachineStep where
  /-- an event of the usock, the session, the timer or the resolver -/
  | event (e : Event) (os : EpAnswers)
  /-- an action or an event of a connecting inproc endpoint -/
  | cinproc (e : CinprocEvent) (os : EpAnswers)
  /-- a connection of an endpoint that listens -/
  | conn (i : Nat) (l : ConnStep)
  /-- `grid_binproc_connect` -/
  | connect
  /-- `grid_ctcp_stop`, `grid_cipc_stop`, `grid_cinproc_stop` -/
  | stop (os : EpAnswers)

namespace Machine

/-- The machine is in its connecting state. -/
def Connecting : Machine → Prop
  | .ctcp state => state = .cycle .connecting
  | .cipc state => state = .cycle .connecting
  | .cinproc state => state = .disconnected
  | .btcp _ => False
  | .bipc _ => False
  | .binproc => False

instance (self : Machine) : Decidable self.Connecting :=
  match self with
  | .ctcp _ => inferInstanceAs (Decidable (_ = _))
  | .cipc _ => inferInstanceAs (Decidable (_ = _))
  | .cinproc _ => inferInstanceAs (Decidable (_ = _))
  | .btcp _ => inferInstanceAs (Decidable False)
  | .bipc _ => inferInstanceAs (Decidable False)
  | .binproc => inferInstanceAs (Decidable False)

/-- The machine has stopped, as `grid_epbase_stopped` says. -/
def Stopped : Machine → Prop
  | .ctcp state => state = .idle
  | .cipc state => state = .idle
  | .cinproc state => state = .idle
  | .btcp conns => ∀ i, conns i = none
  | .bipc conns => ∀ i, conns i = none
  | .binproc => True

/-- What can happen to which machine. -/
def Enabled : Machine → MachineStep → Prop
  | .ctcp _, .event _ _ => True
  | .ctcp _, .stop _ => True
  | .cipc _, .event _ _ => True
  | .cipc _, .stop _ => True
  | .cinproc _, .cinproc _ _ => True
  | .cinproc _, .stop _ => True
  | .btcp conns, .conn i l => conns.Enabled i l
  | .bipc conns, .conn i l => conns.Enabled i l
  | .binproc, .connect => True
  | _, _ => False

/-- One step. -/
def next : Machine → MachineStep → Except Abort (Machine × List StatCall)
  | .ctcp state, .event e os => (state.feed os e).map fun r => (.ctcp r.1, r.2)
  | .ctcp state, .stop os => .ok (.ctcp (state.stop os).1, (state.stop os).2)
  | .cipc state, .event e os => (state.feed os e).map fun r => (.cipc r.1, r.2)
  | .cipc state, .stop os => .ok (.cipc (state.stop os).1, (state.stop os).2)
  | .cinproc state, .cinproc e os => (state.feed os e).map fun r => (.cinproc r.1, r.2)
  | .cinproc state, .stop os => .ok (.cinproc (state.stop os).1, (state.stop os).2)
  | .btcp conns, .conn i l => (conns.next .badAction i l).map fun r => (.btcp r.1, r.2)
  | .bipc conns, .conn i l => (conns.next .badState i l).map fun r => (.bipc r.1, r.2)
  | .binproc, .connect => .ok (.binproc, [.increment .acceptedConnections 1])
  | _, _ => .error .badSource

end Machine

/-- `struct grid_ep`. -/
structure Endpoint where
  machine : Machine
  lastErrno : Int := 0

/-! ## Sockets -/

/-- `GRID_PIPEBASE_STATE_*`. -/
inductive PipebaseState where
  | idle | active | failed
  deriving DecidableEq, Repr

/-- `struct grid_sock` as far as its statistics go, with its endpoints until they are
terminated and the pipes of their sessions. -/
structure StatSock where
  /-- what endpoints count; its `lastErrno` is that of the endpoint that counted last -/
  statistics : EpStat := {}
  currentConnections : Int := 0
  eps : Nat → Option Endpoint := fun _ => none
  pipes : Nat → PipebaseState := fun _ => .idle

/-- How a step ends the process. -/
inductive StatFault where
  /-- a check of the endpoint's own -/
  | machine (e : Abort)
  /-- an assertion of `grid_sock_stat_increment` -/
  | counter
  deriving DecidableEq, Repr

namespace StatSock

/-- An endpoint has come to another state of its machine and makes its calls. -/
def count (self : StatSock) (i : Nat) (e : Endpoint) (r : Machine × List StatCall) :
    Except StatFault StatSock :=
  match (self.statistics.load e.lastErrno).calls r.2 with
  | .error _ => .error .counter
  | .ok st => .ok { self with
      statistics := st
      eps := Function.update self.eps i (some { machine := r.1, lastErrno := st.lastErrno }) }

/-- `grid_sock_stat_increment` of `GRID_STAT_CURRENT_CONNECTIONS`. -/
def countConnections (self : StatSock) (n : Int) : Except StatFault StatSock :=
  if (n > 0 ∨ self.currentConnections ≥ -n) ∧ n < intMax ∧ n > -intMax then
    .ok { self with currentConnections := self.currentConnections + n }
  else .error .counter

def setPipe (self : StatSock) (p : Nat) (state : PipebaseState) : StatSock :=
  { self with pipes := Function.update self.pipes p state }

/-- `grid_sock_add`, where `rc` is what the socket type returns. -/
def add (self : StatSock) (rc : Int) : Except StatFault StatSock :=
  if rc ≥ 0 then self.countConnections 1 else .ok self

/-- `grid_sock_rm`. -/
def rm (self : StatSock) : Except StatFault StatSock := self.countConnections (-1)

/-- `grid_pipebase_start`. -/
def startPipe (self : StatSock) (p : Nat) (rc : Int) : Except StatFault StatSock :=
  if self.pipes p = .idle then do
    let self ← (self.setPipe p .active).add rc
    if rc < 0 then return self.setPipe p .failed else return self
  else .error (.machine .assertion)

/-- `grid_pipebase_stop`. -/
def stopPipe (self : StatSock) (p : Nat) : Except StatFault StatSock := do
  let self ← if self.pipes p = .active then self.rm else .ok self
  return self.setPipe p .idle

/-! ## Steps -/

/-- What can happen. -/
inductive Label where
  /-- `grid_ep_init` -/
  | create (i : Nat) (c : Creation)
  | machine (i : Nat) (l : MachineStep)
  /-- `grid_ep_term` -/
  | term (i : Nat)
  | startPipe (p : Nat) (rc : Int)
  | stopPipe (p : Nat)

/-- When it can. -/
def Enabled (self : StatSock) : Label → Prop
  | .create i _ => self.eps i = none
  | .machine i l => ∃ e, self.eps i = some e ∧ e.machine.Enabled l
  | .term i => ∃ e, self.eps i = some e ∧ e.machine.Stopped
  | .startPipe p _ => self.pipes p = .idle
  | .stopPipe _ => True

/-- One step. -/
def next (self : StatSock) : Label → Except StatFault StatSock
  | .create i c =>
      match c.machine with
      | .error e => .error (.machine e)
      | .ok r => self.count i { machine := r.1 } r
  | .machine i l =>
      match self.eps i with
      | none => .ok self
      | some e =>
          match e.machine.next l with
          | .error fault => .error (.machine fault)
          | .ok r => self.count i e r
  | .term i => .ok { self with eps := Function.update self.eps i none }
  | .startPipe p rc => self.startPipe p rc
  | .stopPipe p => self.stopPipe p

/-- The runs of a socket. -/
def system : System StatSock Label where
  init s := s = {}
  step s l s' := s.Enabled l ∧ s.next l = .ok s'

end StatSock

/-! ## The calls of the endpoints

The endpoints with their machines make these calls. -/

namespace EpStat

variable {st st' : EpStat}

theorem calls_append {cs cs' : List StatCall} {st'' : EpStat} (h : st.calls cs = .ok st')
    (h' : st'.calls cs' = .ok st'') : st.calls (cs ++ cs') = .ok st'' := by
  induction cs generalizing st with
  | nil =>
      obtain rfl := Except.ok.inj h
      exact h'
  | cons c cs ih =>
      obtain ⟨st₁, hcall, hrest⟩ := bind_eq_ok_iff.mp h
      simp only [List.cons_append, calls, hcall, ok_bind]
      exact ih hrest

end EpStat

namespace Conn

variable {c c' : Conn}

/-- Counting is a call. -/
theorem increment_calls {name : Stat} {n : Int} (h : c.increment name n = .ok c') :
    c.stat.call (.increment name n) = .ok c'.stat := by
  obtain ⟨st, hst, hc⟩ := bind_eq_ok_iff.mp h
  obtain rfl := Except.ok.inj hc
  exact hst

theorem setError_calls {errnum : Int} (h : c.setError errnum = .ok c') :
    c.stat.call (.setError errnum) = .ok c'.stat := by
  obtain ⟨st, hst, hc⟩ := bind_eq_ok_iff.mp h
  obtain rfl := Except.ok.inj hc
  exact hst

theorem clearError_calls (h : c.clearError = .ok c') :
    c.stat.call .clearError = .ok c'.stat := by
  obtain ⟨st, hst, hc⟩ := bind_eq_ok_iff.mp h
  obtain rfl := Except.ok.inj hc
  exact hst

/-! The machines count nothing themselves. -/

theorem startSession_stat (h : c.startSession = .ok c') : c'.stat = c.stat := by
  obtain ⟨session, -, hc⟩ := bind_eq_ok_iff.mp h
  obtain rfl := Except.ok.inj hc
  rfl

theorem stopUsock_stat (h : c.stopUsock = .ok c') : c'.stat = c.stat := by
  obtain ⟨r, -, hr⟩ := bind_eq_ok_iff.mp h
  obtain ⟨events, -, hc⟩ := bind_eq_ok_iff.mp hr
  obtain rfl := Except.ok.inj hc
  rfl

theorem startRetry_stat (h : c.startRetry = .ok c') : c'.stat = c.stat := by
  obtain ⟨retry, -, hc⟩ := bind_eq_ok_iff.mp h
  obtain rfl := Except.ok.inj hc
  rfl

theorem stopRetry_stat (h : c.stopRetry = .ok c') : c'.stat = c.stat := by
  obtain ⟨retry, -, hc⟩ := bind_eq_ok_iff.mp h
  obtain rfl := Except.ok.inj hc
  rfl

theorem connect_stat {result : Connect} (h : c.connect result = .ok c') : c'.stat = c.stat := by
  obtain ⟨r, -, hr⟩ := bind_eq_ok_iff.mp h
  obtain ⟨events, -, hc⟩ := bind_eq_ok_iff.mp hr
  obtain rfl := Except.ok.inj hc
  rfl

theorem startUsock_stat {ok started : Bool} (h : c.startUsock ok = .ok (c', started)) :
    c'.stat = c.stat := by
  obtain ⟨r, -, hr⟩ := bind_eq_ok_iff.mp h
  cases r with
  | none =>
      obtain ⟨rfl, -⟩ := Prod.mk.inj (Except.ok.inj hr)
      rfl
  | some usock =>
      obtain ⟨rfl, -⟩ := Prod.mk.inj (Except.ok.inj hr)
      rfl

theorem halt_stat (h : c.halt = .ok c') : c'.stat = c.stat := by
  obtain ⟨c₁, hretry, husock⟩ := bind_eq_ok_iff.mp h
  exact (stopUsock_stat husock).trans (stopRetry_stat hretry)

/-- The shared handlers. -/
theorem handler_calls {errnum : Int} {state : CycleState} {e : Event}
    {r : Option CycleState} (h : c.handler errnum state e = .ok (c', r)) (os : EpAnswers)
    (herrnum : os.errnum = errnum) :
    ∃ calls, state.handler os e = .ok (r, calls) ∧ c.stat.calls calls = .ok c'.stat := by
  subst herrnum
  unfold handler at h
  split at h
  · obtain ⟨c₁, hsession, h⟩ := bind_eq_ok_iff.mp h
    obtain ⟨c₂, hfinish, h⟩ := bind_eq_ok_iff.mp h
    obtain ⟨c₃, hestablished, h⟩ := bind_eq_ok_iff.mp h
    obtain ⟨c₄, hclear, h⟩ := bind_eq_ok_iff.mp h
    obtain ⟨rfl, rfl⟩ := Prod.mk.inj (Except.ok.inj h)
    refine ⟨_, rfl, ?_⟩
    rw [startSession_stat hsession |>.symm]
    simp only [EpStat.calls, StatCall.attempted, increment_calls hfinish,
      increment_calls hestablished, clearError_calls hclear, ok_bind]
  · obtain ⟨c₁, herror, h⟩ := bind_eq_ok_iff.mp h
    obtain ⟨c₂, husock, h⟩ := bind_eq_ok_iff.mp h
    obtain ⟨c₃, hfinish, h⟩ := bind_eq_ok_iff.mp h
    obtain ⟨c₄, herrors, h⟩ := bind_eq_ok_iff.mp h
    obtain ⟨rfl, rfl⟩ := Prod.mk.inj (Except.ok.inj h)
    have hfinish := increment_calls hfinish
    rw [stopUsock_stat husock] at hfinish
    refine ⟨_, rfl, ?_⟩
    simp only [EpStat.calls, StatCall.attempted, setError_calls herror, hfinish,
      increment_calls herrors, ok_bind]
  · cases h
  · cases h
  · obtain ⟨c₁, hbroken, h⟩ := bind_eq_ok_iff.mp h
    obtain ⟨rfl, rfl⟩ := Prod.mk.inj (Except.ok.inj h)
    refine ⟨_, rfl, ?_⟩
    have hbroken := increment_calls hbroken
    simp only [stopSession] at hbroken
    simp only [EpStat.calls, hbroken, ok_bind]
  · cases h
  · cases h
  · obtain ⟨c₁, husock, h⟩ := bind_eq_ok_iff.mp h
    obtain ⟨rfl, rfl⟩ := Prod.mk.inj (Except.ok.inj h)
    exact ⟨_, rfl, congrArg Except.ok (stopUsock_stat husock).symm⟩
  · cases h
  · cases h
  · obtain ⟨rfl, rfl⟩ := Prod.mk.inj (Except.ok.inj h)
    exact ⟨_, rfl, rfl⟩
  · obtain ⟨c₁, hretry, h⟩ := bind_eq_ok_iff.mp h
    obtain ⟨rfl, rfl⟩ := Prod.mk.inj (Except.ok.inj h)
    exact ⟨_, rfl, congrArg Except.ok (startRetry_stat hretry).symm⟩
  · cases h
  · cases h
  · obtain ⟨c₁, hretry, h⟩ := bind_eq_ok_iff.mp h
    obtain ⟨rfl, rfl⟩ := Prod.mk.inj (Except.ok.inj h)
    exact ⟨_, rfl, congrArg Except.ok (stopRetry_stat hretry).symm⟩
  · cases h
  · cases h
  · obtain ⟨rfl, rfl⟩ := Prod.mk.inj (Except.ok.inj h)
    exact ⟨_, rfl, rfl⟩
  · cases h
  · cases h

/-- Dropping the session. -/
theorem dropSession_calls (h : c.dropSession = .ok c') (os : EpAnswers)
    (hidle : os.sessionIdle = c.sessionIsIdle) :
    c.stat.calls (dropCalls os) = .ok c'.stat := by
  unfold dropSession at h
  unfold dropCalls
  rw [hidle]
  split at h
  · rename_i hsession
    obtain rfl := Except.ok.inj h
    rw [if_pos hsession]
    rfl
  · rename_i hsession
    obtain ⟨c₁, hdropped, h⟩ := bind_eq_ok_iff.mp h
    obtain rfl := Except.ok.inj h
    rw [if_neg hsession]
    simp only [EpStat.calls, increment_calls hdropped, ok_bind, stopSession]

end Conn

/-- A session that is idle stays so, and another is not idle yet. -/
theorem Conn.dropSession_isIdle {c c' : Conn} (h : c.dropSession = .ok c') :
    c'.sessionIsIdle = c.sessionIsIdle := by
  unfold Conn.dropSession at h
  split at h
  · obtain rfl := Except.ok.inj h
    rfl
  · rename_i hsession
    obtain ⟨c₁, hdropped, h⟩ := bind_eq_ok_iff.mp h
    obtain ⟨st, -, hc₁⟩ := bind_eq_ok_iff.mp hdropped
    obtain rfl := Except.ok.inj hc₁
    obtain rfl := Except.ok.inj h
    simp only [Conn.stopSession, Conn.sessionIsIdle, SessionFsm.stop]
    split
    · rename_i hactive
      simp only [SessionFsm.isIdle, hactive]
      rfl
    · rfl

/-- `grid_cipc_start_connecting` makes the calls and comes to the state that
`CipcState.startConnecting` says. -/
theorem Cipc.startConnecting_calls {s s' : Cipc} {os : Answers}
    (h : s.startConnecting os = .ok s') :
    ∃ connects, ∀ a : EpAnswers, a.connects = connects →
      s'.state = (CipcState.startConnecting a).1 ∧
        s.conn.stat.calls (CipcState.startConnecting a).2 = .ok s'.conn.stat := by
  obtain ⟨⟨c₁, started⟩, hstart, h⟩ := bind_eq_ok_iff.mp h
  have hstat := Conn.startUsock_stat hstart
  cases started with
  | false =>
      simp only [if_true] at h
      obtain ⟨c₂, hretry, h⟩ := bind_eq_ok_iff.mp h
      obtain rfl := Except.ok.inj h
      refine ⟨false, fun a ha => ?_⟩
      have hwait : CipcState.startConnecting a = (.cycle .waiting, []) := by
        rw [CipcState.startConnecting, ha]
        rfl
      rw [hwait]
      exact ⟨rfl, congrArg Except.ok ((Conn.startRetry_stat hretry).trans hstat).symm⟩
  | true =>
      simp only [Bool.true_eq_false, if_false] at h
      obtain ⟨-, -, h⟩ := bind_eq_ok_iff.mp h
      obtain ⟨-, -, h⟩ := bind_eq_ok_iff.mp h
      obtain ⟨-, -, h⟩ := bind_eq_ok_iff.mp h
      obtain ⟨c₂, hconnect, h⟩ := bind_eq_ok_iff.mp h
      obtain ⟨c₃, hbegin, h⟩ := bind_eq_ok_iff.mp h
      obtain rfl := Except.ok.inj h
      have hbegin := Conn.increment_calls hbegin
      rw [Conn.connect_stat hconnect, hstat] at hbegin
      refine ⟨true, fun a ha => ?_⟩
      have hattempt : CipcState.startConnecting a = (.cycle .connecting, [.attempt]) := if_pos ha
      rw [hattempt]
      refine ⟨rfl, ?_⟩
      simp only [EpStat.calls, StatCall.attempt, hbegin, ok_bind]

/-- So does `grid_cipc_handler`. -/
theorem Cipc.handler_calls {s s' : Cipc} {os : Answers} {e : Event}
    (h : s.handler os e = .ok s') :
    ∃ a calls, s.state.handler a e = .ok (s'.state, calls) ∧
      s.conn.stat.calls calls = .ok s'.conn.stat := by
  unfold Cipc.handler at h
  split at h
  · cases h
  · rename_i state hstate
    obtain ⟨⟨c₁, r⟩, hconn, h⟩ := bind_eq_ok_iff.mp h
    cases r with
    | some next =>
        obtain rfl := Except.ok.inj h
        obtain ⟨calls, hcycle, hcalls⟩ := Conn.handler_calls hconn { errnum := os.errnum } rfl
        refine ⟨{ errnum := os.errnum }, calls, ?_, hcalls⟩
        rw [hstate]
        simp only [CipcState.handler, hcycle, ok_bind]
        rfl
    | none =>
        obtain ⟨connects, hstart⟩ := Cipc.startConnecting_calls h
        let a : EpAnswers := { errnum := os.errnum, connects := connects }
        obtain ⟨calls, hcycle, hcalls⟩ := Conn.handler_calls hconn a rfl
        obtain ⟨hnext, hmore⟩ := hstart a rfl
        refine ⟨a, _, ?_, EpStat.calls_append hcalls hmore⟩
        rw [hstate, hnext]
        simp only [CipcState.handler, hcycle, ok_bind]
        rfl
  · cases h
  · cases h

/-- And the end of a stop makes none. -/
theorem Cipc.shutdownSipc_calls {s s' : Cipc} (h : s.shutdownSipc = .ok s')
    (hstate : s.state = .stoppingSipcFinal) :
    ∃ a : EpAnswers, a.sessionIdle = s.conn.sessionIsIdle ∧
      s'.state = CipcState.shutdownSipc a ∧ s'.conn.stat = s.conn.stat := by
  unfold Cipc.shutdownSipc at h
  split at h
  · rename_i hsession
    obtain ⟨c₁, hhalt, h⟩ := bind_eq_ok_iff.mp h
    have hstat := Conn.halt_stat hhalt
    unfold Cipc.shutdownStopping at h
    dsimp only at h
    split at h
    · obtain ⟨-, -, h⟩ := bind_eq_ok_iff.mp h
      obtain rfl := Except.ok.inj h
      exact ⟨{}, hsession.symm, rfl, hstat⟩
    · obtain rfl := Except.ok.inj h
      exact ⟨{ retryIdle := false }, hsession.symm, rfl, hstat⟩
  · rename_i hsession
    obtain rfl := Except.ok.inj h
    refine ⟨{ sessionIdle := false }, ?_, hstate, rfl⟩
    exact (Bool.eq_false_of_not_eq_true hsession).symm

/-- `grid_cipc_stop` makes the calls that `CipcState.stop` says. -/
theorem Cipc.stop_calls {s s' : Cipc} (h : s.stop = .ok s') (hactive : s.fsm = .active)
    (hstate : s.state.fsm = .active) :
    ∃ a, s'.state = (s.state.stop a).1 ∧
      s.conn.stat.calls (s.state.stop a).2 = .ok s'.conn.stat := by
  rw [Cipc.stop, if_pos hactive] at h
  obtain ⟨c₁, hdrop, h⟩ := bind_eq_ok_iff.mp h
  obtain ⟨a, hidle, hnext, hstat⟩ := Cipc.shutdownSipc_calls h rfl
  have hstop : s.state.stop a = (CipcState.shutdownSipc a, dropCalls a) := if_pos hstate
  refine ⟨a, by rw [hstop, hnext], ?_⟩
  rw [hstop, hstat]
  apply Conn.dropSession_calls hdrop
  rw [hidle]
  exact Conn.dropSession_isIdle hdrop

/-! The TCP endpoints do the same with a resolver. -/

theorem Ctcp.raiseDns_stat {s s' : Ctcp} {r : Dns × Option DnsEvent}
    (h : s.raiseDns r = .ok s') : s'.conn.stat = s.conn.stat := by
  obtain ⟨events, -, h⟩ := bind_eq_ok_iff.mp h
  obtain rfl := Except.ok.inj h
  rfl

theorem Ctcp.startResolving_stat {s s' : Ctcp} {os : TcpAnswers}
    (h : s.startResolving os = .ok s') :
    s'.state = .resolving ∧ s'.conn.stat = s.conn.stat := by
  obtain ⟨-, -, h⟩ := bind_eq_ok_iff.mp h
  obtain ⟨r, -, h⟩ := bind_eq_ok_iff.mp h
  obtain ⟨s₁, hraise, h⟩ := bind_eq_ok_iff.mp h
  obtain rfl := Except.ok.inj h
  have hstat := Ctcp.raiseDns_stat hraise
  exact ⟨rfl, hstat⟩

theorem Ctcp.wait_stat {s s' : Ctcp} (h : s.wait = .ok s') :
    s'.state = .cycle .waiting ∧ s'.conn.stat = s.conn.stat := by
  obtain ⟨c, hretry, h⟩ := bind_eq_ok_iff.mp h
  obtain rfl := Except.ok.inj h
  exact ⟨rfl, Conn.startRetry_stat hretry⟩

/-- `grid_ctcp_start_connecting` makes the calls and comes to the state that
`CtcpState.startConnecting` says. -/
theorem Ctcp.startConnecting_calls {s s' : Ctcp} {os : TcpAnswers}
    (h : s.startConnecting os = .ok s') :
    ∃ a : EpAnswers, s'.state = (CtcpState.startConnecting a).1 ∧ a.resolved = true ∧
      s.conn.stat.calls (CtcpState.startConnecting a).2 = .ok s'.conn.stat := by
  have hwait : ∀ s₁ : Ctcp, s₁.conn.stat = s.conn.stat → s₁.wait = .ok s' →
      ∃ a : EpAnswers, s'.state = (CtcpState.startConnecting a).1 ∧ a.resolved = true ∧
        s.conn.stat.calls (CtcpState.startConnecting a).2 = .ok s'.conn.stat := by
    intro s₁ hsame h
    obtain ⟨hnext, hstat⟩ := Ctcp.wait_stat h
    exact ⟨{ connects := false }, hnext, rfl, congrArg Except.ok (hstat.trans hsame).symm⟩
  unfold Ctcp.startConnecting at h
  split at h
  · cases h
  · split at h
    · exact hwait s rfl h
    · obtain ⟨⟨c₁, started⟩, hstart, h⟩ := bind_eq_ok_iff.mp h
      have hstat := Conn.startUsock_stat hstart
      cases started with
      | false => exact hwait _ hstat h
      | true =>
          simp only [Bool.true_eq_false, if_false] at h
          obtain ⟨-, -, h⟩ := bind_eq_ok_iff.mp h
          obtain ⟨-, -, h⟩ := bind_eq_ok_iff.mp h
          obtain ⟨bound, -, h⟩ := bind_eq_ok_iff.mp h
          cases bound with
          | false => exact hwait _ hstat h
          | true =>
              simp only [Bool.true_eq_false, if_false] at h
              obtain ⟨c₂, hconnect, h⟩ := bind_eq_ok_iff.mp h
              obtain ⟨c₃, hbegin, h⟩ := bind_eq_ok_iff.mp h
              obtain rfl := Except.ok.inj h
              have hbegin := Conn.increment_calls hbegin
              rw [Conn.connect_stat hconnect, hstat] at hbegin
              refine ⟨{}, rfl, rfl, ?_⟩
              simp only [CtcpState.startConnecting, if_true, EpStat.calls, StatCall.attempt,
                hbegin, ok_bind]

/-- So does `grid_ctcp_handler`. -/
theorem Ctcp.handler_calls {s s' : Ctcp} {os : TcpAnswers} {e : Event}
    (h : s.handler os e = .ok s') :
    ∃ a calls, s.state.handler a e = .ok (s'.state, calls) ∧
      s.conn.stat.calls calls = .ok s'.conn.stat := by
  unfold Ctcp.handler at h
  split at h
  · cases h
  · rename_i hstate
    split at h
    · obtain ⟨s₁, hraise, h⟩ := bind_eq_ok_iff.mp h
      obtain rfl := Except.ok.inj h
      refine ⟨{}, [], by rw [hstate]; rfl, ?_⟩
      exact congrArg Except.ok (Ctcp.raiseDns_stat hraise).symm
    · cases h
    · cases h
  · rename_i hstate
    split at h
    · split at h
      · obtain ⟨a, hnext, hresolved, hcalls⟩ := Ctcp.startConnecting_calls h
        refine ⟨a, _, ?_, hcalls⟩
        rw [hstate, hnext]
        simp only [CtcpState.handler, hresolved, if_true]
      · obtain ⟨hnext, hstat⟩ := Ctcp.wait_stat h
        refine ⟨{ resolved := false }, [], ?_, congrArg Except.ok hstat.symm⟩
        rw [hstate, hnext]
        rfl
    · cases h
    · cases h
  · rename_i state hstate
    obtain ⟨⟨c₁, r⟩, hconn, h⟩ := bind_eq_ok_iff.mp h
    obtain ⟨calls, hcycle, hcalls⟩ := Conn.handler_calls hconn { errnum := os.errnum } rfl
    cases r with
    | some next =>
        obtain rfl := Except.ok.inj h
        refine ⟨{ errnum := os.errnum }, calls, ?_, hcalls⟩
        rw [hstate]
        simp only [CtcpState.handler, hcycle, ok_bind]
        rfl
    | none =>
        obtain ⟨hnext, hstat⟩ := Ctcp.startResolving_stat h
        refine ⟨{ errnum := os.errnum }, calls, ?_, by rw [hstat]; exact hcalls⟩
        rw [hstate, hnext]
        simp only [CtcpState.handler, hcycle, ok_bind]
        rfl
  · cases h
  · cases h

theorem Ctcp.shutdownStcp_calls {s s' : Ctcp} {os : TcpAnswers}
    (h : s.shutdownStcp os = .ok s') (hstate : s.state = .stoppingStcpFinal) :
    ∃ a : EpAnswers, a.sessionIdle = s.conn.sessionIsIdle ∧
      s'.state = CtcpState.shutdownStcp a ∧ s'.conn.stat = s.conn.stat := by
  unfold Ctcp.shutdownStcp at h
  split at h
  · rename_i hsession
    obtain ⟨c₁, hhalt, h⟩ := bind_eq_ok_iff.mp h
    obtain ⟨s₁, hraise, h⟩ := bind_eq_ok_iff.mp h
    have hstat := (Ctcp.raiseDns_stat hraise).trans (Conn.halt_stat hhalt)
    unfold Ctcp.shutdownStopping at h
    dsimp only at h
    split at h
    · obtain ⟨-, -, h⟩ := bind_eq_ok_iff.mp h
      obtain rfl := Except.ok.inj h
      exact ⟨{}, hsession.symm, rfl, hstat⟩
    · obtain rfl := Except.ok.inj h
      exact ⟨{ retryIdle := false }, hsession.symm, rfl, hstat⟩
  · rename_i hsession
    obtain rfl := Except.ok.inj h
    refine ⟨{ sessionIdle := false }, ?_, hstate, rfl⟩
    exact (Bool.eq_false_of_not_eq_true hsession).symm

/-- `grid_ctcp_stop` makes the calls that `CtcpState.stop` says. -/
theorem Ctcp.stop_calls {s s' : Ctcp} {os : TcpAnswers} (h : s.stop os = .ok s')
    (hactive : s.fsm = .active) (hstate : s.state.fsm = .active) :
    ∃ a, s'.state = (s.state.stop a).1 ∧
      s.conn.stat.calls (s.state.stop a).2 = .ok s'.conn.stat := by
  rw [Ctcp.stop, if_pos hactive] at h
  obtain ⟨c₁, hdrop, h⟩ := bind_eq_ok_iff.mp h
  obtain ⟨a, hidle, hnext, hstat⟩ := Ctcp.shutdownStcp_calls h rfl
  have hstop : s.state.stop a = (CtcpState.shutdownStcp a, dropCalls a) := if_pos hstate
  refine ⟨a, by rw [hstop, hnext], ?_⟩
  rw [hstop, hstat]
  apply Conn.dropSession_calls hdrop
  rw [hidle]
  exact Conn.dropSession_isIdle hdrop

end GridMq.Transports
