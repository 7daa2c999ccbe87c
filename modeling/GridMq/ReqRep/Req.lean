import GridMq.ReqRep.Xreq
import GridMq.Aio.Timer

set_option autoImplicit false

/-!
# The REQ socket (`src/protocols/reqrep/req.c`)

The state machine of a REQ socket with everything it works on: the raw socket and
its pipes, the resend timer, and the queue of events of the socket's context.

All of it runs under the lock of the context.  A user call, a task of the worker
thread or the end of a timeout enters the context when the queue of events is
empty, and `grid_ctx_leave` delivers the events one by one before it unlocks.  A
step of the model is one such call or the delivery of one event.  What a
transport has to say (a new pipe, a message, a sent message, the end of a pipe)
is an event of its own, delivered in order with the others.

A reply is read straight into `task.reply`, and messages are released by hand.
The two message slots therefore remember whether their message is still to be
released; what goes wrong with them is recorded in `misuse` and does not stop the
model, as it does not stop the code.
-/

namespace GridMq.ReqRep

open GridMq.Core GridMq.Protocols GridMq.Aio

/-- `GRID_REQ_STATE_*`. -/
inductive ReqState where
  | idle | passive | delayed | active | timedOut | cancelling | stoppingTimer | done | stopping
  deriving DecidableEq, Repr

/-- `GRID_REQ_ACTION_*`, with the START and STOP actions of every machine. -/
inductive ReqAction where
  | start | stop | in | out | sent | received | pipeRm
  deriving DecidableEq, Repr

/-- The source and the type of an event fed to the state machine. -/
inductive ReqSource where
  /-- `GRID_FSM_ACTION` -/
  | action (a : ReqAction)
  /-- `GRID_REQ_SRC_RESEND_TIMER` -/
  | resendTimer (e : TimerEvent)
  deriving DecidableEq, Repr

/-! ## Message slots -/

/-- A `struct grid_msg` inside the task. -/
inductive Slot (α : Type) where
  /-- as left by `grid_msg_init (_, 0)`: an empty message that owns nothing -/
  | blank
  /-- holds a message that is still to be released or handed over -/
  | live (m : α)
  /-- the bits of a message that was released -/
  | stale (m : α)
  deriving DecidableEq, Repr

/-- What can go wrong with a message slot. -/
inductive Misuse where
  | overwritten | terminatedTwice | readAfterTerm
  deriving DecidableEq, Repr

namespace Slot

variable {α : Type}

/-- Another message is written over the slot. -/
def put (m : α) : Slot α → Slot α × List Misuse
  | .live _ => (.live m, [.overwritten])
  | _ => (.live m, [])

/-- `grid_msg_term`. -/
def term : Slot α → Slot α × List Misuse
  | .blank => (.blank, [])
  | .live m => (.stale m, [])
  | .stale m => (.stale m, [.terminatedTwice])

/-- A look at the message. -/
def read : Slot α → List Misuse
  | .stale _ => [.readAfterTerm]
  | _ => []

def content (self : Slot α) (empty : α) : α :=
  match self with
  | .blank => empty
  | .live m => m
  | .stale m => m

def isLive : Slot α → Bool
  | .live _ => true
  | _ => false

def isStale : Slot α → Bool
  | .stale _ => true
  | _ => false

end Slot

/-- The message in `task.reply`, with the arrival it was made from. -/
structure Reply where
  msg : Msg
  arrival : Arrival
  deriving DecidableEq, Repr

/-! ## Events -/

/-- What the transport of a pipe reports. -/
inductive TransportEvent where
  /-- `grid_pipebase_start` -/
  | start (p : Nat) (sndprio rcvprio : Priority)
  /-- `grid_pipebase_stop` -/
  | stop (p : Nat)
  /-- a message that `grid_pipebase_received` is called for -/
  | received (p : Nat) (wire : List UInt8)
  /-- `grid_pipebase_sent` -/
  | sent (p : Nat)
  deriving DecidableEq

/-- An event in the queue of the socket's context. -/
inductive Event where
  | pipeIn (p : Nat)
  | pipeOut (p : Nat)
  | timer (e : TimerEvent)
  | transport (e : TransportEvent)
  /-- `GRID_SOCK_ACTION_STOPPED` -/
  | sockStopped
  deriving DecidableEq

/-- `GRID_SOCK_STATE_*` from ACTIVE on. -/
inductive SockState where
  | active | stoppingEps | stopping | fini
  deriving DecidableEq, Repr

/-- `struct grid_req`, its socket and its context.  `sends` counts the requests
of the user. -/
structure Req where
  sock : SockState := .active
  fsm : FsmState := .active
  state : ReqState := .passive
  id : Nat
  sentTo : Option Nat := none
  request : Slot Msg := .blank
  reply : Slot Reply := .blank
  timer : Timer := {}
  resendIvl : Int := 60000
  xreq : Xreq := {}
  events : List Event := []
  sends : Nat := 0
  misuse : List Misuse := []

namespace Req

/-- `grid_req_init`, from the random `lastid`. -/
def init (lastid : Nat) : Req := { id := lastid % 2 ^ 32 }

/-- `grid_fsm_raise`.  An event that is queued already fails an assertion of
`grid_queue_push`. -/
def raise (self : Req) (e : Event) : Except Abort Req := do
  gridAssert (e ∉ self.events)
  return { self with events := self.events ++ [e] }

def raiseIf (self : Req) (cond : Bool) (e : Event) : Except Abort Req :=
  if cond then self.raise e else .ok self

def stoppedActive (self : Req) : Bool := decide (.timer .stopped ∈ self.events)

/-- `grid_msg_term (&req->task.reply)`. -/
def termReply (self : Req) : Req :=
  { self with reply := self.reply.term.1, misuse := self.misuse ++ self.reply.term.2 }

/-- A message is received into `task.reply`. -/
def putReply (self : Req) (r : Reply) : Req :=
  { self with reply := (self.reply.put r).1, misuse := self.misuse ++ (self.reply.put r).2 }

/-! ## The state machine -/

/-- `grid_req_action_send`. -/
def actionSend (self : Req) (allowDelay : Bool) : Except Abort Req := do
  let self := { self with misuse := self.misuse ++ self.request.read }
  let r ← self.xreq.sendTo (self.request.content {})
  match r.2 with
  | none =>
      gridAssert (allowDelay = true)
      return { self with xreq := r.1, state := .delayed }
  | some pipe =>
      let timer ← self.timer.start self.stoppedActive self.resendIvl
      return { self with xreq := r.1, timer := timer, sentTo := some pipe, state := .active }

/-- The timer is told to stop and the request is no longer bound to a pipe. -/
def leaveActive (self : Req) (state : ReqState) : Except Abort Req := do
  let timer ← self.timer.stop
  return { self with timer := timer, sentTo := none, state := state }

/-- `grid_req_handler`. -/
def handler (self : Req) (src : ReqSource) : Except Abort Req :=
  match self.state with
  | .idle =>
      match src with
      | .action .start => .ok { self with state := .passive }
      | .action _ => .error .badAction
      | .resendTimer _ => .error .badSource
  | .passive =>
      match src with
      | .action .sent => self.actionSend true
      | .action _ => .error .badAction
      | .resendTimer _ => .error .badSource
  | .delayed =>
      match src with
      | .action .out => self.actionSend false
      | .action .sent => .ok self
      | .action _ => .error .badAction
      | .resendTimer _ => .error .badSource
  | .active =>
      match src with
      | .action .in => self.leaveActive .stoppingTimer
      | .action .sent => self.leaveActive .cancelling
      | .action .pipeRm => self.leaveActive .timedOut
      | .action _ => .error .badAction
      | .resendTimer .timeout => self.leaveActive .timedOut
      | .resendTimer _ => .error .badAction
  | .timedOut =>
      match src with
      | .resendTimer .stopped => self.actionSend true
      | .resendTimer _ => .error .badAction
      | .action .sent => .ok { self with state := .cancelling }
      | .action _ => .error .badAction
  | .cancelling =>
      match src with
      | .resendTimer .stopped => self.actionSend true
      | .resendTimer _ => .error .badAction
      | .action .sent => .ok self
      | .action _ => .error .badAction
  | .stoppingTimer =>
      match src with
      | .resendTimer .stopped => .ok { self with state := .done }
      | .resendTimer _ => .error .badAction
      | .action .sent => .ok { self with state := .cancelling }
      | .action _ => .error .badAction
  | .done =>
      match src with
      | .action .received => .ok { self with state := .passive }
      | .action .sent => self.actionSend true
      | .action _ => .error .badAction
      | .resendTimer _ => .error .badSource
  | .stopping => .error .badState

/-- `grid_req_shutdown`. -/
def shutdown (self : Req) (src : ReqSource) : Except Abort Req := do
  let self ← if src = .action .stop then do
      let timer ← self.timer.stop
      pure { self with timer := timer, state := .stopping }
    else pure self
  if self.state = .stopping then
    if self.timer.isIdle self.stoppedActive = true then
      -- `grid_fsm_stopped_noevent` and `grid_sockbase_stopped`
      gridAssert (self.fsm = .stopping)
      ({ self with state := .idle, fsm := .idle } : Req).raise .sockStopped
    else return self
  else .error .badState

/-- `grid_fsm_feed`. -/
def feed (self : Req) (src : ReqSource) : Except Abort Req :=
  if self.fsm = .stopping then self.shutdown src else self.handler src

/-- `grid_fsm_action`. -/
def action (self : Req) (a : ReqAction) : Except Abort Req := self.feed (.action a)

/-- `grid_req_stop`. -/
def stop (self : Req) : Except Abort Req :=
  if self.fsm = .active then ({ self with fsm := .stopping } : Req).shutdown (.action .stop)
  else .ok self

/-! ## The functions of the socket type -/

/-- `grid_req_inprogress`. -/
def inprogress (self : Req) : Bool :=
  !(self.state == .idle || self.state == .passive || self.state == .stopping)

/-- The request ID is trimmed from the reply. -/
def trimReply (self : Req) (r : Reply) : Req :=
  { self with reply := .live { r with msg := { r.msg with sphdr := [] } } }

/-- The part of `grid_req_in` that looks at a reply in `task.reply`.  The loop
goes on when the reply is dropped. -/
def examine (self : Req) (r : Reply) : Except Abort (Req × Bool) :=
  if !self.inprogress then .ok (self.termReply, true)
  else if r.msg.sphdr.length ≠ 4 then .ok (self.termReply, true)
  else if !topBit (getl r.msg.sphdr) then .ok (self.termReply, true)
  else if getl r.msg.sphdr ≠ setTopBit self.id then .ok (self.termReply, true)
  else do
    let self := self.trimReply r
    if self.state = .active then
      let self ← self.action .in
      return (self, false)
    else return (self, false)

/-- `grid_xreq_recv` into `task.reply`: the reply to be looked at, or `none` for
`-EAGAIN`. -/
def xreqRecv (self : Req) : Except Abort (Req × Option Reply) := do
  let r ← self.xreq.fqRecv
  let self := { self with xreq := r.1 }
  match r.2 with
  | none => return (self, none)
  | some a =>
      match xreqSplit a.wire with
      | none =>
          -- a malformed reply is terminated where it was received
          return ((self.putReply ⟨{ body := a.wire }, a⟩).termReply, none)
      | some msg => return (self.putReply ⟨msg, a⟩, some ⟨msg, a⟩)

/-- The loop of `grid_req_in`, in which every turn takes a message.  The bound is
never reached. -/
def inLoop : Nat → Req → Except Abort Req
  | 0, _ => .error .assertion
  | n + 1, self => do
      let r ← self.xreqRecv
      match r.2 with
      | none => return r.1
      | some reply =>
          let r ← r.1.examine reply
          if r.2 then inLoop n r.1 else return r.1

/-- `grid_req_in`. -/
def reqIn (self : Req) (p : Nat) : Except Abort Req := do
  let xreq ← self.xreq.xreqIn p
  inLoop (xreq.unread + 1) { self with xreq := xreq }

/-- `grid_req_out`. -/
def reqOut (self : Req) (p : Nat) : Except Abort Req := do
  let xreq ← self.xreq.xreqOut p
  let self := { self with xreq := xreq }
  if self.state = .delayed then self.action .out else return self

/-- `grid_req_rm`. -/
def reqRm (self : Req) (p : Nat) : Except Abort Req := do
  let xreq ← self.xreq.rm p
  let self := { self with xreq := xreq }
  if self.sentTo = some p then self.action .pipeRm else return self

/-- `grid_req_csend`. -/
def csend (self : Req) (body : List UInt8) : Except Abort Req := do
  let id := (self.id + 1) % 2 ^ 32
  let msg : Msg := { sphdr := putl (setTopBit id), body := body }
  let old := self.request.term
  let new := old.1.put msg
  let self := { self with
    id := id, request := new.1, misuse := self.misuse ++ old.2 ++ new.2, sends := self.sends + 1 }
  self.action .sent

/-- The outcome of a call of the user. -/
inductive Result where
  | none
  | ok
  | again
  | efsm
  /-- the message handed over by a receive -/
  | reply (r : Slot Reply)
  deriving DecidableEq, Repr

/-- `grid_req_crecv`. -/
def crecv (self : Req) : Except Abort (Req × Result) :=
  if !self.inprogress then .ok (self, .efsm)
  else if self.state ≠ .done then .ok (self, .again)
  else do
    let msg := self.reply
    let self := { self with reply := .blank, misuse := self.misuse ++ msg.read }
    let self ← self.action .received
    return (self, .reply msg)

/-- `grid_req_destroy` with `grid_req_term`. -/
def destroy (self : Req) : Except Abort Req := do
  -- `grid_timer_term`
  gridAssert (self.timer.state = .idle)
  gridAssert (.timer .timeout ∉ self.events)
  gridAssert (self.timer.tasks = [])
  gridAssert (self.timer.isIdle self.stoppedActive = true)
  let self := self.termReply
  let self := { self with
    request := self.request.term.1, misuse := self.misuse ++ self.request.term.2 }
  gridAssert (self.fsm = .idle)
  -- `grid_xreq_term`
  gridAssert ((List.range priolistSlots).all fun i => (self.xreq.fq.slots i).pipes = [])
  gridAssert ((List.range priolistSlots).all fun i => (self.xreq.lb.slots i).pipes = [])
  return self

/-! ## The socket -/

/-- What a transport reports, as far as the pipe is in a state for it.  A session
delivers a message only after the IN event of the one before.  A pipe may be
removed while events of it are in the queue; its number is not given to another
pipe before they are delivered. -/
def transportEvent (self : Req) (e : TransportEvent) : Except Abort Req :=
  match e with
  | .start p sndprio rcvprio =>
      if self.sock = .active ∧ (self.xreq.pipes p).isNone ∧ .pipeIn p ∉ self.events ∧
          .pipeOut p ∉ self.events then do
        let xreq ← self.xreq.add p sndprio.1 rcvprio.1
        ({ self with xreq := xreq } : Req).raise (.pipeOut p)
      else .ok self
  | .stop p =>
      if (self.xreq.pipes p).isSome then self.reqRm p
      else .ok self
  | .received p wire =>
      if (self.xreq.pipes p).isSome ∧ .pipeIn p ∉ self.events then do
        let r ← self.xreq.receivedMsg p ⟨wire, self.sends⟩
        ({ self with xreq := r.1 } : Req).raiseIf r.2 (.pipeIn p)
      else .ok self
  | .sent p =>
      if ((self.xreq.pipes p).map Pipe.outstate) = some .async then do
        let r ← self.xreq.sentMsg p
        ({ self with xreq := r.1 } : Req).raiseIf r.2 (.pipeOut p)
      else .ok self

/-- An event is delivered.  IN and OUT events go through the socket, which drops
them while its endpoints are being stopped. -/
def deliver (self : Req) : Event → Except Abort Req
  | .pipeIn p =>
      match self.sock with
      | .active => self.reqIn p
      | .stoppingEps => .ok self
      | .stopping => .error .assertion
      | .fini => .error .badState
  | .pipeOut p =>
      match self.sock with
      | .active => self.reqOut p
      | .stoppingEps => .ok self
      | .stopping => .error .assertion
      | .fini => .error .badState
  | .timer e => self.feed (.resendTimer e)
  | .transport e => self.transportEvent e
  | .sockStopped =>
      match self.sock with
      | .active => .error .badAction
      | .stoppingEps => .ok self
      | .stopping => do
          let self ← self.destroy
          return { self with sock := .fini }
      | .fini => .error .badState

/-- What can happen to a REQ socket. -/
inductive Label where
  /-- a transport queues a report -/
  | notify (e : TransportEvent)
  /-- the next event of the queue is delivered -/
  | deliver
  | csend (body : List UInt8)
  | crecv
  /-- `GRID_REQ_RESEND_IVL` is set -/
  | setResendIvl (ivl : Int)
  /-- the worker executes the next task of the timer -/
  | workerTask
  /-- the worker finds that the timer has expired -/
  | workerTimeout
  /-- `grid_close`: the endpoints are asked to stop -/
  | close
  /-- the last endpoint has stopped -/
  | epsStopped
  deriving DecidableEq

/-- When a step can be taken: a call of the user needs an open socket, and all
that enters the context from outside finds the queue of events empty. -/
def Enabled (self : Req) : Label → Prop
  | .notify _ => self.sock ≠ .fini
  | .deliver => self.events ≠ []
  | .csend _ => self.sock = .active ∧ self.events = []
  | .crecv => self.sock = .active ∧ self.events = []
  | .setResendIvl _ => self.sock = .active ∧ self.events = []
  | .workerTask => self.timer.tasks ≠ [] ∧ self.events = []
  | .workerTimeout => self.timer.armed = true ∧ self.events = []
  | .close => self.sock = .active ∧ self.events = []
  | .epsStopped => self.sock = .stoppingEps ∧ self.events = [] ∧
      ∀ p, self.xreq.pipes p = none

/-- The timer's events are raised in the context of the socket. -/
def raiseTimer (self : Req) (r : Timer × Option TimerEvent) : Except Abort Req :=
  match r.2 with
  | none => .ok { self with timer := r.1 }
  | some e => ({ self with timer := r.1 } : Req).raise (.timer e)

/-- One step. -/
def next (self : Req) : Label → Except Abort (Req × Result)
  | .notify e => .ok ({ self with events := self.events ++ [.transport e] }, .none)
  | .deliver =>
      match self.events with
      | [] => .ok (self, .none)
      | e :: events => do
          let self ← ({ self with events := events } : Req).deliver e
          return (self, .none)
  | .csend body => do
      let self ← self.csend body
      return (self, .ok)
  | .crecv => self.crecv
  | .setResendIvl ivl => .ok ({ self with resendIvl := ivl }, .ok)
  | .workerTask => do
      let r ← self.timer.runTask
      let self ← self.raiseTimer r
      return (self, .none)
  | .workerTimeout => do
      let r ← self.timer.expire
      let self ← self.raiseTimer r
      return (self, .none)
  | .close => .ok ({ self with sock := .stoppingEps }, .ok)
  | .epsStopped => do
      let self ← ({ self with sock := .stopping } : Req).stop
      return (self, .none)

end Req

end GridMq.ReqRep
