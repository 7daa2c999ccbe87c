import GridMq.ReqRep.Req
import GridMq.Survey.Xsurveyor

set_option autoImplicit false

/-!
# The SURVEYOR socket (`src/protocols/survey/surveyor.c`)

The state machine of an open SURVEYOR socket with what it works on: the raw socket and
its pipes, the deadline timer, and the queue of events of the socket's context.  Steps are
those of a REQ socket: a call of the user and what the worker does enter the context when
its queue is empty, and the events are delivered one by one before it is left.

The survey is tagged with an ID whose top bit is set.  Responses with another ID are
skipped by the receive, which reads every message into the one slot of its caller.
-/

namespace GridMq.Survey

open GridMq.Core GridMq.Protocols GridMq.Aio GridMq.ReqRep

/-- `GRID_SURVEYOR_STATE_*`. -/
inductive SurveyorState where
  | idle | passive | active | cancelling | stoppingTimer | stopping
  deriving DecidableEq, Repr

/-- `GRID_SURVEYOR_ACTION_*`; START is that of every machine, too. -/
inductive SurveyorAction where
  | start | cancel
  deriving DecidableEq, Repr

/-- The source and the type of an event fed to the state machine. -/
inductive SurveyorSource where
  /-- `GRID_FSM_ACTION` -/
  | action (a : SurveyorAction)
  /-- `GRID_SURVEYOR_SRC_DEADLINE_TIMER` -/
  | deadlineTimer (e : TimerEvent)
  deriving DecidableEq, Repr

/-- `struct grid_surveyor` and its context.  `taken`, `handed` and `released` record what
became of the messages that were received from pipes. -/
structure Surveyor where
  xsurveyor : Xsurveyor := {}
  state : SurveyorState := .idle
  surveyid : Nat
  timer : Timer := {}
  tosend : Msg := {}
  deadline : Int := 1000
  timedout : Bool := false
  events : List Event := []
  taken : List (List UInt8) := []
  handed : List (List UInt8) := []
  released : List (List UInt8) := []

/-- The outcome of a call of the user. -/
inductive SurveyorResult where
  | none
  | ok
  | again
  | timedout
  | efsm
  /-- the message handed over by a receive, and the response it was made from -/
  | response (wire : List UInt8) (msg : Msg)
  deriving DecidableEq

namespace Surveyor

/-- `grid_fsm_raise`.  An event that is queued already fails an assertion of
`grid_queue_push`. -/
def raise (self : Surveyor) (e : Event) : Except Abort Surveyor := do
  gridAssert (e ∉ self.events)
  return { self with events := self.events ++ [e] }

def raiseIf (self : Surveyor) (cond : Bool) (e : Event) : Except Abort Surveyor :=
  if cond then self.raise e else .ok self

def stoppedActive (self : Surveyor) : Bool := decide (.timer .stopped ∈ self.events)

/-- `grid_surveyor_inprogress`. -/
def inprogress (self : Surveyor) : Bool :=
  !(self.state == .idle || self.state == .passive || self.state == .stopping)

/-- `grid_surveyor_events`: IN, and OUT. -/
def surveyorEvents (self : Surveyor) : Bool × Bool :=
  (self.xsurveyor.events.1 || !self.inprogress, self.xsurveyor.events.2)

/-! ## The state machine -/

/-- `grid_surveyor_resend`, of a copy of the survey. -/
def resend (self : Surveyor) : Except Abort Surveyor := do
  let xsurveyor ← self.xsurveyor.send self.tosend
  return { self with xsurveyor := xsurveyor }

/-- The survey is sent and its deadline timer started. -/
def launch (self : Surveyor) : Except Abort Surveyor := do
  let self ← self.resend
  let timer ← self.timer.start self.stoppedActive self.deadline
  return { self with timer := timer, state := .active }

/-- `grid_surveyor_handler`. -/
def handler (self : Surveyor) (src : SurveyorSource) : Except Abort Surveyor :=
  match self.state with
  | .idle =>
      match src with
      | .action .start => .ok { self with state := .passive }
      | .action .cancel => .error .badAction
      | .deadlineTimer _ => .error .badSource
  | .passive =>
      match src with
      | .action .start => self.launch
      | .action .cancel => .error .badAction
      | .deadlineTimer _ => .error .badSource
  | .active =>
      match src with
      | .action .cancel => do
          let timer ← self.timer.stop
          return { self with timer := timer, state := .cancelling }
      | .action .start => .error .badAction
      | .deadlineTimer .timeout => do
          let timer ← self.timer.stop
          return { self with timer := timer, state := .stoppingTimer, timedout := true }
      | .deadlineTimer .stopped => .error .badAction
  | .cancelling =>
      match src with
      | .action .cancel => .ok self
      | .action .start => .error .badAction
      | .deadlineTimer .stopped => self.launch
      | .deadlineTimer .timeout => .error .badAction
  | .stoppingTimer =>
      match src with
      | .action .cancel => .ok { self with state := .cancelling }
      | .action .start => .error .badAction
      | .deadlineTimer .stopped => .ok { self with state := .passive }
      | .deadlineTimer .timeout => .error .badAction
  | .stopping => .error .badState

/-- `grid_surveyor_init`, from the random `surveyid`. -/
def init (surveyid : Nat) : Except Abort Surveyor :=
  ({ surveyid := surveyid % 2 ^ 32 } : Surveyor).handler (.action .start)

/-! ## The functions of the socket type -/

/-- The ID of the survey after one with this ID. -/
def nextId (surveyid : Nat) : Nat := setTopBit ((surveyid + 1) % 2 ^ 32)

/-- `grid_surveyor_send`. -/
def send (self : Surveyor) (msg : Msg) : Except Abort (Surveyor × SurveyorResult) := do
  let surveyid := nextId self.surveyid
  gridAssert (msg.sphdr.length = 0)
  let self := { self with
    surveyid := surveyid, tosend := { sphdr := putl surveyid, body := msg.body } }
  if self.inprogress then
    if !self.xsurveyor.events.2 then return (self, .again)
    let self ← self.handler (.action .cancel)
    return (self, .ok)
  else
    let self ← self.handler (.action .start)
    return (self, .ok)

/-- `grid_xsurveyor_recv` into the slot of the caller: the message, or `none` for
`-EAGAIN`. -/
def xsurveyorRecv (self : Surveyor) (slot : Slot (List UInt8)) :
    Except Abort (Surveyor × Slot (List UInt8) × Option Msg) := do
  let r ← self.xsurveyor.fqRecv
  let self := { self with xsurveyor := r.1 }
  match r.2 with
  | none => return (self, slot, none)
  | some wire =>
      let self := { self with taken := self.taken ++ [wire] }
      match xreqSplit wire with
      | none => return ({ self with released := self.released ++ [wire] }, .stale wire, none)
      | some msg => return (self, .live wire, some msg)

/-- The loop of `grid_surveyor_recv`, in which every turn takes a message.  The bound is
never reached. -/
def recvLoop : Nat → Surveyor → Slot (List UInt8) →
    Except Abort (Surveyor × Slot (List UInt8) × SurveyorResult)
  | 0, _, _ => .error .assertion
  | n + 1, self, slot => do
      let r ← self.xsurveyorRecv slot
      match r.2.2 with
      | none => return (r.1, r.2.1, .again)
      | some msg =>
          if msg.sphdr.length ≠ 4 then recvLoop n r.1 r.2.1
          else if getl msg.sphdr ≠ r.1.surveyid then recvLoop n r.1 r.2.1
          else
            let wire := msg.sphdr ++ msg.body
            return ({ r.1 with handed := r.1.handed ++ [wire] }, r.2.1,
              .response wire { msg with sphdr := [] })

/-- `grid_surveyor_recv`. -/
def recv (self : Surveyor) (slot : Slot (List UInt8)) :
    Except Abort (Surveyor × Slot (List UInt8) × SurveyorResult) :=
  if !self.inprogress then
    if self.timedout then .ok ({ self with timedout := false }, slot, .timedout)
    else .ok (self, slot, .efsm)
  else recvLoop (self.xsurveyor.unread + 1) self slot

/-! ## The socket -/

/-- What a transport reports, as far as the pipe is in a state for it.  A pipe may be
removed while events of it are in the queue; its number is not given to another pipe
before they are delivered. -/
def transportEvent (self : Surveyor) (e : TransportEvent) : Except Abort Surveyor :=
  match e with
  | .start p sndprio rcvprio =>
      if (self.xsurveyor.pipes p).isNone ∧ .pipeIn p ∉ self.events ∧
          .pipeOut p ∉ self.events then do
        let xsurveyor ← self.xsurveyor.add p sndprio.1 rcvprio.1
        ({ self with xsurveyor := xsurveyor } : Surveyor).raise (.pipeOut p)
      else .ok self
  | .stop p =>
      if (self.xsurveyor.pipes p).isSome then do
        let xsurveyor ← self.xsurveyor.rm p
        return { self with xsurveyor := xsurveyor }
      else .ok self
  | .received p wire =>
      if (self.xsurveyor.pipes p).isSome then do
        let r ← self.xsurveyor.receivedMsg p wire
        ({ self with xsurveyor := r.1 } : Surveyor).raiseIf r.2 (.pipeIn p)
      else .ok self
  | .sent p =>
      if ((self.xsurveyor.pipes p).map Pipe.outstate) = some .async then do
        let r ← self.xsurveyor.sentMsg p
        ({ self with xsurveyor := r.1 } : Surveyor).raiseIf r.2 (.pipeOut p)
      else .ok self

/-- An event is delivered. -/
def deliver (self : Surveyor) : Event → Except Abort Surveyor
  | .pipeIn p => do
      let xsurveyor ← self.xsurveyor.xsurveyorIn p
      return { self with xsurveyor := xsurveyor }
  | .pipeOut p => do
      let xsurveyor ← self.xsurveyor.xsurveyorOut p
      return { self with xsurveyor := xsurveyor }
  | .timer e => self.handler (.deadlineTimer e)
  | .transport e => self.transportEvent e
  | .sockStopped => .error .badAction

/-- What can happen to a SURVEYOR socket. -/
inductive Label where
  /-- a transport queues a report -/
  | notify (e : TransportEvent)
  /-- the next event of the queue is delivered -/
  | deliver
  | send (msg : Msg)
  /-- the receive is called with the caller's slot -/
  | recv (slot : Slot (List UInt8))
  /-- `GRID_SURVEYOR_DEADLINE` is set -/
  | setDeadline (deadline : Int)
  /-- the worker executes the next task of the timer -/
  | workerTask
  /-- the worker finds that the timer has expired -/
  | workerTimeout
  deriving DecidableEq

/-- When a step can be taken: all that enters the context from outside finds the queue of
events empty. -/
def Enabled (self : Surveyor) : Label → Prop
  | .notify _ => True
  | .deliver => self.events ≠ []
  | .send _ => self.events = []
  | .recv _ => self.events = []
  | .setDeadline _ => self.events = []
  | .workerTask => self.timer.tasks ≠ [] ∧ self.events = []
  | .workerTimeout => self.timer.armed = true ∧ self.events = []

/-- The timer's events are raised in the context of the socket. -/
def raiseTimer (self : Surveyor) (r : Timer × Option TimerEvent) : Except Abort Surveyor :=
  match r.2 with
  | none => .ok { self with timer := r.1 }
  | some e => ({ self with timer := r.1 } : Surveyor).raise (.timer e)

/-- One step. -/
def next (self : Surveyor) : Label → Except Abort (Surveyor × SurveyorResult)
  | .notify e => .ok ({ self with events := self.events ++ [.transport e] }, .none)
  | .deliver =>
      match self.events with
      | [] => .ok (self, .none)
      | e :: events => do
          let self ← ({ self with events := events } : Surveyor).deliver e
          return (self, .none)
  | .send msg => self.send msg
  | .recv slot => do
      let r ← self.recv slot
      return (r.1, r.2.2)
  | .setDeadline deadline => .ok ({ self with deadline := deadline }, .ok)
  | .workerTask => do
      let r ← self.timer.runTask
      let self ← self.raiseTimer r
      return (self, .none)
  | .workerTimeout => do
      let r ← self.timer.expire
      let self ← self.raiseTimer r
      return (self, .none)

end Surveyor

end GridMq.Survey
