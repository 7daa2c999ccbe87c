import GridMq.Aio.Ctx
import GridMq.Aio.Timer
import GridMq.Aio.UsockWork
import GridMq.Library.Transition
import GridMq.Utils.Wire

set_option autoImplicit false

/-!
# The exchange of protocol headers (`src/transports/utils/streamhdr.c`)

The state machine that a TCP or IPC session runs on a usock that was just connected: the
local header is written, the header of the peer is read and checked, and a timer limits
the time.  It is followed together with its usock, its timer, the queue of its context and
the bytes on the wire in both directions.
-/

namespace GridMq.Transports

open GridMq.Aio GridMq.Library

/-- `struct grid_socktype`: the protocol of a socket, and the peers it talks to. -/
structure Socktype where
  protocol : Nat
  ispeer : Nat → Bool

/-- `grid_sock_ispeer`. -/
def Socktype.sockIspeer (self : Socktype) (socktype : Nat) : Bool :=
  if self.protocol &&& 0xfff0 ≠ socktype &&& 0xfff0 then false else self.ispeer socktype

/-- The header that a socket of a protocol sends. -/
def protocolHeader (protocol : Nat) : List UInt8 := [0, 83, 80, 0] ++ puts protocol ++ [0, 0]

/-- The check of a peer's header in the RECEIVING state. -/
def Socktype.acceptsHeader (self : Socktype) (protohdr : List UInt8) : Prop :=
  protohdr.take 4 = [0, 83, 80, 0] ∧ self.sockIspeer (gets (protohdr.drop 4)) = true

instance (self : Socktype) (protohdr : List UInt8) : Decidable (self.acceptsHeader protohdr) :=
  inferInstanceAs (Decidable (_ ∧ _))

/-- `GRID_STREAMHDR_STATE_*`. -/
inductive StreamhdrState where
  | idle | sending | receiving | stoppingTimerError | stoppingTimerDone | done | stopping
  deriving DecidableEq, Repr

/-- Whose machine the events of the usock go to. -/
inductive StreamhdrParty where
  | session | streamhdr
  deriving DecidableEq, Repr

/-- An event in the queue of the context: for this machine, from its usock or its timer, or
for the session that owns it. -/
inductive StreamhdrEvent where
  | usock (e : UsockEvent)
  | timer (e : TimerEvent)
  | ok
  | error
  | stopped
  deriving DecidableEq, Repr

/-- The `struct grid_fsm_event` behind these. -/
inductive StreamhdrItem where
  | usock (i : Usock.Item)
  | timer (e : TimerEvent)
  | done
  | stopped
  deriving DecidableEq, Repr

def StreamhdrEvent.item : StreamhdrEvent → StreamhdrItem
  | .usock e => .usock (Usock.item e)
  | .timer e => .timer e
  | .ok => .done
  | .error => .done
  | .stopped => .stopped

/-- `struct grid_streamhdr` and what is around it. -/
structure Streamhdr where
  fsm : FsmState := .idle
  state : StreamhdrState := .idle
  timer : Timer := {}
  /-- `usock` is not NULL -/
  usockSet : Bool := false
  /-- `usock_owner.fsm` -/
  usockOwner : Option StreamhdrParty := none
  protohdr : List UInt8 := List.replicate 8 0
  usock : Usock := {}
  /-- the owner that is noted in the usock -/
  owner : Option StreamhdrParty := some .session
  events : List StreamhdrEvent := []
  /-- what the peer has sent and the usock has not read -/
  wire : List UInt8 := []
  /-- all that was sent since the start -/
  written : List UInt8 := []
  /-- all that the peer has sent since the start -/
  arrived : List UInt8 := []

namespace Streamhdr

def raise (self : Streamhdr) (e : StreamhdrEvent) : Except Abort Streamhdr := do
  let events ← raiseEvent StreamhdrEvent.item self.events e
  return { self with events := events }

def raise? (self : Streamhdr) (e : Option StreamhdrEvent) : Except Abort Streamhdr := do
  let events ← raiseEvent? StreamhdrEvent.item self.events e
  return { self with events := events }

/-- `grid_usock_send` on the usock of the machine. -/
def usockSend (self : Streamhdr) (iov : List (List UInt8)) (io : Io) :
    Except Abort Streamhdr := do
  let r ← self.usock.send iov io
  ({ self with usock := r.1, written := self.written ++ r.2.1 } : Streamhdr).raise?
    (r.2.2.map .usock)

/-- `grid_usock_recv` on the usock of the machine. -/
def usockRecv (self : Streamhdr) (len : Nat) (io : Io) : Except Abort Streamhdr := do
  let r ← self.usock.recv self.wire len io
  ({ self with usock := r.1, wire := r.2.1 } : Streamhdr).raise? (r.2.2.map .usock)

/-- The timer is asked to stop and its answer is awaited in a state. -/
def stopTimer (self : Streamhdr) (state : StreamhdrState) : Except Abort Streamhdr := do
  let timer ← self.timer.stop
  return { self with timer := timer, state := state }

/-- `grid_usock_swap_owner` with `usock_owner`. -/
def swapOwner (self : Streamhdr) : Streamhdr :=
  { self with owner := self.usockOwner, usockOwner := self.owner }

/-- The usock is handed back and the result is raised. -/
def finish (self : Streamhdr) (e : StreamhdrEvent) : Except Abort Streamhdr :=
  let self := self.swapOwner
  ({ self with usockSet := false, usockOwner := none, state := .done } : Streamhdr).raise e

/-- `grid_streamhdr_handler`, for an event of the usock. -/
def usockHandler (socktype : Socktype) (self : Streamhdr) (type : UsockEvent) (io : Io) :
    Except Abort Streamhdr :=
  match self.state with
  | .idle => .error .badSource
  | .sending =>
      match type with
      | .sent => do
          let self ← self.usockRecv 8 io
          return { self with state := .receiving }
      | .shutdown => .ok self
      | .error => self.stopTimer .stoppingTimerError
      | .connected => .error .badAction
      | .accepted => .error .badAction
      | .received => .error .badAction
      | .acceptError => .error .badAction
      | .stopped => .error .badAction
  | .receiving =>
      match type with
      | .received =>
          let self := { self with protohdr := self.usock.inBuf }
          if socktype.acceptsHeader self.protohdr then self.stopTimer .stoppingTimerDone
          else self.stopTimer .stoppingTimerError
      | .shutdown => .ok self
      | .error => self.stopTimer .stoppingTimerError
      | .connected => .error .assertion
      | .accepted => .error .assertion
      | .sent => .error .assertion
      | .acceptError => .error .assertion
      | .stopped => .error .assertion
  | .stoppingTimerError => do
      gridAssert (type = .error)
      return self
  | .stoppingTimerDone => do
      gridAssert (type = .error)
      return self
  | .done => .error .badSource
  | .stopping => .error .badState

/-- `grid_streamhdr_handler`, for an event of the timer. -/
def timerHandler (self : Streamhdr) (type : TimerEvent) : Except Abort Streamhdr :=
  match self.state with
  | .idle => .error .badSource
  | .sending =>
      match type with
      | .timeout => self.stopTimer .stoppingTimerError
      | .stopped => .error .badAction
  | .receiving =>
      match type with
      | .timeout => self.stopTimer .stoppingTimerError
      | .stopped => .error .badAction
  | .stoppingTimerError =>
      match type with
      | .stopped => self.finish .error
      | .timeout => .error .badAction
  | .stoppingTimerDone =>
      match type with
      | .stopped => self.finish .ok
      | .timeout => .error .badAction
  | .done => .error .badSource
  | .stopping => .error .badState

/-- `grid_timer_isidle`. -/
def timerIsIdle (self : Streamhdr) : Bool :=
  self.timer.isIdle (decide (StreamhdrEvent.timer .stopped ∈ self.events))

/-- `grid_streamhdr_shutdown`, for an event and at the end of the STOP action. -/
def shutdown (self : Streamhdr) : Except Abort Streamhdr :=
  if self.state = .stopping then
    if self.timerIsIdle then do
      -- `grid_fsm_stopped`
      gridAssert (self.fsm = .stopping)
      let self ← ({ self with state := .idle } : Streamhdr).raise .stopped
      return { self with fsm := .idle }
    else .ok self
  else .error .badState

/-- `grid_streamhdr_stop`. -/
def stop (self : Streamhdr) : Except Abort Streamhdr :=
  if self.fsm = .active then do
    let timer ← self.timer.stop
    ({ self with fsm := .stopping, timer := timer, state := .stopping } : Streamhdr).shutdown
  else .ok self

/-- `grid_streamhdr_start` on a usock that was just connected.  `batch` is what its batch
buffer holds: a usock that is started again keeps what was left of its last connection. -/
def start (socktype : Socktype) (self : Streamhdr) (batch wire : List UInt8) (io : Io) :
    Except Abort Streamhdr := do
  gridAssert (self.usockSet = false ∧ self.usockOwner = none)
  let self := ({ self with
    usock := { Usock.connected with batch := batch }, owner := some .session,
    usockOwner := some .streamhdr, wire := wire, written := [],
    arrived := wire } : Streamhdr).swapOwner
  let self := { self with usockSet := true, protohdr := protocolHeader socktype.protocol }
  -- `grid_fsm_start`
  gridAssert (self.fsm = .idle ∧ StreamhdrEvent.stopped ∉ self.events)
  match self.state with
  | .idle => do
      let timer ← self.timer.start (decide (StreamhdrEvent.timer .stopped ∈ self.events)) 1000
      let self ← ({ self with timer := timer } : Streamhdr).usockSend [self.protohdr] io
      return { self with state := .sending, fsm := .active }
  | .stopping => .error .badState
  | _ => .error .badSource

/-! ## Steps -/

/-- What can happen to the machine. -/
inductive Label where
  /-- the session starts it on a new connection -/
  | start (batch wire : List UInt8) (io : Io)
  /-- the session stops it -/
  | stop
  /-- the next event of the queue is delivered -/
  | deliver (io : Io)
  /-- the worker has something to do for the usock -/
  | usockWork (w : Usock.Work)
  /-- the worker executes the next task of the timer -/
  | timerTask
  /-- the timeout expires -/
  | timerExpire
  /-- the peer sends -/
  | arrive (bytes : List UInt8)
  deriving DecidableEq

/-- An event is delivered.  A session whose handshake was stopped midway takes the usock. -/
def deliver (socktype : Socktype) (self : Streamhdr) (e : StreamhdrEvent) (io : Io) :
    Except Abort Streamhdr :=
  match e with
  | .usock type => if self.fsm = .stopping then self.shutdown
      else self.usockHandler socktype type io
  | .timer type => if self.fsm = .stopping then self.shutdown else self.timerHandler type
  | .ok => .ok self
  | .error => .ok self
  | .stopped => .ok { self with owner := some .session }

/-- When a step can be taken.  The worker enters the context when its queue is empty; what
it does to a usock of another owner is not this machine's business. -/
def Enabled (self : Streamhdr) : Label → Prop
  | .start _ _ _ => self.fsm = .idle ∧ self.usockSet = false ∧ self.events = []
  | .stop => True
  | .deliver _ => self.events ≠ []
  | .usockWork w => self.events = [] ∧ self.owner = some .streamhdr ∧ self.usock.Ready w
  | .timerTask => self.events = [] ∧ self.timer.tasks ≠ []
  | .timerExpire => self.events = [] ∧ self.timer.armed = true
  | .arrive _ => True

instance (self : Streamhdr) (l : Label) : Decidable (self.Enabled l) :=
  match l with
  | .start _ _ _ => inferInstanceAs (Decidable (_ ∧ _ ∧ _))
  | .stop => inferInstanceAs (Decidable True)
  | .deliver _ => inferInstanceAs (Decidable (_ ≠ _))
  | .usockWork _ => inferInstanceAs (Decidable (_ ∧ _ ∧ _))
  | .timerTask => inferInstanceAs (Decidable (_ ∧ _))
  | .timerExpire => inferInstanceAs (Decidable (_ ∧ _))
  | .arrive _ => inferInstanceAs (Decidable True)

/-- One step. -/
def next (socktype : Socktype) (self : Streamhdr) : Label → Except Abort Streamhdr
  | .start batch wire io => self.start socktype batch wire io
  | .stop => self.stop
  | .deliver io =>
      match self.events with
      | [] => .ok self
      | e :: events => ({ self with events := events } : Streamhdr).deliver socktype e io
  | .usockWork w => do
      let r ← self.usock.work self.wire w
      ({ self with
        usock := r.1, wire := r.2.1, written := self.written ++ r.2.2.1 } : Streamhdr).raise?
          (r.2.2.2.map .usock)
  | .timerTask => do
      let r ← self.timer.runTask
      ({ self with timer := r.1 } : Streamhdr).raise? (r.2.map .timer)
  | .timerExpire => do
      let r ← self.timer.expire
      ({ self with timer := r.1 } : Streamhdr).raise? (r.2.map .timer)
  | .arrive bytes =>
      .ok { self with wire := self.wire ++ bytes, arrived := self.arrived ++ bytes }

/-- The runs of the machine in a socket. -/
def system (socktype : Socktype) : System Streamhdr Label where
  init s := s = {}
  step s l s' := s.Enabled l ∧ s.next socktype l = .ok s'

/-- One step, if it can be taken and does not end the process. -/
def tryNext (socktype : Socktype) (self : Streamhdr) (l : Label) : Option Streamhdr :=
  if self.Enabled l then (self.next socktype l).toOption else none

theorem tryNext_step {socktype : Socktype} {s s' : Streamhdr} {l : Label}
    (h : s.tryNext socktype l = some s') : (system socktype).step s l s' := by
  unfold tryNext at h
  split at h
  · rename_i hen
    refine ⟨hen, ?_⟩
    cases hnext : s.next socktype l with
    | error a => simp [hnext, Except.toOption] at h
    | ok s'' => simpa [hnext, Except.toOption] using h
  · exact absurd h (by simp)

/-- An event that its state is prepared for.  While the timer is being stopped after a
failure, the usock may still come to the end of a request; and while it is being stopped
after a success, the usock may still fail. -/
def EventInOrder (state : StreamhdrState) : StreamhdrEvent → Prop
  | .usock type => (state = .stoppingTimerError → type ≠ .sent ∧ type ≠ .received) ∧
      (state = .stoppingTimerDone → type ≠ .error)
  | _ => True

instance (state : StreamhdrState) (e : StreamhdrEvent) : Decidable (EventInOrder state e) :=
  match e with
  | .usock _ => inferInstanceAs (Decidable (_ ∧ _))
  | .timer _ => inferInstanceAs (Decidable True)
  | .ok => inferInstanceAs (Decidable True)
  | .error => inferInstanceAs (Decidable True)
  | .stopped => inferInstanceAs (Decidable True)

/-- The steps that deliver such events only, and start the machine on a usock that has
nothing left in its batch buffer. -/
def Orderly (self : Streamhdr) : Label → Prop
  | .deliver _ => ∀ e ∈ self.events.head?, EventInOrder self.state e
  | .start batch _ _ => batch = []
  | _ => True

instance (self : Streamhdr) (l : Label) : Decidable (self.Orderly l) :=
  match l with
  | .deliver _ => inferInstanceAs (Decidable (∀ e ∈ self.events.head?, _))
  | .start batch _ _ => inferInstanceAs (Decidable (batch = []))
  | .stop => inferInstanceAs (Decidable True)
  | .usockWork _ => inferInstanceAs (Decidable True)
  | .timerTask => inferInstanceAs (Decidable True)
  | .timerExpire => inferInstanceAs (Decidable True)
  | .arrive _ => inferInstanceAs (Decidable True)

end Streamhdr

end GridMq.Transports
