import GridMq.Transports.SinprocRuns
import GridMq.Transports.Stcp

set_option autoImplicit false

/-!
# Events of removed pipes (`src/core/pipe.c`, `src/core/sock.c`)

`grid_pipebase_stop` has the socket type free its data about a pipe.  An IN or OUT event
of the pipe that is still queued is not taken back, and `grid_sock_handler` hands it to
the socket type like any other.
-/

namespace GridMq.Transports

open GridMq.Aio GridMq.Core GridMq.Library

/-! ## Sessions over a stream -/

/-- An event that `grid_sock_handler` gives to the socket type. -/
def StreamEvent.OfPipe (e : StreamEvent) : Prop := e = .pipeIn ∨ e = .pipeOut

instance (e : StreamEvent) : Decidable e.OfPipe := inferInstanceAs (Decidable (_ ∨ _))

namespace Session

/-- What can happen to a session that its owner may stop. -/
inductive OwnedLabel where
  | session (l : Label)
  | stop
  deriving DecidableEq

/-- The owner is stopped by a call of the user, who enters the context when its queue is
empty. -/
def OwnedEnabled (self : Session) : OwnedLabel → Prop
  | .session l => self.Enabled l
  | .stop => self.pipe.session.events = []

instance (self : Session) (l : OwnedLabel) : Decidable (self.OwnedEnabled l) :=
  match l with
  | .session l => inferInstanceAs (Decidable (self.Enabled l))
  | .stop => inferInstanceAs (Decidable (_ = _))

/-- One step.  `grid_stcp_stop` and `grid_sipc_stop` stop the pipe at once. -/
def ownedNext (fmt : WireFormat) (opt : Int) (self : Session) :
    OwnedLabel → Except Abort Session
  | .session l => self.next fmt opt l
  | .stop => .ok { self.pipeStop with failed := true }

/-- The runs of a session from the start of its pipe on. -/
def owned (fmt : WireFormat) (opt : Int) : System Session OwnedLabel where
  init s := ∃ batch wire io, start fmt batch wire io = .ok s
  step s l s' := s.OwnedEnabled l ∧ s.ownedNext fmt opt l = .ok s'

/-- When the next event is one for the socket type, the socket still has the pipe. -/
def Silent (self : Session) : Prop :=
  ∀ e rest, self.pipe.session.events = e :: rest → e.OfPipe → self.attached = true

/-- The event ends a message: it is sent, or all of it has been received. -/
def EndsMessage (fmt : WireFormat) (opt : Int) (self : Session) : UsockEvent → Prop
  | .sent => True
  | .received =>
      match self.pipe.session.instate with
      | .hdr => fmt.checkHdr opt self.pipe.session.usock.inBuf = .ok (some 0)
      | .body => True
      | .hasmsg => False
  | _ => False

/-- No event that ends a message is delivered while SHUTDOWN is waiting behind it. -/
def InTime (fmt : WireFormat) (opt : Int) (self : Session) : OwnedLabel → Prop
  | .session (.deliver _) => ∀ e rest, self.pipe.session.events = .usock e :: rest →
      self.pipe.session.state = .active → self.EndsMessage fmt opt e →
      StreamEvent.usock .shutdown ∉ rest
  | _ => True

end Session

/-! ## Sessions within the process -/

/-- The events of a pipe for the socket type. -/
inductive PipeEvent where
  | pipeIn | pipeOut
  deriving DecidableEq, Repr

/-- The event is raised when `grid_pipebase_received`, `grid_pipebase_sent` or
`grid_pipebase_start` makes a pipe idle. -/
def PipeEvent.raisedBy (before after : Pipe Unit) : List PipeEvent :=
  (if before.instate = .async ∧ after.instate = .idle then [.pipeIn] else []) ++
    (if before.outstate ≠ .idle ∧ after.outstate = .idle then [.pipeOut] else [])

/-- An inproc connection with the IN and OUT events in the queues of both contexts. -/
structure LocalPipes where
  traffic : Traffic
  events : Side → List PipeEvent := fun _ => []

namespace LocalPipes

/-- What can happen to the connection: as before, or the next event of a queue is
delivered. -/
inductive Label where
  | traffic (l : Traffic.Label)
  | deliver (x : Side)

/-- An event of another context and a call of the user come when the queue of the context
is empty; the socket type sends and receives at any time. -/
def Enabled (self : LocalPipes) : Label → Prop
  | .traffic (.send _ _) => True
  | .traffic (.recv _) => True
  | .traffic (.arrive x _ _) => self.events x = []
  | .traffic (.stop x) => self.events x = []
  | .deliver x => self.events x ≠ []

/-- One step. -/
def next (self : LocalPipes) : Label → Option LocalPipes
  | .traffic l =>
      (self.traffic.next l).map fun t =>
        { traffic := t
          events := fun y => self.events y ++
            PipeEvent.raisedBy (self.traffic.pair.pipe y) (t.pair.pipe y) }
  | .deliver x =>
      some { self with events := fun y => if y = x then (self.events y).tail else self.events y }

/-- The runs from the moment a connection has been accepted. -/
def system : System LocalPipes Label where
  init p := Traffic.system.init p.traffic ∧ p.events = fun _ => []
  step p l p' := p.Enabled l ∧ p.next l = some p'

/-- When the next event of a context is one of the pipe, the socket still has it. -/
def Silent (self : LocalPipes) : Prop :=
  ∀ x, self.events x ≠ [] → self.traffic.pair.added x = true

end LocalPipes

end GridMq.Transports
