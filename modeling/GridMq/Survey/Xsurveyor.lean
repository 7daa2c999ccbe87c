import GridMq.Protocols.Dist
import GridMq.ReqRep.Xreq
import Mathlib.Algebra.BigOperators.Group.Finset.Basic

set_option autoImplicit false

/-!
# The raw SURVEYOR socket (`src/protocols/survey/xsurveyor.c`)

A survey goes to every respondent that is ready; responses come in through the fair
queue and are split as in `xreq.c`.
-/

namespace GridMq.Survey

open GridMq.Core GridMq.Protocols GridMq.ReqRep

/-- `struct grid_xsurveyor`, with the pipes attached to it. -/
structure Xsurveyor where
  pipes : Nat → Option (Pipe (Session (List UInt8))) := fun _ => none
  outpipes : Dist := {}
  inpipes : Priolist := .init

namespace Xsurveyor

/-- A pipe that is followed has to be attached. -/
def getPipe (self : Xsurveyor) (p : Nat) : Except Abort (Pipe (Session (List UInt8))) :=
  match self.pipes p with
  | none => .error .nullPointer
  | some pipe => .ok pipe

def setPipe (self : Xsurveyor) (p : Nat) (pipe : Option (Pipe (Session (List UInt8)))) :
    Xsurveyor :=
  { self with pipes := fun q => if q = p then pipe else self.pipes q }

/-- `grid_pipebase_start` with `grid_xsurveyor_add`. -/
def add (self : Xsurveyor) (p sndprio rcvprio : Nat) : Except Abort Xsurveyor := do
  gridAssert (1 ≤ rcvprio ∧ rcvprio ≤ 16)
  return self.setPipe p (some (Pipe.start
    { sndprio := sndprio, rcvprio := rcvprio, session := {} }))

/-- `grid_pipebase_stop` with `grid_xsurveyor_rm`. -/
def rm (self : Xsurveyor) (p : Nat) : Except Abort Xsurveyor := do
  let pipe ← self.getPipe p
  return { self.setPipe p none with
    inpipes := self.inpipes.rm ⟨p, pipe.rcvprio⟩
    outpipes := self.outpipes.rm p }

/-- `grid_xsurveyor_in`. -/
def xsurveyorIn (self : Xsurveyor) (p : Nat) : Except Abort Xsurveyor := do
  let pipe ← self.getPipe p
  let inpipes ← self.inpipes.activate ⟨p, pipe.rcvprio⟩
  return { self with inpipes := inpipes }

/-- `grid_xsurveyor_out`. -/
def xsurveyorOut (self : Xsurveyor) (p : Nat) : Except Abort Xsurveyor := do
  let _ ← self.getPipe p
  let outpipes ← self.outpipes.out p
  return { self with outpipes := outpipes }

/-- `grid_xsurveyor_events`: IN, and OUT. -/
def events (self : Xsurveyor) : Bool × Bool := (self.inpipes.isActive, true)

/-- `grid_pipe_send`, of a copy of the message. -/
def pipeSend (msg : Msg) (self : Xsurveyor) (p : Nat) : Except Abort (Xsurveyor × Bool) := do
  let pipe ← self.getPipe p
  let r ← pipe.send sessionVfptr msg
  return (self.setPipe p (some r.1), r.2)

/-- `grid_xsurveyor_send`. -/
def send (self : Xsurveyor) (msg : Msg) : Except Abort Xsurveyor := do
  let r ← self.outpipes.send (pipeSend msg) none self
  return { r.2 with outpipes := r.1 }

/-- `grid_fq_recv`; `none` is `-EAGAIN`. -/
def fqRecv (self : Xsurveyor) : Except Abort (Xsurveyor × Option (List UInt8)) := do
  match ← self.inpipes.getpipe with
  | none => return (self, none)
  | some d =>
      let pipe ← self.getPipe d.pipe
      let r ← pipe.recv sessionVfptr
      let inpipes ← self.inpipes.advance r.2.2
      return ({ self.setPipe d.pipe (some r.1) with inpipes := inpipes }, some r.2.1)

/-- `grid_xsurveyor_recv`; `none` is `-EAGAIN`. -/
def recv (self : Xsurveyor) : Except Abort (Xsurveyor × Option Msg) := do
  let r ← self.fqRecv
  match r.2 with
  | none => return (r.1, none)
  | some wire => return (r.1, xreqSplit wire)

/-- A message arrives on a pipe, and whether an IN event is raised. -/
def receivedMsg (self : Xsurveyor) (p : Nat) (wire : List UInt8) :
    Except Abort (Xsurveyor × Bool) := do
  let pipe ← self.getPipe p
  let r ← pipe.arrive wire
  return (self.setPipe p (some r.1), r.2)

/-- A message has left a pipe, and whether an OUT event is raised. -/
def sentMsg (self : Xsurveyor) (p : Nat) : Except Abort (Xsurveyor × Bool) := do
  let pipe ← self.getPipe p
  let r ← pipe.sent
  return (self.setPipe p (some r.1), r.2)

/-- The pipes of the fair queue. -/
def listed (self : Xsurveyor) : Finset PriolistData :=
  ((List.range priolistSlots).flatMap fun i => (self.inpipes.slots i).pipes).toFinset

/-- The messages waiting on a pipe. -/
def waiting (self : Xsurveyor) (p : Nat) : Nat :=
  match self.pipes p with
  | none => 0
  | some pipe => pipe.session.inbox.length

/-- The messages waiting on the pipes of the fair queue. -/
def unread (self : Xsurveyor) : Nat := ∑ d ∈ self.listed, self.waiting d.pipe

theorem getPipe_eq_ok {s : Xsurveyor} {p : Nat} {pipe : Pipe (Session (List UInt8))}
    (h : s.getPipe p = .ok pipe) : s.pipes p = some pipe := by
  unfold getPipe at h
  cases hp : s.pipes p with
  | none => simp [hp] at h
  | some q => simpa [hp] using h

end Xsurveyor

end GridMq.Survey
