import GridMq.Core.Sendmsg
import GridMq.ReqRep.Rep
import GridMq.ReqRep.Req
import GridMq.Survey.Respondent
import GridMq.Survey.Surveyor

set_option autoImplicit false

/-!
# What the socket types do with a message that is sent

The `send` of every socket type, cooked and raw.  The cooked PAIR, PUSH and PUB sockets use
the functions of the raw ones; PULL and SUB sockets do not send.

Four of the cooked types assert that a message has no protocol header yet.  The assertion
ends the call as `SendAbort.header`.
-/

namespace GridMq.Protocols

open GridMq.Core GridMq.ReqRep GridMq.Survey

/-- The pipes that a socket sends on. -/
abbrev OutPipes := Nat → Option (Pipe (Session (List UInt8)))

/-- `grid_pipe_send` on an attached pipe. -/
def OutPipes.send (msg : Msg) (self : OutPipes) (p : Nat) : Except Abort (OutPipes × Bool) :=
  match self p with
  | none => .error .nullPointer
  | some pipe => do
      let r ← pipe.send sessionVfptr msg
      return (Function.update self p (some r.1), r.2)

/-- The outbound half of `struct grid_xpair`, with its `excl`. -/
structure Xpair where
  outpipe : Option Nat := none
  pipes : OutPipes := fun _ => none

/-- `grid_xpair_send` with `grid_excl_send`; `false` is `-EAGAIN`. -/
def Xpair.send (self : Xpair) (msg : Msg) : Except Abort (Xpair × Bool) :=
  match self.outpipe with
  | none => .ok (self, false)
  | some p => do
      let r ← self.pipes.send msg p
      return ({ outpipe := if r.2 then none else some p, pipes := r.1 }, true)

/-- `struct grid_xpush`. -/
structure Xpush where
  lb : Priolist := .init
  pipes : OutPipes := fun _ => none

/-- `grid_xpush_send` with `grid_lb_send`; `false` is `-EAGAIN`. -/
def Xpush.send (self : Xpush) (msg : Msg) : Except Abort (Xpush × Bool) := do
  match ← self.lb.getpipe with
  | none => return (self, false)
  | some d =>
      let r ← self.pipes.send msg d.pipe
      let lb ← self.lb.advance r.2
      return ({ lb := lb, pipes := r.1 }, true)

/-- `struct grid_xpub`, and the outbound half of `struct grid_xbus`. -/
structure Xpub where
  outpipes : Dist := {}
  pipes : OutPipes := fun _ => none

/-- `grid_xpub_send`, with the pipe that is left out. -/
def Xpub.send (self : Xpub) (exclude : Option Nat) (msg : Msg) : Except Abort Xpub := do
  let r ← self.outpipes.send (OutPipes.send msg) exclude self.pipes
  return { outpipes := r.1, pipes := r.2 }

abbrev Xbus := Xpub

/-- `grid_xbus_send`; `false` is `-EINVAL`.  The header is the address of the pipe that is
left out. -/
def Xbus.send (self : Xbus) (msg : Msg) : Except Abort (Xbus × Bool) :=
  if msg.sphdr.length = 0 then do
    let xbus ← Xpub.send self none msg
    return (xbus, true)
  else if msg.sphdr.length = 8 then do
    let xbus ← Xpub.send self (some (native msg.sphdr)) { msg with sphdr := [] }
    return (xbus, true)
  else .ok (self, false)

/-! ## The cooked types -/

/-- The assertion that the header is empty. -/
def headerAssert (msg : Msg) : Except SendAbort Unit :=
  if msg.sphdr.length = 0 then .ok () else .error .header

/-- `grid_bus_send`; `false` is `-EINVAL`. -/
def busSend (self : Xbus) (msg : Msg) : Except Abort (Xbus × Bool) :=
  if msg.sphdr.length ≠ 0 then .ok (self, false)
  else do
    let r ← Xbus.send self msg
    -- `errnum_assert (rc == 0, -rc)`
    if r.2 then return r else .error .errnum

/-- `grid_req_csend`. -/
def reqCsend (self : Req) (msg : Msg) : Except SendAbort Req := do
  headerAssert msg
  liftAbort (self.csend msg.body)

/-- `grid_rep_send`. -/
def repSend (self : Rep) (msg : Msg) : Except SendAbort (Rep × Rep.Result) :=
  if !self.inprogress then .ok (self, .efsm)
  else do
    headerAssert msg
    liftAbort (self.send msg)

/-- `grid_respondent_send`. -/
def respondentSend (self : Respondent) (msg : Msg) : Except SendAbort (Rep × Rep.Result) :=
  repSend self msg

/-- `grid_surveyor_send`. -/
def surveyorSend (self : Surveyor) (msg : Msg) : Except SendAbort (Surveyor × SurveyorResult) := do
  headerAssert msg
  liftAbort (self.send msg)

/-! ## All of them -/

/-- The socket types, with the raw ones. -/
inductive SocketType where
  | pair | xpair | push | xpush | pull | xpull | pub | xpub | sub | xsub | bus | xbus
  | req | xreq | rep | xrep | surveyor | xsurveyor | respondent | xrespondent
  deriving DecidableEq, Repr

namespace SocketType

/-- The state of a socket of the type, as far as it sends. -/
def State : SocketType → Type
  | pair | xpair => Xpair
  | push | xpush => Xpush
  | pull | xpull | sub | xsub => Unit
  | pub | xpub => Xpub
  | bus | xbus => Xbus
  | req => Req
  | xreq => Xreq
  | rep => Rep
  | xrep => Xrep
  | surveyor => Surveyor
  | xsurveyor => Xsurveyor
  | respondent => Respondent
  | xrespondent => Xrespondent

/-- `GRID_SOCKTYPE_FLAG_NOSEND`. -/
def nosend : SocketType → Bool
  | pull | xpull | sub | xsub => true
  | _ => false

/-- The result of a `send` that returns 0 or one error, and leaves the message alone then. -/
def sentOr (e : SendErrno) (sent : Bool) : SendResult := if sent then .taken else .refused e

/-- `send`; a type without one has `NULL` there. -/
def send : (t : SocketType) → t.State → Msg → Except SendAbort SendResult
  | pair, s, msg => (liftAbort (Xpair.send s msg)).map fun r => sentOr .eagain r.2
  | xpair, s, msg => (liftAbort (Xpair.send s msg)).map fun r => sentOr .eagain r.2
  | push, s, msg => (liftAbort (Xpush.send s msg)).map fun r => sentOr .eagain r.2
  | xpush, s, msg => (liftAbort (Xpush.send s msg)).map fun r => sentOr .eagain r.2
  | pub, s, msg => (liftAbort (Xpub.send s none msg)).map fun _ => .taken
  | xpub, s, msg => (liftAbort (Xpub.send s none msg)).map fun _ => .taken
  | bus, s, msg => (liftAbort (busSend s msg)).map fun r => sentOr .einval r.2
  | xbus, s, msg => (liftAbort (Xbus.send s msg)).map fun r => sentOr .einval r.2
  | req, s, msg => (reqCsend s msg).map fun _ => .taken
  | xreq, s, msg => (liftAbort (Xreq.sendTo s msg)).map fun r => sentOr .eagain r.2.isSome
  | rep, s, msg => (repSend s msg).map fun r => sentOr .efsm (r.2 == .ok)
  | xrep, s, msg => (liftAbort (Xrep.send s msg)).map fun _ => .taken
  | surveyor, s, msg => (surveyorSend s msg).map fun r =>
      if r.2 = .again then .emptied .eagain else .taken
  | xsurveyor, s, msg => (liftAbort (Xsurveyor.send s msg)).map fun _ => .taken
  | respondent, s, msg => (respondentSend s msg).map fun r => sentOr .efsm (r.2 == .ok)
  | xrespondent, s, msg => (liftAbort (Xrespondent.send s msg)).map fun _ => .taken
  | pull, _, _ | xpull, _, _ | sub, _, _ | xsub, _, _ => .error (.other .nullPointer)

/-- What `grid_sock_send` calls. -/
def sendType (t : SocketType) : SendType where
  State := t.State
  nosend := t.nosend
  send := t.send

end SocketType

end GridMq.Protocols
