import GridMq.Library.Transition
import GridMq.ReqRep.Xrep

set_option autoImplicit false

/-!
# The REP socket (`src/protocols/reqrep/rep.c`)

The socket keeps the way back of the last request until it is answered or another
request is received.  A pipe is named by the number of pipes that were added before
it, so that a name is never used twice; its key is used again after `2 ^ 31` more.

`src/protocols/survey/respondent.c` is the same code under other names.

The environment is free to add and remove pipes and to report what it likes; the
OUT event of a pipe is delivered while the pipe can be sent to.
-/

namespace GridMq.ReqRep

open GridMq.Core GridMq.Protocols GridMq.Library

/-- `struct grid_rep`.  `adds` counts the pipes that were added; `asked` is the pipe the
last request came in on and the bytes it arrived as. -/
structure Rep where
  xrep : Xrep
  inprogress : Bool := false
  backtrace : List UInt8 := []
  adds : Nat := 0
  asked : Option (Nat × List UInt8) := none

namespace Rep

/-- `grid_rep_init`, from a random key. -/
def init (key : Nat) : Rep := { xrep := .init key }

/-- The outcome of a call. -/
inductive Result where
  | none
  | ok
  | again
  | efsm
  | request (msg : Msg)
  deriving DecidableEq, Repr

/-- `grid_rep_send`. -/
def send (self : Rep) (msg : Msg) : Except Abort (Rep × Result) :=
  if !self.inprogress then .ok (self, .efsm)
  else do
    -- move the stored backtrace into the message header
    gridAssert (msg.sphdr = [])
    let msg := { msg with sphdr := self.backtrace }
    let self := { self with backtrace := [], inprogress := false }
    let xrep ← self.xrep.send msg
    return ({ self with xrep := xrep }, .ok)

/-- `grid_rep_recv`. -/
def recv (self : Rep) : Except Abort (Rep × Result) := do
  -- a request that is being processed is cancelled
  let self := if self.inprogress then { self with backtrace := [], inprogress := false } else self
  let r ← self.xrep.recv
  let self := { self with xrep := r.1 }
  match r.2 with
  | none => return (self, .again)
  | some (p, wire, msg) =>
      let self := { self with
        backtrace := msg.sphdr, inprogress := true, asked := some (p, wire) }
      return (self, .request { msg with sphdr := [] })

/-- What can happen to a REP socket. -/
inductive Label where
  | add (sndprio rcvprio : Priority)
  | rm (p : Nat)
  | pipeIn (p : Nat)
  | pipeOut (p : Nat)
  | received (p : Nat) (wire : List UInt8)
  | sent (p : Nat)
  | send (msg : Msg)
  | recv

def Enabled (self : Rep) : Label → Prop
  | .pipeOut p => ∃ data, self.xrep.pipes p = some data ∧ data.pipe.outstate = .idle
  | _ => True

/-- One step. -/
def next (self : Rep) : Label → Except Abort (Rep × Result)
  | .add sndprio rcvprio => do
      let xrep ← self.xrep.add self.adds sndprio.1 rcvprio.1
      return ({ self with xrep := xrep, adds := self.adds + 1 }, .none)
  | .rm p => do
      let xrep ← self.xrep.rm p
      return ({ self with xrep := xrep }, .none)
  | .pipeIn p => do
      let xrep ← self.xrep.xrepIn p
      return ({ self with xrep := xrep }, .none)
  | .pipeOut p => do
      let xrep ← self.xrep.xrepOut p
      return ({ self with xrep := xrep }, .none)
  | .received p wire => do
      let r ← self.xrep.receivedMsg p wire
      return ({ self with xrep := r.1 }, .none)
  | .sent p => do
      let r ← self.xrep.sentMsg p
      return ({ self with xrep := r.1 }, .none)
  | .send msg => self.send msg
  | .recv => self.recv

/-- The REP socket as a transition system. -/
def system : System Rep Label where
  init s := ∃ key, s = Rep.init key
  step s l s' := Enabled s l ∧ ∃ r, s.next l = .ok (s', r)

end Rep

end GridMq.ReqRep
