import GridMq.ReqRep.Asker
import GridMq.ReqRep.ReqBoxes
import GridMq.ReqRep.ReqRuns

set_option autoImplicit false

/-!
# The REQ socket as it is seen from outside

What was given to the pipes of a REQ socket is one of the requests of its user, and a reply that
is handed over came in on one of the pipes under the number of the last request.
-/

namespace GridMq.ReqRep

open GridMq.Core GridMq.Protocols GridMq.Aio GridMq.Library

namespace Req

/-! ## The number of the request -/

variable {s s' : Req}

/-- The body of the request that a step makes. -/
def asks : Label → Option (List UInt8)
  | .csend body => some body
  | _ => none

/-- What was given to a pipe so far. -/
def outbox (s : Req) (p : Nat) : List (List UInt8) :=
  match s.xreq.pipes p with
  | none => []
  | some pipe => pipe.session.outbox

/-- The name of the pipe that a step reports as new. -/
def newName : Label → Option Nat
  | .notify (.start p _ _) => some p
  | _ => none

/-- What a step answers, and what it gave to the pipes. -/
abbrev Answer := Result × List (Nat × List UInt8)

/-- A step as it is seen from outside. -/
abbrev Seen := Label × Answer

instance : DecidableEq Seen := inferInstanceAs (DecidableEq (Label × Answer))

end Req

/-- A REQ socket, with the names that were used for its pipes. -/
structure Requester where
  req : Req
  used : List Nat := []

namespace Requester

open Req

/-- What can happen to the socket: no name is given to two pipes, and no accepted reply is
overwritten by a message that does not answer the request. -/
def Enabled (mine : Nat → Bool) (s : Requester) (l : Label) : Prop :=
  s.req.Enabled l ∧ KeepsReply s.req l ∧
    ∀ p, newName l = some p → mine p = true ∧ p ∉ s.used

/-- A REQ socket from its creation on.  `mine` says which pipes it may be given. -/
def machine (lastid : Nat) (mine : Nat → Bool) : Machine Requester Label Answer Abort where
  init := { req := .init lastid }
  Enabled := Enabled mine
  next s l := do
    let r ← s.req.next l
    let used := (newName l).toList ++ s.used
    return ({ req := r.1, used := used }, r.2, newlyGiven used s.req.outbox r.1.outbox)

/-- A check for `Enabled`, up to the end of the endpoints. -/
def ready (mine : Nat → Bool) (s : Requester) (l : Label) : Bool :=
  s.req.ready l && decide (KeepsReply s.req l) &&
    (newName l).all fun p => mine p && !s.used.contains p

theorem enabled_of_ready {mine : Nat → Bool} {s : Requester} {l : Label}
    (h : s.ready mine l = true) : s.Enabled mine l := by
  unfold ready at h
  rw [Bool.and_eq_true, Bool.and_eq_true] at h
  refine ⟨Req.enabled_of_ready h.1.1, of_decide_eq_true h.1.2, ?_⟩
  intro p hp
  have hname := h.2
  rw [hp] at hname
  simpa using hname

/-- What arrives in a step. -/
def arrival : Seen → Option (Nat × List UInt8)
  | (.notify (.received p wire), _) => some (p, wire)
  | _ => none

/-- What is sent in a step. -/
def sends (l : Seen) : List (Nat × List UInt8) := l.2.2

/-- The body of the request that the user sends in a step. -/
def request (l : Seen) : Option (List UInt8) := asks l.1

variable {lastid : Nat} {mine : Nat → Bool} {labels : List Seen} {s : Requester}

/-- The messages of a socket are where they come from. -/
structure Sourced (lastid : Nat) (labels : List Seen) (s : Requester) : Prop where
  inv : s.req.Inv
  reply : ReplyInv s.req
  id : s.req.id = (lastid + (labels.filterMap request).length) % 2 ^ 32
  sends : s.req.sends = (labels.filterMap request).length
  boxed : s.req.Boxed (fun p wire => (p, wire) ∈ labels.filterMap arrival)
    fun _ wire => IsRequest lastid (labels.filterMap request) wire
  sent : ∀ e ∈ labels.flatMap Requester.sends, IsRequest lastid (labels.filterMap request) e.2

/-- REQ sockets from outside. -/
def asker : Asker Requester Label Answer where
  machine := machine
  arrival := arrival
  sends := sends
  request := request

end Requester

/-! ## The raw socket in a device -/

namespace Xreq

/-- A raw REQ socket that a device passes requests on with. -/
def outlet : Devices.Outlet Xreq where
  init := {}
  next self
    | .add p sndprio rcvprio => self.add p sndprio.1 rcvprio.1
    | .rm p => self.rm p
    | .arrive p wire => do
        let r ← self.receivedMsg p ⟨wire, 0⟩
        return r.1
    | .sent p => do
        let r ← self.sentMsg p
        return r.1
    | .deliver p .pipeIn => self.xreqIn p
    | .deliver p .pipeOut => self.xreqOut p
  events self := (self.fq.isActive, self.lb.isActive)
  send self msg := do
    let r ← self.sendTo msg
    return (r.1, r.2.isSome)
  recv := recv
  outbox self p :=
    match self.pipes p with
    | none => []
    | some pipe => pipe.session.outbox
  Boxed := Boxed

theorem Boxed.recv {In Out : Nat → List UInt8 → Prop} {x : Xreq} {r : Xreq × Option Msg}
    (h : x.Boxed In Out) (hcall : x.recv = .ok r) :
    r.1.Boxed In Out ∧ ∀ msg, r.2 = some msg → msg.sphdr.length = 4 ∧ ∃ p, In p msg.wire := by
  obtain ⟨t, hrecv, hret⟩ := bind_eq_ok_iff.mp hcall
  obtain ⟨hx, hin⟩ := h.fqRecv hrecv
  split at hret
  · obtain rfl := Except.ok.inj hret
    exact ⟨hx, fun msg hmsg => absurd hmsg (by simp)⟩
  · rename_i a ha
    obtain rfl := Except.ok.inj hret
    refine ⟨hx, ?_⟩
    intro msg hmsg
    obtain ⟨hwire, hlen⟩ := xreqSplit_eq_some hmsg
    refine ⟨hlen, ?_⟩
    rw [show msg.wire = a.wire from hwire.symm]
    exact hin a ha

theorem Boxed.next {In Out : Nat → List UInt8 → Prop} {x x' : Xreq} {op : Protocols.PipeOp}
    (h : x.Boxed In Out) (hcall : outlet.next x op = .ok x')
    (hop : ∀ p wire, op.arrival = some (p, wire) → In p wire) : x'.Boxed In Out := by
  cases op with
  | add p sndprio rcvprio => exact h.add hcall
  | rm p => exact h.rm hcall
  | arrive p wire =>
      obtain ⟨r, hreceived, hret⟩ := bind_eq_ok_iff.mp hcall
      obtain rfl := Except.ok.inj hret
      exact h.receivedMsg (hop p wire rfl) hreceived
  | sent p =>
      obtain ⟨r, hsent, hret⟩ := bind_eq_ok_iff.mp hcall
      obtain rfl := Except.ok.inj hret
      exact h.sentMsg hsent
  | deliver p e =>
      cases e with
      | pipeIn => exact h.xreqIn hcall
      | pipeOut => exact h.xreqOut hcall

end Xreq

end GridMq.ReqRep
