import GridMq.Core.Holds

set_option autoImplicit false

/-!
# Readiness of the sockets (`src/core/sock.c`)

The runs of the library with the parts of the sockets that belong to their types.  Such a
part moves while some thread is in the context of its socket; when that thread leaves,
`grid_sock_onleave` asks the part what can be done and makes the descriptors show it.
-/

namespace GridMq.Core

open GridMq.Library

/-- What the function `events` of the socket types says of their parts of sockets, which
are in states of type `σ`. -/
structure SockbaseEvents (σ : Type) where
  /-- `GRID_SOCKBASE_EVENT_IN` -/
  canRecv : σ → Bool
  /-- `GRID_SOCKBASE_EVENT_OUT` -/
  canSend : σ → Bool

/-- The library, and the part of the socket type at each address. -/
structure Readiness (σ : Type) where
  holds : Holds := {}
  sockbase : Nat → σ

namespace Readiness

variable {σ : Type}

/-- The sockets of the library. -/
def socks (self : Readiness σ) (fd : Nat) : Option OpenSock := self.holds.global.socks fd

/-- What can happen. -/
inductive Label (σ : Type) where
  /-- a step of the library -/
  | step (l : Holds.Label)
  /-- the part of the socket type comes to another state -/
  | sockbase (fd : Nat) (state : σ)

/-- When the context of a socket is left, the socket type is asked. -/
def Asked (events : SockbaseEvents σ) (self : Readiness σ) : Holds.Label → Prop
  | .step (.env fd (.leave canRecv canSend)) => ∀ e ∈ self.socks fd,
      canRecv = events.canRecv (self.sockbase e.addr) ∧
        canSend = events.canSend (self.sockbase e.addr)
  | _ => True

instance (events : SockbaseEvents σ) (self : Readiness σ) (l : Holds.Label) :
    Decidable (self.Asked events l) := by
  unfold Asked
  split <;> infer_instance

/-- When a step can be taken.  The part of the socket type moves in the context of the
socket only. -/
def Enabled (events : SockbaseEvents σ) (self : Readiness σ) : Label σ → Prop
  | .step l => self.holds.Enabled l ∧ self.Asked events l
  | .sockbase fd _ => ∃ e ∈ self.socks fd, e.sock.entered = true

instance (events : SockbaseEvents σ) (self : Readiness σ) (l : Label σ) :
    Decidable (self.Enabled events l) :=
  match l with
  | .step _ => inferInstanceAs (Decidable (_ ∧ _))
  | .sockbase _ _ => inferInstanceAs (Decidable (∃ e ∈ _, _))

/-- One step. -/
def next (self : Readiness σ) : Label σ → Option (Readiness σ)
  | .step l => (self.holds.next l).map fun holds => { self with holds := holds }
  | .sockbase fd state => (self.socks fd).map fun e =>
      { self with sockbase := Function.update self.sockbase e.addr state }

/-- All runs of the library, for socket types with these parts. -/
def system (events : SockbaseEvents σ) : System (Readiness σ) (Label σ) where
  init s := s.holds = {}
  step s l s' := s.Enabled events l ∧ s.next l = some s'

/-- What a function waits for. -/
def condition (events : SockbaseEvents σ) (self : Readiness σ) (e : OpenSock) : Fn → Bool
  | .send _ => events.canSend (self.sockbase e.addr)
  | .recv _ => events.canRecv (self.sockbase e.addr)
  | _ => false

/-- The flag, the descriptor and the socket type say the same. -/
structure Agree (flag : Bool) (fd : Efd) (can : Bool) : Prop where
  signaled : flag = true ↔ fd.Readable
  reported : flag = true ↔ can = true

/-- What the socket in a slot shows: an active socket whose context nobody is in shows what
can be done, in each direction that it has, and a zombie shows both. -/
structure Shows (events : SockbaseEvents σ) (s : Readiness σ) (e : OpenSock) : Prop where
  recv : e.sock.state = .active → e.sock.entered = false → e.kind.norecv = false →
    Agree e.sock.flagIn e.sock.rcvfd (events.canRecv (s.sockbase e.addr))
  send : e.sock.state = .active → e.sock.entered = false → e.kind.nosend = false →
    Agree e.sock.flagOut e.sock.sndfd (events.canSend (s.sockbase e.addr))
  zombieRecv : e.sock.state = .zombie → e.kind.norecv = false → e.sock.rcvfd.Readable
  zombieSend : e.sock.state = .zombie → e.kind.nosend = false → e.sock.sndfd.Readable

/-- What a call that waits has to be woken for: its socket is a zombie, or active with its
context left and what the call waits for reported by the socket type. -/
def Due (events : SockbaseEvents σ) (self : Readiness σ) (e : OpenSock) (fn : Fn) : Prop :=
  e.sock.state = .zombie ∨
    e.sock.state = .active ∧ e.sock.entered = false ∧ self.condition events e fn = true

end Readiness

end GridMq.Core
