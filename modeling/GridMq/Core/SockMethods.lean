import GridMq.Core.Global

set_option autoImplicit false

/-!
# The methods of the socket type (`src/core/sock.c`)

A socket with the calls that hold it and one `grid_close`, and which of the functions of
`struct grid_sockbase_vfptr` are called, in their order.
-/

namespace GridMq.Core

open GridMq.Aio GridMq.Library

/-- `struct grid_sockbase_vfptr`. -/
inductive Method where
  | stop | destroy | add | rm | in | out | events | send | recv | setopt | getopt
  deriving DecidableEq, Repr

/-- `GRID_SOL_SOCKET`. -/
def gridSolSocket : Int := 0

/-- What a thread calls that holds the socket. -/
inductive SockFn where
  | send (dontwait : Bool)
  | recv (dontwait : Bool)
  | setsockopt (level : Int)
  | getsockopt (level : Int)
  deriving DecidableEq, Repr

/-- The function of the library. -/
def SockFn.fn : SockFn → Fn
  | .send dontwait => .send dontwait
  | .recv dontwait => .recv dontwait
  | .setsockopt _ => .setsockopt
  | .getsockopt _ => .getsockopt

/-- An option of the protocol, not of the socket or of a transport. -/
def SockFn.ofProtocol : SockFn → Bool
  | .send _ => false
  | .recv _ => false
  | .setsockopt level => decide (level > gridSolSocket)
  | .getsockopt level => decide (level > gridSolSocket)

/-- A call in progress. -/
structure SockCall where
  fn : SockFn
  pc : Pc := .entering false
  deriving DecidableEq, Repr

/-- A socket, the calls that hold it, whether `grid_close` has stopped it, and the methods
that were called. -/
structure SockMethods where
  sock : Sock := {}
  calls : List SockCall := []
  closed : Bool := false
  invoked : List Method := []

namespace SockMethods

/-! ## Who calls which method -/

/-- The end of `grid_sock_shutdown`, from its label `finish2`. -/
def finish2Methods (kind : SockKind) (sdeps : List Ep) : List Method :=
  if sdeps ≠ [] then [] else if kind.hasStop then [.stop] else [.destroy]

/-- `grid_sock_shutdown`. -/
def shutdownMethods (kind : SockKind) (s : Sock) (e : SockEvent) : List Method :=
  match s.state with
  | .stoppingEps =>
      match e with
      | .epStopped eid => finish2Methods kind (s.sdeps.eraseP (·.eid = eid))
      | .epAction _ => []
      | .pipe _ _ _ => []
      | .stopped => []
  | .stopping => [.destroy]
  | _ => []

/-- `grid_sock_handler`. -/
def handlerMethods (s : Sock) (e : SockEvent) : List Method :=
  match s.state with
  | .active =>
      match e with
      | .pipe _ _ out => if out then [.out] else [.in]
      | _ => []
  | _ => []

/-- An event of the queue. -/
def processMethods (kind : SockKind) (s : Sock) (e : SockEvent) : List Method :=
  match e with
  | .epAction _ => []
  | e => if s.fsm = .stopping then shutdownMethods kind s e else handlerMethods s e

/-- What the socket does on its own, and `grid_sock_stop`. -/
def sockMethods (kind : SockKind) (s : Sock) : Sock.Label → List Method
  | .stop =>
      if s.fsm = .active then finish2Methods kind (s.sdeps ++ s.eps.map Ep.stop) else []
  | .deliver =>
      match s.events with
      | [] => []
      | e :: _ => processMethods kind s e
  | .leave _ _ => if s.state ≠ .active then [] else [.events]
  | _ => []

/-- One round of `grid_sock_send` or `grid_sock_recv`. -/
def transferMethods (s : Sock) (m : Method) : List Method :=
  match s.state with
  | .active => [m]
  | .init => [m]
  | _ => []

/-- `grid_sock_setopt` and `grid_sock_getopt`. -/
def optionMethods (s : Sock) (level : Int) (m : Method) : List Method :=
  if s.state = .zombie then [] else if level > gridSolSocket then [m] else []

/-- A call in the context of the socket. -/
def callMethods (kind : SockKind) (s : Sock) : SockFn → List Method
  | .send _ => if kind.nosend then [] else transferMethods s .send
  | .recv _ => if kind.norecv then [] else transferMethods s .recv
  | .setsockopt level => optionMethods s level .setopt
  | .getsockopt level => optionMethods s level .getopt

/-! ## Steps -/

/-- What can happen. -/
inductive Label where
  | hold (fn : SockFn)
  | enter (i : Nat) (attempt : Attempt)
  | wake (i : Nat) (r : WaitResult)
  | return (i : Nat)
  /-- `grid_close`, up to `grid_sock_stop` -/
  | close
  /-- the session of an endpoint adds its pipe to the socket, or removes it -/
  | pipe (eid : Nat) (add : Bool)
  /-- the socket moves on its own -/
  | env (l : Sock.Label)
  deriving DecidableEq

/-- The steps of a socket that are not its stop: endpoints are added and removed as long as
it is open. -/
def isEnv (closed : Bool) : Sock.Label → Bool
  | .stop => false
  | .addEp => !closed
  | .rmEp _ => !closed
  | _ => true

/-- The socket as the library has it. -/
def openSock (kind : SockKind) (self : SockMethods) : OpenSock := ⟨0, kind, self.sock, .opened⟩

/-- When a step can be taken. -/
def Enabled (kind : SockKind) (self : SockMethods) : Label → Prop
  | .hold _ => self.sock.fsm ≠ .idle
  | .enter i _ => (∃ c ∈ self.calls[i]?, c.pc.isEntering = true) ∧ self.sock.entered = false
  | .wake i r => ∃ c ∈ self.calls[i]?, c.pc = .waiting ∧
      Global.CanWake (Global.descriptor (self.openSock kind) c.fn.fn) r
  | .return i => ∃ c ∈ self.calls[i]?, c.pc.isReturning = true
  | .close => self.closed = false ∧ self.sock.Enabled .stop
  | .pipe eid _ => ∃ ep ∈ self.sock.eps ++ self.sock.sdeps, ep.eid = eid ∧ ep.reported = false
  | .env l => isEnv self.closed l = true ∧ self.sock.Enabled l

instance (kind : SockKind) (self : SockMethods) (l : Label) : Decidable (self.Enabled kind l) :=
  match l with
  | .hold _ => inferInstanceAs (Decidable (_ ≠ _))
  | .enter _ _ => inferInstanceAs (Decidable ((∃ c ∈ _, _) ∧ _))
  | .wake _ _ => inferInstanceAs (Decidable (∃ c ∈ _, _ ∧ _))
  | .return _ => inferInstanceAs (Decidable (∃ c ∈ _, _))
  | .close => inferInstanceAs (Decidable (_ ∧ self.sock.Enabled .stop))
  | .pipe _ _ => inferInstanceAs (Decidable (∃ ep ∈ _, _))
  | .env l => inferInstanceAs (Decidable (_ ∧ self.sock.Enabled l))

/-- A call goes on. -/
def setPc (self : SockMethods) (i : Nat) (c : SockCall) (pc : Pc) : SockMethods :=
  { self with calls := self.calls.set i { c with pc := pc } }

/-- One step. -/
def next (kind : SockKind) (self : SockMethods) : Label → Except Abort SockMethods
  | .hold fn =>
      match self.sock.hold with
      | (sock, .zero) => .ok { self with sock := sock, calls := self.calls ++ [{ fn := fn }] }
      | (_, .eterm) => .ok self
      | (_, .ebadf) => .ok self
  | .enter i attempt =>
      match self.calls[i]? with
      | none => .ok self
      | some c =>
          match c.pc with
          | .entering woken =>
              let (sock, pc) := Global.enter (self.openSock kind) c.fn.fn woken attempt
              let self := self.setPc i c pc
              .ok { self with
                sock := sock, invoked := self.invoked ++ callMethods kind self.sock c.fn }
          | .waiting => .ok self
          | .returning _ => .ok self
  | .wake i r =>
      match self.calls[i]? with
      | none => .ok self
      | some c => .ok (self.setPc i c (Global.afterWait r))
  | .return i => .ok { self with sock := self.sock.rele, calls := self.calls.eraseIdx i }
  | .close =>
      match self.sock.hold with
      | (sock, .zero) => do
          let methods := sockMethods kind sock .stop
          let sock ← sock.next kind .stop
          return { self with
            sock := sock.rele.rele, closed := true, invoked := self.invoked ++ methods }
      | (_, .eterm) => .ok self
      | (_, .ebadf) => .ok self
  | .pipe _ add => .ok { self with
      sock := { self.sock with entered := true }
      invoked := self.invoked ++ [if add then .add else .rm] }
  | .env l => do
      let sock ← self.sock.next kind l
      return { self with sock := sock, invoked := self.invoked ++ sockMethods kind self.sock l }

/-- The runs of a socket of some type. -/
def system (kind : SockKind) : System SockMethods Label where
  init s := s = {}
  step s l s' := s.Enabled kind l ∧ s.next kind l = .ok s'

/-- No method is called after `destroy`. -/
def DestroyedLast (invoked : List Method) : Prop :=
  ∀ pre post, invoked = pre ++ .destroy :: post → post = []

/-- Before the step: an option of the protocol is not set or read once the socket is in its
state `FINI`. -/
def Alive (s : SockMethods) : Label → Prop
  | .enter i _ => ∀ c ∈ s.calls[i]?, c.fn.ofProtocol = true → s.sock.state ≠ .fini
  | _ => True

instance (s : SockMethods) (l : Label) : Decidable (s.Alive l) :=
  match l with
  | .enter _ _ => inferInstanceAs (Decidable (∀ c ∈ _, _ → _))
  | .hold _ => inferInstanceAs (Decidable True)
  | .wake _ _ => inferInstanceAs (Decidable True)
  | .return _ => inferInstanceAs (Decidable True)
  | .close => inferInstanceAs (Decidable True)
  | .pipe _ _ => inferInstanceAs (Decidable True)
  | .env _ => inferInstanceAs (Decidable True)

end SockMethods

end GridMq.Core
