import GridMq.Core.SockUse
import Mathlib.Logic.Function.Basic

set_option autoImplicit false

/-!
# The library and its sockets (`src/core/global.c`)

The table of open sockets, the calls of any number of threads on them, `grid_close` and
`grid_term`.  What the protocol of a socket makes of an attempt to send or receive is
left to the step.
-/

namespace GridMq.Core

open GridMq.Aio GridMq.Library

/-- `GRID_MAX_SOCKETS`. -/
def gridMaxSockets : Nat := 512

/-- What a call leaves in `errno`; `other` stands for the errors of options, addresses and
protocols. -/
inductive Errno where
  | eterm | ebadf | emfile | enotsup | eagain | etimedout | eintr | other
  deriving DecidableEq, Repr

/-- The functions that hold a socket while they run. -/
inductive Fn where
  | setsockopt
  | getsockopt
  | bind
  | connect
  | shutdown (eid : Nat)
  | send (dontwait : Bool)
  | recv (dontwait : Bool)
  deriving DecidableEq, Repr

/-- What the socket's part of a call comes to, where its state allows it. -/
inductive Attempt where
  | zero
  | eagain
  | fails
  deriving DecidableEq, Repr

/-- What `grid_efd_wait` returns. -/
inductive WaitResult where
  | zero | etimedout | eintr | ebadf
  deriving DecidableEq, Repr

/-- Where a call is. -/
inductive Pc where
  /-- before it enters the context of the socket, for the first time or after a wait -/
  | entering (woken : Bool)
  /-- in `grid_efd_wait` -/
  | waiting
  /-- before it drops its hold and returns -/
  | returning (rc : Option Errno)
  deriving DecidableEq, Repr

def Pc.isEntering : Pc → Bool
  | .entering _ => true
  | _ => false

def Pc.isReturning : Pc → Bool
  | .returning _ => true
  | _ => false

/-- A call in progress, with the address of the socket it holds. -/
structure Pending where
  fn : Fn
  fd : Nat
  addr : Nat
  pc : Pc := .entering false
  deriving DecidableEq, Repr

/-- A socket in the table, at its address. -/
structure OpenSock where
  addr : Nat
  kind : SockKind
  sock : Sock
  closing : Closing := .opened

/-- Who has the global lock. -/
inductive Glock where
  | free
  /-- `grid_term`, before the slot `i` of the table -/
  | term (i : Nat)
  /-- `grid_close`, which has called `grid_sock_stop` -/
  | close (fd : Nat)
  deriving DecidableEq, Repr

/-- `struct grid_global`, with the calls in progress.  The table is allocated as long as
some slot of it is used. -/
structure Global where
  socks : Nat → Option OpenSock := fun _ => none
  unused : List Nat := List.range gridMaxSockets
  /-- `GRID_CTX_FLAG_ZOMBIE` -/
  zombie : Bool := false
  glock : Glock := .free
  calls : List Pending := []
  addr : Nat := 0

namespace Global

/-! ## Functions -/

/-- The socket in a slot is changed. -/
def setSock (self : Global) (fd : Nat) (e : OpenSock) : Global :=
  { self with socks := Function.update self.socks fd (some e) }

/-- `grid_socket`. -/
def gridSocket (self : Global) (kind : SockKind) : Except Abort (Except Errno Global) :=
  if self.zombie then .ok (.error .eterm)
  else
    match self.unused with
    | [] => .ok (.error .emfile)
    | fd :: unused => do
        let sock ← { ({} : Sock) with entered := true }.start
        return .ok { self with
          socks := Function.update self.socks fd (some ⟨self.addr, kind, sock, .opened⟩)
          unused := unused, addr := self.addr + 1 }

/-- `grid_global_hold_socket_locked`: the slot and the socket, held once more. -/
def holdSocketLocked (self : Global) (s : Int) : Except Errno (Nat × OpenSock) :=
  -- the table is not allocated
  if self.unused.length = gridMaxSockets then .error .eterm
  else if self.zombie then .error .eterm
  else if s < 0 ∨ (gridMaxSockets : Int) ≤ s then .error .ebadf
  else
    match self.socks s.toNat with
    | none => .error .ebadf
    | some e =>
        match e.sock.hold with
        | (sock, .zero) => .ok (s.toNat, { e with sock := sock })
        | (_, .eterm) => .error .ebadf
        | (_, .ebadf) => .error .ebadf

/-- The beginning of a function: `grid_global_hold_socket`. -/
def hold (self : Global) (fn : Fn) (s : Int) : Except Errno Global :=
  match self.holdSocketLocked s with
  | .error e => .error e
  | .ok (fd, e) => .ok { self.setSock fd e with
      calls := self.calls ++ [{ fn := fn, fd := fd, addr := e.addr }] }

/-- `grid_close`, up to `grid_sock_stop`. -/
def gridClose (self : Global) (s : Int) : Except Abort (Except Errno Global) :=
  match self.holdSocketLocked s with
  | .error e => .ok (.error e)
  | .ok (fd, e) => do
      let sock ← e.sock.next e.kind .stop
      return .ok { self.setSock fd { e with sock := sock, closing := .stopped } with
        glock := .close fd }

/-! ## The part of the socket -/

/-- After a wait, `grid_sock_send` and `grid_sock_recv` check the descriptor again. -/
def recheck (self : Sock) (out woken : Bool) : Sock :=
  if woken then
    if out then { self with flagOut := self.flagOut || decide self.sndfd.Readable }
    else { self with flagIn := self.flagIn || decide self.rcvfd.Readable }
  else self

/-- One round of the loop of `grid_sock_send` or `grid_sock_recv`. -/
def transfer (self : Sock) (dontwait : Bool) (attempt : Attempt) : Pc :=
  match self.state with
  | .active | .init =>
      match attempt with
      | .zero => .returning none
      | .fails => .returning (some .other)
      | .eagain => if dontwait then .returning (some .eagain) else .waiting
  | .zombie => .returning (some .eterm)
  | .stoppingEps => .returning (some .ebadf)
  | .stopping => .returning (some .ebadf)
  | .fini => .returning (some .ebadf)

/-- What the attempt of a function other than `grid_send` and `grid_recv` returns. -/
def result (attempt : Attempt) : Pc :=
  match attempt with
  | .zero => .returning none
  | .eagain => .returning (some .other)
  | .fails => .returning (some .other)

/-- `grid_sock_setopt` and `grid_sock_getopt`. -/
def option (self : Sock) (attempt : Attempt) : Pc :=
  if self.state = .zombie then .returning (some .eterm) else result attempt

/-- The call enters the context of its socket. -/
def enter (e : OpenSock) (fn : Fn) (woken : Bool) (attempt : Attempt) : Sock × Pc :=
  let sock := { e.sock with entered := true }
  match fn with
  | .setsockopt => (sock, option sock attempt)
  | .getsockopt => (sock, option sock attempt)
  | .bind => (if attempt = .zero then sock.addEp else sock, result attempt)
  | .connect => (if attempt = .zero then sock.addEp else sock, result attempt)
  | .shutdown eid =>
      match sock.rmEp eid with
      | none => (sock, .returning (some .other))
      | some sock => (sock, .returning none)
  | .send dontwait =>
      if e.kind.nosend then (e.sock, .returning (some .enotsup))
      else (recheck sock true woken, transfer sock dontwait attempt)
  | .recv dontwait =>
      if e.kind.norecv then (e.sock, .returning (some .enotsup))
      else (recheck sock false woken, transfer sock dontwait attempt)

/-- The descriptor that a function waits for. -/
def descriptor (e : OpenSock) : Fn → Efd
  | .send _ => e.sock.sndfd
  | _ => e.sock.rcvfd

/-- `grid_efd_wait` can return that.  It times out or is interrupted only as long as the
descriptor is not readable. -/
def CanWake (fd : Efd) : WaitResult → Prop
  | .zero => fd.Readable
  | .etimedout => fd.opened = true ∧ fd.signaled = false
  | .eintr => fd.opened = true ∧ fd.signaled = false
  | .ebadf => fd.opened = false

instance (fd : Efd) (r : WaitResult) : Decidable (CanWake fd r) := by
  cases r <;> unfold CanWake <;> infer_instance

/-- What the call does then. -/
def afterWait : WaitResult → Pc
  | .zero => .entering true
  | .etimedout => .returning (some .etimedout)
  | .eintr => .returning (some .eintr)
  | .ebadf => .returning (some .ebadf)

/-! ## Steps -/

/-- The socket that a call holds. -/
def held (self : Global) (c : Pending) : Option OpenSock :=
  (self.socks c.fd).filter fun e => e.addr = c.addr

/-- What can happen. -/
inductive Label where
  | socket (kind : SockKind)
  /-- a function is called -/
  | call (fn : Fn) (s : Int)
  /-- a call enters the context of its socket -/
  | enter (i : Nat) (attempt : Attempt)
  /-- a call is back from `grid_efd_wait` -/
  | wake (i : Nat) (r : WaitResult)
  /-- a call drops its hold and returns -/
  | return (i : Nat)
  /-- `grid_close`, with its steps after `grid_sock_stop` -/
  | close (s : Int)
  | closeRele (fd : Nat)
  | waitTermsem (fd : Nat)
  | waitRelesem (fd : Nat)
  | sockTerm (fd : Nat)
  /-- `grid_term`, slot by slot -/
  | term
  | termZombify
  | termEnd
  /-- the socket in a slot moves on its own -/
  | env (fd : Nat) (l : Sock.Label)

/-- The slot that `grid_term` has come to. -/
def slot (self : Global) : Option Nat :=
  match self.glock with
  | .term i => some i
  | .free => none
  | .close _ => none

/-- When a step can be taken. -/
def Enabled (self : Global) : Label → Prop
  | .socket _ => self.glock = .free
  | .call _ _ => self.glock = .free
  | .enter i _ => ∃ c ∈ self.calls[i]?, c.pc.isEntering = true ∧
      ∀ e ∈ self.held c, e.sock.entered = false
  | .wake i r => ∃ c ∈ self.calls[i]?, c.pc = .waiting ∧
      ∀ e ∈ self.held c, CanWake (descriptor e c.fn) r
  | .return i => self.glock = .free ∧ ∃ c ∈ self.calls[i]?, c.pc.isReturning = true
  | .close s => self.glock = .free ∧ ∀ e ∈ self.socks s.toNat, e.sock.entered = false
  | .closeRele fd => self.glock = .close fd
  | .waitTermsem fd => ∃ e ∈ self.socks fd, e.closing = .termsem ∧ 0 < e.sock.termsem
  | .waitRelesem fd => ∃ e ∈ self.socks fd, e.closing = .relesem ∧ 0 < e.sock.relesem
  | .sockTerm fd => self.glock = .free ∧
      ∃ e ∈ self.socks fd, e.closing = .released ∧ e.sock.entered = false
  | .term => self.glock = .free
  | .termZombify => ∃ i ∈ self.slot, i < gridMaxSockets ∧
      ∀ e ∈ self.socks i, e.sock.entered = false
  | .termEnd => self.glock = .term gridMaxSockets
  | .env fd l => ∃ e ∈ self.socks fd, e.closing ≠ .done ∧ SockUse.isEnv l = true ∧
      e.sock.Enabled l

instance (self : Global) (l : Label) : Decidable (self.Enabled l) :=
  match l with
  | .socket _ => inferInstanceAs (Decidable (_ = _))
  | .call _ _ => inferInstanceAs (Decidable (_ = _))
  | .enter _ _ => inferInstanceAs (Decidable (∃ c ∈ _, _ ∧ ∀ e ∈ _, _))
  | .wake _ _ => inferInstanceAs (Decidable (∃ c ∈ _, _ ∧ ∀ e ∈ _, _))
  | .return _ => inferInstanceAs (Decidable (_ ∧ ∃ c ∈ _, _))
  | .close _ => inferInstanceAs (Decidable (_ ∧ ∀ e ∈ _, _))
  | .closeRele _ => inferInstanceAs (Decidable (_ = _))
  | .waitTermsem _ => inferInstanceAs (Decidable (∃ e ∈ _, _))
  | .waitRelesem _ => inferInstanceAs (Decidable (∃ e ∈ _, _))
  | .sockTerm _ => inferInstanceAs (Decidable (_ ∧ ∃ e ∈ _, _))
  | .term => inferInstanceAs (Decidable (_ = _))
  | .termZombify => inferInstanceAs (Decidable (∃ i ∈ _, _ ∧ ∀ e ∈ _, _))
  | .termEnd => inferInstanceAs (Decidable (_ = _))
  | .env _ _ => inferInstanceAs (Decidable (∃ e ∈ _, _))

/-- One step.  A call whose socket is gone follows a dangling pointer. -/
def next (self : Global) : Label → Except Abort Global
  | .socket kind => do
      match ← self.gridSocket kind with
      | .error _ => return self
      | .ok self => return self
  | .call fn s =>
      match self.hold fn s with
      | .error _ => .ok self
      | .ok self => .ok self
  | .enter i attempt =>
      match self.calls[i]? with
      | none => .ok self
      | some c =>
          match self.held c, c.pc with
          | none, _ => .error .nullPointer
          | some e, .entering woken =>
              let (sock, pc) := enter e c.fn woken attempt
              .ok { self.setSock c.fd { e with sock := sock } with
                calls := self.calls.set i { c with pc := pc } }
          | some _, .waiting => .ok self
          | some _, .returning _ => .ok self
  | .wake i r =>
      match self.calls[i]? with
      | none => .ok self
      | some c => .ok { self with calls := self.calls.set i { c with pc := afterWait r } }
  | .return i =>
      match self.calls[i]? with
      | none => .ok self
      | some c =>
          match self.held c with
          | none => .error .nullPointer
          | some e => .ok { self.setSock c.fd { e with sock := e.sock.rele } with
              calls := self.calls.eraseIdx i }
  | .close s => do
      match ← self.gridClose s with
      | .error _ => return self
      | .ok self => return self
  | .closeRele fd =>
      match self.socks fd with
      | none => .error .nullPointer
      | some e => .ok { self.setSock fd
          { e with sock := e.sock.rele.rele, closing := .termsem } with glock := .free }
  | .waitTermsem fd =>
      match self.socks fd with
      | none => .error .nullPointer
      | some e => .ok (self.setSock fd
          { e with sock := { e.sock with termsem := e.sock.termsem - 1 }, closing := .relesem })
  | .waitRelesem fd =>
      match self.socks fd with
      | none => .error .nullPointer
      | some e => .ok (self.setSock fd
          { e with sock := { e.sock with relesem := e.sock.relesem - 1 }, closing := .released })
  | .sockTerm fd =>
      match self.socks fd with
      | none => .error .nullPointer
      | some e => do
          let _ ← e.sock.term
          return { self with
            socks := Function.update self.socks fd none
            -- the table is allocated anew after its last socket was closed
            unused := if self.unused.length + 1 = gridMaxSockets then List.range gridMaxSockets
              else fd :: self.unused }
  | .term => .ok { self with zombie := true, glock := .term 0 }
  | .termZombify =>
      match self.glock with
      | .term i =>
          match self.socks i with
          | none => .ok { self with glock := .term (i + 1) }
          | some e => do
              let sock ← e.sock.next e.kind .zombify
              return { self.setSock i { e with sock := sock } with glock := .term (i + 1) }
      | .free => .ok self
      | .close _ => .ok self
  | .termEnd => .ok { self with glock := .free }
  | .env fd l =>
      match self.socks fd with
      | none => .error .nullPointer
      | some e => do
          let sock ← e.sock.next e.kind l
          return self.setSock fd { e with sock := sock }

/-- The runs of the library. -/
def system : System Global Label where
  init s := s = {}
  step s l s' := s.Enabled l ∧ s.next l = .ok s'

/-- One step, if it can be taken and does not end the process. -/
def tryNext (self : Global) (l : Label) : Option Global :=
  if self.Enabled l then (self.next l).toOption else none

theorem tryNext_step {s s' : Global} {l : Label} (h : s.tryNext l = some s') :
    system.step s l s' := by
  unfold tryNext at h
  split at h
  · rename_i hen
    refine ⟨hen, ?_⟩
    cases hnext : s.next l with
    | error a => simp [hnext, Except.toOption] at h
    | ok s'' => simpa [hnext, Except.toOption] using h
  · exact absurd h (by simp)

/-- `grid_term` was called and has returned. -/
def Terminated (s : Global) : Prop := s.zombie = true ∧ ∀ i, s.glock ≠ .term i

/-- A socket that `grid_close` was not called for. -/
def Open (s : Global) (fd : Nat) : Prop := ∃ e ∈ s.socks fd, e.closing = .opened

end Global

end GridMq.Core
