import GridMq.Core.Global

set_option autoImplicit false

/-!
# Holds of the sockets (`src/core/global.c`, `src/core/sock.c`)

The runs of the library with a record, for each socket, of the holds that were granted, of
the calls of `grid_close` that got as far as `grid_sock_stop`, of the posts of its release
semaphore and of its end.
-/

namespace GridMq.Core

open GridMq.Library

/-- What happens to the hold count of a socket. -/
inductive HoldEvent where
  /-- `grid_sock_hold` returned zero -/
  | hold
  /-- `grid_close` has called `grid_sock_stop` -/
  | stop
  /-- `grid_sem_post (&self->relesem)` -/
  | post
  /-- the slot is cleared and `grid_free (sock)` is called -/
  | free
  deriving DecidableEq, Repr

/-- The library, and what happened to the socket at each address. -/
structure Holds where
  global : Global := {}
  log : Nat → List HoldEvent := fun _ => []

namespace Holds

/-- What can happen: a step of the library, or a call that refuses its arguments before it
enters the context of the socket. -/
inductive Label where
  | step (l : Global.Label)
  | refuse (i : Nat)

/-- The posts of the release semaphore when a socket becomes another. -/
def posts (sock sock' : Sock) : List HoldEvent :=
  List.replicate (sock'.relesem - sock.relesem) .post

/-- The address of a socket and what a step does to its holds. -/
def happened (s : Global) : Global.Label → Option (Nat × List HoldEvent)
  | .call _ n =>
      match s.holdSocketLocked n with
      | .ok (_, e) => some (e.addr, [.hold])
      | .error _ => none
  | .close n =>
      match s.holdSocketLocked n with
      | .ok (_, e) => some (e.addr, [.hold, .stop])
      | .error _ => none
  | .return i => (s.calls[i]?.bind s.held).map fun e => (e.addr, posts e.sock e.sock.rele)
  | .closeRele fd => (s.socks fd).map fun e => (e.addr, posts e.sock e.sock.rele.rele)
  | .sockTerm fd => (s.socks fd).map fun e => (e.addr, [.free])
  | _ => none

/-- It is recorded. -/
def record (log : Nat → List HoldEvent) : Option (Nat × List HoldEvent) → Nat → List HoldEvent
  | none => log
  | some (addr, events) => Function.update log addr (log addr ++ events)

/-- A call that has not yet entered the context returns an error. -/
def refuse (s : Global) (i : Nat) : Option Global :=
  match s.calls[i]? with
  | none => none
  | some c =>
      if c.pc = .entering false then
        some { s with calls := s.calls.set i { c with pc := .returning (some .other) } }
      else none

/-- When a step can be taken. -/
def Enabled (self : Holds) : Label → Prop
  | .step l => self.global.Enabled l
  | .refuse _ => True

instance (self : Holds) (l : Label) : Decidable (self.Enabled l) :=
  match l with
  | .step l => inferInstanceAs (Decidable (self.global.Enabled l))
  | .refuse _ => inferInstanceAs (Decidable True)

def next (self : Holds) : Label → Option Holds
  | .step l => (self.global.next l).toOption.map fun global =>
      { global := global, log := record self.log (happened self.global l) }
  | .refuse i => (refuse self.global i).map fun global => { self with global := global }

/-- All runs of the library. -/
def system : System Holds Label where
  init s := s = {}
  step s l s' := s.Enabled l ∧ s.next l = some s'

/-- The calls in progress on the socket at an address. -/
def users (s : Global) (addr : Nat) : Nat := (s.calls.map Pending.addr).count addr

/-- The holds that are not those of calls in progress: the one from the creation of the
socket and that of `grid_close` itself, until it releases both. -/
def ownHolds : Closing → Nat
  | .opened => 1
  | .stopped => 2
  | .termsem => 0
  | .relesem => 0
  | .released => 0
  | .done => 0

/-- The last things that happen to a socket, in their order. -/
def ending : List HoldEvent := [.stop, .post, .free]

/-- The hold count is right, no call is left with a socket that is gone, and each socket is
held while it is open, stopped once, posts once when nobody holds it, and is released
then. -/
structure Sound (s : Holds) : Prop where
  count : ∀ fd, ∀ e ∈ s.global.socks fd,
    e.sock.holds = users s.global e.addr + ownHolds e.closing
  held : ∀ c ∈ s.global.calls, ∃ e, s.global.held c = some e
  history : ∀ addr, ∃ n k, s.log addr = List.replicate n .hold ++ ending.take k
  posted : ∀ fd, ∀ e ∈ s.global.socks fd, .post ∈ s.log e.addr ↔ e.sock.holds = 0
  released : ∀ addr, .free ∈ s.log addr → ∀ fd, ∀ e ∈ s.global.socks fd, e.addr ≠ addr

end Holds

end GridMq.Core
