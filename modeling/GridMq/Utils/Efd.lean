import GridMq.Utils.Err

set_option autoImplicit false

/-!
# Signalling descriptors (`src/utils/efd_eventfd.inc`)

The descriptors behind `GRID_SNDFD` and `GRID_RCVFD`: they are readable while they are
signalled, until they are closed.
-/

namespace GridMq

/-- `struct grid_efd`. -/
structure Efd where
  opened : Bool := true
  signaled : Bool := false
  deriving DecidableEq, Repr

namespace Efd

/-- `grid_efd_signal`. -/
def signal (self : Efd) : Efd :=
  if self.opened then { self with signaled := true } else self

/-- `grid_efd_unsignal`.  Nothing can be read from a descriptor that is not signalled. -/
def unsignal (self : Efd) : Except Abort Efd :=
  if self.opened then
    if self.signaled then .ok { self with signaled := false } else .error .errnum
  else .ok self

/-- `grid_efd_stop`. -/
def stop (self : Efd) : Efd := self.signal

/-- `grid_efd_term`. -/
def term (_ : Efd) : Efd := { opened := false }

/-- `grid_efd_wait` returns zero. -/
def Readable (self : Efd) : Prop := self.opened = true ∧ self.signaled = true

instance (self : Efd) : Decidable self.Readable := inferInstanceAs (Decidable (_ ∧ _))

end Efd

end GridMq
