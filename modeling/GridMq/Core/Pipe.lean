import GridMq.Utils.Err
import GridMq.Utils.Msg

set_option autoImplicit false

/-!
# Pipes (`src/core/pipe.c`)

The part of a pipe that the socket sees.  The transport behind it is given by its
two functions `send` and `recv`, which may report completion from within the
call; otherwise the pipe is released and announced again by an IN or OUT event.
-/

namespace GridMq.Core

/-- `GRID_PIPEBASE_INSTATE_*`. -/
inductive InState where
  | deactivated | idle | receiving | received | async
  deriving DecidableEq, Repr

/-- `GRID_PIPEBASE_OUTSTATE_*`. -/
inductive OutState where
  | deactivated | idle | sending | sent | async
  deriving DecidableEq, Repr

/-- A pipe priority as `grid_setsockopt` lets it through. -/
abbrev Priority := { n : Nat // 1 ≤ n ∧ n ≤ 16 }

/-- The priority of a pipe whose socket had none set. -/
def defaultPriority : Priority := ⟨8, by decide⟩

/-- `struct grid_pipebase`, with the transport's session behind it. -/
structure Pipe (τ : Type) where
  instate : InState := .deactivated
  outstate : OutState := .deactivated
  sndprio : Nat
  rcvprio : Nat
  session : τ

/-- `struct grid_pipebase_vfptr`, for a transport that hands over messages of
type `μ`. -/
structure PipeVfptr (τ μ : Type) where
  send : Pipe τ → Msg → Except Abort (Pipe τ)
  recv : Pipe τ → Except Abort (Pipe τ × μ)

namespace Pipe

variable {τ μ : Type}

/-- The states `grid_pipebase_start` gives a pipe; an OUT event is raised. -/
def start (self : Pipe τ) : Pipe τ := { self with instate := .async, outstate := .idle }

/-- `grid_pipebase_received`, and whether an IN event is raised. -/
def received (self : Pipe τ) : Except Abort (Pipe τ × Bool) :=
  if self.instate = .receiving then .ok ({ self with instate := .received }, false)
  else if self.instate = .async then .ok ({ self with instate := .idle }, true)
  else .error .assertion

/-- `grid_pipebase_sent`, and whether an OUT event is raised. -/
def sent (self : Pipe τ) : Except Abort (Pipe τ × Bool) :=
  if self.outstate = .sending then .ok ({ self with outstate := .sent }, false)
  else if self.outstate = .async then .ok ({ self with outstate := .idle }, true)
  else .error .assertion

/-- `grid_pipe_send`, and whether the pipe is released. -/
def send (vfptr : PipeVfptr τ μ) (self : Pipe τ) (msg : Msg) : Except Abort (Pipe τ × Bool) := do
  gridAssert (self.outstate = .idle)
  let self ← vfptr.send { self with outstate := .sending } msg
  if self.outstate = .sent then
    return ({ self with outstate := .idle }, false)
  else
    gridAssert (self.outstate = .sending)
    return ({ self with outstate := .async }, true)

/-- `grid_pipe_recv`: the message, and whether the pipe is released. -/
def recv (vfptr : PipeVfptr τ μ) (self : Pipe τ) : Except Abort (Pipe τ × μ × Bool) := do
  gridAssert (self.instate = .idle)
  let (self, msg) ← vfptr.recv { self with instate := .receiving }
  if self.instate = .received then
    return ({ self with instate := .idle }, msg, false)
  else
    gridAssert (self.instate = .receiving)
    return ({ self with instate := .async }, msg, true)

/-! ## What the calls can do -/

variable {vfptr : PipeVfptr τ μ} {self self' : Pipe τ} {msg : Msg} {m : μ} {raised release : Bool}

theorem received_eq_ok :
    self.received = .ok (self', raised) ↔
      self.instate = .receiving ∧ self' = { self with instate := .received } ∧ raised = false ∨
        self.instate = .async ∧ self' = { self with instate := .idle } ∧ raised = true := by
  unfold received
  cases hstate : self.instate <;> simp [eq_comm]

theorem sent_eq_ok :
    self.sent = .ok (self', raised) ↔
      self.outstate = .sending ∧ self' = { self with outstate := .sent } ∧ raised = false ∨
        self.outstate = .async ∧ self' = { self with outstate := .idle } ∧ raised = true := by
  unfold sent
  cases hstate : self.outstate <;> simp [eq_comm]

/-- A send goes through the transport, and the pipe is released unless the transport
reported its completion within the call. -/
theorem send_cases (h : self.send vfptr msg = .ok (self', release)) :
    self.outstate = .idle ∧ ∃ p, vfptr.send { self with outstate := .sending } msg = .ok p ∧
      (p.outstate = .sent ∧ self' = { p with outstate := .idle } ∧ release = false ∨
        p.outstate = .sending ∧ self' = { p with outstate := .async } ∧ release = true) := by
  unfold send at h
  obtain ⟨_, hidle, h⟩ := bind_eq_ok_iff.mp h
  obtain ⟨p, hsend, h⟩ := bind_eq_ok_iff.mp h
  refine ⟨gridAssert_eq_ok_iff.mp hidle, p, hsend, ?_⟩
  split at h
  · rename_i hsent
    obtain ⟨rfl, rfl⟩ : { p with outstate := .idle } = self' ∧ false = release := by
      simpa using h
    exact Or.inl ⟨hsent, rfl, rfl⟩
  · obtain ⟨_, hsending, h⟩ := bind_eq_ok_iff.mp h
    obtain ⟨rfl, rfl⟩ : { p with outstate := .async } = self' ∧ true = release := by
      simpa using h
    exact Or.inr ⟨gridAssert_eq_ok_iff.mp hsending, rfl, rfl⟩

/-- A receive goes through the transport, and the pipe is released unless the transport
announced the next message within the call. -/
theorem recv_cases (h : self.recv vfptr = .ok (self', m, release)) :
    self.instate = .idle ∧ ∃ p, vfptr.recv { self with instate := .receiving } = .ok (p, m) ∧
      (p.instate = .received ∧ self' = { p with instate := .idle } ∧ release = false ∨
        p.instate = .receiving ∧ self' = { p with instate := .async } ∧ release = true) := by
  unfold recv at h
  obtain ⟨_, hidle, h⟩ := bind_eq_ok_iff.mp h
  obtain ⟨⟨p, m'⟩, hrecv, h⟩ := bind_eq_ok_iff.mp h
  refine ⟨gridAssert_eq_ok_iff.mp hidle, p, ?_⟩
  simp only at h
  split at h
  · rename_i hreceived
    obtain ⟨rfl, rfl, rfl⟩ :
        { p with instate := .idle } = self' ∧ m' = m ∧ false = release := by simpa using h
    exact ⟨hrecv, Or.inl ⟨hreceived, rfl, rfl⟩⟩
  · obtain ⟨_, hreceiving, h⟩ := bind_eq_ok_iff.mp h
    obtain ⟨rfl, rfl, rfl⟩ :
        { p with instate := .async } = self' ∧ m' = m ∧ true = release := by simpa using h
    exact ⟨hrecv, Or.inr ⟨gridAssert_eq_ok_iff.mp hreceiving, rfl, rfl⟩⟩

end Pipe

end GridMq.Core
