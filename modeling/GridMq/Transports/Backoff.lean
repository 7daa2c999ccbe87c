import GridMq.Aio.Ctx
import GridMq.Aio.Timer
import Mathlib.Data.Int.ModEq

set_option autoImplicit false

/-!
# Waiting before a retry (`src/transports/utils/backoff.c`)

A timer that is started with intervals that grow up to a maximum.
-/

namespace GridMq.Transports

open GridMq.Aio

/-- The value of a C `int` after an operation on it. -/
def wrapInt (n : Int) : Int := n.bmod (2 ^ 32)

/-- `struct grid_backoff`. -/
structure Backoff where
  timer : Timer := {}
  minivl : Int
  maxivl : Int
  n : Int := 1
  deriving DecidableEq, Repr

namespace Backoff

/-- `grid_backoff_isidle`. -/
def isIdle (self : Backoff) (stoppedActive : Bool) : Bool := self.timer.isIdle stoppedActive

/-- The product in `grid_backoff_start`. -/
def interval (self : Backoff) : Int := wrapInt (wrapInt (self.n - 1) * self.minivl)

/-- The timeout that `grid_backoff_start` starts the timer with. -/
def timeout (self : Backoff) : Int :=
  if self.interval > self.maxivl then self.maxivl else self.interval

/-- `grid_backoff_start`. -/
def start (self : Backoff) (stoppedActive : Bool) : Except Abort Backoff := do
  let timer ← self.timer.start stoppedActive self.timeout
  return { self with
    timer := timer
    n := if self.interval > self.maxivl then self.n else wrapInt (self.n * 2) }

/-- `grid_backoff_stop`. -/
def stop (self : Backoff) : Except Abort Backoff := do
  let timer ← self.timer.stop
  return { self with timer := timer }

/-- What the worker finds to do: a task of the timer, or its timeout that expires. -/
inductive Work where
  | task
  | expire
  deriving DecidableEq, Repr

/-- When it can find that. -/
def Ready (self : Backoff) : Work → Prop
  | .task => self.timer.tasks ≠ []
  | .expire => self.timer.armed = true

instance (self : Backoff) (w : Work) : Decidable (self.Ready w) :=
  match w with
  | .task => inferInstanceAs (Decidable (_ ≠ _))
  | .expire => inferInstanceAs (Decidable (_ = _))

/-- The worker does it: the event for the owner. -/
def work (self : Backoff) : Work → Except Abort (Backoff × Option TimerEvent)
  | .task => do
      let r ← self.timer.runTask
      return ({ self with timer := r.1 }, r.2)
  | .expire => do
      let r ← self.timer.expire
      return ({ self with timer := r.1 }, r.2)

/-! ## What it can be doing -/

variable {b : Backoff} {q : List TimerEvent}

/-- Started; that the time has passed may be in the queue. -/
def Waiting (b : Backoff) (q : List TimerEvent) : Prop :=
  b.timer.Running ∧ (q = [] ∨ q = [.timeout] ∧ b.timer.tasks = [] ∧ b.timer.armed = false)

/-- Asked to stop. -/
def Stopping (b : Backoff) (q : List TimerEvent) : Prop :=
  Ending b.timer.Stopping b.timer.Quiet .stopped q

theorem isIdle_quiet (h : b.timer.Quiet) (stoppedActive : Bool) :
    b.isIdle stoppedActive = !stoppedActive := by
  simp [isIdle, Timer.isIdle, h.1]

theorem isIdle_of_stopping (h : b.timer.Stopping) (stoppedActive : Bool) :
    b.isIdle stoppedActive = false := by
  simp [isIdle, Timer.isIdle, h.1]

theorem start_spec (h : b.timer.Quiet) (htime : 0 ≤ b.timeout) :
    ∃ b', b.start false = .ok b' ∧ b'.Waiting [] := by
  obtain ⟨t, ht, hrunning⟩ := Timer.start_spec h htime
  refine ⟨{ b with
    timer := t
    n := if b.interval > b.maxivl then b.n else wrapInt (b.n * 2) }, ?_, hrunning, Or.inl rfl⟩
  simp only [start, ht, ok_bind, pure_eq_ok]

theorem stop_waiting (h : b.Waiting q) : ∃ b', b.stop = .ok b' ∧ b'.Stopping q := by
  obtain ⟨t, ht, hstopping⟩ := Timer.stop_running h.1
  refine ⟨{ b with timer := t }, by simp only [stop, ht, ok_bind, pure_eq_ok], ?_⟩
  apply Ending.still hstopping
  rcases h.2 with rfl | ⟨rfl, -⟩ <;> simp

/-- Stopping a backoff that is not waiting does nothing. -/
theorem stop_of_not_active (h : b.timer.fsm ≠ .active) : b.stop = .ok b := by
  simp only [stop, Timer.stop_of_not_active h, ok_bind, pure_eq_ok]

theorem work_waiting {w : Work} (h : b.Waiting []) (hw : b.Ready w) :
    ∃ b' e, b.work w = .ok (b', e) ∧ b'.Waiting e.toList := by
  obtain ⟨hrunning, -⟩ := h
  cases w with
  | task =>
      obtain ⟨t, ht, hrunning'⟩ := Timer.runTask_running hrunning
      refine ⟨{ b with timer := t }, none, ?_, hrunning', Or.inl rfl⟩
      simp only [work, ht, ok_bind, pure_eq_ok]
  | expire =>
      obtain ⟨hfsm, hstate, ⟨-, hoff, -⟩ | ⟨htasks, htime⟩⟩ := hrunning
      · exact absurd (hoff.symm.trans hw) (by simp)
      · refine ⟨{ b with timer := { b.timer with armed := false } }, some .timeout, ?_,
          ⟨hfsm, hstate, Or.inr ⟨htasks, htime⟩⟩, Or.inr ⟨rfl, htasks, rfl⟩⟩
        simp [work, Timer.expire, hfsm, hstate, htime]

/-- What is left to do before it rests. -/
def load (b : Backoff) : Nat := 2 * b.timer.tasks.length + b.timer.armed.toNat

theorem work_stopping {w : Work} (h : b.timer.Stopping) (hw : b.Ready w) :
    ∃ b' e, b.work w = .ok (b', e) ∧ b'.Stopping e.toList ∧ (e = none ∨ e = some .stopped) ∧
      b'.load + e.toList.length < b.load := by
  cases w with
  | task =>
      obtain ⟨hfsm, hstate, ⟨htasks, harmed⟩ | htasks⟩ := h
      · refine ⟨{ b with timer := { b.timer with tasks := [.stopTask] } }, none, ?_,
          Ending.still ⟨hfsm, hstate, Or.inr rfl⟩ (by simp), Or.inl rfl, ?_⟩
        · simp [work, Timer.runTask, htasks, Timer.feedTask, hfsm, hstate]
        · simp [load, htasks]
      · refine ⟨{ b with timer := { b.timer with
            tasks := [], armed := false, state := .idle, fsm := .idle } }, some .stopped, ?_,
          Ending.raised (q := []) ⟨rfl, rfl, rfl, rfl⟩ (by simp), Or.inr rfl, ?_⟩
        · simp [work, Timer.runTask, htasks, Timer.feedTask, hfsm, hstate]
        · simp only [load, htasks, List.length_nil, List.length_singleton, Option.toList_some,
            Bool.toNat_false]
          omega
  | expire =>
      obtain ⟨hfsm, hstate, htasks⟩ := h
      have harmed : b.timer.armed = true := hw
      refine ⟨{ b with timer := { b.timer with armed := false } }, none, ?_,
        Ending.still ⟨hfsm, hstate, htasks.imp (fun h => ⟨h.1, rfl⟩) id⟩ (by simp),
        Or.inl rfl, ?_⟩
      · simp [work, Timer.expire, hfsm, hstate]
      · simp [load, harmed]

/-- While it is stopping the worker has a task of it. -/
theorem ready_of_stopping (h : b.timer.Stopping) : b.Ready .task := by
  obtain ⟨-, -, ⟨htasks, -⟩ | htasks⟩ := h <;> simp [Ready, htasks]

theorem not_ready_of_quiet (h : b.timer.Quiet) (w : Work) : ¬b.Ready w := by
  cases w with
  | task => exact fun hw => hw h.2.2.1
  | expire => exact fun hw => absurd (h.2.2.2.symm.trans hw) (by simp)

end Backoff

end GridMq.Transports
