import GridMq.Aio.Timer
import Mathlib.Data.List.Basic

set_option autoImplicit false

/-!
# A worker and its timers (`src/aio/worker.c`, `src/aio/timerset.c`)

Machines post tasks to the queue of a worker.  The worker's thread takes the whole queue,
works through it task by task, and looks at its timeouts before it takes the next one.
Between taking a task or a timeout and entering the context it belongs to, other threads
may be in that context.
-/

namespace GridMq.Aio

/-- `struct grid_worker_task`: one of the two of a timer, or one of another machine. -/
inductive WorkerTask where
  | timer (t : Nat) (task : TimerTask)
  | other (n : Nat)
  deriving DecidableEq, Repr

/-- What `grid_worker_routine` has taken and not yet fed to its owner. -/
inductive Taken where
  | task (task : WorkerTask)
  | expired (t : Nat)
  deriving DecidableEq, Repr

/-- `struct grid_worker`, with the timers that chose it.  `batch` is the local copy of the
queue in `grid_worker_routine`. -/
structure Worker where
  timers : Nat → Timer := fun _ => {}
  tasks : List WorkerTask := []
  batch : List WorkerTask := []
  taken : Option Taken := none

namespace Worker

def setTimer (self : Worker) (t : Nat) (timer : Timer) : Worker :=
  { self with timers := fun u => if u = t then timer else self.timers u }

/-- `grid_timer_start`, with the task it posts. -/
def start (self : Worker) (t : Nat) (timeout : Int) : Except Abort Worker := do
  let timer ← (self.timers t).start false timeout
  return { self.setTimer t timer with tasks := self.tasks ++ [.timer t .startTask] }

/-- `grid_timer_stop`, with the task it posts. -/
def stop (self : Worker) (t : Nat) : Except Abort Worker :=
  if (self.timers t).fsm = .active then do
    let timer ← (self.timers t).stop
    return { self.setTimer t timer with tasks := self.tasks ++ [.timer t .stopTask] }
  else .ok self

/-- `grid_worker_execute` by another machine. -/
def execute (self : Worker) (n : Nat) : Except Abort Worker := do
  gridAssert (.other n ∉ self.batch ++ self.tasks)
  return { self with tasks := self.tasks ++ [.other n] }

/-- `grid_worker_cancel`, which does not reach the local copy. -/
def cancel (self : Worker) (n : Nat) : Worker :=
  { self with tasks := self.tasks.erase (.other n) }

/-- `grid_worker_routine` makes a local copy of the queue. -/
def takeTasks (self : Worker) : Worker := { self with batch := self.tasks, tasks := [] }

/-- `grid_worker_routine` takes the next task, which is in a queue no more. -/
def pop (self : Worker) : Worker :=
  match self.batch with
  | [] => self
  | task :: batch =>
      let self := { self with batch := batch, taken := some (.task task) }
      match task with
      | .timer t k =>
          self.setTimer t { self.timers t with tasks := (self.timers t).tasks.erase k }
      | .other _ => self

/-- `grid_timerset_event`: the timeout is in the set no more. -/
def expire (self : Worker) (t : Nat) : Worker :=
  { self.setTimer t { self.timers t with armed := false } with taken := some (.expired t) }

/-- What was taken is fed to its owner, and the event that the owner of a timer gets before
its context is left.  A timeout that is added to the set must not be there yet. -/
def feed (self : Worker) : Except Abort (Worker × Option (Nat × TimerEvent)) :=
  match self.taken with
  | none => .ok (self, none)
  | some (.task (.other _)) => .ok ({ self with taken := none }, none)
  | some (.task (.timer t k)) => do
      let timer := self.timers t
      gridAssert (k = .startTask ∧ timer.fsm = .active → timer.armed = false)
      let (timer, e) ← timer.feedTask k
      return ({ self.setTimer t timer with taken := none }, e.map fun e => (t, e))
  | some (.expired t) => do
      let (timer, e) ← (self.timers t).expire
      return ({ self.setTimer t timer with taken := none }, e.map fun e => (t, e))

end Worker

/-! ## The life of a timer, as its owner sees it -/

/-- What happens to a timer. -/
inductive TimerStep where
  | started
  /-- a stop of a running timer -/
  | stopRequested
  | timeout
  | stopped
  deriving DecidableEq, Repr

/-- Where a timer is for its owner. -/
inductive TimerPhase where
  | idle
  /-- started, and whether its timeout was delivered -/
  | running (fired : Bool)
  | stopping
  deriving DecidableEq, Repr

namespace TimerPhase

/-- The steps that may follow. -/
def next : TimerPhase → TimerStep → Option TimerPhase
  | .idle, .started => some (.running false)
  | .running false, .timeout => some (.running true)
  | .running _, .stopRequested => some .stopping
  | .stopping, .stopped => some .idle
  | _, _ => none

/-- The phase some steps lead to. -/
def after (phase : TimerPhase) : List TimerStep → Option TimerPhase
  | [] => some phase
  | e :: steps => (phase.next e).bind fun phase' => after phase' steps

theorem after_append {phase : TimerPhase} {steps steps' : List TimerStep} :
    phase.after (steps ++ steps') = (phase.after steps).bind fun phase' => phase'.after steps' := by
  induction steps generalizing phase with
  | nil => rfl
  | cons e steps ih =>
      rw [List.cons_append, after, after]
      cases phase.next e with
      | none => rfl
      | some phase' => exact ih

theorem after_concat {phase phase' phase'' : TimerPhase} {steps : List TimerStep} {e : TimerStep}
    (h : phase.after steps = some phase') (he : phase'.next e = some phase'') :
    phase.after (steps ++ [e]) = some phase'' := by
  rw [after_append, h]
  simp [after, he]

/-- Until it is started again, a timer that was asked to stop can only say that it has
stopped. -/
theorem started_of_timeout {phase phase' : TimerPhase} {steps : List TimerStep}
    (hphase : phase = .idle ∨ phase = .stopping ∨ phase = .running true)
    (h : phase.after (steps ++ [.timeout]) = some phase') : .started ∈ steps := by
  induction steps generalizing phase with
  | nil =>
      rcases hphase with rfl | rfl | rfl <;> simp [after, next] at h
  | cons e steps ih =>
      by_cases he : e = .started
      · exact he ▸ List.mem_cons_self
      · rw [List.cons_append, after] at h
        obtain ⟨middle, hnext, hrest⟩ := Option.bind_eq_some_iff.mp h
        refine List.mem_cons_of_mem e (ih ?_ hrest)
        rcases hphase with rfl | rfl | rfl <;> cases e <;> simp [next] at hnext he <;>
          simp [← hnext]

/-- Stops are answered once each. -/
theorem count_stopped {phase phase' : TimerPhase} {steps : List TimerStep}
    (h : phase.after steps = some phase') :
    steps.count .stopped + (if phase' = .stopping then 1 else 0) =
      steps.count .stopRequested + if phase = .stopping then 1 else 0 := by
  induction steps generalizing phase with
  | nil =>
      obtain rfl := Option.some.inj h
      rfl
  | cons e steps ih =>
      obtain ⟨middle, hnext, hrest⟩ := Option.bind_eq_some_iff.mp h
      have hcount := ih hrest
      cases phase with
      | idle =>
          cases e <;> simp [next] at hnext
          subst hnext
          simpa using hcount
      | stopping =>
          cases e <;> simp [next] at hnext
          subst hnext
          simp only [List.count_cons_self, reduceCtorEq, if_false, if_true] at hcount ⊢
          rw [List.count_cons_of_ne (by simp)]
          omega
      | running fired =>
          cases fired <;> cases e <;> simp [next] at hnext <;>
            (subst hnext; simp at hcount ⊢; omega)

end TimerPhase

end GridMq.Aio
