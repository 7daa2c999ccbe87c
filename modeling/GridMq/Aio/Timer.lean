import GridMq.Utils.Err

set_option autoImplicit false

/-!
# The timer state machine (`src/aio/timer.c`, with `src/aio/fsm.c`)

A timer is started and stopped by its owner; a worker thread carries out both by
tasks it takes from its queue in order, and reports the expiration.  Events for
the owner are returned to the caller, which raises them in its context.
-/

namespace GridMq.Aio

/-- `GRID_FSM_STATE_*`. -/
inductive FsmState where
  | idle | active | stopping
  deriving DecidableEq, Repr

/-- `GRID_TIMER_STATE_*`. -/
inductive TimerState where
  | idle | active | stopping
  deriving DecidableEq, Repr

/-- The tasks a timer has the worker execute. -/
inductive TimerTask where
  | startTask | stopTask
  deriving DecidableEq, Repr

/-- `GRID_TIMER_TIMEOUT` and `GRID_TIMER_STOPPED`. -/
inductive TimerEvent where
  | timeout | stopped
  deriving DecidableEq, Repr

/-- `struct grid_timer`, with its tasks in the worker's queue and whether its
`wtimer` is in the worker's set of timeouts. -/
structure Timer where
  fsm : FsmState := .idle
  state : TimerState := .idle
  timeout : Int := -1
  tasks : List TimerTask := []
  armed : Bool := false
  deriving DecidableEq, Repr

namespace Timer

/-- `grid_worker_execute`.  A task that is queued already fails an assertion of
`grid_queue_push`. -/
def execute (self : Timer) (task : TimerTask) : Except Abort Timer := do
  gridAssert (task ∉ self.tasks)
  return { self with tasks := self.tasks ++ [task] }

/-- `grid_timer_isidle`; `stoppedActive` says whether the STOPPED event is still
in the queue of the context. -/
def isIdle (self : Timer) (stoppedActive : Bool) : Bool :=
  self.fsm == .idle && !stoppedActive

/-- `grid_timer_start`. -/
def start (self : Timer) (stoppedActive : Bool) (timeout : Int) : Except Abort Timer := do
  gridAssert (timeout ≥ 0)
  let self := { self with timeout := timeout }
  gridAssert (self.isIdle stoppedActive)
  -- `grid_timer_handler` with the START action
  match self.state with
  | .idle =>
      let self ← { self with state := .active }.execute .startTask
      return { self with fsm := .active }
  | .active => .error .badSource
  | .stopping => .error .badState

/-- `grid_timer_stop`. -/
def stop (self : Timer) : Except Abort Timer :=
  if self.fsm = .active then
    { self with fsm := .stopping, state := .stopping }.execute .stopTask
  else .ok self

/-- The worker feeds a task to the timer. -/
def feedTask (self : Timer) (task : TimerTask) : Except Abort (Timer × Option TimerEvent) :=
  match self.fsm with
  | .stopping =>
      -- `grid_timer_shutdown`
      match self.state with
      | .stopping =>
          match task with
          | .startTask => .ok (self, none)
          | .stopTask =>
              .ok ({ self with armed := false, state := .idle, fsm := .idle }, some .stopped)
      | _ => .error .badState
  | _ =>
      -- `grid_timer_handler`
      match self.state with
      | .idle => .error .badSource
      | .active =>
          match task with
          | .startTask => do
              gridAssert (self.timeout ≥ 0)
              return ({ self with armed := true, timeout := -1 }, none)
          | .stopTask => .error .badSource
      | .stopping => .error .badState

/-- The worker takes the next task from its queue. -/
def runTask (self : Timer) : Except Abort (Timer × Option TimerEvent) :=
  match self.tasks with
  | [] => .ok (self, none)
  | task :: tasks => { self with tasks := tasks }.feedTask task

/-- The timeout expires: the worker takes it out of its set and feeds it to the
timer. -/
def expire (self : Timer) : Except Abort (Timer × Option TimerEvent) :=
  let self := { self with armed := false }
  match self.fsm with
  | .stopping =>
      match self.state with
      | .stopping => .ok (self, none)
      | _ => .error .badState
  | _ =>
      match self.state with
      | .idle => .error .badSource
      | .active => do
          gridAssert (self.timeout = -1)
          return (self, some .timeout)
      | .stopping => .error .badState

/-! ## What a timer can be doing -/

/-- Nothing is going on in the timer or in the worker. -/
def Quiet (t : Timer) : Prop :=
  t.fsm = .idle ∧ t.state = .idle ∧ t.tasks = [] ∧ t.armed = false

/-- Started and not asked to stop.  The worker may not have seen the start yet. -/
def Running (t : Timer) : Prop :=
  t.fsm = .active ∧ t.state = .active ∧
    (t.tasks = [.startTask] ∧ t.armed = false ∧ 0 ≤ t.timeout ∨ t.tasks = [] ∧ t.timeout = -1)

/-- Asked to stop; the worker has still to carry it out. -/
def Stopping (t : Timer) : Prop :=
  t.fsm = .stopping ∧ t.state = .stopping ∧
    (t.tasks = [.startTask, .stopTask] ∧ t.armed = false ∨ t.tasks = [.stopTask])

theorem quiet_default : ({} : Timer).Quiet := ⟨rfl, rfl, rfl, rfl⟩

theorem start_spec {t : Timer} {timeout : Int} (h : t.Quiet) (htime : 0 ≤ timeout) :
    ∃ t', t.start false timeout = .ok t' ∧ t'.Running := by
  obtain ⟨hfsm, hstate, htasks, harmed⟩ := h
  have hidle : t.isIdle false = true := by simp [isIdle, hfsm]
  refine ⟨{ t with timeout := timeout, state := .active, tasks := [.startTask], fsm := .active },
    ?_, rfl, rfl, Or.inl ⟨rfl, harmed, htime⟩⟩
  simp [start, gridAssert, htime, isIdle, hfsm, hstate, execute, htasks]

theorem stop_running {t : Timer} (h : t.Running) : ∃ t', t.stop = .ok t' ∧ t'.Stopping := by
  obtain ⟨hfsm, -, ⟨htasks, harmed, -⟩ | ⟨htasks, -⟩⟩ := h
  · refine ⟨{ t with fsm := .stopping, state := .stopping, tasks := [.startTask, .stopTask] },
      ?_, rfl, rfl, Or.inl ⟨rfl, harmed⟩⟩
    simp [stop, hfsm, execute, htasks]
  · refine ⟨{ t with fsm := .stopping, state := .stopping, tasks := [.stopTask] },
      ?_, rfl, rfl, Or.inr rfl⟩
    simp [stop, hfsm, execute, htasks]

/-- Stopping a timer that is not running does nothing. -/
theorem stop_of_not_active {t : Timer} (h : t.fsm ≠ .active) : t.stop = .ok t := by
  simp [stop, h]

theorem runTask_running {t : Timer} (h : t.Running) :
    ∃ t', t.runTask = .ok (t', none) ∧ t'.Running := by
  obtain ⟨hfsm, hstate, ⟨htasks, -, htime⟩ | ⟨htasks, htime⟩⟩ := h
  · refine ⟨{ t with tasks := [], armed := true, timeout := -1 }, ?_, hfsm, hstate,
      Or.inr ⟨rfl, rfl⟩⟩
    simp [runTask, htasks, feedTask, hfsm, hstate, htime]
  · exact ⟨t, by simp [runTask, htasks], hfsm, hstate, Or.inr ⟨htasks, htime⟩⟩

theorem runTask_stopping {t : Timer} (h : t.Stopping) :
    (∃ t', t.runTask = .ok (t', none) ∧ t'.Stopping) ∨
      ∃ t', t.runTask = .ok (t', some .stopped) ∧ t'.Quiet := by
  obtain ⟨hfsm, hstate, ⟨htasks, harmed⟩ | htasks⟩ := h
  · refine Or.inl ⟨{ t with tasks := [.stopTask] }, ?_, hfsm, hstate, Or.inr rfl⟩
    simp [runTask, htasks, feedTask, hfsm, hstate]
  · refine Or.inr ⟨{ t with tasks := [], armed := false, state := .idle, fsm := .idle }, ?_,
      rfl, rfl, rfl, rfl⟩
    simp [runTask, htasks, feedTask, hfsm, hstate]

theorem expire_running {t : Timer} (h : t.Running) (harmed : t.armed = true) :
    ∃ t', t.expire = .ok (t', some .timeout) ∧ t'.Running := by
  obtain ⟨hfsm, hstate, ⟨-, hoff, -⟩ | ⟨htasks, htime⟩⟩ := h
  · rw [harmed] at hoff
    exact absurd hoff (by simp)
  · refine ⟨{ t with armed := false }, ?_, hfsm, hstate, Or.inr ⟨htasks, htime⟩⟩
    simp [expire, hfsm, hstate, htime]

theorem expire_stopping {t : Timer} (h : t.Stopping) :
    ∃ t', t.expire = .ok (t', none) ∧ t'.Stopping := by
  obtain ⟨hfsm, hstate, htasks⟩ := h
  refine ⟨{ t with armed := false }, ?_, hfsm, hstate, ?_⟩
  · simp [expire, hfsm, hstate]
  · exact htasks.imp (fun h => ⟨h.1, rfl⟩) id

end Timer

end GridMq.Aio
