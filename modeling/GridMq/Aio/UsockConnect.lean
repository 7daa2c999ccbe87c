import GridMq.Aio.Ctx
import GridMq.Aio.UsockWork

set_option autoImplicit false

/-!
# Connecting a usock and stopping it (`src/aio/usock.c`)

A usock from its start to the point where it is connected or has failed, and what stopping
it comes to in any of its states.  What `socket`, `bind` and `connect` return is an
argument of the modelled calls.
-/

namespace GridMq.Aio

/-- What `connect` comes to: done, an error, or `EINPROGRESS`. -/
inductive Connect where
  | done
  | failed
  | inProgress
  deriving DecidableEq, Repr

namespace Usock

/-! ## Calls of the owner -/

/-- `grid_usock_isidle`. -/
def isIdle (self : Usock) (stoppedActive : Bool) : Bool :=
  self.fsm == .idle && !stoppedActive

/-- What `grid_usock_handler` makes of an action that is not foreseen in a state. -/
def unexpectedAction : UsockState → Abort
  | .removingFd => .badSource
  | .done => .badSource
  | .cancelling => .badSource
  | .stopping => .badState
  | .stoppingAccept => .badState
  | _ => .badAction

/-- `grid_usock_start`, where `ok` says whether `socket` gives a descriptor; `none` if it
does not. -/
def start (self : Usock) (stoppedActive : Bool) (ok : Bool) : Except Abort (Option Usock) :=
  if ok then do
    -- `grid_usock_init_from_fd`; its check of the state is always true
    gridAssert (self.fd = false)
    -- `grid_fsm_start`
    gridAssert (self.isIdle stoppedActive = true)
    match self.state with
    | .idle => return some { self with fd := true, state := .starting, fsm := .active }
    | state => .error (unexpectedAction state)
  else .ok none

/-- `grid_usock_setsockopt`. -/
def setsockopt (self : Usock) : Except Abort Unit :=
  gridAssert (self.state = .starting ∨ self.state = .accepted)

/-- `grid_usock_bind`, where `ok` says whether `bind` succeeds. -/
def bind (self : Usock) (ok : Bool) : Except Abort Bool := do
  gridAssert (self.state = .starting)
  return ok

/-- `grid_usock_connect`. -/
def connect (self : Usock) (result : Connect) : Except Abort (Usock × Option UsockEvent) :=
  match self.state with
  | .starting =>
      let self := { self with state := .connecting }
      match result with
      | .done => do
          let self ← { self with state := .active }.execute .connected
          return (self, some .connected)
      | .failed => .ok ({ self with fd := false, state := .done }, some .error)
      | .inProgress => do
          let self ← self.execute .connecting
          return (self, none)
  | state => .error (unexpectedAction state)

/-- The labels `finish1` and `finish2` of `grid_usock_shutdown`. -/
def finish (self : Usock) : Usock × Option UsockEvent :=
  ({ self with fd := false, state := .idle, fsm := .idle }, some .stopped)

/-- `grid_usock_stop`.  A usock that connects has no `asock`. -/
def stop (self : Usock) : Except Abort (Usock × Option UsockEvent) :=
  if self.fsm = .active then
    let self := { self with fsm := .stopping }
    match self.state with
    | .accepting => .error .assertion
    | .cancelling => .error .assertion
    | .idle => .ok (self, none)
    | .done => .ok self.finish
    | .starting => .ok self.finish
    | .accepted => .ok self.finish
    | .acceptingError => .ok self.finish
    | .listening => .ok self.finish
    | .beingAccepted => .error .nullPointer
    | .removingFd => .ok ({ self with state := .stopping }, none)
    | _ => do
        let self ← { self with state := .stopping }.execute .stop
        return (self, some .shutdown)
  else .ok (self, none)

/-! ## The worker -/

/-- The poller knows the descriptor. -/
def Watched (self : Usock) : Prop :=
  UsockTask.connecting ∉ self.tasks ∧ UsockTask.connected ∉ self.tasks

/-- When the worker can find something to do for a usock. -/
def Waits (self : Usock) (w : Work) : Prop := self.Ready w ∧ (w = .task ∨ self.Watched)

instance (self : Usock) : Decidable self.Watched := inferInstanceAs (Decidable (_ ∧ _))

instance (self : Usock) (w : Work) : Decidable (self.Waits w) :=
  inferInstanceAs (Decidable (_ ∧ _))

/-- The worker takes the next task of a usock that was asked to stop. -/
def shutdownTask (self : Usock) : Except Abort (Usock × Option UsockEvent) :=
  match self.tasks with
  | [] => .ok (self, none)
  | .stop :: tasks =>
      match self.state with
      | .stopping =>
          .ok { { self with tasks := tasks } with pollIn := false, pollOut := false }.finish
      | _ => .error .badState
  | task :: tasks => { self with tasks := tasks }.feedTask task

/-- A usock that was asked to stop ignores its descriptor. -/
def shutdownFd (self : Usock) : Except Abort (Usock × Option UsockEvent) :=
  match self.state with
  | .stopping => .ok (self, none)
  | _ => .error .badState

/-- The descriptor of a usock that connects: it is writable when the attempt has come to
an end, where `.reset` stands for an error in `SO_ERROR`. -/
def connectingFd (self : Usock) : Work → Except Abort (Usock × Option UsockEvent)
  | .task => self.runTask
  | .fdIn _ => .error .badAction
  | .fdOut (.bytes _) => .ok ({ self with pollOut := false, state := .active }, some .connected)
  | .fdOut .reset => .ok self.fdError
  | .fdErr => .ok self.fdError

/-- The worker feeds a usock. -/
def attempt (self : Usock) (w : Work) : Except Abort (Usock × Option UsockEvent) :=
  match self.fsm, self.state with
  | .stopping, _ => if w = .task then self.shutdownTask else self.shutdownFd
  | _, .connecting => self.connectingFd w
  | _, _ => do
      let r ← self.work [] w
      return (r.1, r.2.2.2)

/-! ## What it can be doing -/

variable {u : Usock} {q : List UsockEvent}

/-- Neither started nor known to the worker.  Tasks of an earlier connection may still be
in its queue. -/
structure Off (u : Usock) : Prop where
  fsm : u.fsm = .idle
  state : u.state = .idle
  fd : u.fd = false
  connecting : UsockTask.connecting ∉ u.tasks
  connected : UsockTask.connected ∉ u.tasks
  stop : UsockTask.stop ∉ u.tasks

/-- A connection attempt is under way. -/
structure Attempting (u : Usock) : Prop where
  fsm : u.fsm = .active
  state : u.state = .connecting
  fd : u.fd = true
  connected : UsockTask.connected ∉ u.tasks
  stop : UsockTask.stop ∉ u.tasks

/-- The attempt has succeeded, or nothing has broken since. -/
structure Live (u : Usock) : Prop where
  fsm : u.fsm = .active
  state : u.state = .active
  fd : u.fd = true
  connecting : UsockTask.connecting ∉ u.tasks
  stop : UsockTask.stop ∉ u.tasks

/-- A call has found the connection broken. -/
structure Removing (u : Usock) : Prop where
  fsm : u.fsm = .active
  state : u.state = .removingFd
  fd : u.fd = true
  tasks : ∃ pre, u.tasks = pre ++ [.stop] ∧ UsockTask.connecting ∉ pre ∧ UsockTask.stop ∉ pre

/-- The attempt has failed or the connection was given up. -/
structure Dead (u : Usock) : Prop where
  fsm : u.fsm = .active
  state : u.state = .done
  fd : u.fd = false
  connecting : UsockTask.connecting ∉ u.tasks
  connected : UsockTask.connected ∉ u.tasks
  stop : UsockTask.stop ∉ u.tasks

/-- The worker has to take the descriptor away. -/
structure Closing (u : Usock) : Prop where
  fsm : u.fsm = .stopping
  state : u.state = .stopping
  fd : u.fd = true
  tasks : ∃ pre, u.tasks = pre ++ [.stop] ∧ UsockTask.stop ∉ pre

/-- Between the start of an attempt and the moment its owner hears of the outcome. -/
def Trying (u : Usock) (q : List UsockEvent) : Prop :=
  u.Attempting ∧ q = [] ∨ u.Live ∧ q = [.connected] ∨ u.Dead ∧ q = [.error]

/-- In the hands of a session. -/
def Held (u : Usock) : Prop := u.Live ∨ u.Removing ∨ u.Dead

/-- Asked to stop. -/
def Stopping (u : Usock) (q : List UsockEvent) : Prop := Ending u.Closing u.Off .stopped q

instance (u : Usock) : Decidable u.Live :=
  decidable_of_iff (u.fsm = .active ∧ u.state = .active ∧ u.fd = true ∧
      UsockTask.connecting ∉ u.tasks ∧ UsockTask.stop ∉ u.tasks)
    ⟨fun ⟨h₁, h₂, h₃, h₄, h₅⟩ => ⟨h₁, h₂, h₃, h₄, h₅⟩,
      fun h => ⟨h.fsm, h.state, h.fd, h.connecting, h.stop⟩⟩

instance (u : Usock) : Decidable u.Dead :=
  decidable_of_iff (u.fsm = .active ∧ u.state = .done ∧ u.fd = false ∧
      UsockTask.connecting ∉ u.tasks ∧ UsockTask.connected ∉ u.tasks ∧ UsockTask.stop ∉ u.tasks)
    ⟨fun ⟨h₁, h₂, h₃, h₄, h₅, h₆⟩ => ⟨h₁, h₂, h₃, h₄, h₅, h₆⟩,
      fun h => ⟨h.fsm, h.state, h.fd, h.connecting, h.connected, h.stop⟩⟩

/-- The task that takes the descriptor away is the last one. -/
theorem exists_before_stop (tasks : List UsockTask) :
    (tasks.getLast? = some .stop ∧ UsockTask.connecting ∉ tasks.dropLast ∧
        UsockTask.stop ∉ tasks.dropLast) ↔
      ∃ pre, tasks = pre ++ [.stop] ∧ UsockTask.connecting ∉ pre ∧ UsockTask.stop ∉ pre := by
  constructor
  · rintro ⟨hlast, hconnecting, hstop⟩
    obtain ⟨pre, rfl⟩ := List.getLast?_eq_some_iff.mp hlast
    rw [List.dropLast_concat] at hconnecting hstop
    exact ⟨pre, rfl, hconnecting, hstop⟩
  · rintro ⟨pre, rfl, hconnecting, hstop⟩
    rw [List.dropLast_concat]
    exact ⟨List.getLast?_concat, hconnecting, hstop⟩

instance (u : Usock) : Decidable u.Removing :=
  decidable_of_iff (u.fsm = .active ∧ u.state = .removingFd ∧ u.fd = true ∧
      u.tasks.getLast? = some .stop ∧ UsockTask.connecting ∉ u.tasks.dropLast ∧
        UsockTask.stop ∉ u.tasks.dropLast)
    ⟨fun ⟨h₁, h₂, h₃, h₄⟩ => ⟨h₁, h₂, h₃, (exists_before_stop u.tasks).mp h₄⟩,
      fun h => ⟨h.fsm, h.state, h.fd, (exists_before_stop u.tasks).mpr h.tasks⟩⟩

instance (u : Usock) : Decidable u.Held := inferInstanceAs (Decidable (_ ∨ _ ∨ _))

theorem off_default : ({} : Usock).Off := ⟨rfl, rfl, rfl, by simp, by simp, by simp⟩

theorem Off.isIdle (h : u.Off) (stoppedActive : Bool) : u.isIdle stoppedActive = !stoppedActive := by
  simp [Usock.isIdle, h.fsm]

theorem Closing.isIdle (h : u.Closing) (stoppedActive : Bool) : u.isIdle stoppedActive = false := by
  simp [Usock.isIdle, h.fsm]

theorem execute_new {task : UsockTask} (h : task ∉ u.tasks) :
    u.execute task = .ok { u with tasks := u.tasks ++ [task] } := by
  rw [execute, gridAssert_pos h]
  rfl

/-! ## Attempts -/

/-- A usock that is off can be started; only `socket` decides. -/
theorem Off.start (h : u.Off) (ok : Bool) :
    u.start false ok =
      .ok (if ok then some { u with fd := true, state := .starting, fsm := .active } else none) := by
  cases ok with
  | false => rfl
  | true =>
      have hidle : u.isIdle false = true := by rw [h.isIdle]; rfl
      simp only [Usock.start, if_true, h.fd, hidle, h.state, gridAssert_pos, ok_bind, pure_eq_ok]

/-- From a usock that was started a connection attempt can be made. -/
theorem Off.connect (h : u.Off) (result : Connect) :
    ∃ u' e, { u with fd := true, state := .starting, fsm := .active }.connect result =
        .ok (u', e) ∧ u'.Trying e.toList := by
  cases result with
  | done =>
      refine ⟨{ u with
        fd := true, state := .active, fsm := .active, tasks := u.tasks ++ [.connected] },
        some .connected, ?_, Or.inr (Or.inl ⟨⟨rfl, rfl, rfl, ?_, ?_⟩, rfl⟩)⟩
      · have hnew := h.connected
        simp [Usock.connect, execute, hnew]
      · simp [h.connecting]
      · simp [h.stop]
  | failed =>
      refine ⟨{ u with fd := false, state := .done, fsm := .active }, some .error, rfl,
        Or.inr (Or.inr ⟨⟨rfl, rfl, rfl, h.connecting, h.connected, h.stop⟩, rfl⟩)⟩
  | inProgress =>
      refine ⟨{ u with
        fd := true, state := .connecting, fsm := .active, tasks := u.tasks ++ [.connecting] },
        none, ?_, Or.inl ⟨⟨rfl, rfl, rfl, ?_, ?_⟩, rfl⟩⟩
      · have hnew := h.connecting
        simp [Usock.connect, execute, hnew]
      · simp [h.connected]
      · simp [h.stop]

/-- A task that does not take the descriptor away concerns the poller only. -/
theorem feedTask_polls {task : UsockTask} (htask : task ≠ .stop) :
    ∃ u', u.feedTask task = .ok (u', none) ∧ u'.fsm = u.fsm ∧ u'.state = u.state ∧
      u'.fd = u.fd ∧ u'.tasks = u.tasks := by
  cases task with
  | stop => exact absurd rfl htask
  | connecting => exact ⟨_, rfl, rfl, rfl, rfl, rfl⟩
  | connected => exact ⟨_, rfl, rfl, rfl, rfl, rfl⟩
  | accept => exact ⟨_, rfl, rfl, rfl, rfl, rfl⟩
  | send => exact ⟨_, rfl, rfl, rfl, rfl, rfl⟩
  | recv => exact ⟨_, rfl, rfl, rfl, rfl, rfl⟩

/-- The worker leads an attempt to its outcome. -/
theorem attempt_trying {w : Work} {u' : Usock} {e : Option UsockEvent} (h : u.Attempting)
    (hw : u.Waits w) (hcall : u.attempt w = .ok (u', e)) : u'.Trying e.toList := by
  obtain ⟨hready, hwatched⟩ := hw
  simp only [attempt, h.fsm, h.state] at hcall
  cases w with
  | task =>
      simp only [connectingFd, runTask] at hcall
      cases htasks : u.tasks with
      | nil => exact absurd htasks hready
      | cons task tasks =>
          rw [htasks] at hcall
          have hstop := h.stop
          have hconnected := h.connected
          rw [htasks] at hstop hconnected
          have hne : task ≠ .stop := fun ht => hstop (ht ▸ List.mem_cons_self)
          obtain ⟨v, hv, hfsm, hstate, hfd, htasks'⟩ :=
            feedTask_polls (u := { u with tasks := tasks }) hne
          simp only [hv] at hcall
          cases hcall
          refine Or.inl ⟨⟨hfsm.trans h.fsm, hstate.trans h.state, hfd.trans h.fd, ?_, ?_⟩, rfl⟩
          · rw [htasks']
            exact fun ht => hconnected (List.mem_cons_of_mem _ ht)
          · rw [htasks']
            exact fun ht => hstop (List.mem_cons_of_mem _ ht)
  | fdIn io => exact absurd hcall (by simp [connectingFd])
  | fdOut io =>
      have hknown : u.Watched := hwatched.resolve_left (by simp)
      cases io with
      | bytes n =>
          cases hcall
          exact Or.inr (Or.inl ⟨⟨h.fsm, rfl, h.fd, hknown.1, h.stop⟩, rfl⟩)
      | reset =>
          cases hcall
          exact Or.inr (Or.inr ⟨⟨h.fsm, rfl, rfl, hknown.1, hknown.2, h.stop⟩, rfl⟩)
  | fdErr =>
      have hknown : u.Watched := hwatched.resolve_left (by simp)
      cases hcall
      exact Or.inr (Or.inr ⟨⟨h.fsm, rfl, rfl, hknown.1, hknown.2, h.stop⟩, rfl⟩)

/-! ## Sessions -/

theorem Live.held (h : u.Live) : u.Held := Or.inl h

theorem Dead.held (h : u.Dead) : u.Held := Or.inr (Or.inr h)

/-- The next task of a usock whose descriptor is not to be taken away yet. -/
theorem runTask_polls {task : UsockTask} {tasks : List UsockTask}
    (htasks : u.tasks = task :: tasks) (htask : task ≠ .stop) :
    ∃ u', u.runTask = .ok (u', none) ∧ u'.fsm = u.fsm ∧ u'.state = u.state ∧
      u'.fd = u.fd ∧ u'.tasks = tasks := by
  obtain ⟨v, hv, hfsm, hstate, hfd, htasks'⟩ :=
    feedTask_polls (u := { u with tasks := tasks }) htask
  exact ⟨v, by simp only [runTask, htasks, hv], hfsm, hstate, hfd, htasks'⟩

/-- The next of the tasks that are left from a connection that is gone. -/
theorem runTask_leftover {task : UsockTask} {tasks : List UsockTask}
    (htasks : u.tasks = task :: tasks) (hconnecting : UsockTask.connecting ∉ u.tasks)
    (hconnected : UsockTask.connected ∉ u.tasks) (hstop : UsockTask.stop ∉ u.tasks) :
    ∃ u', u.runTask = .ok (u', none) ∧ u'.fsm = u.fsm ∧ u'.state = u.state ∧ u'.fd = u.fd ∧
      u'.tasks = tasks ∧ UsockTask.connecting ∉ u'.tasks ∧ UsockTask.connected ∉ u'.tasks ∧
      UsockTask.stop ∉ u'.tasks := by
  rw [htasks] at hconnecting hconnected hstop
  have hne : task ≠ .stop := fun ht => hstop (ht ▸ List.mem_cons_self)
  obtain ⟨v, hv, hfsm, hstate, hfd, htasks'⟩ := runTask_polls htasks hne
  refine ⟨v, hv, hfsm, hstate, hfd, htasks', ?_, ?_, ?_⟩
  · rw [htasks']
    exact fun ht => hconnecting (List.mem_cons_of_mem _ ht)
  · rw [htasks']
    exact fun ht => hconnected (List.mem_cons_of_mem _ ht)
  · rw [htasks']
    exact fun ht => hstop (List.mem_cons_of_mem _ ht)

/-! ## Stopping -/

theorem Off.stop_eq (h : u.Off) : Usock.stop u = .ok (u, none) := by
  simp [Usock.stop, h.fsm]

theorem Closing.stop_eq (h : u.Closing) : Usock.stop u = .ok (u, none) := by
  simp [Usock.stop, h.fsm]

theorem Dead.stop_eq (h : u.Dead) : Usock.stop u = .ok u.finish := by
  simp [Usock.stop, h.fsm, h.state, finish]

theorem Dead.off_finish (h : u.Dead) : u.finish.1.Off :=
  ⟨rfl, rfl, rfl, h.connecting, h.connected, h.stop⟩

/-- A usock that has a descriptor asks the worker to take it away. -/
theorem stop_spec_of_fd (hfsm : u.fsm = .active)
    (hstate : u.state = .connecting ∨ u.state = .active) (hfd : u.fd = true)
    (hstop : UsockTask.stop ∉ u.tasks) :
    ∃ u', Usock.stop u = .ok (u', some .shutdown) ∧ u'.Closing ∧
      u'.tasks = u.tasks ++ [.stop] := by
  refine ⟨{ u with fsm := .stopping, state := .stopping, tasks := u.tasks ++ [.stop] }, ?_,
    ⟨rfl, rfl, hfd, u.tasks, rfl, hstop⟩, rfl⟩
  rcases hstate with hstate | hstate <;> simp [Usock.stop, hfsm, hstate, execute, hstop]

/-- Stopping an attempt. -/
theorem stop_trying (h : u.Trying q) :
    ∃ u' e, Usock.stop u = .ok (u', e) ∧ u'.Stopping (q ++ e.toList) ∧
      (∀ i ∈ e, item i ∉ q.map item) := by
  rcases h with ⟨h, rfl⟩ | ⟨h, rfl⟩ | ⟨h, rfl⟩
  · obtain ⟨u', hcall, hclosing, -⟩ := stop_spec_of_fd h.fsm (Or.inl h.state) h.fd h.stop
    exact ⟨u', _, hcall, Ending.still hclosing (by simp), by simp⟩
  · obtain ⟨u', hcall, hclosing, -⟩ := stop_spec_of_fd h.fsm (Or.inr h.state) h.fd h.stop
    exact ⟨u', _, hcall, Ending.still hclosing (by simp), by simp [item]⟩
  · exact ⟨_, _, h.stop_eq, Ending.raised h.off_finish (by simp), by simp [item]⟩

/-- Stopping a usock that a session has given back. -/
theorem stop_held (h : u.Held) :
    ∃ u' e, Usock.stop u = .ok (u', e) ∧ u'.Stopping e.toList ∧
      (e = none ∨ e = some .shutdown ∨ e = some .stopped) ∧
      2 * u'.tasks.length + e.toList.length ≤ 2 * u.tasks.length + 3 := by
  rcases h with h | h | h
  · obtain ⟨u', hcall, hclosing, htasks⟩ :=
      stop_spec_of_fd h.fsm (Or.inr h.state) h.fd h.stop
    refine ⟨u', _, hcall, Ending.still hclosing (by simp), Or.inr (Or.inl rfl), ?_⟩
    simp only [htasks, List.length_append, Option.toList_some, List.length_singleton]
    omega
  · obtain ⟨pre, htasks, -, hstop⟩ := h.tasks
    refine ⟨{ u with fsm := .stopping, state := .stopping }, none, ?_,
      Ending.still ⟨rfl, rfl, h.fd, pre, htasks, hstop⟩ (by simp), Or.inl rfl, by simp⟩
    simp [Usock.stop, h.fsm, h.state]
  · exact ⟨_, _, h.stop_eq, Ending.raised (q := []) h.off_finish (by simp),
      Or.inr (Or.inr rfl), by simp⟩

/-- The worker takes the tasks of a usock that was asked to stop, the last of which takes
the descriptor away. -/
theorem attempt_closing_task (h : u.Closing) :
    ∃ u' e, u.attempt .task = .ok (u', e) ∧ u'.Stopping e.toList ∧
      (e = none ∨ e = some .stopped) ∧ u'.tasks.length + 1 = u.tasks.length := by
  obtain ⟨pre, htasks, hstop⟩ := h.tasks
  have hattempt : u.attempt .task = u.shutdownTask := by simp [attempt, h.fsm]
  rw [hattempt]
  unfold shutdownTask
  cases pre with
  | nil =>
      refine ⟨{ u with tasks := [], pollIn := false, pollOut := false }.finish.1, some .stopped,
        by simp only [htasks, List.nil_append, h.state, finish], ?_, Or.inr rfl, ?_⟩
      · exact Ending.raised (q := []) ⟨rfl, rfl, rfl, by simp [finish], by simp [finish],
          by simp [finish]⟩ (by simp)
      · simp [finish, htasks]
  | cons task pre =>
      have hne : task ≠ .stop := fun ht => hstop (ht ▸ List.mem_cons_self)
      obtain ⟨v, hv, hfsm, hstate, hfd, htasks'⟩ :=
        feedTask_polls (u := { u with tasks := pre ++ [.stop] }) hne
      refine ⟨v, none, ?_, Ending.still ⟨hfsm.trans h.fsm, hstate.trans h.state, hfd.trans h.fd,
        pre, htasks', fun ht => hstop (List.mem_cons_of_mem _ ht)⟩ (by simp), Or.inl rfl, ?_⟩
      · rw [htasks, List.cons_append]
        cases task with
        | stop => exact absurd rfl hne
        | _ => exact hv
      · simp [htasks', htasks]

/-- Its descriptor is ignored. -/
theorem attempt_closing_fd {w : Work} (h : u.Closing) (hw : w ≠ .task) :
    u.attempt w = .ok (u, none) := by
  simp [attempt, h.fsm, hw, shutdownFd, h.state]

theorem ready_of_closing (h : u.Closing) : u.Waits .task := by
  obtain ⟨pre, htasks, -⟩ := h.tasks
  exact ⟨by simp [Ready, htasks], Or.inl rfl⟩

/-- For a usock that is off the worker has no more than the tasks of an earlier connection. -/
theorem attempt_off {w : Work} {u' : Usock} {e : Option UsockEvent} (h : u.Off) (hw : u.Waits w)
    (hcall : u.attempt w = .ok (u', e)) :
    w = .task ∧ e = none ∧ u'.Off ∧ u'.tasks.length + 1 = u.tasks.length := by
  simp only [attempt, h.fsm, h.state] at hcall
  obtain ⟨s, hs, hret⟩ := bind_eq_ok_iff.mp hcall
  cases hret
  cases w with
  | task =>
      obtain ⟨t, ht, hret⟩ := bind_eq_ok_iff.mp hs
      cases hret
      cases htasks : u.tasks with
      | nil => exact absurd htasks hw.1
      | cons task tasks =>
          obtain ⟨v, hv, hfsm, hstate, hfd, htasks', hconnecting, hconnected, hstop⟩ :=
            runTask_leftover htasks h.connecting h.connected h.stop
          rw [hv] at ht
          cases ht
          refine ⟨rfl, rfl, ⟨hfsm.trans h.fsm, hstate.trans h.state, hfd.trans h.fd, hconnecting,
            hconnected, hstop⟩, ?_⟩
          rw [htasks', List.length_cons]
  | fdIn io => simp [work, fdIn, h.state] at hs
  | fdOut io => simp [work, fdOut, h.state] at hs
  | fdErr => simp [work, fdErr, h.state] at hs

end Usock

end GridMq.Aio
