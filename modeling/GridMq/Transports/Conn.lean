import GridMq.Aio.UsockConnect
import GridMq.Transports.Backoff
import GridMq.Transports.Dns
import GridMq.Transports.Epbase

set_option autoImplicit false

/-!
# The machines of a connecting endpoint (`src/transports/ipc/cipc.c`, `src/transports/tcp/ctcp.c`)

A usock that connects, a session that uses it once it is connected, and the timer that
paces the retries.  The session is modelled as the endpoint sees it: it holds the usock
from its start until it has stopped, and may report an error once.
-/

namespace GridMq.Transports

open GridMq.Aio

/-! ## Sessions -/

/-- `GRID_SIPC_ERROR` and `GRID_SIPC_STOPPED`, or `GRID_STCP_ERROR` and
`GRID_STCP_STOPPED`. -/
inductive SessionEvent where
  | error | stopped
  deriving DecidableEq, Repr

/-- `struct grid_sipc` or `struct grid_stcp`, as seen by the endpoint. -/
structure SessionFsm where
  fsm : FsmState := .idle
  /-- `usock` and `usock_owner` are set -/
  usock : Bool := false
  /-- in the DONE state: ERROR was raised -/
  done : Bool := false
  deriving DecidableEq, Repr

namespace SessionFsm

/-- `grid_sipc_isidle`. -/
def isIdle (self : SessionFsm) (stoppedActive : Bool) : Bool :=
  self.fsm == .idle && !stoppedActive

/-- `grid_sipc_start`. -/
def start (self : SessionFsm) (stoppedActive : Bool) : Except Abort SessionFsm := do
  gridAssert (self.usock = false)
  gridAssert (self.isIdle stoppedActive = true)
  return { fsm := .active, usock := true, done := false }

/-- `grid_sipc_stop`. -/
def stop (self : SessionFsm) : SessionFsm :=
  if self.fsm = .active then { self with fsm := .stopping } else self

/-- The session comes to its DONE state. -/
def fail (self : SessionFsm) : SessionFsm × SessionEvent := ({ self with done := true }, .error)

/-- The end of `grid_sipc_shutdown`, once `streamhdr` is idle. -/
def finish (self : SessionFsm) : SessionFsm × SessionEvent :=
  ({ self with fsm := .idle, usock := false }, .stopped)

/-- Not started. -/
structure Idle (s : SessionFsm) : Prop where
  fsm : s.fsm = .idle
  usock : s.usock = false

/-- Started; that it has failed may be in the queue. -/
structure Running (s : SessionFsm) (q : List SessionEvent) : Prop where
  fsm : s.fsm = .active
  usock : s.usock = true
  report : s.done = false ∧ q = [] ∨ s.done = true ∧ q = [.error]

/-- On its way to stop. -/
structure Leaving (s : SessionFsm) : Prop where
  fsm : s.fsm = .stopping
  usock : s.usock = true

/-- Asked to stop. -/
def Stopping (s : SessionFsm) (q : List SessionEvent) : Prop := Ending s.Leaving s.Idle .stopped q

variable {s : SessionFsm}

theorem Idle.isIdle (h : s.Idle) (stoppedActive : Bool) :
    s.isIdle stoppedActive = !stoppedActive := by
  simp [SessionFsm.isIdle, h.fsm]

theorem Leaving.isIdle (h : s.Leaving) (stoppedActive : Bool) :
    s.isIdle stoppedActive = false := by
  simp [SessionFsm.isIdle, h.fsm]

theorem Idle.start (h : s.Idle) :
    s.start false = .ok { fsm := .active, usock := true, done := false } := by
  have hidle : s.isIdle false = true := by rw [h.isIdle]; rfl
  rw [SessionFsm.start, gridAssert_pos h.usock, ok_bind, gridAssert_pos hidle]
  rfl

end SessionFsm

/-! ## Events -/

/-- The events an endpoint hears of, by the machine they come from. -/
inductive Event where
  | usock (e : UsockEvent)
  | session (e : SessionEvent)
  | retry (e : TimerEvent)
  | dns (e : DnsEvent)
  deriving DecidableEq, Repr

/-- The `struct grid_fsm_event` of the machines. -/
inductive Item where
  | usock (i : Usock.Item)
  | session (e : SessionEvent)
  | retry (e : TimerEvent)
  | dns (e : DnsEvent)
  deriving DecidableEq, Repr

/-- Which of them an event is raised through. -/
def Event.item : Event → Item
  | .usock e => .usock (Usock.item e)
  | .session e => .session e
  | .retry e => .retry e
  | .dns e => .dns e

/-- A machine says that it has stopped. -/
def Event.Stopped (e : Event) : Prop :=
  e = .usock .stopped ∨ e = .session .stopped ∨ e = .retry .stopped ∨ e = .dns .stopped

/-! ## The machines and the queue -/

/-- What the endpoints of both transports are made of, with the events of theirs that are
queued in the context. -/
structure Conn where
  usock : Usock := {}
  retry : Backoff
  session : SessionFsm := {}
  stat : EpStat := {}
  events : List Event := []
  deriving DecidableEq, Repr

namespace Conn

/-- `grid_usock_isidle`. -/
def usockIsIdle (self : Conn) : Bool :=
  self.usock.isIdle (decide (Event.usock .stopped ∈ self.events))

/-- `grid_backoff_isidle`. -/
def retryIsIdle (self : Conn) : Bool :=
  self.retry.isIdle (decide (Event.retry .stopped ∈ self.events))

/-- `grid_sipc_isidle` or `grid_stcp_isidle`. -/
def sessionIsIdle (self : Conn) : Bool :=
  self.session.isIdle (decide (Event.session .stopped ∈ self.events))

/-- `grid_usock_start`; `false` if `socket` fails. -/
def startUsock (self : Conn) (ok : Bool) : Except Abort (Conn × Bool) := do
  match ← self.usock.start (decide (Event.usock .stopped ∈ self.events)) ok with
  | none => return (self, false)
  | some usock => return ({ self with usock := usock }, true)

/-- `grid_usock_connect`. -/
def connect (self : Conn) (result : Connect) : Except Abort Conn := do
  let r ← self.usock.connect result
  let events ← raiseEvent? Event.item self.events (r.2.map .usock)
  return { self with usock := r.1, events := events }

/-- `grid_usock_stop`. -/
def stopUsock (self : Conn) : Except Abort Conn := do
  let r ← self.usock.stop
  let events ← raiseEvent? Event.item self.events (r.2.map .usock)
  return { self with usock := r.1, events := events }

/-- `grid_backoff_start`. -/
def startRetry (self : Conn) : Except Abort Conn := do
  let retry ← self.retry.start (decide (Event.retry .stopped ∈ self.events))
  return { self with retry := retry }

/-- `grid_backoff_stop`. -/
def stopRetry (self : Conn) : Except Abort Conn := do
  let retry ← self.retry.stop
  return { self with retry := retry }

/-- `grid_sipc_start` or `grid_stcp_start`. -/
def startSession (self : Conn) : Except Abort Conn := do
  let session ← self.session.start (decide (Event.session .stopped ∈ self.events))
  return { self with session := session }

/-- `grid_sipc_stop` or `grid_stcp_stop`. -/
def stopSession (self : Conn) : Conn := { self with session := self.session.stop }

/-- `grid_epbase_stat_increment`. -/
def increment (self : Conn) (name : Stat) (n : Int) : Except Abort Conn := do
  let stat ← self.stat.increment name n
  return { self with stat := stat }

/-- `grid_epbase_set_error`. -/
def setError (self : Conn) (errnum : Int) : Except Abort Conn := do
  let stat ← self.stat.setError errnum
  return { self with stat := stat }

/-- `grid_epbase_clear_error`. -/
def clearError (self : Conn) : Except Abort Conn := do
  let stat ← self.stat.clearError
  return { self with stat := stat }

/-- The context takes the next event out of its queue. -/
def pop (self : Conn) : Conn := { self with events := self.events.tail }

/-! ## Steps that the endpoint does not take -/

/-- What the worker and the session do. -/
inductive Label where
  /-- the worker and the retry timer -/
  | retry (w : Backoff.Work)
  /-- the worker and a usock that no session holds -/
  | usock (w : Usock.Work)
  /-- the session and the worker use the usock -/
  | session (u : Usock)
  /-- the session ends -/
  | sessionError
  /-- the session has stopped and gives the usock back -/
  | sessionStopped
  deriving DecidableEq, Repr

/-- When it can be done.  The worker enters the context when its queue is empty.  A usock
that a session holds is any that a session can hold. -/
def Enabled (self : Conn) : Label → Prop
  | .retry w => self.events = [] ∧ self.retry.Ready w
  | .usock w => self.events = [] ∧ self.session.usock = false ∧ self.usock.Waits w
  | .session u => self.session.usock = true ∧ u.Held
  | .sessionError => self.session.fsm = .active ∧ self.session.done = false
  | .sessionStopped => self.session.fsm = .stopping

instance (self : Conn) (l : Label) : Decidable (self.Enabled l) :=
  match l with
  | .retry _ => inferInstanceAs (Decidable (_ ∧ _))
  | .usock _ => inferInstanceAs (Decidable (_ ∧ _ ∧ _))
  | .session _ => inferInstanceAs (Decidable (_ ∧ _))
  | .sessionError => inferInstanceAs (Decidable (_ ∧ _))
  | .sessionStopped => inferInstanceAs (Decidable (_ = _))

/-- One of these steps. -/
def next (self : Conn) : Label → Except Abort Conn
  | .retry w => do
      let r ← self.retry.work w
      let events ← raiseEvent? Event.item self.events (r.2.map .retry)
      return { self with retry := r.1, events := events }
  | .usock w => do
      let r ← self.usock.attempt w
      let events ← raiseEvent? Event.item self.events (r.2.map .usock)
      return { self with usock := r.1, events := events }
  | .session u => .ok { self with usock := u }
  | .sessionError => do
      let events ← raiseEvent Event.item self.events (.session self.session.fail.2)
      return { self with session := self.session.fail.1, events := events }
  | .sessionStopped => do
      let events ← raiseEvent Event.item self.events (.session self.session.finish.2)
      return { self with session := self.session.finish.1, events := events }

/-- Steps that a machine which was asked to stop still has to see. -/
def Label.Pending : Label → Prop
  | .retry _ => True
  | .usock w => w = .task
  | .session _ => False
  | .sessionError => True
  | .sessionStopped => True

/-! ## What they can be doing -/

variable {c c' : Conn} {l : Label}

/-- Everything is at rest. -/
structure Rests (c : Conn) : Prop where
  usock : c.usock.Off
  retry : c.retry.timer.Quiet
  session : c.session.Idle

/-- The usock connects. -/
structure Connecting (c : Conn) (q : List UsockEvent) : Prop where
  events : c.events = q.map .usock
  usock : c.usock.Trying q
  retry : c.retry.timer.Quiet
  session : c.session.Idle

/-- The session runs. -/
structure Active (c : Conn) (q : List SessionEvent) : Prop where
  events : c.events = q.map .session
  usock : c.usock.Held
  retry : c.retry.timer.Quiet
  session : c.session.Running q

/-- The session was asked to stop. -/
structure StoppingSession (c : Conn) (q : List SessionEvent) : Prop where
  events : c.events = q.map .session
  usock : c.usock.Held
  retry : c.retry.timer.Quiet
  session : c.session.Stopping q

/-- The usock was asked to stop. -/
structure StoppingUsock (c : Conn) (q : List UsockEvent) : Prop where
  events : c.events = q.map .usock
  usock : c.usock.Stopping q
  retry : c.retry.timer.Quiet
  session : c.session.Idle

/-- The timer runs. -/
structure Waiting (c : Conn) (q : List TimerEvent) : Prop where
  events : c.events = q.map .retry
  usock : c.usock.Off
  retry : c.retry.Waiting q
  session : c.session.Idle

/-- The timer was asked to stop. -/
structure StoppingRetry (c : Conn) (q : List TimerEvent) : Prop where
  events : c.events = q.map .retry
  usock : c.usock.Off
  retry : c.retry.Stopping q
  session : c.session.Idle

/-- What is left to do until the machines that were asked to stop have stopped. -/
def load (c : Conn) : Nat :=
  c.events.length + 2 * c.usock.tasks.length + c.retry.load +
    if c.session.fsm = .stopping then 2 else 0

/-! ## The steps, phase by phase -/

theorem map_toList {α β : Type} (f : α → β) (e : Option α) :
    (e.map f).toList = e.toList.map f := by
  cases e <;> rfl

theorem nil_of_map {α β : Type} {f : α → β} {q : List α} (h : q.map f = []) : q = [] :=
  List.map_eq_nil_iff.mp h

/-- Where the usock is off the worker can take a task that an earlier connection has left. -/
theorem next_usock_off {w : Usock.Work} (hoff : c.usock.Off) (hl : c.Enabled (.usock w))
    (hcall : c.next (.usock w) = .ok c') :
    ∃ u : Usock, c' = { c with usock := u } ∧ u.Off ∧
      u.tasks.length + 1 = c.usock.tasks.length := by
  obtain ⟨r, hr, hcall⟩ := bind_eq_ok_iff.mp hcall
  obtain ⟨-, hnone, hoff', htasks⟩ := Usock.attempt_off hoff hl.2.2 hr
  rw [hnone] at hcall
  cases hcall
  exact ⟨r.1, rfl, hoff', htasks⟩

/-- While everything rests nothing happens. -/
theorem next_rests (h : c.Rests) (hl : c.Enabled l) (hcall : c.next l = .ok c') :
    c'.Rests ∧ c'.events = c.events ∧ c'.stat = c.stat := by
  cases l with
  | retry w => exact absurd hl.2 (Backoff.not_ready_of_quiet h.retry w)
  | usock w =>
      obtain ⟨u, rfl, hoff, -⟩ := next_usock_off h.usock hl hcall
      exact ⟨⟨hoff, h.retry, h.session⟩, rfl, rfl⟩
  | session u => exact absurd (h.session.usock.symm.trans hl.1) (by simp)
  | sessionError => exact absurd (h.session.fsm.symm.trans hl.1) (by simp)
  | sessionStopped => exact absurd (h.session.fsm.symm.trans hl) (by simp)

theorem next_connecting {q : List UsockEvent} (h : c.Connecting q) (hl : c.Enabled l)
    (hcall : c.next l = .ok c') : ∃ q', c'.Connecting q' := by
  cases l with
  | retry w => exact absurd hl.2 (Backoff.not_ready_of_quiet h.retry w)
  | usock w =>
      obtain ⟨hempty, -, hwaits⟩ := hl
      obtain rfl := nil_of_map (h.events.symm.trans hempty)
      obtain ⟨r, hr, hcall⟩ := bind_eq_ok_iff.mp hcall
      rw [hempty, raiseEvent?_nil] at hcall
      cases hcall
      refine ⟨r.2.toList, map_toList _ _, ?_, h.retry, h.session⟩
      rcases h.usock with ⟨htrying, -⟩ | ⟨-, hq⟩ | ⟨-, hq⟩
      · exact Usock.attempt_trying htrying hwaits hr
      · exact absurd hq (by simp)
      · exact absurd hq (by simp)
  | session u => exact absurd (h.session.usock.symm.trans hl.1) (by simp)
  | sessionError => exact absurd (h.session.fsm.symm.trans hl.1) (by simp)
  | sessionStopped => exact absurd (h.session.fsm.symm.trans hl) (by simp)

theorem next_active {q : List SessionEvent} (h : c.Active q) (hl : c.Enabled l)
    (hcall : c.next l = .ok c') : ∃ q', c'.Active q' := by
  cases l with
  | retry w => exact absurd hl.2 (Backoff.not_ready_of_quiet h.retry w)
  | usock w => exact absurd (h.session.usock.symm.trans hl.2.1) (by simp)
  | session u =>
      cases hcall
      exact ⟨q, h.events, hl.2, h.retry, h.session⟩
  | sessionError =>
      rcases h.session.report with ⟨-, rfl⟩ | ⟨hdone, -⟩
      · have hempty : c.events = [] := h.events
        simp only [next, hempty, raiseEvent_nil, ok_bind, pure_eq_ok] at hcall
        cases hcall
        exact ⟨[.error], rfl, h.usock, h.retry, h.session.fsm, h.session.usock,
          Or.inr ⟨rfl, rfl⟩⟩
      · exact absurd (hdone.symm.trans hl.2) (by simp)
  | sessionStopped => exact absurd (h.session.fsm.symm.trans hl) (by simp)

theorem next_waiting {q : List TimerEvent} (h : c.Waiting q) (hl : c.Enabled l)
    (hcall : c.next l = .ok c') : ∃ q', c'.Waiting q' := by
  cases l with
  | retry w =>
      obtain ⟨hempty, hready⟩ := hl
      obtain rfl := nil_of_map (h.events.symm.trans hempty)
      obtain ⟨b, e, hb, hwaiting⟩ := Backoff.work_waiting h.retry hready
      simp only [next, hb, hempty, raiseEvent?_nil, ok_bind, pure_eq_ok] at hcall
      cases hcall
      exact ⟨e.toList, map_toList _ _, h.usock, hwaiting, h.session⟩
  | usock w =>
      obtain ⟨u, rfl, hoff, -⟩ := next_usock_off h.usock hl hcall
      exact ⟨q, h.events, hoff, h.retry, h.session⟩
  | session u => exact absurd (h.session.usock.symm.trans hl.1) (by simp)
  | sessionError => exact absurd (h.session.fsm.symm.trans hl.1) (by simp)
  | sessionStopped => exact absurd (h.session.fsm.symm.trans hl) (by simp)

/-- A machine that was asked to stop raises nothing but its last event, and every step
that it has to see brings it closer to that. -/
structure Onward (c : Conn) (l : Label) (c' : Conn) : Prop where
  events : ∀ e ∈ c'.events, e ∈ c.events ∨ e.Stopped
  load : l.Pending → c'.load < c.load

theorem next_stoppingSession {q : List SessionEvent} (h : c.StoppingSession q)
    (hl : c.Enabled l) (hcall : c.next l = .ok c') :
    Onward c l c' ∧ ∃ q', c'.StoppingSession q' := by
  have hactive : c.session.fsm ≠ .active := by
    rcases h.session with ⟨hleaving, -⟩ | ⟨hidle, -⟩
    · simp [hleaving.fsm]
    · simp [hidle.fsm]
  cases l with
  | retry w => exact absurd hl.2 (Backoff.not_ready_of_quiet h.retry w)
  | usock w =>
      obtain ⟨hempty, hgiven, -⟩ := hl
      obtain rfl := nil_of_map (h.events.symm.trans hempty)
      exact absurd (h.session.nil.usock.symm.trans hgiven) (by simp)
  | session u =>
      cases hcall
      exact ⟨⟨fun e he => Or.inl he, fun hl => hl.elim⟩, q, h.events, hl.2, h.retry, h.session⟩
  | sessionError => exact absurd hl.1 hactive
  | sessionStopped =>
      rcases h.session with ⟨-, hq⟩ | ⟨hidle, -⟩
      · have hnew : Event.item (.session .stopped) ∉ c.events.map Event.item := by
          rw [h.events]
          simpa [Event.item] using hq
        simp only [next, SessionFsm.finish, raiseEvent_ok hnew, ok_bind, pure_eq_ok] at hcall
        cases hcall
        refine ⟨⟨?_, fun _ => ?_⟩, q ++ [SessionEvent.stopped], ?_, h.usock, h.retry,
          Ending.raised (SessionFsm.Idle.mk rfl rfl) hq⟩
        · intro e he
          rcases List.mem_append.mp he with he | he
          · exact Or.inl he
          · exact Or.inr (Or.inr (Or.inl (List.mem_singleton.mp he)))
        · have hfsm : c.session.fsm = .stopping := hl
          simp [load, hfsm]
          omega
        · simp [h.events]
      · exact absurd (hidle.fsm.symm.trans hl) (by simp)

theorem next_stoppingUsock {q : List UsockEvent} (h : c.StoppingUsock q) (hl : c.Enabled l)
    (hcall : c.next l = .ok c') : Onward c l c' ∧ ∃ q', c'.StoppingUsock q' := by
  cases l with
  | retry w => exact absurd hl.2 (Backoff.not_ready_of_quiet h.retry w)
  | usock w =>
      obtain ⟨hempty, -, hwaits⟩ := hl
      obtain rfl := nil_of_map (h.events.symm.trans hempty)
      have hclosing := h.usock.nil
      by_cases hw : w = .task
      · subst hw
        obtain ⟨u, e, hu, hstopping, he, htasks⟩ := Usock.attempt_closing_task hclosing
        simp only [next, hu, hempty, raiseEvent?_nil, ok_bind, pure_eq_ok] at hcall
        cases hcall
        refine ⟨⟨?_, fun _ => ?_⟩, e.toList, map_toList _ _, hstopping, h.retry, h.session⟩
        · rcases he with rfl | rfl
          · simp
          · intro e he
            exact Or.inr (Or.inl (List.mem_singleton.mp he))
        · rcases he with rfl | rfl
          · simp only [load, hempty, ← htasks]
            simp
          · simp only [load, hempty, ← htasks]
            simp
            omega
      · rw [next, Usock.attempt_closing_fd hclosing hw] at hcall
        cases hcall
        exact ⟨⟨fun e he => Or.inl he, fun hl => absurd hl hw⟩, [], h⟩
  | session u => exact absurd (h.session.usock.symm.trans hl.1) (by simp)
  | sessionError => exact absurd (h.session.fsm.symm.trans hl.1) (by simp)
  | sessionStopped => exact absurd (h.session.fsm.symm.trans hl) (by simp)

theorem next_stoppingRetry {q : List TimerEvent} (h : c.StoppingRetry q) (hl : c.Enabled l)
    (hcall : c.next l = .ok c') : Onward c l c' ∧ ∃ q', c'.StoppingRetry q' := by
  cases l with
  | retry w =>
      obtain ⟨hempty, hready⟩ := hl
      obtain rfl := nil_of_map (h.events.symm.trans hempty)
      obtain ⟨b, e, hb, hstopping, he, hload⟩ := Backoff.work_stopping h.retry.nil hready
      simp only [next, hb, hempty, raiseEvent?_nil, ok_bind, pure_eq_ok] at hcall
      cases hcall
      refine ⟨⟨?_, fun _ => ?_⟩, e.toList, map_toList _ _, h.usock, hstopping, h.session⟩
      · rcases he with rfl | rfl
        · simp
        · intro e he
          exact Or.inr (Or.inr (Or.inr (Or.inl (List.mem_singleton.mp he))))
      · simp only [load, hempty, map_toList, List.length_map, List.length_nil]
        omega
  | usock w =>
      obtain ⟨u, rfl, hoff, htasks⟩ := next_usock_off h.usock hl hcall
      refine ⟨⟨fun e he => Or.inl he, fun _ => ?_⟩, q, h.events, hoff, h.retry, h.session⟩
      simp only [load]
      omega
  | session u => exact absurd (h.session.usock.symm.trans hl.1) (by simp)
  | sessionError => exact absurd (h.session.fsm.symm.trans hl.1) (by simp)
  | sessionStopped => exact absurd (h.session.fsm.symm.trans hl) (by simp)

/-! ## What comes next -/

/-- Until a machine that was asked to stop has said that it has, something is left to do. -/
theorem exists_next_stoppingSession (h : c.StoppingSession []) :
    ∃ l c', l.Pending ∧ c.Enabled l ∧ c.next l = .ok c' := by
  have hempty : c.events = [] := h.events
  refine ⟨.sessionStopped, { c with
    session := c.session.finish.1, events := [.session .stopped] }, trivial,
    h.session.nil.fsm, ?_⟩
  simp only [next, hempty, raiseEvent_nil, ok_bind, pure_eq_ok]
  rfl

theorem exists_next_stoppingUsock (h : c.StoppingUsock []) :
    ∃ l c', l.Pending ∧ c.Enabled l ∧ c.next l = .ok c' := by
  have hempty : c.events = [] := h.events
  obtain ⟨u, e, hu, -⟩ := Usock.attempt_closing_task h.usock.nil
  refine ⟨.usock .task, { c with usock := u, events := (e.map Event.usock).toList }, rfl,
    ⟨hempty, h.session.usock, Usock.ready_of_closing h.usock.nil⟩, ?_⟩
  simp only [next, hu, hempty, raiseEvent?_nil, ok_bind, pure_eq_ok]

theorem exists_next_stoppingRetry (h : c.StoppingRetry []) :
    ∃ l c', l.Pending ∧ c.Enabled l ∧ c.next l = .ok c' := by
  have hempty : c.events = [] := h.events
  have hready := Backoff.ready_of_stopping h.retry.nil
  obtain ⟨b, e, hb, -⟩ := Backoff.work_stopping h.retry.nil hready
  refine ⟨.retry .task, { c with retry := b, events := (e.map Event.retry).toList }, trivial,
    ⟨hempty, hready⟩, ?_⟩
  simp only [next, hb, hempty, raiseEvent?_nil, ok_bind, pure_eq_ok]

end Conn

end GridMq.Transports
