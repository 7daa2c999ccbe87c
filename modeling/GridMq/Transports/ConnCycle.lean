import GridMq.Transports.Conn

set_option autoImplicit false

/-!
# The reconnect cycle

The states in which `grid_cipc_handler` and `grid_ctcp_handler` work alike, from a
connection attempt to the end of the wait before the next one, and what both do to their
machines when they are stopped.
-/

namespace GridMq.Transports

open GridMq.Aio

/-- `GRID_CIPC_STATE_*` and `GRID_CTCP_STATE_*` from CONNECTING to STOPPING_BACKOFF. -/
inductive CycleState where
  | connecting
  | active
  /-- STOPPING_SIPC, STOPPING_STCP -/
  | stoppingSession
  | stoppingUsock
  | waiting
  | stoppingBackoff
  deriving DecidableEq, Repr

namespace Conn

/-- `grid_cipc_handler` and `grid_ctcp_handler` in these states, where `errnum` is what
`grid_usock_geterrno` gives.  The next state is `none` where the backoff has stopped and the
endpoint begins anew. -/
def handler (self : Conn) (errnum : Int) :
    CycleState → Event → Except Abort (Conn × Option CycleState)
  | .connecting, .usock .connected => do
      let self ← self.startSession
      let self ← self.increment .inprogressConnections (-1)
      let self ← self.increment .establishedConnections 1
      let self ← self.clearError
      return (self, some .active)
  | .connecting, .usock .error => do
      let self ← self.setError errnum
      let self ← self.stopUsock
      let self ← self.increment .inprogressConnections (-1)
      let self ← self.increment .connectErrors 1
      return (self, some .stoppingUsock)
  | .connecting, .usock _ => .error .badAction
  | .connecting, _ => .error .badSource
  | .active, .session .error => do
      let self ← self.stopSession.increment .brokenConnections 1
      return (self, some .stoppingSession)
  | .active, .session _ => .error .badAction
  | .active, _ => .error .badSource
  -- the value of GRID_USOCK_SHUTDOWN, which is also let through, is no event of a session
  | .stoppingSession, .session .stopped => do
      let self ← self.stopUsock
      return (self, some .stoppingUsock)
  | .stoppingSession, .session _ => .error .badAction
  | .stoppingSession, _ => .error .badSource
  | .stoppingUsock, .usock .shutdown => .ok (self, some .stoppingUsock)
  | .stoppingUsock, .usock .stopped => do
      let self ← self.startRetry
      return (self, some .waiting)
  | .stoppingUsock, .usock _ => .error .badAction
  | .stoppingUsock, _ => .error .badSource
  | .waiting, .retry .timeout => do
      let self ← self.stopRetry
      return (self, some .stoppingBackoff)
  | .waiting, .retry _ => .error .badAction
  | .waiting, _ => .error .badSource
  | .stoppingBackoff, .retry .stopped => .ok (self, none)
  | .stoppingBackoff, .retry _ => .error .badAction
  | .stoppingBackoff, _ => .error .badSource

/-- What `grid_cipc_shutdown` and `grid_ctcp_shutdown` do first with a session. -/
def dropSession (self : Conn) : Except Abort Conn :=
  if self.sessionIsIdle = true then .ok self
  else do
    let self ← self.increment .droppedConnections 1
    return self.stopSession

/-- What they do next, when the session is idle. -/
def halt (self : Conn) : Except Abort Conn := do
  let self ← self.stopRetry
  self.stopUsock

/-- Usock, session and back-off timer are all idle. -/
def allIdle (self : Conn) : Bool := self.usockIsIdle && self.sessionIsIdle && self.retryIsIdle

/-! ## Which machine is idle -/

variable {c c' : Conn}

theorem allIdle_of_rests (h : c.Rests) (hevents : c.events = []) : c.allIdle = true := by
  simp [allIdle, usockIsIdle, sessionIsIdle, retryIsIdle, hevents, h.usock.isIdle,
    h.session.isIdle, Backoff.isIdle_quiet h.retry]

theorem sessionIsIdle_of_idle (h : c.session.Idle)
    (hevents : Event.session .stopped ∉ c.events) : c.sessionIsIdle = true := by
  simp [sessionIsIdle, h.isIdle, hevents]

theorem StoppingSession.not_idle {q : List SessionEvent} (h : c.StoppingSession q) :
    c.sessionIsIdle = false := by
  rcases h.session with ⟨hleaving, -⟩ | ⟨-, pre, hq, -⟩
  · exact hleaving.isIdle _
  · simp [sessionIsIdle, SessionFsm.isIdle, h.events, hq]

theorem Active.not_idle {q : List SessionEvent} (h : c.Active q) : c.sessionIsIdle = false := by
  simp [sessionIsIdle, SessionFsm.isIdle, h.session.fsm]

theorem StoppingUsock.not_idle {q : List UsockEvent} (h : c.StoppingUsock q) :
    c.usockIsIdle = false := by
  rcases h.usock with ⟨hclosing, -⟩ | ⟨-, pre, hq, -⟩
  · exact hclosing.isIdle _
  · simp [usockIsIdle, Usock.isIdle, h.events, hq]

theorem StoppingRetry.not_idle {q : List TimerEvent} (h : c.StoppingRetry q) :
    c.retryIsIdle = false := by
  rcases h.retry with ⟨hstopping, -⟩ | ⟨-, pre, hq, -⟩
  · exact Backoff.isIdle_of_stopping hstopping _
  · simp [retryIsIdle, Backoff.isIdle, Timer.isIdle, h.events, hq]

/-! ## Calls -/

/-- An attempt: `socket` may fail. -/
theorem startUsock_rests (h : c.Rests) (hevents : c.events = []) (ok : Bool) :
    c.startUsock ok = .ok (if ok then
      ({ c with usock := { c.usock with fd := true, state := .starting, fsm := .active } }, true)
      else (c, false)) := by
  have hstopped : decide (Event.usock .stopped ∈ c.events) = false := by simp [hevents]
  simp only [startUsock, hstopped, h.usock.start, ok_bind]
  cases ok <;> rfl

theorem connect_started (h : c.Rests) (hevents : c.events = []) (result : Connect) :
    ∃ c' q, { c with
        usock := { c.usock with fd := true, state := .starting, fsm := .active } }.connect result =
          .ok c' ∧ c'.Connecting q ∧ c'.stat = c.stat := by
  obtain ⟨u, e, hu, htrying⟩ := h.usock.connect result
  refine ⟨{ c with usock := u, events := (e.map Event.usock).toList }, e.toList, ?_,
    ⟨map_toList _ _, htrying, h.retry, h.session⟩, rfl⟩
  simp only [connect, hu, hevents, raiseEvent?_nil, ok_bind, pure_eq_ok]

theorem startRetry_rests (h : c.Rests) (hevents : c.events = []) (htime : 0 ≤ c.retry.timeout) :
    ∃ c', c.startRetry = .ok c' ∧ c'.Waiting [] ∧ c'.stat = c.stat := by
  obtain ⟨b, hb, hwaiting⟩ := Backoff.start_spec h.retry htime
  have hstopped : decide (Event.retry .stopped ∈ c.events) = false := by simp [hevents]
  refine ⟨{ c with retry := b }, ?_, ⟨hevents, h.usock, hwaiting, h.session⟩, rfl⟩
  simp only [startRetry, hstopped, hb, ok_bind, pure_eq_ok]

/-- A check of the timer ends the process when the back-off has overflowed. -/
theorem startRetry_negative (h : c.retry.timeout < 0) : c.startRetry = .error .assertion := by
  have hassert : gridAssert (c.retry.timeout ≥ 0) = .error .assertion :=
    if_neg (by omega)
  simp only [startRetry, Backoff.start, Timer.start, hassert, error_bind]

/-- The session takes the usock of an attempt that has succeeded. -/
theorem startSession_live (hevents : c.events = []) (hu : c.usock.Live)
    (hretry : c.retry.timer.Quiet) (hsession : c.session.Idle) :
    ∃ c', c.startSession = .ok c' ∧ c'.Active [] ∧ c'.stat = c.stat := by
  have hstopped : decide (Event.session .stopped ∈ c.events) = false := by simp [hevents]
  refine ⟨{ c with session := { fsm := .active, usock := true, done := false } }, ?_,
    ⟨hevents, hu.held, hretry, rfl, rfl, Or.inl ⟨rfl, rfl⟩⟩, rfl⟩
  simp only [startSession, hstopped, hsession.start, ok_bind, pure_eq_ok]

theorem stopSession_active {q : List SessionEvent} (hevents : c.events = q.map .session)
    (hu : c.usock.Held) (hretry : c.retry.timer.Quiet) (hfsm : c.session.fsm = .active)
    (husock : c.session.usock = true) (hq : SessionEvent.stopped ∉ q) :
    c.stopSession.StoppingSession q := by
  have hstop : c.session.stop = { c.session with fsm := .stopping } := if_pos hfsm
  refine ⟨hevents, hu, hretry, ?_⟩
  rw [stopSession, hstop]
  exact Ending.still ⟨rfl, husock⟩ hq

/-- A usock that the session has given back, or that has failed to connect. -/
theorem stopUsock_held (hevents : c.events = []) (hu : c.usock.Held)
    (hretry : c.retry.timer.Quiet) (hsession : c.session.Idle) :
    ∃ c' q, c.stopUsock = .ok c' ∧ c'.StoppingUsock q ∧
      (∀ e ∈ q, e = .shutdown ∨ e = .stopped) ∧ c'.stat = c.stat ∧
      c'.load ≤ c.load + 3 := by
  obtain ⟨u, e, hcall, hstopping, he, hload⟩ := Usock.stop_held hu
  refine ⟨{ c with usock := u, events := (e.map Event.usock).toList }, e.toList, ?_,
    ⟨map_toList _ _, hstopping, hretry, hsession⟩, ?_, rfl, ?_⟩
  · simp only [stopUsock, hcall, hevents, raiseEvent?_nil, ok_bind, pure_eq_ok]
  · rcases he with rfl | rfl | rfl <;> simp
  · simp only [load, hevents, map_toList, List.length_map, List.length_nil]
    omega

/-- A usock that still connects. -/
theorem stopUsock_connecting {q : List UsockEvent} (h : c.Connecting q) :
    ∃ c' q', c.stopUsock = .ok c' ∧ c'.StoppingUsock q' := by
  obtain ⟨u, e, hcall, hstopping, hnew⟩ := Usock.stop_trying h.usock
  refine ⟨{ c with usock := u, events := c.events ++ (e.map Event.usock).toList },
    q ++ e.toList, ?_, ⟨?_, hstopping, h.retry, h.session⟩⟩
  · cases e with
    | none => simp [stopUsock, hcall]
    | some i =>
        have hfresh : Event.item (.usock i) ∉ c.events.map Event.item := by
          have := hnew i rfl
          simpa [h.events, Event.item] using this
        simp only [stopUsock, hcall, Option.map_some, raiseEvent?_some, raiseEvent_ok hfresh,
          ok_bind, pure_eq_ok]
        rfl
  · simp [h.events, map_toList]

/-- A usock that is off or on its way there is left alone. -/
theorem stopUsock_eq (h : Usock.stop c.usock = .ok (c.usock, none)) : c.stopUsock = .ok c := by
  simp only [stopUsock, h, ok_bind, Option.map_none, raiseEvent?_none, pure_eq_ok]

theorem stopRetry_waiting {q : List TimerEvent} (h : c.Waiting q) :
    ∃ c', c.stopRetry = .ok c' ∧ c'.StoppingRetry q ∧ c'.stat = c.stat := by
  obtain ⟨b, hb, hstopping⟩ := Backoff.stop_waiting h.retry
  refine ⟨{ c with retry := b }, ?_, ⟨h.events, h.usock, hstopping, h.session⟩, rfl⟩
  simp only [stopRetry, hb, ok_bind, pure_eq_ok]

/-- A timer that does not run is left alone. -/
theorem stopRetry_eq (h : c.retry.timer.fsm ≠ .active) : c.stopRetry = .ok c := by
  simp only [stopRetry, Backoff.stop_of_not_active h, ok_bind, pure_eq_ok]

/-! ## The states of the cycle -/

/-- What the machines are doing in each state. -/
def Runs (c : Conn) : CycleState → Prop
  | .connecting => (∃ q, c.Connecting q) ∧ c.stat.Counts 1
  | .active => (∃ q, c.Active q) ∧ c.stat.Counts 0
  | .stoppingSession =>
      (∃ q, c.StoppingSession q) ∧ (∀ e ∈ c.events, e.Stopped) ∧ c.stat.Counts 0
  | .stoppingUsock =>
      (∃ q, c.StoppingUsock q) ∧ (∀ e ∈ c.events, e = .usock .shutdown ∨ e.Stopped) ∧
        c.stat.Counts 0
  | .waiting => (∃ q, c.Waiting q) ∧ c.stat.Counts 0
  | .stoppingBackoff =>
      (∃ q, c.StoppingRetry q) ∧ (∀ e ∈ c.events, e.Stopped) ∧ c.stat.Counts 0

/-- Everything is at rest and nothing is queued. -/
structure Fresh (c : Conn) : Prop where
  rests : c.Rests
  events : c.events = []
  counts : c.stat.Counts 0

/-- What the worker and the session do keeps the state. -/
theorem next_runs {state : CycleState} {l : Label} (h : c.Runs state) (hl : c.Enabled l)
    (hcall : c.next l = .ok c') : c'.Runs state := by
  have hstat : c'.stat = c.stat := by
    cases l with
    | retry w | usock w =>
        obtain ⟨r, -, hcall⟩ := bind_eq_ok_iff.mp hcall
        obtain ⟨q, -, hret⟩ := bind_eq_ok_iff.mp hcall
        cases hret
        rfl
    | session u =>
        cases hcall
        rfl
    | sessionError =>
        obtain ⟨q, -, hret⟩ := bind_eq_ok_iff.mp hcall
        cases hret
        rfl
    | sessionStopped =>
        obtain ⟨q, -, hret⟩ := bind_eq_ok_iff.mp hcall
        cases hret
        rfl
  cases state with
  | connecting =>
      obtain ⟨⟨q, h⟩, hcounts⟩ := h
      exact ⟨next_connecting h hl hcall, hstat ▸ hcounts⟩
  | active =>
      obtain ⟨⟨q, h⟩, hcounts⟩ := h
      exact ⟨next_active h hl hcall, hstat ▸ hcounts⟩
  | stoppingSession =>
      obtain ⟨⟨q, h⟩, hclean, hcounts⟩ := h
      obtain ⟨honward, hnext⟩ := next_stoppingSession h hl hcall
      exact ⟨hnext, fun e he => (honward.events e he).elim (hclean e) id, hstat ▸ hcounts⟩
  | stoppingUsock =>
      obtain ⟨⟨q, h⟩, hclean, hcounts⟩ := h
      obtain ⟨honward, hnext⟩ := next_stoppingUsock h hl hcall
      exact ⟨hnext, fun e he => (honward.events e he).elim (hclean e) Or.inr, hstat ▸ hcounts⟩
  | waiting =>
      obtain ⟨⟨q, h⟩, hcounts⟩ := h
      exact ⟨next_waiting h hl hcall, hstat ▸ hcounts⟩
  | stoppingBackoff =>
      obtain ⟨⟨q, h⟩, hclean, hcounts⟩ := h
      obtain ⟨honward, hnext⟩ := next_stoppingRetry h hl hcall
      exact ⟨hnext, fun e he => (honward.events e he).elim (hclean e) id, hstat ▸ hcounts⟩

/-- The first event of a machine, and what is left of its queue. -/
theorem pop_of_map {α : Type} {f : α → Event} {q : List α} {e : Event}
    (h : c.events = q.map f) (he : c.events.head? = some e) :
    ∃ a rest, q = a :: rest ∧ e = f a ∧ c.pop.events = rest.map f := by
  cases q with
  | nil => simp [h] at he
  | cons a rest =>
      refine ⟨a, rest, rfl, ?_, ?_⟩
      · rw [h] at he
        exact (Option.some.inj he).symm
      · simp [pop, h]

theorem clean_usock {q : List UsockEvent} (h : c.events = q.map .usock)
    (hq : ∀ e ∈ q, e = .shutdown ∨ e = .stopped) :
    ∀ e ∈ c.events, e = .usock .shutdown ∨ e.Stopped := by
  intro e he
  rw [h] at he
  obtain ⟨a, ha, rfl⟩ := List.mem_map.mp he
  rcases hq a ha with rfl | rfl
  · exact Or.inl rfl
  · exact Or.inr (Or.inl rfl)

/-- Where an event leads: to another state of the cycle, or out of it. -/
def Leads (c : Conn) : Option CycleState → Prop
  | some state => c.Runs state
  | none => c.Fresh

/-- What the handler makes of an event. -/
structure Handled (c : Conn) (errnum : Int) (state : CycleState) (e : Event) (c' : Conn)
    (next : Option CycleState) : Prop where
  eq : c.handler errnum state e = .ok (c', next)
  leads : c'.Leads next
  last : next = none → c' = c

theorem handler_connecting {e : Event} {q : List UsockEvent} (h : c.Connecting q)
    (hcounts : c.stat.Counts 1) (he : c.events.head? = some e) (errnum : Int) :
    ∃ c' next, Handled c.pop errnum .connecting e c' next := by
  obtain ⟨a, rest, hq, rfl, hrest⟩ := pop_of_map h.events he
  rcases h.usock with ⟨-, hnil⟩ | ⟨hlive, hup⟩ | ⟨hdead, hdown⟩
  · exact absurd (hq.symm.trans hnil) (by simp)
  · obtain ⟨rfl, rfl⟩ := List.cons_eq_cons.mp (hq.symm.trans hup)
    obtain ⟨c₁, hcall, hactive, hstat⟩ :=
      startSession_live (c := c.pop) hrest hlive h.retry h.session
    have hcounts₁ : c₁.stat.Counts (0 + 1) := hstat ▸ hcounts
    obtain ⟨st₁, hst₁, hcounts₁⟩ := hcounts₁.finish (Int.le_refl 0)
    obtain ⟨st₂, hst₂, hcounts₂⟩ :=
      hcounts₁.event .establishedConnections (by simp) (by simp)
    obtain ⟨st₃, hst₃, hcounts₃⟩ := hcounts₂.clearError
    refine ⟨{ c₁ with stat := st₃ }, some .active, ?_,
      ⟨⟨[], hactive.events, hactive.usock, hactive.retry, hactive.session⟩, hcounts₃⟩, by simp⟩
    simp only [handler, hcall, increment, clearError, hst₁, hst₂, hst₃, ok_bind, pure_eq_ok]
  · obtain ⟨rfl, rfl⟩ := List.cons_eq_cons.mp (hq.symm.trans hdown)
    obtain ⟨st₁, hst₁, hcounts₁⟩ := hcounts.setError errnum
    obtain ⟨c₂, q', hcall, hstopping, hclean, hstat, -⟩ :=
      stopUsock_held (c := { c.pop with stat := st₁ }) hrest hdead.held h.retry h.session
    have hcounts₂ : c₂.stat.Counts (0 + 1) := hstat ▸ hcounts₁
    obtain ⟨st₃, hst₃, hcounts₃⟩ := hcounts₂.finish (Int.le_refl 0)
    obtain ⟨st₄, hst₄, hcounts₄⟩ := hcounts₃.event .connectErrors (by simp) (by simp)
    refine ⟨{ c₂ with stat := st₄ }, some .stoppingUsock, ?_,
      ⟨⟨q', hstopping.events, hstopping.usock, hstopping.retry, hstopping.session⟩, ?_,
        hcounts₄⟩, by simp⟩
    · have hset : c.pop.stat.setError errnum = .ok st₁ := hst₁
      simp only [handler, setError, hset, hcall, increment, hst₃, hst₄, ok_bind, pure_eq_ok]
    · intro e he
      exact clean_usock hstopping.events hclean e he

theorem handler_active {e : Event} {q : List SessionEvent} (h : c.Active q)
    (hcounts : c.stat.Counts 0) (he : c.events.head? = some e) (errnum : Int) :
    ∃ c' next, Handled c.pop errnum .active e c' next := by
  obtain ⟨a, rest, hq, rfl, hrest⟩ := pop_of_map h.events he
  rcases h.session.report with ⟨-, hnil⟩ | ⟨-, hfail⟩
  · exact absurd (hq.symm.trans hnil) (by simp)
  · obtain ⟨rfl, rfl⟩ := List.cons_eq_cons.mp (hq.symm.trans hfail)
    have hstopping : c.pop.stopSession.StoppingSession [] :=
      stopSession_active hrest h.usock h.retry h.session.fsm h.session.usock (by simp)
    obtain ⟨st, hst, hcounts'⟩ := hcounts.event .brokenConnections (by simp) (by simp)
    have hst' : c.pop.stopSession.stat.increment .brokenConnections 1 = .ok st := hst
    refine ⟨{ c.pop.stopSession with stat := st }, some .stoppingSession, ?_,
      ⟨⟨[], hstopping.events, hstopping.usock, hstopping.retry, hstopping.session⟩, ?_,
        hcounts'⟩, by simp⟩
    · simp only [handler, increment, hst', ok_bind, pure_eq_ok]
    · intro e he
      have hempty : c.pop.stopSession.events = [] := hrest
      exact absurd he (by simp [hempty])

theorem handler_stoppingSession {e : Event} {q : List SessionEvent} (h : c.StoppingSession q)
    (hclean : ∀ e ∈ c.events, e.Stopped) (hcounts : c.stat.Counts 0)
    (he : c.events.head? = some e) (errnum : Int) :
    ∃ c' next, Handled c.pop errnum .stoppingSession e c' next := by
  obtain ⟨a, rest, rfl, rfl, hrest⟩ := pop_of_map h.events he
  have hlast : Event.Stopped (.session a) := hclean _ (by simp [h.events])
  obtain rfl : a = .stopped := by simpa [Event.Stopped] using hlast
  obtain ⟨hidle, rfl⟩ := h.session.of_last
  obtain ⟨c', q', hcall, hstopping, hclean', hstat, -⟩ :=
    stopUsock_held (c := c.pop) hrest h.usock h.retry hidle
  refine ⟨c', some .stoppingUsock, ?_,
    ⟨⟨q', hstopping⟩, clean_usock hstopping.events hclean', hstat ▸ hcounts⟩, by simp⟩
  simp only [handler, hcall, ok_bind, pure_eq_ok]

theorem handler_stoppingUsock {e : Event} {q : List UsockEvent} (h : c.StoppingUsock q)
    (hclean : ∀ e ∈ c.events, e = .usock .shutdown ∨ e.Stopped) (hcounts : c.stat.Counts 0)
    (he : c.events.head? = some e) (errnum : Int) :
    (∃ c' next, Handled c.pop errnum .stoppingUsock e c' next) ∨
      c.retry.timeout < 0 ∧ c.pop.handler errnum .stoppingUsock e = .error .assertion := by
  obtain ⟨a, rest, rfl, rfl, hrest⟩ := pop_of_map h.events he
  have hlast := hclean (.usock a) (by simp [h.events])
  have ha : a = .shutdown ∨ a = .stopped := by simpa [Event.Stopped] using hlast
  rcases ha with rfl | rfl
  · left
    refine ⟨c.pop, some .stoppingUsock, rfl, ⟨⟨rest, hrest, h.usock.tail (by simp), h.retry,
      h.session⟩, ?_, hcounts⟩, by simp⟩
    exact fun e he => hclean e (List.mem_of_mem_tail he)
  · obtain ⟨hoff, rfl⟩ := h.usock.of_last
    by_cases htime : 0 ≤ c.retry.timeout
    · left
      obtain ⟨c', hcall, hwaiting, hstat⟩ :=
        startRetry_rests (c := c.pop) ⟨hoff, h.retry, h.session⟩ hrest htime
      refine ⟨c', some .waiting, ?_, ⟨⟨[], hwaiting⟩, hstat ▸ hcounts⟩, by simp⟩
      simp only [handler, hcall, ok_bind, pure_eq_ok]
    · right
      refine ⟨by omega, ?_⟩
      have hcall : c.pop.startRetry = .error .assertion :=
        startRetry_negative (c := c.pop) (Int.not_le.mp htime)
      simp only [handler, hcall, error_bind]

theorem handler_waiting {e : Event} {q : List TimerEvent} (h : c.Waiting q)
    (hcounts : c.stat.Counts 0) (he : c.events.head? = some e) (errnum : Int) :
    ∃ c' next, Handled c.pop errnum .waiting e c' next := by
  obtain ⟨a, rest, hq, rfl, hrest⟩ := pop_of_map h.events he
  rcases h.retry.2 with hnil | ⟨hfired, -⟩
  · exact absurd (hq.symm.trans hnil) (by simp)
  · obtain ⟨rfl, rfl⟩ := List.cons_eq_cons.mp (hq.symm.trans hfired)
    have hwaiting : c.pop.Waiting [] := ⟨hrest, h.usock, ⟨h.retry.1, Or.inl rfl⟩, h.session⟩
    obtain ⟨c', hcall, hstopping, hstat⟩ := stopRetry_waiting hwaiting
    refine ⟨c', some .stoppingBackoff, ?_, ⟨⟨[], hstopping⟩, ?_, hstat ▸ hcounts⟩, by simp⟩
    · simp only [handler, hcall, ok_bind, pure_eq_ok]
    · intro e he
      exact absurd he (by simp [hstopping.events])

theorem handler_stoppingBackoff {e : Event} {q : List TimerEvent} (h : c.StoppingRetry q)
    (hclean : ∀ e ∈ c.events, e.Stopped) (hcounts : c.stat.Counts 0)
    (he : c.events.head? = some e) (errnum : Int) :
    ∃ c' next, Handled c.pop errnum .stoppingBackoff e c' next := by
  obtain ⟨a, rest, rfl, rfl, hrest⟩ := pop_of_map h.events he
  have hlast : Event.Stopped (.retry a) := hclean _ (by simp [h.events])
  obtain rfl : a = .stopped := by simpa [Event.Stopped] using hlast
  obtain ⟨hquiet, rfl⟩ := h.retry.of_last
  exact ⟨c.pop, none, rfl, ⟨⟨h.usock, hquiet, h.session⟩, hrest, hcounts⟩, fun _ => rfl⟩

/-- In every state of the cycle the next event is one that the state expects, and the
endpoint goes on, unless the back-off has overflowed. -/
theorem handler_runs {state : CycleState} {e : Event} (h : c.Runs state)
    (he : c.events.head? = some e) (errnum : Int) :
    (∃ c' next, Handled c.pop errnum state e c' next) ∨
      c.retry.timeout < 0 ∧ c.pop.handler errnum state e = .error .assertion := by
  cases state with
  | connecting =>
      obtain ⟨⟨q, h⟩, hcounts⟩ := h
      exact Or.inl (handler_connecting h hcounts he errnum)
  | active =>
      obtain ⟨⟨q, h⟩, hcounts⟩ := h
      exact Or.inl (handler_active h hcounts he errnum)
  | stoppingSession =>
      obtain ⟨⟨q, h⟩, hclean, hcounts⟩ := h
      exact Or.inl (handler_stoppingSession h hclean hcounts he errnum)
  | stoppingUsock =>
      obtain ⟨⟨q, h⟩, hclean, hcounts⟩ := h
      exact handler_stoppingUsock h hclean hcounts he errnum
  | waiting =>
      obtain ⟨⟨q, h⟩, hcounts⟩ := h
      exact Or.inl (handler_waiting h hcounts he errnum)
  | stoppingBackoff =>
      obtain ⟨⟨q, h⟩, hclean, hcounts⟩ := h
      exact Or.inl (handler_stoppingBackoff h hclean hcounts he errnum)

/-! ## Stopping the machines -/

/-- The usock or the timer was asked to stop and has not said that it has. -/
def Halting (c : Conn) : Prop := (∃ q, c.StoppingUsock q) ∨ ∃ q, c.StoppingRetry q

theorem Halting.not_idle (h : c.Halting) : (c.retryIsIdle && c.usockIsIdle) = false := by
  rcases h with ⟨q, h⟩ | ⟨q, h⟩
  · rw [h.not_idle, Bool.and_false]
  · rw [h.not_idle, Bool.false_and]

theorem halt_eq {c₁ : Conn} (hretry : c.stopRetry = .ok c₁) (husock : c₁.stopUsock = .ok c') :
    c.halt = .ok c' := by
  rw [halt, hretry, ok_bind, husock]

theorem quiet_not_active {b : Backoff} (h : b.timer.Quiet) : b.timer.fsm ≠ .active := by
  simp [h.1]

/-- Stopping machines that rest changes nothing. -/
theorem halt_rests (h : c.Rests) : c.halt = .ok c :=
  halt_eq (stopRetry_eq (quiet_not_active h.retry)) (stopUsock_eq h.usock.stop_eq)

/-- The usock is stopped after the session. -/
theorem halt_held (hevents : c.events = []) (hu : c.usock.Held) (hretry : c.retry.timer.Quiet)
    (hsession : c.session.Idle) : ∃ c', c.halt = .ok c' ∧ c'.Halting ∧ c'.load ≤ c.load + 3 := by
  obtain ⟨c', q, hcall, hstopping, -, -, hload⟩ := stopUsock_held hevents hu hretry hsession
  exact ⟨c', halt_eq (stopRetry_eq (quiet_not_active hretry)) hcall, Or.inl ⟨q, hstopping⟩, hload⟩

theorem halt_connecting {q : List UsockEvent} (h : c.Connecting q) :
    ∃ c', c.halt = .ok c' ∧ c'.Halting := by
  obtain ⟨c', q', hcall, hstopping⟩ := stopUsock_connecting h
  exact ⟨c', halt_eq (stopRetry_eq (quiet_not_active h.retry)) hcall, Or.inl ⟨q', hstopping⟩⟩

theorem halt_waiting {q : List TimerEvent} (h : c.Waiting q) :
    ∃ c', c.halt = .ok c' ∧ c'.Halting := by
  obtain ⟨c', hcall, hstopping, -⟩ := stopRetry_waiting h
  exact ⟨c', halt_eq hcall (stopUsock_eq hstopping.usock.stop_eq), Or.inr ⟨q, hstopping⟩⟩

/-- Machines that were asked to stop already are left alone. -/
theorem halt_halting (h : c.Halting) : c.halt = .ok c := by
  rcases h with ⟨q, h⟩ | ⟨q, h⟩
  · refine halt_eq (stopRetry_eq (quiet_not_active h.retry)) (stopUsock_eq ?_)
    rcases h.usock with ⟨hclosing, -⟩ | ⟨hoff, -⟩
    · exact hclosing.stop_eq
    · exact hoff.stop_eq
  · refine halt_eq (stopRetry_eq ?_) (stopUsock_eq h.usock.stop_eq)
    rcases h.retry with ⟨hstopping, -⟩ | ⟨hquiet, -⟩
    · simp [hstopping.1]
    · exact quiet_not_active hquiet

/-- What `dropSession` does to a session that is not idle. -/
theorem dropSession_busy {q : List SessionEvent} (hbusy : c.sessionIsIdle = false)
    (hstop : c.stopSession.StoppingSession q) :
    ∃ c', c.dropSession = .ok c' ∧ c'.StoppingSession q := by
  refine ⟨{ c.stopSession with
    stat := { c.stat with droppedConnections := c.stat.droppedConnections + 1 } }, ?_,
    hstop.events, hstop.usock, hstop.retry, hstop.session⟩
  unfold dropSession
  rw [if_neg (by simp [hbusy])]
  rfl

/-- Stopping the endpoint in the cycle: the session goes first, if there is one. -/
theorem stop_runs {state : CycleState} (h : c.Runs state) :
    (∃ c' q, c.dropSession = .ok c' ∧ c'.StoppingSession q) ∨
      c.dropSession = .ok c ∧ c.sessionIsIdle = true ∧ ∃ c', c.halt = .ok c' ∧ c'.Halting := by
  have hdrop : c.sessionIsIdle = true → c.dropSession = .ok c := fun h => if_pos h
  cases state with
  | connecting =>
      obtain ⟨⟨q, h⟩, -⟩ := h
      have hidle := sessionIsIdle_of_idle h.session (by simp [h.events])
      exact Or.inr ⟨hdrop hidle, hidle, halt_connecting h⟩
  | active =>
      obtain ⟨⟨q, h⟩, -⟩ := h
      left
      have hq : SessionEvent.stopped ∉ q := by
        rcases h.session.report with ⟨-, rfl⟩ | ⟨-, rfl⟩ <;> simp
      obtain ⟨c', hcall, hstopping⟩ := dropSession_busy h.not_idle
        (stopSession_active h.events h.usock h.retry h.session.fsm h.session.usock hq)
      exact ⟨c', q, hcall, hstopping⟩
  | stoppingSession =>
      obtain ⟨⟨q, h⟩, -, -⟩ := h
      left
      have hsame : c.stopSession = c := by
        have hfsm : c.session.fsm ≠ .active := by
          rcases h.session with ⟨hleaving, -⟩ | ⟨hidle, -⟩
          · simp [hleaving.fsm]
          · simp [hidle.fsm]
        have hstop : c.session.stop = c.session := if_neg hfsm
        rw [stopSession, hstop]
      obtain ⟨c', hcall, hstopping⟩ := dropSession_busy h.not_idle (hsame.symm ▸ h)
      exact ⟨c', q, hcall, hstopping⟩
  | stoppingUsock =>
      obtain ⟨⟨q, h⟩, -, -⟩ := h
      have hidle := sessionIsIdle_of_idle h.session (by simp [h.events])
      exact Or.inr ⟨hdrop hidle, hidle, c, halt_halting (Or.inl ⟨q, h⟩), Or.inl ⟨q, h⟩⟩
  | waiting =>
      obtain ⟨⟨q, h⟩, -⟩ := h
      have hidle := sessionIsIdle_of_idle h.session (by simp [h.events])
      exact Or.inr ⟨hdrop hidle, hidle, halt_waiting h⟩
  | stoppingBackoff =>
      obtain ⟨⟨q, h⟩, -, -⟩ := h
      have hidle := sessionIsIdle_of_idle h.session (by simp [h.events])
      exact Or.inr ⟨hdrop hidle, hidle, c, halt_halting (Or.inr ⟨q, h⟩), Or.inr ⟨q, h⟩⟩

/-! ## Machines that were asked to stop -/

theorem next_halting {l : Label} (h : c.Halting) (hl : c.Enabled l) (hcall : c.next l = .ok c') :
    Onward c l c' ∧ c'.Halting := by
  rcases h with ⟨q, h⟩ | ⟨q, h⟩
  · obtain ⟨honward, hnext⟩ := next_stoppingUsock h hl hcall
    exact ⟨honward, Or.inl hnext⟩
  · obtain ⟨honward, hnext⟩ := next_stoppingRetry h hl hcall
    exact ⟨honward, Or.inr hnext⟩

theorem exists_next_halting (h : c.Halting) (hevents : c.events = []) :
    ∃ l c', l.Pending ∧ c.Enabled l ∧ c.next l = .ok c' := by
  rcases h with ⟨q, h⟩ | ⟨q, h⟩
  · obtain rfl := nil_of_map (h.events.symm.trans hevents)
    exact exists_next_stoppingUsock h
  · obtain rfl := nil_of_map (h.events.symm.trans hevents)
    exact exists_next_stoppingRetry h

/-- An event that is not the last one leaves them stopping. -/
theorem pop_halting {e : Event} (h : c.Halting) (he : c.events.head? = some e) :
    c.pop.Halting ∨ c.pop.Rests ∧ c.pop.events = [] := by
  rcases h with ⟨q, h⟩ | ⟨q, h⟩
  · obtain ⟨a, rest, rfl, -, hrest⟩ := pop_of_map h.events he
    by_cases ha : a = .stopped
    · subst ha
      obtain ⟨hoff, rfl⟩ := h.usock.of_last
      exact Or.inr ⟨⟨hoff, h.retry, h.session⟩, hrest⟩
    · exact Or.inl (Or.inl ⟨rest, hrest, h.usock.tail ha, h.retry, h.session⟩)
  · obtain ⟨a, rest, rfl, -, hrest⟩ := pop_of_map h.events he
    by_cases ha : a = .stopped
    · subst ha
      obtain ⟨hquiet, rfl⟩ := h.retry.of_last
      exact Or.inr ⟨⟨h.usock, hquiet, h.session⟩, hrest⟩
    · exact Or.inl (Or.inr ⟨rest, hrest, h.usock, h.retry.tail ha, h.session⟩)

/-- So for a session. -/
theorem pop_stoppingSession {e : Event} {q : List SessionEvent} (h : c.StoppingSession q)
    (he : c.events.head? = some e) :
    (∃ q', c.pop.StoppingSession q') ∨
      c.pop.events = [] ∧ c.pop.usock.Held ∧ c.pop.retry.timer.Quiet ∧ c.pop.session.Idle := by
  obtain ⟨a, rest, rfl, -, hrest⟩ := pop_of_map h.events he
  by_cases ha : a = .stopped
  · subst ha
    obtain ⟨hidle, rfl⟩ := h.session.of_last
    exact Or.inr ⟨hrest, h.usock, h.retry, hidle⟩
  · exact Or.inl ⟨rest, hrest, h.usock, h.retry, h.session.tail ha⟩

theorem load_pop {e : Event} (he : c.events.head? = some e) : c.pop.load + 1 = c.load := by
  cases hevents : c.events with
  | nil => simp [hevents] at he
  | cons a rest =>
      simp only [load, pop, hevents, List.tail_cons, List.length_cons]
      omega

end Conn

end GridMq.Transports
