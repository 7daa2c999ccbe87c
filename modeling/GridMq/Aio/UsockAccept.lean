import GridMq.Aio.UsockConnect

set_option autoImplicit false

/-!
# Accepting connections (`src/aio/usock.c`)

A listening usock and the usock that is to take the next connection.  The two point to each
other through `asock` while the worker waits for the connection.  What `accept` returns is
an argument of the modelled calls.
-/

namespace GridMq.Aio

/-- What `errno` is after `accept` has failed; EWOULDBLOCK has the value of EAGAIN. -/
inductive AcceptErrno where
  | eagain | econnaborted | enfile | emfile | enobufs | enomem
  /-- any other -/
  | other
  deriving DecidableEq, Repr

/-- What `accept` returns. -/
inductive AcceptAnswer where
  | fd (s : Nat)
  | error (e : AcceptErrno)
  deriving DecidableEq, Repr

/-- The `struct grid_usock` of a listening socket. -/
structure Listener where
  usock : Usock := {}
  /-- the connection whose usock `asock` points to -/
  asock : Option Nat := none
  errnum : Option AcceptErrno := none
  deriving DecidableEq, Repr

/-- The `struct grid_usock` of a connection. -/
structure AcceptedUsock where
  usock : Usock := {}
  /-- `asock` points to the listening usock -/
  asock : Bool := false
  deriving DecidableEq, Repr

/-! ## Actions -/

/-- `grid_fsm_action` with an action that changes no more than the state of a usock. -/
def Usock.action (self : Usock) (leads : UsockState → Option UsockState) :
    Except Abort Usock :=
  if self.fsm = .stopping then
    -- `grid_usock_shutdown`
    match self.state with
    | .stopping => .ok self
    | .stoppingAccept => .error .assertion
    | _ => .error .badState
  else
    match leads self.state with
    | some state => .ok { self with state := state }
    | none => .error (unexpectedAction self.state)

/-- `GRID_USOCK_ACTION_LISTEN`. -/
def listenLeads : UsockState → Option UsockState
  | .starting => some .listening
  | _ => none

/-- `GRID_USOCK_ACTION_ACCEPT`. -/
def acceptLeads : UsockState → Option UsockState
  | .listening => some .accepting
  | .acceptingError => some .accepting
  | _ => none

/-- `GRID_USOCK_ACTION_DONE` on a listening usock. -/
def listenerDoneLeads : UsockState → Option UsockState
  | .accepting => some .listening
  | _ => none

/-- `GRID_USOCK_ACTION_ACTIVATE`. -/
def activateLeads : UsockState → Option UsockState
  | .accepted => some .active
  | _ => none

namespace AcceptedUsock

/-- The actions START and BEING_ACCEPTED in `grid_usock_accept`. -/
def beingAccepted (self : AcceptedUsock) (stoppedActive : Bool) : Except Abort AcceptedUsock :=
  if self.usock.isIdle stoppedActive = true then
    match self.usock.state with
    | .idle =>
        .ok { self with usock := { self.usock with fsm := .active, state := .beingAccepted } }
    | state => .error (Usock.unexpectedAction state)
  else .ok self

/-- `grid_usock_init_from_fd`. -/
def initFromFd (self : AcceptedUsock) : Except Abort AcceptedUsock := do
  gridAssert (self.usock.fd = false)
  return { self with usock := { self.usock with fd := true } }

/-- `GRID_USOCK_ACTION_DONE`. -/
def actionDone (self : AcceptedUsock) : Except Abort (AcceptedUsock × Option UsockEvent) :=
  if self.usock.fsm = .stopping then
    match self.usock.state with
    -- the label `finish2`
    | .stoppingAccept =>
        .ok ({ self with usock := { self.usock with state := .idle, fsm := .idle } },
          some .stopped)
    | .stopping => .ok (self, none)
    | _ => .error .badState
  else
    match self.usock.state with
    | .beingAccepted =>
        .ok ({ self with usock := { self.usock with state := .accepted } }, some .accepted)
    | state => .error (Usock.unexpectedAction state)

/-- `grid_usock_activate`. -/
def activate (self : AcceptedUsock) : Except Abort AcceptedUsock := do
  let usock ← self.usock.action activateLeads
  return { self with usock := usock }

/-- The descriptor that the listening usock has accepted in asynchronous manner. -/
def take (self : AcceptedUsock) : Except Abort (AcceptedUsock × Option UsockEvent) := do
  let self ← self.initFromFd
  return ({ usock := { self.usock with state := .accepted }, asock := false }, some .accepted)

/-- The tasks that are still queued when `grid_usock_term` has taken the one to receive back.
`cancelled` says whether `grid_worker_cancel` finds that in the worker's queue; it does not
look into the worker's local copy. -/
def left (self : AcceptedUsock) (cancelled : Bool) : List UsockTask :=
  if cancelled then self.usock.tasks.erase .recv else self.usock.tasks

/-- `grid_usock_term`, where `eventActive` says whether one of the events other than STOPPED
is still in the queue of the context. -/
def term (self : AcceptedUsock) (eventActive stoppedActive cancelled : Bool) :
    Except Abort Unit := do
  gridAssert (self.usock.state = .idle)
  gridAssert (eventActive = false)
  gridAssert (self.left cancelled = [])
  gridAssert (self.usock.isIdle stoppedActive = true)

end AcceptedUsock

namespace Listener

/-- `grid_usock_listen`, where `ok` says whether `listen` succeeds; `none` if it does not. -/
def listen (self : Listener) (ok : Bool) : Except Abort (Option Listener) := do
  gridAssert (self.usock.state = .starting)
  if ok then
    let usock ← self.usock.action listenLeads
    return some { self with usock := usock }
  else return none

/-- `GRID_USOCK_ACTION_CANCEL`. -/
def cancel (self : Listener) : Except Abort Listener :=
  if self.usock.fsm = .stopping then do
    let usock ← self.usock.action fun _ => none
    return { self with usock := usock }
  else
    match self.usock.state with
    | .accepting => do
        let usock ← { self.usock with state := .cancelling }.execute .stop
        return { self with usock := usock }
    | state => .error (Usock.unexpectedAction state)

/-- `grid_usock_stop`. -/
def stop (self : Listener) : Except Abort (Listener × Option UsockEvent) := do
  let r ← self.usock.stop
  return ({ self with
    usock := r.1, errnum := if self.usock.fsm = .active then none else self.errnum }, r.2)

/-- What comes of `GRID_WORKER_FD_IN` on a listening usock. -/
inductive Arrival where
  | none
  /-- ACCEPT_ERROR is raised -/
  | failed
  /-- the descriptor `s` is for the usock of the connection `i` -/
  | taken (i s : Nat)
  deriving DecidableEq, Repr

/-- `GRID_WORKER_FD_IN`. -/
def fdIn (self : Listener) (answer : AcceptAnswer) : Except Abort (Listener × Arrival) :=
  if self.usock.fsm = .stopping then do
    let usock ← self.usock.action fun _ => none
    return ({ self with usock := usock }, .none)
  else
    match self.usock.state with
    | .accepting =>
        match answer with
        | .error .econnaborted => .ok (self, .none)
        | .error .eagain => .error .errnum
        | .error .other => .error .errnum
        | .error e =>
            .ok ({ self with
              usock := { self.usock with state := .acceptingError, pollIn := false },
              errnum := some e }, .failed)
        | .fd s =>
            match self.asock with
            | none => .error .nullPointer
            | some i =>
                .ok ({ self with
                  usock := { self.usock with state := .listening, pollIn := false },
                  asock := none }, .taken i s)
    | .cancelling => .ok (self, .none)
    | _ => .error .badSource

/-- The worker takes the next task.  The connection whose usock is told that accepting was
cancelled comes last. -/
def runTask (self : Listener) : Except Abort (Listener × Option UsockEvent × Option Nat) :=
  if self.usock.fsm ≠ .stopping ∧ self.usock.state = .cancelling ∧
      self.usock.tasks.head? = some .stop then
    match self.asock with
    | none => .error .nullPointer
    | some i =>
        .ok ({ self with usock := { self.usock with
          tasks := self.usock.tasks.tail, pollIn := false, state := .listening } },
          none, some i)
  else do
    let r ← self.usock.attempt .task
    return ({ self with usock := r.1 }, r.2, none)

end Listener

/-- `grid_usock_accept` leaves two usocks, and an event of one of them: ACCEPTED of the usock
that accepts or ACCEPT_ERROR of the listening one.  `given` is the descriptor that the former
was given. -/
structure Paired where
  accepted : AcceptedUsock
  listener : Listener
  event : Option UsockEvent := none
  given : Option Nat := none
  deriving DecidableEq, Repr

namespace AcceptedUsock

/-- `grid_usock_accept` for the usock of the connection `i`. -/
def accept (self : AcceptedUsock) (i : Nat) (listener : Listener) (stoppedActive : Bool)
    (answer : AcceptAnswer) : Except Abort Paired := do
  let self ← self.beingAccepted stoppedActive
  let usock ← listener.usock.action acceptLeads
  let listener := { listener with usock := usock }
  match answer with
  | .fd s => do
      let listener := { listener with asock := none }
      let self ← { self with asock := false }.initFromFd
      let usock ← listener.usock.action listenerDoneLeads
      let r ← self.actionDone
      return {
        accepted := r.1
        listener := { listener with usock := usock }
        event := r.2
        given := some s }
  | .error e =>
      if e = .other then .error .errnum
      else do
        -- the usock that accepts knows no other listening usock
        let self := { self with asock := true }
        gridAssert (listener.asock = none ∨ listener.asock = some i)
        let listener := { listener with asock := some i }
        if e ≠ .eagain ∧ e ≠ .econnaborted ∧ some e ≠ listener.errnum then
          return {
            accepted := self
            listener := { listener with
              usock := { listener.usock with state := .acceptingError }, errnum := some e }
            event := some .acceptError }
        else do
          let usock ← listener.usock.execute .accept
          return { accepted := self, listener := { listener with usock := usock } }

/-- `grid_usock_stop`. -/
def stop (self : AcceptedUsock) (listener : Listener) :
    Except Abort (AcceptedUsock × Listener × Option UsockEvent) :=
  if self.usock.fsm = .active ∧ self.usock.state = .beingAccepted then
    if self.asock = true then do
      let listener ← listener.cancel
      return ({ self with usock := { self.usock with fsm := .stopping, state := .stoppingAccept } },
        listener, none)
    else .error .nullPointer
  else do
    let r ← self.usock.stop
    return ({ self with usock := r.1 }, listener, r.2)

/-! ## What the two can be doing -/

/-- It waits for its connection. -/
structure Pending (a : AcceptedUsock) : Prop where
  fsm : a.usock.fsm = .active
  state : a.usock.state = .beingAccepted
  fd : a.usock.fd = false
  tasks : a.usock.tasks = []
  asock : a.asock = true

/-- It has its connection, and its owner is to hear of that. -/
structure Taken (a : AcceptedUsock) : Prop where
  fsm : a.usock.fsm = .active
  state : a.usock.state = .accepted
  fd : a.usock.fd = true
  tasks : a.usock.tasks = []
  asock : a.asock = false

/-- It was asked to stop while it waited. -/
structure Cancelled (a : AcceptedUsock) : Prop where
  fsm : a.usock.fsm = .stopping
  state : a.usock.state = .stoppingAccept
  fd : a.usock.fd = false
  tasks : a.usock.tasks = []
  asock : a.asock = true

end AcceptedUsock

namespace Listener

/-- It is off, and the worker knows nothing of it. -/
structure Shut (l : Listener) : Prop where
  usock : l.usock.Off
  tasks : l.usock.tasks = []
  pollIn : l.usock.pollIn = false

/-- No connection is waited for. -/
structure Listening (l : Listener) : Prop where
  fsm : l.usock.fsm = .active
  state : l.usock.state = .listening
  fd : l.usock.fd = true
  tasks : l.usock.tasks = []
  pollIn : l.usock.pollIn = false

/-- The worker is to wait for the connection `i`, or does. -/
structure Waiting (l : Listener) (i : Nat) : Prop where
  fsm : l.usock.fsm = .active
  state : l.usock.state = .accepting
  fd : l.usock.fd = true
  worker : l.usock.tasks = [.accept] ∧ l.usock.pollIn = false ∨
    l.usock.tasks = [] ∧ l.usock.pollIn = true
  asock : l.asock = some i

/-- `accept` has run into a resource error. -/
structure Failed (l : Listener) (i : Nat) : Prop where
  fsm : l.usock.fsm = .active
  state : l.usock.state = .acceptingError
  fd : l.usock.fd = true
  tasks : l.usock.tasks = []
  pollIn : l.usock.pollIn = false
  asock : l.asock = some i

/-- The worker is to wait no more. -/
structure Cancelling (l : Listener) (i : Nat) : Prop where
  fsm : l.usock.fsm = .active
  state : l.usock.state = .cancelling
  fd : l.usock.fd = true
  tasks : l.usock.tasks = [.accept, .stop] ∨ l.usock.tasks = [.stop]
  asock : l.asock = some i

end Listener

/-! ## Calls of `accept` -/

variable {l : Listener} {a : AcceptedUsock} {i : Nat} {answer : AcceptAnswer}

/-- The connection is there. -/
structure Paired.Got (p : Paired) (s : Nat) : Prop where
  accepted : p.accepted.Taken
  listener : p.listener.Listening
  asock : p.listener.asock = none
  event : p.event = some .accepted
  given : p.given = some s

/-- The worker has to wait for it. -/
structure Paired.Waits (p : Paired) (i : Nat) : Prop where
  accepted : p.accepted.Pending
  listener : p.listener.Waiting i
  event : p.event = none
  given : p.given = none

/-- The owner has to try again. -/
structure Paired.Fails (p : Paired) (i : Nat) : Prop where
  accepted : p.accepted.Pending
  listener : p.listener.Failed i
  event : p.event = some .acceptError
  given : p.given = none

/-- What a call of `grid_usock_accept` comes to. -/
def Paired.Comes (p : Paired) (i : Nat) (answer : AcceptAnswer) : Prop :=
  (∃ s, answer = .fd s ∧ p.Got s) ∨ (∃ e, answer = .error e) ∧ (p.Waits i ∨ p.Fails i)

namespace AcceptedUsock

/-- A call that finds the usocks prepared, up to the answer of `accept`. -/
theorem accept_ready (hl : l.usock.fsm = .active)
    (hstate : l.usock.state = .listening ∨ l.usock.state = .acceptingError)
    (hfd : l.usock.fd = true) (htasks : l.usock.tasks = []) (hpoll : l.usock.pollIn = false)
    (hlinked : l.asock = none ∨ l.asock = some i)
    (hbegin : a.beingAccepted false = .ok { a with
      usock := { a.usock with fsm := .active, state := .beingAccepted } })
    (hafd : a.usock.fd = false) (hatasks : a.usock.tasks = []) :
    (∃ p, a.accept i l false answer = .ok p ∧ p.Comes i answer) ∨
      answer = .error .other ∧ a.accept i l false answer = .error .errnum := by
  have haction : l.usock.action acceptLeads = .ok { l.usock with state := .accepting } := by
    rcases hstate with hstate | hstate <;> simp [Usock.action, hl, hstate, acceptLeads]
  have hdone : ({ l.usock with state := .accepting } : Usock).action listenerDoneLeads =
      .ok { l.usock with state := .listening } := by
    simp [Usock.action, hl, listenerDoneLeads]
  unfold accept
  rw [hbegin, ok_bind, haction, ok_bind]
  cases answer with
  | fd s =>
      left
      simp only [initFromFd, hafd, gridAssert_pos, ok_bind, pure_eq_ok, hdone, actionDone,
        reduceCtorEq, if_false]
      refine ⟨_, rfl, Or.inl ⟨s, rfl, ⟨rfl, rfl, rfl, hatasks, rfl⟩,
        ⟨hl, rfl, hfd, htasks, hpoll⟩, rfl, rfl, rfl⟩⟩
  | error e =>
      by_cases hforeseen : e = .other
      · exact Or.inr ⟨by rw [hforeseen], by simp only [hforeseen, if_true]⟩
      · left
        simp only [hforeseen, if_false, gridAssert_pos hlinked, ok_bind, pure_eq_ok]
        split
        · refine ⟨_, rfl, Or.inr ⟨⟨e, rfl⟩, Or.inr ⟨⟨rfl, rfl, hafd, hatasks, rfl⟩,
            ⟨hl, rfl, hfd, htasks, hpoll, rfl⟩, rfl, rfl⟩⟩⟩
        · simp only [Usock.execute, htasks, List.not_mem_nil, not_false_eq_true, gridAssert_pos,
            ok_bind, pure_eq_ok, List.nil_append]
          refine ⟨_, rfl, Or.inr ⟨⟨e, rfl⟩, Or.inl ⟨⟨rfl, rfl, hafd, hatasks, rfl⟩,
            ⟨hl, rfl, hfd, Or.inl ⟨rfl, hpoll⟩, rfl⟩, rfl, rfl⟩⟩⟩

/-- The first call for a connection. -/
theorem accept_listening (h : l.Listening) (hasock : l.asock = none) (i : Nat)
    (answer : AcceptAnswer) :
    (∃ p, ({} : AcceptedUsock).accept i l false answer = .ok p ∧ p.Comes i answer) ∨
      answer = .error .other ∧ ({} : AcceptedUsock).accept i l false answer = .error .errnum :=
  accept_ready h.fsm (Or.inl h.state) h.fd h.tasks h.pollIn (Or.inl hasock) rfl rfl rfl

/-- A call after a resource error. -/
theorem accept_failed (h : l.Failed i) (ha : a.Pending) (answer : AcceptAnswer) :
    (∃ p, a.accept i l false answer = .ok p ∧ p.Comes i answer) ∨
      answer = .error .other ∧ a.accept i l false answer = .error .errnum := by
  refine accept_ready h.fsm (Or.inr h.state) h.fd h.tasks h.pollIn (Or.inr h.asock) ?_ ha.fd
    ha.tasks
  have hbusy : a.usock.isIdle false = false := by simp [Usock.isIdle, ha.fsm]
  rw [beingAccepted, hbusy]
  obtain ⟨⟨fsm, state, fd, batch, inBuf, inLen, out, tasks, pollIn, pollOut⟩, asock⟩ := a
  obtain ⟨hfsm, hstate, -, -, -⟩ := ha
  simp only at hfsm hstate
  subst hfsm hstate
  rfl

/-- The owner takes the connection over. -/
theorem activate_taken (h : a.Taken) :
    ∃ a', a.activate = .ok a' ∧ a'.usock.Live ∧ a'.usock.tasks = [] := by
  refine ⟨{ a with usock := { a.usock with state := .active } }, ?_,
    ⟨h.fsm, rfl, h.fd, ?_, ?_⟩, h.tasks⟩
  · simp [activate, Usock.action, h.fsm, h.state, activateLeads]
  · simp [h.tasks]
  · simp [h.tasks]

end AcceptedUsock

namespace Listener

/-! ## The worker -/

/-- A connection arrives, or an error in its place. -/
theorem fdIn_waiting (h : l.Waiting i) (hpoll : l.usock.pollIn = true)
    (answer : AcceptAnswer) :
    (∃ l' r, l.fdIn answer = .ok (l', r) ∧
      ((∃ e, answer = .error e) ∧ r = .none ∧ l' = l ∨
        (∃ e, answer = .error e) ∧ r = .failed ∧ l'.Failed i ∨
        ∃ s, answer = .fd s ∧ r = .taken i s ∧ l'.Listening ∧ l'.asock = none)) ∨
      (answer = .error .other ∨ answer = .error .eagain) ∧ l.fdIn answer = .error .errnum := by
  have htasks : l.usock.tasks = [] := by
    rcases h.worker with ⟨-, hoff⟩ | ⟨htasks, -⟩
    · exact absurd (hoff.symm.trans hpoll) (by simp)
    · exact htasks
  have hfails : ∀ e, e ≠ .econnaborted → e ≠ .eagain → e ≠ .other →
      l.fdIn (.error e) = .ok ({ l with
        usock := { l.usock with state := .acceptingError, pollIn := false }
        errnum := some e }, .failed) := by
    intro e haborted hagain hother
    simp [fdIn, h.fsm, h.state]
  cases answer with
  | fd s =>
      left
      refine ⟨{ l with
          usock := { l.usock with state := .listening, pollIn := false }
          asock := none }, .taken i s, ?_,
        Or.inr (Or.inr ⟨s, rfl, rfl, ⟨h.fsm, rfl, h.fd, htasks, rfl⟩, rfl⟩)⟩
      simp [fdIn, h.fsm, h.state, h.asock]
  | error e =>
      cases e with
      | eagain => exact Or.inr ⟨Or.inr rfl, by simp [fdIn, h.fsm, h.state]⟩
      | other => exact Or.inr ⟨Or.inl rfl, by simp [fdIn, h.fsm, h.state]⟩
      | econnaborted =>
          left
          refine ⟨l, .none, ?_, Or.inl ⟨⟨_, rfl⟩, rfl, rfl⟩⟩
          simp [fdIn, h.fsm, h.state]
      | enfile | emfile | enobufs | enomem =>
          left
          exact ⟨_, .failed, hfails _ (by simp) (by simp) (by simp),
            Or.inr (Or.inl ⟨⟨_, rfl⟩, rfl, h.fsm, rfl, h.fd, htasks, rfl, h.asock⟩)⟩

theorem fdIn_cancelling (h : l.Cancelling i) (answer : AcceptAnswer) :
    l.fdIn answer = .ok (l, .none) := by
  simp [fdIn, h.fsm, h.state]

/-- The worker begins to wait. -/
theorem runTask_waiting (h : l.Waiting i) (htasks : l.usock.tasks ≠ []) :
    ∃ l', l.runTask = .ok (l', none, none) ∧ l'.Waiting i ∧ l'.usock.tasks = [] := by
  rcases h.worker with ⟨haccept, -⟩ | ⟨hnil, -⟩
  · refine ⟨{ l with usock := { l.usock with
      tasks := [], pollIn := true, pollOut := false } }, ?_,
      ⟨h.fsm, h.state, h.fd, Or.inr ⟨rfl, rfl⟩, h.asock⟩, rfl⟩
    simp [runTask, h.state, Usock.attempt, h.fsm, Usock.work, Usock.runTask, haccept,
      Usock.feedTask, h.fd]
  · exact absurd hnil htasks

/-- The worker takes a task of a usock that is to wait no more. -/
theorem runTask_cancelling (h : l.Cancelling i) :
    (∃ l', l.runTask = .ok (l', none, none) ∧ l'.Cancelling i ∧
      l'.usock.tasks.length < l.usock.tasks.length) ∨
    ∃ l', l.runTask = .ok (l', none, some i) ∧ l'.Listening ∧
      l'.usock.tasks.length < l.usock.tasks.length := by
  rcases h.tasks with htasks | htasks
  · refine Or.inl ⟨{ l with usock := { l.usock with
      tasks := [.stop], pollIn := true, pollOut := false } }, ?_,
      ⟨h.fsm, h.state, h.fd, Or.inr rfl, h.asock⟩, by simp [htasks]⟩
    simp [runTask, h.state, Usock.attempt, h.fsm, Usock.work, Usock.runTask, htasks,
      Usock.feedTask, h.fd]
  · refine Or.inr ⟨{ l with usock := { l.usock with
      tasks := [], pollIn := false, state := .listening } }, ?_,
      ⟨h.fsm, rfl, h.fd, rfl, rfl⟩, by simp [htasks]⟩
    simp [runTask, h.state, h.fsm, htasks, h.asock]

/-! ## Stopping -/

/-- A usock that waits for no connection, or was not told to listen, is stopped at once. -/
theorem stop_fresh (hfsm : l.usock.fsm = .active)
    (hstate : l.usock.state = .listening ∨ l.usock.state = .starting)
    (htasks : l.usock.tasks = []) (hpoll : l.usock.pollIn = false) :
    ∃ l', l.stop = .ok (l', some .stopped) ∧ l'.Shut ∧ l'.asock = l.asock := by
  refine ⟨{ l with usock := l.usock.finish.1, errnum := none }, ?_,
    ⟨⟨rfl, rfl, rfl, ?_, ?_, ?_⟩, htasks, hpoll⟩, rfl⟩
  · rcases hstate with hstate | hstate <;> simp [stop, Usock.stop, hfsm, hstate, Usock.finish]
  · simp [Usock.finish, htasks]
  · simp [Usock.finish, htasks]
  · simp [Usock.finish, htasks]

end Listener

namespace AcceptedUsock

/-- Both usocks take the stop of the one that waits. -/
theorem stop_pending (h : a.Pending) (hl : l.Waiting i) :
    ∃ a' l', a.stop l = .ok (a', l', none) ∧ a'.Cancelled ∧ l'.Cancelling i := by
  have hnew : UsockTask.stop ∉ ({ l.usock with state := .cancelling } : Usock).tasks := by
    rcases hl.worker with ⟨htasks, -⟩ | ⟨htasks, -⟩ <;> simp [htasks]
  have hcancel : l.cancel = .ok { l with usock := { l.usock with
      state := .cancelling, tasks := l.usock.tasks ++ [.stop] } } := by
    have hrun : l.usock.fsm ≠ .stopping := by simp [hl.fsm]
    rw [Listener.cancel, if_neg hrun]
    simp only [hl.state, Usock.execute_new hnew, ok_bind, pure_eq_ok]
  refine ⟨{ a with usock := { a.usock with fsm := .stopping, state := .stoppingAccept } },
    { l with usock := { l.usock with
      state := .cancelling, tasks := l.usock.tasks ++ [.stop] } },
    ?_, ⟨rfl, rfl, h.fd, h.tasks, h.asock⟩, ⟨hl.fsm, rfl, hl.fd, ?_, hl.asock⟩⟩
  · rw [stop, if_pos ⟨h.fsm, h.state⟩, if_pos h.asock, hcancel]
    rfl
  · rcases hl.worker with ⟨htasks, -⟩ | ⟨htasks, -⟩ <;> simp [htasks]

/-- It hears that it was cancelled. -/
theorem actionDone_cancelled (h : a.Cancelled) :
    ∃ a', a.actionDone = .ok (a', some .stopped) ∧ a'.usock.Off ∧ a'.usock.tasks = [] := by
  refine ⟨{ a with usock := { a.usock with state := .idle, fsm := .idle } }, ?_,
    ⟨rfl, rfl, h.fd, ?_, ?_, ?_⟩, h.tasks⟩
  · simp [actionDone, h.fsm, h.state]
  · simp [h.tasks]
  · simp [h.tasks]
  · simp [h.tasks]

/-- The listening usock hands it a connection. -/
theorem take_pending (h : a.Pending) :
    ∃ a', a.take = .ok (a', some .accepted) ∧ a'.Taken := by
  refine ⟨{ usock := { a.usock with fd := true, state := .accepted }, asock := false }, ?_,
    ⟨h.fsm, rfl, rfl, h.tasks, rfl⟩⟩
  simp [take, initFromFd, h.fd]

end AcceptedUsock

/-! ## The tasks of a connection -/

namespace Usock

variable {u u' : Usock} {e : Option UsockEvent}

/-- Its tasks are those of a connection, and each is queued once. -/
structure Tidy (u : Usock) : Prop where
  nodup : u.tasks.Nodup
  only : ∀ t ∈ u.tasks, t = .send ∨ t = .recv ∨ t = .stop

instance (u : Usock) : Decidable u.Tidy :=
  decidable_of_iff (u.tasks.Nodup ∧ ∀ t ∈ u.tasks, t = .send ∨ t = .recv ∨ t = .stop)
    ⟨fun ⟨h₁, h₂⟩ => ⟨h₁, h₂⟩, fun h => ⟨h.nodup, h.only⟩⟩

theorem Tidy.of_nil (h : u.tasks = []) : u.Tidy := ⟨by simp [h], by simp [h]⟩

theorem Tidy.of_tail (h : u.Tidy) (htasks : u'.tasks = u.tasks.tail) : u'.Tidy := by
  refine ⟨?_, fun t ht => ?_⟩
  · rw [htasks]
    exact h.nodup.tail
  · rw [htasks] at ht
    exact h.only t (List.mem_of_mem_tail ht)

theorem Tidy.of_same (h : u.Tidy) (htasks : u'.tasks = u.tasks) : u'.Tidy :=
  ⟨htasks ▸ h.nodup, htasks ▸ h.only⟩

theorem Tidy.of_stop (h : u.Tidy) (hnew : UsockTask.stop ∉ u.tasks)
    (htasks : u'.tasks = u.tasks ++ [.stop]) : u'.Tidy := by
  refine ⟨?_, fun t ht => ?_⟩
  · rw [htasks]
    exact List.nodup_append.mpr ⟨h.nodup, by simp, fun a ha b hb => by
      rintro rfl
      exact hnew (List.mem_singleton.mp hb ▸ ha)⟩
  · rw [htasks, List.mem_append] at ht
    rcases ht with ht | ht
    · exact h.only t ht
    · exact Or.inr (Or.inr (List.mem_singleton.mp ht))

/-- What a stop does to the tasks. -/
theorem stop_tasks (h : Usock.stop u = .ok (u', e)) :
    u'.tasks = u.tasks ∨ UsockTask.stop ∉ u.tasks ∧ u'.tasks = u.tasks ++ [.stop] := by
  unfold Usock.stop at h
  split at h
  · simp only at h
    split at h
    case h_11 =>
      obtain ⟨v, hv, hret⟩ := bind_eq_ok_iff.mp h
      obtain ⟨_, hnew, hpush⟩ := bind_eq_ok_iff.mp hv
      cases hret
      cases hpush
      exact Or.inr ⟨gridAssert_eq_ok_iff.mp hnew, rfl⟩
    all_goals cases h
    all_goals exact Or.inl rfl
  · cases h
    exact Or.inl rfl

theorem stop_tidy (h : u.Tidy) (hcall : Usock.stop u = .ok (u', e)) : u'.Tidy := by
  rcases stop_tasks hcall with htasks | ⟨hnew, htasks⟩
  · exact h.of_same htasks
  · exact h.of_stop hnew htasks

theorem feedTask_tasks {task : UsockTask} (h : u.feedTask task = .ok (u', e)) :
    u'.tasks = u.tasks := by
  cases task with
  | stop =>
      unfold feedTask at h
      simp only at h
      split at h
      · cases h
        rfl
      · exact absurd h (by simp)
  | _ =>
      cases h
      rfl

/-- Of a usock that was asked to stop the worker takes one task. -/
theorem shutdownTask_tasks (h : u.shutdownTask = .ok (u', e)) : u'.tasks = u.tasks.tail := by
  unfold shutdownTask at h
  split at h
  · rename_i hnil
    cases h
    simp [hnil]
  · rename_i tasks htasks
    split at h
    · cases h
      simp [htasks]
    · exact absurd h (by simp)
  · rename_i task tasks hne htasks
    rw [feedTask_tasks h, htasks]
    rfl

end Usock

/-! ## Terminating a usock -/

namespace AcceptedUsock

/-- A usock that has stopped can be terminated where no tasks are left. -/
theorem term_off (h : a.usock.Off) (cancelled : Bool) :
    a.term false false cancelled =
      if a.left cancelled = [] then .ok () else .error .assertion := by
  have hidle : a.usock.isIdle false = true := by rw [h.isIdle]; rfl
  rw [term, gridAssert_pos h.state, ok_bind, gridAssert_pos rfl, ok_bind, gridAssert_pos hidle,
    gridAssert]
  split
  · rfl
  · rfl

end AcceptedUsock

end GridMq.Aio
