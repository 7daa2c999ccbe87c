import GridMq.Transports.Bound

set_option autoImplicit false

/-!
# The connections of a bound endpoint, step by step

What a connection can be doing with its events in the queue of the context, and what the
calls of `atcp.c` and `aipc.c` make of it.
-/

namespace GridMq.Transports

open GridMq.Aio

@[simp] theorem Site.call_ok {β : Type} (site : Site) (a : β) : site.call (.ok a) = .ok a := rfl

@[simp] theorem Site.call_error {β : Type} (site : Site) (e : Abort) :
    site.call (.error e : Except Abort β) = .error ⟨site, e⟩ := rfl

/-! ## Events about a connection -/

/-- The connection that an event is for or from. -/
def BoundEvent.conn? : BoundEvent → Option Nat
  | .listener (.connection i) _ => some i
  | .usock i _ => some i
  | .session i _ => some i
  | .connection i _ => some i
  | _ => none

/-- An event that a connection or one of its machines raises. -/
def BoundEvent.Kid (i : Nat) : BoundEvent → Prop
  | .usock j _ => j = i
  | .session j _ => j = i
  | .connection j _ => j = i
  | _ => False

/-- What is in the queue about a connection. -/
def about (i : Nat) (events : List BoundEvent) : List BoundEvent :=
  events.filter fun e => e.conn? == some i

variable {i j : Nat} {e : BoundEvent} {l l' : List BoundEvent}

theorem BoundEvent.Kid.conn? (h : e.Kid i) : e.conn? = some i := by
  cases e with
  | usock j x => exact congrArg some h
  | session j x => exact congrArg some h
  | connection j x => exact congrArg some h
  | listener o x => exact h.elim
  | retry x => exact h.elim
  | inner j => exact h.elim

@[simp] theorem about_nil : about i [] = [] := rfl

theorem about_append : about i (l ++ l') = about i l ++ about i l' := List.filter_append l l'

theorem about_cons (h : e.conn? = some i) : about i (e :: l) = e :: about i l := by
  simp [about, h]

theorem about_cons_ne (h : e.conn? ≠ some i) : about i (e :: l) = about i l := by
  simp [about, h]

theorem about_eq_nil (h : ∀ e ∈ l, e.conn? ≠ some i) : about i l = [] := by
  simpa [about, List.filter_eq_nil_iff] using h

theorem mem_about : e ∈ about i l ↔ e ∈ l ∧ e.conn? = some i := by
  simp [about]

/-- Whether an event is queued is seen from what is queued about its connection. -/
theorem mem_of_kid (h : e.Kid i) : e ∈ l ↔ e ∈ about i l := by
  simp [mem_about, h.conn?]

theorem usock_mem {x : UsockEvent} :
    BoundEvent.usock i x ∈ l ↔ BoundEvent.usock i x ∈ about i l := mem_of_kid rfl

theorem session_mem {x : SessionEvent} :
    BoundEvent.session i x ∈ l ↔ BoundEvent.session i x ∈ about i l := mem_of_kid rfl

theorem connection_mem {x : AcceptedEvent} :
    BoundEvent.connection i x ∈ l ↔ BoundEvent.connection i x ∈ about i l := mem_of_kid rfl

/-- So is whether it can be raised. -/
theorem item_of_kid (h : e.Kid i) (hnew : e.item ∉ (about i l).map BoundEvent.item) :
    e.item ∉ l.map BoundEvent.item := by
  intro hmem
  obtain ⟨e', he', hitem⟩ := List.mem_map.mp hmem
  refine hnew (List.mem_map.mpr ⟨e', mem_about.mpr ⟨he', ?_⟩, hitem⟩)
  cases e <;> cases e' <;> simp_all [BoundEvent.item, BoundEvent.Kid, BoundEvent.conn?]

/-! ## What a connection can be doing -/

namespace Accepted

variable {c : Accepted} {q : List BoundEvent}

/-- The session runs; that it has ended may be in the queue. -/
structure Serves (c : Accepted) (i : Nat) (q : List BoundEvent) : Prop where
  usock : c.usock.usock.Held
  tidy : c.usock.usock.Tidy
  listener : c.listener = false
  fsm : c.session.fsm = .active
  holds : c.session.usock = true
  report : c.session.done = false ∧ q = [] ∨ c.session.done = true ∧ q = [.session i .error]

/-- The session was asked to stop. -/
structure SessionLeaves (c : Accepted) (i : Nat) (q : List BoundEvent) : Prop where
  usock : c.usock.usock.Held
  tidy : c.usock.usock.Tidy
  listener : c.listener = false
  ends : c.session.Leaving ∧ q = [] ∨ c.session.Idle ∧ q = [.session i .stopped]

/-- The usock was asked to stop. -/
structure UsockLeaves (c : Accepted) (i : Nat) (q : List BoundEvent) : Prop where
  tidy : c.usock.usock.Tidy
  listener : c.listener = false
  session : c.session.Idle
  ends : c.usock.usock.Closing ∧ (q = [] ∨ q = [.usock i .shutdown]) ∨
    c.usock.usock.Off ∧ q = [.usock i .stopped]

/-- Usock and session have stopped. -/
structure Rests (c : Accepted) : Prop where
  usock : c.usock.usock.Off
  tidy : c.usock.usock.Tidy
  listener : c.listener = false
  session : c.session.Idle

/-- The connection was not asked to stop. -/
def Runs (c : Accepted) (i : Nat) (q : List BoundEvent) : Prop :=
  c.fsm = .active ∧
    (c.state = .active ∧ c.Serves i q ∨ c.state = .stoppingSession ∧ c.SessionLeaves i q ∨
      c.state = .stoppingUsock ∧ c.UsockLeaves i q ∨
      c.state = .done ∧ c.Rests ∧ (q = [] ∨ q = [.connection i .error]))

/-- It has stopped, and the endpoint is to hear of that. -/
structure Stopped (c : Accepted) (i : Nat) (q : List BoundEvent) : Prop where
  fsm : c.fsm = .idle
  state : c.state = .idle
  rests : c.Rests
  queue : q = [.connection i .stopped]

/-- The connection was asked to stop. -/
def Ends (c : Accepted) (i : Nat) (q : List BoundEvent) : Prop :=
  c.fsm = .stopping ∧
      (c.state = .stoppingSessionFinal ∧ c.SessionLeaves i q ∨
        c.state = .stopping ∧ c.UsockLeaves i q) ∨
    c.Stopped i q

/-- What is left to do until a connection has stopped. -/
def weight (c : Accepted) : Nat :=
  (match c.fsm, c.state with
    | .active, .active => 60
    | .active, .stoppingSession => 50
    | .active, .stoppingUsock => 40
    | .active, .done => 30
    | .stopping, .stoppingSessionFinal => 20
    | .stopping, .stopping => 10
    | _, _ => 0) +
  (if c.session.fsm = .stopping then 2 else 0) + 2 * c.usock.usock.tasks.length

theorem Runs.fsm (h : c.Runs i q) : c.fsm = .active := h.1

theorem Ends.fsm (h : c.Ends i q) : c.fsm ≠ .active := by
  rcases h with ⟨hfsm, -⟩ | hstopped
  · simp [hfsm]
  · simp [hstopped.fsm]

end Accepted

namespace Bound

variable {α ρ : Type} {s s' s'' : Bound α} {c c' c'' : Accepted} {new new' : List BoundEvent}
  {os : ListenAnswers ρ} {T : ListenTransport α ρ}

/-! ## Steps of one connection -/

@[simp] theorem setConn_self (c : Option Accepted) : (s.setConn i c).conns i = c := if_pos rfl

@[simp] theorem setConn_events (c : Option Accepted) : (s.setConn i c).events = s.events := rfl

@[simp] theorem setConn_owner (c : Option Accepted) : (s.setConn i c).owner = s.owner := rfl

theorem setConn_other (c : Option Accepted) (h : j ≠ i) : (s.setConn i c).conns j = s.conns j :=
  if_neg h

theorem setConn_same (h : s.conns i = some c) : s.setConn i (some c) = s := by
  have hconns : (fun k => if k = i then some c else s.conns k) = s.conns := by
    funext k
    split
    · rename_i hk
      rw [hk, h]
    · rfl
  rw [setConn, hconns]

theorem conn_eq (h : s.conns i = some c) : s.conn i = .ok c := by
  simp only [conn, h]

/-- Nothing but the connection `i`, its events and the statistics changes. -/
structure Moves (s s' : Bound α) (i : Nat) (c' : Accepted) (new : List BoundEvent) : Prop where
  eq : ∃ stat, s' = { s.setConn i (some c') with events := s.events ++ new, stat := stat }
  counts : s.stat.Counts 0 → s'.stat.Counts 0
  only : ∀ e ∈ new, e.Kid i ∨ e = .inner i

theorem Moves.conn (h : Moves s s' i c' new) : s'.conns i = some c' := by
  obtain ⟨stat, rfl⟩ := h.eq
  exact setConn_self _

theorem Moves.events (h : Moves s s' i c' new) : s'.events = s.events ++ new := by
  obtain ⟨stat, rfl⟩ := h.eq
  rfl

theorem Moves.about_self (h : Moves s s' i c' new) :
    about i s'.events = about i s.events ++ about i new := by
  rw [h.events, about_append]

theorem Moves.about_other (h : Moves s s' i c' new) (hj : j ≠ i) :
    about j s'.events = about j s.events := by
  have hnone : about j new = [] := by
    apply about_eq_nil
    intro e he hconn
    rcases h.only e he with hkid | rfl
    · exact hj (Option.some.inj (hconn.symm.trans hkid.conn?))
    · exact absurd hconn (by simp [BoundEvent.conn?])
  rw [h.events, about_append, hnone, List.append_nil]

theorem Moves.trans (h : Moves s s' i c' new) (h' : Moves s' s'' i c'' new') :
    Moves s s'' i c'' (new ++ new') := by
  refine ⟨?_, fun hs => h'.counts (h.counts hs), ?_⟩
  · obtain ⟨stat, rfl⟩ := h.eq
    obtain ⟨stat', rfl⟩ := h'.eq
    refine ⟨stat', ?_⟩
    have hconns : (fun k => if k = i then some c'' else
        if k = i then some c' else s.conns k) = fun k => if k = i then some c'' else s.conns k := by
      funext k
      split <;> rfl
    simp only [setConn, List.append_assoc, hconns]
  · intro e he
    rcases List.mem_append.mp he with he | he
    · exact h.only e he
    · exact h'.only e he

theorem Moves.set (s : Bound α) (i : Nat) (c' : Accepted) :
    Moves s (s.setConn i (some c')) i c' [] :=
  ⟨⟨s.stat, by simp [setConn]⟩, id, by simp⟩

theorem Moves.refl (h : s.conns i = some c) : Moves s s i c [] := by
  have hset := Moves.set s i c
  rwa [setConn_same h] at hset

/-- A field of the connection is written last. -/
theorem Moves.setConn (h : Moves s s' i c' new) (c'' : Accepted) :
    Moves s (s'.setConn i (some c'')) i c'' new := by
  have hset := h.trans (Moves.set s' i c'')
  rwa [List.append_nil] at hset

/-- An event of the connection is raised. -/
theorem raise_spec (h : s.conns i = some c) (he : e.Kid i)
    (hnew : e.item ∉ (about i s.events).map BoundEvent.item) :
    s.raise e = .ok { s with events := s.events ++ [e] } ∧
      Moves s { s with events := s.events ++ [e] } i c [e] := by
  constructor
  · simp only [raise, raiseEvent_ok (item_of_kid he hnew), Site.call_ok, ok_bind, pure_eq_ok]
  · refine ⟨⟨s.stat, ?_⟩, id, by simp [he]⟩
    rw [setConn_same h]

/-- An event for the machines below a session. -/
theorem Moves.inner (h : Moves s s' i c' new) (inner : Bool) :
    Moves s { s' with events := s'.events ++ if inner then [.inner i] else [] } i c'
      (new ++ if inner then [.inner i] else []) := by
  refine h.trans ⟨⟨s'.stat, ?_⟩, id, ?_⟩
  · rw [setConn_same h.conn]
  · cases inner <;> simp

/-- Counting an event of the connection. -/
theorem increment_spec (h : s.conns i = some c) (hs : s.stat.Counts 0) (name : Stat)
    (hprogress : name ≠ .inprogressConnections) (herrors : name ≠ .currentEpErrors) :
    ∃ s', s.increment name 1 = .ok s' ∧ Moves s s' i c [] := by
  obtain ⟨stat, hstat, hcounts⟩ := hs.event name hprogress herrors
  refine ⟨{ s with stat := stat }, ?_, ⟨stat, ?_⟩, fun _ => hcounts, by simp⟩
  · simp only [increment, hstat, Site.call_ok, ok_bind, pure_eq_ok]
  · rw [setConn_same h, List.append_nil]

/-! ## Stopping the usock and the session -/

/-- The usock that the session has given back is asked to stop. -/
theorem stopUsock_held (h : s.conns i = some c) (hq : about i s.events = [])
    (hu : c.usock.usock.Held) (ht : c.usock.usock.Tidy) (hsession : c.session.Idle)
    (hlistener : c.listener = false) :
    ∃ s' c' new, s.stopUsock i = .ok s' ∧ Moves s s' i c' new ∧ c'.UsockLeaves i (about i new) ∧
      c'.fsm = c.fsm ∧ c'.session = c.session ∧
      2 * c'.usock.usock.tasks.length + new.length ≤ 2 * c.usock.usock.tasks.length + 3 := by
  obtain ⟨u, e, hcall, hstopping, he, hload⟩ := Usock.stop_held hu
  have hfirst : ¬(c.usock.usock.fsm = .active ∧ c.usock.usock.state = .beingAccepted) := by
    rintro ⟨-, hstate⟩
    rcases hu with hu | hu | hu <;> exact absurd (hu.state.symm.trans hstate) (by simp)
  have hstop : c.usock.stop s.usock = .ok ({ c.usock with usock := u }, s.usock, e) := by
    simp only [AcceptedUsock.stop, if_neg hfirst, hcall, ok_bind, pure_eq_ok]
  have hends : u.Closing ∧ (e.map (BoundEvent.usock i)).toList = [] ∨
      u.Closing ∧ (e.map (BoundEvent.usock i)).toList = [.usock i .shutdown] ∨
      u.Off ∧ (e.map (BoundEvent.usock i)).toList = [.usock i .stopped] := by
    rcases he with rfl | rfl | rfl
    · exact Or.inl ⟨hstopping.nil, rfl⟩
    · exact Or.inr (Or.inl ⟨(hstopping.tail (by simp)).nil, rfl⟩)
    · exact Or.inr (Or.inr ⟨hstopping.of_last.1, rfl⟩)
  have hset := Moves.set s i { c with usock := { c.usock with usock := u } }
  have hraise : ∃ s', (s.setConn i (some { c with usock := { c.usock with usock := u } })).raise?
      (e.map (.usock i)) = .ok s' ∧
      Moves s s' i { c with usock := { c.usock with usock := u } }
        (e.map (BoundEvent.usock i)).toList := by
    cases e with
    | none => exact ⟨_, rfl, hset⟩
    | some x =>
        obtain ⟨hr, hmoves⟩ := raise_spec (e := .usock i x) hset.conn rfl (by simp [hq])
        exact ⟨_, hr, by simpa using hset.trans hmoves⟩
  obtain ⟨s', hr, hmoves⟩ := hraise
  refine ⟨s', _, _, ?_, hmoves, ⟨Usock.stop_tidy ht hcall, hlistener, hsession, ?_⟩, rfl, rfl, ?_⟩
  · simp only [stopUsock, conn_eq h, ok_bind, hstop, Site.call_ok]
    exact hr
  · rcases hends with ⟨hu', hnew⟩ | ⟨hu', hnew⟩ | ⟨hu', hnew⟩
    · exact Or.inl ⟨hu', Or.inl (by simp [hnew])⟩
    · exact Or.inl ⟨hu', Or.inr (by simp [hnew, about, BoundEvent.conn?])⟩
    · exact Or.inr ⟨hu', by simp [hnew, about, BoundEvent.conn?]⟩
  · cases e <;> simpa using hload

/-- A usock that is off or on its way there is left alone. -/
theorem stopUsock_same (h : s.conns i = some c)
    (hu : c.usock.usock.Closing ∨ c.usock.usock.Off) : s.stopUsock i = .ok s := by
  have hfirst : ¬(c.usock.usock.fsm = .active ∧ c.usock.usock.state = .beingAccepted) := by
    rintro ⟨hfsm, -⟩
    rcases hu with hu | hu <;> exact absurd (hu.fsm.symm.trans hfsm) (by simp)
  have hcall : Usock.stop c.usock.usock = .ok (c.usock.usock, none) := by
    rcases hu with hu | hu
    · exact hu.stop_eq
    · exact hu.stop_eq
  have hstop : c.usock.stop s.usock = .ok (c.usock, s.usock, none) := by
    simp only [AcceptedUsock.stop, if_neg hfirst, hcall, ok_bind, pure_eq_ok]
  simp only [stopUsock, conn_eq h, ok_bind, hstop, Site.call_ok, Option.map_none, raise?]
  have hsame : { c with usock := c.usock } = c := rfl
  rw [hsame, setConn_same h]

/-- The session is asked to stop. -/
theorem stopSession_spec (os : ListenAnswers ρ) (h : s.conns i = some c) (hq : about i s.events = [])
    (hholds : c.session.usock = true) (hfsm : c.session.fsm = .active ∨ c.session.fsm = .stopping)
    (hu : c.usock.usock.Held) (ht : c.usock.usock.Tidy) (hlistener : c.listener = false) :
    ∃ s' c' new, s.stopSession os i = .ok s' ∧ Moves s s' i c' new ∧
      c'.SessionLeaves i (about i new) ∧ c'.fsm = c.fsm ∧ c'.usock = c.usock ∧
      new.length ≤ 2 := by
  have hset := Moves.set s i { c with session := c.session.stop }
  have hstopped : c.session.stop.Leaving := by
    rcases hfsm with hfsm | hfsm
    · exact ⟨by simp [SessionFsm.stop, hfsm], by simp [SessionFsm.stop, hfsm, hholds]⟩
    · exact ⟨by simp [SessionFsm.stop, hfsm], by simp [SessionFsm.stop, hfsm, hholds]⟩
  unfold stopSession
  simp only [conn_eq h, ok_bind]
  by_cases hnow : c.session.fsm = .active ∧ i ∈ os.now
  · obtain ⟨hr, hmoves⟩ := raise_spec (e := .session i .stopped)
      (hset.setConn { c with session := c.session.stop.finish.1 }).conn rfl
      (by simp [hq])
    have hfinish := (hset.setConn { c with session := c.session.stop.finish.1 }).trans hmoves
    have hall := hfinish.inner (decide (i ∈ os.inners))
    refine ⟨_, _, _, ?_, hall, ⟨hu, ht, hlistener, Or.inr ⟨⟨rfl, rfl⟩, ?_⟩⟩, rfl, rfl, ?_⟩
    · rw [if_pos hnow, finishSession, conn_eq hset.conn, ok_bind]
      simp only [decide_eq_true_eq]
      rw [show (SessionFsm.finish _).2 = SessionEvent.stopped from rfl, hr]
      rfl
    · by_cases hi : i ∈ os.inners <;> simp [hi, about, BoundEvent.conn?]
    · by_cases hi : i ∈ os.inners <;> simp [hi]
  · have hall := hset.inner (decide (i ∈ os.inners))
    refine ⟨_, _, _, ?_, hall, ⟨hu, ht, hlistener, Or.inl ⟨hstopped, ?_⟩⟩, rfl, rfl, ?_⟩
    · rw [if_neg hnow]
      simp only [decide_eq_true_eq, pure_eq_ok]
    · by_cases hi : i ∈ os.inners <;> simp [hi, about, BoundEvent.conn?]
    · by_cases hi : i ∈ os.inners <;> simp [hi]

/-! ## The shutdown of a connection -/

/-- A connection waits until its usock has stopped. -/
theorem connShutdownStopping_busy (h : s.conns i = some c)
    (hu : c.usock.usock.Closing ∨ BoundEvent.usock i .stopped ∈ about i s.events) :
    s.connShutdownStopping i = .ok s := by
  have hbusy : s.usockIsIdle i c = false := by
    rcases hu with hu | hmem
    · exact hu.isIdle _
    · have hin : BoundEvent.usock i .stopped ∈ s.events := usock_mem.mpr hmem
      simp [usockIsIdle, Usock.isIdle, hin]
  simp only [connShutdownStopping, conn_eq h, ok_bind, hbusy, if_true, pure_eq_ok]

/-- Then it has stopped itself. -/
theorem connShutdownStopping_rests (h : s.conns i = some c) (hq : about i s.events = [])
    (hfsm : c.fsm = .stopping) (hrests : c.Rests) :
    ∃ s' c', s.connShutdownStopping i = .ok s' ∧ Moves s s' i c' [.connection i .stopped] ∧
      c'.Stopped i [.connection i .stopped] ∧ c'.weight ≤ 2 * c.usock.usock.tasks.length := by
  have hin : BoundEvent.usock i .stopped ∉ s.events := by
    rw [usock_mem, hq]
    simp
  have hidle : s.usockIsIdle i c = true := by simp [usockIsIdle, hrests.usock.isIdle, hin]
  obtain ⟨hr, hmoves⟩ := raise_spec (e := .connection i .stopped) h rfl (by simp [hq])
  refine ⟨_, { c with state := .idle, fsm := .idle }, ?_, hmoves.setConn _,
    ⟨rfl, rfl, ⟨hrests.usock, hrests.tidy, hrests.listener, hrests.session⟩, rfl⟩, ?_⟩
  · have hgiven : s.releaseListener i c = .ok s := by
      rw [releaseListener, if_neg (by simp [hrests.listener])]
    simp only [connShutdownStopping, conn_eq h, ok_bind, hidle, hgiven, gridAssert_pos hfsm,
      Site.call_ok, hr, Bool.true_eq_false, if_false, pure_eq_ok]
  · simp [Accepted.weight, hrests.session.fsm]

/-- A connection waits until its session has stopped. -/
theorem connShutdownSession_busy (h : s.conns i = some c)
    (hu : c.session.Leaving ∨ BoundEvent.session i .stopped ∈ about i s.events) :
    s.connShutdownSession i = .ok s := by
  have hbusy : s.sessionIsIdle i c = false := by
    rcases hu with hu | hmem
    · exact hu.isIdle _
    · have hin : BoundEvent.session i .stopped ∈ s.events := session_mem.mpr hmem
      simp [sessionIsIdle, SessionFsm.isIdle, hin]
  simp only [connShutdownSession, conn_eq h, ok_bind, hbusy, if_true, pure_eq_ok]

theorem sessionIsIdle_of_idle (h : c.session.Idle) (hq : about i s.events = []) :
    s.sessionIsIdle i c = true := by
  have hin : BoundEvent.session i .stopped ∉ s.events := by
    rw [session_mem, hq]
    simp
  simp [sessionIsIdle, h.isIdle, hin]

/-- Then it stops its usock. -/
theorem connShutdownSession_held (h : s.conns i = some c) (hq : about i s.events = [])
    (hfsm : c.fsm = .stopping) (hu : c.usock.usock.Held) (ht : c.usock.usock.Tidy)
    (hsession : c.session.Idle) (hlistener : c.listener = false) :
    ∃ s' c' new, s.connShutdownSession i = .ok s' ∧ Moves s s' i c' new ∧
      c'.Ends i (about i new) ∧
      c'.weight + new.length ≤ 13 + 2 * c.usock.usock.tasks.length := by
  obtain ⟨s₁, c₁, new, hstop, hmoves, hleaves, hfsm₁, hsession₁, hload⟩ :=
    stopUsock_held h hq hu ht hsession hlistener
  have hset := hmoves.setConn { c₁ with state := .stopping }
  have hqueue : about i (s₁.setConn i (some { c₁ with state := .stopping })).events =
      about i new := by
    rw [setConn_events, hmoves.about_self, hq, List.nil_append]
  have hbusy : (s₁.setConn i (some { c₁ with state := .stopping })).connShutdownStopping i =
      .ok (s₁.setConn i (some { c₁ with state := .stopping })) := by
    apply connShutdownStopping_busy hset.conn
    rcases hleaves.ends with ⟨hclosing, -⟩ | ⟨-, hq'⟩
    · exact Or.inl hclosing
    · right
      rw [hqueue, hq']
      exact List.mem_singleton_self _
  refine ⟨_, _, new, ?_, hset, Or.inl ⟨hfsm₁.trans hfsm, Or.inr ⟨rfl, hleaves.tidy,
    hleaves.listener, hleaves.session, hleaves.ends⟩⟩, ?_⟩
  · simp only [connShutdownSession, conn_eq h, ok_bind, sessionIsIdle_of_idle hsession hq, hstop,
      conn_eq hmoves.conn, hbusy, Bool.true_eq_false, if_false]
  · have hidle : c₁.session.fsm = .idle := hleaves.session.fsm
    simp only [Accepted.weight, hidle, hfsm₁, hfsm, reduceCtorEq, if_false]
    omega

/-- Its usock may be on its way to stop. -/
theorem connShutdownSession_closing (h : s.conns i = some c) (hq : about i s.events = [])
    (hfsm : c.fsm = .stopping) (hu : c.UsockLeaves i []) :
    ∃ s' c' new, s.connShutdownSession i = .ok s' ∧ Moves s s' i c' new ∧
      c'.Ends i (about i new) ∧
      c'.weight + new.length ≤ 13 + 2 * c.usock.usock.tasks.length := by
  have hclosing : c.usock.usock.Closing := by
    rcases hu.ends with ⟨hclosing, -⟩ | ⟨-, hnil⟩
    · exact hclosing
    · exact absurd hnil (by simp)
  have hset := Moves.set s i { c with state := .stopping }
  refine ⟨_, _, [], ?_, hset, Or.inl ⟨hfsm, Or.inr ⟨rfl, hu.tidy, hu.listener, hu.session,
    Or.inl ⟨hclosing, Or.inl rfl⟩⟩⟩, ?_⟩
  · simp only [connShutdownSession, conn_eq h, ok_bind, sessionIsIdle_of_idle hu.session hq,
      stopUsock_same h (Or.inl hclosing), connShutdownStopping_busy hset.conn (Or.inl hclosing),
      Bool.true_eq_false, if_false]
  · simp only [Accepted.weight, hu.session.fsm, hfsm, reduceCtorEq, if_false, List.length_nil]
    omega

/-- Or it has stopped. -/
theorem connShutdownSession_rests (h : s.conns i = some c) (hq : about i s.events = [])
    (hfsm : c.fsm = .stopping) (hrests : c.Rests) :
    ∃ s' c' new, s.connShutdownSession i = .ok s' ∧ Moves s s' i c' new ∧
      c'.Stopped i (about i new) ∧
      c'.weight + new.length ≤ 13 + 2 * c.usock.usock.tasks.length := by
  have hset := Moves.set s i { c with state := .stopping }
  have hrests' : ({ c with state := .stopping } : Accepted).Rests :=
    ⟨hrests.usock, hrests.tidy, hrests.listener, hrests.session⟩
  obtain ⟨s', c', hcall, hmoves, hstopped, hweight⟩ :=
    connShutdownStopping_rests hset.conn hq hfsm hrests'
  refine ⟨s', c', _, ?_, hset.trans hmoves, ?_, ?_⟩
  · simp only [connShutdownSession, conn_eq h, ok_bind, sessionIsIdle_of_idle hrests.session hq,
      stopUsock_same h (Or.inr hrests.usock), hcall, Bool.true_eq_false, if_false]
  · have habout : about i ([] ++ [.connection i .stopped]) = [.connection i .stopped] := by
      simp [about, BoundEvent.conn?]
    rw [habout]
    exact hstopped
  · simp only [List.nil_append, List.length_singleton]
    have hsame : ({ c with state := .stopping } : Accepted).usock = c.usock := rfl
    rw [hsame] at hweight
    omega

/-- `grid_atcp_stop` for a connection whose session still has the usock. -/
theorem stopConn_session (h : s.conns i = some c) (hq : about i s.events = [])
    (hs : s.stat.Counts 0) (hfsm : c.fsm = .active) (hholds : c.session.usock = true)
    (hsession : c.session.fsm = .active ∨ c.session.fsm = .stopping)
    (hu : c.usock.usock.Held) (ht : c.usock.usock.Tidy) (hlistener : c.listener = false) :
    ∃ s' c' new, s.stopConn os i = .ok s' ∧
      Moves { s with stops := s.stops ++ [i] } s' i c' new ∧ c'.Ends i (about i new) ∧
      c'.weight + new.length ≤ 24 + 2 * c.usock.usock.tasks.length := by
  have hcalled : ({ s with stops := s.stops ++ [i] } : Bound α).conns i = some c := h
  have hset := Moves.set { s with stops := s.stops ++ [i] } i { c with fsm := .stopping }
  obtain ⟨s₁, hinc, hmoves₁⟩ := increment_spec hset.conn hs .droppedConnections (by simp) (by simp)
  have hq₁ : about i s₁.events = [] := by
    rw [hmoves₁.about_self]
    simpa using hq
  obtain ⟨s₂, c₂, new, hstop, hmoves₂, hleaves, hfsm₂, husock₂, hlen⟩ :=
    stopSession_spec os hmoves₁.conn hq₁ hholds hsession hu ht hlistener
  have hlast := hmoves₂.setConn { c₂ with state := .stoppingSessionFinal }
  have hbusy : (s₂.setConn i (some { c₂ with
      state := .stoppingSessionFinal })).connShutdownSession i =
        .ok (s₂.setConn i (some { c₂ with state := .stoppingSessionFinal })) := by
    apply connShutdownSession_busy hlast.conn
    rcases hleaves.ends with ⟨hleaving, -⟩ | ⟨-, hq'⟩
    · exact Or.inl hleaving
    · exact Or.inr (by simp [hmoves₂.about_self, hq₁, hq'])
  have hactive : ({ s with stops := s.stops ++ [i] }.setConn i
      (some { c with fsm := .stopping })).sessionIsIdle i { c with fsm := .stopping } = false := by
    rcases hsession with hsession | hsession <;>
      simp [sessionIsIdle, SessionFsm.isIdle, hsession]
  refine ⟨_, { c₂ with state := .stoppingSessionFinal }, new, ?_,
    (hset.trans hmoves₁).trans hlast, Or.inl ⟨hfsm₂, Or.inl ⟨rfl,
      hleaves.usock, hleaves.tidy, hleaves.listener, hleaves.ends⟩⟩, ?_⟩
  · simp only [stopConn, conn_eq hcalled, ok_bind, if_pos hfsm, dropSession, if_pos hactive, hinc,
      hstop, conn_eq hmoves₂.conn, hbusy]
  · have htasks : c₂.usock.usock.tasks = c.usock.usock.tasks := by rw [husock₂]
    simp only [Accepted.weight, hfsm₂, htasks]
    split <;> omega

/-- `grid_atcp_stop` for a connection whose session has stopped goes on with the shutdown. -/
theorem stopConn_idle (os : ListenAnswers ρ) (h : s.conns i = some c) (hq : about i s.events = [])
    (hfsm : c.fsm = .active) (hsession : c.session.Idle) :
    ∃ s₁, Moves { s with stops := s.stops ++ [i] } s₁ i
        { c with fsm := .stopping, state := .stoppingSessionFinal } [] ∧
      about i s₁.events = [] ∧ s.stopConn os i = s₁.connShutdownSession i := by
  have hcalled : ({ s with stops := s.stops ++ [i] } : Bound α).conns i = some c := h
  have hset := (Moves.set { s with stops := s.stops ++ [i] } i
    { c with fsm := .stopping }).setConn { c with fsm := .stopping, state := .stoppingSessionFinal }
  have hidle : ({ s with stops := s.stops ++ [i] }.setConn i
      (some { c with fsm := .stopping })).sessionIsIdle i { c with fsm := .stopping } = true :=
    sessionIsIdle_of_idle hsession hq
  have hdrop : (({ s with stops := s.stops ++ [i] } : Bound α).setConn i
      (some { c with fsm := .stopping })).dropSession os i { c with fsm := .stopping } =
        .ok (({ s with stops := s.stops ++ [i] } : Bound α).setConn i
          (some { c with fsm := .stopping })) := by
    simp only [dropSession, hidle, Bool.true_eq_false, if_false]
  refine ⟨_, hset, hq, ?_⟩
  unfold stopConn
  simp only [conn_eq hcalled, ok_bind, if_pos hfsm]
  rw [hdrop, ok_bind, conn_eq (setConn_self _), ok_bind]

/-- It has stopped at once if its usock has, too. -/
theorem stopConn_rests (os : ListenAnswers ρ) (h : s.conns i = some c) (hq : about i s.events = [])
    (hfsm : c.fsm = .active) (hrests : c.Rests) :
    ∃ s' c' new, s.stopConn os i = .ok s' ∧
      Moves { s with stops := s.stops ++ [i] } s' i c' new ∧ c'.Stopped i (about i new) ∧
      c'.weight + new.length ≤ 24 + 2 * c.usock.usock.tasks.length := by
  obtain ⟨s₁, hmoves₁, hq₁, heq⟩ := stopConn_idle os h hq hfsm hrests.session
  obtain ⟨s', c', new, hcall, hmoves, hstopped, hweight⟩ :=
    connShutdownSession_rests hmoves₁.conn hq₁ rfl
      ⟨hrests.usock, hrests.tidy, hrests.listener, hrests.session⟩
  have hweight' : c'.weight + new.length ≤ 13 + 2 * c.usock.usock.tasks.length := hweight
  exact ⟨s', c', new, heq.trans hcall, hmoves₁.trans hmoves, hstopped, by omega⟩

/-- `grid_atcp_stop` for a connection whose usock is on its way to stop. -/
theorem stopConn_closing (h : s.conns i = some c) (hq : about i s.events = [])
    (hfsm : c.fsm = .active) (hleaves : c.UsockLeaves i []) :
    ∃ s' c' new, s.stopConn os i = .ok s' ∧
      Moves { s with stops := s.stops ++ [i] } s' i c' new ∧ c'.Ends i (about i new) ∧
      c'.weight + new.length ≤ 24 + 2 * c.usock.usock.tasks.length := by
  obtain ⟨s₁, hmoves₁, hq₁, heq⟩ := stopConn_idle os h hq hfsm hleaves.session
  obtain ⟨s', c', new, hcall, hmoves, hends, hweight⟩ :=
    connShutdownSession_closing hmoves₁.conn hq₁ rfl
      ⟨hleaves.tidy, hleaves.listener, hleaves.session, hleaves.ends⟩
  have hweight' : c'.weight + new.length ≤ 13 + 2 * c.usock.usock.tasks.length := hweight
  exact ⟨s', c', new, heq.trans hcall, hmoves₁.trans hmoves, hends, by omega⟩

/-- `grid_atcp_stop` for a connection that was not asked to stop and whose events have all
been delivered. -/
theorem stopConn_spec (os : ListenAnswers ρ) (h : s.conns i = some c) (hq : about i s.events = [])
    (hs : s.stat.Counts 0) (hruns : c.Runs i []) :
    ∃ s' c' new, s.stopConn os i = .ok s' ∧
      Moves { s with stops := s.stops ++ [i] } s' i c' new ∧ c'.Ends i (about i new) ∧
      c'.weight + new.length < c.weight := by
  obtain ⟨hfsm, hstate⟩ := hruns
  have hweight : 30 + 2 * c.usock.usock.tasks.length ≤ c.weight := by
    rcases hstate with ⟨hst, -⟩ | ⟨hst, -⟩ | ⟨hst, -⟩ | ⟨hst, -⟩ <;>
      simp only [Accepted.weight, hfsm, hst] <;> omega
  have hcall : ∃ s' c' new, s.stopConn os i = .ok s' ∧
      Moves { s with stops := s.stops ++ [i] } s' i c' new ∧ c'.Ends i (about i new) ∧
      c'.weight + new.length ≤ 24 + 2 * c.usock.usock.tasks.length := by
    rcases hstate with ⟨-, hserves⟩ | ⟨-, hleaves⟩ | ⟨-, hleaves⟩ | ⟨-, hrests, -⟩
    · exact stopConn_session h hq hs hfsm hserves.holds (Or.inl hserves.fsm) hserves.usock
        hserves.tidy hserves.listener
    · rcases hleaves.ends with ⟨hleaving, -⟩ | ⟨-, hnil⟩
      · exact stopConn_session h hq hs hfsm hleaving.usock (Or.inr hleaving.fsm) hleaves.usock
          hleaves.tidy hleaves.listener
      · exact absurd hnil (by simp)
    · exact stopConn_closing h hq hfsm hleaves
    · obtain ⟨s', c', new, hcall, hmoves, hstopped, hle⟩ :=
        stopConn_rests os h hq hfsm hrests
      exact ⟨s', c', new, hcall, hmoves, Or.inr hstopped, hle⟩
  obtain ⟨s', c', new, hcall, hmoves, hends, hle⟩ := hcall
  exact ⟨s', c', new, hcall, hmoves, hends, by omega⟩

/-! ## The handler of a connection -/

/-- A connection that was not asked to stop handles an event of its session or its usock. -/
theorem connHandler_spec (os : ListenAnswers ρ) {q : List BoundEvent} (h : s.conns i = some c)
    (hs : s.stat.Counts 0) (hq : about i s.events = q) (hruns : c.Runs i (e :: q))
    (he : ∀ x, e ≠ .connection i x) :
    ∃ s' c' new, s.connHandler os i c e = .ok s' ∧ Moves s s' i c' new ∧
      c'.Runs i (q ++ about i new) ∧ c'.weight + new.length ≤ c.weight := by
  obtain ⟨hfsm, hstate⟩ := hruns
  rcases hstate with ⟨hst, hserves⟩ | ⟨hst, hleaves⟩ | ⟨hst, hleaves⟩ | ⟨hst, -, hevents⟩
  · -- the session has ended
    rcases hserves.report with ⟨-, hnil⟩ | ⟨-, hevents⟩
    · exact absurd hnil (by simp)
    · obtain ⟨rfl, rfl⟩ := List.cons_eq_cons.mp hevents
      obtain ⟨s₁, c₁, new, hstop, hmoves, hleaves, hfsm₁, husock₁, hlen⟩ :=
        stopSession_spec os h hq hserves.holds (Or.inl hserves.fsm) hserves.usock
          hserves.tidy hserves.listener
      have hset := hmoves.setConn { c₁ with state := .stoppingSession }
      obtain ⟨s₂, hinc, hmoves₂⟩ := increment_spec hset.conn (hset.counts hs)
        .brokenConnections (by simp) (by simp)
      have hall := hset.trans hmoves₂
      rw [List.append_nil] at hall
      refine ⟨s₂, _, new, ?_, hall, ⟨hfsm₁.trans hfsm, Or.inr (Or.inl ⟨rfl, ?_⟩)⟩, ?_⟩
      · simp only [connHandler, hst, hstop, ok_bind, conn_eq hmoves.conn, hinc]
      · exact ⟨hleaves.usock, hleaves.tidy, hleaves.listener, hleaves.ends⟩
      · simp only [Accepted.weight, hfsm₁, hfsm, hst, husock₁]
        split <;> split <;> omega
  · -- the session has given the usock back
    rcases hleaves.ends with ⟨-, hnil⟩ | ⟨hidle, hevents⟩
    · exact absurd hnil (by simp)
    · obtain ⟨rfl, rfl⟩ := List.cons_eq_cons.mp hevents
      obtain ⟨s₁, c₁, new, hstop, hmoves, hleaves₁, hfsm₁, hsession₁, hload⟩ :=
        stopUsock_held h hq hleaves.usock hleaves.tidy hidle hleaves.listener
      refine ⟨_, _, new, ?_, hmoves.setConn { c₁ with state := .stoppingUsock },
        ⟨hfsm₁.trans hfsm, Or.inr (Or.inr (Or.inl ⟨rfl, ?_⟩))⟩, ?_⟩
      · simp only [connHandler, hst, hstop, ok_bind, conn_eq hmoves.conn, pure_eq_ok]
      · exact ⟨hleaves₁.tidy, hleaves₁.listener, hleaves₁.session, hleaves₁.ends⟩
      · simp only [Accepted.weight, hfsm₁, hfsm, hst, hsession₁]
        omega
  · rcases hleaves.ends with ⟨hclosing, hevents⟩ | ⟨hoff, hevents⟩
    · -- the usock has begun to stop
      rcases hevents with hnil | hevents
      · exact absurd hnil (by simp)
      · obtain ⟨rfl, rfl⟩ := List.cons_eq_cons.mp hevents
        refine ⟨s, c, [], ?_, Moves.refl h, ⟨hfsm, Or.inr (Or.inr (Or.inl ⟨hst, ?_⟩))⟩, by simp⟩
        · simp only [connHandler, hst]
        · exact ⟨hleaves.tidy, hleaves.listener, hleaves.session, Or.inl ⟨hclosing, Or.inl rfl⟩⟩
    · -- the usock has stopped
      obtain ⟨rfl, rfl⟩ := List.cons_eq_cons.mp hevents
      obtain ⟨hr, hmoves⟩ := raise_spec (e := .connection i .error) h rfl (by simp [hq])
      refine ⟨_, _, _, ?_, hmoves.setConn { c with state := .done },
        ⟨hfsm, Or.inr (Or.inr (Or.inr ⟨rfl, ?_, Or.inr ?_⟩))⟩, ?_⟩
      · simp only [connHandler, hst, hr, ok_bind, pure_eq_ok]
      · exact ⟨hoff, hleaves.tidy, hleaves.listener, hleaves.session⟩
      · simp [about, BoundEvent.conn?]
      · simp only [Accepted.weight, hfsm, hst, List.length_singleton]
        omega
  · -- its own event is not for itself
    rcases hevents with hnil | hevents
    · exact absurd hnil (by simp)
    · obtain ⟨rfl, -⟩ := List.cons_eq_cons.mp hevents
      exact absurd rfl (he .error)

/-- So does one that was asked to stop. -/
theorem connShutdown_spec {q : List BoundEvent} (h : s.conns i = some c)
    (hq : about i s.events = q) (hends : c.Ends i (e :: q)) (he : ∀ x, e ≠ .connection i x) :
    c.fsm = .stopping ∧ ∃ s' c' new, s.connShutdown T i c = .ok s' ∧ Moves s s' i c' new ∧
      c'.Ends i (q ++ about i new) ∧ c'.weight + new.length ≤ c.weight := by
  rcases hends with ⟨hfsm, hstate⟩ | hstopped
  · refine ⟨hfsm, ?_⟩
    rcases hstate with ⟨hst, hleaves⟩ | ⟨hst, hleaves⟩
    · -- the session has given the usock back
      rcases hleaves.ends with ⟨-, hnil⟩ | ⟨hidle, hevents⟩
      · exact absurd hnil (by simp)
      · obtain ⟨rfl, rfl⟩ := List.cons_eq_cons.mp hevents
        obtain ⟨s', c', new, hcall, hmoves, hends', hweight⟩ := connShutdownSession_held h hq
          hfsm hleaves.usock hleaves.tidy hidle hleaves.listener
        refine ⟨s', c', new, ?_, hmoves, hends', ?_⟩
        · simp only [connShutdown, hst, hcall]
        · have hle : 20 + 2 * c.usock.usock.tasks.length ≤ c.weight := by
            simp only [Accepted.weight, hfsm, hst]
            omega
          omega
    · rcases hleaves.ends with ⟨hclosing, hevents⟩ | ⟨hoff, hevents⟩
      · -- the usock has begun to stop
        rcases hevents with hnil | hevents
        · exact absurd hnil (by simp)
        · obtain ⟨rfl, rfl⟩ := List.cons_eq_cons.mp hevents
          refine ⟨s, c, [], ?_, Moves.refl h, Or.inl ⟨hfsm, Or.inr ⟨hst, ?_⟩⟩, by simp⟩
          · simp only [connShutdown, hst, connShutdownStopping_busy h (Or.inl hclosing)]
          · exact ⟨hleaves.tidy, hleaves.listener, hleaves.session,
              Or.inl ⟨hclosing, Or.inl rfl⟩⟩
      · -- the usock has stopped
        obtain ⟨rfl, rfl⟩ := List.cons_eq_cons.mp hevents
        obtain ⟨s', c', hcall, hmoves, hstopped, hweight⟩ := connShutdownStopping_rests h hq hfsm
          ⟨hoff, hleaves.tidy, hleaves.listener, hleaves.session⟩
        refine ⟨s', c', _, ?_, hmoves, Or.inr ?_, ?_⟩
        · simp only [connShutdown, hst, hcall]
        · have habout : about i [.connection i .stopped] = [.connection i .stopped] := by
            simp [about, BoundEvent.conn?]
          rw [habout]
          exact hstopped
        · have hle : 10 + 2 * c.usock.usock.tasks.length ≤ c.weight := by
            simp only [Accepted.weight, hfsm, hst]
            omega
          simp only [List.length_singleton]
          omega
  · obtain ⟨rfl, -⟩ := List.cons_eq_cons.mp hstopped.queue
    exact absurd rfl (he .stopped)

/-! ## Sessions and the worker -/

/-- A session uses the usock. -/
theorem session_runs {q : List BoundEvent} {u : Usock} (hruns : c.Runs i q)
    (hholds : c.session.usock = true) (hu : u.Held) (ht : u.Tidy) :
    ({ c with usock := { c.usock with usock := u } } : Accepted).Runs i q := by
  obtain ⟨hfsm, hstate⟩ := hruns
  refine ⟨hfsm, ?_⟩
  rcases hstate with ⟨hst, hserves⟩ | ⟨hst, hleaves⟩ | ⟨-, hleaves⟩ | ⟨-, hrests, -⟩
  · exact Or.inl ⟨hst, hu, ht, hserves.listener, hserves.fsm, hserves.holds, hserves.report⟩
  · exact Or.inr (Or.inl ⟨hst, hu, ht, hleaves.listener, hleaves.ends⟩)
  · exact absurd (hleaves.session.usock.symm.trans hholds) (by simp)
  · exact absurd (hrests.session.usock.symm.trans hholds) (by simp)

theorem session_ends {q : List BoundEvent} {u : Usock} (hends : c.Ends i q)
    (hholds : c.session.usock = true) (hu : u.Held) (ht : u.Tidy) :
    ({ c with usock := { c.usock with usock := u } } : Accepted).Ends i q := by
  rcases hends with ⟨hfsm, ⟨hst, hleaves⟩ | ⟨-, hleaves⟩⟩ | hstopped
  · exact Or.inl ⟨hfsm, Or.inl ⟨hst, hu, ht, hleaves.listener, hleaves.ends⟩⟩
  · exact absurd (hleaves.session.usock.symm.trans hholds) (by simp)
  · exact absurd (hstopped.rests.session.usock.symm.trans hholds) (by simp)

/-- Only a session that serves a connection can fail. -/
theorem serves_of_active {q : List BoundEvent} (hruns : c.Runs i q)
    (hactive : c.session.fsm = .active) : c.state = .active ∧ c.Serves i q := by
  rcases hruns.2 with ⟨hst, hserves⟩ | ⟨-, hleaves⟩ | ⟨-, hleaves⟩ | ⟨-, hrests, -⟩
  · exact ⟨hst, hserves⟩
  · rcases hleaves.ends with ⟨hleaving, -⟩ | ⟨hidle, -⟩
    · exact absurd (hleaving.fsm.symm.trans hactive) (by simp)
    · exact absurd (hidle.fsm.symm.trans hactive) (by simp)
  · exact absurd (hleaves.session.fsm.symm.trans hactive) (by simp)
  · exact absurd (hrests.session.fsm.symm.trans hactive) (by simp)

theorem not_active_of_ends {q : List BoundEvent} (hends : c.Ends i q) :
    c.session.fsm ≠ .active := by
  intro hactive
  rcases hends with ⟨-, ⟨-, hleaves⟩ | ⟨-, hleaves⟩⟩ | hstopped
  · rcases hleaves.ends with ⟨hleaving, -⟩ | ⟨hidle, -⟩
    · exact absurd (hleaving.fsm.symm.trans hactive) (by simp)
    · exact absurd (hidle.fsm.symm.trans hactive) (by simp)
  · exact absurd (hleaves.session.fsm.symm.trans hactive) (by simp)
  · exact absurd (hstopped.rests.session.fsm.symm.trans hactive) (by simp)

/-- The session that serves a connection fails. -/
theorem serves_fail {q : List BoundEvent} (h : c.Serves i q)
    (hdone : c.session.done = false) :
    q = [] ∧ ({ c with session := c.session.fail.1 } : Accepted).Serves i [.session i .error] := by
  rcases h.report with ⟨-, hnil⟩ | ⟨hdone', -⟩
  · exact ⟨hnil, h.usock, h.tidy, h.listener, h.fsm, h.holds, Or.inr ⟨rfl, rfl⟩⟩
  · exact absurd (hdone'.symm.trans hdone) (by simp)

/-- A session that was asked to stop gives the usock back. -/
theorem sessionLeaves_finish {q : List BoundEvent} (h : c.SessionLeaves i q)
    (hstopping : c.session.fsm = .stopping) :
    q = [] ∧
      ({ c with session := c.session.finish.1 } : Accepted).SessionLeaves i
        [.session i .stopped] := by
  rcases h.ends with ⟨-, hnil⟩ | ⟨hidle, -⟩
  · exact ⟨hnil, h.usock, h.tidy, h.listener, Or.inr ⟨⟨rfl, rfl⟩, rfl⟩⟩
  · exact absurd (hidle.fsm.symm.trans hstopping) (by simp)

theorem sessionLeaves_of_stopping {q : List BoundEvent} (hstopping : c.session.fsm = .stopping)
    (h : c.Runs i q ∨ c.Ends i q) :
    c.SessionLeaves i q ∧ (c.fsm = .active ∧ c.state = .stoppingSession ∨
      c.fsm = .stopping ∧ c.state = .stoppingSessionFinal) := by
  rcases h with ⟨hfsm, hstate⟩ | ⟨hfsm, hstate⟩ | hstopped
  · rcases hstate with ⟨-, hserves⟩ | ⟨hst, hleaves⟩ | ⟨-, hleaves⟩ | ⟨-, hrests, -⟩
    · exact absurd (hserves.fsm.symm.trans hstopping) (by simp)
    · exact ⟨hleaves, Or.inl ⟨hfsm, hst⟩⟩
    · exact absurd (hleaves.session.fsm.symm.trans hstopping) (by simp)
    · exact absurd (hrests.session.fsm.symm.trans hstopping) (by simp)
  · rcases hstate with ⟨hst, hleaves⟩ | ⟨-, hleaves⟩
    · exact ⟨hleaves, Or.inr ⟨hfsm, hst⟩⟩
    · exact absurd (hleaves.session.fsm.symm.trans hstopping) (by simp)
  · exact absurd (hstopped.rests.session.fsm.symm.trans hstopping) (by simp)

/-- What gives its usock back weighs less. -/
theorem weight_finish (hstopping : c.session.fsm = .stopping) :
    ({ c with session := c.session.finish.1 } : Accepted).weight + 2 = c.weight := by
  simp only [Accepted.weight, SessionFsm.finish, hstopping]
  simp
  omega

/-- The worker and a usock that was asked to stop. -/
theorem connWork_closing {w : Usock.Work} (h : s.conns i = some c) (hq : about i s.events = [])
    (hleaves : c.UsockLeaves i []) :
    ∃ s' u new, s.connWork i w = .ok s' ∧
      Moves s s' i { c with usock := { c.usock with usock := u } } new ∧
      ({ c with usock := { c.usock with usock := u } } : Accepted).UsockLeaves i (about i new) ∧
      2 * u.tasks.length + new.length ≤ 2 * c.usock.usock.tasks.length ∧
      (w = .task → 2 * u.tasks.length + new.length < 2 * c.usock.usock.tasks.length) := by
  have hclosing : c.usock.usock.Closing := by
    rcases hleaves.ends with ⟨hclosing, -⟩ | ⟨-, hnil⟩
    · exact hclosing
    · exact absurd hnil (by simp)
  have hfd : ¬(w = .task ∧ c.usock.usock.fd = false ∧
      c.usock.usock.tasks.head? ≠ some .stop) := by simp [hclosing.fd]
  unfold connWork
  simp only [conn_eq h, ok_bind, if_neg hfd]
  by_cases hw : w = .task
  · subst hw
    obtain ⟨u, e, hcall, hstopping, he, hload⟩ := Usock.attempt_closing_task hclosing
    have htidy : u.Tidy := by
      have hshut : c.usock.usock.attempt .task = c.usock.usock.shutdownTask := by
        simp [Usock.attempt, hclosing.fsm]
      exact hleaves.tidy.of_tail (Usock.shutdownTask_tasks (hshut ▸ hcall))
    have hset := Moves.set s i { c with usock := { c.usock with usock := u } }
    rcases he with rfl | rfl
    · refine ⟨_, u, [], ?_, hset, ⟨htidy, hleaves.listener, hleaves.session,
        Or.inl ⟨hstopping.nil, Or.inl rfl⟩⟩, by simp only [List.length_nil]; omega, fun _ => ?_⟩
      · simp only [hcall, Site.call_ok, ok_bind, Option.map_none, raise?]
      · simp only [List.length_nil]
        omega
    · obtain ⟨hr, hmoves⟩ := raise_spec (e := .usock i .stopped) hset.conn rfl (by simp [hq])
      refine ⟨_, u, [.usock i .stopped], ?_, by simpa using hset.trans hmoves, ⟨htidy,
        hleaves.listener, hleaves.session, Or.inr ⟨hstopping.of_last.1, ?_⟩⟩, ?_, fun _ => ?_⟩
      · simp only [hcall, Site.call_ok, ok_bind, Option.map_some, raise?]
        exact hr
      · simp [about, BoundEvent.conn?]
      · simp only [List.length_singleton]
        omega
      · simp only [List.length_singleton]
        omega
  · refine ⟨_, c.usock.usock, [], ?_, Moves.refl h, hleaves, by simp, fun h => absurd h hw⟩
    simp only [Usock.attempt_closing_fd hclosing hw, Site.call_ok, ok_bind, Option.map_none, raise?,
      setConn_same h]

/-- The worker drops a task of a usock that has stopped. -/
theorem connWork_rests {w : Usock.Work} (h : s.conns i = some c) (hrests : c.Rests)
    (hwaits : c.usock.usock.Waits w) (hfd : w = .task ∨ c.usock.usock.fd = true) :
    ∃ s' u, s.connWork i w = .ok s' ∧
      Moves s s' i { c with usock := { c.usock with usock := u } } [] ∧
      ({ c with usock := { c.usock with usock := u } } : Accepted).Rests ∧
      u.tasks.length < c.usock.usock.tasks.length := by
  obtain rfl : w = .task := hfd.resolve_right (by simp [hrests.usock.fd])
  have hoff := hrests.usock
  have hhead : c.usock.usock.tasks.head? ≠ some .stop := by
    intro hhead
    exact hoff.stop (List.mem_of_head? hhead)
  have hsome : 0 < c.usock.usock.tasks.length := List.length_pos_iff.mpr hwaits.1
  refine ⟨_, { c.usock.usock with tasks := c.usock.usock.tasks.tail }, ?_, Moves.set s i _,
    ⟨⟨hoff.fsm, hoff.state, hoff.fd, ?_, ?_, ?_⟩, hrests.tidy.of_tail rfl, hrests.listener,
      hrests.session⟩, ?_⟩
  · unfold connWork
    simp only [conn_eq h, ok_bind, hoff.fd, ne_eq, hhead, not_false_eq_true, and_self, if_true,
      pure_eq_ok]
  · exact fun ht => hoff.connecting (List.mem_of_mem_tail ht)
  · exact fun ht => hoff.connected (List.mem_of_mem_tail ht)
  · exact fun ht => hoff.stop (List.mem_of_mem_tail ht)
  · simp only [List.length_tail]
    omega

/-- The worker and the usock of a connection that was not asked to stop. -/
theorem connWork_runs {w : Usock.Work} (h : s.conns i = some c) (hq : about i s.events = [])
    (hfree : c.session.usock = false) (hwaits : c.usock.usock.Waits w)
    (hfd : w = .task ∨ c.usock.usock.fd = true) (hruns : c.Runs i []) :
    ∃ s' c' new, s.connWork i w = .ok s' ∧ Moves s s' i c' new ∧ c'.Runs i (about i new) ∧
      (w = .task → c'.weight + new.length < c.weight) := by
  obtain ⟨hfsm, hstate⟩ := hruns
  rcases hstate with ⟨-, hserves⟩ | ⟨-, hleaves⟩ | ⟨hst, hleaves⟩ | ⟨hst, hrests, -⟩
  · exact absurd (hserves.holds.symm.trans hfree) (by simp)
  · rcases hleaves.ends with ⟨hleaving, -⟩ | ⟨-, hnil⟩
    · exact absurd (hleaving.usock.symm.trans hfree) (by simp)
    · exact absurd hnil (by simp)
  · obtain ⟨s', u, new, hcall, hmoves, hleaves', -, hload⟩ :=
      connWork_closing (w := w) h hq hleaves
    refine ⟨s', _, new, hcall, hmoves, ⟨hfsm, Or.inr (Or.inr (Or.inl ⟨hst, hleaves'⟩))⟩,
      fun hw => ?_⟩
    have hlt := hload hw
    simp only [Accepted.weight]
    omega
  · obtain ⟨s', u, hcall, hmoves, hrests', hlt⟩ := connWork_rests h hrests hwaits hfd
    refine ⟨s', _, [], hcall, hmoves,
      ⟨hfsm, Or.inr (Or.inr (Or.inr ⟨hst, hrests', Or.inl rfl⟩))⟩, fun _ => ?_⟩
    simp only [Accepted.weight, List.length_nil]
    omega

/-- The worker and the usock of a connection that was asked to stop. -/
theorem connWork_ends {w : Usock.Work} (h : s.conns i = some c) (hq : about i s.events = [])
    (hfree : c.session.usock = false) (hends : c.Ends i []) :
    ∃ s' c' new, s.connWork i w = .ok s' ∧ Moves s s' i c' new ∧ c'.Ends i (about i new) ∧
      (w = .task → c'.weight + new.length < c.weight) := by
  rcases hends with ⟨hfsm, ⟨-, hleaves⟩ | ⟨hst, hleaves⟩⟩ | hstopped
  · rcases hleaves.ends with ⟨hleaving, -⟩ | ⟨-, hnil⟩
    · exact absurd (hleaving.usock.symm.trans hfree) (by simp)
    · exact absurd hnil (by simp)
  · obtain ⟨s', u, new, hcall, hmoves, hleaves', -, hload⟩ :=
      connWork_closing (w := w) h hq hleaves
    refine ⟨s', _, new, hcall, hmoves, Or.inl ⟨hfsm, Or.inr ⟨hst, hleaves'⟩⟩, fun hw => ?_⟩
    have hlt := hload hw
    simp only [Accepted.weight]
    omega
  · exact absurd hstopped.queue (by simp)

/-- A connection that was asked to stop and has nothing in the queue has a step to take. -/
theorem enabled_of_ends (h : s.conns i = some c) (hempty : s.events = []) (hends : c.Ends i []) :
    s.Enabled (.sessionStopped i : Label α ρ) ∨
      s.Enabled (.connWork i .task : Label α ρ) := by
  rcases hends with ⟨-, ⟨-, hleaves⟩ | ⟨-, hleaves⟩⟩ | hstopped
  · rcases hleaves.ends with ⟨hleaving, -⟩ | ⟨-, hnil⟩
    · left
      exact ⟨by simp [Turn, hempty], c, h, hleaving.fsm⟩
    · exact absurd hnil (by simp)
  · rcases hleaves.ends with ⟨hclosing, -⟩ | ⟨-, hnil⟩
    · right
      exact ⟨hempty, c, h, hleaves.session.usock, Usock.ready_of_closing hclosing, Or.inl rfl⟩
    · exact absurd hnil (by simp)
  · exact absurd hstopped.queue (by simp)

/-! ## Terminating a connection -/

/-! ## Terminating a connection -/

/-- `grid_atcp_term` for a connection that has stopped and whose events were all delivered. -/
theorem termConn_spec (os : ListenAnswers ρ) (h : s.conns i = some c) (hq : about i s.events = [])
    (hlist : i ∉ s.atcps) (hfsm : c.fsm = .idle) (hstate : c.state = .idle) (hrests : c.Rests) :
    s.termConn os i =
      if c.usock.left os.cancelled = [] then .ok { s with terms := s.terms ++ [i] }
      else .error ⟨.term, .assertion⟩ := by
  have hnone : ∀ e ∈ s.events, ¬e.Kid i := by
    intro e he hkid
    have hmem := mem_about.mpr ⟨he, hkid.conn?⟩
    rw [hq] at hmem
    exact absurd hmem (by simp)
  have hconn : BoundEvent.connection i .error ∉ s.events ∧
      BoundEvent.connection i .accepted ∉ s.events :=
    ⟨fun he => hnone _ he rfl, fun he => hnone _ he rfl⟩
  have hsession : s.sessionIsIdle i c = true ∧ BoundEvent.session i .error ∉ s.events :=
    ⟨sessionIsIdle_of_idle hrests.session hq, fun he => hnone _ he rfl⟩
  have hactive : s.events.any (BoundEvent.usockActive i) = false := by
    rw [List.any_eq_false]
    intro e he hkid
    cases e with
    | usock j x =>
        simp only [BoundEvent.usockActive, Bool.and_eq_true, beq_iff_eq] at hkid
        exact hnone _ he hkid.1
    | _ => exact absurd hkid (by simp [BoundEvent.usockActive])
  have hstopped : decide (BoundEvent.usock i .stopped ∈ s.events) = false := by
    rw [decide_eq_false_iff_not]
    exact fun he => hnone _ he rfl
  have hidle : s.connIsIdle i c = true := by
    have hin : BoundEvent.connection i .stopped ∉ s.events := fun he => hnone _ he rfl
    simp [connIsIdle, hfsm, hin]
  simp only [termConn, conn_eq h, ok_bind, gridAssert_pos hstate, gridAssert_pos hlist,
    gridAssert_pos hconn, gridAssert_pos hsession, Site.call_ok, hactive, hstopped]
  rw [AcceptedUsock.term_off hrests.usock os.cancelled]
  split
  · simp only [Site.call_ok, ok_bind, gridAssert_pos hidle, pure_eq_ok]
  · rfl

/-- A connection on the list that has stopped is released. -/
theorem release_spec (os : ListenAnswers ρ) (h : s.conns i = some c) (hq : about i s.events = [])
    (hnodup : s.atcps.Nodup) (hlist : i ∈ s.atcps)
    (hstopped : c.Stopped i [.connection i .stopped]) :
    s.release os i =
      if c.usock.left os.cancelled = [] then
        .ok { s.setConn i none with
          atcps := s.atcps.erase i, terms := s.terms ++ [i], frees := s.frees ++ [i] }
      else .error ⟨.term, .assertion⟩ := by
  have hterm := termConn_spec os (s := { s with atcps := s.atcps.erase i }) h hq
    (fun hmem => (hnodup.mem_erase_iff.mp hmem).1 rfl) hstopped.fsm hstopped.state hstopped.rests
  simp only [release, gridAssert_pos hlist, Site.call_ok, ok_bind, hterm]
  split
  · rfl
  · rfl

end Bound

end GridMq.Transports
