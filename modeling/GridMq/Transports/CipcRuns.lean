import GridMq.Transports.Cipc

set_option autoImplicit false

/-!
# Runs of a connecting IPC endpoint

In every state the machines of the endpoint do what that state says, so that no handler
meets an event it does not expect, and an endpoint that was stopped comes to rest.
-/

namespace GridMq.Transports.Cipc

open GridMq.Aio GridMq.Library

variable {addr : List UInt8} {minivl maxivl : Int} {s s' : Cipc}

/-! ## The invariant -/

/-- What an endpoint is doing in each state. -/
def Phase (s : Cipc) : Prop :=
  match s.state with
  | .idle =>
      s.fsm = .idle ∧ s.conn.Rests ∧ s.conn.events = [] ∧
        (s.created = false ∧ s.reports = 0 ∧ s.conn.stat.Counts 0 ∨
          s.created = true ∧ s.reports = 1)
  | .cycle state => s.fsm = .active ∧ s.conn.Runs state ∧ s.reports = 0
  | .stoppingSipcFinal =>
      s.fsm = .stopping ∧ (∃ q, s.conn.StoppingSession q) ∧ s.reports = 0
  | .stopping => s.fsm = .stopping ∧ s.conn.Halting ∧ s.reports = 0

/-- What holds of an endpoint at any time. -/
structure Inv (addr : List UInt8) (s : Cipc) : Prop where
  addr : s.addr = addr
  phase : s.Phase
  created : s.fsm ≠ .idle → s.created = true
  attempts : ∀ idle ∈ s.attempts, idle = true

/-- An attempt begins with everything at rest and leads into the cycle. -/
theorem startConnecting_spec (hconn : s.conn.Fresh) (haddr : s.addr.length < sunPathSize)
    (htime : 0 ≤ s.conn.retry.timeout) (os : Answers) :
    ∃ conn state, s.startConnecting os = .ok { s with
        attempts := s.attempts ++ [true], conn := conn, state := .cycle state } ∧
      conn.Runs state := by
  have hidle := Conn.allIdle_of_rests hconn.rests hconn.events
  unfold startConnecting
  simp only [hidle, Conn.startUsock_rests hconn.rests hconn.events, ok_bind]
  cases hsocket : os.socket with
  | false =>
      obtain ⟨c', hcall, hwaiting, hstat⟩ :=
        Conn.startRetry_rests hconn.rests hconn.events htime
      refine ⟨c', .waiting, ?_, ⟨[], hwaiting⟩, hstat ▸ hconn.counts⟩
      simp only [if_true, Bool.false_eq_true, if_false, hcall, ok_bind, pure_eq_ok]
  | true =>
      obtain ⟨c₁, q, hcall, hconnecting, hstat⟩ :=
        Conn.connect_started hconn.rests hconn.events os.connect
      have hcounts : c₁.stat.Counts 0 := hstat ▸ hconn.counts
      obtain ⟨st, hst, hcounts'⟩ := hcounts.begin
      refine ⟨{ c₁ with stat := st }, .connecting, ?_,
        ⟨q, hconnecting.events, hconnecting.usock, hconnecting.retry, hconnecting.session⟩,
        hcounts'⟩
      simp only [if_true, Usock.setsockopt, true_or, gridAssert_pos, haddr, hcall,
        Conn.increment, hst, ok_bind, pure_eq_ok, Bool.true_eq_false, if_false]

/-! ## Steps -/

/-- A state of the cycle, as the invariant has it. -/
theorem inv_cycle {conn : Conn} {state : CycleState} (h : s.Inv addr) (hfsm : s.fsm = .active)
    (hreports : s.reports = 0) (hruns : conn.Runs state) :
    Inv addr { s with conn := conn, state := .cycle state } :=
  ⟨h.addr, ⟨hfsm, hruns, hreports⟩, h.created, h.attempts⟩

theorem create_spec (h : s.Inv addr) (haddr : addr.length < sunPathSize)
    (htime : 0 ≤ s.conn.retry.timeout) (hnew : s.created = false) (os : Answers) :
    ∃ s', s.create os = .ok s' ∧ s'.Inv addr := by
  have hfsm : s.fsm = .idle := by
    by_contra hne
    exact absurd (h.created hne) (by simp [hnew])
  have hphase := h.phase
  unfold Phase at hphase
  cases hstate : s.state with
  | idle =>
      rw [hstate] at hphase
      obtain ⟨-, hrests, hevents, ⟨-, hreports, hcounts⟩ | ⟨hcreated, -⟩⟩ := hphase
      · obtain ⟨conn, state, hcall, hruns⟩ := startConnecting_spec
          (s := { s with created := true }) ⟨hrests, hevents, hcounts⟩ (h.addr.symm ▸ haddr)
          htime os
        refine ⟨{ s with
          created := true
          attempts := s.attempts ++ [true]
          conn := conn
          state := .cycle state
          fsm := .active }, ?_, h.addr, ⟨rfl, hruns, hreports⟩, fun _ => rfl, ?_⟩
        · unfold create
          rw [gridAssert_pos hfsm, ok_bind]
          split
          · simp only [hcall, ok_bind, pure_eq_ok]
          · rename_i hne
            exact absurd hstate hne
        · intro idle hidle
          rcases List.mem_append.mp hidle with hidle | hidle
          · exact h.attempts idle hidle
          · exact List.mem_singleton.mp hidle
      · exact absurd (hcreated.symm.trans hnew) (by simp)
  | _ =>
      rw [hstate] at hphase
      exact absurd (hfsm.symm.trans hphase.1) (by simp)

/-- The last part of a stop. -/
theorem shutdownStopping_halting (hhalting : s.conn.Halting) : s.shutdownStopping = .ok s := by
  unfold shutdownStopping
  rw [if_neg (by simp [hhalting.not_idle])]

theorem shutdownStopping_rests (hrests : s.conn.Rests) (hevents : s.conn.events = [])
    (hfsm : s.fsm = .stopping) :
    s.shutdownStopping =
      .ok { s with state := .idle, fsm := .idle, reports := s.reports + 1 } := by
  have hidle := Conn.allIdle_of_rests hrests hevents
  simp only [Conn.allIdle, Bool.and_eq_true] at hidle
  unfold shutdownStopping
  rw [if_pos (by rw [hidle.2, hidle.1.1]; rfl), gridAssert_pos hfsm]
  rfl

/-- The session has not stopped yet. -/
theorem shutdownSipc_busy {q : List SessionEvent} (h : s.conn.StoppingSession q) :
    s.shutdownSipc = .ok s := by
  unfold shutdownSipc
  rw [if_neg (by simp [h.not_idle])]

/-- The session has stopped, and the other machines have not. -/
theorem shutdownSipc_idle {conn : Conn} (hidle : s.conn.sessionIsIdle = true)
    (hcall : s.conn.halt = .ok conn) (hhalting : conn.Halting) :
    s.shutdownSipc = .ok { s with conn := conn, state := .stopping } := by
  unfold shutdownSipc
  rw [if_pos hidle, hcall]
  exact shutdownStopping_halting (s := { s with conn := conn, state := .stopping }) hhalting

/-- A stop can come at any time; after it the endpoint is not active. -/
theorem stop_spec (h : s.Inv addr) :
    ∃ s', s.stop = .ok s' ∧ s'.Inv addr ∧ s'.created = s.created ∧ s'.fsm ≠ .active := by
  unfold stop
  by_cases hfsm : s.fsm = .active
  · rw [if_pos hfsm]
    have hcreated := h.created (by simp [hfsm])
    have hphase := h.phase
    unfold Phase at hphase
    cases hstate : s.state with
    | cycle state =>
        rw [hstate] at hphase
        obtain ⟨-, hruns, hreports⟩ := hphase
        rcases Conn.stop_runs hruns with
          ⟨c', q, hdrop, hsession⟩ | ⟨hdrop, hidle, c', hhalt, hhalting⟩
        · refine ⟨{ s with fsm := .stopping, conn := c', state := .stoppingSipcFinal }, ?_,
            ⟨h.addr, ⟨rfl, ⟨q, hsession⟩, hreports⟩, fun _ => hcreated, h.attempts⟩, rfl,
            by simp⟩
          rw [hdrop, ok_bind]
          exact shutdownSipc_busy hsession
        · refine ⟨{ s with fsm := .stopping, conn := c', state := .stopping }, ?_,
            ⟨h.addr, ⟨rfl, hhalting, hreports⟩, fun _ => hcreated, h.attempts⟩, rfl, by simp⟩
          rw [hdrop, ok_bind]
          exact shutdownSipc_idle hidle hhalt hhalting
    | _ =>
        rw [hstate] at hphase
        exact absurd (hfsm.symm.trans hphase.1) (by simp)
  · rw [if_neg hfsm]
    exact ⟨s, rfl, h, rfl, hfsm⟩

/-- What is left to do after a stop. -/
def rank (s : Cipc) : Nat :=
  s.conn.load + if s.state = .stoppingSipcFinal then 4 else 0

/-- A step of an endpoint that was stopped: it keeps the invariant, and it leads to the
report or leaves less to do. -/
structure Ends (addr : List UInt8) (s s' : Cipc) : Prop where
  inv : s'.Inv addr
  created : s'.created = s.created
  outcome : s'.fsm = .idle ∧ s'.reports = 1 ∨ s'.fsm = .stopping ∧ s'.rank < s.rank

theorem deliver_eq {e : Event} (he : s.conn.events.head? = some e) (os : Answers) :
    s.deliver os =
      if s.fsm = .stopping then { s with conn := s.conn.pop }.shutdown
      else { s with conn := s.conn.pop }.handler os e := by
  unfold deliver
  rw [he]

theorem deliver_stoppingSipcFinal {e : Event} {q : List SessionEvent} (h : s.Inv addr)
    (hstate : s.state = .stoppingSipcFinal) (hfsm : s.fsm = .stopping)
    (hsession : s.conn.StoppingSession q) (hreports : s.reports = 0)
    (he : s.conn.events.head? = some e) (os : Answers) :
    ∃ s', s.deliver os = .ok s' ∧ Ends addr s s' := by
  have hload := Conn.load_pop he
  have hcreated := h.created (by simp [hfsm])
  have hshutdown : ({ s with conn := s.conn.pop } : Cipc).shutdown =
      ({ s with conn := s.conn.pop } : Cipc).shutdownSipc := by
    simp only [shutdown, hstate]
  rw [deliver_eq he, if_pos hfsm, hshutdown]
  rcases Conn.pop_stoppingSession hsession he with ⟨q', hpop⟩ | ⟨hevents, hheld, hquiet, hidle⟩
  · refine ⟨_, shutdownSipc_busy (s := { s with conn := s.conn.pop }) hpop,
      ⟨h.addr, ?_, fun _ => hcreated, h.attempts⟩, rfl, Or.inr ⟨hfsm, ?_⟩⟩
    · simp only [Phase, hstate]
      exact ⟨hfsm, ⟨q', hpop⟩, hreports⟩
    · simp only [rank, hstate]
      omega
  · obtain ⟨c', hhalt, hhalting, hload'⟩ := Conn.halt_held hevents hheld hquiet hidle
    have hsessionIdle := Conn.sessionIsIdle_of_idle hidle (by simp [hevents])
    refine ⟨_, shutdownSipc_idle (s := { s with conn := s.conn.pop }) hsessionIdle hhalt hhalting,
      ⟨h.addr, ⟨hfsm, hhalting, hreports⟩, fun _ => hcreated, h.attempts⟩, rfl,
      Or.inr ⟨hfsm, ?_⟩⟩
    simp only [rank, hstate, if_true]
    simp only [reduceCtorEq, if_false]
    omega

theorem deliver_stopping {e : Event} (h : s.Inv addr) (hstate : s.state = .stopping)
    (hfsm : s.fsm = .stopping) (hhalting : s.conn.Halting) (hreports : s.reports = 0)
    (he : s.conn.events.head? = some e) (os : Answers) :
    ∃ s', s.deliver os = .ok s' ∧ Ends addr s s' := by
  have hload := Conn.load_pop he
  have hcreated := h.created (by simp [hfsm])
  have hshutdown : ({ s with conn := s.conn.pop } : Cipc).shutdown =
      ({ s with conn := s.conn.pop } : Cipc).shutdownStopping := by
    simp only [shutdown, hstate]
  rw [deliver_eq he, if_pos hfsm, hshutdown]
  rcases Conn.pop_halting hhalting he with hpop | ⟨hrests, hevents⟩
  · refine ⟨_, shutdownStopping_halting (s := { s with conn := s.conn.pop }) hpop,
      ⟨h.addr, ?_, fun _ => hcreated, h.attempts⟩, rfl, Or.inr ⟨hfsm, ?_⟩⟩
    · simp only [Phase, hstate]
      exact ⟨hfsm, hpop, hreports⟩
    · simp only [rank, hstate]
      omega
  · have hcall := shutdownStopping_rests (s := { s with conn := s.conn.pop }) hrests hevents hfsm
    refine ⟨_, hcall, ⟨h.addr, ⟨rfl, hrests, hevents, Or.inr ⟨hcreated, ?_⟩⟩,
      fun hne => absurd rfl hne, h.attempts⟩, rfl, Or.inl ⟨rfl, ?_⟩⟩
    · simp only [hreports]
    · simp only [hreports]

theorem deliver_cycle {state : CycleState} {e : Event} (h : s.Inv addr)
    (hstate : s.state = .cycle state) (hfsm : s.fsm = .active) (hruns : s.conn.Runs state)
    (hreports : s.reports = 0) (haddr : addr.length < sunPathSize)
    (htime : 0 ≤ s.conn.retry.timeout) (he : s.conn.events.head? = some e) (os : Answers) :
    ∃ s', s.deliver os = .ok s' ∧ s'.Inv addr := by
  obtain ⟨c', next, hhandled⟩ :=
    (Conn.handler_runs hruns he os.errnum).resolve_right fun h => by omega
  rw [deliver_eq he, if_neg (by simp [hfsm])]
  unfold handler
  simp only [hstate, hhandled.eq, ok_bind]
  cases next with
  | some state' =>
      exact ⟨_, rfl, inv_cycle h hfsm hreports hhandled.leads⟩
  | none =>
      obtain rfl := hhandled.last rfl
      obtain ⟨conn, state', hcall, hruns'⟩ := startConnecting_spec
        (s := { s with conn := s.conn.pop }) hhandled.leads (h.addr.symm ▸ haddr) htime os
      refine ⟨_, hcall, h.addr, ⟨hfsm, hruns', hreports⟩, h.created, ?_⟩
      intro idle hidle
      rcases List.mem_append.mp hidle with hidle | hidle
      · exact h.attempts idle hidle
      · exact List.mem_singleton.mp hidle

theorem deliver_spec {e : Event} (h : s.Inv addr) (haddr : addr.length < sunPathSize)
    (htime : 0 ≤ s.conn.retry.timeout) (he : s.conn.events.head? = some e) (os : Answers) :
    ∃ s', s.deliver os = .ok s' ∧ s'.Inv addr := by
  have hphase := h.phase
  unfold Phase at hphase
  cases hstate : s.state with
  | idle =>
      rw [hstate] at hphase
      obtain ⟨-, -, hevents, -⟩ := hphase
      exact absurd he (by simp [hevents])
  | cycle state =>
      rw [hstate] at hphase
      obtain ⟨hfsm, hruns, hreports⟩ := hphase
      exact deliver_cycle h hstate hfsm hruns hreports haddr htime he os
  | stoppingSipcFinal =>
      rw [hstate] at hphase
      obtain ⟨hfsm, ⟨q, hsession⟩, hreports⟩ := hphase
      obtain ⟨s', hcall, hends⟩ :=
        deliver_stoppingSipcFinal h hstate hfsm hsession hreports he os
      exact ⟨s', hcall, hends.inv⟩
  | stopping =>
      rw [hstate] at hphase
      obtain ⟨hfsm, hhalting, hreports⟩ := hphase
      obtain ⟨s', hcall, hends⟩ := deliver_stopping h hstate hfsm hhalting hreports he os
      exact ⟨s', hcall, hends.inv⟩

/-- What the worker and the session do. -/
theorem conn_spec {l : Conn.Label} {conn : Conn} (h : s.Inv addr) (hl : s.conn.Enabled l)
    (hcall : s.conn.next l = .ok conn) :
    Inv addr { s with conn := conn } ∧
      (s.fsm = .stopping → l.Pending → rank { s with conn := conn } < s.rank) := by
  have hphase := h.phase
  unfold Phase at hphase
  cases hstate : s.state with
  | idle =>
      rw [hstate] at hphase
      obtain ⟨hfsm, hrests, hevents, hcounts⟩ := hphase
      obtain ⟨hrests', hsame, hstat⟩ := Conn.next_rests hrests hl hcall
      refine ⟨⟨h.addr, ?_, h.created, h.attempts⟩, fun hstop => ?_⟩
      · rw [← hstat] at hcounts
        exact ⟨hfsm, hrests', hsame.trans hevents, hcounts⟩
      · exact absurd (hfsm.symm.trans hstop) (by simp)
  | cycle state =>
      rw [hstate] at hphase
      obtain ⟨hfsm, hruns, hreports⟩ := hphase
      refine ⟨⟨h.addr, ?_, h.created, h.attempts⟩, fun hstop => ?_⟩
      · exact ⟨hfsm, Conn.next_runs hruns hl hcall, hreports⟩
      · exact absurd (hfsm.symm.trans hstop) (by simp)
  | stoppingSipcFinal =>
      rw [hstate] at hphase
      obtain ⟨hfsm, ⟨q, hsession⟩, hreports⟩ := hphase
      obtain ⟨honward, hnext⟩ := Conn.next_stoppingSession hsession hl hcall
      refine ⟨⟨h.addr, ?_, h.created, h.attempts⟩, fun _ hpending => ?_⟩
      · exact ⟨hfsm, hnext, hreports⟩
      · have hlt := honward.load hpending
        simp only [rank, hstate]
        omega
  | stopping =>
      rw [hstate] at hphase
      obtain ⟨hfsm, hhalting, hreports⟩ := hphase
      obtain ⟨honward, hnext⟩ := Conn.next_halting hhalting hl hcall
      refine ⟨⟨h.addr, ?_, h.created, h.attempts⟩, fun _ hpending => ?_⟩
      · exact ⟨hfsm, hnext, hreports⟩
      · have hlt := honward.load hpending
        simp only [rank, hstate]
        omega

/-! ## Runs -/

theorem inv_init : Inv addr
    { addr := addr, conn := { retry := { minivl := minivl, maxivl := maxivl } } } := by
  refine ⟨rfl, ⟨rfl, ⟨Usock.off_default, Timer.quiet_default, rfl, rfl⟩, rfl,
    Or.inl ⟨rfl, rfl, EpStat.counts_default⟩⟩, fun h => absurd rfl h, ?_⟩
  intro idle hidle
  exact absurd hidle (by simp)

/-- Runs in which the back-off timer is never given a negative timeout. -/
def timely (addr : List UInt8) (minivl maxivl : Int) : System Cipc Label :=
  (system addr minivl maxivl).restrict fun s _ => 0 ≤ s.conn.retry.timeout

/-- Every step keeps the invariant. -/
theorem step_inv {l : Label} (haddr : addr.length < sunPathSize) (h : s.Inv addr)
    (hstep : (timely addr minivl maxivl).step s l s') : s'.Inv addr := by
  obtain ⟨htime, henabled, hcall⟩ := hstep
  cases l with
  | create os =>
      obtain ⟨s₁, hcreate, hinv⟩ := create_spec h haddr htime henabled os
      exact Except.ok.inj (hcreate.symm.trans hcall) ▸ hinv
  | stop =>
      obtain ⟨s₁, hstop, hinv, -⟩ := stop_spec h
      exact Except.ok.inj (hstop.symm.trans hcall) ▸ hinv
  | deliver os =>
      obtain ⟨e, rest, hevents⟩ := List.exists_cons_of_ne_nil henabled
      have he : s.conn.events.head? = some e := by rw [hevents]; rfl
      obtain ⟨s₁, hdeliver, hinv⟩ := deliver_spec h haddr htime he os
      exact Except.ok.inj (hdeliver.symm.trans hcall) ▸ hinv
  | conn l =>
      obtain ⟨conn, hnext, hret⟩ := bind_eq_ok_iff.mp hcall
      exact Except.ok.inj hret ▸ (conn_spec h henabled hnext).1

theorem inv_reachable (haddr : addr.length < sunPathSize)
    (hs : (timely addr minivl maxivl).Reachable s) : s.Inv addr :=
  hs.invariant (fun _ h => h ▸ inv_init) (fun _ _ _ _ h hstep => step_inv haddr h hstep)

/-- No step of the endpoint runs into a check. -/
theorem own_step (haddr : addr.length < sunPathSize) (h : s.Inv addr)
    (htime : 0 ≤ s.conn.retry.timeout) {l : Label} (hown : l.Own) (henabled : s.Enabled l) :
    ∃ s', s.next l = .ok s' := by
  cases l with
  | create os =>
      obtain ⟨s', hcall, -⟩ := create_spec h haddr htime henabled os
      exact ⟨s', hcall⟩
  | stop =>
      obtain ⟨s', hcall, -⟩ := stop_spec h
      exact ⟨s', hcall⟩
  | deliver os =>
      obtain ⟨e, rest, hevents⟩ := List.exists_cons_of_ne_nil henabled
      have he : s.conn.events.head? = some e := by rw [hevents]; rfl
      obtain ⟨s', hcall, -⟩ := deliver_spec h haddr htime he os
      exact ⟨s', hcall⟩
  | conn l => exact hown.elim

/-- An endpoint reports once, and then everything rests. -/
theorem reports_spec (h : s.Inv addr) :
    s.reports ≤ 1 ∧ (s.reports = 1 → s.conn.allIdle = true ∧ s.conn.events = []) := by
  have hphase := h.phase
  unfold Phase at hphase
  cases hstate : s.state with
  | idle =>
      rw [hstate] at hphase
      obtain ⟨-, hrests, hevents, ⟨-, hreports, -⟩ | ⟨-, hreports⟩⟩ := hphase
      · exact ⟨by omega, fun h => ⟨Conn.allIdle_of_rests hrests hevents, hevents⟩⟩
      · exact ⟨by omega, fun h => ⟨Conn.allIdle_of_rests hrests hevents, hevents⟩⟩
  | cycle state | stoppingSipcFinal | stopping =>
      rw [hstate] at hphase
      have hreports := hphase.2.2
      exact ⟨by omega, fun h => by omega⟩

/-! ## After a stop -/

/-- The endpoint was stopped: it is on its way, or has reported. -/
structure Stopped (s : Cipc) : Prop where
  created : s.created = true
  fsm : s.fsm ≠ .active

/-- It is handed its events until it has reported. -/
theorem deliver_stopped {e : Event} (h : s.Inv addr) (hstopped : s.Stopped)
    (he : s.conn.events.head? = some e) (os : Answers) :
    ∃ s', s.deliver os = .ok s' ∧ Ends addr s s' := by
  have hphase := h.phase
  unfold Phase at hphase
  cases hstate : s.state with
  | idle =>
      rw [hstate] at hphase
      exact absurd he (by simp [hphase.2.2.1])
  | cycle state =>
      rw [hstate] at hphase
      exact absurd hphase.1 hstopped.fsm
  | stoppingSipcFinal =>
      rw [hstate] at hphase
      obtain ⟨hfsm, ⟨q, hsession⟩, hreports⟩ := hphase
      exact deliver_stoppingSipcFinal h hstate hfsm hsession hreports he os
  | stopping =>
      rw [hstate] at hphase
      obtain ⟨hfsm, hhalting, hreports⟩ := hphase
      exact deliver_stopping h hstate hfsm hhalting hreports he os

theorem Ends.stopped (hends : Ends addr s s') (hstopped : s.Stopped) : s'.Stopped := by
  refine ⟨hends.created.trans hstopped.created, ?_⟩
  rcases hends.outcome with ⟨hfsm, -⟩ | ⟨hfsm, -⟩ <;> simp [hfsm]

/-- Until it has reported it is stopping, and something is left to do. -/
theorem exists_pending (h : s.Inv addr) (hstopped : s.Stopped) (hreports : s.reports ≠ 1) :
    s.fsm = .stopping ∧
      ∃ l s', l.Pending ∧ (system addr minivl maxivl).step s l s' := by
  have hphase := h.phase
  unfold Phase at hphase
  -- an event comes first, and then the machines
  have hdeliver : ∀ e, s.conn.events.head? = some e →
      ∃ l s', l.Pending ∧ (system addr minivl maxivl).step s l s' := by
    intro e he
    obtain ⟨s', hcall, -⟩ := deliver_stopped h hstopped he {}
    refine ⟨.deliver {}, s', trivial, fun hnil => ?_, hcall⟩
    exact absurd he (by simp [hnil])
  have hconn : (∃ l c, l.Pending ∧ s.conn.Enabled l ∧ s.conn.next l = .ok c) →
      ∃ l s', l.Pending ∧ (system addr minivl maxivl).step s l s' := by
    rintro ⟨l, c, hpending, henabled, hcall⟩
    refine ⟨.conn l, { s with conn := c }, hpending, henabled, ?_⟩
    simp only [next, hcall, ok_bind, pure_eq_ok]
  cases hstate : s.state with
  | idle =>
      rw [hstate] at hphase
      obtain ⟨-, -, -, ⟨hcreated, -⟩ | ⟨-, hone⟩⟩ := hphase
      · exact absurd (hstopped.created.symm.trans hcreated) (by simp)
      · exact absurd hone hreports
  | cycle state =>
      rw [hstate] at hphase
      exact absurd hphase.1 hstopped.fsm
  | stoppingSipcFinal =>
      rw [hstate] at hphase
      obtain ⟨hfsm, ⟨q, hsession⟩, -⟩ := hphase
      refine ⟨hfsm, ?_⟩
      cases hevents : s.conn.events with
      | nil =>
          obtain rfl := Conn.nil_of_map (hsession.events.symm.trans hevents)
          exact hconn (Conn.exists_next_stoppingSession hsession)
      | cons e rest => exact hdeliver e (by rw [hevents]; rfl)
  | stopping =>
      rw [hstate] at hphase
      obtain ⟨hfsm, hhalting, -⟩ := hphase
      refine ⟨hfsm, ?_⟩
      cases hevents : s.conn.events with
      | nil => exact hconn (Conn.exists_next_halting hhalting hevents)
      | cons e rest => exact hdeliver e (by rw [hevents]; rfl)

/-- A step that a stopped endpoint has to see. -/
theorem pending_step {l : Label} (h : s.Inv addr) (hstopped : s.Stopped) (hl : l.Pending)
    (hstep : (system addr minivl maxivl).step s l s') :
    s'.Inv addr ∧ s'.Stopped ∧ (s.fsm = .stopping → s'.reports = 1 ∨ s'.rank < s.rank) := by
  obtain ⟨henabled, hcall⟩ := hstep
  cases l with
  | create os => exact hl.elim
  | stop => exact hl.elim
  | deliver os =>
      obtain ⟨e, rest, hevents⟩ := List.exists_cons_of_ne_nil henabled
      have he : s.conn.events.head? = some e := by rw [hevents]; rfl
      obtain ⟨s₁, hdeliver, hends⟩ := deliver_stopped h hstopped he os
      obtain rfl := Except.ok.inj (hdeliver.symm.trans hcall)
      exact ⟨hends.inv, hends.stopped hstopped, fun _ => hends.outcome.imp And.right And.right⟩
  | conn l =>
      obtain ⟨c, hnext, hret⟩ := bind_eq_ok_iff.mp hcall
      cases hret
      obtain ⟨hinv, hrank⟩ := conn_spec h henabled hnext
      exact ⟨hinv, ⟨hstopped.created, hstopped.fsm⟩, fun hfsm => Or.inr (hrank hfsm hl)⟩

/-- A stopped endpoint reports, whatever the order of the steps it still has to see. -/
theorem settles (h : s.Inv addr) (hstopped : s.Stopped) :
    (system addr minivl maxivl).Settles Label.Pending (fun s => s.reports = 1) s := by
  -- the report itself counts as one more thing to do
  refine System.settles_of_rank (I := fun s => s.Inv addr ∧ s.Stopped)
    (fun s => if s.reports = 1 then 0 else s.rank + 1) ?_ ?_ ?_ ⟨h, hstopped⟩
  · intro s l s' hs hl hstep
    obtain ⟨hinv, hstop, -⟩ := pending_step hs.1 hs.2 hl hstep
    exact ⟨hinv, hstop⟩
  · intro s hs hreports
    exact (exists_pending hs.1 hs.2 hreports).2
  · intro s l s' hs hreports hl hstep
    have hfsm : s.fsm = .stopping ∧
        ∃ l s', l.Pending ∧ (system addr minivl maxivl).step s l s' :=
      exists_pending hs.1 hs.2 hreports
    obtain ⟨-, -, houtcome⟩ := pending_step hs.1 hs.2 hl hstep
    rw [if_neg hreports]
    rcases houtcome hfsm.1 with hone | hlt
    · rw [if_pos hone]
      omega
    · split <;> omega

/-- A stop is remembered. -/
theorem stopped_step {l : Label} (h : s.Inv addr)
    (hl : l = .stop ∨ s.Stopped) (hstep : (timely addr minivl maxivl).step s l s') :
    s'.Stopped := by
  obtain ⟨-, henabled, hcall⟩ := hstep
  cases l with
  | create os =>
      have hstopped := hl.resolve_left (by simp)
      exact absurd (hstopped.created.symm.trans henabled) (by simp)
  | stop =>
      obtain ⟨s₁, hstop, -, hcreated, hfsm⟩ := stop_spec h
      obtain rfl := Except.ok.inj (hstop.symm.trans hcall)
      exact ⟨hcreated.trans henabled, hfsm⟩
  | deliver os =>
      have hstopped := hl.resolve_left (by simp)
      obtain ⟨e, rest, hevents⟩ := List.exists_cons_of_ne_nil henabled
      have he : s.conn.events.head? = some e := by rw [hevents]; rfl
      obtain ⟨s₁, hdeliver, hends⟩ := deliver_stopped h hstopped he os
      obtain rfl := Except.ok.inj (hdeliver.symm.trans hcall)
      exact hends.stopped hstopped
  | conn l =>
      have hstopped := hl.resolve_left (by simp)
      obtain ⟨c, -, hret⟩ := bind_eq_ok_iff.mp hcall
      cases hret
      exact ⟨hstopped.created, hstopped.fsm⟩

theorem stopped_run (haddr : addr.length < sunPathSize) {labels : List Label}
    (hrun : (timely addr minivl maxivl).Run labels s) (hstop : Label.stop ∈ labels) :
    s.Stopped := by
  induction hrun with
  | start _ => exact absurd hstop (by simp)
  | step hrun hstep ih =>
      apply stopped_step (inv_reachable haddr ⟨_, hrun⟩) ?_ hstep
      rcases List.mem_append.mp hstop with h | h
      · exact Or.inr (ih h)
      · exact Or.inl (List.mem_singleton.mp h).symm

/-- The reconnect cycle of an IPC endpoint, in every run: its own functions run into no
check, every attempt begins with usock, session and timer idle, and after a stop, at
whatever point it came, the endpoint reports that it has stopped, once, with all three idle
and nothing queued. -/
theorem reconnect_cycle (haddr : addr.length < sunPathSize) {labels : List Label}
    (hrun : (timely addr minivl maxivl).Run labels s) :
    (∀ l, l.Own → s.Enabled l → 0 ≤ s.conn.retry.timeout → ∃ s', s.next l = .ok s') ∧
      (∀ idle ∈ s.attempts, idle = true) ∧
      (Label.stop ∈ labels →
        (system addr minivl maxivl).Settles Label.Pending (fun s => s.reports = 1) s) ∧
      s.reports ≤ 1 ∧ (s.reports = 1 → s.conn.allIdle = true ∧ s.conn.events = []) := by
  have h := inv_reachable haddr ⟨labels, hrun⟩
  refine ⟨fun l hown henabled htime => own_step haddr h htime hown henabled, h.attempts,
    fun hstop => settles h (stopped_run haddr hrun hstop), reports_spec h⟩

/-- An endpoint whose first attempt is refused, stopped while that is still queued. -/
theorem reconnect_cycle_refused :
    ∃ s : Cipc, (timely [47] 100 100).Run [.create { connect := .failed }, .stop] s ∧
      (system [47] 100 100).Settles Label.Pending (fun s => s.reports = 1) s := by
  have hrun : (timely [47] 100 100).Run ([] ++ [.create { connect := .failed }] ++ [.stop]) _ :=
    .step (.step (.start rfl) ⟨by decide, rfl, rfl⟩) ⟨by decide, rfl, rfl⟩
  exact ⟨_, hrun, (reconnect_cycle (by decide) hrun).2.2.1 (by simp)⟩

end GridMq.Transports.Cipc
