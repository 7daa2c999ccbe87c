import GridMq.Transports.Ctcp

set_option autoImplicit false

/-!
# Runs of a connecting TCP endpoint

While no attempt fails to bind its local address, every attempt leaves the machines of the
endpoint at rest, and the next one finds the usock without a descriptor.
-/

namespace GridMq.Transports

open GridMq.Aio GridMq.Library

/-! ## Ports -/

theorem portDigits_pos {res : Int} {port : List UInt8} (h : 0 ≤ res)
    (hport : 0 ≤ portDigits res port) : 0 < portDigits res port := by
  induction port generalizing res with
  | nil =>
      simp only [portDigits] at hport ⊢
      split
      · rename_i hzero
        rw [if_pos hzero] at hport
        exact absurd hport (by simp [portInval])
      · omega
  | cons c port ih =>
      simp only [portDigits] at hport ⊢
      split
      · rename_i hdigit
        rw [if_pos hdigit] at hport
        exact absurd hport (by simp [portInval])
      · rename_i hdigit
        rw [if_neg hdigit] at hport
        split
        · rename_i hlarge
          rw [if_pos hlarge] at hport
          exact absurd hport (by simp [portInval])
        · rename_i hlarge
          rw [if_neg hlarge] at hport
          have hc : 48 ≤ c.toNat := by
            have := UInt8.not_lt.mp fun hlt => hdigit (Or.inl hlt)
            exact UInt8.le_iff_toNat_le.mp this
          exact ih (by omega) hport

/-- A port that was accepted is one that can be connected to. -/
theorem addrPort_pos {addr : List UInt8} (h : 0 ≤ addrPort addr) :
    0 < addrPort addr ∧ 58 ∈ addr := by
  unfold addrPort afterColon at h ⊢
  by_cases hcolon : 58 ∈ addr
  · simp only [if_pos hcolon] at h ⊢
    exact ⟨portDigits_pos (Int.le_refl 0) h, hcolon⟩
  · rw [if_neg hcolon] at h
    exact absurd h (by simp [portInval])

namespace Ctcp

variable {addr : List UInt8} {minivl maxivl : Int} {s s' : Ctcp} {o : TcpAnswers}

/-! ## The invariant -/

/-- What an endpoint is doing in each state. -/
def Phase (s : Ctcp) : Prop :=
  match s.state with
  | .idle =>
      s.fsm = .idle ∧ s.conn.Rests ∧ s.conn.events = [] ∧ s.dns.Quiet ∧
        (s.created = false → s.conn.stat.Counts 0)
  | .resolving =>
      s.fsm = .active ∧ s.conn.Rests ∧ s.conn.stat.Counts 0 ∧
        ∃ q : List DnsEvent, s.conn.events = q.map .dns ∧ s.dns.Resolving q
  | .stoppingDns =>
      s.fsm = .active ∧ s.conn.Rests ∧ s.conn.stat.Counts 0 ∧
        ∃ q : List DnsEvent, s.conn.events = q.map .dns ∧ s.dns.Stopping q ∧
          ∀ e ∈ q, e = .stopped
  | .cycle state => s.fsm = .active ∧ s.conn.Runs state ∧ s.dns.Quiet
  | .stoppingStcpFinal =>
      s.fsm = .stopping ∧ (∃ q, s.conn.StoppingSession q) ∧ s.dns.Quiet
  | .stopping =>
      s.fsm = .stopping ∧ (s.conn.Halting ∧ s.dns.Quiet ∨
        s.conn.Rests ∧ ∃ q : List DnsEvent, s.conn.events = q.map .dns ∧ s.dns.Stopping q)

/-- What holds of an endpoint whatever it is doing. -/
structure Kept (s : Ctcp) : Prop where
  created : s.fsm ≠ .idle → s.created = true
  addr : s.created = true → 0 ≤ addrPort s.addr
  attempts : ∀ idle ∈ s.attempts, idle = true

/-- What holds of an endpoint at any time. -/
structure Inv (s : Ctcp) : Prop extends Kept s where
  phase : s.Phase

/-- A call of the endpoint returns and keeps the invariant, or the back-off has overflowed
and a check of its timer ends the process. -/
def Sound (s : Ctcp) (x : Except Abort Ctcp) : Prop :=
  (∃ s', x = .ok s' ∧ s'.Inv) ∨ s.conn.retry.timeout < 0 ∧ x = .error .assertion

/-! ## Calls -/

theorem raiseDns_nil (h : s.conn.events = []) (r : Dns × Option DnsEvent) :
    s.raiseDns r = .ok { s with
      dns := r.1, conn := { s.conn with events := r.2.toList.map .dns } } := by
  simp only [raiseDns, h, raiseEvent?_nil, Conn.map_toList, ok_bind, pure_eq_ok]

theorem raiseDns_none (d : Dns) : s.raiseDns (d, none) = .ok { s with dns := d } := rfl

/-- The endpoint begins anew by resolving the name. -/
theorem startResolving_spec (h : 58 ∈ s.addr) (hconn : s.conn.Fresh) (hdns : s.dns.Quiet) :
    ∃ (d : Dns) (q : List DnsEvent), s.startResolving o = .ok { s with
        state := .resolving, dns := d, conn := { s.conn with events := q.map .dns } } ∧
      d.Resolving q := by
  obtain ⟨d, e, hcall, hresolving⟩ := hdns.start o.resolve
  have hstopped : decide (Event.dns .stopped ∈ s.conn.events) = false := by simp [hconn.events]
  refine ⟨d, e.toList, ?_, hresolving⟩
  simp only [startResolving, gridAssert_pos h, hstopped, hcall, raiseDns_nil hconn.events,
    ok_bind, pure_eq_ok]

/-- An attempt that fails before it has a socket. -/
theorem wait_spec (h : s.Kept) (hfsm : s.fsm = .active) (hconn : s.conn.Fresh)
    (hdns : s.dns.Quiet) : s.Sound s.wait := by
  by_cases htime : 0 ≤ s.conn.retry.timeout
  · left
    obtain ⟨c', hcall, hwaiting, hstat⟩ := Conn.startRetry_rests hconn.rests hconn.events htime
    refine ⟨{ s with conn := c', state := .cycle .waiting }, ?_,
      ⟨h.created, h.addr, h.attempts⟩, hfsm, ⟨⟨[], hwaiting⟩, hstat ▸ hconn.counts⟩, hdns⟩
    simp only [wait, hcall, ok_bind, pure_eq_ok]
  · right
    have hcall := Conn.startRetry_negative (Int.not_le.mp htime)
    exact ⟨Int.not_le.mp htime, by simp only [wait, hcall, error_bind]⟩

/-- An attempt whose `bind` succeeds, if it comes to that. -/
theorem startConnecting_spec (h : s.Kept) (hfsm : s.fsm = .active) (hconn : s.conn.Fresh)
    (hdns : s.dns.Quiet) (hbind : o.iface = true → o.socket = true → o.bind = true) :
    s.Sound (s.startConnecting o) := by
  have hcreated := h.created (by simp [hfsm])
  have hport := (addrPort_pos (h.addr hcreated)).1
  have hidle : (s.conn.usockIsIdle && !s.conn.usock.fd) = true := by
    simp [Conn.usockIsIdle, hconn.events, hconn.rests.usock.isIdle, hconn.rests.usock.fd]
  have hattempts : ∀ idle ∈ s.attempts ++ [true], idle = true := by
    intro idle hmem
    rcases List.mem_append.mp hmem with hmem | hmem
    · exact h.attempts idle hmem
    · exact List.mem_singleton.mp hmem
  unfold startConnecting
  rw [if_neg (by omega)]
  by_cases hiface : o.iface = false
  · rw [if_pos hiface]
    exact wait_spec h hfsm hconn hdns
  · rw [if_neg hiface]
    simp only [hidle, Conn.startUsock_rests hconn.rests hconn.events, ok_bind]
    cases hsocket : o.socket with
    | false =>
        have hkept : ({ s with attempts := s.attempts ++ [true] } : Ctcp).Kept :=
          ⟨h.created, h.addr, hattempts⟩
        exact wait_spec hkept hfsm hconn hdns
    | true =>
        have hbound := hbind (by simpa using hiface) hsocket
        left
        obtain ⟨c₁, q, hcall, hconnecting, hstat⟩ :=
          Conn.connect_started hconn.rests hconn.events o.connect
        have hcounts : c₁.stat.Counts 0 := hstat ▸ hconn.counts
        obtain ⟨st, hst, hcounts'⟩ := hcounts.begin
        refine ⟨{ s with
            attempts := s.attempts ++ [true]
            conn := { c₁ with stat := st }
            state := .cycle .connecting }, ?_, ⟨h.created, h.addr, hattempts⟩, hfsm,
          ⟨⟨q, hconnecting.events, hconnecting.usock, hconnecting.retry, hconnecting.session⟩,
            hcounts'⟩, hdns⟩
        simp only [if_true, Usock.setsockopt, Usock.bind, true_or, gridAssert_pos, hbound, hcall,
          Conn.increment, hst, ok_bind, pure_eq_ok, Bool.true_eq_false, if_false]

/-! ## The handler -/

/-- The resolver is done. -/
theorem handler_resolving (h : s.Kept) (hstate : s.state = .resolving) (hfsm : s.fsm = .active)
    (hconn : s.conn.Fresh) (hdns : s.dns.Resolving [.done]) :
    ∃ s', s.handler o (.dns .done) = .ok s' ∧ s'.Inv := by
  rcases hdns.2 with ⟨-, -, hnil⟩ | ⟨hdone, -, -⟩
  · exact absurd hnil (by simp)
  · have hstop : s.dns.stop o.cancelled =
        ({ s.dns with state := .idle, fsm := .idle, lookup := false }, some .stopped) := by
      simp [Dns.stop, hdns.1, hdone]
    refine ⟨{ s with
        dns := { s.dns with state := .idle, fsm := .idle, lookup := false }
        conn := { s.conn with events := [.dns .stopped] }
        state := .stoppingDns }, ?_, ⟨h.created, h.addr, h.attempts⟩, hfsm,
      ⟨hconn.rests.usock, hconn.rests.retry, hconn.rests.session⟩, hconn.counts, [.stopped], rfl,
      Ending.raised (q := []) ⟨rfl, rfl, rfl⟩ (by simp), by simp⟩
    unfold handler
    rw [hstate]
    simp only [hstop, raiseDns_nil hconn.events, ok_bind, pure_eq_ok]
    rfl

/-- The resolver has stopped. -/
theorem handler_stoppingDns (h : s.Kept) (hstate : s.state = .stoppingDns)
    (hfsm : s.fsm = .active) (hconn : s.conn.Fresh) (hdns : s.dns.Quiet)
    (hbind : s.dns.result = .found → o.iface = true → o.socket = true → o.bind = true) :
    s.Sound (s.handler o (.dns .stopped)) := by
  unfold handler
  rw [hstate]
  simp only
  by_cases hfound : s.dns.result = .found
  · rw [if_pos hfound]
    exact startConnecting_spec h hfsm hconn hdns (hbind hfound)
  · rw [if_neg hfound]
    exact wait_spec h hfsm hconn hdns

/-- The states of the cycle, where `c` is the state of the machines before the event. -/
theorem handler_cycle {state : CycleState} {e : Event} {c : Conn} (h : s.Kept)
    (hstate : s.state = .cycle state) (hfsm : s.fsm = .active) (hconn : s.conn = c.pop)
    (hruns : c.Runs state) (hdns : s.dns.Quiet) (he : c.events.head? = some e) :
    s.Sound (s.handler o e) := by
  unfold handler
  rw [hstate]
  simp only [hconn]
  rcases Conn.handler_runs hruns he o.errnum with ⟨c', next, hhandled⟩ | ⟨htime, hcall⟩
  · left
    simp only [hhandled.eq, ok_bind]
    cases next with
    | some state' =>
        exact ⟨_, rfl, ⟨h.created, h.addr, h.attempts⟩, hfsm, hhandled.leads, hdns⟩
    | none =>
        obtain rfl := hhandled.last rfl
        have hfresh : c.pop.Fresh := hhandled.leads
        have hcolon := (addrPort_pos (h.addr (h.created (by simp [hfsm])))).2
        obtain ⟨d, q, hcall, hresolving⟩ := startResolving_spec
          (s := { s with conn := c.pop, state := .cycle state }) (o := o) hcolon hfresh hdns
        refine ⟨_, hcall, ⟨h.created, h.addr, h.attempts⟩, hfsm,
          ⟨hfresh.rests.usock, hfresh.rests.retry, hfresh.rests.session⟩, hfresh.counts, q, rfl,
          hresolving⟩
  · right
    refine ⟨?_, by simp only [hcall, error_bind]⟩
    rw [hconn]
    exact htime

/-! ## Stopping -/

theorem dnsIsIdle_quiet (h : s.dns.Quiet) (hevents : Event.dns .stopped ∉ s.conn.events) :
    s.dnsIsIdle = true := by
  simp [dnsIsIdle, h.isIdle, hevents]

theorem dnsIsIdle_stopping {q : List DnsEvent} (hevents : s.conn.events = q.map .dns)
    (h : s.dns.Stopping q) : s.dnsIsIdle = false := by
  rcases h with ⟨hcancelling, -⟩ | ⟨-, pre, hq, -⟩
  · exact hcancelling.isIdle _
  · simp [dnsIsIdle, Dns.isIdle, hevents, hq]

theorem shutdownStopping_busy
    (h : (s.conn.retryIsIdle && s.conn.usockIsIdle && s.dnsIsIdle) = false) :
    s.shutdownStopping = .ok s := by
  unfold shutdownStopping
  rw [if_neg (by simp [h])]

theorem shutdownStopping_halting (h : s.conn.Halting) : s.shutdownStopping = .ok s :=
  shutdownStopping_busy (by rw [h.not_idle, Bool.false_and])

theorem shutdownStopping_dns {q : List DnsEvent} (hevents : s.conn.events = q.map .dns)
    (h : s.dns.Stopping q) : s.shutdownStopping = .ok s :=
  shutdownStopping_busy (by rw [dnsIsIdle_stopping hevents h, Bool.and_false])

theorem shutdownStopping_rests (hrests : s.conn.Rests) (hevents : s.conn.events = [])
    (hdns : s.dns.Quiet) (hfsm : s.fsm = .stopping) :
    s.shutdownStopping = .ok { s with state := .idle, fsm := .idle } := by
  have hidle := Conn.allIdle_of_rests hrests hevents
  simp only [Conn.allIdle, Bool.and_eq_true] at hidle
  unfold shutdownStopping
  rw [if_pos (by rw [hidle.2, hidle.1.1, dnsIsIdle_quiet hdns (by simp [hevents])]; rfl),
    gridAssert_pos hfsm]
  rfl

/-- The session has not stopped yet. -/
theorem shutdownStcp_busy {q : List SessionEvent} (h : s.conn.StoppingSession q) :
    s.shutdownStcp o = .ok s := by
  unfold shutdownStcp
  rw [if_neg (by simp [h.not_idle])]

/-- The session is idle; the usock or the timer is stopped. -/
theorem shutdownStcp_halt {conn : Conn} (hidle : s.conn.sessionIsIdle = true)
    (hcall : s.conn.halt = .ok conn) (hhalting : conn.Halting) (hdns : s.dns.Quiet) :
    s.shutdownStcp o = .ok { s with conn := conn, state := .stopping } := by
  unfold shutdownStcp
  rw [if_pos hidle]
  simp only [hcall, ok_bind, hdns.stop_eq, raiseDns_none]
  exact shutdownStopping_halting (s := { s with conn := conn, state := .stopping }) hhalting

/-- The session is idle; the resolver is stopped. -/
theorem shutdownStcp_dns {q : List DnsEvent} (hrests : s.conn.Rests)
    (hevents : s.conn.events = q.map .dns) (hdns : s.dns.Resolving q) :
    ∃ (d : Dns) (q' : List DnsEvent), s.shutdownStcp o = .ok { s with
        conn := { s.conn with events := q'.map .dns }, dns := d, state := .stopping } ∧
      d.Stopping q' := by
  have hidle : s.conn.sessionIsIdle = true :=
    Conn.sessionIsIdle_of_idle hrests.session (by simp [hevents])
  obtain ⟨hstopping, hlast⟩ := Dns.stop_resolving hdns o.cancelled
  refine ⟨(s.dns.stop o.cancelled).1, q ++ (s.dns.stop o.cancelled).2.toList, ?_, hstopping⟩
  have hraise : s.raiseDns (s.dns.stop o.cancelled) = .ok { s with
      dns := (s.dns.stop o.cancelled).1
      conn := { s.conn with
        events := (q ++ (s.dns.stop o.cancelled).2.toList).map .dns } } := by
    have hq : DnsEvent.stopped ∉ q := by
      rcases hdns.2 with ⟨-, -, rfl⟩ | ⟨-, -, rfl⟩ <;> simp
    have hnew : Event.item (.dns .stopped) ∉ (q.map Event.dns).map Event.item := by
      simpa [Event.item] using hq
    unfold raiseDns
    rw [hevents]
    rcases hlast with hnone | hsome
    · rw [hnone]
      simp
    · rw [hsome]
      simp only [Option.map_some, raiseEvent?_some, raiseEvent_ok hnew, ok_bind, pure_eq_ok]
      simp
  unfold shutdownStcp
  rw [if_pos hidle]
  simp only [Conn.halt_rests hrests, ok_bind, hraise]
  exact shutdownStopping_dns (s := { s with
    conn := { s.conn with events := (q ++ (s.dns.stop o.cancelled).2.toList).map .dns }
    dns := (s.dns.stop o.cancelled).1
    state := .stopping }) rfl hstopping

/-- A stop can come at any time. -/
theorem stop_spec (h : s.Inv) : ∃ s', s.stop o = .ok s' ∧ s'.Inv := by
  unfold stop
  by_cases hfsm : s.fsm = .active
  · rw [if_pos hfsm]
    have hcreated := h.created (by simp [hfsm])
    have hphase := h.phase
    unfold Phase at hphase
    cases hstate : s.state with
    | resolving =>
        rw [hstate] at hphase
        obtain ⟨-, hrests, hcounts, q, hevents, hdns⟩ := hphase
        have hidle := Conn.sessionIsIdle_of_idle hrests.session (by simp [hevents])
        have hdrop : s.conn.dropSession = .ok s.conn := if_pos hidle
        obtain ⟨d, q', hcall, hstopping⟩ := shutdownStcp_dns
          (s := { s with fsm := .stopping, state := .stoppingStcpFinal }) (o := o)
          hrests hevents hdns
        rw [hdrop, ok_bind]
        exact ⟨_, hcall, ⟨fun _ => hcreated, h.addr, h.attempts⟩, rfl,
          Or.inr ⟨⟨hrests.usock, hrests.retry, hrests.session⟩, q', rfl, hstopping⟩⟩
    | stoppingDns =>
        rw [hstate] at hphase
        obtain ⟨-, hrests, hcounts, q, hevents, hdns, -⟩ := hphase
        have hidle := Conn.sessionIsIdle_of_idle hrests.session (by simp [hevents])
        have hdrop : s.conn.dropSession = .ok s.conn := if_pos hidle
        have hsame : s.dns.stop o.cancelled = (s.dns, none) := by
          rcases hdns with ⟨hcancelling, -⟩ | ⟨hquiet, -⟩
          · exact hcancelling.stop_eq _
          · exact hquiet.stop_eq _
        rw [hdrop, ok_bind]
        refine ⟨{ s with fsm := .stopping, state := .stopping }, ?_,
          ⟨fun _ => hcreated, h.addr, h.attempts⟩, rfl, Or.inr ⟨hrests, q, hevents, hdns⟩⟩
        simp only [shutdownStcp, hidle, if_true, Conn.halt_rests hrests, ok_bind, hsame,
          raiseDns_none]
        exact shutdownStopping_dns (s := { s with fsm := .stopping, state := .stopping })
          hevents hdns
    | cycle state =>
        rw [hstate] at hphase
        obtain ⟨-, hruns, hdns⟩ := hphase
        rcases Conn.stop_runs hruns with
          ⟨c', q, hdrop, hsession⟩ | ⟨hdrop, hidle, c', hhalt, hhalting⟩
        · refine ⟨{ s with fsm := .stopping, conn := c', state := .stoppingStcpFinal }, ?_,
            ⟨fun _ => hcreated, h.addr, h.attempts⟩, rfl, ⟨q, hsession⟩, hdns⟩
          rw [hdrop, ok_bind]
          exact shutdownStcp_busy hsession
        · refine ⟨{ s with fsm := .stopping, conn := c', state := .stopping }, ?_,
            ⟨fun _ => hcreated, h.addr, h.attempts⟩, rfl, Or.inl ⟨hhalting, hdns⟩⟩
          rw [hdrop, ok_bind]
          exact shutdownStcp_halt (s := { s with fsm := .stopping, state := .stoppingStcpFinal })
            hidle hhalt hhalting hdns
    | idle | stoppingStcpFinal | stopping =>
        rw [hstate] at hphase
        exact absurd (hfsm.symm.trans hphase.1) (by simp)
  · rw [if_neg hfsm]
    exact ⟨s, rfl, h⟩

/-! ## Events -/

/-- The next event, for an endpoint in its cycle. -/
theorem deliver_active {e : Event} (h : s.Inv) (hfsm : s.fsm = .active)
    (he : s.conn.events.head? = some e) (hbind : ¬s.BindFails (.deliver o)) :
    s.Sound (({ s with conn := s.conn.pop } : Ctcp).handler o e) := by
  have hphase := h.phase
  unfold Phase at hphase
  cases hstate : s.state with
  | resolving =>
      rw [hstate] at hphase
      obtain ⟨-, hrests, hcounts, q, hevents, hdns⟩ := hphase
      obtain ⟨a, rest, hq, rfl, hrest⟩ := Conn.pop_of_map hevents he
      rcases hdns.2 with ⟨-, -, hnil⟩ | ⟨hdone, hlookup, hup⟩
      · exact absurd (hq.symm.trans hnil) (by simp)
      · obtain ⟨rfl, rfl⟩ := List.cons_eq_cons.mp (hq.symm.trans hup)
        exact Or.inl (handler_resolving ⟨h.created, h.addr, h.attempts⟩ rfl hfsm
          ⟨⟨hrests.usock, hrests.retry, hrests.session⟩, hrest, hcounts⟩
          ⟨hdns.1, Or.inr ⟨hdone, hlookup, rfl⟩⟩)
  | stoppingDns =>
      rw [hstate] at hphase
      obtain ⟨-, hrests, hcounts, q, hevents, hdns, hclean⟩ := hphase
      obtain ⟨a, rest, rfl, rfl, hrest⟩ := Conn.pop_of_map hevents he
      obtain rfl : a = .stopped := hclean a List.mem_cons_self
      obtain ⟨hquiet, rfl⟩ := hdns.of_last
      refine handler_stoppingDns ⟨h.created, h.addr, h.attempts⟩ rfl hfsm
        ⟨⟨hrests.usock, hrests.retry, hrests.session⟩, hrest, hcounts⟩ hquiet ?_
      intro hfound hiface hsocket
      by_contra hfail
      exact hbind ⟨hstate, he, hfound, hiface, hsocket, by simpa using hfail⟩
  | cycle state =>
      rw [hstate] at hphase
      obtain ⟨-, hruns, hdns⟩ := hphase
      exact handler_cycle ⟨h.created, h.addr, h.attempts⟩ rfl hfsm rfl hruns hdns he
  | idle | stoppingStcpFinal | stopping =>
      rw [hstate] at hphase
      exact absurd (hfsm.symm.trans hphase.1) (by simp)

/-- The next event, for an endpoint that was stopped. -/
theorem deliver_stopping {e : Event} (h : s.Inv) (hfsm : s.fsm = .stopping)
    (he : s.conn.events.head? = some e) :
    ∃ s', ({ s with conn := s.conn.pop } : Ctcp).shutdown o = .ok s' ∧ s'.Inv := by
  have hcreated := h.created (by simp [hfsm])
  have hphase := h.phase
  unfold Phase at hphase
  cases hstate : s.state with
  | stoppingStcpFinal =>
      rw [hstate] at hphase
      obtain ⟨-, ⟨q, hsession⟩, hdns⟩ := hphase
      rcases Conn.pop_stoppingSession hsession he with
        ⟨q', hpop⟩ | ⟨hevents, hheld, hquiet, hidle⟩
      · exact ⟨_, shutdownStcp_busy hpop, ⟨fun _ => hcreated, h.addr, h.attempts⟩, hfsm,
          ⟨q', hpop⟩, hdns⟩
      · obtain ⟨c', hhalt, hhalting, -⟩ := Conn.halt_held hevents hheld hquiet hidle
        have hsessionIdle := Conn.sessionIsIdle_of_idle hidle (by simp [hevents])
        exact ⟨_, shutdownStcp_halt (s := { s with
            conn := s.conn.pop, state := .stoppingStcpFinal }) hsessionIdle hhalt hhalting hdns,
          ⟨fun _ => hcreated, h.addr, h.attempts⟩, hfsm, Or.inl ⟨hhalting, hdns⟩⟩
  | stopping =>
      rw [hstate] at hphase
      obtain ⟨-, ⟨hhalting, hdns⟩ | ⟨hrests, q, hevents, hdns⟩⟩ := hphase
      · rcases Conn.pop_halting hhalting he with hpop | ⟨hrests, hevents⟩
        · exact ⟨_, shutdownStopping_halting (s := { s with
              conn := s.conn.pop, state := .stopping }) hpop,
            ⟨fun _ => hcreated, h.addr, h.attempts⟩, hfsm, Or.inl ⟨hpop, hdns⟩⟩
        · exact ⟨_, shutdownStopping_rests (s := { s with
              conn := s.conn.pop, state := .stopping }) hrests hevents hdns hfsm,
            ⟨fun _ => hcreated, h.addr, h.attempts⟩, rfl, hrests, hevents, hdns,
            fun hnew => absurd (hcreated.symm.trans hnew) (by simp)⟩
      · obtain ⟨a, rest, rfl, -, hrest⟩ := Conn.pop_of_map hevents he
        have hrests' : s.conn.pop.Rests := ⟨hrests.usock, hrests.retry, hrests.session⟩
        by_cases ha : a = .stopped
        · subst ha
          obtain ⟨hquiet, rfl⟩ := hdns.of_last
          exact ⟨_, shutdownStopping_rests (s := { s with
              conn := s.conn.pop, state := .stopping }) hrests' hrest hquiet hfsm,
            ⟨fun _ => hcreated, h.addr, h.attempts⟩, rfl, hrests', hrest, hquiet,
            fun hnew => absurd (hcreated.symm.trans hnew) (by simp)⟩
        · exact ⟨_, shutdownStopping_dns (s := { s with
              conn := s.conn.pop, state := .stopping }) hrest (hdns.tail ha),
            ⟨fun _ => hcreated, h.addr, h.attempts⟩, hfsm,
            Or.inr ⟨hrests', rest, hrest, hdns.tail ha⟩⟩
  | idle | resolving | stoppingDns | cycle state =>
      rw [hstate] at hphase
      exact absurd (hfsm.symm.trans hphase.1) (by simp)

/-- An endpoint that is not started has no events. -/
theorem events_of_idle (h : s.Inv) (hfsm : s.fsm = .idle) : s.conn.events = [] := by
  have hphase := h.phase
  unfold Phase at hphase
  cases hstate : s.state with
  | idle =>
      rw [hstate] at hphase
      exact hphase.2.2.1
  | _ =>
      rw [hstate] at hphase
      exact absurd (hfsm.symm.trans hphase.1) (by simp)

theorem deliver_eq {e : Event} (he : s.conn.events.head? = some e) :
    s.deliver o =
      if s.fsm = .stopping then ({ s with conn := s.conn.pop } : Ctcp).shutdown o
      else ({ s with conn := s.conn.pop } : Ctcp).handler o e := by
  unfold deliver
  rw [he]

theorem deliver_spec {e : Event} (h : s.Inv) (he : s.conn.events.head? = some e)
    (hbind : ¬s.BindFails (.deliver o)) : s.Sound (s.deliver o) := by
  rw [deliver_eq he]
  by_cases hstopping : s.fsm = .stopping
  · rw [if_pos hstopping]
    exact Or.inl (deliver_stopping h hstopping he)
  · rw [if_neg hstopping]
    have hactive : s.fsm = .active := by
      cases hfsm : s.fsm with
      | idle => exact absurd he (by simp [events_of_idle h hfsm])
      | active => rfl
      | stopping => exact absurd hfsm hstopping
    exact deliver_active h hactive he hbind

/-! ## The other steps -/

theorem create_spec (h : s.Inv) (hnew : s.created = false) :
    ∃ s', s.create o = .ok s' ∧ s'.Inv := by
  have hfsm : s.fsm = .idle := by
    by_contra hne
    exact absurd (h.created hne) (by simp [hnew])
  unfold create
  by_cases hport : addrPort s.addr < 0
  · rw [if_pos hport]
    exact ⟨s, rfl, h⟩
  · rw [if_neg hport, gridAssert_pos hfsm, ok_bind]
    have hphase := h.phase
    unfold Phase at hphase
    cases hstate : s.state with
    | idle =>
        rw [hstate] at hphase
        obtain ⟨-, hrests, hevents, hdns, hcounts⟩ := hphase
        have hcolon := (addrPort_pos (Int.not_lt.mp hport)).2
        obtain ⟨d, q, hcall, hresolving⟩ := startResolving_spec
          (s := { s with created := true, state := .idle }) (o := o) hcolon
          ⟨hrests, hevents, hcounts hnew⟩ hdns
        refine ⟨{ s with
            created := true
            dns := d
            conn := { s.conn with events := q.map .dns }
            state := .resolving
            fsm := .active }, ?_, ⟨fun _ => rfl, fun _ => Int.not_lt.mp hport, h.attempts⟩,
          rfl, ⟨hrests.usock, hrests.retry, hrests.session⟩, hcounts hnew, q, rfl, hresolving⟩
        simp only [hcall, ok_bind, pure_eq_ok]
    | _ =>
        rw [hstate] at hphase
        exact absurd (hfsm.symm.trans hphase.1) (by simp)

theorem notify_spec {answer : Answer} (h : s.Inv) (henabled : s.Enabled (.notify answer))
    (hcall : s.next (.notify answer) = .ok s') : s'.Inv := by
  obtain ⟨hevents, hready⟩ := henabled
  have hphase := h.phase
  unfold Phase at hphase
  cases hstate : s.state with
  | idle =>
      rw [hstate] at hphase
      exact absurd hready (Dns.not_ready_of_quiet hphase.2.2.2.1 answer)
  | resolving =>
      rw [hstate] at hphase
      obtain ⟨hfsm, hrests, hcounts, q, hq, hdns⟩ := hphase
      obtain rfl := Conn.nil_of_map (hq.symm.trans hevents)
      obtain ⟨d, e, hnotify, hresolving⟩ := Dns.notify_resolving hdns hready
      simp only [next, hnotify, ok_bind, raiseDns_nil hevents] at hcall
      cases hcall
      refine ⟨⟨h.created, h.addr, h.attempts⟩, ?_⟩
      simp only [Phase, hstate]
      exact ⟨hfsm, ⟨hrests.usock, hrests.retry, hrests.session⟩, hcounts, e.toList, rfl,
        hresolving⟩
  | stoppingDns =>
      rw [hstate] at hphase
      obtain ⟨hfsm, hrests, hcounts, q, hq, hdns, -⟩ := hphase
      obtain rfl := Conn.nil_of_map (hq.symm.trans hevents)
      obtain ⟨d, hnotify, hquiet⟩ := Dns.notify_cancelling answer hdns.nil
      simp only [next, hnotify, ok_bind, raiseDns_nil hevents] at hcall
      cases hcall
      refine ⟨⟨h.created, h.addr, h.attempts⟩, ?_⟩
      simp only [Phase, hstate]
      exact ⟨hfsm, ⟨hrests.usock, hrests.retry, hrests.session⟩, hcounts, [.stopped], rfl,
        Ending.raised (q := []) hquiet (by simp), by simp⟩
  | cycle state | stoppingStcpFinal =>
      rw [hstate] at hphase
      exact absurd hready (Dns.not_ready_of_quiet hphase.2.2 answer)
  | stopping =>
      rw [hstate] at hphase
      obtain ⟨hfsm, ⟨-, hdns⟩ | ⟨hrests, q, hq, hdns⟩⟩ := hphase
      · exact absurd hready (Dns.not_ready_of_quiet hdns answer)
      · obtain rfl := Conn.nil_of_map (hq.symm.trans hevents)
        obtain ⟨d, hnotify, hquiet⟩ := Dns.notify_cancelling answer hdns.nil
        simp only [next, hnotify, ok_bind, raiseDns_nil hevents] at hcall
        cases hcall
        refine ⟨⟨h.created, h.addr, h.attempts⟩, ?_⟩
        simp only [Phase, hstate]
        exact ⟨hfsm, Or.inr ⟨⟨hrests.usock, hrests.retry, hrests.session⟩, [.stopped], rfl,
          Ending.raised (q := []) hquiet (by simp)⟩⟩

theorem conn_spec {l : Conn.Label} {conn : Conn} (h : s.Inv) (hl : s.conn.Enabled l)
    (hcall : s.conn.next l = .ok conn) : Inv { s with conn := conn } := by
  have hphase := h.phase
  unfold Phase at hphase
  refine ⟨⟨h.created, h.addr, h.attempts⟩, ?_⟩
  unfold Phase
  cases hstate : s.state with
  | idle =>
      rw [hstate] at hphase
      obtain ⟨hfsm, hrests, hevents, hdns, hcounts⟩ := hphase
      obtain ⟨hrests', hsame, hstat⟩ := Conn.next_rests hrests hl hcall
      exact ⟨hfsm, hrests', hsame.trans hevents, hdns, fun hnew => hstat ▸ hcounts hnew⟩
  | resolving | stoppingDns =>
      rw [hstate] at hphase
      obtain ⟨hfsm, hrests, hcounts, q, hevents, hdns⟩ := hphase
      obtain ⟨hrests', hsame, hstat⟩ := Conn.next_rests hrests hl hcall
      exact ⟨hfsm, hrests', hstat ▸ hcounts, q, hsame.trans hevents, hdns⟩
  | cycle state =>
      rw [hstate] at hphase
      obtain ⟨hfsm, hruns, hdns⟩ := hphase
      exact ⟨hfsm, Conn.next_runs hruns hl hcall, hdns⟩
  | stoppingStcpFinal =>
      rw [hstate] at hphase
      obtain ⟨hfsm, ⟨q, hsession⟩, hdns⟩ := hphase
      exact ⟨hfsm, (Conn.next_stoppingSession hsession hl hcall).2, hdns⟩
  | stopping =>
      rw [hstate] at hphase
      obtain ⟨hfsm, ⟨hhalting, hdns⟩ | ⟨hrests, q, hevents, hdns⟩⟩ := hphase
      · exact ⟨hfsm, Or.inl ⟨(Conn.next_halting hhalting hl hcall).2, hdns⟩⟩
      · obtain ⟨hrests', hsame, -⟩ := Conn.next_rests hrests hl hcall
        exact ⟨hfsm, Or.inr ⟨hrests', q, hsame.trans hevents, hdns⟩⟩

/-! ## Runs -/

/-- Runs in which no attempt fails to bind its local address. -/
def bound (addr : List UInt8) (minivl maxivl : Int) : System Ctcp Label :=
  (system addr minivl maxivl).restrict fun s l => ¬s.BindFails l

theorem inv_init : Inv
    { addr := addr, conn := { retry := { minivl := minivl, maxivl := maxivl } } } := by
  refine ⟨⟨fun h => absurd rfl h, fun h => absurd h (by simp), ?_⟩, rfl,
    ⟨Usock.off_default, Timer.quiet_default, rfl, rfl⟩, rfl, Dns.quiet_default,
    fun _ => EpStat.counts_default⟩
  intro idle hidle
  exact absurd hidle (by simp)

theorem step_inv {l : Label} (h : s.Inv) (hstep : (bound addr minivl maxivl).step s l s') :
    s'.Inv := by
  obtain ⟨hbind, henabled, hcall⟩ := hstep
  cases l with
  | create o =>
      obtain ⟨s₁, hcreate, hinv⟩ := create_spec (o := o) h henabled
      exact Except.ok.inj (hcreate.symm.trans hcall) ▸ hinv
  | stop o =>
      obtain ⟨s₁, hstop, hinv⟩ := stop_spec (o := o) h
      exact Except.ok.inj (hstop.symm.trans hcall) ▸ hinv
  | deliver o =>
      obtain ⟨e, rest, hevents⟩ := List.exists_cons_of_ne_nil henabled
      have he : s.conn.events.head? = some e := by rw [hevents]; rfl
      have hdeliver : s.deliver o = .ok s' := hcall
      rcases deliver_spec h he hbind with ⟨s₁, hok, hinv⟩ | ⟨-, herror⟩
      · exact Except.ok.inj (hok.symm.trans hdeliver) ▸ hinv
      · exact absurd (herror.symm.trans hdeliver) (by simp)
  | notify answer => exact notify_spec h henabled hcall
  | conn l =>
      obtain ⟨conn, hnext, hret⟩ := bind_eq_ok_iff.mp hcall
      exact Except.ok.inj hret ▸ conn_spec h henabled hnext

theorem inv_reachable (hs : (bound addr minivl maxivl).Reachable s) : s.Inv :=
  hs.invariant (fun _ h => h ▸ inv_init) (fun _ _ _ _ h hstep => step_inv h hstep)

/-- The reconnect cycle of a TCP endpoint, in every run in which no attempt fails to bind
its local address: each start of the usock has found it idle and without a descriptor, and
no step of the endpoint runs into a check but that of a back-off timer whose timeout has
overflowed. -/
theorem attempts_find_idle (hs : (bound addr minivl maxivl).Reachable s) :
    (∀ idle ∈ s.attempts, idle = true) ∧
      ∀ l, l.Own → s.Enabled l → ¬s.BindFails l →
        (∃ s', s.next l = .ok s' ∧ ∀ idle ∈ s'.attempts, idle = true) ∨
          s.conn.retry.timeout < 0 ∧ s.next l = .error .assertion := by
  have h := inv_reachable hs
  refine ⟨h.attempts, ?_⟩
  intro l hown henabled hbind
  cases l with
  | create o =>
      obtain ⟨s', hcall, hinv⟩ := create_spec (o := o) h henabled
      exact Or.inl ⟨s', hcall, hinv.attempts⟩
  | stop o =>
      obtain ⟨s', hcall, hinv⟩ := stop_spec (o := o) h
      exact Or.inl ⟨s', hcall, hinv.attempts⟩
  | deliver o =>
      obtain ⟨e, rest, hevents⟩ := List.exists_cons_of_ne_nil henabled
      have he : s.conn.events.head? = some e := by rw [hevents]; rfl
      rcases deliver_spec h he hbind with ⟨s', hok, hinv⟩ | herror
      · exact Or.inl ⟨s', hok, hinv.attempts⟩
      · exact Or.inr herror
  | notify answer => exact hown.elim
  | conn l => exact hown.elim

/-- An endpoint for the address `a:80`, before anything has happened. -/
def plain : Ctcp :=
  { addr := [97, 58, 56, 48], conn := { retry := { minivl := 100, maxivl := 100 } } }

/-- A step that can be taken and meets a condition. -/
def tryNext (G : Ctcp → Label → Bool) (s : Ctcp) (l : Label) : Option Ctcp :=
  if s.Enabled l ∧ G s l = true then (s.next l).toOption else none

theorem tryNext_step {G : Ctcp → Label → Bool} {l : Label} (h : tryNext G s l = some s') :
    G s l = true ∧ (system addr minivl maxivl).step s l s' := by
  unfold tryNext at h
  split at h
  · rename_i hen
    refine ⟨hen.2, hen.1, ?_⟩
    cases hnext : s.next l with
    | error a => simp [hnext, Except.toOption] at h
    | ok s₁ =>
        rw [hnext] at h
        exact congrArg Except.ok (Option.some.inj h)
  · exact absurd h (by simp)

/-- The resolver has answered, and an attempt begins. -/
theorem attempts_find_idle_resolved : ∃ s : Ctcp, s.state = .stoppingDns ∧
    (∀ idle ∈ s.attempts, idle = true) ∧
    ((∃ s', s.next (.deliver {}) = .ok s' ∧ ∀ idle ∈ s'.attempts, idle = true) ∨
      s.conn.retry.timeout < 0 ∧ s.next (.deliver {}) = .error .assertion) := by
  have hrun : (System.follow (tryNext fun s l => decide (¬s.BindFails l)) plain
        [.create {}, .deliver {}]).any
      (fun s => s.state = .stoppingDns ∧ s.Enabled (.deliver {}) ∧ ¬s.BindFails (.deliver {})) =
      true := by decide +kernel
  obtain ⟨s, hfollow, hend⟩ := (Option.any_eq_true _ _).mp hrun
  obtain ⟨hstate, hen, hbind⟩ := of_decide_eq_true hend
  have hs : (bound plain.addr 100 100).Reachable s := by
    refine (System.Reachable.start rfl).follow (fun s l s' hnext => ?_) hfollow
    obtain ⟨hG, hstep⟩ := tryNext_step hnext
    exact ⟨of_decide_eq_true hG, hstep⟩
  have h := attempts_find_idle hs
  exact ⟨s, hstate, h.1, h.2 (.deliver {}) trivial hen hbind⟩

/-- After an attempt that fails to bind the local address the usock keeps its descriptor, and
the next attempt runs into the check for it. -/
theorem not_attempts_find_idle :
    ∃ s : Ctcp, (system plain.addr 100 100).Reachable s ∧ s.Enabled (.deliver {}) ∧
      0 ≤ s.conn.retry.timeout ∧ s.conn.usock.fd = true ∧ s.conn.usockIsIdle = false ∧
      s.next (.deliver {}) = .error .assertion := by
  -- resolved, bound without success, waited and resolved again
  have hrun : (System.follow (tryNext fun _ _ => true) plain
        [.create {}, .deliver {}, .deliver { bind := false }, .conn (.retry .task),
          .conn (.retry .expire), .deliver {}, .conn (.retry .task), .deliver {},
          .deliver {}]).any
      (fun s => s.Enabled (.deliver {}) ∧ 0 ≤ s.conn.retry.timeout ∧ s.conn.usock.fd = true ∧
        s.conn.usockIsIdle = false ∧ s.next (.deliver {}) = .error .assertion) = true := by
    decide +kernel
  obtain ⟨s, hfollow, hend⟩ := (Option.any_eq_true _ _).mp hrun
  refine ⟨s, ?_, of_decide_eq_true hend⟩
  exact (System.Reachable.start rfl).follow (fun _ _ _ hnext => (tryNext_step hnext).2) hfollow

end Ctcp

end GridMq.Transports
