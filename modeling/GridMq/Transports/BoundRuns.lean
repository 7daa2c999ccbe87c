import GridMq.Transports.BoundStops

set_option autoImplicit false

/-!
# Runs of a bound endpoint

How the connection that is being accepted is stopped with the endpoint, what every step makes
of an endpoint, and from that what holds in every state that is reached.
-/

namespace GridMq.Transports

open GridMq.Aio GridMq.Library

namespace Bound

variable {α ρ : Type} {s s' : Bound α} {c c' : Accepted} {i a : Nat} {e : BoundEvent}
  {rest : List BoundEvent} {T : ListenTransport α ρ} {os : ListenAnswers ρ} {l : Label α ρ}

/-! ## Stopping the connection that is being accepted -/

theorem shutdownUsock_busy (os : ListenAnswers ρ) {o : Owner} (h : .listener o .stopped ∈ s.events) :
    s.shutdownUsock os = .ok s := by
  have hstopped : s.listenerStopped = true := List.any_eq_true.mpr
    ⟨_, h, by simp [BoundEvent.item, Usock.item]⟩
  have hbusy : s.listenerIsIdle = false := by
    rw [listenerIsIdle, hstopped]
    simp [Usock.isIdle]
  exact if_pos (Or.inl hbusy)

theorem shutdown_stoppingAtcp (h : s.state = .stoppingAtcp) :
    s.shutdown T os e = s.shutdownAtcp os := by
  unfold shutdown
  rw [h]

/-- The endpoint after it has released the connection being accepted. -/
def dropped (s : Bound α) (a : Nat) (l : Listener) : Bound α :=
  { s.setConn a none with
    atcp := none
    terms := s.terms ++ [a]
    frees := s.frees ++ [a]
    usock := l
    owner := .endpoint
    state := .stoppingUsock
    events := [.listener .endpoint .stopped] }

theorem dropped_spec (h : s.Core) (hatcp : s.atcp = some a) (hc : s.conns a = some c)
    (hfsm : c.fsm ≠ .active) (l : Listener) : Releases s (s.dropped a l) a c := by
  refine ⟨hc, hfsm, fun j => rfl, h.nodup, by simp [dropped], fun j => ?_, ?_, rfl, rfl, rfl, rfl,
    rfl, rfl, rfl⟩
  · simp only [dropped, setConn, hatcp, reduceCtorEq, or_false, Option.some.injEq]
    constructor
    · intro hj
      refine ⟨?_, Or.inl hj⟩
      rintro rfl
      exact h.apart j hatcp hj
    · rintro ⟨hne, hj | hj⟩
      · exact hj
      · exact absurd hj.symm hne
  · intro e he j hj
    obtain rfl := List.mem_singleton.mp he
    exact absurd hj (by simp [BoundEvent.conn?])

/-- The connection being accepted has stopped and is terminated, and the listening usock is
stopped. -/
theorem atcpStopped_fares (h : s.Inv) (hp : s.AtcpStopped a) (hen : s.Enabled l) :
    Fares T s l := by
  obtain ⟨os, rfl⟩ := only_deliver hp.events (by simp) hen
  obtain ⟨c, hc, hfsm, hstate, hrests, htasks⟩ := hp.child
  obtain ⟨u, hstop, hshut, -⟩ := stopListener_spec
    (s := { s.setConn a none with
      events := [], terms := s.terms ++ [a], frees := s.frees ++ [a], atcp := none })
    hp.usock.fsm (Or.inl hp.usock.state) hp.usock.tasks hp.usock.pollIn (by simp)
  have howner : ({ s.setConn a none with
      events := [], terms := s.terms ++ [a], frees := s.frees ++ [a], atcp := none } :
        Bound α).owner = .endpoint := hp.owner
  rw [howner] at hstop
  let b : Bound α := { s with events := [] }
  have hconn : b.conn a = .ok c := conn_eq hc
  have hidle : ¬(b.connIsIdle a c = false) := by simp [connIsIdle, b, hfsm]
  have hnone : c.usock.left os.cancelled = [] := by
    simp only [AcceptedUsock.left, htasks]
    split <;> rfl
  have hterm : b.termConn os a = .ok { b with terms := s.terms ++ [a] } :=
    (termConn_spec os (s := b) hc rfl (h.core.apart a hp.atcp) hfsm hstate hrests).trans
      (if_pos hnone)
  have hstep : s.next T (.deliver os) = .ok (s.dropped a u) := by
    simp only [next, deliver, hp.events, if_pos hp.fsm]
    rw [shutdown_stoppingAtcp (s := b) hp.state, shutdownAtcp]
    simp only [show b.atcp = some a from hp.atcp, hconn, ok_bind, if_neg hidle, hterm]
    refine (congrArg (fun r => r >>= fun self : Bound α =>
      shutdownUsock { self with state := .stoppingUsock } os) hstop).trans ?_
    refine (ok_bind _ _).trans ?_
    exact shutdownUsock_busy os (s := s.dropped a u) (o := .endpoint) List.mem_cons_self
  refine Or.inl ⟨_, hstep, Leads.ending h hp.fsm (h.core.releases (dropped_spec h.core hp.atcp hc
    (by simp [hfsm]) u)) hp.fsm rfl rfl (.stoppingUsock ⟨hp.fsm, rfl, rfl, rfl, hp.retry, ?_,
      ⟨hshut, rfl⟩⟩) ?_⟩
  · intro i hi
    have hia : i ≠ a := by
      rintro rfl
      exact h.core.apart i hp.atcp hi
    obtain ⟨d, hd, hruns⟩ := hp.kids i hi
    refine ⟨d, (setConn_other none hia).trans hd, ?_⟩
    have hold : about i s.events = [] := by
      rw [hp.events, about_cons_ne]
      · rfl
      · exact fun heq => hia (Option.some.inj heq).symm
    rw [hold] at hruns
    exact hruns
  · have hrest : s.atcps.map (fun i => ((s.dropped a u).conns i).elim 0 Accepted.weight) =
        s.atcps.map fun i => (s.conns i).elim 0 Accepted.weight := by
      apply List.map_congr_left
      intro i hi
      have hia : i ≠ a := by
        rintro rfl
        exact h.core.apart i hp.atcp hi
      rw [show (s.dropped a u).conns i = s.conns i from setConn_other none hia]
    simp only [load, hp.atcp, hp.events, hp.state, Option.toList_some, List.map_append,
      List.sum_append, List.length_singleton]
    rw [show (s.dropped a u).atcp = none from rfl, show (s.dropped a u).atcps = s.atcps from rfl,
      Option.toList_none, List.map_nil, List.sum_nil, hrest, show (s.dropped a u).usock = u from rfl,
      hshut.tasks, show (s.dropped a u).retry = s.retry from rfl,
      show (s.dropped a u).state = .stoppingUsock from rfl,
      show (s.dropped a u).events = [.listener .endpoint .stopped] from rfl]
    simp only [List.length_nil, List.length_singleton]
    omega

/-- A connection whose usock has stopped gives the listening usock back. -/
theorem connShutdownStopping_lent {o : Owner} (hc : s.conns i = some c)
    (hq : about i s.events = []) (hfsm : c.fsm = .stopping) (hoff : c.usock.usock.Off)
    (hlistener : c.listener = true) (howner : c.listenerOwner = some o) :
    s.connShutdownStopping i = .ok { s.setConn i (some { c with
        listener := false, listenerOwner := none, state := .idle, fsm := .idle }) with
      owner := o
      events := s.events ++ [.connection i .stopped] } := by
  have hidle : ¬(s.usockIsIdle i c = false) := by
    have hnone : BoundEvent.usock i .stopped ∉ s.events := by
      rw [usock_mem, hq]
      simp
    simp [usockIsIdle, hoff.isIdle, hnone]
  have hsome : c.listenerOwner ≠ none := by simp [howner]
  have hnew : (BoundEvent.connection i .stopped).item ∉ s.events.map BoundEvent.item :=
    item_of_kid (i := i) rfl (by simp [hq])
  have hconn : (s.returnListener i c).conn i =
      .ok { c with listener := false, listenerOwner := none } := conn_eq (setConn_self _)
  simp only [connShutdownStopping, conn_eq hc, ok_bind, if_neg hidle, releaseListener,
    if_pos hlistener, gridAssert_pos hsome, Site.call_ok, pure_eq_ok, hconn, gridAssert_pos hfsm]
  simp only [raise, returnListener, setConn_events, raiseEvent_ok hnew, Site.call_ok, ok_bind,
    pure_eq_ok, howner, Option.getD_some]
  simp only [setConn]
  congr 2
  funext k
  split <;> rfl

/-- The usock of the connection being accepted has stopped, and the connection gives the
listening usock back. -/
theorem usockStopped_fares (h : s.Inv) (hp : s.UsockStopped a) (hen : s.Enabled l) :
    Fares T s l := by
  obtain ⟨os, rfl⟩ := only_deliver hp.events (by simp) hen
  obtain ⟨c, hc, hfsm, hstate, hsession, hlistener, howner, hoff, htasks⟩ := hp.child
  let d : Accepted := { c with
    listener := false, listenerOwner := none, state := .idle, fsm := .idle }
  let b : Bound α := { s with events := [] }
  let s' : Bound α := { s.setConn a (some d) with
    owner := .endpoint, events := [.connection a .stopped] }
  have hconn : b.conn a = .ok c := conn_eq hc
  have hstep : s.next T (.deliver os) = .ok s' := by
    simp only [next, deliver, hp.events, feedConn]
    rw [hconn]
    simp only [ok_bind, if_pos hfsm, connShutdown, hstate]
    exact connShutdownStopping_lent (s := b) hc rfl hfsm hoff hlistener howner
  have hcore : Core { s with owner := .endpoint } := h.core.update
  have hmoves : Moves { s with owner := .endpoint, events := [] } s' a d
      [.connection a .stopped] :=
    ⟨⟨s.stat, rfl⟩, id, fun e he => Or.inl (List.mem_singleton.mp he ▸ rfl)⟩
  have ht : Touches { s with owner := .endpoint } s' a c d :=
    hmoves.touches hc (Or.inr ⟨_, rfl, hp.events⟩)
      (Or.inl ⟨rfl, by simp [d, hfsm]⟩)
  refine Or.inl ⟨_, hstep, Leads.ending h hp.fsm (hcore.touches ht) hp.fsm rfl rfl
    (.atcpStopped a ⟨hp.fsm, hp.state, hp.atcp, rfl, hp.retry, ?_, rfl, hp.usock, d, setConn_self _,
      rfl, rfl, ⟨hoff, .of_nil htasks, rfl, hsession⟩, htasks⟩) ?_⟩
  · exact Kids.touches (s := { s with owner := .endpoint }) hp.kids ht fun hmem =>
      absurd hmem (h.core.apart a hp.atcp)
  · have hload := load_touches hcore ht
    have hafter : d.weight = 0 := by
      simp [Accepted.weight, d, hsession.fsm, htasks]
    have hbefore : c.weight = 10 := by
      simp [Accepted.weight, hfsm, hstate, hsession.fsm, htasks]
    have hsame : load { s with owner := .endpoint } = s.load := rfl
    have hlen : s.events.length = 1 := by rw [hp.events]; rfl
    have hlen' : s'.events.length = 1 := rfl
    omega

/-- The worker takes a task of the listening usock that is to wait no more. -/
theorem stoppingAtcp_listenerTask (h : s.Inv) (hp : s.StoppingAtcp a)
    (hen : s.Enabled (.listenerTask : Label α ρ)) : Fares T s (.listenerTask : Label α ρ) := by
  obtain ⟨hempty, -⟩ := hen
  obtain ⟨c, hc, hfsm, hstate, hsession, hlistener, howner, hcancelled⟩ := hp.child
  rcases Listener.runTask_cancelling hp.usock with
    ⟨u, hrun, hcancelling, hlen⟩ | ⟨u, hrun, hlistening, hlen⟩
  · refine Or.inl ⟨{ s with usock := u }, ?_, Leads.ending h hp.fsm h.core.update hp.fsm rfl rfl
      (.stoppingAtcp a ⟨hp.fsm, hp.state, hp.atcp, hp.events, hp.retry, hp.kids, hp.owner,
        hcancelling, hp.nothing, c, hc, hfsm, hstate, hsession, hlistener, howner, hcancelled⟩) ?_⟩
    · simp only [next, listenerTask, hrun, Site.call_ok, ok_bind, Option.map_none, raise?,
        pure_eq_ok]
    · simp only [load]
      omega
  · obtain ⟨v, hdone, hoff, htasks⟩ := AcceptedUsock.actionDone_cancelled hcancelled
    let d : Accepted := { c with usock := v }
    let s' : Bound α := { s.setConn a (some d) with
      usock := u, events := s.events ++ [.usock a .stopped] }
    have hevents : s'.events = [.usock a .stopped] := by simp only [s', hempty]; rfl
    have hnew : (BoundEvent.usock a .stopped).item ∉ s.events.map BoundEvent.item := by
      simp [hempty]
    have hmoves : Moves { s with usock := u } s' a d [.usock a .stopped] :=
      ⟨⟨s.stat, rfl⟩, id,
        fun e he => Or.inl (List.mem_singleton.mp he ▸ rfl)⟩
    have ht : Touches { s with usock := u } s' a c d :=
      hmoves.touches_kept hc (Or.inl ⟨rfl, Iff.rfl⟩)
    have hcore : Core { s with usock := u } := h.core.update
    refine Or.inl ⟨s', ?_, Leads.ending h hp.fsm (hcore.touches ht) hp.fsm rfl rfl
      (.usockStopped a ⟨hp.fsm, hp.state, hp.atcp, hevents, hp.retry, ?_, hp.owner, hlistening, d,
        setConn_self _, hfsm, hstate, hsession, hlistener, howner, hoff, htasks⟩) ?_⟩
    · have hconn : ({ s with usock := u } : Bound α).conn a = .ok c := conn_eq hc
      simp only [next, listenerTask, hrun, Site.call_ok, ok_bind, Option.map_none, raise?, hconn,
        hdone, Option.map_some, raise, setConn_events, raiseEvent_ok hnew, pure_eq_ok]
      rfl
    · exact Kids.touches (s := { s with usock := u }) hp.kids ht fun hmem =>
        absurd hmem (h.core.apart a hp.atcp)
    · have hload := load_touches hcore ht
      have hweight : d.weight = c.weight := by
        simp [Accepted.weight, d, htasks, hcancelled.tasks]
      have hlen' : s'.events.length = 1 := by rw [hevents]; rfl
      simp only [load, hempty, List.length_nil] at hload ⊢
      omega

/-- What can happen while the listening usock is on. -/
theorem label_split (hcreated : s.created = true) (hquiet : s.retry.timer.Quiet)
    (hen : s.Enabled l) :
    (∃ os, l = .stop os ∧ s.events = []) ∨ (∃ os, l = .deliver os) ∨
      (∃ option, l = .setopt option) ∨ l = .listenerTask ∨ (∃ answer, l = .listenerIn answer) ∨
        ∃ i, l.conn? = some i := by
  cases l with
  | create os => exact absurd (hcreated.symm.trans hen.1) (by simp)
  | stop os => exact Or.inl ⟨os, rfl, hen.2⟩
  | deliver os => exact Or.inr (Or.inl ⟨os, rfl⟩)
  | setopt option => exact Or.inr (Or.inr (Or.inl ⟨option, rfl⟩))
  | retry w => exact absurd hen.2 (Backoff.not_ready_of_quiet hquiet w)
  | listenerTask => exact Or.inr (Or.inr (Or.inr (Or.inl rfl)))
  | listenerIn answer => exact Or.inr (Or.inr (Or.inr (Or.inr (Or.inl ⟨answer, rfl⟩))))
  | connWork i w => exact Or.inr (Or.inr (Or.inr (Or.inr (Or.inr ⟨i, rfl⟩))))
  | session i u => exact Or.inr (Or.inr (Or.inr (Or.inr (Or.inr ⟨i, rfl⟩))))
  | sessionError i => exact Or.inr (Or.inr (Or.inr (Or.inr (Or.inr ⟨i, rfl⟩))))
  | sessionStopped i => exact Or.inr (Or.inr (Or.inr (Or.inr (Or.inr ⟨i, rfl⟩))))
  | inner i => exact Or.inr (Or.inr (Or.inr (Or.inr (Or.inr ⟨i, rfl⟩))))

/-- The endpoint waits until the connection being accepted has stopped. -/
theorem shutdownAtcp_busy (os : ListenAnswers ρ) (hatcp : s.atcp = some a)
    (hc : s.conns a = some c) (hfsm : c.fsm = .stopping) : s.shutdownAtcp os = .ok s := by
  have hbusy : s.connIsIdle a c = false := by simp [connIsIdle, hfsm]
  simp only [shutdownAtcp, hatcp, conn_eq hc, ok_bind, if_pos hbusy, pure_eq_ok]

/-- An event that is not about the connection being accepted is taken out of the queue. -/
theorem StoppingAtcp.pop (h : s.StoppingAtcp a) (hevents : s.events = e :: rest)
    (he : e.conn? ≠ some a) (hkids : Kids Accepted.Runs { s with events := rest }) :
    StoppingAtcp { s with events := rest } a := by
  have hnothing := h.nothing
  rw [hevents, about_cons_ne he] at hnothing
  exact ⟨h.fsm, h.state, h.atcp, h.events.inner hevents, h.retry, hkids, h.owner, h.usock,
    hnothing, h.child⟩

/-- A connection that has ended is left alone until the one being accepted has stopped. -/
theorem stoppingAtcp_connection {x : AcceptedEvent} (h : s.Inv) (hp : s.StoppingAtcp a)
    (hi : i ∈ s.atcps) (hevents : s.events = .connection i x :: rest) :
    Fares T s (.deliver os) := by
  have hia : i ≠ a := by
    rintro rfl
    exact h.core.apart i hp.atcp hi
  obtain ⟨c, hc, hruns⟩ := hp.kids i hi
  rw [hevents, about_cons rfl] at hruns
  obtain ⟨-, hnil, hstate, hrests⟩ := hruns.connection
  have hkids : Kids Accepted.Runs { s with events := rest } := by
    intro j hj
    by_cases hji : j = i
    · subst hji
      have hnone : about j ({ s with events := rest } : Bound α).events = [] := hnil
      exact ⟨c, hc, hruns.fsm, Or.inr (Or.inr (Or.inr ⟨hstate, hrests, Or.inl hnone⟩))⟩
    · obtain ⟨d, hd, hruns'⟩ := hp.kids j hj
      have hne : (BoundEvent.connection i x).conn? ≠ some j := fun h => hji (Option.some.inj h).symm
      rw [hevents, about_cons_ne hne] at hruns'
      exact ⟨d, hd, hruns'⟩
  have hne : (BoundEvent.connection i x).conn? ≠ some a := fun h => hia (Option.some.inj h)
  have hpop := hp.pop hevents hne hkids
  obtain ⟨d, hd, hfsm, -⟩ := hpop.child
  refine Or.inl ⟨_, ?_, Leads.ending h hp.fsm (h.core.pop hevents) hp.fsm rfl rfl
    (.stoppingAtcp a hpop) (load_pop hevents)⟩
  simp only [next, deliver, hevents, if_pos hp.fsm]
  rw [shutdown_stoppingAtcp (s := { s with events := rest }) hp.state]
  exact shutdownAtcp_busy os hpop.atcp hd hfsm

theorem stoppingAtcp_deliver (h : s.Inv) (hp : s.StoppingAtcp a)
    (hen : s.Enabled (.deliver os : Label α ρ)) : Fares T s (.deliver os) := by
  obtain ⟨e, rest, hevents⟩ := exists_head hen
  rcases hp.events.head hevents with ⟨i, rfl⟩ | ⟨i, hi⟩
  · have hpop := hp.pop hevents (by simp [BoundEvent.conn?]) (hp.kids.inner hevents)
    exact Or.inl ⟨_, deliver_inner hevents, Leads.ending h hp.fsm (h.core.pop hevents) hp.fsm rfl
      rfl (.stoppingAtcp a hpop) (load_pop hevents)⟩
  · have hia : i ≠ a := by
      rintro rfl
      have hnothing := hp.nothing
      rw [hevents, about_cons hi] at hnothing
      exact absurd hnothing (by simp)
    have hlist : i ∈ s.atcps := by
      rcases (h.core.allocated i).mp (h.core.known e (hevents ▸ List.mem_cons_self) i hi) with
        hlist | hcur
      · exact hlist
      · exact absurd (Option.some.inj (hp.atcp.symm.trans hcur)).symm hia
    by_cases hown : ∃ x, e = .connection i x
    · obtain ⟨x, rfl⟩ := hown
      exact stoppingAtcp_connection h hp hlist hevents
    · obtain ⟨c, hc, hruns⟩ := hp.kids i hlist
      exact fares_feed h hc (Or.inl hruns) hevents hi (fun x hx => hown ⟨x, hx⟩)
        fun s' c' hgoes => .stoppingAtcp a (hp.touches h.core hlist hgoes.touches
          (hgoes.alive.runs (hgoes.fsm.mpr hruns.fsm)))

/-- A connection that arrives is no longer taken. -/
theorem stoppingAtcp_listenerIn {answer : AcceptAnswer} (h : s.Inv) (hp : s.StoppingAtcp a) :
    Fares T s (.listenerIn answer : Label α ρ) := by
  refine Or.inl ⟨s, ?_, h.leads id⟩
  have hnot : ¬(s.usock.usock.fsm ≠ .stopping ∧ s.usock.usock.state = .accepting) := by
    simp [hp.usock.state]
  simp only [next, listenerIn, Listener.fdIn_cancelling hp.usock, Site.call_ok, ok_bind,
    if_neg hnot, List.append_nil, pure_eq_ok]

theorem stoppingAtcp_fares (h : s.Inv) (hp : s.StoppingAtcp a) (hen : s.Enabled l) :
    Fares T s l := by
  have hcreated := h.created (by simp [hp.fsm])
  rcases label_split hcreated hp.retry hen with
    ⟨os, rfl, -⟩ | ⟨os, rfl⟩ | ⟨option, rfl⟩ | rfl | ⟨answer, rfl⟩ | ⟨i, hl⟩
  · exact fares_stop_again h (by simp [hp.fsm])
  · exact stoppingAtcp_deliver h hp hen
  · exact setopt_fares h option
  · exact stoppingAtcp_listenerTask h hp hen
  · exact stoppingAtcp_listenerIn h hp
  · obtain ⟨d, hd⟩ := allocated_of_enabled hl hen
    rcases (h.core.allocated i).mp (by simp [hd]) with hlist | hcur
    · obtain ⟨c, hc, hruns⟩ := hp.kids i hlist
      exact fares_label h hc (Or.inl hruns) hl hen fun s' c' hgoes => .stoppingAtcp a
        (hp.touches h.core hlist hgoes.touches (hgoes.alive.runs (hgoes.fsm.mpr hruns.fsm)))
    · obtain rfl : a = i := Option.some.inj (hp.atcp.symm.trans hcur)
      obtain ⟨c, hc, -, -, hsession, -, -, hcancelled⟩ := hp.child
      exact absurd hen (not_enabled_of_idle hc hsession
        (fun _ => ⟨hcancelled.tasks, hcancelled.fd⟩) hl)

/-! ## While the endpoint listens -/

/-- What `a` is doing is seen from the endpoint, its own events and the listening usock. -/
theorem Active.same (h : s.Active a) (hfsm : s'.fsm = s.fsm) (hstate : s'.state = s.state)
    (hatcp : s'.atcp = s.atcp) (hlocal : s'.Local) (hretry : s'.retry = s.retry)
    (hkids : s'.Kids Accepted.Tended) (hconn : s'.conns a = s.conns a)
    (howner : s'.owner = s.owner) (husock : s'.usock = s.usock) (hgiven : s'.given = s.given)
    (hq : about a s'.events = about a s.events) : s'.Active a := by
  obtain ⟨c, hc, hactive, hchild⟩ := h.child
  refine ⟨hfsm.trans h.fsm, hstate.trans h.state, hatcp.trans h.atcp, hlocal, hretry ▸ h.retry,
    hkids, c, hconn.trans hc, hactive, ?_⟩
  rcases hchild with hawaits | hserved
  · left
    refine ⟨hawaits.state, hawaits.session, hawaits.listener, hawaits.listenerOwner,
      howner.trans hawaits.owner, ?_⟩
    have hstage := hawaits.stage
    simp only [Stage, ← husock, ← hgiven, ← hq] at hstage
    exact hstage
  · right
    refine ⟨hserved.state, howner.trans hserved.owner, husock ▸ hserved.usock,
      (congrArg Listener.asock husock).trans hserved.asock, ?_⟩
    rw [hq]
    exact hserved.serves

theorem handler_active (h : s.state = .active) (x : AcceptedEvent) :
    s.handler T os (.connection i x) = s.handlerActive os i x := by
  unfold handler
  rw [h]

/-- The endpoint stops a connection that has ended. -/
theorem active_error (h : s.Inv) (hp : s.Active a) (hi : i ∈ s.atcps) (hc : s.conns i = some c)
    (hevents : s.events = .connection i .error :: rest) (hnil : about i rest = [])
    (hfsm : c.fsm = .active) (hrests : c.Rests) : Fares T s (.deliver os) := by
  have hne : s.atcp ≠ some i := fun hcur => h.core.apart i hcur hi
  obtain ⟨s', c', new, hcall, hmoves, hstopped, -⟩ :=
    stopConn_rests os (s := { s with events := rest }) hc hnil hfsm hrests
  have ht : Touches s s' i c c' := Moves.touches hmoves hc (Or.inr ⟨_, rfl, hevents⟩)
    (Or.inr ⟨rfl, hfsm, by simp [hstopped.fsm]⟩)
  have hq : about i s'.events = about i new := by
    rw [hmoves.about_self]
    exact congrArg (· ++ about i new) hnil
  have hnot : s.fsm ≠ .stopping := by simp [hp.fsm]
  refine Or.inl ⟨s', ?_, .of_active hp.fsm (h.of_touches ht (.active a
    (hp.touches h.core hi ht (Or.inr ?_))))⟩
  · simp only [next, deliver, hevents, if_neg hnot]
    rw [handler_active (s := { s with events := rest }) hp.state]
    exact (if_neg hne).trans hcall
  · rw [hq]
    exact hstopped

/-- The endpoint hears that a connection on the list has stopped. -/
theorem next_stopped (os : ListenAnswers ρ) (hfsm : s.fsm = .active) (hstate : s.state = .active)
    (hne : s.atcp ≠ some i) (hevents : s.events = .connection i .stopped :: rest) :
    s.next T (.deliver os) = Bound.release { s with events := rest } os i := by
  have hnot : s.fsm ≠ .stopping := by simp [hfsm]
  simp only [next, deliver, hevents, if_neg hnot]
  rw [handler_active (s := { s with events := rest }) hstate]
  exact if_neg hne

/-- It terminates and frees a connection that has stopped. -/
theorem active_stopped (h : s.Inv) (hp : s.Active a) (hi : i ∈ s.atcps) (hc : s.conns i = some c)
    (hevents : s.events = .connection i .stopped :: rest)
    (hstopped : c.Stopped i (about i s.events)) : Fares T s (.deliver os) := by
  have hne : s.atcp ≠ some i := fun hcur => h.core.apart i hcur hi
  have hia : a ≠ i := by
    rintro rfl
    exact hne hp.atcp
  have hstep := next_stopped (T := T) os hp.fsm hp.state hne hevents
  rw [release_deliver h.core hi hc hevents hstopped] at hstep
  by_cases hleft : c.usock.left os.cancelled = []
  · rw [if_pos hleft] at hstep
    have hcore := h.core.releases (released_spec h.core hi hc hevents hstopped)
    have hq : about a (s.released i rest).events = about a s.events := by
      have hother : (BoundEvent.connection i .stopped).conn? ≠ some a :=
        fun heq => hia (Option.some.inj heq).symm
      rw [hevents, about_cons_ne hother]
      rfl
    have hlocal : (s.released i rest).Local := fun e he =>
      hp.events e (hevents ▸ List.mem_cons_of_mem _ he)
    exact Or.inl ⟨_, hstep, .phase h hp.fsm hcore hp.fsm rfl rfl (.active a
      (hp.same rfl rfl rfl hlocal rfl (hp.kids.released h.core hevents) (setConn_other none hia) rfl rfl
        rfl hq))⟩
  · rw [if_neg hleft] at hstep
    exact Or.inr ⟨_, hstep, .term ⟨i, c, rest, hevents, hc, hleft⟩⟩

/-- An event of a connection on the list is handed out. -/
theorem active_kid (h : s.Inv) (hp : s.Active a) (hi : i ∈ s.atcps)
    (hevents : s.events = e :: rest) (he : e.conn? = some i) : Fares T s (.deliver os) := by
  obtain ⟨c, hc, htended⟩ := hp.kids i hi
  by_cases hown : ∃ x, e = .connection i x
  · obtain ⟨x, rfl⟩ := hown
    rcases htended with hruns | hstopped
    · rw [hevents, about_cons rfl] at hruns
      obtain ⟨rfl, hnil, -, hrests⟩ := hruns.connection
      exact active_error h hp hi hc hevents hnil hruns.fsm hrests
    · have hqueue := hstopped.queue
      rw [hevents, about_cons rfl] at hqueue
      obtain ⟨hx, -⟩ := List.cons_eq_cons.mp hqueue
      cases hx
      exact active_stopped h hp hi hc hevents hstopped
  · rcases htended with hruns | hstopped
    · exact fares_feed h hc (Or.inl hruns) hevents he (fun x hx => hown ⟨x, hx⟩)
        fun s' c' hgoes => .active a (hp.touches h.core hi hgoes.touches
          (Or.inl (hgoes.alive.runs (hgoes.fsm.mpr hruns.fsm))))
    · have hqueue := hstopped.queue
      rw [hevents, about_cons he] at hqueue
      exact absurd ⟨_, (List.cons_eq_cons.mp hqueue).1⟩ hown

theorem active_deliver (h : s.Inv) (hp : s.Active a)
    (hen : s.Enabled (.deliver os : Label α ρ)) : Fares T s (.deliver os) := by
  obtain ⟨e, rest, hevents⟩ := exists_head hen
  rcases hp.events.head hevents with ⟨i, rfl⟩ | ⟨i, hi⟩
  · have hq : about a ({ s with events := rest } : Bound α).events = about a s.events := by
      rw [hevents, about_cons_ne (by simp [BoundEvent.conn?])]
    exact Or.inl ⟨_, deliver_inner hevents, .phase h hp.fsm (h.core.pop hevents) hp.fsm rfl rfl
      (.active a (hp.same rfl rfl rfl (hp.events.inner hevents) rfl (hp.kids.inner hevents) rfl
        rfl rfl rfl hq))⟩
  · rcases (h.core.allocated i).mp (h.core.known e (hevents ▸ List.mem_cons_self) i hi) with
      hlist | hcur
    · exact active_kid h hp hlist hevents hi
    · obtain rfl : a = i := Option.some.inj (hp.atcp.symm.trans hcur)
      have hqueue : about a s.events = e :: about a rest := by rw [hevents, about_cons hi]
      obtain ⟨c, hc, hfsm, hawaits | hserved⟩ := hp.child
      · rcases hawaits.stage with ⟨-, -, hq, -⟩ | ⟨hpending, hfailed, hq, hgiven⟩ |
          ⟨htaken, hlistening, hasock, hq⟩
        · exact absurd (hqueue.symm.trans hq) (by simp)
        · obtain ⟨rfl, -⟩ := List.cons_eq_cons.mp (hqueue.symm.trans hq)
          exact active_acceptError h hp hc hfsm hawaits hevents hpending hfailed hgiven hq
        · obtain ⟨rfl, -⟩ := List.cons_eq_cons.mp (hqueue.symm.trans hq)
          exact active_accepted h hp hc hfsm hawaits hevents htaken hlistening hasock hq
      · obtain ⟨q, hq, -⟩ := hserved.serves
        obtain ⟨rfl, -⟩ := List.cons_eq_cons.mp (hqueue.symm.trans hq)
        exact active_next h hp hc hfsm hserved hevents

/-- `grid_atcp_stop` for the connection being accepted: both usocks are told. -/
theorem stopConn_pending (os : ListenAnswers ρ) (hc : s.conns a = some c)
    (hq : about a s.events = []) (hfsm : c.fsm = .active) (hsession : c.session.Idle)
    (hpending : c.usock.Pending) (hwaiting : s.usock.Waiting a) :
    ∃ s' u l, s.stopConn os a = .ok s' ∧
      Moves { s with usock := l, stops := s.stops ++ [a] } s' a
        { c with fsm := .stopping, state := .stopping, usock := u } [] ∧
      u.Cancelled ∧ l.Cancelling a := by
  obtain ⟨s₁, hmoves, hq₁, heq⟩ := stopConn_idle os hc hq hfsm hsession
  obtain ⟨u, l, hstop, hcancelled, hcancelling⟩ :=
    AcceptedUsock.stop_pending hpending hwaiting
  have hconn := hmoves.conn
  obtain ⟨stat, hs₁⟩ := hmoves.eq
  let d : Accepted := { c with fsm := .stopping, state := .stoppingSessionFinal }
  let d' : Accepted := { c with fsm := .stopping, state := .stopping, usock := u }
  let s' : Bound α := { s₁.setConn a (some d') with usock := l }
  have husock : s₁.usock = s.usock := by
    have hfield := congrArg Bound.usock hs₁
    exact hfield
  have hbusy : s'.usockIsIdle a d' = false := by
    simp [usockIsIdle, Usock.isIdle, d', hcancelled.fsm]
  have hwait : s'.connShutdownStopping a = .ok s' := by
    simp only [connShutdownStopping, conn_eq (show s'.conns a = some d' from setConn_self _),
      ok_bind, if_pos hbusy, pure_eq_ok]
  have hcall : s₁.stopUsock a = .ok { s₁.setConn a (some { d with usock := u }) with
      usock := l } := by
    have hboth : d.usock.stop s₁.usock = .ok (u, l, none) := by rw [husock]; exact hstop
    simp only [stopUsock, conn_eq hconn, ok_bind]
    rw [hboth]
    rfl
  refine ⟨s', u, l, ?_, ⟨⟨stat, ?_⟩, ?_, by simp⟩, hcancelled, hcancelling⟩
  · have hidle : ¬(s₁.sessionIsIdle a d = false) := by
      have hnone : s₁.sessionIsIdle a d = true := sessionIsIdle_of_idle (c := d) hsession hq₁
      simp [hnone]
    have hafter : ({ s₁.setConn a (some { d with usock := u }) with usock := l } :
        Bound α).conn a = .ok { d with usock := u } := conn_eq (setConn_self _)
    rw [heq, connShutdownSession, conn_eq hconn]
    simp only [ok_bind]
    rw [if_neg hidle, hcall]
    simp only [ok_bind]
    rw [hafter]
    refine (ok_bind _ _).trans (Eq.trans ?_ hwait)
    congr 1
    simp only [s', setConn]
    congr 1
    funext k
    split <;> rfl
  · simp only [s', hs₁, setConn]
    congr 1
    funext k
    split <;> rfl
  · intro hcounts
    exact hmoves.counts hcounts

theorem stopRetry_quiet (h : s.retry.timer.Quiet) : s.stopRetry = .ok s := by
  have hactive : s.retry.timer.fsm ≠ .active := by simp [h.1]
  simp only [stopRetry, Backoff.stop_of_not_active hactive, Site.call_ok, ok_bind, pure_eq_ok]

/-- An endpoint that listens is asked to stop. -/
theorem active_stop (h : s.Inv) (hp : s.Active a) (hempty : s.events = []) :
    Fares T s (.stop os) := by
  obtain ⟨hcreated, hreports⟩ := h.created_active hp.fsm
  obtain ⟨c, hc, hfsm, hchild⟩ := hp.child
  have hnil : about a s.events = [] := by rw [hempty]; rfl
  obtain ⟨hawaits, hpending, hwaiting⟩ :
      s.Awaits a c ∧ c.usock.Pending ∧ s.usock.Waiting a := by
    rcases hchild with hawaits | hserved
    · rcases hawaits.stage with ⟨hpending, hwaiting, -⟩ | ⟨-, -, hq, -⟩ | ⟨-, -, -, hq⟩
      · exact ⟨hawaits, hpending, hwaiting⟩
      · exact absurd (hnil.symm.trans hq) (by simp)
      · exact absurd (hnil.symm.trans hq) (by simp)
    · obtain ⟨q, hq, -⟩ := hserved.serves
      exact absurd (hnil.symm.trans hq) (by simp)
  let b : Bound α := { s with fsm := .stopping }
  obtain ⟨s', u, l, hcall, hmoves, hcancelled, hcancelling⟩ :=
    stopConn_pending os (s := b) hc hnil hfsm hawaits.session hpending hwaiting
  let d : Accepted := { c with fsm := .stopping, state := .stopping, usock := u }
  have ht : Touches { b with usock := l } s' a c d :=
    hmoves.touches_kept hc (Or.inr ⟨rfl, hfsm, by simp [d]⟩)
  have hcore : Core { b with usock := l } := h.core.update
  have hcore' := hcore.touches ht
  have hnothing : about a s'.events = [] := by
    rw [hmoves.about_self]
    exact congrArg (· ++ about a []) hnil
  have hruns : Kids Accepted.Runs { b with usock := l } := by
    intro i hi
    obtain ⟨x, hx, hruns | hstopped⟩ := hp.kids i hi
    · exact ⟨x, hx, hruns⟩
    · have hqueue := hstopped.queue
      rw [hempty] at hqueue
      exact absurd hqueue (by simp)
  have hkids := hruns.touches ht fun hmem => absurd hmem (h.core.apart a hp.atcp)
  have hlocal := Local.touches (s := { b with usock := l }) hp.events ht
  have hconn := ht.conn
  have hwait : Bound.shutdownAtcp { s' with state := .stoppingAtcp } os =
      .ok { s' with state := .stoppingAtcp } := by
    obtain ⟨stat, events, stops, rfl⟩ := ht.eq
    exact shutdownAtcp_busy os hp.atcp hconn rfl
  have hstep : s.next T (.stop os) = .ok { s' with state := .stoppingAtcp } := by
    simp only [next, Bound.stop, if_pos hp.fsm]
    rw [stopRetry_quiet (s := b) hp.retry]
    simp only [ok_bind, show b.atcp = some a from hp.atcp, hcall]
    exact hwait
  refine Or.inl ⟨_, hstep, ?_⟩
  obtain ⟨stat, events, stops, rfl⟩ := ht.eq
  refine .of_active hp.fsm ⟨hcore'.update, fun _ => hcreated, ?_, .stoppingAtcp a ⟨rfl, rfl, hp.atcp,
    hlocal, hp.retry, hkids, hawaits.owner, hcancelling, hnothing, d, hconn, rfl, rfl,
    hawaits.session, hawaits.listener, hawaits.listenerOwner, hcancelled⟩⟩
  have hnot : ¬(s.created = true ∧ FsmState.stopping = .idle) := by simp
  exact hreports.trans (if_neg hnot).symm

theorem active_fares (h : s.Inv) (hp : s.Active a) (hen : s.Enabled l) : Fares T s l := by
  rcases label_split (h.created_active hp.fsm).1 hp.retry hen with
    ⟨os, rfl, hempty⟩ | ⟨os, rfl⟩ | ⟨option, rfl⟩ | rfl | ⟨answer, rfl⟩ | ⟨i, hl⟩
  · exact active_stop h hp hempty
  · exact active_deliver h hp hen
  · exact setopt_fares h option
  · exact active_listenerTask h hp hen
  · exact active_listenerIn h hp hen
  · exact active_label h hp hl hen

/-! ## Runs -/

/-- Every step of an endpoint goes well, but for the reasons that were named. -/
theorem fares (h : s.Inv) (hen : s.Enabled l) : Fares T s l := by
  cases h.phase with
  | new hp => exact new_fares h hp hen
  | waiting q hp => exact waiting_fares h hp hen
  | closing hp => exact closing_fares h hp hen
  | stoppingBackoff q hp => exact stoppingBackoff_fares h hp hen
  | active a hp => exact active_fares h hp hen
  | stoppingAtcp a hp => exact stoppingAtcp_fares h hp hen
  | usockStopped a hp => exact usockStopped_fares h hp hen
  | atcpStopped a hp => exact atcpStopped_fares h hp hen
  | stoppingUsock hp => exact stoppingUsock_fares h hp hen
  | stoppingRetry q hp => exact stoppingRetry_fares h hp hen
  | stoppingAtcps hp => exact stoppingAtcps_fares h hp hen
  | finished hp => exact finished_fares h hp hen

theorem init_inv {minivl maxivl : Int} (h : (system T minivl maxivl).init s) : s.Inv := by
  obtain ⟨option, rfl⟩ := h
  have hcore : Core ({ option := option, retry := { minivl := minivl, maxivl := maxivl } } :
      Bound α) :=
    ⟨by simp, by simp, by simp, by simp, EpStat.counts_default, by simp, by simp, by simp, rfl,
      by simp⟩
  have husock : Usock.Off {} := ⟨rfl, rfl, rfl, by simp, by simp, by simp⟩
  exact ⟨hcore, by simp, rfl, .new ⟨rfl, rfl, rfl, rfl, ⟨rfl, rfl⟩, ⟨⟨husock, rfl, rfl⟩, rfl⟩, rfl,
    ⟨rfl, rfl, rfl, rfl⟩⟩⟩

/-- What a step leads to that has been taken. -/
theorem leads_of_step {minivl maxivl : Int} (h : s.Inv)
    (hstep : (system T minivl maxivl).step s l s') :
    Leads s l s' := by
  obtain ⟨hen, hnext⟩ := hstep
  rcases fares (T := T) h hen with ⟨s'', hs'', hleads⟩ | ⟨e, he, -⟩
  · obtain rfl : s'' = s' := Except.ok.inj (hs''.symm.trans hnext)
    exact hleads
  · exact absurd (he.symm.trans hnext) (by simp)

/-- The invariant holds in every state that is reached. -/
theorem inv_of_reachable {minivl maxivl : Int} (h : (system T minivl maxivl).Reachable s) :
    s.Inv :=
  h.invariant (P := Inv) (fun _ hinit => init_inv hinit) fun _ _ _ _ hinv hstep =>
    (leads_of_step hinv hstep).inv

end Bound

end GridMq.Transports
