import GridMq.Transports.BoundActive

set_option autoImplicit false

/-!
# A bound endpoint that does not listen

What each step makes of an endpoint before it listens, while it waits to try again, and once
it was asked to stop.
-/

namespace GridMq.Transports

open GridMq.Aio GridMq.Library

namespace Accepted

variable {c : Accepted} {i : Nat} {x : AcceptedEvent} {q : List BoundEvent}

/-- What a connection that was asked to stop reports. -/
theorem Ends.connection (h : c.Ends i (.connection i x :: q)) :
    x = .stopped ∧ c.Stopped i (.connection i x :: q) := by
  rcases h with ⟨-, ⟨-, hleaves⟩ | ⟨-, hleaves⟩⟩ | hstopped
  · rcases hleaves.ends with ⟨-, hq⟩ | ⟨-, hq⟩ <;> exact absurd hq (by simp)
  · rcases hleaves.ends with ⟨-, hq | hq⟩ | ⟨-, hq⟩ <;> exact absurd hq (by simp)
  · have hq := hstopped.queue
    obtain ⟨hx, -⟩ := List.cons_eq_cons.mp hq
    cases hx
    exact ⟨rfl, hstopped⟩

/-- What one that was not reports. -/
theorem Runs.connection (h : c.Runs i (.connection i x :: q)) :
    x = .error ∧ q = [] ∧ c.state = .done ∧ c.Rests := by
  rcases h with ⟨-, ⟨-, hserves⟩ | ⟨-, hleaves⟩ | ⟨-, hleaves⟩ | ⟨hstate, hrests, hq⟩⟩
  · rcases hserves.report with ⟨-, hq⟩ | ⟨-, hq⟩ <;> exact absurd hq (by simp)
  · rcases hleaves.ends with ⟨-, hq⟩ | ⟨-, hq⟩ <;> exact absurd hq (by simp)
  · rcases hleaves.ends with ⟨-, hq | hq⟩ | ⟨-, hq⟩ <;> exact absurd hq (by simp)
  · rcases hq with hq | hq
    · exact absurd hq (by simp)
    · obtain ⟨hx, hnil⟩ := List.cons_eq_cons.mp hq
      cases hx
      exact ⟨rfl, hnil, hstate, hrests⟩

end Accepted

namespace Bound

variable {α ρ : Type} {s s' : Bound α} {c c' : Accepted} {i a : Nat} {e : BoundEvent}
  {rest : List BoundEvent} {T : ListenTransport α ρ} {os : ListenAnswers ρ} {l : Label α ρ}

/-! ## What is idle -/

/-- A listening usock that is off is idle unless it has just stopped. -/
theorem Deaf.listenerIsIdle (h : s.Deaf) (hfree : ∀ o, .listener o .stopped ∉ s.events) :
    s.listenerIsIdle = true := by
  have hnone : s.listenerStopped = false := by
    rw [listenerStopped, List.any_eq_false]
    intro e he hitem
    cases e with
    | listener o x =>
        cases x <;> simp [BoundEvent.item, Usock.item] at hitem
        exact hfree o he
    | _ => simp [BoundEvent.item] at hitem
  rw [Bound.listenerIsIdle, hnone, h.usock.usock.isIdle]
  rfl

theorem retryIsIdle_of_quiet (h : s.retry.timer.Quiet) (hfree : .retry .stopped ∉ s.events) :
    s.retryIsIdle = true := by
  simp [retryIsIdle, Backoff.isIdle_quiet h, hfree]

theorem retryIsIdle_of_stopping (h : s.retry.timer.Stopping) : s.retryIsIdle = false :=
  Backoff.isIdle_of_stopping h _

/-- What can happen while there are neither connections nor a usock that listens. -/
theorem label_cases (h : s.Core) (halone : s.Alone) (hdeaf : s.Deaf) (hcreated : s.created = true)
    (hen : s.Enabled l) :
    (∃ os, l = .stop os ∧ s.events = []) ∨ (∃ os, l = .deliver os) ∨
      (∃ option, l = .setopt option) ∨ ∃ w, l = .retry w ∧ s.events = [] ∧ s.retry.Ready w := by
  cases l with
  | create os => exact absurd (hcreated.symm.trans hen.1) (by simp)
  | stop os => exact Or.inl ⟨os, rfl, hen.2⟩
  | deliver os => exact Or.inr (Or.inl ⟨os, rfl⟩)
  | setopt option => exact Or.inr (Or.inr (Or.inl ⟨option, rfl⟩))
  | retry w => exact Or.inr (Or.inr (Or.inr ⟨w, rfl, hen.1, hen.2⟩))
  | listenerTask => exact absurd hdeaf.usock.tasks hen.2
  | listenerIn answer => exact absurd (hdeaf.usock.pollIn.symm.trans hen.2) (by simp)
  | connWork i w | session i u | sessionError i | sessionStopped i | inner i =>
      exact absurd hen (not_enabled_of_alone h halone rfl)

/-! ## Attempts to listen -/

/-- An attempt to listen leads on, whichever way it ends. -/
theorem Listens.inv (h : Listens s s') (hcreated : s.created = true) (hreports : s.reports = 0) :
    Inv { s' with fsm := .active } := by
  refine ⟨h.core.update, fun _ => h.created.trans hcreated, ?_, h.phase⟩
  have hnot : ¬(s'.created = true ∧ FsmState.active = .idle) := by simp
  exact (h.reports.trans hreports).trans (if_neg hnot).symm

/-- The endpoint begins to listen in a step, as `b`. -/
theorem fares_listening {b : Bound α} (hl : l.listen? = some os)
    (hunforeseen : os.accept = .error .other → ¬l.Foreseen) (hcore : b.Core) (hr : b.Resting)
    (hcreated : b.created = true) (hreports : b.reports = 0) (hoption : b.option = s.option)
    (hretry : b.retry = s.retry)
    (hok : ∀ s', b.startListening T os = .ok s' → Listens b s' →
      s.next T l = .ok { s' with fsm := .active })
    (herror : ∀ x, b.startListening T os = .error x → s.next T l = .error x)
    (hstays : s.created = true → s.fsm = .active) (hpending : s.fsm ≠ .stopping) :
    Fares T s l := by
  rcases startListening_spec (T := T) os hcore hr with
    ⟨s', hs', hlistens⟩ | ⟨x, hx, hs'⟩ | ⟨x, hx, hs'⟩ | ⟨hx, x, hs'⟩ | ⟨hother, hs'⟩
  · exact Or.inl ⟨_, hok s' hs' hlistens, hlistens.inv hcreated hreports,
      fun hc hne => absurd (hstays hc) hne, fun hstopping _ => absurd hstopping hpending⟩
  · exact Or.inr ⟨_, herror _ hs', .address os hl hpending (hoption ▸ hx)⟩
  · exact Or.inr ⟨_, herror _ hs', .prepare os hl hpending hx⟩
  · exact Or.inr ⟨_, herror _ hs', .retry os hl hpending (hretry ▸ hx)⟩
  · exact Or.inr ⟨_, herror _ hs', .accept hpending (hunforeseen hother)⟩

/-- The endpoint is created. -/
theorem new_create (h : s.Inv) (hp : s.New) : Fares T s (.create os) := by
  by_cases haccepts : T.accepts s.option = true
  · have hreports : s.reports = 0 := by
      rw [h.reports, hp.created]
      rfl
    have hstep : s.next T (.create os) = (do
        let s' ← startListening T { s with created := true } os
        return { s' with fsm := .active }) := by
      simp only [next, create, if_pos haccepts, gridAssert_pos hp.fsm, Site.call_ok, ok_bind]
      rw [hp.state]
    refine fares_listening (b := { s with created := true }) rfl (fun hother hforeseen =>
      hforeseen hother) h.core.update ⟨hp.events, { hp.alone with }, { hp.deaf with }, hp.asock,
        hp.retry⟩ rfl hreports rfl rfl ?_ ?_ ?_ (by simp [hp.fsm])
    · intro s' hs' _
      rw [hstep, hs']
      rfl
    · intro x hx
      rw [hstep, hx]
      rfl
    · intro hcreated
      exact absurd (hp.created.symm.trans hcreated) (by simp)
  · refine Or.inl ⟨s, ?_, h.leads id⟩
    simp only [next, create, if_neg haccepts]

theorem handler_stoppingBackoff (h : s.state = .stoppingBackoff) :
    s.handler T os (.retry .stopped) = s.startListening T os := by
  unfold handler
  rw [h]

/-- The timer has stopped, and the endpoint tries again. -/
theorem stoppingBackoff_deliver {q : List TimerEvent} (h : s.Inv) (hp : s.StoppingBackoff q)
    (hen : s.Enabled (.deliver os : Label α ρ)) : Fares T s (.deliver os) := by
  obtain ⟨hcreated, hreports⟩ := h.created_active hp.fsm
  obtain ⟨hquiet, hq⟩ : s.retry.timer.Quiet ∧ q = [.stopped] := by
    cases q with
    | nil => exact absurd hp.events hen
    | cons e q =>
        obtain rfl := hp.clean e List.mem_cons_self
        obtain ⟨hquiet, rfl⟩ := hp.retry.of_last
        exact ⟨hquiet, rfl⟩
  have hevents : s.events = [.retry .stopped] := by rw [hp.events, hq]; rfl
  have hnot : s.fsm ≠ .stopping := by simp [hp.fsm]
  have hstep : s.next T (.deliver os) = startListening T { s with events := [] } os := by
    simp only [next, deliver, hevents, if_neg hnot]
    exact handler_stoppingBackoff hp.state
  refine fares_listening (b := { s with events := [] }) rfl (fun hother hforeseen =>
    hforeseen hother) (h.core.pop hevents) ⟨rfl, { hp.alone with }, { hp.deaf with }, hp.asock,
      hquiet⟩ hcreated hreports rfl rfl ?_ ?_ (fun _ => hp.fsm) hnot
  · intro s' hs' hlistens
    have hsame : ({ s' with fsm := .active } : Bound α) = s' := by
      rw [← hp.fsm, ← show s'.fsm = s.fsm from hlistens.fsm]
    rw [hsame]
    exact hstep.trans hs'
  · intro x hx
    exact hstep.trans hx

/-! ## Waiting to try again -/

/-- A step of an endpoint that was not asked to stop. -/
theorem Leads.phase (h : s.Inv) (hfsm : s.fsm = .active) (hcore : s'.Core)
    (hfsm' : s'.fsm = .active) (hcreated : s'.created = s.created)
    (hreports : s'.reports = s.reports) (hphase : s'.Phase) : Leads s l s' := by
  obtain ⟨hcreated', hreports'⟩ := h.created_active hfsm
  refine .of_active hfsm ⟨hcore, fun _ => hcreated.trans hcreated', ?_, hphase⟩
  have hnot : ¬(s'.created = true ∧ s'.fsm = .idle) := by simp [hfsm']
  exact (hreports.trans hreports').trans (if_neg hnot).symm

/-- The events of the timer are about no connection. -/
theorem Core.timed (h : s.Core) (q : List TimerEvent) : Core { s with events := q.map .retry } := by
  refine h.queue fun e he hconn => ?_
  obtain ⟨x, -, rfl⟩ := List.mem_map.mp he
  exact absurd rfl hconn

/-- The timer runs, and nothing else. -/
theorem retry_step {w : Backoff.Work} {b : Backoff} {x : Option TimerEvent}
    (hempty : s.events = []) (hwork : s.retry.work w = .ok (b, x)) :
    s.next T (.retry w) = .ok { s with retry := b, events := x.toList.map .retry } := by
  simp only [next, hwork, Site.call_ok, ok_bind]
  cases x with
  | none => simp only [Option.map_none, raise?, Option.toList_none, List.map_nil, hempty]
  | some x =>
      simp only [Option.map_some, raise?, raise, hempty]
      rfl

/-- A stop finds only the timer running. -/
theorem stop_alone {b : Backoff} (hfsm : s.fsm = .active)
    (halone : s.Alone) (hstop : s.retry.stop = .ok b) (hb : b.timer.Stopping) :
    s.stop os = .ok { s with fsm := .stopping, state := .stoppingUsock, retry := b } := by
  have hbusy : ({ s with fsm := .stopping, state := .stoppingUsock, retry := b } :
      Bound α).listenerIsIdle = false ∨ ({ s with
        fsm := .stopping, state := .stoppingUsock, retry := b } : Bound α).retryIsIdle = false :=
    Or.inr (retryIsIdle_of_stopping hb)
  simp only [stop, if_pos hfsm, stopRetry, hstop, Site.call_ok, ok_bind, pure_eq_ok,
    halone.atcp]
  exact if_pos hbusy

/-- An endpoint that waits to try again was asked to stop. -/
theorem fares_stop_alone {b : Backoff} (h : s.Inv) (hfsm : s.fsm = .active)
    (hempty : s.events = []) (halone : s.Alone) (hdeaf : s.Deaf) (hstop : s.retry.stop = .ok b)
    (hb : b.timer.Stopping) : Fares T s (.stop os) := by
  obtain ⟨hcreated, hreports⟩ := h.created_active hfsm
  refine Or.inl ⟨_, stop_alone hfsm halone hstop hb, .of_active hfsm
    ⟨h.core.update, fun _ => hcreated, ?_, .stoppingRetry [] ⟨rfl, rfl, hempty, { halone with },
      { hdeaf with }, .still hb (by simp), by simp⟩⟩⟩
  exact hreports.trans (if_neg (by simp)).symm

theorem waiting_fares {q : List TimerEvent} (h : s.Inv) (hp : s.Waiting q) (hen : s.Enabled l) :
    Fares T s l := by
  rcases label_cases h.core hp.alone hp.deaf (h.created_active hp.fsm).1 hen with
    ⟨os, rfl, hempty⟩ | ⟨os, rfl⟩ | ⟨option, rfl⟩ | ⟨w, rfl, hempty, hready⟩
  · obtain rfl : q = [] := List.map_eq_nil_iff.mp (hp.events.symm.trans hempty)
    obtain ⟨b, hb, hstopping⟩ := Backoff.stop_waiting hp.retry
    exact fares_stop_alone h hp.fsm hempty hp.alone hp.deaf hb hstopping.nil
  · obtain ⟨hrunning, rfl | ⟨rfl, -⟩⟩ := hp.retry
    · exact absurd hp.events hen
    · obtain ⟨b, hb, hstopping⟩ := Backoff.stop_waiting (b := s.retry) (q := [])
        ⟨hrunning, Or.inl rfl⟩
      have hevents : s.events = [.retry .timeout] := hp.events
      have hnot : s.fsm ≠ .stopping := by simp [hp.fsm]
      refine Or.inl ⟨{ s with events := [], retry := b, state := .stoppingBackoff }, ?_,
        .phase h hp.fsm (h.core.pop hevents).update hp.fsm rfl rfl
          (.stoppingBackoff [] ⟨hp.fsm, rfl, rfl,
          { hp.alone with }, { hp.deaf with }, hp.asock, hstopping, by simp⟩)⟩
      simp only [next, deliver, hevents, if_neg hnot]
      unfold handler
      simp only [hp.state, stopRetry, hb, Site.call_ok, ok_bind, pure_eq_ok]
  · exact setopt_fares h option
  · obtain rfl : q = [] := List.map_eq_nil_iff.mp (hp.events.symm.trans hempty)
    obtain ⟨b, x, hwork, hwaiting⟩ := Backoff.work_waiting hp.retry hready
    refine Or.inl ⟨_, retry_step hempty hwork, .phase h hp.fsm ?_ hp.fsm rfl rfl (.waiting x.toList
      ⟨hp.fsm, hp.state, rfl, { hp.alone with }, { hp.deaf with }, hp.asock, hwaiting⟩)⟩
    exact (h.core.timed x.toList).update

theorem closing_fares (h : s.Inv) (hp : s.Closing) (hen : s.Enabled l) : Fares T s l := by
  obtain ⟨os, rfl⟩ := only_deliver hp.events (by simp) hen
  have hnot : s.fsm ≠ .stopping := by simp [hp.fsm]
  have hcore : Core { s with events := [] } := h.core.pop hp.events
  have hstep : s.next T (.deliver os) = (do
      let s' ← startRetry { s with events := [] }
      return { s' with state := .waiting }) := by
    simp only [next, deliver, hp.events, if_neg hnot]
    unfold handler
    rw [hp.state]
  obtain ⟨hcreated, hreports⟩ := h.created_active hp.fsm
  rcases startRetry_spec hcore ⟨rfl, { hp.alone with }, { hp.deaf with }, hp.asock, hp.retry⟩ with
    ⟨s', hs', hlistens⟩ | ⟨htime, x, hx⟩
  · have hinv := hlistens.inv hcreated hreports
    have hfsm' : s'.fsm = .active := hlistens.fsm.trans hp.fsm
    rw [← hfsm'] at hinv
    exact Or.inl ⟨_, by rw [hstep, hs']; rfl, .of_active hp.fsm hinv⟩
  · exact Or.inr ⟨_, by rw [hstep, hx]; rfl, .retry os rfl (by simp [hp.fsm]) htime⟩

theorem stoppingBackoff_fares {q : List TimerEvent} (h : s.Inv) (hp : s.StoppingBackoff q)
    (hen : s.Enabled l) : Fares T s l := by
  rcases label_cases h.core hp.alone hp.deaf (h.created_active hp.fsm).1 hen with
    ⟨os, rfl, hempty⟩ | ⟨os, rfl⟩ | ⟨option, rfl⟩ | ⟨w, rfl, hempty, hready⟩
  · obtain rfl : q = [] := List.map_eq_nil_iff.mp (hp.events.symm.trans hempty)
    have hstopping := hp.retry.nil
    have hactive : s.retry.timer.fsm ≠ .active := by simp [hstopping.1]
    exact fares_stop_alone h hp.fsm hempty hp.alone hp.deaf (Backoff.stop_of_not_active hactive)
      hstopping
  · exact stoppingBackoff_deliver h hp hen
  · exact setopt_fares h option
  · obtain rfl : q = [] := List.map_eq_nil_iff.mp (hp.events.symm.trans hempty)
    obtain ⟨b, x, hwork, hstopping, hx, -⟩ := Backoff.work_stopping hp.retry.nil hready
    refine Or.inl ⟨_, retry_step hempty hwork, .phase h hp.fsm (h.core.timed x.toList).update
      hp.fsm rfl rfl (.stoppingBackoff x.toList ⟨hp.fsm, hp.state, rfl, { hp.alone with },
        { hp.deaf with }, hp.asock, hstopping, ?_⟩)⟩
    rcases hx with rfl | rfl <;> simp

/-! ## Endpoints that were asked to stop -/

/-- Another stop does nothing. -/
theorem fares_stop_again (h : s.Inv) (hfsm : s.fsm ≠ .active) : Fares T s (.stop os) := by
  refine Or.inl ⟨s, ?_, h.leads id⟩
  simp only [next, stop, if_neg hfsm]

/-- A step of an endpoint that was asked to stop. -/
theorem Leads.ending (h : s.Inv) (hfsm : s.fsm = .stopping) (hcore : s'.Core)
    (hfsm' : s'.fsm = .stopping) (hcreated : s'.created = s.created)
    (hreports : s'.reports = s.reports) (hphase : s'.Phase) (hload : s'.load < s.load) :
    Leads s l s' := by
  have hcreated' := h.created (by simp [hfsm])
  have hreports' := h.reports_zero (by simp [hfsm])
  refine ⟨⟨hcore, fun _ => hcreated.trans hcreated', ?_, hphase⟩,
    fun _ _ => ⟨hcreated.trans hcreated', by simp [hfsm']⟩, fun _ _ => hload⟩
  have hnot : ¬(s'.created = true ∧ s'.fsm = .idle) := by simp [hfsm']
  exact (hreports.trans hreports').trans (if_neg hnot).symm

/-- The endpoint reports that it has stopped. -/
theorem Leads.finish (h : s.Inv) (hfsm : s.fsm = .stopping) (hcore : s'.Core)
    (hreports : s'.reports = s.reports + 1) (hp : s'.Finished) (hload : s'.load < s.load) :
    Leads s l s' := by
  have hcreated' := h.created (by simp [hfsm])
  have hreports' := h.reports_zero (by simp [hfsm])
  refine ⟨⟨hcore, fun hne => absurd hp.fsm hne, ?_, .finished hp⟩,
    fun _ _ => ⟨hp.created, by simp [hp.fsm]⟩, fun _ _ => hload⟩
  rw [if_pos ⟨hp.created, hp.fsm⟩, hreports, hreports']

/-- The label `atcps_stopping`, when no connections are left. -/
theorem shutdownEnd_nil (hfsm : s.fsm = .stopping) (hnil : s.atcps = []) :
    s.shutdownEnd = .ok { s with state := .idle, fsm := .idle, reports := s.reports + 1 } := by
  simp only [shutdownEnd, if_pos hnil, gridAssert_pos hfsm, Site.call_ok, ok_bind, pure_eq_ok]

theorem shutdownEnd_cons (hne : s.atcps ≠ []) : s.shutdownEnd = .ok s := if_neg hne

/-- `grid_btcp_shutdown` in the STOPPING_USOCK state, once usock and timer are idle. -/
theorem shutdownUsock_idle (hdeaf : s.Deaf) (hquiet : s.retry.timer.Quiet)
    (hempty : s.events = []) :
    s.shutdownUsock os = (do
      let s' ← s.atcps.foldlM (fun self i => self.stopConn os i) s
      { s' with state := .stoppingAtcps }.shutdownEnd) := by
  have hidle : ¬(s.listenerIsIdle = false ∨ s.retryIsIdle = false) := by
    rw [hdeaf.listenerIsIdle (by simp [hempty]), retryIsIdle_of_quiet hquiet (by simp [hempty])]
    simp
  rw [shutdownUsock, if_neg hidle]

theorem shutdown_stoppingUsock (h : s.state = .stoppingUsock) :
    s.shutdown T os e = s.shutdownUsock os := by
  unfold shutdown
  rw [h]

theorem stoppingRetry_fares {q : List TimerEvent} (h : s.Inv) (hp : s.StoppingRetry q)
    (hen : s.Enabled l) : Fares T s l := by
  have hcreated := h.created (by simp [hp.fsm])
  rcases label_cases h.core hp.alone hp.deaf hcreated hen with
    ⟨os, rfl, -⟩ | ⟨os, rfl⟩ | ⟨option, rfl⟩ | ⟨w, rfl, hempty, hready⟩
  · exact fares_stop_again h (by simp [hp.fsm])
  · obtain ⟨hquiet, hq⟩ : s.retry.timer.Quiet ∧ q = [.stopped] := by
      cases q with
      | nil => exact absurd hp.events hen
      | cons e q =>
          obtain rfl := hp.clean e List.mem_cons_self
          obtain ⟨hquiet, rfl⟩ := hp.retry.of_last
          exact ⟨hquiet, rfl⟩
    have hevents : s.events = [.retry .stopped] := by rw [hp.events, hq]; rfl
    let b : Bound α := { s with events := [] }
    let s' : Bound α := { b with state := .idle, fsm := .idle, reports := s.reports + 1 }
    have hend : b.shutdownUsock os = .ok s' := by
      rw [shutdownUsock_idle (s := b) { hp.deaf with } hquiet rfl,
        show b.atcps = [] from hp.alone.atcps]
      exact shutdownEnd_nil hp.fsm hp.alone.atcps
    refine Or.inl ⟨s', ?_, Leads.finish h hp.fsm (h.core.pop hevents).update rfl
      ⟨rfl, rfl, hcreated, by simp [s', b], { hp.alone with }, { hp.deaf with }, hquiet⟩ ?_⟩
    · simp only [next, deliver, hevents, if_pos hp.fsm]
      exact (shutdown_stoppingUsock (s := b) hp.state).trans hend
    · simp only [load, s', b, hp.state, hevents, List.length_singleton, List.length_nil]
      omega
  · exact setopt_fares h option
  · obtain rfl : q = [] := List.map_eq_nil_iff.mp (hp.events.symm.trans hempty)
    obtain ⟨b, x, hwork, hstopping, hx, hload⟩ := Backoff.work_stopping hp.retry.nil hready
    refine Or.inl ⟨_, retry_step hempty hwork, .ending h hp.fsm (h.core.timed x.toList).update
      hp.fsm rfl rfl (.stoppingRetry x.toList ⟨hp.fsm, hp.state, rfl, { hp.alone with },
        { hp.deaf with }, hstopping, ?_⟩) ?_⟩
    · rcases hx with rfl | rfl <;> simp
    · simp only [load, hempty, List.length_nil, List.length_map]
      omega

/-! ## Stopping the connections -/

/-- What stopping several connections leaves as it was. -/
structure Keeps (s s' : Bound α) : Prop where
  eq : ∃ conns events stat stops, s' = { s with
    conns := conns
    events := events
    stat := stat
    stops := stops }
  core : s'.Core
  local' : s.Local → s'.Local
  load : s'.load ≤ s.load

theorem Keeps.trans {s'' : Bound α} (h : Keeps s s') (h' : Keeps s' s'') : Keeps s s'' := by
  refine ⟨?_, h'.core, fun hlocal => h'.local' (h.local' hlocal), Nat.le_trans h'.load h.load⟩
  obtain ⟨conns, events, stat, stops, rfl⟩ := h.eq
  obtain ⟨conns', events', stat', stops', rfl⟩ := h'.eq
  exact ⟨conns', events', stat', stops', rfl⟩

/-- A connection that runs is stopped. -/
theorem stopConn_touches (hcore : s.Core) (hc : s.conns i = some c) (hq : about i s.events = [])
    (hruns : c.Runs i []) (os : ListenAnswers ρ) :
    ∃ s' c', s.stopConn os i = .ok s' ∧ Touches s s' i c c' ∧ c'.Ends i (about i s'.events) ∧
      Keeps s s' := by
  obtain ⟨s', c', new, hcall, hmoves, hends, hweight⟩ :=
    stopConn_spec os hc hq hcore.counts hruns
  have ht : Touches s s' i c c' := hmoves.touches_kept hc
    (Or.inr ⟨rfl, hruns.fsm, hends.fsm⟩)
  have hload := load_touches hcore ht
  have hlen : s'.events.length = s.events.length + new.length := by
    rw [hmoves.events, List.length_append]
  refine ⟨s', c', hcall, ht, ?_, ?_, hcore.touches ht, fun hlocal => hlocal.touches ht,
    by omega⟩
  · rw [hmoves.about_self]
    have hnone : about i ({ s with stops := s.stops ++ [i] } : Bound α).events = [] := hq
    rw [hnone, List.nil_append]
    exact hends
  · obtain ⟨stat, events, stops, rfl⟩ := ht.eq
    exact ⟨_, events, stat, stops, rfl⟩

/-- All connections on a list are stopped, one after the other. -/
theorem stopConns {list : List Nat} (hcore : s.Core) (hnodup : list.Nodup)
    (hruns : ∀ i ∈ list, ∃ c, s.conns i = some c ∧ about i s.events = [] ∧ c.Runs i [])
    (os : ListenAnswers ρ) :
    ∃ s', list.foldlM (fun self i => self.stopConn os i) s = .ok s' ∧ Keeps s s' ∧
      (∀ i ∈ list, ∃ c, s'.conns i = some c ∧ c.Ends i (about i s'.events)) ∧
      ∀ j, j ∉ list → s'.conns j = s.conns j ∧ about j s'.events = about j s.events := by
  induction list generalizing s with
  | nil =>
      exact ⟨s, rfl, ⟨⟨_, _, _, _, rfl⟩, hcore, id, Nat.le_refl _⟩, by simp,
        fun j _ => ⟨rfl, rfl⟩⟩
  | cons i list ih =>
      obtain ⟨hout, hnodup⟩ := List.nodup_cons.mp hnodup
      obtain ⟨c, hc, hq, hrun⟩ := hruns i List.mem_cons_self
      obtain ⟨s₁, c₁, hcall, ht, hends, hkeeps⟩ := stopConn_touches hcore hc hq hrun os
      have hrest : ∀ j ∈ list, ∃ c, s₁.conns j = some c ∧ about j s₁.events = [] ∧ c.Runs j [] := by
        intro j hj
        have hji : j ≠ i := by
          rintro rfl
          exact hout hj
        obtain ⟨d, hd, hqd, hrund⟩ := hruns j (List.mem_cons_of_mem i hj)
        exact ⟨d, (ht.conn_other hji).trans hd, (ht.other j hji).trans hqd, hrund⟩
      obtain ⟨s', hfold, hkeeps', hall, hothers⟩ := ih hkeeps.core hnodup hrest
      refine ⟨s', ?_, hkeeps.trans hkeeps', ?_, ?_⟩
      · rw [List.foldlM_cons, hcall]
        exact hfold
      · intro j hj
        rcases List.mem_cons.mp hj with rfl | hj
        · obtain ⟨hsame, habout⟩ := hothers j hout
          exact ⟨c₁, hsame.trans ht.conn, by rw [habout]; exact hends⟩
        · exact hall j hj
      · intro j hj
        obtain ⟨hji, hj⟩ := not_or.mp (mt List.mem_cons.mpr hj)
        obtain ⟨hsame, habout⟩ := hothers j hj
        exact ⟨hsame.trans (ht.conn_other hji), habout.trans (ht.other j hji)⟩

/-- The listening usock has stopped, and the connections are stopped. -/
theorem stoppingUsock_fares (h : s.Inv) (hp : s.StoppingUsock) (hen : s.Enabled l) :
    Fares T s l := by
  obtain ⟨os, rfl⟩ := only_deliver hp.events (by simp) hen
  have hcreated := h.created (by simp [hp.fsm])
  let b : Bound α := { s with events := [] }
  have hcore : b.Core := h.core.pop hp.events
  have hruns : ∀ i ∈ b.atcps, ∃ c, b.conns i = some c ∧ about i b.events = [] ∧ c.Runs i [] := by
    intro i hi
    obtain ⟨c, hc, hrun⟩ := hp.kids i hi
    rw [hp.events] at hrun
    exact ⟨c, hc, rfl, hrun⟩
  obtain ⟨s', hfold, hkeeps, hall, -⟩ := stopConns hcore hcore.nodup hruns os
  have hlocal : s'.Local := hkeeps.local' fun e he => absurd he (by simp [b])
  have hstep : s.next T (.deliver os) = { s' with state := .stoppingAtcps }.shutdownEnd := by
    simp only [next, deliver, hp.events, if_pos hp.fsm]
    rw [shutdown_stoppingUsock (s := b) hp.state,
      shutdownUsock_idle (s := b) { hp.deaf with } hp.retry rfl, hfold]
    rfl
  have hlen : b.load + 1 = s.load := by
    simp only [load, b, hp.events, List.length_singleton, List.length_nil]
    omega
  by_cases hnil : s.atcps = []
  · have hsame : b = s' := by
      rw [show b.atcps = [] from hnil] at hfold
      exact Except.ok.inj hfold
    subst hsame
    refine Or.inl ⟨_, hstep.trans (shutdownEnd_nil hp.fsm hnil), Leads.finish h hp.fsm hcore.update
      rfl ⟨rfl, rfl, hcreated, by simp [b], ⟨hp.atcp, hnil⟩, { hp.deaf with }, hp.retry⟩ ?_⟩
    simp only [load, b, hp.state] at hlen ⊢
    omega
  · have hload := hkeeps.load
    have hcore' := hkeeps.core
    obtain ⟨conns, events, stat, stops, rfl⟩ := hkeeps.eq
    refine Or.inl ⟨_, hstep.trans (shutdownEnd_cons hnil), Leads.ending h hp.fsm hcore'.update
      hp.fsm rfl rfl (.stoppingAtcps ⟨hp.fsm, rfl, hp.atcp, hnil, hlocal, hp.retry, hall,
        hp.deaf.usock, hp.deaf.owner⟩) ?_⟩
    simp only [load, b, hp.state] at hload hlen ⊢
    omega

/-! ## While the connections stop -/

/-- Where there are no connections, only what sessions have left behind can be queued. -/
theorem Core.only_inner (h : s.Core) (halone : s.Alone) (hlocal : s.Local) :
    ∀ e ∈ s.events, ∃ i, e = .inner i := by
  intro e he
  rcases hlocal e he with hconn | hinner
  · obtain ⟨i, hi⟩ := Option.ne_none_iff_exists'.mp hconn
    exact absurd (h.none_of_alone halone i) (h.known e he i hi)
  · exact hinner

theorem shutdown_stoppingAtcps (h : s.state = .stoppingAtcps) :
    s.shutdown T os (.connection i .stopped) = (do
      let s' ← s.release os i
      s'.shutdownEnd) := by
  unfold shutdown
  rw [h]

/-- An endpoint that has stopped its connections hears that one of them has. -/
theorem next_stoppingAtcps (os : ListenAnswers ρ) (hfsm : s.fsm = .stopping)
    (hstate : s.state = .stoppingAtcps) (hevents : s.events = .connection i .stopped :: rest) :
    s.next T (.deliver os) = (do
      let s' ← Bound.release { s with events := rest } os i
      s'.shutdownEnd) := by
  simp only [next, deliver, hevents, if_pos hfsm]
  exact shutdown_stoppingAtcps (s := { s with events := rest }) hstate

/-- A connection has stopped and is terminated, and the endpoint may have stopped with it. -/
theorem stoppingAtcps_stopped (h : s.Inv) (hp : s.StoppingAtcps) (hi : i ∈ s.atcps)
    (hc : s.conns i = some c) (hevents : s.events = .connection i .stopped :: rest)
    (hstopped : c.Stopped i (about i s.events)) : Fares T s (.deliver os) := by
  have hcreated := h.created (by simp [hp.fsm])
  have hstep := next_stoppingAtcps (T := T) os hp.fsm hp.state hevents
  rw [release_deliver h.core hi hc hevents hstopped] at hstep
  by_cases hleft : c.usock.left os.cancelled = []
  · rw [if_pos hleft] at hstep
    have hcore := h.core.releases (released_spec h.core hi hc hevents hstopped)
    have hload := load_released h.core hi hevents
    have hlocal : (s.released i rest).Local := fun e he =>
      hp.events e (hevents ▸ List.mem_cons_of_mem _ he)
    by_cases hnil : (s.released i rest).atcps = []
    · have halone : (s.released i rest).Alone := ⟨hp.atcp, hnil⟩
      refine Or.inl ⟨_, hstep.trans (shutdownEnd_nil hp.fsm hnil), Leads.finish h hp.fsm
        hcore.update rfl ⟨rfl, rfl, hcreated, hcore.only_inner halone hlocal,
          { halone with }, ⟨hp.deaf.usock, hp.deaf.owner⟩, hp.retry⟩ ?_⟩
      simp only [load, released, hp.state] at hload ⊢
      omega
    · refine Or.inl ⟨_, hstep.trans (shutdownEnd_cons hnil), Leads.ending h hp.fsm hcore hp.fsm rfl
        rfl (.stoppingAtcps ⟨hp.fsm, hp.state, hp.atcp, hnil, hlocal, hp.retry,
          hp.kids.released h.core hevents, hp.deaf.usock, hp.deaf.owner⟩) hload⟩
  · rw [if_neg hleft] at hstep
    exact Or.inr ⟨_, hstep, .term ⟨i, c, rest, hevents, hc, hleft⟩⟩

/-- An event between the machines below a session is handed out. -/
theorem deliver_inner (hevents : s.events = .inner i :: rest) :
    s.next T (.deliver os) = .ok { s with events := rest } := by
  simp only [next, deliver, hevents]

theorem load_pop (hevents : s.events = e :: rest) : load { s with events := rest } < s.load := by
  simp only [load, hevents, List.length_cons]
  omega

/-- Nothing about a connection is handed out with it. -/
theorem Kids.inner {P : Accepted → Nat → List BoundEvent → Prop} (h : s.Kids P)
    (hevents : s.events = .inner i :: rest) : Kids P { s with events := rest } :=
  h.pop hevents fun _ _ hconn => absurd hconn (by simp [BoundEvent.conn?])

theorem Local.inner (h : s.Local) (hevents : s.events = e :: rest) :
    Local { s with events := rest } := by
  have hpop : Local { s with events := rest, stat := s.stat } := h.pop hevents
  exact hpop

/-- What the queue can begin with while only connections have events. -/
theorem Local.head (h : s.Local) (hevents : s.events = e :: rest) :
    (∃ i, e = .inner i) ∨ ∃ i, e.conn? = some i := by
  rcases h e (hevents ▸ List.mem_cons_self) with hconn | hinner
  · exact Or.inr (Option.ne_none_iff_exists'.mp hconn)
  · exact Or.inl hinner

/-- Where the queue is not empty. -/
theorem exists_head (hen : s.Enabled (.deliver os : Label α ρ)) :
    ∃ e rest, s.events = e :: rest := List.exists_cons_of_ne_nil hen

theorem stoppingAtcps_deliver (h : s.Inv) (hp : s.StoppingAtcps)
    (hen : s.Enabled (.deliver os : Label α ρ)) : Fares T s (.deliver os) := by
  obtain ⟨e, rest, hevents⟩ := exists_head hen
  rcases hp.events.head hevents with ⟨i, rfl⟩ | ⟨i, hi⟩
  · exact Or.inl ⟨_, deliver_inner hevents, Leads.ending h hp.fsm (h.core.pop hevents) hp.fsm rfl rfl
      (.stoppingAtcps ⟨hp.fsm, hp.state, hp.atcp, hp.atcps, hp.events.inner hevents, hp.retry,
        hp.kids.inner hevents, hp.deaf.usock, hp.deaf.owner⟩) (load_pop hevents)⟩
  · have hlist : i ∈ s.atcps := by
      rcases (h.core.allocated i).mp (h.core.known e (hevents ▸ List.mem_cons_self) i hi) with
        hlist | hcur
      · exact hlist
      · exact absurd (hp.atcp.symm.trans hcur) (by simp)
    obtain ⟨c, hc, hends⟩ := hp.kids i hlist
    have hqueue : about i s.events = e :: about i rest := by rw [hevents, about_cons hi]
    by_cases hown : ∃ x, e = .connection i x
    · obtain ⟨x, rfl⟩ := hown
      rw [hqueue] at hends
      obtain ⟨rfl, hstopped⟩ := hends.connection
      rw [← hqueue] at hstopped
      exact stoppingAtcps_stopped h hp hlist hc hevents hstopped
    · exact fares_feed h hc (Or.inr hends) hevents hi (fun x hx => hown ⟨x, hx⟩)
        fun s' c' hgoes => .stoppingAtcps (hp.touches hgoes.touches
          (hgoes.alive.ends fun hactive => hends.fsm (hgoes.fsm.mp hactive)))

/-- What can happen while the listening usock is off. -/
theorem Deaf.label_cases (h : s.Deaf) (hcreated : s.created = true) (hquiet : s.retry.timer.Quiet)
    (hen : s.Enabled l) :
    (∃ os, l = .stop os) ∨ (∃ os, l = .deliver os) ∨ (∃ option, l = .setopt option) ∨
      ∃ i, l.conn? = some i := by
  cases l with
  | create os => exact absurd (hcreated.symm.trans hen.1) (by simp)
  | stop os => exact Or.inl ⟨os, rfl⟩
  | deliver os => exact Or.inr (Or.inl ⟨os, rfl⟩)
  | setopt option => exact Or.inr (Or.inr (Or.inl ⟨option, rfl⟩))
  | retry w => exact absurd hen.2 (Backoff.not_ready_of_quiet hquiet w)
  | listenerTask => exact absurd h.usock.tasks hen.2
  | listenerIn answer => exact absurd (h.usock.pollIn.symm.trans hen.2) (by simp)
  | connWork i w => exact Or.inr (Or.inr (Or.inr ⟨i, rfl⟩))
  | session i u => exact Or.inr (Or.inr (Or.inr ⟨i, rfl⟩))
  | sessionError i => exact Or.inr (Or.inr (Or.inr ⟨i, rfl⟩))
  | sessionStopped i => exact Or.inr (Or.inr (Or.inr ⟨i, rfl⟩))
  | inner i => exact Or.inr (Or.inr (Or.inr ⟨i, rfl⟩))

theorem stoppingAtcps_fares (h : s.Inv) (hp : s.StoppingAtcps) (hen : s.Enabled l) :
    Fares T s l := by
  have hcreated := h.created (by simp [hp.fsm])
  rcases hp.deaf.label_cases hcreated hp.retry hen with
    ⟨os, rfl⟩ | ⟨os, rfl⟩ | ⟨option, rfl⟩ | ⟨i, hl⟩
  · exact fares_stop_again h (by simp [hp.fsm])
  · exact stoppingAtcps_deliver h hp hen
  · exact setopt_fares h option
  · obtain ⟨d, hd⟩ := allocated_of_enabled hl hen
    have hlist : i ∈ s.atcps := by
      rcases (h.core.allocated i).mp (by simp [hd]) with hlist | hcur
      · exact hlist
      · exact absurd (hp.atcp.symm.trans hcur) (by simp)
    obtain ⟨c, hc, hends⟩ := hp.kids i hlist
    exact fares_label h hc (Or.inr hends) hl hen fun s' c' hgoes => .stoppingAtcps
      (hp.touches hgoes.touches (hgoes.alive.ends fun hactive => hends.fsm (hgoes.fsm.mp hactive)))

/-- What the sessions have left behind is handed out to nobody. -/
theorem finished_fares (h : s.Inv) (hp : s.Finished) (hen : s.Enabled l) : Fares T s l := by
  rcases hp.deaf.label_cases hp.created hp.retry hen with
    ⟨os, rfl⟩ | ⟨os, rfl⟩ | ⟨option, rfl⟩ | ⟨i, hl⟩
  · exact fares_stop_again h (by simp [hp.fsm])
  · obtain ⟨e, rest, hevents⟩ := exists_head hen
    obtain ⟨i, rfl⟩ := hp.events e (hevents ▸ List.mem_cons_self)
    have hfinished : Finished { s with events := rest } :=
      ⟨hp.fsm, hp.state, hp.created, fun x hx => hp.events x (hevents ▸ List.mem_cons_of_mem _ hx),
        { hp.alone with }, { hp.deaf with }, hp.retry⟩
    exact Or.inl ⟨_, deliver_inner hevents, ⟨h.core.pop hevents, h.created, h.reports,
      .finished hfinished⟩, fun _ _ => ⟨hp.created, by simp [hp.fsm]⟩,
      fun hfsm => absurd (hfsm.symm.trans hp.fsm) (by simp)⟩
  · exact setopt_fares h option
  · exact absurd hen (not_enabled_of_alone h.core hp.alone hl)

/-- What can happen to an endpoint that was not created. -/
theorem label_new (h : s.Inv) (hp : s.New) (hen : s.Enabled l) :
    (∃ os, l = .create os) ∨ ∃ option, l = .setopt option := by
  cases l with
  | create os => exact Or.inl ⟨os, rfl⟩
  | stop os => exact absurd (hp.created.symm.trans hen.1) (by simp)
  | deliver os => exact absurd hp.events hen
  | setopt option => exact Or.inr ⟨option, rfl⟩
  | retry w => exact absurd hen.2 (Backoff.not_ready_of_quiet hp.retry w)
  | listenerTask => exact absurd hp.deaf.usock.tasks hen.2
  | listenerIn answer => exact absurd (hp.deaf.usock.pollIn.symm.trans hen.2) (by simp)
  | connWork i w | session i u | sessionError i | sessionStopped i | inner i =>
      exact absurd hen (not_enabled_of_alone h.core hp.alone rfl)

theorem new_fares (h : s.Inv) (hp : s.New) (hen : s.Enabled l) : Fares T s l := by
  rcases label_new h hp hen with ⟨os, rfl⟩ | ⟨option, rfl⟩
  · exact new_create h hp
  · exact setopt_fares h option

end Bound

end GridMq.Transports
