import GridMq.Transports.BoundRuns

set_option autoImplicit false

/-!
# The shutdown of a bound endpoint

An endpoint that was asked to stop goes on until it has reported that it has stopped, and its
connections are gone by then; what can keep it from that is a connection of which tasks are
left when it is terminated.
-/

namespace GridMq.Transports

open GridMq.Aio GridMq.Library

namespace Bound

variable {α ρ : Type} {s s' : Bound α} {T : ListenTransport α ρ} {l : Label α ρ}

/-! ## Connections of which tasks are left -/

/-- They cannot be terminated. -/
theorem leaves_fails (h : s.Inv) (hl : s.Leaves l) :
    s.next T l = .error ⟨.term, .assertion⟩ := by
  cases l with
  | deliver os =>
      obtain ⟨i, c, rest, hevents, hc, hleft⟩ := hl
      have hqueue : about i s.events = .connection i .stopped :: about i rest := by
        rw [hevents, about_cons rfl]
      have hknown : i ∈ s.atcps ∨ s.atcp = some i := (h.core.allocated i).mp (by simp [hc])
      have hruns : i ∈ s.atcps → ¬s.Kids Accepted.Runs := by
        intro hi hkids
        obtain ⟨d, -, hruns⟩ := hkids i hi
        rw [hqueue] at hruns
        obtain ⟨heq, -⟩ := hruns.connection
        exact absurd heq (by simp)
      cases h.phase with
      | active a hp =>
          rcases hknown with hi | hcur
          · obtain ⟨d, hd, htended⟩ := hp.kids i hi
            obtain rfl : c = d := Option.some.inj (hc.symm.trans hd)
            rcases htended with hruns | hstopped
            · rw [hqueue] at hruns
              obtain ⟨heq, -⟩ := hruns.connection
              exact absurd heq (by simp)
            · have hne : s.atcp ≠ some i := fun hcur => h.core.apart i hcur hi
              rw [next_stopped os hp.fsm hp.state hne hevents,
                release_deliver h.core hi hc hevents hstopped, if_neg hleft]
          · obtain rfl : a = i := Option.some.inj (hp.atcp.symm.trans hcur)
            obtain ⟨d, -, -, hawaits | hserved⟩ := hp.child
            · rcases hawaits.stage with ⟨-, -, hq, -⟩ | ⟨-, -, hq, -⟩ | ⟨-, -, -, hq⟩ <;>
                exact absurd (hqueue.symm.trans hq) (by simp)
            · obtain ⟨q, hq, -⟩ := hserved.serves
              exact absurd (hqueue.symm.trans hq) (by simp)
      | stoppingAtcps hp =>
          rcases hknown with hi | hcur
          · obtain ⟨d, hd, hends⟩ := hp.kids i hi
            obtain rfl : c = d := Option.some.inj (hc.symm.trans hd)
            rw [hqueue] at hends
            obtain ⟨-, hstopped⟩ := hends.connection
            rw [← hqueue] at hstopped
            rw [next_stoppingAtcps os hp.fsm hp.state hevents,
              release_deliver h.core hi hc hevents hstopped, if_neg hleft]
            rfl
          · exact absurd (hp.atcp.symm.trans hcur) (by simp)
      | atcpStopped a hp =>
          rw [hp.events] at hevents
          obtain ⟨heq, -⟩ := List.cons_eq_cons.mp hevents
          cases heq
          obtain ⟨d, hd, -, -, -, htasks⟩ := hp.child
          obtain rfl : c = d := Option.some.inj (hc.symm.trans hd)
          refine absurd ?_ hleft
          rw [AcceptedUsock.left, htasks]
          split <;> rfl
      | stoppingAtcp a hp =>
          rcases hknown with hi | hcur
          · exact absurd hp.kids (hruns hi)
          · obtain rfl : a = i := Option.some.inj (hp.atcp.symm.trans hcur)
            exact absurd (hqueue.symm.trans hp.nothing) (by simp)
      | new hp => exact absurd (hevents.symm.trans hp.events) (by simp)
      | waiting q hp => cases q <;> exact absurd (hevents.symm.trans hp.events) (by simp)
      | closing hp => exact absurd (hevents.symm.trans hp.events) (by simp)
      | stoppingBackoff q hp => cases q <;> exact absurd (hevents.symm.trans hp.events) (by simp)
      | usockStopped a hp => exact absurd (hevents.symm.trans hp.events) (by simp)
      | stoppingUsock hp => exact absurd (hevents.symm.trans hp.events) (by simp)
      | stoppingRetry q hp => cases q <;> exact absurd (hevents.symm.trans hp.events) (by simp)
      | finished hp =>
          obtain ⟨j, hj⟩ := hp.events _ (hevents ▸ List.mem_cons_self)
          exact absurd hj (by simp)
  | _ => exact hl.elim

/-! ## The end of the shutdown -/

/-- There is always something to do for an endpoint that was asked to stop. -/
theorem exists_pending (h : s.Inv) (hfsm : s.fsm = .stopping) (os : ListenAnswers ρ) :
    ∃ l : Label α ρ, l.Pending ∧ s.Enabled l := by
  by_cases hempty : s.events = []
  · cases h.phase with
    | stoppingAtcp a hp =>
        refine ⟨.listenerTask, trivial, hempty, ?_⟩
        rcases hp.usock.tasks with htasks | htasks <;> simp [htasks]
    | stoppingRetry q hp =>
        obtain rfl : q = [] := List.map_eq_nil_iff.mp (hp.events.symm.trans hempty)
        exact ⟨.retry .task, trivial, hempty, Backoff.ready_of_stopping hp.retry.nil⟩
    | stoppingAtcps hp =>
        obtain ⟨i, hi⟩ := List.exists_mem_of_ne_nil _ hp.atcps
        obtain ⟨c, hc, hends⟩ := hp.kids i hi
        rw [hempty] at hends
        rcases enabled_of_ends hc hempty hends with hen | hen
        · exact ⟨.sessionStopped i, trivial, hen⟩
        · exact ⟨.connWork i .task, rfl, hen⟩
    | usockStopped a hp => exact absurd (hempty.symm.trans hp.events) (by simp)
    | atcpStopped a hp => exact absurd (hempty.symm.trans hp.events) (by simp)
    | stoppingUsock hp => exact absurd (hempty.symm.trans hp.events) (by simp)
    | new hp | waiting q hp | closing hp | stoppingBackoff q hp | active a hp | finished hp =>
        exact absurd (hfsm.symm.trans hp.fsm) (by simp)
  · exact ⟨.deliver os, trivial, hempty⟩

/-- A step of an endpoint that was asked to stop goes well unless it terminates a connection
of which tasks are left. -/
theorem stopping_fares (h : s.Inv) (hfsm : s.fsm = .stopping) (hen : s.Enabled l)
    (hl : ¬s.Leaves l) : ∃ s', s.next T l = .ok s' ∧ Leads s l s' := by
  rcases fares (T := T) h hen with hok | ⟨e, -, hfails⟩
  · exact hok
  · cases hfails with
    | address os _ hnot _ => exact absurd hfsm hnot
    | prepare os _ hnot _ => exact absurd hfsm hnot
    | retry os _ hnot _ => exact absurd hfsm hnot
    | accept hnot _ => exact absurd hfsm hnot
    | term hleaves => exact absurd hleaves hl

/-- An endpoint that was asked to stop, or has stopped. -/
structure Ended (s : Bound α) : Prop where
  inv : s.Inv
  created : s.created = true
  fsm : s.fsm ≠ .active

theorem Ended.stopping (h : s.Ended) (hreports : s.reports ≠ 1) : s.fsm = .stopping := by
  cases hfsm : s.fsm with
  | stopping => rfl
  | active => exact absurd hfsm h.fsm
  | idle => exact absurd (h.inv.reports.trans (if_pos ⟨h.created, hfsm⟩)) hreports

/-- Its shutdown comes to an end, or to a step that does not meet the condition, which lets no
connection be terminated of which tasks are left. -/
theorem Ended.settles {G : Bound α → Label α ρ → Prop} {minivl maxivl : Int}
    (hG : ∀ s l, G s l → ¬s.Leaves l) (os : ListenAnswers ρ) (h : s.Ended) :
    ((system T minivl maxivl).restrict G).Settles Label.Pending
      (fun s => s.reports = 1 ∨ ∃ l, s.Enabled l ∧ ¬G s l) s := by
  have hgoes : ∀ s l s', Ended s → ((system T minivl maxivl).restrict G).step s l s' →
      Leads s l s' := fun s l s' h hstep => leads_of_step h.inv hstep.2
  refine System.settles_of_rank load ?_ ?_ ?_ h
  · intro s l s' h _ hstep
    have hleads := hgoes s l s' h hstep
    obtain ⟨hcreated, hfsm⟩ := hleads.stays h.created h.fsm
    exact ⟨hleads.inv, hcreated, hfsm⟩
  · intro s h hnot
    obtain ⟨hreports, hmeets⟩ := not_or.mp hnot
    have hfsm := h.stopping hreports
    obtain ⟨l, hl, hen⟩ := exists_pending h.inv hfsm os
    have hG' : G s l := by
      by_contra hbad
      exact hmeets ⟨l, hen, hbad⟩
    obtain ⟨s', hs', -⟩ := stopping_fares (T := T) h.inv hfsm hen (hG s l hG')
    exact ⟨l, s', hl, hG', hen, hs'⟩
  · intro s l s' h hnot hl hstep
    obtain ⟨hreports, -⟩ := not_or.mp hnot
    exact (hgoes s l s' h hstep).load (h.stopping hreports) hl

/-! ## Orderly shutdowns -/

/-- What a shutdown has to be, where all steps meet a condition. -/
structure Orderly (T : ListenTransport α ρ) (minivl maxivl : Int)
    (G : Bound α → Label α ρ → Prop) (s : Bound α) : Prop where
  /-- no connection is stopped, terminated or freed twice -/
  once : ∀ i, s.stops.count i ≤ 1 ∧ s.terms.count i ≤ 1 ∧ s.frees.count i ≤ 1
  /-- one that was freed was stopped and terminated -/
  freed : ∀ i ∈ s.frees, s.stops.count i = 1 ∧ s.terms.count i = 1
  /-- the endpoint reports once, when its connections are gone -/
  reports : s.reports ≤ 1
  gone : s.reports = 1 → s.atcp = none ∧ s.atcps = [] ∧ ∀ i, i < s.nextConn →
    s.stops.count i = 1 ∧ s.terms.count i = 1 ∧ s.frees.count i = 1
  /-- no check fails -/
  safe : ∀ l e, G s l → s.Enabled l → s.next T l = .error e →
    e.site ≠ .endpoint ∧ e.site ≠ .term
  /-- an endpoint that was asked to stop comes to report that it has stopped -/
  ends : s.created = true → s.fsm ≠ .active →
    ((system T minivl maxivl).restrict G).Settles Label.Pending
      (fun s => s.reports = 1 ∨ ∃ l, s.Enabled l ∧ ¬G s l) s

/-- What the books say of a connection. -/
theorem Core.counts_le (h : s.Core) (i : Nat) :
    s.stops.count i ≤ 1 ∧ s.terms.count i ≤ 1 ∧ s.frees.count i ≤ 1 := by
  cases hc : s.conns i with
  | some c =>
      obtain ⟨hstops, hterms, hfrees⟩ := h.books i c hc
      rw [hstops, List.count_eq_zero.mpr hterms, List.count_eq_zero.mpr hfrees]
      split <;> simp
  | none =>
      by_cases hi : i < s.nextConn
      · obtain ⟨hstops, hterms, hfrees⟩ := h.freed i hi hc
        omega
      · obtain ⟨-, hstops, hterms, hfrees, -⟩ := h.fresh i (by omega)
        rw [List.count_eq_zero.mpr hstops, List.count_eq_zero.mpr hterms,
          List.count_eq_zero.mpr hfrees]
        simp

theorem Core.of_freed {i : Nat} (h : s.Core) (hi : i ∈ s.frees) :
    s.stops.count i = 1 ∧ s.terms.count i = 1 := by
  have hlt : i < s.nextConn := by
    by_contra hge
    exact (h.fresh i (by omega)).2.2.2.1 hi
  cases hc : s.conns i with
  | some c => exact absurd hi (h.books i c hc).2.2
  | none =>
      obtain ⟨hstops, hterms, -⟩ := h.freed i hlt hc
      exact ⟨hstops, hterms⟩

/-- An endpoint that has reported is alone. -/
theorem Inv.alone (h : s.Inv) (hreports : s.reports = 1) : s.Alone := by
  have hidle : s.created = true ∧ s.fsm = .idle := by
    by_contra hnot
    exact absurd ((h.reports.trans (if_neg hnot)).symm.trans hreports) (by simp)
  cases h.phase with
  | new hp => exact hp.alone
  | finished hp => exact hp.alone
  | waiting q hp | closing hp | stoppingBackoff q hp | active a hp | stoppingAtcp a hp
  | usockStopped a hp | atcpStopped a hp | stoppingUsock hp | stoppingRetry q hp
  | stoppingAtcps hp => exact absurd (hidle.2.symm.trans hp.fsm) (by simp)

/-- The shutdown is orderly where no connection is terminated of which tasks are left. -/
theorem Inv.orderly {G : Bound α → Label α ρ → Prop} {minivl maxivl : Int}
    (hG : ∀ s l, G s l → ¬s.Leaves l) (os : ListenAnswers ρ) (h : s.Inv) :
    s.Orderly T minivl maxivl G := by
  refine ⟨h.core.counts_le, fun i hi => h.core.of_freed hi, ?_, fun hreports => ?_,
    fun l e hl hen he => ?_, fun hcreated hfsm => Ended.settles hG os ⟨h, hcreated, hfsm⟩⟩
  · rw [h.reports]
    split <;> simp
  · have halone := h.alone hreports
    exact ⟨halone.atcp, halone.atcps,
      fun i hi => h.core.freed i hi (h.core.none_of_alone halone i)⟩
  · rcases fares (T := T) h hen with ⟨s', hs', -⟩ | ⟨e', he', hfails⟩
    · exact absurd (hs'.symm.trans he) (by simp)
    · obtain rfl : e' = e := Except.error.inj (he'.symm.trans he)
      cases hfails with
      | address os _ _ _ => exact ⟨by simp, by simp⟩
      | prepare os _ _ _ => exact ⟨by simp, by simp⟩
      | retry os _ _ _ => exact ⟨by simp, by simp⟩
      | accept _ _ => exact ⟨by simp, by simp⟩
      | term hleaves => exact absurd hleaves (hG s l hl)

end Bound

end GridMq.Transports
