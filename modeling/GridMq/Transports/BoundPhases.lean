import GridMq.Transports.BoundSteps

set_option autoImplicit false

/-!
# What a bound endpoint can be doing

The books about connections and descriptors, the phases of an endpoint, and what a step of
one connection leaves of both.
-/

namespace GridMq.Transports

open GridMq.Aio

/-- A connection on the list of an endpoint that was not asked to stop. -/
def Accepted.Tended (c : Accepted) (i : Nat) (q : List BoundEvent) : Prop :=
  c.Runs i q ∨ c.Stopped i q

namespace Bound

variable {α : Type} {s s' : Bound α} {c c' : Accepted} {i j a : Nat} {e : BoundEvent}
  {new rest : List BoundEvent}

/-! ## Books -/

/-- The books are in order. -/
structure Core (s : Bound α) : Prop where
  nodup : s.atcps.Nodup
  apart : ∀ a, s.atcp = some a → a ∉ s.atcps
  allocated : ∀ i, s.conns i ≠ none ↔ i ∈ s.atcps ∨ s.atcp = some i
  known : ∀ e ∈ s.events, ∀ i, e.conn? = some i → s.conns i ≠ none
  counts : s.stat.Counts 0
  /-- a connection is stopped at most once, and is still there -/
  books : ∀ i c, s.conns i = some c →
    s.stops.count i = (if c.fsm = .active then 0 else 1) ∧ i ∉ s.terms ∧ i ∉ s.frees
  freed : ∀ i, i < s.nextConn → s.conns i = none →
    s.stops.count i = 1 ∧ s.terms.count i = 1 ∧ s.frees.count i = 1
  fresh : ∀ i, s.nextConn ≤ i →
    s.conns i = none ∧ i ∉ s.stops ∧ i ∉ s.terms ∧ i ∉ s.frees ∧ i ∉ s.given.map Prod.snd
  matched : s.given.map Prod.fst = s.accepted
  once : (s.given.map Prod.snd).Nodup

/-- What is known of each connection on the list. -/
def Kids (P : Accepted → Nat → List BoundEvent → Prop) (s : Bound α) : Prop :=
  ∀ i ∈ s.atcps, ∃ c, s.conns i = some c ∧ P c i (about i s.events)

/-- The queue holds events of connections only. -/
def Local (s : Bound α) : Prop := ∀ e ∈ s.events, e.conn? ≠ none ∨ ∃ i, e = .inner i

/-- There are no connections. -/
structure Alone (s : Bound α) : Prop where
  atcp : s.atcp = none
  atcps : s.atcps = []

/-- The listening usock is off. -/
structure Deaf (s : Bound α) : Prop where
  usock : s.usock.Shut
  owner : s.owner = .endpoint

/-- The books say nothing about the endpoint itself. -/
theorem Core.update (h : s.Core) {option : α} {fsm : FsmState} {state : BoundState}
    {usock : Listener} {owner : Owner} {retry : Backoff} {created : Bool} {reports : Nat} :
    Core { s with
      option := option
      fsm := fsm
      state := state
      usock := usock
      owner := owner
      retry := retry
      created := created
      reports := reports } :=
  ⟨h.nodup, h.apart, h.allocated, h.known, h.counts, h.books, h.freed, h.fresh, h.matched, h.once⟩

/-- Other events may be queued if they are about no connection. -/
theorem Core.queue (h : s.Core) {events : List BoundEvent}
    (hsub : ∀ e ∈ events, e.conn? ≠ none → e ∈ s.events) : Core { s with events := events } :=
  ⟨h.nodup, h.apart, h.allocated,
    fun e he i hi => h.known e (hsub e he (by simp [hi])) i hi,
    h.counts, h.books, h.freed, h.fresh, h.matched, h.once⟩

theorem Core.stat (h : s.Core) {stat : EpStat} (hstat : stat.Counts 0) :
    Core { s with stat := stat } :=
  ⟨h.nodup, h.apart, h.allocated, h.known, hstat, h.books, h.freed, h.fresh, h.matched, h.once⟩

theorem Core.none_of_alone (h : s.Core) (halone : s.Alone) (i : Nat) : s.conns i = none := by
  by_contra hne
  rcases (h.allocated i).mp hne with hmem | hcur
  · rw [halone.atcps] at hmem
    exact absurd hmem (by simp)
  · rw [halone.atcp] at hcur
    exact absurd hcur (by simp)

theorem Kids.nil {P : Accepted → Nat → List BoundEvent → Prop} (h : s.atcps = []) : s.Kids P := by
  intro i hi
  rw [h] at hi
  exact absurd hi (by simp)

/-- What is queued about the others when an event has been handed out. -/
theorem Kids.pop {P : Accepted → Nat → List BoundEvent → Prop} (h : s.Kids P)
    (hevents : s.events = e :: rest) (he : ∀ i ∈ s.atcps, e.conn? ≠ some i) {stat : EpStat} :
    Kids P { s with events := rest, stat := stat } := by
  intro i hi
  obtain ⟨c, hc, hP⟩ := h i hi
  rw [hevents, about_cons_ne (he i hi)] at hP
  exact ⟨c, hc, hP⟩

theorem Local.pop (h : s.Local) (hevents : s.events = e :: rest) {stat : EpStat} :
    Local { s with events := rest, stat := stat } := by
  intro x hx
  exact h x (hevents ▸ List.mem_cons_of_mem e hx)

theorem Core.pop (h : s.Core) (hevents : s.events = e :: rest) :
    Core { s with events := rest } :=
  h.queue fun _ hx _ => hevents ▸ List.mem_cons_of_mem e hx

/-! ## Steps of one connection -/

/-- The connection `i` goes from `c` to `c'`, and what is queued about it may change. -/
structure Touches (s s' : Bound α) (i : Nat) (c c' : Accepted) : Prop where
  eq : ∃ stat events stops, s' = { s.setConn i (some c') with
    events := events
    stat := stat
    stops := stops }
  before : s.conns i = some c
  counts : s.stat.Counts 0 → s'.stat.Counts 0
  stops : s'.stops = s.stops ∧ (c'.fsm = .active ↔ c.fsm = .active) ∨
    s'.stops = s.stops ++ [i] ∧ c.fsm = .active ∧ c'.fsm ≠ .active
  other : ∀ j, j ≠ i → about j s'.events = about j s.events
  only : ∀ e ∈ s'.events, e ∈ s.events ∨ e.Kid i ∨ e = .inner i

theorem Touches.conn (h : Touches s s' i c c') : s'.conns i = some c' := by
  obtain ⟨stat, events, stops, rfl⟩ := h.eq
  exact setConn_self _

theorem Touches.conn_other (h : Touches s s' i c c') (hj : j ≠ i) : s'.conns j = s.conns j := by
  obtain ⟨stat, events, stops, rfl⟩ := h.eq
  exact setConn_other _ hj

/-- What a call for a connection does, after the context has taken an event of it out of the
queue. -/
theorem Moves.touches {stops : List Nat}
    (h : Moves { s with events := rest, stops := stops } s' i c' new)
    (hc : s.conns i = some c)
    (hrest : s.events = rest ∨ ∃ e, e.conn? = some i ∧ s.events = e :: rest)
    (hstops : stops = s.stops ∧ (c'.fsm = .active ↔ c.fsm = .active) ∨
      stops = s.stops ++ [i] ∧ c.fsm = .active ∧ c'.fsm ≠ .active) :
    Touches s s' i c c' := by
  have habout : ∀ j, j ≠ i → about j rest = about j s.events := by
    intro j hj
    rcases hrest with heq | ⟨e, he, heq⟩
    · rw [heq]
    · rw [heq, about_cons_ne]
      rw [he]
      exact fun h => hj (Option.some.inj h).symm
  have hsub : ∀ e ∈ rest, e ∈ s.events := by
    intro e he
    rcases hrest with heq | ⟨x, -, heq⟩
    · rwa [heq]
    · rw [heq]
      exact List.mem_cons_of_mem x he
  refine ⟨?_, hc, h.counts, ?_, fun j hj => (h.about_other hj).trans (habout j hj), ?_⟩
  · obtain ⟨stat, rfl⟩ := h.eq
    exact ⟨stat, rest ++ new, stops, rfl⟩
  · obtain ⟨stat, rfl⟩ := h.eq
    exact hstops
  · intro e he
    rw [h.events] at he
    rcases List.mem_append.mp he with he | he
    · exact Or.inl (hsub e he)
    · exact Or.inr (h.only e he)

/-- The same for a call that takes nothing out of the queue. -/
theorem Moves.touches_kept {stops : List Nat} (h : Moves { s with stops := stops } s' i c' new)
    (hc : s.conns i = some c)
    (hstops : stops = s.stops ∧ (c'.fsm = .active ↔ c.fsm = .active) ∨
      stops = s.stops ++ [i] ∧ c.fsm = .active ∧ c'.fsm ≠ .active) :
    Touches s s' i c c' := by
  have hkept : Moves { s with events := s.events, stops := stops } s' i c' new := h
  exact hkept.touches hc (Or.inl rfl) hstops

theorem Core.touches (h : s.Core) (ht : Touches s s' i c c') : s'.Core := by
  have hcounts := ht.counts h.counts
  have hstops := ht.stops
  have honly := ht.only
  have hbefore := ht.before
  obtain ⟨stat, events, stops, rfl⟩ := ht.eq
  have hin : i ∈ s.atcps ∨ s.atcp = some i := (h.allocated i).mp (by simp [hbefore])
  have hlt : i < s.nextConn := by
    by_contra hge
    have hnone := (h.fresh i (by omega)).1
    exact absurd (hnone.symm.trans hbefore) (by simp)
  have hcount : ∀ j, j ≠ i → stops.count j = s.stops.count j := by
    intro j hj
    rcases hstops with ⟨hsame, -⟩ | ⟨hmore, -⟩
    · exact congrArg (List.count j) hsame
    · have hmore' : stops = s.stops ++ [i] := hmore
      rw [hmore', List.count_append, List.count_singleton, if_neg (by simpa using hj.symm)]
      rfl
  refine ⟨h.nodup, h.apart, fun j => ?_, fun e he j hj => ?_, hcounts, fun j d hd => ?_,
    fun j hj hnone => ?_, fun j hj => ?_, h.matched, h.once⟩
  · by_cases hj : j = i
    · subst hj
      simp only [setConn_self, ne_eq, reduceCtorEq, not_false_eq_true, true_iff]
      exact hin
    · simp only [setConn, if_neg hj]
      exact h.allocated j
  · simp only [setConn]
    split
    · simp
    · rename_i hne
      rcases honly e he with hold | hkid | rfl
      · exact h.known e hold j hj
      · exact absurd (Option.some.inj (hj.symm.trans hkid.conn?)) hne
      · exact absurd hj (by simp [BoundEvent.conn?])
  · by_cases hj : j = i
    · subst hj
      have hd' : c' = d := by simpa [setConn] using hd
      subst hd'
      obtain ⟨hold, hterms, hfrees⟩ := h.books j c hbefore
      refine ⟨?_, hterms, hfrees⟩
      rcases hstops with ⟨hsame, hiff⟩ | ⟨hmore, hactive, hnot⟩
      · have hsame' : stops = s.stops := hsame
        simp only [hsame', hold, hiff]
      · have hmore' : stops = s.stops ++ [j] := hmore
        simp only [hmore', List.count_append, List.count_singleton_self, hold, if_pos hactive,
          if_neg hnot]
    · have hd' : s.conns j = some d := by simpa [setConn, hj] using hd
      obtain ⟨hold, hterms, hfrees⟩ := h.books j d hd'
      exact ⟨(hcount j hj).trans hold, hterms, hfrees⟩
  · have hne : j ≠ i := by
      rintro rfl
      exact absurd hnone (by simp [setConn])
    have hnone' : s.conns j = none := by simpa [setConn, hne] using hnone
    obtain ⟨hstop, hterm, hfree⟩ := h.freed j hj hnone'
    exact ⟨(hcount j hne).trans hstop, hterm, hfree⟩
  · have hj' : s.nextConn ≤ j := hj
    have hne : j ≠ i := by omega
    obtain ⟨hnone, hstop, hterm, hfree, hgiven⟩ := h.fresh j hj'
    refine ⟨by simpa [setConn, hne] using hnone, ?_, hterm, hfree, hgiven⟩
    rw [← List.count_eq_zero]
    exact (hcount j hne).trans (List.count_eq_zero.mpr hstop)

theorem Kids.touches {P : Accepted → Nat → List BoundEvent → Prop} (h : s.Kids P)
    (ht : Touches s s' i c c') (hP : i ∈ s.atcps → P c' i (about i s'.events)) : s'.Kids P := by
  intro j hj
  have hlist : s'.atcps = s.atcps := by
    obtain ⟨stat, events, stops, rfl⟩ := ht.eq
    rfl
  rw [hlist] at hj
  by_cases hji : j = i
  · subst hji
    exact ⟨c', ht.conn, hP hj⟩
  · obtain ⟨d, hd, hPd⟩ := h j hj
    exact ⟨d, (ht.conn_other hji).trans hd, by rw [ht.other j hji]; exact hPd⟩

theorem Local.touches (h : s.Local) (ht : Touches s s' i c c') : s'.Local := by
  intro e he
  rcases ht.only e he with hold | hkid | rfl
  · exact h e hold
  · left
    simp [hkid.conn?]
  · exact Or.inr ⟨i, rfl⟩

/-! ## Phases -/

/-- Not created yet. -/
structure New (s : Bound α) : Prop where
  fsm : s.fsm = .idle
  state : s.state = .idle
  created : s.created = false
  events : s.events = []
  alone : s.Alone
  deaf : s.Deaf
  asock : s.usock.asock = none
  retry : s.retry.timer.Quiet

/-- The timer runs until the next attempt to listen. -/
structure Waiting (s : Bound α) (q : List TimerEvent) : Prop where
  fsm : s.fsm = .active
  state : s.state = .waiting
  events : s.events = q.map .retry
  alone : s.Alone
  deaf : s.Deaf
  asock : s.usock.asock = none
  retry : s.retry.Waiting q

/-- An attempt to listen has failed. -/
structure Closing (s : Bound α) : Prop where
  fsm : s.fsm = .active
  state : s.state = .closing
  events : s.events = [.listener .endpoint .stopped]
  alone : s.Alone
  deaf : s.Deaf
  asock : s.usock.asock = none
  retry : s.retry.timer.Quiet

/-- The timer was asked to stop. -/
structure StoppingBackoff (s : Bound α) (q : List TimerEvent) : Prop where
  fsm : s.fsm = .active
  state : s.state = .stoppingBackoff
  events : s.events = q.map .retry
  alone : s.Alone
  deaf : s.Deaf
  asock : s.usock.asock = none
  retry : s.retry.Stopping q
  clean : ∀ e ∈ q, e = .stopped

/-- How far the usock `u` of the connection `a` is with being accepted. -/
def Stage (s : Bound α) (a : Nat) (u : AcceptedUsock) : Prop :=
  u.Pending ∧ s.usock.Waiting a ∧ about a s.events = [] ∧ a ∉ s.given.map Prod.snd ∨
    u.Pending ∧ s.usock.Failed a ∧
      about a s.events = [.listener (.connection a) .acceptError] ∧ a ∉ s.given.map Prod.snd ∨
    u.Taken ∧ s.usock.Listening ∧ s.usock.asock = none ∧ about a s.events = [.usock a .accepted]

/-- The connection `a` is being accepted. -/
structure Awaits (s : Bound α) (a : Nat) (c : Accepted) : Prop where
  state : c.state = .accepting
  session : c.session.Idle
  listener : c.listener = true
  listenerOwner : c.listenerOwner = some .endpoint
  owner : s.owner = .connection a
  stage : s.Stage a c.usock

/-- It was accepted, and the endpoint is to hear of that. -/
structure Served (s : Bound α) (a : Nat) (c : Accepted) : Prop where
  state : c.state = .active
  owner : s.owner = .endpoint
  usock : s.usock.Listening
  asock : s.usock.asock = none
  serves : ∃ q, about a s.events = .connection a .accepted :: q ∧ c.Serves a q

/-- The endpoint listens. -/
structure Active (s : Bound α) (a : Nat) : Prop where
  fsm : s.fsm = .active
  state : s.state = .active
  atcp : s.atcp = some a
  events : s.Local
  retry : s.retry.timer.Quiet
  kids : s.Kids Accepted.Tended
  child : ∃ c, s.conns a = some c ∧ c.fsm = .active ∧ (s.Awaits a c ∨ s.Served a c)

/-- What is so while the endpoint listens, whatever the connection `a` being accepted does. -/
structure Tends (s : Bound α) (a : Nat) : Prop where
  fsm : s.fsm = .active
  state : s.state = .active
  atcp : s.atcp = some a
  events : s.Local
  retry : s.retry.timer.Quiet
  kids : s.Kids Accepted.Tended

theorem Active.tends (h : s.Active a) : s.Tends a :=
  ⟨h.fsm, h.state, h.atcp, h.events, h.retry, h.kids⟩

theorem Tends.active (h : s.Tends a) (hchild : ∃ c, s.conns a = some c ∧ c.fsm = .active ∧
    (s.Awaits a c ∨ s.Served a c)) : s.Active a :=
  ⟨h.fsm, h.state, h.atcp, h.events, h.retry, h.kids, hchild⟩

/-- The connection `a` takes a step. -/
theorem Tends.touches (h : s.Tends a) (hcore : s.Core) (ht : Touches s s' a c c') :
    s'.Tends a := by
  have hkids := h.kids.touches ht fun hmem => absurd hmem (hcore.apart a h.atcp)
  have hlocal := h.events.touches ht
  obtain ⟨stat, events, stops, rfl⟩ := ht.eq
  exact ⟨h.fsm, h.state, h.atcp, hlocal, h.retry, hkids⟩

/-- An event of the connection `a`, or one below the sessions, is handed out. -/
theorem Tends.pop (h : s.Tends a) (hcore : s.Core) (hevents : s.events = e :: rest)
    (he : e.conn? = some a ∨ e.conn? = none) {stat : EpStat} :
    Tends { s with events := rest, stat := stat } a := by
  refine ⟨h.fsm, h.state, h.atcp, h.events.pop hevents, h.retry, h.kids.pop hevents ?_⟩
  intro i hi hconn
  rcases he with he | he
  · obtain rfl : a = i := Option.some.inj (he.symm.trans hconn)
    exact hcore.apart a h.atcp hi
  · exact absurd (he.symm.trans hconn) (by simp)

/-- The connection `a` that is being accepted was asked to stop. -/
structure StoppingAtcp (s : Bound α) (a : Nat) : Prop where
  fsm : s.fsm = .stopping
  state : s.state = .stoppingAtcp
  atcp : s.atcp = some a
  events : s.Local
  retry : s.retry.timer.Quiet
  kids : s.Kids Accepted.Runs
  owner : s.owner = .connection a
  usock : s.usock.Cancelling a
  nothing : about a s.events = []
  child : ∃ c, s.conns a = some c ∧ c.fsm = .stopping ∧ c.state = .stopping ∧ c.session.Idle ∧
    c.listener = true ∧ c.listenerOwner = some .endpoint ∧ c.usock.Cancelled

/-- Its usock has stopped. -/
structure UsockStopped (s : Bound α) (a : Nat) : Prop where
  fsm : s.fsm = .stopping
  state : s.state = .stoppingAtcp
  atcp : s.atcp = some a
  events : s.events = [.usock a .stopped]
  retry : s.retry.timer.Quiet
  kids : s.Kids Accepted.Runs
  owner : s.owner = .connection a
  usock : s.usock.Listening
  child : ∃ c, s.conns a = some c ∧ c.fsm = .stopping ∧ c.state = .stopping ∧ c.session.Idle ∧
    c.listener = true ∧ c.listenerOwner = some .endpoint ∧ c.usock.usock.Off ∧
    c.usock.usock.tasks = []

/-- It has stopped itself. -/
structure AtcpStopped (s : Bound α) (a : Nat) : Prop where
  fsm : s.fsm = .stopping
  state : s.state = .stoppingAtcp
  atcp : s.atcp = some a
  events : s.events = [.connection a .stopped]
  retry : s.retry.timer.Quiet
  kids : s.Kids Accepted.Runs
  owner : s.owner = .endpoint
  usock : s.usock.Listening
  child : ∃ c, s.conns a = some c ∧ c.fsm = .idle ∧ c.state = .idle ∧ c.Rests ∧
    c.usock.usock.tasks = []

/-- The listening usock has stopped. -/
structure StoppingUsock (s : Bound α) : Prop where
  fsm : s.fsm = .stopping
  state : s.state = .stoppingUsock
  atcp : s.atcp = none
  events : s.events = [.listener .endpoint .stopped]
  retry : s.retry.timer.Quiet
  kids : s.Kids Accepted.Runs
  deaf : s.Deaf

/-- There was nothing but the timer to stop. -/
structure StoppingRetry (s : Bound α) (q : List TimerEvent) : Prop where
  fsm : s.fsm = .stopping
  state : s.state = .stoppingUsock
  events : s.events = q.map .retry
  alone : s.Alone
  deaf : s.Deaf
  retry : s.retry.Stopping q
  clean : ∀ e ∈ q, e = .stopped

/-- The connections were asked to stop. -/
structure StoppingAtcps (s : Bound α) : Prop where
  fsm : s.fsm = .stopping
  state : s.state = .stoppingAtcps
  atcp : s.atcp = none
  atcps : s.atcps ≠ []
  events : s.Local
  retry : s.retry.timer.Quiet
  kids : s.Kids Accepted.Ends
  deaf : s.Deaf

/-- The endpoint has reported that it has stopped. -/
structure Finished (s : Bound α) : Prop where
  fsm : s.fsm = .idle
  state : s.state = .idle
  created : s.created = true
  events : ∀ e ∈ s.events, ∃ i, e = .inner i
  alone : s.Alone
  deaf : s.Deaf
  retry : s.retry.timer.Quiet

inductive Phase (s : Bound α) : Prop where
  | new (h : s.New)
  | waiting (q : List TimerEvent) (h : s.Waiting q)
  | closing (h : s.Closing)
  | stoppingBackoff (q : List TimerEvent) (h : s.StoppingBackoff q)
  | active (a : Nat) (h : s.Active a)
  | stoppingAtcp (a : Nat) (h : s.StoppingAtcp a)
  | usockStopped (a : Nat) (h : s.UsockStopped a)
  | atcpStopped (a : Nat) (h : s.AtcpStopped a)
  | stoppingUsock (h : s.StoppingUsock)
  | stoppingRetry (q : List TimerEvent) (h : s.StoppingRetry q)
  | stoppingAtcps (h : s.StoppingAtcps)
  | finished (h : s.Finished)

/-- The invariant of an endpoint. -/
structure Inv (s : Bound α) : Prop where
  core : s.Core
  created : s.fsm ≠ .idle → s.created = true
  reports : s.reports = if s.created = true ∧ s.fsm = .idle then 1 else 0
  phase : s.Phase

/-- What is left to do until an endpoint that was asked to stop has stopped. -/
def load (s : Bound α) : Nat :=
  ((s.atcp.toList ++ s.atcps).map fun i => (s.conns i).elim 0 Accepted.weight).sum +
    s.events.length + 2 * s.usock.usock.tasks.length + s.retry.load +
    (match s.state with
      | .stoppingAtcp => 9
      | .stoppingUsock => 4
      | .stoppingAtcps => 2
      | _ => 0)

end Bound

end GridMq.Transports
