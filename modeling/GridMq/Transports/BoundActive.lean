import GridMq.Transports.BoundListens
import Mathlib.Algebra.BigOperators.Group.List.Basic

set_option autoImplicit false

/-!
# A bound endpoint that listens

What each step makes of the phase an endpoint is in, and from that what holds in every state
that is reached.
-/

namespace GridMq.Transports

open GridMq.Aio GridMq.Library

namespace Bound

variable {α ρ : Type} {s s' : Bound α} {c c' : Accepted} {i a : Nat} {e : BoundEvent}
  {rest : List BoundEvent} {T : ListenTransport α ρ} {os : ListenAnswers ρ} {l : Label α ρ}

/-! ## What a step may come to -/

/-- `accept` answers as its callers expect. -/
def Label.Foreseen : Label α ρ → Prop
  | .create os => os.accept ≠ .error .other
  | .deliver os => os.accept ≠ .error .other
  | .listenerIn answer => answer ≠ .error .other ∧ answer ≠ .error .eagain
  | _ => True

/-- A connection is about to be terminated of which tasks are left. -/
def Leaves (s : Bound α) : Label α ρ → Prop
  | .deliver os => ∃ i c rest, s.events = .connection i .stopped :: rest ∧ s.conns i = some c ∧
      c.usock.left os.cancelled ≠ []
  | _ => False

/-- With what answers an endpoint may listen in a step. -/
def Label.listen? : Label α ρ → Option (ListenAnswers ρ)
  | .create os => some os
  | .deliver os => some os
  | _ => none

/-- The ways in which a step can end the process. -/
inductive Fails (T : ListenTransport α ρ) (s : Bound α) (l : Label α ρ) : Failure → Prop where
  | address {x : Abort} (os : ListenAnswers ρ) (hl : l.listen? = some os) (hfsm : s.fsm ≠ .stopping)
      (h : T.resolve s.option os.prep = .error x) : Fails T s l ⟨.address, x⟩
  | prepare {x : Abort} (os : ListenAnswers ρ) (hl : l.listen? = some os) (hfsm : s.fsm ≠ .stopping)
      (h : T.prepare os.prep = .error x) : Fails T s l ⟨.other, x⟩
  | retry {x : Abort} (os : ListenAnswers ρ) (hl : l.listen? = some os) (hfsm : s.fsm ≠ .stopping)
      (h : s.retry.timeout < 0) : Fails T s l ⟨.other, x⟩
  | accept (hfsm : s.fsm ≠ .stopping) (h : ¬l.Foreseen) : Fails T s l ⟨.accept, .errnum⟩
  | term (h : s.Leaves l) : Fails T s l ⟨.term, .assertion⟩

/-- What a step that goes well leads to. -/
structure Leads (s : Bound α) (l : Label α ρ) (s' : Bound α) : Prop where
  inv : s'.Inv
  stays : s.created = true → s.fsm ≠ .active → s'.created = true ∧ s'.fsm ≠ .active
  load : s.fsm = .stopping → l.Pending → s'.load < s.load

/-- A step goes well, or there is a reason why not. -/
def Fares (T : ListenTransport α ρ) (s : Bound α) (l : Label α ρ) : Prop :=
  (∃ s', s.next T l = .ok s' ∧ Leads s l s') ∨ ∃ e, s.next T l = .error e ∧ Fails T s l e

/-- Nothing happens. -/
theorem Inv.leads (h : s.Inv) (hl : ¬l.Pending) : Leads s l s :=
  ⟨h, fun hcreated hfsm => ⟨hcreated, hfsm⟩, fun _ hp => absurd hp hl⟩

/-- A step of an endpoint that was not asked to stop. -/
theorem Leads.of_active (hfsm : s.fsm = .active) (hinv : s'.Inv) : Leads s l s' :=
  ⟨hinv, fun _ h => absurd hfsm h, fun h => absurd (h.symm.trans hfsm) (by simp)⟩

/-- An option that is set is read by nobody but the next attempt to listen. -/
theorem Phase.setopt (h : s.Phase) (option : α) : Phase { s with option := option } := by
  cases h with
  | new h => exact .new { h with alone := { h.alone with }, deaf := { h.deaf with } }
  | waiting q h => exact .waiting q { h with alone := { h.alone with }, deaf := { h.deaf with } }
  | closing h => exact .closing { h with alone := { h.alone with }, deaf := { h.deaf with } }
  | stoppingBackoff q h =>
      exact .stoppingBackoff q { h with alone := { h.alone with }, deaf := { h.deaf with } }
  | active a h =>
      obtain ⟨c, hc, hfsm, hawaits | hserved⟩ := h.child
      · exact .active a { h with child := ⟨c, hc, hfsm, Or.inl { hawaits with }⟩ }
      · exact .active a { h with child := ⟨c, hc, hfsm, Or.inr { hserved with }⟩ }
  | stoppingAtcp a h => exact .stoppingAtcp a { h with }
  | usockStopped a h => exact .usockStopped a { h with }
  | atcpStopped a h => exact .atcpStopped a { h with }
  | stoppingUsock h => exact .stoppingUsock { h with deaf := { h.deaf with } }
  | stoppingRetry q h =>
      exact .stoppingRetry q { h with alone := { h.alone with }, deaf := { h.deaf with } }
  | stoppingAtcps h => exact .stoppingAtcps { h with deaf := { h.deaf with } }
  | finished h => exact .finished { h with alone := { h.alone with }, deaf := { h.deaf with } }

theorem setopt_fares (h : s.Inv) (option : α) : Fares T s (.setopt option : Label α ρ) :=
  Or.inl ⟨_, rfl, ⟨h.core.update, h.created, h.reports, h.phase.setopt option⟩,
    fun hcreated hfsm => ⟨hcreated, hfsm⟩, fun _ hp => hp.elim⟩

/-- Nobody enters the context before its events are handed out, and the sessions act in the
course of events of their own only. -/
theorem only_deliver {x : BoundEvent} (hevents : s.events = x :: rest) (hx : ∀ i, x ≠ .inner i)
    (hen : s.Enabled l) : ∃ os, l = .deliver os := by
  have hne : s.events ≠ [] := by simp [hevents]
  have hturn : ¬s.Turn := by
    intro hturn
    obtain ⟨i, hi⟩ := hturn x (by simp [hevents])
    exact hx i hi
  cases l with
  | create os => exact absurd hen.2 hne
  | stop os => exact absurd hen.2 hne
  | deliver os => exact ⟨os, rfl⟩
  | setopt option => exact absurd hen hne
  | retry w => exact absurd hen.1 hne
  | listenerTask => exact absurd hen.1 hne
  | listenerIn answer => exact absurd hen.1 hne
  | connWork i w => exact absurd hen.1 hne
  | session i u => exact absurd hen.1 hturn
  | sessionError i => exact absurd hen.1 hturn
  | sessionStopped i => exact absurd hen.1 hturn
  | inner i => exact absurd hen.1 hturn

/-- A connection that takes a step is there. -/
theorem allocated_of_enabled (hl : l.conn? = some i) (hen : s.Enabled l) :
    ∃ c, s.conns i = some c := by
  cases l with
  | connWork j w =>
      obtain rfl : j = i := Option.some.inj hl
      obtain ⟨-, c, hc, -⟩ := hen
      exact ⟨c, hc⟩
  | session j u =>
      obtain rfl : j = i := Option.some.inj hl
      obtain ⟨-, -, -, c, hc, -⟩ := hen
      exact ⟨c, hc⟩
  | sessionError j | sessionStopped j | inner j =>
      obtain rfl : j = i := Option.some.inj hl
      obtain ⟨-, c, hc, -⟩ := hen
      exact ⟨c, hc⟩
  | create os | stop os | deliver os | setopt option | retry w | listenerTask
  | listenerIn answer => exact absurd hl (by simp [Label.conn?])

theorem not_enabled_of_alone (h : s.Core) (halone : s.Alone) (hl : l.conn? = some i) :
    ¬s.Enabled l := by
  intro hen
  obtain ⟨c, hc⟩ := allocated_of_enabled hl hen
  exact absurd ((h.none_of_alone halone i).symm.trans hc) (by simp)

/-! ## Steps of a connection on the list -/

/-- The connections that are there, each once. -/
theorem Core.nodup_all (h : s.Core) : (s.atcp.toList ++ s.atcps).Nodup := by
  cases hatcp : s.atcp with
  | none => exact h.nodup
  | some a => exact List.nodup_cons.mpr ⟨h.apart a hatcp, h.nodup⟩

/-- What the step of a connection is worth. -/
theorem load_touches (h : s.Core) (ht : Touches s s' i c c') :
    s'.load + c.weight + s.events.length = s.load + c'.weight + s'.events.length := by
  have hbefore := ht.before
  have hafter := ht.conn
  have hother : ∀ j, j ≠ i → s'.conns j = s.conns j := fun j hj => ht.conn_other hj
  have hmem : i ∈ s.atcp.toList ++ s.atcps := by
    rcases (h.allocated i).mp (by simp [hbefore]) with hlist | hcur
    · exact List.mem_append_right _ hlist
    · rw [hcur]
      exact List.mem_cons_self
  have hrest : ((s.atcp.toList ++ s.atcps).erase i).map
      (fun j => (s'.conns j).elim 0 Accepted.weight) =
        ((s.atcp.toList ++ s.atcps).erase i).map fun j => (s.conns j).elim 0 Accepted.weight := by
    apply List.map_congr_left
    intro j hj
    rw [hother j (h.nodup_all.mem_erase_iff.mp hj).1]
  have hsum := List.sum_map_erase (fun j => (s.conns j).elim 0 Accepted.weight) hmem
  have hsum' := List.sum_map_erase (fun j => (s'.conns j).elim 0 Accepted.weight) hmem
  rw [hrest] at hsum'
  simp only [hbefore, Option.elim_some] at hsum
  simp only [hafter, Option.elim_some] at hsum'
  obtain ⟨stat, events, stops, rfl⟩ := ht.eq
  simp only [load, setConn] at hsum' ⊢
  omega

theorem Inv.of_touches (h : s.Inv) (ht : Touches s s' i c c') (hphase : s'.Phase) : s'.Inv := by
  have hcore := h.core.touches ht
  obtain ⟨stat, events, stops, rfl⟩ := ht.eq
  exact ⟨hcore, h.created, h.reports, hphase⟩

theorem Leads.of_touches (h : s.Inv) (ht : Touches s s' i c c') (hphase : s'.Phase)
    (hload : l.Pending → c'.weight + s'.events.length < c.weight + s.events.length) :
    Leads s l s' := by
  refine ⟨h.of_touches ht hphase, fun hcreated hfsm => ?_, fun _ hp => ?_⟩
  · obtain ⟨stat, events, stops, rfl⟩ := ht.eq
    exact ⟨hcreated, hfsm⟩
  · have hsame := load_touches h.core ht
    have hlt := hload hp
    omega

/-- The worker or a session moves a connection on the list. -/
theorem fares_label (h : s.Inv) (hc : s.conns i = some c) (halive : c.Alive i (about i s.events))
    (hl : l.conn? = some i) (hen : s.Enabled l)
    (hphase : ∀ s' c', Goes s s' i c c' → s'.Phase) : Fares T s l := by
  obtain ⟨s', c', hcall, hgoes, hload⟩ := alive_label (T := T) hc halive hl hen
  exact Or.inl ⟨s', hcall, .of_touches h hgoes.touches (hphase s' c' hgoes) hload⟩

/-- It hears of its session or its usock. -/
theorem fares_feed (h : s.Inv) (hc : s.conns i = some c) (halive : c.Alive i (about i s.events))
    (hevents : s.events = e :: rest) (he : e.conn? = some i) (hown : ∀ x, e ≠ .connection i x)
    (hphase : ∀ s' c', Goes s s' i c c' → s'.Phase) : Fares T s (.deliver os) := by
  obtain ⟨s', c', hcall, hgoes, hload⟩ :=
    alive_feed T os h.core.counts hc hevents he halive hown
  exact Or.inl ⟨s', hcall, .of_touches h hgoes.touches (hphase s' c' hgoes) fun _ => hload⟩

theorem Active.touches (h : s.Active a) (hcore : s.Core) (hi : i ∈ s.atcps)
    (ht : Touches s s' i c c') (htended : c'.Tended i (about i s'.events)) : s'.Active a := by
  have hne : a ≠ i := by
    rintro rfl
    exact hcore.apart a h.atcp hi
  have hkids := h.kids.touches ht fun _ => htended
  have hlocal := h.events.touches ht
  have hother := ht.other a hne
  have hchild := ht.conn_other hne
  obtain ⟨d, hd, hfsm, hstate⟩ := h.child
  obtain ⟨stat, events, stops, rfl⟩ := ht.eq
  refine ⟨h.fsm, h.state, h.atcp, hlocal, h.retry, hkids, d, hchild.trans hd, hfsm, ?_⟩
  rcases hstate with hawaits | hserved
  · left
    refine ⟨hawaits.state, hawaits.session, hawaits.listener, hawaits.listenerOwner,
      hawaits.owner, ?_⟩
    have hstage := hawaits.stage
    simp only [Stage, ← hother] at hstage
    exact hstage
  · right
    refine ⟨hserved.state, hserved.owner, hserved.usock, hserved.asock, ?_⟩
    rw [hother]
    exact hserved.serves

theorem StoppingAtcp.touches (h : s.StoppingAtcp a) (hcore : s.Core) (hi : i ∈ s.atcps)
    (ht : Touches s s' i c c') (hruns : c'.Runs i (about i s'.events)) : s'.StoppingAtcp a := by
  have hne : a ≠ i := by
    rintro rfl
    exact hcore.apart a h.atcp hi
  have hkids := h.kids.touches ht fun _ => hruns
  have hlocal := h.events.touches ht
  have hother := ht.other a hne
  have hchild := ht.conn_other hne
  obtain ⟨d, hd, hrest⟩ := h.child
  obtain ⟨stat, events, stops, rfl⟩ := ht.eq
  exact ⟨h.fsm, h.state, h.atcp, hlocal, h.retry, hkids, h.owner, h.usock,
    hother.trans h.nothing, d, hchild.trans hd, hrest⟩

theorem StoppingAtcps.touches (h : s.StoppingAtcps) (ht : Touches s s' i c c')
    (hends : c'.Ends i (about i s'.events)) : s'.StoppingAtcps := by
  have hkids := h.kids.touches ht fun _ => hends
  have hlocal := h.events.touches ht
  obtain ⟨stat, events, stops, rfl⟩ := ht.eq
  exact ⟨h.fsm, h.state, h.atcp, h.atcps, hlocal, h.retry, hkids, h.deaf.usock, h.deaf.owner⟩

/-! ## Connections that have stopped -/

/-- A connection is terminated and freed when its last event has been handed out. -/
structure Releases (s s' : Bound α) (i : Nat) (c : Accepted) : Prop where
  before : s.conns i = some c
  stopped : c.fsm ≠ .active
  conns : ∀ j, s'.conns j = if j = i then none else s.conns j
  nodup : s'.atcps.Nodup
  apart : ∀ a, s'.atcp = some a → a ∉ s'.atcps
  allocated : ∀ j, j ∈ s'.atcps ∨ s'.atcp = some j ↔ j ≠ i ∧ (j ∈ s.atcps ∨ s.atcp = some j)
  events : ∀ e ∈ s'.events, ∀ j, e.conn? = some j → j ≠ i ∧ e ∈ s.events
  stat : s'.stat = s.stat
  nextConn : s'.nextConn = s.nextConn
  stops : s'.stops = s.stops
  terms : s'.terms = s.terms ++ [i]
  frees : s'.frees = s.frees ++ [i]
  accepted : s'.accepted = s.accepted
  given : s'.given = s.given

theorem Core.releases (h : s.Core) (hr : Releases s s' i c) : s'.Core := by
  have hconns := hr.conns
  have hlt : i < s.nextConn := by
    by_contra hge
    have hnone := (h.fresh i (by omega)).1
    exact absurd (hnone.symm.trans hr.before) (by simp)
  have hcount : ∀ (l : List Nat) j, j ≠ i → (l ++ [i]).count j = l.count j := by
    intro l j hj
    rw [List.count_append, List.count_singleton, if_neg (by simpa using hj.symm)]
    rfl
  have hmem : ∀ (l : List Nat) j, j ≠ i → j ∉ l → j ∉ l ++ [i] := by
    intro l j hj hl
    simp [hl, hj]
  refine ⟨hr.nodup, hr.apart, fun j => ?_, fun e he j hj => ?_, hr.stat ▸ h.counts,
    fun j d hd => ?_, fun j hj hnone => ?_, fun j hj => ?_, ?_, ?_⟩
  · rw [hr.allocated, hconns]
    by_cases hj : j = i
    · simp [hj]
    · rw [if_neg hj, h.allocated]
      simp [hj]
  · obtain ⟨hne, hold⟩ := hr.events e he j hj
    rw [hconns, if_neg hne]
    exact h.known e hold j hj
  · by_cases hj : j = i
    · rw [hconns, if_pos hj] at hd
      exact absurd hd (by simp)
    · rw [hconns, if_neg hj] at hd
      obtain ⟨hstop, hterm, hfree⟩ := h.books j d hd
      rw [hr.stops, hr.terms, hr.frees]
      exact ⟨hstop, hmem _ j hj hterm, hmem _ j hj hfree⟩
  · rw [hr.nextConn] at hj
    rw [hr.stops, hr.terms, hr.frees]
    by_cases hji : j = i
    · subst hji
      obtain ⟨hstop, hterm, hfree⟩ := h.books j c hr.before
      rw [if_neg hr.stopped] at hstop
      refine ⟨hstop, ?_, ?_⟩
      · rw [List.count_append, List.count_eq_zero.mpr hterm, List.count_singleton_self]
      · rw [List.count_append, List.count_eq_zero.mpr hfree, List.count_singleton_self]
    · rw [hconns, if_neg hji] at hnone
      rw [hcount _ j hji, hcount _ j hji]
      exact h.freed j hj hnone
  · rw [hr.nextConn] at hj
    have hji : j ≠ i := by omega
    obtain ⟨hnone, hstop, hterm, hfree, hgiven⟩ := h.fresh j hj
    rw [hconns, if_neg hji, hr.stops, hr.terms, hr.frees, hr.given]
    exact ⟨hnone, hstop, hmem _ j hji hterm, hmem _ j hji hfree, hgiven⟩
  · rw [hr.given, hr.accepted]
    exact h.matched
  · rw [hr.given]
    exact h.once

/-- The endpoint after it has released a connection on its list. -/
def released (s : Bound α) (i : Nat) (rest : List BoundEvent) : Bound α :=
  { s.setConn i none with
    atcps := s.atcps.erase i
    terms := s.terms ++ [i]
    frees := s.frees ++ [i]
    events := rest }

theorem released_spec (h : s.Core) (hi : i ∈ s.atcps) (hc : s.conns i = some c)
    (hevents : s.events = .connection i .stopped :: rest)
    (hstopped : c.Stopped i (about i s.events)) : Releases s (s.released i rest) i c := by
  have hne : s.atcp ≠ some i := fun hcur => h.apart i hcur hi
  have hnone : about i rest = [] := by
    have hqueue := hstopped.queue
    rw [hevents, about_cons rfl] at hqueue
    exact (List.cons_eq_cons.mp hqueue).2
  refine ⟨hc, by simp [hstopped.fsm], fun j => rfl, h.nodup.erase i,
    fun a ha hmem => h.apart a ha (List.mem_of_mem_erase hmem), fun j => ?_,
    fun e he j hj => ⟨?_, ?_⟩, rfl, rfl, rfl, rfl, rfl, rfl, rfl⟩
  · simp only [released, setConn, h.nodup.mem_erase_iff]
    constructor
    · rintro (⟨hji, hmem⟩ | hcur)
      · exact ⟨hji, Or.inl hmem⟩
      · refine ⟨?_, Or.inr hcur⟩
        rintro rfl
        exact hne hcur
    · rintro ⟨hji, hmem | hcur⟩
      · exact Or.inl ⟨hji, hmem⟩
      · exact Or.inr hcur
  · rintro rfl
    have hmem : e ∈ about j rest := mem_about.mpr ⟨he, hj⟩
    rw [hnone] at hmem
    exact absurd hmem (by simp)
  · rw [hevents]
    exact List.mem_cons_of_mem _ he

theorem Kids.released {P : Accepted → Nat → List BoundEvent → Prop} (h : s.Kids P)
    (hcore : s.Core) (hevents : s.events = .connection i .stopped :: rest) :
    (s.released i rest).Kids P := by
  intro j hj
  obtain ⟨hji, hmem⟩ := hcore.nodup.mem_erase_iff.mp hj
  obtain ⟨c, hc, hP⟩ := h j hmem
  refine ⟨c, (setConn_other none hji).trans hc, ?_⟩
  have hsame : about j rest = about j s.events := by
    rw [hevents, about_cons_ne]
    exact fun h => hji (Option.some.inj h).symm
  have hqueue : (s.released i rest).events = rest := rfl
  rw [hqueue, hsame]
  exact hP

/-- Handing out the event that a connection on the list has stopped. -/
theorem release_deliver (h : s.Core) (hi : i ∈ s.atcps) (hc : s.conns i = some c)
    (hevents : s.events = .connection i .stopped :: rest)
    (hstopped : c.Stopped i (about i s.events)) :
    Bound.release { s with events := rest } os i =
      if c.usock.left os.cancelled = [] then .ok (s.released i rest)
      else .error ⟨.term, .assertion⟩ := by
  have hnone : about i rest = [] := by
    have hqueue := hstopped.queue
    rw [hevents, about_cons rfl] at hqueue
    exact (List.cons_eq_cons.mp hqueue).2
  exact release_spec os (s := { s with events := rest }) hc hnone h.nodup hi
    ⟨hstopped.fsm, hstopped.state, hstopped.rests, rfl⟩

theorem load_released (h : s.Core) (hi : i ∈ s.atcps)
    (hevents : s.events = .connection i .stopped :: rest) :
    (s.released i rest).load < s.load := by
  have hne : s.atcp ≠ some i := fun hcur => h.apart i hcur hi
  have hrest : ∀ l : List Nat, i ∉ l → (l.map fun j =>
      ((s.released i rest).conns j).elim 0 Accepted.weight) =
        l.map fun j => (s.conns j).elim 0 Accepted.weight := by
    intro l hl
    apply List.map_congr_left
    intro j hj
    have hji : j ≠ i := by
      rintro rfl
      exact hl hj
    rw [show (s.released i rest).conns j = s.conns j from setConn_other none hji]
  have hlist := hrest (s.atcps.erase i) fun hmem => (h.nodup.mem_erase_iff.mp hmem).1 rfl
  have hcur := hrest s.atcp.toList fun hmem => hne (Option.mem_toList.mp hmem)
  have hsum := List.sum_map_erase (fun j => (s.conns j).elim 0 Accepted.weight) hi
  have hlen : s.events.length = rest.length + 1 := by rw [hevents]; rfl
  simp only [load, List.map_append, List.sum_append, hlen]
  rw [show (s.released i rest).atcp = s.atcp from rfl,
    show (s.released i rest).atcps = s.atcps.erase i from rfl, hlist, hcur,
    show (s.released i rest).events = rest from rfl,
    show (s.released i rest).usock = s.usock from rfl,
    show (s.released i rest).retry = s.retry from rfl,
    show (s.released i rest).state = s.state from rfl]
  omega

/-! ## While the endpoint listens -/

/-- No event of the listening usock is queued but those of the connection being accepted. -/
theorem no_listener (h : s.Core) (hlocal : s.Local) (hkids : s.Kids Accepted.Tended)
    (ha : ∀ a, s.atcp = some a → ∀ e ∈ about a s.events, e.Kid a) (o : Owner) (x : UsockEvent) :
    .listener o x ∉ s.events := by
  intro hmem
  rcases hlocal _ hmem with hconn | ⟨i, hi⟩
  · cases o with
    | endpoint => exact hconn rfl
    | connection i =>
        have hin : BoundEvent.listener (.connection i) x ∈ about i s.events :=
          mem_about.mpr ⟨hmem, rfl⟩
        rcases (h.allocated i).mp (h.known _ hmem i rfl) with hlist | hcur
        · obtain ⟨c, -, htended⟩ := hkids i hlist
          exact htended.alive.kid hin
        · exact ha i hcur _ hin
  · exact absurd hi (by simp)

/-- A step of the connection that is being accepted keeps the phase. -/
theorem Inv.grows {answer : AcceptAnswer} (h : s.Core) (hcreated : s.created = true)
    (hreports : s.reports = 0) (hp : s.Tends a) (hc : s.conns a = some c)
    (hfsm : c.fsm = .active) (hgiven : a ∉ s.given.map Prod.snd)
    (hg : Grows s s' a c' answer) (hfsm' : c'.fsm = .active) (hawaits : s'.Awaits a c') :
    s'.Inv := by
  have hcore := h.grows hg hc (hfsm'.trans hfsm.symm) hgiven
  have hkids := hp.kids.grows hg (h.apart a hp.atcp)
  have hlocal := hp.events.grows hg
  have hconn := hg.conn
  obtain ⟨l, new, given, rfl, -⟩ := hg.eq
  refine ⟨hcore, fun _ => hcreated, ?_, .active a ⟨hp.fsm, hp.state, hp.atcp, hlocal, hp.retry,
    hkids, c', hconn, hfsm', Or.inl hawaits⟩⟩
  have hnot : ¬(s.created = true ∧ s.fsm = .idle) := by
    rintro ⟨-, hidle⟩
    exact absurd (hidle.symm.trans hp.fsm) (by simp)
  exact hreports.trans (if_neg hnot).symm

theorem Inv.reports_zero (h : s.Inv) (hfsm : s.fsm ≠ .idle) : s.reports = 0 :=
  h.reports.trans (if_neg fun hidle => hfsm hidle.2)

theorem Inv.created_active (h : s.Inv) (hfsm : s.fsm = .active) :
    s.created = true ∧ s.reports = 0 :=
  ⟨h.created (by simp [hfsm]), h.reports_zero (by simp [hfsm])⟩

/-- The worker begins to wait for a connection. -/
theorem active_listenerTask (h : s.Inv) (hp : s.Active a)
    (hen : s.Enabled (.listenerTask : Label α ρ)) : Fares T s (.listenerTask : Label α ρ) := by
  obtain ⟨hempty, htasks⟩ := hen
  obtain ⟨hcreated, hreports⟩ := h.created_active hp.fsm
  obtain ⟨c, hc, hfsm, hawaits | hserved⟩ := hp.child
  · rcases hawaits.stage with ⟨hpending, hwaiting, hq, hgiven⟩ | ⟨-, hfailed, -⟩ | ⟨-, hlistening, -⟩
    · obtain ⟨l, hrun, hwaiting', -⟩ := Listener.runTask_waiting hwaiting htasks
      have hg := Grows.listener hc l .eagain
      refine Or.inl ⟨{ s with usock := l }, ?_, .of_active hp.fsm
        (.grows h.core hcreated hreports hp.tends hc hfsm hgiven hg hfsm
          ⟨hawaits.state, hawaits.session, hawaits.listener, hawaits.listenerOwner,
            hawaits.owner, Or.inl ⟨hpending, hwaiting', hq, hgiven⟩⟩)⟩
      simp only [next, listenerTask, hrun, Site.call_ok, ok_bind, Option.map_none, raise?,
        pure_eq_ok]
    · exact absurd hfailed.tasks htasks
    · exact absurd hlistening.tasks htasks
  · exact absurd hserved.usock.tasks htasks

/-- A connection arrives. -/
theorem active_listenerIn (h : s.Inv) (hp : s.Active a) {answer : AcceptAnswer}
    (hen : s.Enabled (.listenerIn answer : Label α ρ)) :
    Fares T s (.listenerIn answer : Label α ρ) := by
  obtain ⟨hempty, hpoll⟩ := hen
  obtain ⟨hcreated, hreports⟩ := h.created_active hp.fsm
  obtain ⟨c, hc, hfsm, hawaits | hserved⟩ := hp.child
  · rcases hawaits.stage with ⟨hpending, hwaiting, hq, hgiven⟩ | ⟨-, hfailed, -⟩ | ⟨-, hlistening, -⟩
    · rcases Listener.fdIn_waiting hwaiting hpoll answer with
        ⟨l, r, hin, hresult⟩ | ⟨hbad, hin⟩
      · left
        have hcalled : s.usock.usock.fsm ≠ .stopping ∧ s.usock.usock.state = .accepting :=
          ⟨by simp [hwaiting.fsm], hwaiting.state⟩
        rcases hresult with ⟨⟨e, rfl⟩, rfl, rfl⟩ | ⟨⟨e, rfl⟩, rfl, hfailed⟩ |
          ⟨x, rfl, rfl, hlistening, hasock⟩
        · -- the connection was aborted before it could be accepted
          have hg := Grows.listener hc s.usock e
          refine ⟨_, ?_, .of_active hp.fsm (.grows h.core hcreated hreports hp.tends hc hfsm hgiven hg
            hfsm hawaits)⟩
          simp only [next, listenerIn, hin, Site.call_ok, ok_bind, descriptors, List.append_nil,
            ite_self, pure_eq_ok]
        · -- a resource error
          have hraise : ({ s with usock := l } : Bound α).raise
              (.listener s.owner .acceptError) = .ok { s with
                usock := l
                events := s.events ++ [.listener (.connection a) .acceptError] } := by
            rw [raise_listener, hawaits.owner]
            simp [hempty]
          have hg : Grows s { s with
              usock := l
              events := s.events ++ [.listener (.connection a) .acceptError] } a c (.error e) := by
            refine ⟨l, [.listener (.connection a) .acceptError], [], ?_, by simp [BoundEvent.conn?],
              rfl, rfl⟩
            rw [setConn_same hc]
            simp [descriptors]
          refine ⟨_, ?_, .of_active hp.fsm (.grows h.core hcreated hreports hp.tends hc hfsm hgiven
            hg hfsm ⟨hawaits.state, hawaits.session, hawaits.listener, hawaits.listenerOwner,
              hawaits.owner, Or.inr (Or.inl ⟨hpending, hfailed, ?_, hgiven⟩)⟩)⟩
          · simp only [next, listenerIn, hin, Site.call_ok, ok_bind, descriptors, ite_self,
              List.append_nil]
            exact hraise
          · simp only [hempty, List.nil_append]
            simp [about, BoundEvent.conn?]
        · -- the connection is there
          obtain ⟨u, htake, htaken⟩ := AcceptedUsock.take_pending hpending
          have hnew : (BoundEvent.usock a .accepted).item ∉ s.events.map BoundEvent.item := by
            simp [hempty]
          have hg : Grows s { s.setConn a (some { c with usock := u }) with
              usock := l
              events := s.events ++ [.usock a .accepted]
              accepted := s.accepted ++ [x]
              given := s.given ++ [(x, a)] } a { c with usock := u } (.fd x) :=
            ⟨l, [.usock a .accepted], [(x, a)], rfl, by simp [BoundEvent.conn?], rfl, rfl⟩
          refine ⟨_, ?_, .of_active hp.fsm (.grows h.core hcreated hreports hp.tends hc hfsm hgiven
            hg hfsm ⟨hawaits.state, hawaits.session, hawaits.listener, hawaits.listenerOwner,
              hawaits.owner, Or.inr (Or.inr ⟨htaken, hlistening, hasock, ?_⟩)⟩)⟩
          · have hconn : ({ s with usock := l, accepted := s.accepted ++ [x] } : Bound α).conn a =
                .ok c := conn_eq hc
            simp only [next, listenerIn, hin, Site.call_ok, ok_bind, descriptors, hcalled, ne_eq,
              not_false_eq_true, and_self, if_true, hconn, htake, Option.map_some,
              raise?, raise, setConn_events, raiseEvent_ok hnew, pure_eq_ok]
            rfl
          · simp only [hempty, List.nil_append]
            simp [about, BoundEvent.conn?]
      · right
        refine ⟨⟨.accept, .errnum⟩, ?_, .accept (by simp [hp.fsm]) ?_⟩
        · simp only [next, listenerIn, hin, Site.call_error]
          rfl
        · rintro ⟨hother, hagain⟩
          exact hbad.elim hother hagain
    · exact absurd (hfailed.pollIn.symm.trans hpoll) (by simp)
    · exact absurd (hlistening.pollIn.symm.trans hpoll) (by simp)
  · exact absurd (hserved.usock.pollIn.symm.trans hpoll) (by simp)

/-- The connection being accepted hears of a resource error and tries again. -/
theorem active_acceptError (h : s.Inv) (hp : s.Active a) (hc : s.conns a = some c)
    (hfsm : c.fsm = .active) (hawaits : s.Awaits a c)
    (hevents : s.events = .listener (.connection a) .acceptError :: rest)
    (hpending : c.usock.Pending) (hfailed : s.usock.Failed a)
    (hgiven : a ∉ s.given.map Prod.snd)
    (hq : about a s.events = [.listener (.connection a) .acceptError]) :
    Fares T s (.deliver os) := by
  obtain ⟨hcreated, hreports⟩ := h.created_active hp.fsm
  have hq' : about a rest = [] := by
    rw [hevents, about_cons rfl] at hq
    exact (List.cons_eq_cons.mp hq).2
  obtain ⟨stat, hset, hcounts⟩ := h.core.counts.setError os.errnum
  obtain ⟨stat', hinc, hcounts'⟩ := hcounts.event .acceptErrors (by simp) (by simp)
  have htends : Tends { s with events := rest, stat := stat' } a :=
    hp.tends.pop h.core hevents (Or.inl rfl)
  have hcore : Core { s with events := rest, stat := stat' } := (h.core.pop hevents).stat hcounts'
  have hfree := no_listener hcore htends.events htends.kids (by
    intro b hb e he
    obtain rfl : a = b := Option.some.inj (hp.atcp.symm.trans hb)
    rw [hq'] at he
    exact absurd he (by simp))
  have hnot : c.fsm ≠ .stopping := by simp [hfsm]
  have hconn : ({ s with events := rest } : Bound α).conn a = .ok c := conn_eq hc
  have hstep : s.next T (.deliver os) =
      ({ s with events := rest, stat := stat' } : Bound α).accept a os.accept := by
    simp only [next, deliver, hevents, feedConn, hconn, ok_bind, if_neg hnot, connHandler,
      hawaits.state, setError, hset, Site.call_ok, pure_eq_ok, increment, hinc]
  rcases accept_spec (s := { s with events := rest, stat := stat' }) hc hq' hfree hawaits.owner
      hgiven (AcceptedUsock.accept_failed hfailed hpending os.accept) with
    ⟨s', u, hs', hg, hstage⟩ | ⟨hother, hs'⟩
  · left
    refine ⟨s', hstep.trans hs', .of_active hp.fsm (.grows hcore hcreated hreports htends hc hfsm
      hgiven hg hfsm ⟨hawaits.state, hawaits.session, hawaits.listener, hawaits.listenerOwner,
        ?_, hstage⟩)⟩
    obtain ⟨l, new, given, rfl, -⟩ := hg.eq
    exact hawaits.owner
  · exact Or.inr ⟨_, hstep.trans hs', .accept (by simp [hp.fsm]) fun hforeseen =>
      hforeseen hother⟩

/-- It hears that it has been accepted, gives the listening usock back and starts its
session. -/
theorem active_accepted (h : s.Inv) (hp : s.Active a) (hc : s.conns a = some c)
    (hfsm : c.fsm = .active) (hawaits : s.Awaits a c)
    (hevents : s.events = .usock a .accepted :: rest) (htaken : c.usock.Taken)
    (hlistening : s.usock.Listening) (hasock : s.usock.asock = none)
    (hq : about a s.events = [.usock a .accepted]) : Fares T s (.deliver os) := by
  left
  obtain ⟨hcreated, hreports⟩ := h.created_active hp.fsm
  have hq' : about a rest = [] := by
    rw [hevents, about_cons rfl] at hq
    exact (List.cons_eq_cons.mp hq).2
  obtain ⟨stat, hclear, hcounts⟩ := h.core.counts.clearError
  obtain ⟨stat', hinc, hcounts'⟩ := hcounts.event .acceptedConnections (by simp) (by simp)
  obtain ⟨u, hactivate, hlive, htasks⟩ := AcceptedUsock.activate_taken htaken
  have hsize : c.usock.usock.setsockopt = .ok () := gridAssert_pos (Or.inr htaken.state)
  have hnew : (BoundEvent.connection a .accepted).item ∉ rest.map BoundEvent.item :=
    item_of_kid (i := a) rfl (by simp [hq'])
  have hin : BoundEvent.session a .stopped ∉ rest ++ [.connection a .accepted] := by
    rw [List.mem_append, session_mem, hq']
    simp
  let d : Accepted := { c with
    listener := false
    listenerOwner := none
    usock := u
    session := { fsm := .active, usock := true, done := false }
    state := .active }
  let inner : List BoundEvent := if a ∈ os.inners then [.inner a] else []
  let s' : Bound α := { s.setConn a (some d) with
    owner := .endpoint
    stat := stat'
    events := (rest ++ [.connection a .accepted]) ++ inner }
  have hnot : c.fsm ≠ .stopping := by simp [hfsm]
  have hconn : ({ s with events := rest } : Bound α).conn a = .ok c := conn_eq hc
  have hstep : s.next T (.deliver os) = .ok s' := by
    simp only [next, deliver, hevents, feedConn, hconn, ok_bind, if_neg hnot, connHandler,
      hawaits.state, clearError, hclear, Site.call_ok, pure_eq_ok, hsize, returnListener,
      hawaits.listenerOwner, Option.getD_some, raise, setConn_events, raiseEvent_ok hnew,
      hactivate, hin, decide_false, hawaits.session.start, increment]
    simp only [setConn, s', d, inner, hinc, Site.call_ok, ok_bind]
    congr 2
    funext k
    split <;> rfl
  -- but for the owner of the listening usock this is a step of the connection
  have hcore : Core { s with owner := .endpoint } := h.core.update
  have htends : Tends { s with owner := .endpoint } a :=
    ⟨hp.fsm, hp.state, hp.atcp, hp.events, hp.retry, hp.kids⟩
  have hmoves : Moves { s with owner := .endpoint, events := rest } s' a d
      (.connection a .accepted :: inner) := by
    refine ⟨⟨stat', ?_⟩, fun _ => hcounts', ?_⟩
    · simp [s', setConn]
    · intro e he
      rcases List.mem_cons.mp he with rfl | he
      · exact Or.inl rfl
      · right
        simp only [inner] at he
        split at he
        · exact List.mem_singleton.mp he
        · exact absurd he (by simp)
  have ht : Touches { s with owner := .endpoint } s' a c d :=
    hmoves.touches hc (Or.inr ⟨_, rfl, hevents⟩) (Or.inl ⟨rfl, Iff.rfl⟩)
  have hqueue : about a s'.events = [.connection a .accepted] := by
    have hinner : about a inner = [] := by
      apply about_eq_nil
      intro e he
      simp only [inner] at he
      split at he
      · obtain rfl := List.mem_singleton.mp he
        simp [BoundEvent.conn?]
      · exact absurd he (by simp)
    rw [hmoves.about_self, hq', about_cons rfl, hinner, List.nil_append]
  have hserves : d.Serves a [] :=
    ⟨hlive.held, .of_nil htasks, rfl, rfl, rfl, Or.inl ⟨rfl, rfl⟩⟩
  refine ⟨s', hstep, .of_active hp.fsm ⟨hcore.touches ht, fun _ => hcreated, ?_, .active a
    ((htends.touches hcore ht).active ⟨d, ht.conn, hfsm, Or.inr ⟨rfl, rfl, hlistening, hasock, [],
      hqueue, hserves⟩⟩)⟩⟩
  have hnone : ¬(s'.created = true ∧ s'.fsm = .idle) := by
    rintro ⟨-, hidle⟩
    exact absurd (hidle.symm.trans hp.fsm) (by simp)
  exact hreports.trans (if_neg hnone).symm

/-- The endpoint hears that a connection was accepted, and lets the next one be accepted. -/
theorem active_next (h : s.Inv) (hp : s.Active a) (hc : s.conns a = some c)
    (hfsm : c.fsm = .active) (hserved : s.Served a c)
    (hevents : s.events = .connection a .accepted :: rest) : Fares T s (.deliver os) := by
  obtain ⟨hcreated, hreports⟩ := h.created_active hp.fsm
  obtain ⟨q, hq, hserves⟩ := hserved.serves
  have hq' : about a rest = q := by
    rw [hevents, about_cons rfl] at hq
    exact (List.cons_eq_cons.mp hq).2
  have hout : a ∉ s.atcps := h.core.apart a hp.atcp
  -- the connection has moved to the list
  let b : Bound α := { s with events := rest, atcps := s.atcps ++ [a], atcp := none }
  have hcore : b.Core := by
    have hpop := h.core.pop hevents
    refine ⟨?_, fun x hx => absurd hx (by simp [b]), fun j => ?_, hpop.known, hpop.counts,
      hpop.books, hpop.freed, hpop.fresh, hpop.matched, hpop.once⟩
    · exact List.nodup_append.mpr ⟨h.core.nodup, by simp, fun x hx y hy => by
        rintro rfl
        exact hout (List.mem_singleton.mp hy ▸ hx)⟩
    · have hold := h.core.allocated j
      rw [hp.atcp] at hold
      simp only [b, List.mem_append, List.mem_singleton, reduceCtorEq, or_false]
      rw [hold, Option.some.injEq, eq_comm (a := a)]
  have hkids : b.Kids Accepted.Tended := by
    intro j hj
    rcases List.mem_append.mp hj with hlist | hlast
    · have hja : j ≠ a := by
        rintro rfl
        exact hout hlist
      obtain ⟨x, hx, hP⟩ := hp.kids j hlist
      refine ⟨x, hx, ?_⟩
      have hne : (BoundEvent.connection a .accepted).conn? ≠ some j :=
        fun heq => hja (Option.some.inj heq).symm
      rw [hevents, about_cons_ne hne] at hP
      exact hP
    · obtain rfl := List.mem_singleton.mp hlast
      refine ⟨c, hc, Or.inl ⟨hfsm, Or.inl ⟨hserved.state, ?_⟩⟩⟩
      rw [show b.events = rest from rfl, hq']
      exact hserves
  have hlocal : b.Local := fun e he => hp.events e (hevents ▸ List.mem_cons_of_mem _ he)
  have hfree := no_listener hcore hlocal hkids fun x hx => absurd hx (by simp [b])
  have hnot : s.fsm ≠ .stopping := by simp [hp.fsm]
  have hstep : s.next T (.deliver os) = b.startAccepting os.accept := by
    simp only [next, deliver, hevents, if_neg hnot]
    unfold handler
    simp only [hp.state]
    unfold handlerActive
    simp only [hp.atcp, if_true, gridAssert_pos hout, Site.call_ok, ok_bind, b, hp.state]
  rcases startAccepting_spec hcore rfl hserved.usock hserved.asock hserved.owner hlocal hfree
    hp.retry hkids os.accept with ⟨s', n, hs', hcore', hstays, hactive⟩ | ⟨hother, hs'⟩
  · left
    have hsame : s' = { s' with fsm := .active, state := .active } := by
      have hfsm' : s'.fsm = .active := hstays.fsm.trans hp.fsm
      have hstate' : s'.state = .active := hstays.state.trans hp.state
      rw [← hfsm', ← hstate']
    rw [← hsame] at hactive
    refine ⟨s', hstep.trans hs', .of_active hp.fsm ⟨hcore', fun _ => hstays.created.trans hcreated,
      ?_, .active n hactive⟩⟩
    have hnone : ¬(s'.created = true ∧ s'.fsm = .idle) := by
      rintro ⟨-, hidle⟩
      exact absurd (hidle.symm.trans hactive.fsm) (by simp)
    exact (hstays.reports.trans hreports).trans (if_neg hnone).symm
  · exact Or.inr ⟨_, hstep.trans hs', .accept (by simp [hp.fsm]) fun hforeseen =>
      hforeseen hother⟩

/-- A connection that waits to be accepted takes no step of its own. -/
theorem not_enabled_of_awaits (hc : s.conns a = some c) (hawaits : s.Awaits a c)
    (hl : l.conn? = some a) : ¬s.Enabled l := by
  refine not_enabled_of_idle hc hawaits.session (fun hempty => ?_) hl
  rcases hawaits.stage with ⟨hpending, -⟩ | ⟨hpending, -⟩ | ⟨-, -, -, hq⟩
  · exact ⟨hpending.tasks, hpending.fd⟩
  · exact ⟨hpending.tasks, hpending.fd⟩
  · rw [hempty] at hq
    exact absurd hq (by simp)

/-- The session of a connection that was accepted can act before the endpoint hears of it. -/
theorem served_label (hp : s.Active a) (hc : s.conns a = some c) (hfsm : c.fsm = .active)
    (hserved : s.Served a c) (hl : l.conn? = some a) (hen : s.Enabled l) :
    ∃ s' c', s.next T l = .ok s' ∧ Touches s s' a c c' ∧ c'.fsm = .active ∧
      c'.state = .active ∧ (∃ q, about a s'.events = .connection a .accepted :: q ∧
        c'.Serves a q) ∧ ¬l.Pending := by
  obtain ⟨q, hq, hserves⟩ := hserved.serves
  cases l with
  | connWork j w =>
      have hempty := hen.1
      rw [hempty] at hq
      exact absurd hq (by simp)
  | session j u =>
      obtain rfl : j = a := Option.some.inj hl
      obtain ⟨-, hu, ht, -⟩ := hen
      have hmoves := Moves.set s j { c with usock := { c.usock with usock := u } }
      refine ⟨_, _, ?_, Moves.touches hmoves hc (Or.inl rfl) (Or.inl ⟨rfl, Iff.rfl⟩), hfsm,
        hserved.state, ⟨q, hq, hu, ht, hserves.listener, hserves.fsm, hserves.holds,
          hserves.report⟩, id⟩
      simp only [next, conn_eq hc, ok_bind, pure_eq_ok]
  | sessionError j =>
      obtain rfl : j = a := Option.some.inj hl
      obtain ⟨-, d, hd, -, hdone⟩ := hen
      obtain rfl : c = d := Option.some.inj (hc.symm.trans hd)
      obtain ⟨rfl, hfails⟩ := serves_fail hserves hdone
      have hset := Moves.set s j { c with session := c.session.fail.1 }
      obtain ⟨hr, hmoves⟩ := raise_spec (e := .session j .error) hset.conn rfl
        (by simp [hq, BoundEvent.item])
      have hall := hset.trans hmoves
      refine ⟨_, _, ?_, Moves.touches hall hc (Or.inl rfl) (Or.inl ⟨rfl, Iff.rfl⟩), hfsm,
        hserved.state, ⟨[.session j .error], ?_, hfails⟩, id⟩
      · simp only [next, conn_eq hc, ok_bind]
        exact hr
      · rw [hall.about_self, hq]
        simp [about, BoundEvent.conn?]
  | sessionStopped j =>
      obtain rfl : j = a := Option.some.inj hl
      obtain ⟨-, d, hd, hstopping⟩ := hen
      obtain rfl : c = d := Option.some.inj (hc.symm.trans hd)
      exact absurd (hserves.fsm.symm.trans hstopping) (by simp)
  | inner j =>
      obtain rfl : j = a := Option.some.inj hl
      have hmoves := (Moves.refl hc).inner true
      refine ⟨_, c, rfl, Moves.touches hmoves hc (Or.inl rfl) (Or.inl ⟨rfl, Iff.rfl⟩), hfsm,
        hserved.state, ⟨q, ?_, hserves⟩, id⟩
      have hnone : about j [.inner j] = [] := by simp [about, BoundEvent.conn?]
      simp only [about_append, hnone, List.append_nil]
      exact hq
  | create os | stop os | deliver os | setopt option | retry w | listenerTask
  | listenerIn answer => exact absurd hl (by simp [Label.conn?])

/-- A connection takes a step while the endpoint listens. -/
theorem active_label (h : s.Inv) (hp : s.Active a) (hl : l.conn? = some i) (hen : s.Enabled l) :
    Fares T s l := by
  obtain ⟨d, hd⟩ := allocated_of_enabled hl hen
  rcases (h.core.allocated i).mp (by simp [hd]) with hlist | hcur
  · obtain ⟨c, hc, hruns | hstopped⟩ := hp.kids i hlist
    · refine fares_label h hc (Or.inl hruns) hl hen fun s' c' hgoes => ?_
      exact .active a (hp.touches h.core hlist hgoes.touches
        (Or.inl (hgoes.alive.runs (hgoes.fsm.mpr hruns.fsm))))
    · exact absurd hen (not_enabled_of_stopped hc hstopped hl)
  · obtain rfl : a = i := Option.some.inj (hp.atcp.symm.trans hcur)
    obtain ⟨c, hc, hfsm, hawaits | hserved⟩ := hp.child
    · exact absurd hen (not_enabled_of_awaits hc hawaits hl)
    · left
      obtain ⟨s', c', hcall, ht, hfsm', hstate', hserves', hpending⟩ :=
        served_label (T := T) hp hc hfsm hserved hl hen
      have htends := hp.tends.touches h.core ht
      refine ⟨s', hcall, .of_touches h ht (.active a (htends.active ⟨c', ht.conn, hfsm',
        Or.inr ?_⟩)) fun hpend => absurd hpend hpending⟩
      obtain ⟨stat, events, stops, rfl⟩ := ht.eq
      exact ⟨hstate', hserved.owner, hserved.usock, hserved.asock, hserves'⟩

end Bound

end GridMq.Transports
