import GridMq.Transports.BoundPhases

set_option autoImplicit false

/-!
# How a bound endpoint listens

Steps of its connections, steps in the course of which a connection is being accepted, and
attempts to listen.
-/

namespace GridMq.Transports

open GridMq.Aio

/-- A connection that has been accepted, whether asked to stop or not. -/
def Accepted.Alive (c : Accepted) (i : Nat) (q : List BoundEvent) : Prop := c.Runs i q ∨ c.Ends i q

namespace Accepted

variable {c : Accepted} {i : Nat} {q : List BoundEvent} {e : BoundEvent}

theorem Alive.runs (h : c.Alive i q) (hfsm : c.fsm = .active) : c.Runs i q :=
  h.resolve_right fun hends => hends.fsm hfsm

theorem Alive.ends (h : c.Alive i q) (hfsm : c.fsm ≠ .active) : c.Ends i q :=
  h.resolve_left fun hruns => hfsm hruns.fsm

theorem Tended.alive (h : c.Tended i q) : c.Alive i q := by
  rcases h with hruns | hstopped
  · exact Or.inl hruns
  · exact Or.inr (Or.inr hstopped)

theorem Serves.kid (h : c.Serves i q) (he : e ∈ q) : e.Kid i := by
  rcases h.report with ⟨-, rfl⟩ | ⟨-, rfl⟩
  · exact absurd he (by simp)
  · exact List.mem_singleton.mp he ▸ rfl

theorem SessionLeaves.kid (h : c.SessionLeaves i q) (he : e ∈ q) : e.Kid i := by
  rcases h.ends with ⟨-, rfl⟩ | ⟨-, rfl⟩
  · exact absurd he (by simp)
  · exact List.mem_singleton.mp he ▸ rfl

theorem UsockLeaves.kid (h : c.UsockLeaves i q) (he : e ∈ q) : e.Kid i := by
  rcases h.ends with ⟨-, rfl | rfl⟩ | ⟨-, rfl⟩
  · exact absurd he (by simp)
  · exact List.mem_singleton.mp he ▸ rfl
  · exact List.mem_singleton.mp he ▸ rfl

/-- What is queued about a connection comes from it or its machines. -/
theorem Alive.kid (h : c.Alive i q) (he : e ∈ q) : e.Kid i := by
  rcases h with ⟨-, hstate⟩ | ⟨-, hstate⟩ | hstopped
  · rcases hstate with ⟨-, hserves⟩ | ⟨-, hleaves⟩ | ⟨-, hleaves⟩ | ⟨-, -, rfl | rfl⟩
    · exact hserves.kid he
    · exact hleaves.kid he
    · exact hleaves.kid he
    · exact absurd he (by simp)
    · exact List.mem_singleton.mp he ▸ rfl
  · rcases hstate with ⟨-, hleaves⟩ | ⟨-, hleaves⟩
    · exact hleaves.kid he
    · exact hleaves.kid he
  · rw [hstopped.queue] at he
    exact List.mem_singleton.mp he ▸ rfl

end Accepted

namespace Bound

variable {α ρ : Type} {s s' : Bound α} {c c' : Accepted} {i a : Nat} {e : BoundEvent}
  {rest : List BoundEvent} {T : ListenTransport α ρ} {os : ListenAnswers ρ} {l : Label α ρ}

/-! ## Steps of one connection -/

/-- The connection that takes a step. -/
def Label.conn? : Label α ρ → Option Nat
  | .connWork i _ => some i
  | .session i _ => some i
  | .sessionError i => some i
  | .sessionStopped i => some i
  | .inner i => some i
  | _ => none

/-- A step of the connection `i` brings it from `c` to `c'`. -/
structure Goes (s s' : Bound α) (i : Nat) (c c' : Accepted) : Prop where
  touches : Touches s s' i c c'
  fsm : c'.fsm = .active ↔ c.fsm = .active
  alive : c'.Alive i (about i s'.events)

/-- The worker or its session moves a connection. -/
theorem alive_label (hc : s.conns i = some c) (halive : c.Alive i (about i s.events))
    (hl : l.conn? = some i) (hen : s.Enabled l) :
    ∃ s' c', s.next T l = .ok s' ∧ Goes s s' i c c' ∧
      (l.Pending → c'.weight + s'.events.length < c.weight + s.events.length) := by
  cases l with
  | connWork j w =>
      obtain rfl : j = i := Option.some.inj hl
      obtain ⟨hempty, d, hd, hfree, hwaits, hfd⟩ := hen
      obtain rfl : c = d := Option.some.inj (hc.symm.trans hd)
      have hq : about j s.events = [] := by rw [hempty]; rfl
      rw [hq] at halive
      rcases halive with hruns | hends
      · obtain ⟨s', c', new, hcall, hmoves, hruns', hload⟩ :=
          connWork_runs hc hq hfree hwaits hfd hruns
        have hiff : c'.fsm = .active ↔ c.fsm = .active := by simp [hruns.fsm, hruns'.fsm]
        refine ⟨s', c', hcall, ⟨Moves.touches hmoves hc (Or.inl rfl) (Or.inl ⟨rfl, hiff⟩), hiff,
          Or.inl ?_⟩, fun hw => ?_⟩
        · rwa [hmoves.about_self, hq]
        · have hlt := hload hw
          simp only [hmoves.events, List.length_append]
          omega
      · obtain ⟨s', c', new, hcall, hmoves, hends', hload⟩ :=
          connWork_ends (w := w) hc hq hfree hends
        have hiff : c'.fsm = .active ↔ c.fsm = .active := by simp [hends.fsm, hends'.fsm]
        refine ⟨s', c', hcall, ⟨Moves.touches hmoves hc (Or.inl rfl) (Or.inl ⟨rfl, hiff⟩), hiff,
          Or.inr ?_⟩, fun hw => ?_⟩
        · rwa [hmoves.about_self, hq]
        · have hlt := hload hw
          simp only [hmoves.events, List.length_append]
          omega
  | session j u =>
      obtain rfl : j = i := Option.some.inj hl
      obtain ⟨-, hu, ht, d, hd, hholds⟩ := hen
      obtain rfl : c = d := Option.some.inj (hc.symm.trans hd)
      have hmoves := Moves.set s j { c with usock := { c.usock with usock := u } }
      refine ⟨_, _, ?_, ⟨Moves.touches hmoves hc (Or.inl rfl) (Or.inl ⟨rfl, Iff.rfl⟩), Iff.rfl,
        ?_⟩, False.elim⟩
      · simp only [next, conn_eq hc, ok_bind, pure_eq_ok]
      · exact halive.imp (fun h => session_runs h hholds hu ht)
          (fun h => session_ends h hholds hu ht)
  | sessionError j =>
      obtain rfl : j = i := Option.some.inj hl
      obtain ⟨-, d, hd, hactive, hdone⟩ := hen
      obtain rfl : c = d := Option.some.inj (hc.symm.trans hd)
      rcases halive with hruns | hends
      · obtain ⟨hst, hserves⟩ := serves_of_active hruns hactive
        obtain ⟨hq, hfails⟩ := serves_fail hserves hdone
        have hset := Moves.set s j { c with session := c.session.fail.1 }
        obtain ⟨hr, hmoves⟩ := raise_spec (e := .session j .error) hset.conn rfl (by simp [hq])
        have hall := hset.trans hmoves
        refine ⟨_, _, ?_, ⟨Moves.touches hall hc (Or.inl rfl) (Or.inl ⟨rfl, Iff.rfl⟩), Iff.rfl,
          Or.inl ⟨hruns.fsm, Or.inl ⟨hst, ?_⟩⟩⟩, False.elim⟩
        · simp only [next, conn_eq hc, ok_bind]
          exact hr
        · rw [hall.about_self, hq]
          simpa [about, BoundEvent.conn?] using hfails
      · exact absurd hactive (not_active_of_ends hends)
  | sessionStopped j =>
      obtain rfl : j = i := Option.some.inj hl
      obtain ⟨-, d, hd, hstopping⟩ := hen
      obtain rfl : c = d := Option.some.inj (hc.symm.trans hd)
      obtain ⟨hleaves, hstate⟩ := sessionLeaves_of_stopping hstopping halive
      obtain ⟨hq, hfinishes⟩ := sessionLeaves_finish hleaves hstopping
      have hset := Moves.set s j { c with session := c.session.finish.1 }
      obtain ⟨hr, hmoves⟩ := raise_spec (e := .session j .stopped) hset.conn rfl (by simp [hq])
      have hall := hset.trans hmoves
      refine ⟨_, _, ?_, ⟨Moves.touches hall hc (Or.inl rfl) (Or.inl ⟨rfl, Iff.rfl⟩), Iff.rfl, ?_⟩,
        fun _ => ?_⟩
      · simp only [next, finishSession, conn_eq hc, ok_bind]
        exact hr
      · have hqueue : about j (s.events ++ [.session j .stopped]) = [.session j .stopped] := by
          rw [about_append, hq]
          simp [about, BoundEvent.conn?]
        simp only [setConn_events, hqueue]
        rcases hstate with ⟨hfsm, hst⟩ | ⟨hfsm, hst⟩
        · exact Or.inl ⟨hfsm, Or.inr (Or.inl ⟨hst, hfinishes⟩)⟩
        · exact Or.inr (Or.inl ⟨hfsm, Or.inl ⟨hst, hfinishes⟩⟩)
      · have hweight := weight_finish (c := c) hstopping
        simp only [setConn_events, List.length_append, List.length_singleton]
        omega
  | inner j =>
      obtain rfl : j = i := Option.some.inj hl
      have hmoves := (Moves.refl hc).inner true
      refine ⟨_, c, rfl, ⟨Moves.touches hmoves hc (Or.inl rfl) (Or.inl ⟨rfl, Iff.rfl⟩), Iff.rfl,
        ?_⟩, False.elim⟩
      have hnone : about j [.inner j] = [] := by simp [about, BoundEvent.conn?]
      simp only [about_append, hnone, List.append_nil]
      exact halive
  | create os | stop os | deliver os | setopt option | retry w | listenerTask
  | listenerIn answer => exact absurd hl (by simp [Label.conn?])

/-- A connection whose session is idle takes no step of its own while its usock has nothing to
do. -/
theorem not_enabled_of_idle (hc : s.conns i = some c) (hidle : c.session.Idle)
    (hquiet : s.events = [] → c.usock.usock.tasks = [] ∧ c.usock.usock.fd = false)
    (hl : l.conn? = some i) : ¬s.Enabled l := by
  intro hen
  cases l with
  | connWork j w =>
      obtain rfl : j = i := Option.some.inj hl
      obtain ⟨hempty, d, hd, -, hwaits, hfd⟩ := hen
      obtain rfl : c = d := Option.some.inj (hc.symm.trans hd)
      obtain ⟨htasks, hclosed⟩ := hquiet hempty
      rcases hfd with rfl | hfd
      · exact hwaits.1 htasks
      · exact absurd (hclosed.symm.trans hfd) (by simp)
  | session j u =>
      obtain rfl : j = i := Option.some.inj hl
      obtain ⟨-, -, -, d, hd, hholds⟩ := hen
      obtain rfl : c = d := Option.some.inj (hc.symm.trans hd)
      exact absurd (hidle.usock.symm.trans hholds) (by simp)
  | sessionError j =>
      obtain rfl : j = i := Option.some.inj hl
      obtain ⟨-, d, hd, hactive, -⟩ := hen
      obtain rfl : c = d := Option.some.inj (hc.symm.trans hd)
      exact absurd (hidle.fsm.symm.trans hactive) (by simp)
  | sessionStopped j =>
      obtain rfl : j = i := Option.some.inj hl
      obtain ⟨-, d, hd, hstopping⟩ := hen
      obtain rfl : c = d := Option.some.inj (hc.symm.trans hd)
      exact absurd (hidle.fsm.symm.trans hstopping) (by simp)
  | inner j =>
      obtain rfl : j = i := Option.some.inj hl
      obtain ⟨-, d, hd, hholds⟩ := hen
      obtain rfl : c = d := Option.some.inj (hc.symm.trans hd)
      exact absurd (hidle.usock.symm.trans hholds) (by simp)
  | create os | stop os | deliver os | setopt option | retry w | listenerTask
  | listenerIn answer => exact absurd hl (by simp [Label.conn?])

/-- A connection that has stopped takes no step. -/
theorem not_enabled_of_stopped (hc : s.conns i = some c)
    (hstopped : c.Stopped i (about i s.events)) (hl : l.conn? = some i) : ¬s.Enabled l := by
  refine not_enabled_of_idle hc hstopped.rests.session (fun hempty => ?_) hl
  have hqueue := hstopped.queue
  rw [hempty] at hqueue
  exact absurd hqueue (by simp)

/-- An event of its session or its usock is handed to a connection. -/
theorem alive_feed (T : ListenTransport α ρ) (os : ListenAnswers ρ) (hs : s.stat.Counts 0)
    (hc : s.conns i = some c) (hevents : s.events = e :: rest)
    (he : e.conn? = some i) (halive : c.Alive i (about i s.events))
    (hown : ∀ x, e ≠ .connection i x) :
    ∃ s' c', s.deliver T os = .ok s' ∧ Goes s s' i c c' ∧
      c'.weight + s'.events.length < c.weight + s.events.length := by
  have hcons : about i s.events = e :: about i rest := by rw [hevents, about_cons he]
  have hkid : e.Kid i := halive.kid (hcons ▸ List.mem_cons_self)
  rw [hcons] at halive
  have hdeliver : s.deliver T os = { s with events := rest }.feedConn T os i e := by
    unfold deliver
    simp only [hevents]
    cases e with
    | usock j x => rw [show j = i from hkid]
    | session j x => rw [show j = i from hkid]
    | connection j x => exact absurd (by rw [show j = i from hkid]) (hown x)
    | listener o x => exact hkid.elim
    | retry x => exact hkid.elim
    | inner j => exact hkid.elim
  have hpopped : ({ s with events := rest } : Bound α).conns i = some c := hc
  rw [hdeliver]
  unfold feedConn
  simp only [conn_eq hpopped, ok_bind]
  rcases halive with hruns | hends
  · have hnot : c.fsm ≠ .stopping := by simp [hruns.fsm]
    obtain ⟨s', c', new, hcall, hmoves, hruns', hload⟩ :=
      connHandler_spec os hpopped hs rfl hruns hown
    have hiff : c'.fsm = .active ↔ c.fsm = .active := by simp [hruns.fsm, hruns'.fsm]
    refine ⟨s', c', by rw [if_neg hnot, hcall], ⟨Moves.touches hmoves hc
      (Or.inr ⟨e, he, hevents⟩) (Or.inl ⟨rfl, hiff⟩), hiff, Or.inl ?_⟩, ?_⟩
    · rwa [hmoves.about_self]
    · simp only [hmoves.events, hevents, List.length_append, List.length_cons]
      omega
  · obtain ⟨hstopping, s', c', new, hcall, hmoves, hends', hload⟩ :=
      connShutdown_spec (T := T) hpopped rfl hends hown
    have hiff : c'.fsm = .active ↔ c.fsm = .active := by simp [hends.fsm, hends'.fsm]
    refine ⟨s', c', by rw [if_pos hstopping, hcall], ⟨Moves.touches hmoves hc
      (Or.inr ⟨e, he, hevents⟩) (Or.inl ⟨rfl, hiff⟩), hiff, Or.inr ?_⟩, ?_⟩
    · rwa [hmoves.about_self]
    · simp only [hmoves.events, hevents, List.length_append, List.length_cons]
      omega

/-! ## Accepting -/

/-- A step in the course of which the usock of the connection `a` is being accepted. -/
structure Grows (s s' : Bound α) (a : Nat) (c' : Accepted) (answer : AcceptAnswer) : Prop where
  eq : ∃ l new given, s' = { s.setConn a (some c') with
      usock := l
      events := s.events ++ new
      accepted := s.accepted ++ descriptors answer
      given := s.given ++ given } ∧
    (∀ e ∈ new, e.conn? = some a) ∧ given.map Prod.fst = descriptors answer ∧
    given.map Prod.snd = (descriptors answer).map fun _ => a

variable {answer : AcceptAnswer}

theorem Grows.conn (h : Grows s s' a c' answer) : s'.conns a = some c' := by
  obtain ⟨l, new, given, rfl, -⟩ := h.eq
  exact setConn_self _

/-- What the connection was before makes no difference. -/
theorem Grows.rebase {d : Accepted} (h : Grows (s.setConn a (some d)) s' a c' answer)
    (d' c'' : Accepted) :
    Grows (s.setConn a (some d')) (s'.setConn a (some c'')) a c'' answer := by
  obtain ⟨l, new, given, rfl, hrest⟩ := h.eq
  refine ⟨l, new, given, ?_, hrest⟩
  simp only [setConn]
  congr 1
  funext k
  split <;> rfl

theorem Grows.of_set {d : Accepted} (h : Grows (s.setConn a (some d)) s' a c' answer) :
    Grows s s' a c' answer := by
  obtain ⟨l, new, given, rfl, hrest⟩ := h.eq
  refine ⟨l, new, given, ?_, hrest⟩
  simp only [setConn]
  congr 1
  funext k
  split <;> rfl

/-- Nothing changes but the listening usock. -/
theorem Grows.listener (h : s.conns a = some c) (l : Listener) (e : AcceptErrno) :
    Grows s { s with usock := l } a c (.error e) := by
  refine ⟨l, [], [], ?_, by simp, rfl, rfl⟩
  rw [setConn_same h]
  simp [descriptors]

theorem Core.grows (h : s.Core) (hg : Grows s s' a c' answer) (hc : s.conns a = some c)
    (hfsm : c'.fsm = c.fsm) (hgiven : a ∉ s.given.map Prod.snd) : s'.Core := by
  obtain ⟨l, new, given, rfl, hnew, hfst, hsnd⟩ := hg.eq
  have hin : a ∈ s.atcps ∨ s.atcp = some a := (h.allocated a).mp (by simp [hc])
  refine ⟨h.nodup, h.apart, fun j => ?_, fun e he j hj => ?_, h.counts, fun j d hd => ?_,
    fun j hj hnone => ?_, fun j hj => ?_, ?_, ?_⟩
  · by_cases hj : j = a
    · subst hj
      simp only [setConn_self, ne_eq, reduceCtorEq, not_false_eq_true, true_iff]
      exact hin
    · simp only [setConn, if_neg hj]
      exact h.allocated j
  · simp only [setConn]
    split
    · simp
    · rename_i hne
      rcases List.mem_append.mp he with hold | hmem
      · exact h.known e hold j hj
      · exact absurd (Option.some.inj (hj.symm.trans (hnew e hmem))) hne
  · by_cases hj : j = a
    · subst hj
      have hd' : c' = d := by simpa [setConn] using hd
      rw [← hd', hfsm]
      exact h.books j c hc
    · exact h.books j d (by simpa [setConn, hj] using hd)
  · have hne : j ≠ a := by
      rintro rfl
      exact absurd hnone (by simp [setConn])
    exact h.freed j hj (by simpa [setConn, hne] using hnone)
  · obtain ⟨hnone, hstop, hterm, hfree, hold⟩ := h.fresh j hj
    have hne : j ≠ a := by
      rintro rfl
      exact absurd (hnone.symm.trans hc) (by simp)
    refine ⟨by simpa [setConn, hne] using hnone, hstop, hterm, hfree, ?_⟩
    rw [List.map_append, List.mem_append, hsnd]
    rintro (hmem | hmem)
    · exact hold hmem
    · obtain ⟨-, -, heq⟩ := List.mem_map.mp hmem
      exact hne heq.symm
  · rw [List.map_append, hfst, h.matched]
  · rw [List.map_append, hsnd, List.nodup_append]
    refine ⟨h.once, ?_, ?_⟩
    · cases answer <;> simp [descriptors]
    · intro x hx y hy heq
      obtain ⟨-, -, rfl⟩ := List.mem_map.mp hy
      exact hgiven (heq ▸ hx)

theorem Kids.grows {P : Accepted → Nat → List BoundEvent → Prop} (h : s.Kids P)
    (hg : Grows s s' a c' answer) (ha : a ∉ s.atcps) : s'.Kids P := by
  obtain ⟨l, new, given, rfl, hnew, -⟩ := hg.eq
  intro j hj
  obtain ⟨d, hd, hP⟩ := h j hj
  have hne : j ≠ a := by
    rintro rfl
    exact ha hj
  have hnone : about j new = [] := by
    apply about_eq_nil
    intro e he hconn
    exact hne (Option.some.inj (hconn.symm.trans (hnew e he)))
  refine ⟨d, by simpa [setConn, hne] using hd, ?_⟩
  rwa [about_append, hnone, List.append_nil]

theorem Local.grows (h : s.Local) (hg : Grows s s' a c' answer) : s'.Local := by
  obtain ⟨l, new, given, rfl, hnew, -⟩ := hg.eq
  intro e he
  rcases List.mem_append.mp he with hold | hmem
  · exact h e hold
  · left
    simp [hnew e hmem]

/-- An event of the listening usock can be raised where none is queued. -/
theorem raise_listener {o : Owner} {x : UsockEvent} (h : ∀ o x, .listener o x ∉ s.events) :
    s.raise (.listener o x) = .ok { s with events := s.events ++ [.listener o x] } := by
  have hnew : (BoundEvent.listener o x).item ∉ s.events.map BoundEvent.item := by
    intro hmem
    obtain ⟨e, he, hitem⟩ := List.mem_map.mp hmem
    cases e with
    | listener o' x' => exact h o' x' he
    | usock j x' | session j x' | connection j x' | retry x' | inner j =>
        exact absurd hitem (by simp [BoundEvent.item])
  simp only [raise, raiseEvent_ok hnew, Site.call_ok, ok_bind, pure_eq_ok]

/-- `grid_usock_accept` in the course of an endpoint. -/
theorem accept_spec (h : s.conns a = some c) (hq : about a s.events = [])
    (hfree : ∀ o x, .listener o x ∉ s.events) (howner : s.owner = .connection a)
    (hgiven : a ∉ s.given.map Prod.snd)
    (hcall : (∃ p, c.usock.accept a s.usock false answer = .ok p ∧ p.Comes a answer) ∨
      answer = .error .other ∧ c.usock.accept a s.usock false answer = .error .errnum) :
    (∃ s' u, s.accept a answer = .ok s' ∧ Grows s s' a { c with usock := u } answer ∧
      s'.Stage a u) ∨
      answer = .error .other ∧ s.accept a answer = .error ⟨.accept, .errnum⟩ := by
  have hin : decide (BoundEvent.usock a .stopped ∈ s.events) = false := by
    rw [decide_eq_false_iff_not, usock_mem, hq]
    simp
  rcases hcall with ⟨p, hp, hcomes⟩ | ⟨hother, hp⟩
  · left
    simp only [accept, conn_eq h, ok_bind, hin, hp, Site.call_ok, setConn_owner, howner]
    rcases hcomes with ⟨x, rfl, hgot⟩ | ⟨⟨e, rfl⟩, hwaits | hfails⟩
    · -- the connection is there
      have hnew : (BoundEvent.usock a .accepted).item ∉ s.events.map BoundEvent.item :=
        item_of_kid (i := a) rfl (by simp [hq])
      simp only [hgot.event, hgot.given, Option.map_some, raise?, raise, setConn_events,
        reduceCtorEq, if_false, raiseEvent_ok hnew, Site.call_ok, ok_bind, pure_eq_ok]
      refine ⟨_, p.accepted, rfl, ⟨p.listener, [.usock a .accepted], [(x, a)], ?_, ?_, rfl, rfl⟩,
        Or.inr (Or.inr ⟨hgot.accepted, hgot.listener, hgot.asock, ?_⟩)⟩
      · simp [howner]
      · simp [BoundEvent.conn?]
      · simp only [about_append, hq]
        simp [about, BoundEvent.conn?]
    · -- the worker waits for it
      simp only [hwaits.event, hwaits.given, Option.map_none, raise?]
      refine ⟨_, p.accepted, rfl, ⟨p.listener, [], [], ?_, by simp, rfl, rfl⟩,
        Or.inl ⟨hwaits.accepted, hwaits.listener, hq, ?_⟩⟩
      · simp [descriptors, howner]
      · simpa using hgiven
    · -- a resource error
      simp only [hfails.event, hfails.given, Option.map_some, Option.map_none, raise?, if_true]
      rw [raise_listener]
      swap
      · exact hfree
      refine ⟨_, p.accepted, rfl, ⟨p.listener, [.listener (.connection a) .acceptError], [], ?_,
        ?_, rfl, rfl⟩, Or.inr (Or.inl ⟨hfails.accepted, hfails.listener, ?_, ?_⟩)⟩
      · simp [descriptors, howner]
      · simp [BoundEvent.conn?]
      · simp only [setConn_events, about_append, hq]
        simp [about, BoundEvent.conn?]
      · simpa using hgiven
  · refine Or.inr ⟨hother, ?_⟩
    simp only [accept, conn_eq h, ok_bind, hin, hp, Site.call_error]
    rfl

/-- A connection is allocated. -/
theorem Core.alloc (h : s.Core) (hatcp : s.atcp = none) (o : Owner) {d : Accepted}
    (hd : d.fsm = .active) :
    (({ s with
      atcp := some s.nextConn
      nextConn := s.nextConn + 1
      owner := o } : Bound α).setConn s.nextConn (some d)).Core := by
  obtain ⟨hnone, hstop, hterm, hfree, hgiven⟩ := h.fresh s.nextConn (Nat.le_refl _)
  have hout : s.nextConn ∉ s.atcps := by
    intro hmem
    exact (h.allocated s.nextConn).mpr (Or.inl hmem) hnone
  refine ⟨h.nodup, fun a ha => ?_, fun j => ?_, fun e he j hj => ?_, h.counts, fun j c hc => ?_,
    fun j hj hj' => ?_, fun j hj => ?_, h.matched, h.once⟩
  · obtain rfl := Option.some.inj ha
    exact hout
  · by_cases hj : j = s.nextConn
    · simp [setConn, hj]
    · have hold := h.allocated j
      rw [hatcp] at hold
      have hne : s.nextConn ≠ j := fun heq => hj heq.symm
      simp only [setConn, if_neg hj, hold, Option.some.injEq, reduceCtorEq, hne]
  · simp only [setConn]
    split
    · simp
    · exact h.known e he j hj
  · by_cases hj : j = s.nextConn
    · have hc' : d = c := by simpa [setConn, hj] using hc
      rw [← hc', if_pos hd, hj]
      exact ⟨List.count_eq_zero.mpr hstop, hterm, hfree⟩
    · exact h.books j c (by simpa [setConn, hj] using hc)
  · have hne : j ≠ s.nextConn := by
      rintro rfl
      exact absurd hj' (by simp [setConn])
    have hj'' : j < s.nextConn + 1 := hj
    exact h.freed j (by omega) (by simpa [setConn, hne] using hj')
  · have hj' : s.nextConn + 1 ≤ j := hj
    have hne : j ≠ s.nextConn := by omega
    obtain ⟨hnone', hrest⟩ := h.fresh j (by omega)
    exact ⟨by simpa [setConn, hne] using hnone', hrest⟩

/-- What a step leaves alone that has to do with connections only. -/
structure Stays (s s' : Bound α) : Prop where
  fsm : s'.fsm = s.fsm
  state : s'.state = s.state
  created : s'.created = s.created
  reports : s'.reports = s.reports
  retry : s'.retry = s.retry

/-- `grid_btcp_start_accepting`. -/
theorem startAccepting_spec (h : s.Core) (hatcp : s.atcp = none) (hl : s.usock.Listening)
    (hasock : s.usock.asock = none) (howner : s.owner = .endpoint) (hlocal : s.Local)
    (hfree : ∀ o x, .listener o x ∉ s.events) (hretry : s.retry.timer.Quiet)
    (hkids : s.Kids Accepted.Tended) (answer : AcceptAnswer) :
    (∃ s' n, s.startAccepting answer = .ok s' ∧ s'.Core ∧ Stays s s' ∧
      { s' with fsm := .active, state := .active }.Active n) ∨
      answer = .error .other ∧ s.startAccepting answer = .error ⟨.accept, .errnum⟩ := by
  obtain ⟨hnone, -, -, -, hgiven⟩ := h.fresh s.nextConn (Nat.le_refl _)
  have hq : about s.nextConn s.events = [] := by
    apply about_eq_nil
    intro e he hconn
    exact h.known e he _ hconn hnone
  have hin : BoundEvent.connection s.nextConn .stopped ∉ s.events := by
    rw [connection_mem, hq]
    simp
  have hout : s.nextConn ∉ s.atcps := by
    intro hmem
    exact (h.allocated s.nextConn).mpr (Or.inl hmem) hnone
  -- the state in which the new connection calls `grid_usock_accept`
  let b : Bound α := { s with
    atcp := some s.nextConn
    nextConn := s.nextConn + 1
    owner := .connection s.nextConn }
  let d : Accepted := { listener := true, listenerOwner := some .endpoint }
  have hstart : s.startAccepting answer = ((b.setConn s.nextConn (some d)).accept s.nextConn
      answer) >>= fun self => do
        let c ← self.conn s.nextConn
        return self.setConn s.nextConn (some { c with state := .accepting, fsm := .active }) := by
    have hfirst : s.allocate.conn s.nextConn = .ok {} := conn_eq (by simp [allocate])
    have hset : s.allocate.lendListener s.nextConn {} = b.setConn s.nextConn (some d) := by
      simp only [allocate, lendListener, setConn, b, d, howner]
      congr 1
      funext k
      split <;> rfl
    have hidle : (b.setConn s.nextConn (some d)).connIsIdle s.nextConn {} = true := by
      simp [connIsIdle, b, hin]
    simp only [startAccepting, gridAssert_pos hatcp, Site.call_ok, ok_bind, startConn, hfirst,
      hset, gridAssert_pos hidle, gridAssert_pos]
  have hcall := AcceptedUsock.accept_listening hl hasock s.nextConn answer
  rcases accept_spec (s := b.setConn s.nextConn (some d)) (setConn_self _) hq hfree rfl hgiven
    hcall with ⟨s₁, u, hs₁, hgrows, hstage⟩ | ⟨hother, herror⟩
  · left
    have hlast := hgrows.rebase { d with usock := u, state := .accepting, fsm := .active }
      { d with usock := u, state := .accepting, fsm := .active }
    have hcore := (h.alloc hatcp (.connection s.nextConn) rfl).grows hlast (setConn_self _) rfl
      hgiven
    have hfrom : Grows b (s₁.setConn s.nextConn
        (some { d with usock := u, state := .accepting, fsm := .active })) s.nextConn
        { d with usock := u, state := .accepting, fsm := .active } answer := hlast.of_set
    have hkids' : Kids Accepted.Tended (s₁.setConn s.nextConn
        (some { d with usock := u, state := .accepting, fsm := .active })) :=
      Kids.grows (s := b) hkids hfrom hout
    have hlocal' : Local (s₁.setConn s.nextConn
        (some { d with usock := u, state := .accepting, fsm := .active })) :=
      Local.grows (s := b) hlocal hfrom
    obtain ⟨l, new, given, heq, -⟩ := hfrom.eq
    refine ⟨_, s.nextConn, ?_, hcore, ?_, ⟨rfl, rfl, ?_, hlocal', ?_, hkids', ?_⟩⟩
    · rw [hstart, hs₁, ok_bind, conn_eq hgrows.conn]
      rfl
    · rw [heq]
      exact ⟨rfl, rfl, rfl, rfl, rfl⟩
    · rw [heq]
      rfl
    · rw [heq]
      exact hretry
    · refine ⟨_, setConn_self _, rfl, Or.inl ⟨rfl, ⟨rfl, rfl⟩, rfl, rfl, ?_, hstage⟩⟩
      rw [heq]
      rfl
  · exact Or.inr ⟨hother, by rw [hstart, herror]; rfl⟩

/-! ## Listening -/

/-- Nothing is going on. -/
structure Resting (s : Bound α) : Prop where
  events : s.events = []
  alone : s.Alone
  deaf : s.Deaf
  asock : s.usock.asock = none
  retry : s.retry.timer.Quiet

/-- What the listening brings about. -/
structure Listens (s s' : Bound α) : Prop where
  core : s'.Core
  fsm : s'.fsm = s.fsm
  created : s'.created = s.created
  reports : s'.reports = s.reports
  phase : Phase { s' with fsm := .active }

/-- The timer for the next attempt to listen is started. -/
theorem startRetry_spec (h : s.Core) (hr : s.Resting) :
    (∃ s', s.startRetry = .ok s' ∧ Listens s { s' with state := .waiting }) ∨
      s.retry.timeout < 0 ∧ ∃ e, s.startRetry = .error ⟨.other, e⟩ := by
  have hin : decide (BoundEvent.retry .stopped ∈ s.events) = false := by simp [hr.events]
  by_cases htime : 0 ≤ s.retry.timeout
  · left
    obtain ⟨b, hb, hwaiting⟩ := Backoff.start_spec hr.retry htime
    refine ⟨{ s with retry := b }, ?_, h.update, rfl, rfl, rfl,
      .waiting [] ⟨rfl, rfl, hr.events, ⟨hr.alone.atcp, hr.alone.atcps⟩,
        ⟨hr.deaf.usock, hr.deaf.owner⟩, hr.asock, hwaiting⟩⟩
    simp only [startRetry, hin, hb, Site.call_ok, ok_bind, pure_eq_ok]
  · right
    refine ⟨by omega, .assertion, ?_⟩
    have hstart : s.retry.start false = .error .assertion := by
      simp [Backoff.start, Timer.start, gridAssert, htime]
    simp only [startRetry, hin, hstart, Site.call_error]
    rfl

/-- A listening usock that waits for no connection is stopped. -/
theorem stopListener_spec (hfsm : s.usock.usock.fsm = .active)
    (hstate : s.usock.usock.state = .listening ∨ s.usock.usock.state = .starting)
    (htasks : s.usock.usock.tasks = []) (hpoll : s.usock.usock.pollIn = false)
    (hfree : ∀ o x, .listener o x ∉ s.events) :
    ∃ l, s.stopListener =
        .ok { s with usock := l, events := s.events ++ [.listener s.owner .stopped] } ∧
      l.Shut ∧ l.asock = s.usock.asock := by
  obtain ⟨l, hstop, hshut, hasock⟩ := Listener.stop_fresh hfsm hstate htasks hpoll
  refine ⟨l, ?_, hshut, hasock⟩
  simp only [stopListener, hstop, Site.call_ok, ok_bind, Option.map_some, raise?]
  rw [raise_listener]
  exact hfree

/-- An attempt to listen that fails when the usock was started. -/
theorem Resting.closing (h : s.Core) (hr : s.Resting) {u : Usock} (hfsm : u.fsm = .active)
    (hstate : u.state = .starting) (htasks : u.tasks = []) (hpoll : u.pollIn = false) :
    ∃ s', { s with usock := { s.usock with usock := u } }.stopListener = .ok s' ∧
      Listens s { s' with state := .closing } := by
  obtain ⟨l, hstop, hshut, hasock⟩ :=
    stopListener_spec (s := { s with usock := { s.usock with usock := u } }) hfsm (Or.inr hstate)
      htasks hpoll (by simp [hr.events])
  refine ⟨_, hstop, ?_, rfl, rfl, rfl, .closing ⟨rfl, rfl, ?_, ⟨hr.alone.atcp, hr.alone.atcps⟩,
    ⟨hshut, hr.deaf.owner⟩, hasock.trans hr.asock, hr.retry⟩⟩
  · refine Core.queue (s := { s with usock := l, state := .closing }) h.update ?_
    simp [hr.events, hr.deaf.owner, BoundEvent.conn?]
  · simp [hr.events, hr.deaf.owner]

/-- `grid_btcp_start_listening` where there is an address. -/
theorem listenAt_spec (os : ListenAnswers ρ) (h : s.Core) (hr : s.Resting) :
    (∃ s', s.listenAt os = .ok s' ∧ Listens s s') ∨
      (s.retry.timeout < 0 ∧ ∃ e, s.listenAt os = .error ⟨.other, e⟩) ∨
      os.accept = .error .other ∧ s.listenAt os = .error ⟨.accept, .errnum⟩ := by
  have hoff := hr.deaf.usock.usock
  have hin : s.listenerStopped = false := by simp [listenerStopped, hr.events]
  unfold listenAt
  rw [hin, hoff.start]
  cases hsocket : os.socket with
  | false =>
      simp only [Bool.false_eq_true, if_false, Site.call_ok, ok_bind, pure_eq_ok]
      rcases startRetry_spec h hr with ⟨s', hs', hlistens⟩ | ⟨htime, e, hs'⟩
      · exact Or.inl ⟨_, by rw [hs', ok_bind], hlistens⟩
      · exact Or.inr (Or.inl ⟨htime, e, by rw [hs']; rfl⟩)
  | true =>
      simp only [if_true, Site.call_ok, ok_bind, Usock.bind, gridAssert_pos, pure_eq_ok]
      cases hbind : os.bind with
      | false =>
          left
          obtain ⟨s', hstop, hlistens⟩ := Resting.closing h hr
            (u := { s.usock.usock with fd := true, state := .starting, fsm := .active })
            rfl rfl hr.deaf.usock.tasks hr.deaf.usock.pollIn
          exact ⟨_, by simp only [if_true, hstop, ok_bind], hlistens⟩
      | true =>
          simp only [Bool.true_eq_false, if_false, Listener.listen, gridAssert_pos, ok_bind]
          cases hlisten : os.listen with
          | false =>
              left
              obtain ⟨s', hstop, hlistens⟩ := Resting.closing h hr
                (u := { s.usock.usock with fd := true, state := .starting, fsm := .active })
                rfl rfl hr.deaf.usock.tasks hr.deaf.usock.pollIn
              exact ⟨_, by simp only [Bool.false_eq_true, if_false, pure_eq_ok, Site.call_ok,
                ok_bind, hstop], hlistens⟩
          | true =>
              simp only [if_true, Usock.action, reduceCtorEq, if_false, listenLeads, ok_bind,
                pure_eq_ok, Site.call_ok]
              have hcore : Core { s with usock := { s.usock with usock := { s.usock.usock with
                  fd := true, state := .listening, fsm := .active } } } := h.update
              rcases startAccepting_spec hcore hr.alone.atcp
                ⟨rfl, rfl, rfl, hr.deaf.usock.tasks, hr.deaf.usock.pollIn⟩ hr.asock
                hr.deaf.owner (by simp [Local, hr.events]) (by simp [hr.events]) hr.retry
                (Kids.nil hr.alone.atcps) os.accept with
                ⟨s', n, hs', hcore', hstays, hactive⟩ | ⟨hother, hs'⟩
              · left
                refine ⟨{ s' with state := .active }, by rw [hs', ok_bind], hcore'.update,
                  hstays.fsm, hstays.created, hstays.reports, .active n hactive⟩
              · exact Or.inr (Or.inr ⟨hother, by rw [hs']; rfl⟩)

/-- `grid_btcp_start_listening`. -/
theorem startListening_spec (os : ListenAnswers ρ) (h : s.Core) (hr : s.Resting) :
    (∃ s', s.startListening T os = .ok s' ∧ Listens s s') ∨
      (∃ x, T.resolve s.option os.prep = .error x ∧
        s.startListening T os = .error ⟨.address, x⟩) ∨
      (∃ x, T.prepare os.prep = .error x ∧ s.startListening T os = .error ⟨.other, x⟩) ∨
      (s.retry.timeout < 0 ∧ ∃ e, s.startListening T os = .error ⟨.other, e⟩) ∨
      os.accept = .error .other ∧ s.startListening T os = .error ⟨.accept, .errnum⟩ := by
  unfold startListening
  cases hresolve : T.resolve s.option os.prep with
  | error x => exact Or.inr (Or.inl ⟨x, rfl, rfl⟩)
  | ok u =>
      cases hprepare : T.prepare os.prep with
      | error x => exact Or.inr (Or.inr (Or.inl ⟨x, rfl, rfl⟩))
      | ok u' =>
          simp only [Site.call_ok, ok_bind]
          rcases listenAt_spec os h hr with hok | htime | hother
          · exact Or.inl hok
          · exact Or.inr (Or.inr (Or.inr (Or.inl htime)))
          · exact Or.inr (Or.inr (Or.inr (Or.inr hother)))

end Bound

end GridMq.Transports
