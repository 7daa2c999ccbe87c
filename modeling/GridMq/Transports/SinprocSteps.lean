import GridMq.Transports.SinprocFlow

set_option autoImplicit false

/-!
# What the calls and events of an inproc connection can do

One theorem for each of them, with all outcomes that do not abort the process.
-/

namespace GridMq.Transports

open GridMq.Aio GridMq.Core

/-- The session has neither lost its peer nor been stopped. -/
def Sinproc.Connected (s : Sinproc) : Prop :=
  s.state = .connecting ∨ s.state = .ready ∨ s.state = .active

/-- A session that is connected afterwards was so before, and was not asked to stop. -/
def Sinproc.Stays (s s' : Sinproc) : Prop := s'.Connected → s.Connected ∧ s'.fsm = s.fsm

theorem Sinproc.Stays.same {s s' : Sinproc} (hstate : s'.state = s.state)
    (hfsm : s'.fsm = s.fsm) : s.Stays s' := by
  intro h
  rw [Connected, hstate] at h
  exact ⟨h, hfsm⟩

theorem Sinproc.Stays.gone {s s' : Sinproc} (h : ¬s'.Connected) : s.Stays s' :=
  fun hconn => absurd hconn h

theorem Sinproc.Stays.trans {s s' s'' : Sinproc} (h : s.Stays s') (h' : s'.Stays s'') :
    s.Stays s'' := by
  intro hconn
  obtain ⟨hmiddle, hfsm⟩ := h' hconn
  obtain ⟨hbefore, hfsm'⟩ := h hmiddle
  exact ⟨hbefore, hfsm.trans hfsm'⟩

theorem Link.setEnd_stays {link : Link} {x : Side} {s : Sinproc} (h : (link.ends x).Stays s)
    (y : Side) : (link.ends y).Stays ((link.setEnd x s).ends y) := by
  rw [Link.setEnd_ends]
  split
  · rename_i hy
    rw [hy]
    exact h
  · exact .same rfl rfl

/-- A session that has changed only in its flags, its queue or its message. -/
def Sinproc.SamePhase (s s' : Sinproc) : Prop := s'.state = s.state ∧ s'.peer = s.peer

theorem Link.setEnd_samePhase {link : Link} {x : Side} {s : Sinproc}
    (h : (link.ends x).SamePhase s) (y : Side) :
    (link.ends y).SamePhase ((link.setEnd x s).ends y) := by
  rw [Link.setEnd_ends]
  split
  · rename_i hy
    rw [hy]
    exact h
  · exact ⟨rfl, rfl⟩

theorem Link.setEnds_samePhase {link : Link} {x : Side} {s s' : Sinproc}
    (h : (link.ends x).SamePhase s) (h' : (link.ends x.peer).SamePhase s') (y : Side) :
    (link.ends y).SamePhase (((link.setEnd x s).setEnd x.peer s').ends y) := by
  rw [Link.setEnd_ends]
  split
  · rename_i hy
    rw [hy]
    exact h'
  · exact Link.setEnd_samePhase h y

theorem Link.setEnds_stays {link : Link} {x : Side} {s s' : Sinproc}
    (h : (link.ends x).Stays s) (h' : (link.ends x.peer).Stays s') (y : Side) :
    (link.ends y).Stays (((link.setEnd x s).setEnd x.peer s').ends y) := by
  rw [Link.setEnd_ends]
  split
  · rename_i hy
    rw [hy]
    exact h'
  · exact Link.setEnd_stays h y

namespace Sinproc

variable {x : Side} {self self' : Pipe Link} {msg : Msg}

theorem send_cases (h : send x self msg = .ok self') :
    (self.session.ends x).state = .active ∧ (self.session.ends x).sending = false ∧
      self' = { self with
        session := (self.session.setEnd x
          { self.session.ends x with msg := exposed msg, sending := true }).withNotice
            x.peer .sent true } := by
  unfold send at h
  simp only at h
  split at h
  · exact absurd h (by simp)
  · obtain ⟨_, hactive, h⟩ := bind_eq_ok_iff.mp h
    obtain ⟨_, hquiet, h⟩ := bind_eq_ok_iff.mp h
    split at h
    · exact absurd h (by simp)
    · obtain ⟨link, hraise, h⟩ := bind_eq_ok_iff.mp h
      obtain ⟨-, rfl⟩ := Link.raiseNotice_eq_ok.mp hraise
      refine ⟨gridAssert_eq_ok_iff.mp hactive, gridAssert_eq_ok_iff.mp hquiet, ?_⟩
      exact (Except.ok.inj h).symm

/-- The lingering message is left alone, refused once more, or moved and answered. -/
theorem retry_cases {link link' : Link} (h : retry x link = .ok link') :
    (link' = link ∧ ((link.ends x).state = .disconnected ∨ (link.ends x).receiving = false)) ∨
      ((link.ends x).receiving = true ∧ link' = link ∧
        (link.ends x).msgqueue.send (link.ends x.peer).msg = none) ∨
      ∃ q, (link.ends x).receiving = true ∧
        (link.ends x).msgqueue.send (link.ends x.peer).msg = some q ∧
        link' = ((link.setEnd x { link.ends x with msgqueue := q, receiving := false }).setEnd
          x.peer { link.ends x.peer with msg := {} }).withNotice x.peer .received true := by
  unfold retry at h
  simp only at h
  split at h
  · rename_i hcond
    split at h
    · exact absurd h (by simp)
    · cases hsend : (link.ends x).msgqueue.send (link.ends x.peer).msg with
      | none =>
          rw [hsend] at h
          exact Or.inr (Or.inl ⟨hcond.2, (Except.ok.inj h).symm, rfl⟩)
      | some q =>
          rw [hsend] at h
          obtain ⟨-, rfl⟩ := Link.raiseNotice_eq_ok.mp h
          exact Or.inr (Or.inr ⟨q, hcond.2, rfl, rfl⟩)
  · rename_i hcond
    refine Or.inl ⟨(Except.ok.inj h).symm, ?_⟩
    by_cases hdisc : (link.ends x).state = .disconnected
    · exact Or.inl hdisc
    · exact Or.inr (by simpa [hdisc] using hcond)

theorem recv_cases (hin : self.instate = .receiving) (h : recv x self = .ok (self', msg)) :
    ((self.session.ends x).state = .active ∨ (self.session.ends x).state = .disconnected) ∧
      ∃ q link, (self.session.ends x).msgqueue.recv = .ok (some (msg, q)) ∧
        retry x (self.session.setEnd x { self.session.ends x with msgqueue := q }) = .ok link ∧
        self' = { self with
          session := link
          instate := if (link.ends x).msgqueue.empty then .receiving else .received } := by
  unfold recv at h
  obtain ⟨_, hstate, h⟩ := bind_eq_ok_iff.mp h
  obtain ⟨taken, htaken, h⟩ := bind_eq_ok_iff.mp h
  refine ⟨gridAssert_eq_ok_iff.mp hstate, ?_⟩
  cases taken with
  | none => exact absurd h (by simp)
  | some taken =>
      obtain ⟨m, q⟩ := taken
      obtain ⟨link, hretry, h⟩ := bind_eq_ok_iff.mp h
      simp only at h
      split at h
      · rename_i hempty
        obtain ⟨rfl, rfl⟩ : { self with session := link } = self' ∧ m = msg := by
          simpa using h
        refine ⟨q, link, htaken, hretry, ?_⟩
        rw [if_pos hempty, ← hin]
      · rename_i hempty
        obtain ⟨⟨p, raised⟩, hreceived, h⟩ := bind_eq_ok_iff.mp h
        obtain ⟨rfl, rfl⟩ : p = self' ∧ m = msg := by simpa using h
        refine ⟨q, link, htaken, hretry, ?_⟩
        rcases Pipe.received_eq_ok.mp hreceived with ⟨-, rfl, -⟩ | ⟨hasync, -, -⟩
        · rw [if_neg hempty]
        · exact absurd (hin.symm.trans hasync) (by simp)

end Sinproc

namespace Pair

variable {x : Side} {self self' : Pair} {msg : Msg} {refused : Bool} {e : PeerEvent}

/-- The pipe of a side in other states. -/
def withStates (self : Pair) (x : Side) (instate : InState) (outstate : OutState) : Pair :=
  { self with
    pipe := fun y =>
      if y = x then { self.pipe x with instate := instate, outstate := outstate }
      else self.pipe y }

theorem send_cases (h : self.send x msg = .ok self') :
    (self.pipe x).outstate = .idle ∧ (self.link.ends x).state = .active ∧
      (self.link.ends x).sending = false ∧
      self' = { self.withStates x (self.pipe x).instate .async with
        link := (self.link.setEnd x
          { self.link.ends x with msg := exposed msg, sending := true }).withNotice
            x.peer .sent true } := by
  obtain ⟨⟨p, release⟩, hsend, h⟩ := bind_eq_ok_iff.mp h
  obtain ⟨hidle, p', hvfptr, hdone⟩ := Pipe.send_cases hsend
  obtain ⟨hactive, hquiet, rfl⟩ := Sinproc.send_cases hvfptr
  refine ⟨hidle, hactive, hquiet, ?_⟩
  rcases hdone with ⟨hsent, -, -⟩ | ⟨-, rfl, -⟩
  · exact absurd hsent (by simp)
  · exact (Except.ok.inj h).symm

theorem recv_cases (h : self.recv x = .ok (self', msg)) :
    (self.pipe x).instate = .idle ∧
      ((self.link.ends x).state = .active ∨ (self.link.ends x).state = .disconnected) ∧
      ∃ q link, (self.link.ends x).msgqueue.recv = .ok (some (msg, q)) ∧
        Sinproc.retry x (self.link.setEnd x { self.link.ends x with msgqueue := q }) = .ok link ∧
        self' = { self.withStates x (if (link.ends x).msgqueue.empty then .async else .idle)
            (self.pipe x).outstate with link := link } := by
  obtain ⟨⟨p, m, release⟩, hrecv, h⟩ := bind_eq_ok_iff.mp h
  obtain ⟨hidle, p', hvfptr, hdone⟩ := Pipe.recv_cases hrecv
  obtain ⟨hstate, q, link, htaken, hretry, rfl⟩ := Sinproc.recv_cases rfl hvfptr
  obtain ⟨rfl, rfl⟩ : self.withPipebase x p = self' ∧ m = msg := by simpa using h
  refine ⟨hidle, hstate, q, link, htaken, hretry, ?_⟩
  rcases hdone with ⟨hreceived, rfl, -⟩ | ⟨hreceiving, rfl, -⟩
  · have hfull : ¬(link.ends x).msgqueue.empty = true := by
      intro hempty
      exact absurd hreceived (by simp [hempty])
    simp only [if_neg hfull]
    rfl
  · have hempty : (link.ends x).msgqueue.empty = true := by
      by_contra hfull
      exact absurd hreceiving (by simp [hfull])
    simp only [if_pos hempty]
    rfl

/-- The pipe is started in its socket. -/
def started (self : Pair) (x : Side) : Pair :=
  { self.withStates x .async .idle with added := fun y => if y = x then true else self.added y }

theorem startPipe_cases (h : self.startPipe x refused = .ok self') : self' = self.started x := by
  unfold startPipe at h
  split at h
  · exact absurd h (by simp)
  · exact (Except.ok.inj h).symm

/-- What the handler does with an event from the peer. -/
inductive Handled (self : Pair) (x : Side) : PeerEvent → Pair → Prop where
  | ready (hstate : (self.link.ends x).state = .connecting) :
      Handled self x (.handshake .ready) { self.started x with
        link := (self.link.setEnd x
          { self.link.ends x with peer := true, state := .active }).withHandshake
            x.peer (some .accepted) }
  | accepted (hstate : (self.link.ends x).state = .ready) (k : Handshake) :
      Handled self x (.handshake k) { self.started x with
        link := self.link.setEnd x { self.link.ends x with state := .active } }
  | full (hstate : (self.link.ends x).state = .active)
      (hsend : (self.link.ends x).msgqueue.send (self.link.ends x.peer).msg = none) :
      Handled self x (.notice .sent) { self with
        link := self.link.setEnd x { self.link.ends x with receiving := true } }
  | queued (hstate : (self.link.ends x).state = .active) {q : Msgqueue} {instate : InState}
      (hsend : (self.link.ends x).msgqueue.send (self.link.ends x.peer).msg = some q)
      (hpipe : (self.link.ends x).msgqueue.empty = false ∧ instate = (self.pipe x).instate ∨
        (self.link.ends x).msgqueue.empty = true ∧
          ((self.pipe x).instate = .receiving ∧ instate = .received ∨
            (self.pipe x).instate = .async ∧ instate = .idle)) :
      Handled self x (.notice .sent) { self.withStates x instate (self.pipe x).outstate with
        link := ((self.link.setEnd x { self.link.ends x with msgqueue := q }).setEnd x.peer
          { self.link.ends x.peer with msg := {} }).withNotice x.peer .received true }
  | acknowledged (hstate : (self.link.ends x).state = .active)
      (hsending : (self.link.ends x).sending = true) {outstate : OutState}
      (hpipe : (self.pipe x).outstate = .sending ∧ outstate = .sent ∨
        (self.pipe x).outstate = .async ∧ outstate = .idle) :
      Handled self x (.notice .received) { self.withStates x (self.pipe x).instate outstate with
        link := self.link.setEnd x { self.link.ends x with sending := false } }
  | disconnected (hstate : (self.link.ends x).state = .active) :
      Handled self x (.notice .disconnect) { self.stopPipe x with
        link := (self.link.withNotice x.peer .disconnect true).setEnd x
          { self.link.ends x with state := .disconnected, peer := false } }
  | ignored (hstate : (self.link.ends x).state = .disconnected) :
      Handled self x (.notice .received) self

theorem withStates_self (self : Pair) (x : Side) :
    self.withStates x (self.pipe x).instate (self.pipe x).outstate = self := by
  have hpipe : (fun y => if y = x then self.pipe x else self.pipe y) = self.pipe := by
    funext y
    split
    · rename_i hy
      rw [hy]
    · rfl
  unfold withStates
  exact congrArg (fun f => { self with pipe := f }) hpipe

theorem handled (h : self.handler x refused e = .ok self') : Handled self x e self' := by
  unfold handler at h
  simp only at h
  split at h
  · exact absurd h (by simp)
  · rename_i hstate
    split at h
    · obtain ⟨p, hstart, h⟩ := bind_eq_ok_iff.mp h
      obtain rfl := startPipe_cases hstart
      obtain ⟨link, hraise, h⟩ := bind_eq_ok_iff.mp h
      obtain ⟨-, rfl⟩ := Link.raiseHandshake_eq_ok.mp hraise
      obtain rfl := Except.ok.inj h
      have hready := Handled.ready hstate
      simp only [Pair.setEnd, started, withStates, Link.setEnd_setEnd, Link.setEnd_ends_self]
      exact hready
    · exact absurd h (by simp)
  · rename_i hstate
    split at h
    · obtain ⟨p, hstart, h⟩ := bind_eq_ok_iff.mp h
      obtain rfl := startPipe_cases hstart
      obtain rfl := Except.ok.inj h
      exact .accepted hstate _
    · exact absurd h (by simp)
  · rename_i hstate
    split at h
    · -- SENT
      split at h
      · exact absurd h (by simp)
      · split at h
        · rename_i hsend
          obtain rfl := Except.ok.inj h
          exact .full hstate hsend
        · rename_i q hsend
          split at h
          · rename_i hempty
            obtain ⟨⟨p, raised⟩, hreceived, h⟩ := bind_eq_ok_iff.mp h
            obtain ⟨_, hpipe, h⟩ := bind_eq_ok_iff.mp h
            obtain rfl := Except.ok.inj hpipe
            obtain ⟨link, hraise, h⟩ := bind_eq_ok_iff.mp h
            obtain ⟨-, rfl⟩ := Link.raiseNotice_eq_ok.mp hraise
            obtain rfl := Except.ok.inj h
            rcases Pipe.received_eq_ok.mp hreceived with ⟨hin, rfl, -⟩ | ⟨hin, rfl, -⟩
            · exact .queued hstate hsend (Or.inr ⟨hempty, Or.inl ⟨hin, rfl⟩⟩)
            · exact .queued hstate hsend (Or.inr ⟨hempty, Or.inr ⟨hin, rfl⟩⟩)
          · rename_i hempty
            obtain ⟨_, hpipe, h⟩ := bind_eq_ok_iff.mp h
            obtain rfl := Except.ok.inj hpipe
            obtain ⟨link, hraise, h⟩ := bind_eq_ok_iff.mp h
            obtain ⟨-, rfl⟩ := Link.raiseNotice_eq_ok.mp hraise
            obtain rfl := Except.ok.inj h
            have hq := Handled.queued hstate hsend (Or.inl ⟨by simpa using hempty, rfl⟩)
            rw [withStates_self] at hq
            exact hq
    · -- RECEIVED
      obtain ⟨_, hsending, h⟩ := bind_eq_ok_iff.mp h
      obtain ⟨⟨p, raised⟩, hsent, h⟩ := bind_eq_ok_iff.mp h
      obtain rfl := Except.ok.inj h
      have hsending' := gridAssert_eq_ok_iff.mp hsending
      rcases Pipe.sent_eq_ok.mp hsent with ⟨hout, rfl, -⟩ | ⟨hout, rfl, -⟩
      · exact .acknowledged hstate hsending' (Or.inl ⟨hout, rfl⟩)
      · exact .acknowledged hstate hsending' (Or.inr ⟨hout, rfl⟩)
    · -- DISCONNECT
      split at h
      · exact absurd h (by simp)
      · obtain ⟨p, hp, h⟩ := bind_eq_ok_iff.mp h
        obtain ⟨link, hraise, hp⟩ := bind_eq_ok_iff.mp hp
        obtain ⟨-, rfl⟩ := Link.raiseNotice_eq_ok.mp hraise
        obtain rfl := Except.ok.inj hp
        obtain rfl := Except.ok.inj h
        exact .disconnected hstate
    · exact absurd h (by simp)
  · rename_i hstate
    split at h
    · obtain rfl := Except.ok.inj h
      exact .ignored hstate
    · exact absurd h (by simp)
  · exact absurd h (by simp)
  · exact absurd h (by simp)

/-! ## Sessions that stay connected -/

theorem finish_cases (h : self.finish x = .ok self') :
    self' = self ∨ (self.link.ends x).state = .stopping ∧
      self' = self.setEnd x { self.link.ends x with fsm := .idle } := by
  unfold finish at h
  simp only at h
  split at h
  · exact Or.inl (Except.ok.inj h).symm
  · rename_i hstate
    split at h
    · exact Or.inl (Except.ok.inj h).symm
    · obtain ⟨_, -, h⟩ := bind_eq_ok_iff.mp h
      obtain ⟨_, -, h⟩ := bind_eq_ok_iff.mp h
      exact Or.inr ⟨not_not.mp hstate, (Except.ok.inj h).symm⟩

theorem finish_stays (h : self.finish x = .ok self') (y : Side) :
    (self.link.ends y).Stays (self'.link.ends y) := by
  rcases finish_cases h with rfl | ⟨hstate, rfl⟩
  · exact .same rfl rfl
  · exact Link.setEnd_stays (.gone (by simp [Sinproc.Connected, hstate])) y

/-- A session that is made to stop is connected no more, whatever `finish` does then. -/
theorem setEnd_finish_stays {s : Sinproc} (hs : ¬s.Connected)
    (h : (self.setEnd x s).finish x = .ok self') (y : Side) :
    (self.link.ends y).Stays (self'.link.ends y) :=
  (Link.setEnd_stays (.gone hs) y).trans (finish_stays h y)

theorem shutdown_stays (h : self.shutdown x e = .ok self') (y : Side) :
    (self.link.ends y).Stays (self'.link.ends y) := by
  unfold shutdown at h
  simp only at h
  split at h
  · exact finish_stays h y
  · split at h
    · split at h
      · exact setEnd_finish_stays (by simp [Sinproc.Connected]) h y
      · exact absurd h (by simp)
    · exact absurd h (by simp)

theorem stop_stays (h : self.stop x = .ok self') (y : Side) :
    (self.link.ends y).Stays (self'.link.ends y) := by
  unfold stop at h
  simp only at h
  split at h
  · obtain rfl := Except.ok.inj h
    exact .same rfl rfl
  · split at h
    · split at h
      · exact absurd h (by simp)
      · obtain ⟨p, hp, h⟩ := bind_eq_ok_iff.mp h
        obtain ⟨link, hraise, hp⟩ := bind_eq_ok_iff.mp hp
        obtain ⟨-, rfl⟩ := Link.raiseNotice_eq_ok.mp hraise
        obtain rfl := Except.ok.inj hp
        exact setEnd_finish_stays (by simp [Sinproc.Connected]) h y
    · exact setEnd_finish_stays (by simp [Sinproc.Connected]) h y

/-- A session that is asked to stop is connected no more. -/
theorem stop_gone (h : self.stop x = .ok self') (hfsm : (self.link.ends x).fsm = .active) :
    ¬(self'.link.ends x).Connected := by
  have hgone : ∀ {pair : Pair} {s : Sinproc}, ¬s.Connected →
      (pair.setEnd x s).finish x = .ok self' → ¬(self'.link.ends x).Connected := by
    intro pair s hs hfinish hconn
    obtain ⟨hmiddle, -⟩ := finish_stays hfinish x hconn
    rw [setEnd, Link.setEnd_ends_self] at hmiddle
    exact hs hmiddle
  unfold stop at h
  simp only at h
  rw [if_neg (by simp [hfsm])] at h
  split at h
  · split at h
    · exact absurd h (by simp)
    · obtain ⟨p, -, h⟩ := bind_eq_ok_iff.mp h
      exact hgone (by simp [Sinproc.Connected]) h
  · exact hgone (by simp [Sinproc.Connected]) h

theorem handled_stays (h : Handled self x e self') (y : Side) :
    (self.link.ends y).Stays (self'.link.ends y) := by
  cases h with
  | ready hstate =>
      simp only [Link.withHandshake_ends]
      apply Link.setEnd_stays
      intro _
      exact ⟨Or.inl hstate, rfl⟩
  | accepted hstate k =>
      apply Link.setEnd_stays
      intro _
      exact ⟨Or.inr (Or.inl hstate), rfl⟩
  | full hstate hsend =>
      apply Link.setEnd_stays
      exact .same rfl rfl
  | queued hstate hsend hpipe =>
      simp only [Link.withNotice_ends]
      apply Link.setEnds_stays
      · exact .same rfl rfl
      · exact .same rfl rfl
  | acknowledged hstate hsending hpipe =>
      apply Link.setEnd_stays
      exact .same rfl rfl
  | disconnected hstate =>
      have hgone : (self.link.ends x).Stays
          { self.link.ends x with state := .disconnected, peer := false } :=
        .gone (by simp [Sinproc.Connected])
      exact Link.setEnd_stays hgone y
  | ignored hstate => exact .same rfl rfl

theorem feed_stays (h : self.feed x refused e = .ok self') (y : Side) :
    (self.link.ends y).Stays (self'.link.ends y) := by
  unfold feed at h
  simp only at h
  have hends : ∀ z, ({ self with link := self.link.arrived x e } : Pair).link.ends z =
      self.link.ends z := fun z => by rw [Link.arrived_ends]
  split at h
  · have hstays := shutdown_stays h y
    rw [hends] at hstays
    exact hstays
  · have hstays := handled_stays (handled h) y
    rw [hends] at hstays
    exact hstays

theorem send_stays (h : self.send x msg = .ok self') (y : Side) :
    (self.link.ends y).Stays (self'.link.ends y) := by
  obtain ⟨-, -, -, rfl⟩ := send_cases h
  simp only [Link.withNotice_ends]
  apply Link.setEnd_stays
  exact .same rfl rfl

theorem retry_stays {link link' : Link} (h : Sinproc.retry x link = .ok link') (y : Side) :
    (link.ends y).Stays (link'.ends y) := by
  rcases Sinproc.retry_cases h with ⟨rfl, -⟩ | ⟨-, rfl, -⟩ | ⟨q, -, -, rfl⟩
  · exact .same rfl rfl
  · exact .same rfl rfl
  · simp only [Link.withNotice_ends]
    apply Link.setEnds_stays
    · exact .same rfl rfl
    · exact .same rfl rfl

theorem recv_stays (h : self.recv x = .ok (self', msg)) (y : Side) :
    (self.link.ends y).Stays (self'.link.ends y) := by
  obtain ⟨-, -, q, link, -, hretry, rfl⟩ := recv_cases h
  have htaken : (self.link.ends x).Stays { self.link.ends x with msgqueue := q } := .same rfl rfl
  exact (Link.setEnd_stays htaken y).trans (retry_stays hretry y)

end Pair

end GridMq.Transports
