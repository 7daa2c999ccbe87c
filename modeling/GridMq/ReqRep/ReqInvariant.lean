import GridMq.ReqRep.Req
import GridMq.ReqRep.XreqInvariant

set_option autoImplicit false

/-!
# The joint invariant of a REQ socket

`Req.Inv` ties the state of the request machine to its timer, to the pipes and to
the events on their way.  The lemmas of this module say what the machine does
with each kind of event in a state that satisfies it.
-/

namespace GridMq.ReqRep

open GridMq.Core GridMq.Protocols GridMq.Aio

namespace Req

/-! ## The invariant -/

/-- No event of the timer is on its way. -/
def NoTimer (events : List Event) : Prop := ∀ e, Event.timer e ∉ events

/-- The event `e` of the timer is the next one to be delivered. -/
def Pending (events : List Event) (e : TimerEvent) : Prop :=
  ∃ rest, events = .timer e :: rest ∧ NoTimer rest

def TimerIdle (s : Req) : Prop := s.timer.Quiet ∧ NoTimer s.events

def TimerRunning (s : Req) : Prop :=
  s.timer.Running ∧ (NoTimer s.events ∨ Pending s.events .timeout)

def TimerStopping (s : Req) : Prop :=
  s.timer.Stopping ∧ NoTimer s.events ∨ s.timer.Quiet ∧ Pending s.events .stopped

/-- What the timer, `sent_to` and the load balancer are in each state. -/
def StateInv (s : Req) : Prop :=
  match s.state with
  | .passive | .done => TimerIdle s ∧ s.sentTo = none
  | .delayed => TimerIdle s ∧ s.sentTo = none ∧ s.xreq.lb.isActive = false
  | .active => TimerRunning s ∧ ∃ p, s.sentTo = some p ∧ s.xreq.pipes p ≠ none
  | .timedOut | .cancelling | .stoppingTimer => TimerStopping s ∧ s.sentTo = none
  | .idle | .stopping => False

/-- No pipe is attached and no event of one is on its way. -/
def NoPipes (s : Req) : Prop :=
  (∀ p, s.xreq.pipes p = none) ∧ ∀ p, .pipeIn p ∉ s.events ∧ .pipeOut p ∉ s.events

/-- The request machine along the life of the socket. -/
def MachineInv (s : Req) : Prop :=
  match s.sock with
  | .active | .stoppingEps => s.fsm = .active ∧ .sockStopped ∉ s.events ∧ StateInv s
  | .stopping => NoPipes s ∧ s.sentTo = none ∧
      (s.fsm = .stopping ∧ s.state = .stopping ∧ TimerStopping s ∧ .sockStopped ∉ s.events ∨
        s.fsm = .idle ∧ s.state = .idle ∧ TimerIdle s ∧ .sockStopped ∈ s.events)
  | .fini => NoPipes s ∧ s.sentTo = none ∧ s.state = .idle ∧
      TimerIdle s ∧ .sockStopped ∉ s.events

/-- The pipes, with the events that are on their way. -/
def NetInv (s : Req) : Prop :=
  s.xreq.Inv (decide (s.sock = .active)) s.sends (fun p => .pipeIn p ∈ s.events)
    (fun p => .pipeOut p ∈ s.events)

/-- The events that are queued at most once. -/
def isRaised : Event → Bool
  | .transport _ => false
  | _ => true

structure Inv (s : Req) : Prop where
  idLt : s.id < 2 ^ 32
  raised : (s.events.filter isRaised).Nodup
  net : NetInv s
  machine : MachineInv s
  request : s.sock ≠ .fini → s.request.isStale = false

/-- The part of the invariant that the state machine leaves alone until the socket is
stopped. -/
structure Open (s : Req) : Prop where
  sock : s.sock = .active ∨ s.sock = .stoppingEps
  fsm : s.fsm = .active
  noStop : .sockStopped ∉ s.events
  idLt : s.id < 2 ^ 32
  raised : (s.events.filter isRaised).Nodup
  request : s.request.isStale = false

/-- What the state machine leaves alone. -/
structure Frame (s s' : Req) : Prop where
  sock : s'.sock = s.sock
  fsm : s'.fsm = s.fsm
  id : s'.id = s.id
  request : s'.request = s.request
  reply : s'.reply = s.reply
  resendIvl : s'.resendIvl = s.resendIvl
  events : s'.events = s.events
  sends : s'.sends = s.sends
  misuse : s'.misuse = s.misuse
  attached : ∀ q, s'.xreq.pipes q = none ↔ s.xreq.pipes q = none

theorem Frame.refl (s : Req) : Frame s s :=
  ⟨rfl, rfl, rfl, rfl, rfl, rfl, rfl, rfl, rfl, fun _ => Iff.rfl⟩

/-- The states in which `task.reply` holds an accepted reply. -/
def HoldsReply (state : ReqState) : Prop := state = .stoppingTimer ∨ state = .done

/-- The state machine took an event: it is in order again, or the timer was started
with a negative interval. -/
def Took (s : Req) (x : Except Abort Req) (P : Req → Prop) : Prop :=
  (∃ s', x = .ok s' ∧ Frame s s' ∧ StateInv s' ∧ NetInv s' ∧ P s') ∨
    x = .error .assertion ∧ s.resendIvl < 0

/-! ## Assembling the invariant -/

theorem Inv.isOpen {s : Req} (h : Inv s) (hsock : s.sock = .active ∨ s.sock = .stoppingEps) :
    Open s ∧ StateInv s := by
  have hm := h.machine
  unfold MachineInv at hm
  have hreq : s.request.isStale = false := by
    refine h.request ?_
    rcases hsock with hs | hs <;> simp [hs]
  rcases hsock with hs | hs
  · simp only [hs] at hm
    exact ⟨⟨Or.inl hs, hm.1, hm.2.1, h.idLt, h.raised, hreq⟩, hm.2.2⟩
  · simp only [hs] at hm
    exact ⟨⟨Or.inr hs, hm.1, hm.2.1, h.idLt, h.raised, hreq⟩, hm.2.2⟩

theorem Open.inv {s : Req} (h : Open s) (hstate : StateInv s) (hnet : NetInv s) : Inv s where
  idLt := h.idLt
  raised := h.raised
  net := hnet
  machine := by
    unfold MachineInv
    rcases h.sock with hs | hs <;> simp only [hs] <;> exact ⟨h.fsm, h.noStop, hstate⟩
  request _ := h.request

theorem Open.frame {s s' : Req} (h : Open s) (hf : Frame s s') : Open s' where
  sock := by rw [hf.sock]; exact h.sock
  fsm := by rw [hf.fsm]; exact h.fsm
  noStop := by rw [hf.events]; exact h.noStop
  idLt := by rw [hf.id]; exact h.idLt
  raised := by rw [hf.events]; exact h.raised
  request := by rw [hf.request]; exact h.request

theorem raised_tail {e : Event} {rest : List Event}
    (h : ((e :: rest).filter isRaised).Nodup) : (rest.filter isRaised).Nodup :=
  h.sublist ((List.sublist_cons_self e rest).filter _)

theorem raised_push {e : Event} {events : List Event} (h : (events.filter isRaised).Nodup)
    (he : e ∉ events) : ((events ++ [e]).filter isRaised).Nodup := by
  rw [List.filter_append]
  refine h.append ((List.nodup_singleton e).filter _) ?_
  intro x hx hx'
  have hxe := List.mem_singleton.mp (List.mem_of_mem_filter hx')
  exact he (hxe ▸ List.mem_of_mem_filter hx)

/-- Another event is taken from the queue. -/
theorem Open.pop {s : Req} {e : Event} {rest : List Event} (h : Open s)
    (hev : s.events = e :: rest) : Open { s with events := rest } where
  sock := h.sock
  fsm := h.fsm
  noStop hmem := h.noStop (by rw [hev]; exact List.mem_cons_of_mem e hmem)
  idLt := h.idLt
  raised := raised_tail (hev ▸ h.raised)
  request := h.request

/-- An event is raised that is not in the queue. -/
theorem Open.raise {s : Req} {e : Event} (h : Open s) (he : e ∉ s.events)
    (hne : e ≠ .sockStopped) :
    s.raise e = .ok { s with events := s.events ++ [e] } ∧
      Open { s with events := s.events ++ [e] } := by
  refine ⟨by simp [Req.raise, he], h.sock, h.fsm, ?_, h.idLt, raised_push h.raised he, h.request⟩
  intro hmem
  rcases List.mem_append.mp hmem with hmem | hmem
  · exact h.noStop hmem
  · exact hne (List.mem_singleton.mp hmem).symm

/-! ## Events in the queue -/

theorem noTimer_nil : NoTimer [] := fun _ h => absurd h List.not_mem_nil

theorem NoTimer.append {events : List Event} {e : Event} (h : NoTimer events)
    (he : ∀ t, e ≠ .timer t) : NoTimer (events ++ [e]) := by
  intro t ht
  rcases List.mem_append.mp ht with ht | ht
  · exact h t ht
  · exact he t (List.mem_singleton.mp ht).symm

theorem Pending.append {events : List Event} {e : Event} {t : TimerEvent}
    (h : Pending events t) (he : ∀ t, e ≠ .timer t) : Pending (events ++ [e]) t := by
  obtain ⟨rest, rfl, hrest⟩ := h
  exact ⟨rest ++ [e], rfl, hrest.append he⟩

theorem NoTimer.tail {events : List Event} {e : Event} (h : NoTimer (e :: events)) :
    NoTimer events := fun t ht => h t (List.mem_cons_of_mem e ht)

/-- Before another event is delivered, none of the timer is pending. -/
theorem not_pending_cons {events : List Event} {e : Event} {t : TimerEvent}
    (he : ∀ t, e ≠ .timer t) : ¬ Pending (e :: events) t := by
  rintro ⟨rest, heq, -⟩
  exact he t (List.cons.inj heq).1

theorem not_pending_nil {t : TimerEvent} : ¬ Pending [] t := by
  rintro ⟨rest, heq, -⟩
  exact absurd heq (by simp)

theorem NetInv.congr {s s' : Req} (h : NetInv s) (hx : s'.xreq = s.xreq)
    (hsock : s'.sock = s.sock) (hsends : s'.sends = s.sends)
    (hin : ∀ p, .pipeIn p ∈ s'.events ↔ .pipeIn p ∈ s.events)
    (hout : ∀ p, .pipeOut p ∈ s'.events ↔ .pipeOut p ∈ s.events) : NetInv s' := by
  unfold NetInv at h ⊢
  rw [hx, hsock, hsends]
  exact h.congr hin hout

theorem stoppedActive_eq_false {s : Req} (h : NoTimer s.events) : s.stoppedActive = false := by
  simp [stoppedActive, h .stopped]

/-! ## Actions of the state machine -/

/-- Sending a request: it goes out and the timer is started, or there is no pipe
to send it to and it is delayed. -/
theorem actionSend_spec {s : Req} {allowDelay : Bool} (hnet : NetInv s) (htimer : TimerIdle s)
    (hsent : s.sentTo = none) (hreq : s.request.isStale = false)
    (hallow : allowDelay = false → s.xreq.lb.isActive = true) :
    Took s (s.actionSend allowDelay) fun s' => s'.state = .delayed ∨ s'.state = .active := by
  have hread : s.request.read = [] := by
    cases hr : s.request <;> simp [hr, Slot.read, Slot.isStale] at hreq ⊢
  have hmis : ({ s with misuse := s.misuse ++ s.request.read } : Req) = s := by
    rw [hread, List.append_nil]
  unfold actionSend
  simp only [hmis]
  rcases Xreq.sendTo_spec hnet (s.request.content {}) with ⟨hcall, hoff⟩ | ⟨x', p, hcall, hon, hinv,
    hp, hatt⟩
  · -- no pipe to send to
    have htrue : allowDelay = true := by
      cases allowDelay with
      | true => rfl
      | false => rw [hallow rfl] at hoff; exact absurd hoff (by simp)
    refine Or.inl ⟨{ s with state := .delayed }, ?_,
      ⟨rfl, rfl, rfl, rfl, rfl, rfl, rfl, rfl, rfl, fun _ => Iff.rfl⟩,
      ⟨htimer, hsent, hoff⟩, hnet, Or.inl rfl⟩
    simp [hcall, htrue, hread]
  · rw [hcall]
    simp only [ok_bind, stoppedActive_eq_false htimer.2]
    by_cases hivl : 0 ≤ s.resendIvl
    · obtain ⟨t', hstart, hrun⟩ := Timer.start_spec htimer.1 hivl
      refine Or.inl ⟨{ s with xreq := x', timer := t', sentTo := some p, state := .active }, ?_,
        ⟨rfl, rfl, rfl, rfl, rfl, rfl, rfl, rfl, rfl, hatt⟩,
        ⟨⟨hrun, Or.inl htimer.2⟩, p, rfl, hp⟩, hinv, Or.inr rfl⟩
      simp [hstart, hread]
    · refine Or.inr ⟨?_, by omega⟩
      simp [Timer.start, gridAssert, hivl]

/-- The three ways out of ACTIVE: the timer is told to stop. -/
theorem leaveActive_spec {s : Req} {state : ReqState} (hnet : NetInv s)
    (hrun : s.timer.Running) (hno : NoTimer s.events)
    (hstate : state = .timedOut ∨ state = .cancelling ∨ state = .stoppingTimer) :
    ∃ s', s.leaveActive state = .ok s' ∧ Frame s s' ∧ StateInv s' ∧ NetInv s' ∧
      s'.state = state := by
  obtain ⟨t', hstop, hstopping⟩ := Timer.stop_running hrun
  refine ⟨{ s with timer := t', sentTo := none, state := state }, ?_,
    ⟨rfl, rfl, rfl, rfl, rfl, rfl, rfl, rfl, rfl, fun _ => Iff.rfl⟩, ?_, hnet, rfl⟩
  · simp [leaveActive, hstop]
  · have hts : TimerStopping { s with timer := t', sentTo := none, state := state } :=
      Or.inl ⟨hstopping, hno⟩
    rcases hstate with rfl | rfl | rfl <;> exact ⟨hts, rfl⟩

/-- A new request of the user is taken in every state. -/
theorem feed_sent {s : Req} (hfsm : s.fsm = .active) (hstate : StateInv s) (hnet : NetInv s)
    (hno : s.events = []) (hreq : s.request.isStale = false) :
    Took s (s.action .sent) fun s' => ¬ HoldsReply s'.state := by
  have hnt : NoTimer s.events := hno ▸ noTimer_nil
  have hstop : TimerStopping s → s.timer.Stopping := by
    rintro (h | h)
    · exact h.1
    · exact absurd (hno ▸ h.2) not_pending_nil
  have hsend : TimerIdle s → s.sentTo = none →
      Took s (s.actionSend true) fun s' => ¬ HoldsReply s'.state := by
    intro ht hs
    refine (actionSend_spec hnet ht hs hreq (by simp)).imp_left ?_
    rintro ⟨s', h1, h2, h3, h4, h5⟩
    refine ⟨s', h1, h2, h3, h4, ?_⟩
    rcases h5 with h5 | h5 <;> simp [HoldsReply, h5]
  have hmove : TimerStopping s → s.sentTo = none →
      Took s (.ok { s with state := .cancelling }) fun s' => ¬ HoldsReply s'.state := by
    intro ht hs
    exact Or.inl ⟨_, rfl, ⟨rfl, rfl, rfl, rfl, rfl, rfl, rfl, rfl, rfl, fun _ => Iff.rfl⟩,
      ⟨Or.inl ⟨hstop ht, hnt⟩, hs⟩, hnet, by simp [HoldsReply]⟩
  unfold StateInv at hstate
  unfold action feed handler
  rw [if_neg (by simp [hfsm])]
  cases hst : s.state with
  | idle => simp only [hst] at hstate
  | stopping => simp only [hst] at hstate
  | passive =>
      simp only [hst] at hstate
      exact hsend hstate.1 hstate.2
  | done =>
      simp only [hst] at hstate
      exact hsend hstate.1 hstate.2
  | delayed =>
      simp only [hst] at hstate
      refine Or.inl ⟨s, rfl, Frame.refl s, ?_, hnet, by simp [HoldsReply, hst]⟩
      simpa only [StateInv, hst] using hstate
  | active =>
      simp only [hst] at hstate
      obtain ⟨s', h1, h2, h3, h4, h5⟩ :=
        @leaveActive_spec _ .cancelling hnet hstate.1.1 hnt (by simp)
      exact Or.inl ⟨s', h1, h2, h3, h4, by simp [HoldsReply, h5]⟩
  | timedOut =>
      simp only [hst] at hstate
      exact hmove hstate.1 hstate.2
  | cancelling =>
      simp only [hst] at hstate
      refine Or.inl ⟨s, rfl, Frame.refl s, ?_, hnet, by simp [HoldsReply, hst]⟩
      simpa only [StateInv, hst] using hstate
  | stoppingTimer =>
      simp only [hst] at hstate
      exact hmove hstate.1 hstate.2

/-- The events of the timer, each in a state that waits for it. -/
theorem feed_timer {s : Req} {e : TimerEvent} (hfsm : s.fsm = .active)
    (hstate : StateInv { s with events := .timer e :: s.events }) (hnet : NetInv s)
    (hreq : s.request.isStale = false) :
    Took s (s.feed (.resendTimer e)) fun s' => HoldsReply s'.state → HoldsReply s.state := by
  have hbusy : ¬ NoTimer (Event.timer e :: s.events) := fun h => h e (by simp)
  have hpend : ∀ {t}, Pending (.timer e :: s.events) t → t = e ∧ NoTimer s.events := by
    rintro t ⟨rest, heq, hrest⟩
    obtain ⟨h1, rfl⟩ := List.cons.inj heq
    exact ⟨(Event.timer.inj h1).symm, hrest⟩
  have hsend : s.timer.Quiet → NoTimer s.events → s.sentTo = none →
      Took s (s.actionSend true) fun s' => ¬ HoldsReply s'.state := by
    intro ht hno hs
    refine (actionSend_spec hnet ⟨ht, hno⟩ hs hreq (by simp)).imp_left ?_
    rintro ⟨s', h1, h2, h3, h4, h5⟩
    refine ⟨s', h1, h2, h3, h4, ?_⟩
    rcases h5 with h5 | h5 <;> simp [HoldsReply, h5]
  have hresend : ∀ state, s.timer.Quiet → NoTimer s.events → s.sentTo = none →
      Took s (s.actionSend true) fun s' => HoldsReply s'.state → HoldsReply state := by
    intro state ht hno hs
    refine (hsend ht hno hs).imp_left ?_
    rintro ⟨s', h1, h2, h3, h4, h5⟩
    exact ⟨s', h1, h2, h3, h4, fun h => absurd h h5⟩
  have hstopped : TimerStopping { s with events := .timer e :: s.events } →
      e = .stopped ∧ s.timer.Quiet ∧ NoTimer s.events := by
    rintro (h | h)
    · exact absurd h.2 hbusy
    · exact ⟨(hpend h.2).1.symm, h.1, (hpend h.2).2⟩
  unfold StateInv at hstate
  unfold feed handler
  rw [if_neg (by simp [hfsm])]
  cases hst : s.state with
  | idle => simp only [hst] at hstate
  | stopping => simp only [hst] at hstate
  | passive | done | delayed =>
      simp only [hst] at hstate
      exact absurd hstate.1.2 hbusy
  | active =>
      simp only [hst] at hstate
      obtain ⟨rfl, hno⟩ := hpend (hstate.1.2.resolve_left hbusy)
      obtain ⟨s', h1, h2, h3, h4, h5⟩ :=
        @leaveActive_spec _ .timedOut hnet hstate.1.1 hno (by simp)
      exact Or.inl ⟨s', h1, h2, h3, h4, by simp [HoldsReply, h5]⟩
  | timedOut | cancelling =>
      simp only [hst] at hstate
      obtain ⟨rfl, hq, hno⟩ := hstopped hstate.1
      exact hresend _ hq hno hstate.2
  | stoppingTimer =>
      simp only [hst] at hstate
      obtain ⟨rfl, hq, hno⟩ := hstopped hstate.1
      exact Or.inl ⟨_, rfl, ⟨rfl, rfl, rfl, rfl, rfl, rfl, rfl, rfl, rfl, fun _ => Iff.rfl⟩,
        ⟨⟨hq, hno⟩, hstate.2⟩, hnet, by simp [HoldsReply]⟩

/-- A pipe became writable while a request is delayed: it is sent. -/
theorem feed_out {s : Req} (hfsm : s.fsm = .active) (hst : s.state = .delayed)
    (htimer : TimerIdle s) (hsent : s.sentTo = none) (hnet : NetInv s)
    (hon : s.xreq.lb.isActive = true) (hreq : s.request.isStale = false) :
    Took s (s.action .out) fun s' => ¬ HoldsReply s'.state := by
  unfold action feed handler
  rw [if_neg (by simp [hfsm])]
  simp only [hst]
  refine (actionSend_spec hnet htimer hsent hreq (fun _ => hon)).imp_left ?_
  rintro ⟨s', h1, h2, h3, h4, h5⟩
  refine ⟨s', h1, h2, h3, h4, ?_⟩
  rcases h5 with h5 | h5 <;> simp [HoldsReply, h5]

/-- The pipe the request went to is gone: the request is sent again at once. -/
theorem feed_pipeRm {s : Req} (hfsm : s.fsm = .active) (hst : s.state = .active)
    (hrun : s.timer.Running) (hno : NoTimer s.events) (hnet : NetInv s) :
    ∃ s', s.action .pipeRm = .ok s' ∧ Frame s s' ∧ StateInv s' ∧ NetInv s' ∧
      s'.state = .timedOut := by
  unfold action feed handler
  rw [if_neg (by simp [hfsm])]
  simp only [hst]
  exact leaveActive_spec hnet hrun hno (by simp)

/-- The reply to the outstanding request has been accepted. -/
theorem feed_in {s : Req} (hfsm : s.fsm = .active) (hst : s.state = .active)
    (hrun : s.timer.Running) (hno : NoTimer s.events) (hnet : NetInv s) :
    ∃ s', s.action .in = .ok s' ∧ Frame s s' ∧ StateInv s' ∧ NetInv s' ∧
      s'.state = .stoppingTimer := by
  unfold action feed handler
  rw [if_neg (by simp [hfsm])]
  simp only [hst]
  exact leaveActive_spec hnet hrun hno (by simp)

end Req

end GridMq.ReqRep
