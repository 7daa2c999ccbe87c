import GridMq.ReqRep.ReqSteps
import GridMq.Survey.Surveyor
import GridMq.Survey.XsurveyorInvariant

set_option autoImplicit false

/-!
# What a step of a SURVEYOR socket does

`Surveyor.Inv` ties the state of the survey machine to its timer, to the pipes and to the
events on their way.  `Surveyor.step_spec` says for every step that can be taken that it
does not abort, that the invariant is kept, and what became of the survey.  Three steps may
abort: the start of the timer with a negative deadline, a survey that comes with a header,
and the delivery of an event of a removed pipe.
-/

namespace GridMq.Survey

open GridMq.Core GridMq.Protocols GridMq.Aio GridMq.ReqRep
open GridMq.ReqRep.Req (NoTimer Pending isRaised)

namespace Surveyor

/-! ## The invariant -/

def TimerIdle (s : Surveyor) : Prop := s.timer.Quiet ∧ NoTimer s.events

def TimerRunning (s : Surveyor) : Prop :=
  s.timer.Running ∧ (NoTimer s.events ∨ Pending s.events .timeout)

def TimerStopping (s : Surveyor) : Prop :=
  s.timer.Stopping ∧ NoTimer s.events ∨ s.timer.Quiet ∧ Pending s.events .stopped

/-- What the timer and the flag are in each state. -/
def StateInv (s : Surveyor) : Prop :=
  match s.state with
  | .passive => TimerIdle s
  | .active => TimerRunning s
  | .cancelling => TimerStopping s
  | .stoppingTimer => TimerStopping s ∧ s.timedout = true
  | .idle | .stopping => False

/-- The pipes, with the events that are on their way. -/
def NetInv (s : Surveyor) : Prop :=
  s.xsurveyor.Inv (fun p => .pipeIn p ∈ s.events) (fun p => .pipeOut p ∈ s.events)

structure Inv (s : Surveyor) : Prop where
  idLt : s.surveyid < 2 ^ 32
  raised : (s.events.filter isRaised).Nodup
  noStop : .sockStopped ∉ s.events
  net : NetInv s
  machine : StateInv s

/-- What the state machine leaves alone. -/
structure Frame (s s' : Surveyor) : Prop where
  surveyid : s'.surveyid = s.surveyid
  tosend : s'.tosend = s.tosend
  deadline : s'.deadline = s.deadline
  events : s'.events = s.events
  taken : s'.taken = s.taken
  handed : s'.handed = s.handed
  released : s'.released = s.released

theorem Frame.refl (s : Surveyor) : Frame s s := ⟨rfl, rfl, rfl, rfl, rfl, rfl, rfl⟩

/-- The state machine took an event: it is in order again, or the timer was started with a
negative deadline. -/
def Took (s : Surveyor) (x : Except Abort Surveyor) (P : Surveyor → Prop) : Prop :=
  (∃ s', x = .ok s' ∧ Frame s s' ∧ StateInv s' ∧ NetInv s' ∧ P s') ∨
    x = .error .assertion ∧ s.deadline < 0

variable {s s' : Surveyor}

theorem stoppedActive_eq_false (h : NoTimer s.events) : s.stoppedActive = false := by
  simp [stoppedActive, h .stopped]

/-- The timer's part of the invariant looks at the timer and at its events. -/
theorem StateInv.transfer (h : StateInv s) (hstate : s'.state = s.state)
    (htimer : s'.timer = s.timer) (htimedout : s'.timedout = s.timedout)
    (hno : NoTimer s.events → NoTimer s'.events)
    (hpend : ∀ t, Pending s.events t → Pending s'.events t) : StateInv s' := by
  have hstopping : TimerStopping s → TimerStopping s' := by
    intro hs
    refine hs.imp ?_ ?_
    · rintro ⟨h1, h2⟩
      exact ⟨htimer ▸ h1, hno h2⟩
    · rintro ⟨h1, h2⟩
      exact ⟨htimer ▸ h1, hpend _ h2⟩
  unfold StateInv at h ⊢
  rw [hstate]
  cases hst : s.state with
  | idle => simp only [hst] at h
  | stopping => simp only [hst] at h
  | passive =>
      simp only [hst] at h ⊢
      exact ⟨htimer ▸ h.1, hno h.2⟩
  | active =>
      simp only [hst] at h ⊢
      exact ⟨htimer ▸ h.1, h.2.imp hno (hpend _)⟩
  | cancelling =>
      simp only [hst] at h ⊢
      exact hstopping h
  | stoppingTimer =>
      simp only [hst] at h ⊢
      exact ⟨hstopping h.1, htimedout ▸ h.2⟩

/-- The states of an open socket. -/
theorem StateInv.state_cases (h : StateInv s) :
    s.state = .passive ∧ TimerIdle s ∨ s.state = .active ∧ TimerRunning s ∨
      s.state = .cancelling ∧ TimerStopping s ∨
        s.state = .stoppingTimer ∧ TimerStopping s ∧ s.timedout = true := by
  unfold StateInv at h
  cases hst : s.state with
  | idle => simp only [hst] at h
  | stopping => simp only [hst] at h
  | passive => exact Or.inl ⟨rfl, by simpa only [hst] using h⟩
  | active => exact Or.inr (Or.inl ⟨rfl, by simpa only [hst] using h⟩)
  | cancelling => exact Or.inr (Or.inr (Or.inl ⟨rfl, by simpa only [hst] using h⟩))
  | stoppingTimer => exact Or.inr (Or.inr (Or.inr ⟨rfl, by simpa only [hst] using h⟩))

theorem inprogress_eq_false_iff (h : StateInv s) :
    s.inprogress = false ↔ s.state = .passive := by
  unfold StateInv at h
  unfold inprogress
  cases hst : s.state <;> simp_all

/-! ## The state machine -/

/-- The survey goes out and the timer is started. -/
theorem launch_spec (hnet : NetInv s) (htimer : TimerIdle s) :
    Took s s.launch fun s' => s'.state = .active ∧ s'.timedout = s.timedout := by
  obtain ⟨x', hsend, hinv, -, -⟩ := Xsurveyor.send_spec hnet s.tosend
  have hoff := stoppedActive_eq_false (s := { s with xsurveyor := x' }) htimer.2
  by_cases hdeadline : 0 ≤ s.deadline
  · obtain ⟨t', hstart, hrun⟩ := Timer.start_spec htimer.1 hdeadline
    refine Or.inl ⟨{ s with xsurveyor := x', timer := t', state := .active }, ?_,
      ⟨rfl, rfl, rfl, rfl, rfl, rfl, rfl⟩, ⟨hrun, Or.inl htimer.2⟩, hinv, rfl, rfl⟩
    simp only [launch, resend, hsend, ok_bind, pure_eq_ok, hoff, hstart]
  · refine Or.inr ⟨?_, by omega⟩
    simp only [launch, resend, hsend, ok_bind, pure_eq_ok, hoff]
    simp [Timer.start, gridAssert, hdeadline]

/-- The user starts a survey while there is none. -/
theorem start_spec (hstate : StateInv s) (hnet : NetInv s) (hidle : s.inprogress = false) :
    Took s (s.handler (.action .start)) fun s' =>
      s'.state = .active ∧ s'.timedout = s.timedout := by
  have hst := (inprogress_eq_false_iff hstate).mp hidle
  have hcall : s.handler (.action .start) = s.launch := by
    simp only [handler, hst]
  rw [hcall]
  unfold StateInv at hstate
  simp only [hst] at hstate
  exact launch_spec hnet hstate

/-- The user starts a survey while there is another one. -/
theorem cancel_spec (hstate : StateInv s) (hnet : NetInv s) (hbusy : s.inprogress = true)
    (hev : s.events = []) :
    ∃ s', s.handler (.action .cancel) = .ok s' ∧ Frame s s' ∧ StateInv s' ∧ NetInv s' ∧
      s'.state = .cancelling ∧ s'.timedout = s.timedout := by
  have hno : NoTimer s.events := hev ▸ Req.noTimer_nil
  rcases hstate.state_cases with ⟨hst, -⟩ | ⟨hst, hrun⟩ | ⟨hst, -⟩ | ⟨hst, hstopping, -⟩
  · exact absurd hbusy (by simp [inprogress, hst])
  · obtain ⟨t', hstop, hstopping⟩ := Timer.stop_running hrun.1
    refine ⟨{ s with timer := t', state := .cancelling }, ?_,
      ⟨rfl, rfl, rfl, rfl, rfl, rfl, rfl⟩, Or.inl ⟨hstopping, hno⟩, hnet, rfl, rfl⟩
    simp only [handler, hst, hstop, ok_bind, pure_eq_ok]
  · refine ⟨s, ?_, Frame.refl s, hstate, hnet, hst, rfl⟩
    simp only [handler, hst]
  · refine ⟨{ s with state := .cancelling }, ?_, ⟨rfl, rfl, rfl, rfl, rfl, rfl, rfl⟩, hstopping,
      hnet, rfl, rfl⟩
    simp only [handler, hst]

/-- What an event of the timer does to the survey. -/
inductive Elapsed (s : Surveyor) (e : TimerEvent) (s' : Surveyor) : Prop where
  | expired (he : e = .timeout) (from_active : s.state = .active)
      (state : s'.state = .stoppingTimer) (timedout : s'.timedout = true)
  | resent (he : e = .stopped) (from_cancelling : s.state = .cancelling)
      (state : s'.state = .active) (timedout : s'.timedout = s.timedout)
  | ended (he : e = .stopped) (from_stopping : s.state = .stoppingTimer)
      (state : s'.state = .passive) (timedout : s'.timedout = s.timedout)

/-- The events of the timer, each in a state that waits for it. -/
theorem timer_spec {e : TimerEvent} {rest : List Event} (h : Inv s)
    (hev : s.events = .timer e :: rest) :
    Took { s with events := rest }
      (({ s with events := rest } : Surveyor).handler (.deadlineTimer e)) (Elapsed s e) := by
  have hbusy : ¬NoTimer s.events := by
    intro hno
    exact hno e (by rw [hev]; exact List.mem_cons_self)
  have hpend : ∀ {t}, Pending s.events t → t = e ∧ NoTimer rest := by
    rintro t ⟨rest', heq, hrest⟩
    rw [hev] at heq
    obtain ⟨h1, rfl⟩ := List.cons.inj heq
    exact ⟨(Event.timer.inj h1).symm, hrest⟩
  have hnet : NetInv { s with events := rest } := by
    refine h.net.congr (fun p => ?_) (fun p => ?_) <;> simp [hev]
  have hstopped : TimerStopping s → e = .stopped ∧ s.timer.Quiet ∧ NoTimer rest := by
    rintro (hs | hs)
    · exact absurd hs.2 hbusy
    · exact ⟨(hpend hs.2).1.symm, hs.1, (hpend hs.2).2⟩
  rcases h.machine.state_cases with ⟨-, hidle⟩ | ⟨hst, hrun⟩ | ⟨hst, hstop⟩ | ⟨hst, hstop, -⟩
  · exact absurd hidle.2 hbusy
  · obtain ⟨rfl, hno⟩ := hpend (hrun.2.resolve_left hbusy)
    obtain ⟨t', hcall, hstopping⟩ := Timer.stop_running hrun.1
    refine Or.inl ⟨{ s with
      events := rest, timer := t', state := .stoppingTimer, timedout := true }, ?_,
      ⟨rfl, rfl, rfl, rfl, rfl, rfl, rfl⟩, ⟨Or.inl ⟨hstopping, hno⟩, rfl⟩, hnet,
      .expired rfl hst rfl rfl⟩
    simp only [handler, hst, hcall, ok_bind, pure_eq_ok]
  · obtain ⟨rfl, hquiet, hno⟩ := hstopped hstop
    have hcall : ({ s with events := rest } : Surveyor).handler (.deadlineTimer .stopped) =
        ({ s with events := rest } : Surveyor).launch := by
      simp only [handler, hst]
    rw [hcall]
    refine (launch_spec hnet ⟨hquiet, hno⟩).imp_left ?_
    rintro ⟨s', h1, h2, h3, h4, h5, h6⟩
    exact ⟨s', h1, h2, h3, h4, .resent rfl hst h5 h6⟩
  · obtain ⟨rfl, hquiet, hno⟩ := hstopped hstop
    refine Or.inl ⟨{ s with events := rest, state := .passive }, ?_,
      ⟨rfl, rfl, rfl, rfl, rfl, rfl, rfl⟩, ⟨hquiet, hno⟩, hnet, .ended rfl hst rfl rfl⟩
    simp only [handler, hst]

/-! ## Effects -/

/-- The records of received messages are as they were. -/
structure SameLog (s s' : Surveyor) : Prop where
  taken : s'.taken = s.taken
  handed : s'.handed = s.handed
  released : s'.released = s.released

/-- The survey is as it was. -/
structure Keeps (s s' : Surveyor) : Prop where
  state : s'.state = s.state
  surveyid : s'.surveyid = s.surveyid
  timedout : s'.timedout = s.timedout

/-- The step does not concern the survey. -/
def Aside (s : Surveyor) (l : Label) : Prop :=
  (∀ msg, l ≠ .send msg) ∧ (∀ slot, l ≠ .recv slot) ∧
    (l = .deliver → ∀ e rest, s.events ≠ .timer e :: rest)

/-- What a receive gives while a survey is in progress. -/
def Received (s : Surveyor) (r : SurveyorResult) : Prop :=
  r = .again ∨ ∃ wire msg, r = .response wire msg ∧ wire = putl s.surveyid ++ msg.body ∧
    msg.sphdr = []

/-- What a step does to the survey. -/
inductive Effect (s : Surveyor) (l : Label) (r : SurveyorResult) (s' : Surveyor) : Prop where
  | keep (h : Keeps s s') (hl : Aside s l)
  | sent (msg : Msg) (hl : l = .send msg) (hr : r = .ok)
      (surveyid : s'.surveyid = nextId s.surveyid)
      (tosend : s'.tosend = { sphdr := putl (nextId s.surveyid), body := msg.body })
      (state : s'.state = .active ∨ s'.state = .cancelling) (timedout : s'.timedout = s.timedout)
  | elapsed (e : TimerEvent) (rest : List Event) (hl : l = .deliver)
      (hev : s.events = .timer e :: rest) (h : Elapsed s e s') (surveyid : s'.surveyid = s.surveyid)
  | refused (slot : Slot (List UInt8)) (hl : l = .recv slot) (idle : s.inprogress = false)
      (hr : r = if s.timedout then .timedout else .efsm) (state : s'.state = s.state)
      (surveyid : s'.surveyid = s.surveyid) (timedout : s'.timedout = false)
  | received (slot : Slot (List UInt8)) (hl : l = .recv slot) (busy : s.inprogress = true)
      (h : Keeps s s') (hr : Received s r)

/-- The next event is one of a pipe that was removed when it was in the queue. -/
def Dangling (s : Surveyor) (l : Label) : Prop :=
  l = .deliver ∧ ∃ p rest, s.xsurveyor.pipes p = none ∧
    (s.events = .pipeIn p :: rest ∨ s.events = .pipeOut p :: rest)

/-- The step is taken; otherwise it starts the timer with a negative deadline, follows a
removed pipe, or is given a survey with a header. -/
def Stepped (s : Surveyor) (l : Label) : Prop :=
  (∃ s' r, s.next l = .ok (s', r) ∧ Inv s' ∧ Effect s l r s' ∧
    ((∀ deadline, l ≠ .setDeadline deadline) → s'.deadline = s.deadline) ∧
    ((∀ slot, l ≠ .recv slot) → SameLog s s')) ∨
  s.next l = .error .assertion ∧ s.deadline < 0 ∨
  s.next l = .error .nullPointer ∧ Dangling s l ∨
  s.next l = .error .assertion ∧ ∃ msg, l = .send msg ∧ msg.sphdr ≠ []

/-! ## Reports of the transports -/

/-- A change of the pipes and the queue that the timer takes no part in. -/
def Aloof (s : Surveyor) (x : Except Abort Surveyor) : Prop :=
  ∃ x' events, x = .ok { s with xsurveyor := x', events := events } ∧
    Inv { s with xsurveyor := x', events := events }

/-- The pipes have changed, and maybe an event was raised. -/
theorem inv_pipes (h : Inv s) {x' : Xsurveyor}
    (hnet : x'.Inv (fun p => .pipeIn p ∈ s.events) (fun p => .pipeOut p ∈ s.events)) :
    Aloof s (.ok { s with xsurveyor := x' }) := by
  refine ⟨x', s.events, rfl, h.idLt, h.raised, h.noStop, hnet, ?_⟩
  exact h.machine.transfer rfl rfl rfl id (fun _ => id)

theorem inv_raise (h : Inv s) {x' : Xsurveyor} {e : Event} (hpipe : ∀ t, e ≠ .timer t)
    (hstop : e ≠ .sockStopped) (hnew : e ∉ s.events)
    (hnet : x'.Inv (fun p => .pipeIn p ∈ s.events ++ [e]) (fun p => .pipeOut p ∈ s.events ++ [e])) :
    Aloof s (({ s with xsurveyor := x' } : Surveyor).raise e) := by
  have hcall : ({ s with xsurveyor := x' } : Surveyor).raise e =
      .ok { s with xsurveyor := x', events := s.events ++ [e] } := by
    simp [raise, hnew]
  refine ⟨x', s.events ++ [e], hcall, h.idLt, Req.raised_push h.raised hnew, ?_, hnet, ?_⟩
  · intro hmem
    rcases List.mem_append.mp hmem with hmem | hmem
    · exact h.noStop hmem
    · exact hstop (List.mem_singleton.mp hmem).symm
  · exact h.machine.transfer rfl rfl rfl (fun hno => hno.append hpipe)
      (fun _ hpend => hpend.append hpipe)

theorem transportEvent_spec (e : TransportEvent) (h : Inv s) : Aloof s (s.transportEvent e) := by
  have hsame : Aloof s (.ok s) := inv_pipes h h.net
  cases e with
  | start p sndprio rcvprio =>
      simp only [transportEvent]
      split
      · rename_i hnew
        obtain ⟨x', hcall, hinv⟩ := Xsurveyor.add_spec sndprio.1 h.net
          (Option.isNone_iff_eq_none.mp hnew.1) hnew.2.1 rcvprio.2
        simp only [hcall, ok_bind]
        refine inv_raise h (by simp) (by simp) hnew.2.2 ?_
        exact hinv.congr (fun q => by simp) (fun q => Req.mem_push_pipeOut)
      · exact hsame
  | stop p =>
      simp only [transportEvent]
      split
      · rename_i hold
        obtain ⟨x', hcall, hinv, -, -⟩ := Xsurveyor.rm_spec h.net (Option.isSome_iff_ne_none.mp hold)
        simp only [hcall, ok_bind]
        exact inv_pipes h hinv
      · exact hsame
  | received p wire =>
      simp only [transportEvent]
      split
      · rename_i hold
        obtain ⟨x', raised, hcall, hnew, hinv, -⟩ :=
          Xsurveyor.receivedMsg_spec wire h.net (Option.isSome_iff_ne_none.mp hold)
        simp only [hcall, ok_bind]
        cases raised with
        | true =>
            refine inv_raise h (by simp) (by simp) (hnew rfl) ?_
            exact hinv.congr (fun q => by rw [Req.mem_push_pipeIn]; simp) (fun q => by simp)
        | false =>
            refine inv_pipes h ?_
            exact hinv.congr (fun q => by simp) (fun q => Iff.rfl)
      · exact hsame
  | sent p =>
      simp only [transportEvent]
      split
      · rename_i hasync
        obtain ⟨pipe, hpipe, hout⟩ := Option.map_eq_some_iff.mp hasync
        obtain ⟨x', hcall, hnew, hinv, -⟩ := Xsurveyor.sentMsg_spec h.net hpipe hout
        simp only [hcall, ok_bind]
        refine inv_raise h (by simp) (by simp) hnew ?_
        exact hinv.congr (fun q => by simp) (fun q => Req.mem_push_pipeOut)
      · exact hsame

/-! ## Delivering an event -/

/-- Another event than one of the timer is taken from the queue. -/
theorem inv_pop (h : Inv s) {e : Event} {rest : List Event} (hev : s.events = e :: rest)
    (htimer : ∀ t, e ≠ .timer t) {x' : Xsurveyor}
    (hnet : x'.Inv (fun p => .pipeIn p ∈ rest) (fun p => .pipeOut p ∈ rest)) :
    Inv { s with xsurveyor := x', events := rest } where
  idLt := h.idLt
  raised := Req.raised_tail (hev ▸ h.raised)
  noStop hmem := h.noStop (by rw [hev]; exact List.mem_cons_of_mem e hmem)
  net := hnet
  machine := by
    refine h.machine.transfer rfl rfl rfl ?_ ?_
    · intro hno
      rw [hev] at hno
      exact hno.tail
    · intro t hpend
      rw [hev] at hpend
      exact absurd hpend (Req.not_pending_cons htimer)

theorem aside_deliver {e : Event} {rest : List Event} (hev : s.events = e :: rest)
    (htimer : ∀ t, e ≠ .timer t) : Aside s .deliver := by
  refine ⟨by simp, by simp, ?_⟩
  intro _ t rest' heq
  rw [hev] at heq
  exact htimer t (List.cons.inj heq).1

/-- A delivery that is aloof of the survey. -/
theorem stepped_aloof {e : Event} {rest : List Event} (hev : s.events = e :: rest)
    (htimer : ∀ t, e ≠ .timer t)
    (hcall : Aloof s (({ s with events := rest } : Surveyor).deliver e)) : Stepped s .deliver := by
  obtain ⟨x', events, hcall, hinv⟩ := hcall
  refine Or.inl ⟨{ s with xsurveyor := x', events := events }, .none, ?_, hinv,
    .keep ⟨rfl, rfl, rfl⟩ (aside_deliver hev htimer), fun _ => rfl, fun _ => ⟨rfl, rfl, rfl⟩⟩
  simp only [next, hev, hcall, ok_bind, pure_eq_ok]

theorem deliver_spec (h : Inv s) (hne : s.events ≠ []) : Stepped s .deliver := by
  obtain ⟨e, rest, hev⟩ := List.exists_cons_of_ne_nil hne
  have hraised : ((e :: rest).filter isRaised).Nodup := hev ▸ h.raised
  cases e with
  | pipeIn p =>
      have hnew : .pipeIn p ∉ rest := Req.head_notMem rfl hraised
      by_cases hp : s.xsurveyor.pipes p = none
      · refine Or.inr (Or.inr (Or.inl ⟨?_, rfl, p, rest, hp, Or.inl hev⟩))
        simp [next, hev, deliver, Xsurveyor.xsurveyorIn, Xsurveyor.getPipe, hp]
      obtain ⟨x', hcall, hinv, -⟩ :=
        Xsurveyor.xsurveyorIn_spec h.net (by rw [hev]; exact List.mem_cons_self) hp
      refine stepped_aloof hev (by simp) ⟨x', rest, ?_, inv_pop h hev (by simp) ?_⟩
      · simp only [deliver, hcall, ok_bind, pure_eq_ok]
      · refine hinv.congr (fun q => ?_) (fun q => by simp [hev])
        rw [hev, List.mem_cons]
        constructor
        · intro hq
          exact ⟨Or.inr hq, fun heq => hnew (heq ▸ hq)⟩
        · rintro ⟨hq, hqp⟩
          exact hq.resolve_left (fun heq => hqp (Event.pipeIn.inj heq))
  | pipeOut p =>
      have hnew : .pipeOut p ∉ rest := Req.head_notMem rfl hraised
      by_cases hp : s.xsurveyor.pipes p = none
      · refine Or.inr (Or.inr (Or.inl ⟨?_, rfl, p, rest, hp, Or.inr hev⟩))
        simp [next, hev, deliver, Xsurveyor.xsurveyorOut, Xsurveyor.getPipe, hp]
      obtain ⟨x', hcall, hinv, -⟩ :=
        Xsurveyor.xsurveyorOut_spec h.net (by rw [hev]; exact List.mem_cons_self) hp
      refine stepped_aloof hev (by simp) ⟨x', rest, ?_, inv_pop h hev (by simp) ?_⟩
      · simp only [deliver, hcall, ok_bind, pure_eq_ok]
      · refine hinv.congr (fun q => by simp [hev]) (fun q => ?_)
        rw [hev, List.mem_cons]
        constructor
        · intro hq
          exact ⟨Or.inr hq, fun heq => hnew (heq ▸ hq)⟩
        · rintro ⟨hq, hqp⟩
          exact hq.resolve_left (fun heq => hqp (Event.pipeOut.inj heq))
  | timer t =>
      rcases timer_spec h hev with ⟨s', hcall, hframe, hstate, hnet, helapsed⟩ | ⟨hcall, hneg⟩
      · refine Or.inl ⟨s', .none, ?_, ?_, .elapsed t rest rfl hev helapsed hframe.surveyid,
          fun _ => hframe.deadline, fun _ => ⟨hframe.taken, hframe.handed, hframe.released⟩⟩
        · simp only [next, hev, deliver, hcall, ok_bind, pure_eq_ok]
        · refine ⟨by rw [hframe.surveyid]; exact h.idLt, ?_, ?_, hnet, hstate⟩
          · rw [hframe.events]
            exact Req.raised_tail hraised
          · rw [hframe.events]
            intro hmem
            exact h.noStop (by rw [hev]; exact List.mem_cons_of_mem _ hmem)
      · refine Or.inr (Or.inl ⟨?_, hneg⟩)
        simp only [next, hev, deliver, hcall]
        rfl
  | transport t =>
      have hpopped : Inv { s with events := rest } := inv_pop h hev (by simp) (by
        refine h.net.congr (fun q => ?_) (fun q => ?_) <;> simp [hev])
      obtain ⟨x', events, hcall, hinv⟩ := transportEvent_spec t hpopped
      exact stepped_aloof hev (by simp) ⟨x', events, hcall, hinv⟩
  | sockStopped => exact absurd (by rw [hev]; exact List.mem_cons_self) h.noStop

/-! ## Calls of the user -/

theorem nextId_lt (surveyid : Nat) : nextId surveyid < 2 ^ 32 :=
  setTopBit_lt (Nat.mod_lt _ (by decide))

/-- A survey is sent, in whatever state. -/
theorem send_spec (msg : Msg) (h : Inv s) (hev : s.events = []) : Stepped s (.send msg) := by
  by_cases hhdr : msg.sphdr = []
  swap
  · refine Or.inr (Or.inr (Or.inr ⟨?_, msg, rfl, hhdr⟩))
    simp [next, send, gridAssert, hhdr]
  -- the survey is stored before the state machine is told
  let s₁ : Surveyor := { s with
    surveyid := nextId s.surveyid
    tosend := { sphdr := putl (nextId s.surveyid), body := msg.body } }
  have hassert : gridAssert (msg.sphdr.length = 0) = .ok () := by
    rw [gridAssert_pos]
    rw [hhdr, List.length_nil]
  have hstate : StateInv s₁ := h.machine.transfer rfl rfl rfl id (fun _ => id)
  have hdone : ∀ s', Frame s₁ s' → StateInv s' → NetInv s' →
      s'.state = .active ∨ s'.state = .cancelling → s'.timedout = s.timedout →
      s.next (.send msg) = .ok (s', .ok) → Stepped s (.send msg) := by
    intro s' hframe hst hnet hstates htimedout hnext
    refine Or.inl ⟨s', .ok, hnext, ?_, .sent msg rfl rfl hframe.surveyid hframe.tosend hstates
      htimedout, fun _ => hframe.deadline, fun _ => ⟨hframe.taken, hframe.handed, hframe.released⟩⟩
    refine ⟨by rw [hframe.surveyid]; exact nextId_lt _, ?_, ?_, hnet, hst⟩
    · rw [hframe.events]
      exact h.raised
    · rw [hframe.events]
      exact h.noStop
  cases hbusy : s.inprogress with
  | true =>
      obtain ⟨s', hcall, hframe, hst, hnet, hstates, htimedout⟩ :=
        cancel_spec (s := s₁) hstate h.net hbusy hev
      refine hdone s' hframe hst hnet (Or.inr hstates) htimedout ?_
      have hprogress : s₁.inprogress = true := hbusy
      have hwritable : s₁.xsurveyor.events.2 = true := rfl
      change s.send msg = _
      unfold send
      simp only [hassert, ok_bind]
      rw [if_pos hprogress, if_neg (by rw [hwritable]; decide), hcall]
      rfl
  | false =>
      have hprogress : s₁.inprogress = false := hbusy
      have hsend : s.send msg = s₁.handler (.action .start) >>= fun s' => .ok (s', .ok) := by
        unfold send
        simp only [hassert, ok_bind]
        rw [if_neg (by rw [hprogress]; decide)]
        rfl
      rcases start_spec (s := s₁) hstate h.net hbusy with
        ⟨s', hcall, hframe, hst, hnet, hstates, htimedout⟩ | ⟨hcall, hneg⟩
      · refine hdone s' hframe hst hnet (Or.inl hstates) htimedout ?_
        change s.send msg = _
        rw [hsend, hcall]
        rfl
      · refine Or.inr (Or.inl ⟨?_, hneg⟩)
        change s.send msg = _
        rw [hsend, hcall]
        rfl

/-- Nothing is left on the pipes. -/
theorem recvLoop_none {n : Nat} {slot : Slot (List UInt8)} {x' : Xsurveyor}
    (hcall : s.xsurveyor.fqRecv = .ok (x', none)) :
    recvLoop (n + 1) s slot = .ok ({ s with xsurveyor := x' }, slot, .again) := by
  simp only [recvLoop, xsurveyorRecv, hcall, ok_bind, pure_eq_ok]

/-- A message that is too short is released, and the receive gives up. -/
theorem recvLoop_malformed {n : Nat} {slot : Slot (List UInt8)} {x' : Xsurveyor}
    {wire : List UInt8} (hcall : s.xsurveyor.fqRecv = .ok (x', some wire))
    (hsplit : xreqSplit wire = none) :
    recvLoop (n + 1) s slot = .ok ({ s with
      xsurveyor := x', taken := s.taken ++ [wire], released := s.released ++ [wire] },
      .stale wire, .again) := by
  simp only [recvLoop, xsurveyorRecv, hcall, ok_bind, pure_eq_ok, hsplit]

/-- A response to another survey is skipped where it is. -/
theorem recvLoop_other {n : Nat} {slot : Slot (List UInt8)} {x' : Xsurveyor} {wire : List UInt8}
    {msg : Msg} (hcall : s.xsurveyor.fqRecv = .ok (x', some wire))
    (hsplit : xreqSplit wire = some msg) (hid : getl msg.sphdr ≠ s.surveyid) :
    recvLoop (n + 1) s slot =
      recvLoop n { s with xsurveyor := x', taken := s.taken ++ [wire] } (.live wire) := by
  have hlen := (xreqSplit_eq_some hsplit).2
  simp only [recvLoop, xsurveyorRecv, hcall, ok_bind, pure_eq_ok, hsplit]
  rw [if_neg (by simp [hlen]), if_pos hid]

/-- A response to the survey is handed over. -/
theorem recvLoop_current {n : Nat} {slot : Slot (List UInt8)} {x' : Xsurveyor}
    {wire : List UInt8} {msg : Msg} (hcall : s.xsurveyor.fqRecv = .ok (x', some wire))
    (hsplit : xreqSplit wire = some msg) (hid : getl msg.sphdr = s.surveyid) :
    recvLoop (n + 1) s slot = .ok ({ s with
      xsurveyor := x', taken := s.taken ++ [wire], handed := s.handed ++ [wire] }, .live wire,
      .response wire { msg with sphdr := [] }) := by
  obtain ⟨hwire, hlen⟩ := xreqSplit_eq_some hsplit
  simp only [recvLoop, xsurveyorRecv, hcall, ok_bind, pure_eq_ok, hsplit]
  rw [if_neg (by simp [hlen]), if_neg (by simp [hid]), ← hwire]

/-- The loop of the receive changes the pipes and the records only, and comes to an end. -/
theorem recvLoop_spec (n : Nat) :
    ∀ {s : Surveyor} (slot : Slot (List UInt8)), NetInv s → s.xsurveyor.unread < n →
      ∃ s' slot' r x' taken handed released, recvLoop n s slot = .ok (s', slot', r) ∧
        s' = { s with
          xsurveyor := x', taken := taken, handed := handed, released := released } ∧
        NetInv s' ∧ Received s r := by
  induction n with
  | zero =>
      intro s slot _ hlt
      exact absurd hlt (Nat.not_lt_zero _)
  | succ n ih =>
      intro s slot hnet hlt
      rcases Xsurveyor.fqRecv_spec hnet with ⟨hcall, -⟩ | ⟨x', wire, hcall, hinv, hless, -⟩
      · exact ⟨_, _, _, s.xsurveyor, s.taken, s.handed, s.released, recvLoop_none hcall, rfl, hnet,
          Or.inl rfl⟩
      · cases hsplit : xreqSplit wire with
        | none =>
            exact ⟨_, _, _, x', s.taken ++ [wire], s.handed, s.released ++ [wire],
              recvLoop_malformed hcall hsplit, rfl, hinv, Or.inl rfl⟩
        | some msg =>
            obtain ⟨hwire, hlen⟩ := xreqSplit_eq_some hsplit
            by_cases hid : getl msg.sphdr = s.surveyid
            · refine ⟨_, _, _, x', s.taken ++ [wire], s.handed ++ [wire], s.released,
                recvLoop_current hcall hsplit hid, rfl, hinv, Or.inr ⟨_, _, rfl, ?_, rfl⟩⟩
              rw [← hid, putl_getl hlen]
              exact hwire
            · obtain ⟨s', slot', r, x'', taken, handed, released, hloop, hs', hnet', hr⟩ :=
                ih (s := { s with xsurveyor := x', taken := s.taken ++ [wire] })
                  (.live wire) hinv (by change x'.unread < n; omega)
              exact ⟨s', slot', r, x'', taken, handed, released,
                (recvLoop_other hcall hsplit hid).trans hloop, hs', hnet', hr⟩

theorem recv_spec (slot : Slot (List UInt8)) (h : Inv s) : Stepped s (.recv slot) := by
  cases hbusy : s.inprogress with
  | true =>
      obtain ⟨s', slot', r, x', taken, handed, released, hcall, hs', hnet, hr⟩ :=
        recvLoop_spec (s.xsurveyor.unread + 1) slot h.net (Nat.lt_succ_self _)
      refine Or.inl ⟨s', r, ?_, ?_, .received slot rfl hbusy ?_ hr, fun _ => ?_,
        fun hno => absurd rfl (hno slot)⟩
      · have hrecv : s.recv slot = .ok (s', slot', r) := by
          rw [recv, if_neg (by simp [hbusy]), hcall]
        simp only [next, hrecv, ok_bind, pure_eq_ok]
      · rw [hs'] at hnet ⊢
        exact ⟨h.idLt, h.raised, h.noStop, hnet, h.machine.transfer rfl rfl rfl id (fun _ => id)⟩
      · rw [hs']
        exact ⟨rfl, rfl, rfl⟩
      · rw [hs']
  | false =>
      cases htimedout : s.timedout with
      | true =>
          refine Or.inl ⟨{ s with timedout := false }, .timedout, ?_, ?_,
            .refused slot rfl hbusy (by simp [htimedout]) rfl rfl rfl, fun _ => rfl,
            fun _ => ⟨rfl, rfl, rfl⟩⟩
          · simp [next, recv, hbusy, htimedout]
          · refine ⟨h.idLt, h.raised, h.noStop, h.net, ?_⟩
            have hst := (inprogress_eq_false_iff h.machine).mp hbusy
            have hidle := h.machine
            unfold StateInv at hidle ⊢
            simp only [hst] at hidle ⊢
            exact hidle
      | false =>
          refine Or.inl ⟨s, .efsm, ?_, h, .refused slot rfl hbusy (by simp [htimedout]) rfl rfl
            htimedout, fun _ => rfl, fun _ => ⟨rfl, rfl, rfl⟩⟩
          simp [next, recv, hbusy, htimedout]

/-! ## The other steps -/

theorem notify_spec (e : TransportEvent) (h : Inv s) : Stepped s (.notify e) := by
  refine Or.inl ⟨{ s with events := s.events ++ [.transport e] }, .none, rfl, ?_,
    .keep ⟨rfl, rfl, rfl⟩ ⟨by simp, by simp, by simp⟩, fun _ => rfl, fun _ => ⟨rfl, rfl, rfl⟩⟩
  refine ⟨h.idLt, ?_, ?_, ?_, ?_⟩
  · rw [List.filter_append]
    simpa [isRaised] using h.raised
  · simpa using h.noStop
  · exact h.net.congr (fun p => by simp) (fun p => by simp)
  · exact h.machine.transfer rfl rfl rfl (fun hno => hno.append (by simp))
      (fun _ hpend => hpend.append (by simp))

theorem setDeadline_spec (deadline : Int) (h : Inv s) : Stepped s (.setDeadline deadline) := by
  refine Or.inl ⟨{ s with deadline := deadline }, .ok, rfl, ?_,
    .keep ⟨rfl, rfl, rfl⟩ ⟨by simp, by simp, by simp⟩, fun hno => absurd rfl (hno deadline),
    fun _ => ⟨rfl, rfl, rfl⟩⟩
  exact ⟨h.idLt, h.raised, h.noStop, h.net, h.machine.transfer rfl rfl rfl id (fun _ => id)⟩

/-! ## The worker -/

/-- Without events on their way the timer is as the state says. -/
theorem Inv.timer_cases (h : Inv s) (hev : s.events = []) :
    s.state = .passive ∧ s.timer.Quiet ∨ s.state = .active ∧ s.timer.Running ∨
      (s.state = .cancelling ∨ s.state = .stoppingTimer) ∧ s.timer.Stopping := by
  have hstop : TimerStopping s → s.timer.Stopping := by
    rintro (hs | hs)
    · exact hs.1
    · exact absurd (hev ▸ hs.2) Req.not_pending_nil
  rcases h.machine.state_cases with ⟨hst, hidle⟩ | ⟨hst, hrun⟩ | ⟨hst, hs⟩ | ⟨hst, hs, -⟩
  · exact Or.inl ⟨hst, hidle.1⟩
  · exact Or.inr (Or.inl ⟨hst, hrun.1⟩)
  · exact Or.inr (Or.inr ⟨Or.inl hst, hstop hs⟩)
  · exact Or.inr (Or.inr ⟨Or.inr hst, hstop hs⟩)

/-- The timer has moved on, with what it has to report. -/
theorem stepped_timer {l : Label} {r : Timer × Option TimerEvent} (h : Inv s)
    (hev : s.events = []) (hl : l = .workerTask ∨ l = .workerTimeout)
    (hnext : s.next l = s.raiseTimer r >>= fun s' => .ok (s', .none))
    (hmove : s.state = .active ∧ r.1.Running ∧ (r.2 = none ∨ r.2 = some .timeout) ∨
      (s.state = .cancelling ∨ s.state = .stoppingTimer) ∧
        (r.1.Stopping ∧ r.2 = none ∨ r.1.Quiet ∧ r.2 = some .stopped)) : Stepped s l := by
  obtain ⟨t', reported⟩ := r
  have hone : ∀ e, Pending [.timer e] e := fun e => ⟨[], rfl, Req.noTimer_nil⟩
  have hstate : ∀ events, events = (reported.map Event.timer).toList →
      StateInv { s with timer := t', events := events } := by
    rintro events rfl
    have hold := h.machine
    unfold StateInv at hold ⊢
    rcases hmove with ⟨hst, hrun, hr⟩ | ⟨hst, hr⟩
    · simp only [hst]
      refine ⟨hrun, ?_⟩
      rcases hr with hr | hr
      · simp only at hr
        rw [hr]
        exact Or.inl Req.noTimer_nil
      · simp only at hr
        rw [hr]
        exact Or.inr (hone _)
    · have hstopping : TimerStopping { s with
          timer := t', events := (reported.map Event.timer).toList } := by
        rcases hr with ⟨hs, hr⟩ | ⟨hq, hr⟩
        · simp only at hr
          rw [hr]
          exact Or.inl ⟨hs, Req.noTimer_nil⟩
        · simp only at hr
          rw [hr]
          exact Or.inr ⟨hq, hone _⟩
      rcases hst with hst | hst
      · simp only [hst]
        exact hstopping
      · simp only [hst] at hold ⊢
        exact ⟨hstopping, hold.2⟩
  have hpipe : ∀ e : Event, (∀ t, e ≠ .timer t) → e ∉ (reported.map Event.timer).toList := by
    intro e he hmem
    cases reported with
    | none => exact absurd hmem List.not_mem_nil
    | some t => exact he t (List.mem_singleton.mp hmem)
  refine Or.inl ⟨{ s with timer := t', events := (reported.map Event.timer).toList }, .none, ?_,
    ⟨h.idLt, ?_, hpipe _ (by simp), ?_, hstate _ rfl⟩, .keep ⟨rfl, rfl, rfl⟩ ?_, fun _ => rfl,
    fun _ => ⟨rfl, rfl, rfl⟩⟩
  · rw [hnext]
    cases reported with
    | none => simp [raiseTimer, hev]
    | some t => simp [raiseTimer, raise, hev]
  · cases reported with
    | none => exact List.nodup_nil
    | some t => exact List.Nodup.filter _ (List.nodup_singleton _)
  · refine h.net.congr (fun p => ?_) (fun p => ?_)
    · rw [hev]
      exact iff_of_false (hpipe _ (by simp)) List.not_mem_nil
    · rw [hev]
      exact iff_of_false (hpipe _ (by simp)) List.not_mem_nil
  · rcases hl with rfl | rfl <;> exact ⟨by simp, by simp, by simp⟩

/-- The worker executes a task of the timer. -/
theorem workerTask_spec (h : Inv s) (htasks : s.timer.tasks ≠ []) (hev : s.events = []) :
    Stepped s .workerTask := by
  rcases h.timer_cases hev with ⟨-, hq⟩ | ⟨hst, hr⟩ | ⟨hst, hs⟩
  · exact absurd hq.2.2.1 htasks
  · obtain ⟨t', hcall, hr'⟩ := Timer.runTask_running hr
    refine stepped_timer (r := (t', none)) h hev (Or.inl rfl) ?_ (Or.inl ⟨hst, hr', Or.inl rfl⟩)
    simp only [next, hcall, ok_bind, pure_eq_ok]
  · rcases Timer.runTask_stopping hs with ⟨t', hcall, hs'⟩ | ⟨t', hcall, hq'⟩
    · refine stepped_timer (r := (t', none)) h hev (Or.inl rfl) ?_
        (Or.inr ⟨hst, Or.inl ⟨hs', rfl⟩⟩)
      simp only [next, hcall, ok_bind, pure_eq_ok]
    · refine stepped_timer (r := (t', some .stopped)) h hev (Or.inl rfl) ?_
        (Or.inr ⟨hst, Or.inr ⟨hq', rfl⟩⟩)
      simp only [next, hcall, ok_bind, pure_eq_ok]

/-- The worker finds that the timer has expired. -/
theorem workerTimeout_spec (h : Inv s) (harmed : s.timer.armed = true) (hev : s.events = []) :
    Stepped s .workerTimeout := by
  rcases h.timer_cases hev with ⟨-, hq⟩ | ⟨hst, hr⟩ | ⟨hst, hs⟩
  · exact absurd (harmed.symm.trans hq.2.2.2) (by simp)
  · obtain ⟨t', hcall, hr'⟩ := Timer.expire_running hr harmed
    refine stepped_timer (r := (t', some .timeout)) h hev (Or.inr rfl) ?_
      (Or.inl ⟨hst, hr', Or.inr rfl⟩)
    simp only [next, hcall, ok_bind, pure_eq_ok]
  · obtain ⟨t', hcall, hs'⟩ := Timer.expire_stopping hs
    refine stepped_timer (r := (t', none)) h hev (Or.inr rfl) ?_ (Or.inr ⟨hst, Or.inl ⟨hs', rfl⟩⟩)
    simp only [next, hcall, ok_bind, pure_eq_ok]

/-- What every step does that can be taken. -/
theorem step_spec {l : Label} (h : Inv s) (hl : s.Enabled l) : Stepped s l := by
  cases l with
  | notify e => exact notify_spec e h
  | deliver => exact deliver_spec h hl
  | send msg => exact send_spec msg h hl
  | recv slot => exact recv_spec slot h
  | setDeadline deadline => exact setDeadline_spec deadline h
  | workerTask => exact workerTask_spec h hl.1 hl.2
  | workerTimeout => exact workerTimeout_spec h hl.1 hl.2

end Surveyor

end GridMq.Survey
