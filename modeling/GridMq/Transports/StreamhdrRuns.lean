import GridMq.Transports.Streamhdr

set_option autoImplicit false

/-!
# Runs of the exchange of protocol headers

What each state of the machine says of its timer, its usock and the queue, in the runs
whose steps are orderly.  No event ends the process in such a run, and the result that is
raised is right.
-/

namespace GridMq.Transports

open GridMq.Aio GridMq.Library

namespace Streamhdr

variable {socktype : Socktype} {s : Streamhdr}

/-! ## The usock during the exchange -/

/-- The usock is up; it has been asked for `n` bytes, and every byte has its place. -/
structure Exchange (socktype : Socktype) (s : Streamhdr) (n : Nat) : Prop where
  up : s.usock.Up
  length : s.usock.inBuf.length + s.usock.inLen = n
  read : s.usock.inBuf ++ (s.usock.batch ++ s.wire) = s.arrived
  wrote : s.written ++ s.usock.out.flatten = protocolHeader socktype.protocol

/-- Nothing is open at the usock. -/
def UsockIdle (s : Streamhdr) : Prop := s.usock.NotSending ∧ s.usock.NotReceiving

/-- The header of the peer has been received and was accepted. -/
structure Complete (socktype : Socktype) (s : Streamhdr) : Prop where
  exchange : s.Exchange socktype 8
  idle : s.UsockIdle
  protohdr : s.protohdr = s.usock.inBuf
  accepted : socktype.acceptsHeader s.protohdr

/-- The machine waits for its usock to report the end of a request, which is open as long
as `opened` holds. -/
inductive Awaiting (socktype : Socktype) (s : Streamhdr) (n : Nat) (report : UsockEvent)
    (opened : Usock → Prop) : Prop where
  | waiting (hq : s.events = [] ∨ s.events = [.timer .timeout])
      (hex : s.Exchange socktype n) (hopen : opened s.usock)
  | reported (hq : s.events = [.usock report]) (hex : s.Exchange socktype n)
      (hidle : s.UsockIdle)
  | broken (hq : s.events = [] ∨ s.events = [.timer .timeout] ∨ s.events = [.usock .shutdown] ∨
      s.events = [.usock .error]) (h : s.usock.Broken)

/-- The machine has the usock. -/
structure Owning (s : Streamhdr) : Prop where
  owner : s.owner = some .streamhdr
  usockOwner : s.usockOwner = some .session
  usockSet : s.usockSet = true

/-- What a usock can report to a machine that asks nothing more of it. -/
def Late (type : UsockEvent) : Prop := type = .sent ∨ type = .received ∨ type = .error

/-- What holds in each state. -/
inductive Phase (socktype : Socktype) (s : Streamhdr) : Prop where
  | idle (hfsm : s.fsm = .idle) (hstate : s.state = .idle) (htimer : s.timer.Quiet)
      (hq : ∀ e ∈ s.events, e = .ok ∨ e = .error ∨ e = .stopped)
      (howner : s.events = [] → s.owner = some .session)
      (hset : s.usockSet = false → s.usockOwner = none)
  | sending (hfsm : s.fsm = .active) (hstate : s.state = .sending) (htimer : s.timer.Running)
      (hown : s.Owning)
      (hwait : s.Awaiting socktype 0 .sent fun u => u.Sending ∧ u.NotReceiving)
  | receiving (hfsm : s.fsm = .active) (hstate : s.state = .receiving)
      (htimer : s.timer.Running) (hown : s.Owning)
      (hwait : s.Awaiting socktype 8 .received fun u => u.NotSending ∧ u.Receiving)
  | failing (hfsm : s.fsm = .active) (hstate : s.state = .stoppingTimerError) (hown : s.Owning)
      (husock : s.usock.Up ∨ s.usock.Broken)
      (hq : s.timer.Stopping ∧ (s.events = [] ∨ ∃ type, s.events = [.usock type] ∧ Late type) ∨
        s.timer.Quiet ∧ s.events = [.timer .stopped])
  | succeeding (hfsm : s.fsm = .active) (hstate : s.state = .stoppingTimerDone)
      (hown : s.Owning)
      (hq : s.timer.Stopping ∧ s.events = [] ∧ s.Complete socktype ∨
        s.timer.Stopping ∧ s.events = [.usock .error] ∧ s.usock.Broken ∨
        s.timer.Quiet ∧ s.events = [.timer .stopped] ∧ s.Complete socktype)
  | done (hfsm : s.fsm = .active) (hstate : s.state = .done) (htimer : s.timer.Quiet)
      (howner : s.owner = some .session) (husockOwner : s.usockOwner = none)
      (hset : s.usockSet = false)
      (hq : s.events = [] ∨ s.events = [.ok] ∨ s.events = [.error])
  | stopping (hfsm : s.fsm = .stopping) (hstate : s.state = .stopping) (hown : s.Owning)
      (husock : s.usock.Up ∨ s.usock.Broken)
      (hq : s.timer.Stopping ∧ (s.events = [] ∨ s.events = [.timer .timeout] ∨
          ∃ type, s.events = [.usock type]) ∨
        s.timer.Quiet ∧ s.events = [.timer .stopped])

/-- What holds in every state of an orderly run. -/
structure Inv (socktype : Socktype) (s : Streamhdr) : Prop where
  phase : s.Phase socktype
  ok : .ok ∈ s.events → s.Complete socktype
  handed : .ok ∈ s.events ∨ .error ∈ s.events → s.owner = some .session

theorem Exchange.congr {n : Nat} {s' : Streamhdr} (h : s.Exchange socktype n)
    (husock : s'.usock = s.usock) (hwire : s'.wire = s.wire) (harrived : s'.arrived = s.arrived)
    (hwritten : s'.written = s.written) : s'.Exchange socktype n where
  up := by rw [husock]; exact h.up
  length := by rw [husock]; exact h.length
  read := by rw [husock, hwire, harrived]; exact h.read
  wrote := by rw [husock, hwritten]; exact h.wrote

theorem Complete.congr {s' : Streamhdr} (h : s.Complete socktype)
    (husock : s'.usock = s.usock) (hwire : s'.wire = s.wire) (harrived : s'.arrived = s.arrived)
    (hwritten : s'.written = s.written) (hhdr : s'.protohdr = s.protohdr) :
    s'.Complete socktype where
  exchange := h.exchange.congr husock hwire harrived hwritten
  idle := by rw [UsockIdle, husock]; exact h.idle
  protohdr := by rw [hhdr, husock]; exact h.protohdr
  accepted := by rw [hhdr]; exact h.accepted

/-- The usock of a machine that waits for it is up or broken. -/
theorem Awaiting.usock {n : Nat} {report : UsockEvent} {opened : Usock → Prop}
    (h : s.Awaiting socktype n report opened) : s.usock.Up ∨ s.usock.Broken := by
  cases h with
  | waiting hq hex hopen => exact Or.inl hex.up
  | reported hq hex hidle => exact Or.inl hex.up
  | broken hq hbroken => exact Or.inr hbroken

/-- What is queued while the machine waits. -/
theorem Awaiting.events {n : Nat} {report : UsockEvent} {opened : Usock → Prop}
    (h : s.Awaiting socktype n report opened) :
    s.events = [] ∨ s.events = [.timer .timeout] ∨ ∃ type, s.events = [.usock type] := by
  cases h with
  | waiting hq hex hopen => exact hq.imp id Or.inl
  | reported hq hex hidle => exact Or.inr (Or.inr ⟨_, hq⟩)
  | broken hq hbroken =>
      rcases hq with hq | hq | hq | hq
      · exact Or.inl hq
      · exact Or.inr (Or.inl hq)
      · exact Or.inr (Or.inr ⟨_, hq⟩)
      · exact Or.inr (Or.inr ⟨_, hq⟩)

/-- A state in which no result is queued. -/
theorem Inv.of_phase (hphase : s.Phase socktype) (hok : .ok ∉ s.events)
    (herror : .error ∉ s.events) : s.Inv socktype :=
  ⟨hphase, fun h => absurd h hok, fun h => absurd h (fun h => h.elim hok herror)⟩

/-! ## The start -/

/-- The machine when its header was handed to the usock. -/
def begun (socktype : Socktype) (s : Streamhdr) (timer : Timer) (u : Usock)
    (wire written : List UInt8) (e : Option UsockEvent) : Streamhdr :=
  { s with
    fsm := .active, state := .sending, timer := timer, usockSet := true
    usockOwner := some .session, owner := some .streamhdr
    protohdr := protocolHeader socktype.protocol, usock := u, wire := wire
    written := written, arrived := wire, events := (e.map StreamhdrEvent.usock).toList }

theorem inv_begun {timer : Timer} {u : Usock} {wire written : List UInt8}
    {e : Option UsockEvent} (htimer : timer.Running)
    (hout : Usock.Sent Usock.connected u e ∧
        written ++ u.out.flatten = [protocolHeader socktype.protocol].flatten ∨
      e = some .shutdown ∧ u.state = .removingFd ∧ written = []) :
    (begun socktype s timer u wire written e).Inv socktype := by
  have hown : (begun socktype s timer u wire written e).Owning := ⟨rfl, rfl, rfl⟩
  rcases hout with ⟨hsent, hdata⟩ | ⟨rfl, hbroken, -⟩
  · have hnot : u.NotReceiving :=
      hsent.sameIn.notReceiving ⟨by simp [Usock.connected], rfl, rfl⟩
    have hex : (begun socktype s timer u wire written e).Exchange socktype 0 := by
      refine ⟨⟨hsent.steady, ?_, Or.inl hnot⟩, ?_, ?_, ?_⟩
      · rcases hsent.outcome with ⟨-, hno, -⟩ | ⟨-, hsending, -⟩
        · exact Or.inl hno
        · exact Or.inr hsending
      · simp [begun, hsent.sameIn.inBuf, hsent.sameIn.inLen, Usock.connected]
      · simp [begun, hsent.sameIn.inBuf, hsent.sameIn.batch, Usock.connected]
      · simpa [begun] using hdata
    rcases hsent.outcome with ⟨rfl, hno, -⟩ | ⟨rfl, hsending, -⟩
    · refine .of_phase (.sending rfl rfl htimer hown ?_) (by simp [begun]) (by simp [begun])
      exact .reported rfl hex ⟨hno, hnot⟩
    · refine .of_phase (.sending rfl rfl htimer hown ?_) (by simp [begun]) (by simp [begun])
      exact .waiting (Or.inl rfl) hex ⟨hsending, hnot⟩
  · refine .of_phase (.sending rfl rfl htimer hown ?_) (by simp [begun]) (by simp [begun])
    exact .broken (Or.inr (Or.inr (Or.inl rfl))) (Or.inl hbroken)

theorem start_spec (h : s.Inv socktype) {batch wire : List UInt8} {io : Io}
    (hen : s.Enabled (.start batch wire io)) (horderly : s.Orderly (.start batch wire io)) :
    ∃ s', s.next socktype (.start batch wire io) = .ok s' ∧ s'.Inv socktype := by
  have hbatch : batch = [] := horderly
  subst hbatch
  obtain ⟨hfsm, hset, hq⟩ := hen
  obtain ⟨hstate, htimer, husockOwner⟩ :
      s.state = .idle ∧ s.timer.Quiet ∧ s.usockOwner = none := by
    cases h.phase with
    | idle _ hstate htimer _ _ hset' => exact ⟨hstate, htimer, hset' hset⟩
    | sending hactive | receiving hactive | failing hactive | succeeding hactive | done hactive
    | stopping hactive => exact absurd (hfsm.symm.trans hactive) (by simp)
  obtain ⟨timer, hstart, hrunning⟩ := Timer.start_spec htimer (by decide : (0 : Int) ≤ 1000)
  have hiov : [protocolHeader socktype.protocol].length ≤ usockMaxIovcnt := Nat.le_of_ble_eq_true rfl
  obtain ⟨u, w, e, hcall, hout⟩ := Usock.send_or_broken (Usock.steady_connected [])
    ⟨by simp [Usock.connected], rfl, rfl⟩ hiov io
  refine ⟨begun socktype s timer u wire w e, ?_, inv_begun hrunning hout⟩
  simp only [next, start, hset, husockOwner, swapOwner, hfsm, hq, hstate, gridAssert_pos,
    List.not_mem_nil, not_false_eq_true, and_self, ok_bind, decide_false, hstart, usockSend,
    hcall, List.nil_append, raise?, raiseEvent?_nil, pure_eq_ok, begun]

/-! ## The owner stops it -/

theorem Timer.Stopping.not_isIdle {timer : Timer} (h : timer.Stopping) (b : Bool) :
    timer.isIdle b = false := by
  simp [Timer.isIdle, h.1]

/-- The machine waits for its timer when it is stopped. -/
theorem stop_waits {timer : Timer} (hfsm : s.fsm = .active) (hstop : s.timer.stop = .ok timer)
    (hbusy : timer.isIdle (decide (StreamhdrEvent.timer .stopped ∈ s.events)) = false) :
    s.stop = .ok { s with fsm := .stopping, timer := timer, state := .stopping } := by
  simp only [stop, hfsm, if_true, hstop, ok_bind, shutdown, timerIsIdle, hbusy]
  rfl

theorem stop_spec (h : s.Inv socktype) :
    ∃ s', s.next socktype .stop = .ok s' ∧ s'.Inv socktype := by
  have hinactive : s.fsm ≠ .active → ∃ s', s.next socktype .stop = .ok s' ∧ s'.Inv socktype := by
    intro hfsm
    refine ⟨s, ?_, h⟩
    simp only [next, stop, if_neg hfsm]
  -- a timer that runs is asked to stop
  have hrunning : s.fsm = .active → s.timer.Running → s.Owning →
      (s.usock.Up ∨ s.usock.Broken) →
      (s.events = [] ∨ s.events = [.timer .timeout] ∨ ∃ type, s.events = [.usock type]) →
      ∃ s', s.next socktype .stop = .ok s' ∧ s'.Inv socktype := by
    intro hfsm htimer hown husock hq
    obtain ⟨timer, hstop, hstopping⟩ := Timer.stop_running htimer
    refine ⟨_, stop_waits hfsm hstop (Timer.Stopping.not_isIdle hstopping _), ?_⟩
    refine .of_phase (.stopping rfl rfl ⟨hown.owner, hown.usockOwner, hown.usockSet⟩ husock
      (Or.inl ⟨hstopping, hq⟩)) ?_ ?_
    · rcases hq with hq | hq | ⟨type, hq⟩ <;> simp [hq]
    · rcases hq with hq | hq | ⟨type, hq⟩ <;> simp [hq]
  -- a timer that was asked already is waited for
  have hstopping : s.fsm = .active → s.Owning → (s.usock.Up ∨ s.usock.Broken) →
      (s.timer.Stopping ∧ (s.events = [] ∨ ∃ type, s.events = [.usock type]) ∨
        s.timer.Quiet ∧ s.events = [.timer .stopped]) →
      ∃ s', s.next socktype .stop = .ok s' ∧ s'.Inv socktype := by
    intro hfsm hown husock hq
    rcases hq with ⟨hstopping, hq⟩ | ⟨hquiet, hq⟩
    · have hstop : s.timer.stop = .ok s.timer :=
        Timer.stop_of_not_active (by rw [hstopping.1]; simp)
      refine ⟨_, stop_waits hfsm hstop (Timer.Stopping.not_isIdle hstopping _), ?_⟩
      refine .of_phase (.stopping rfl rfl ⟨hown.owner, hown.usockOwner, hown.usockSet⟩ husock
        (Or.inl ⟨hstopping, hq.imp id Or.inr⟩)) ?_ ?_
      · rcases hq with hq | ⟨type, hq⟩ <;> simp [hq]
      · rcases hq with hq | ⟨type, hq⟩ <;> simp [hq]
    · have hstop : s.timer.stop = .ok s.timer :=
        Timer.stop_of_not_active (by rw [hquiet.1]; simp)
      refine ⟨_, stop_waits hfsm hstop (by simp [Timer.isIdle, hq]), ?_⟩
      exact .of_phase (.stopping rfl rfl ⟨hown.owner, hown.usockOwner, hown.usockSet⟩ husock
        (Or.inr ⟨hquiet, hq⟩)) (by simp [hq]) (by simp [hq])
  cases h.phase with
  | idle hfsm => exact hinactive (by rw [hfsm]; simp)
  | sending hfsm hstate htimer hown hwait =>
      exact hrunning hfsm htimer hown hwait.usock hwait.events
  | receiving hfsm hstate htimer hown hwait =>
      exact hrunning hfsm htimer hown hwait.usock hwait.events
  | failing hfsm hstate hown husock hq =>
      refine hstopping hfsm hown husock (hq.imp (fun h => ⟨h.1, h.2.imp id ?_⟩) id)
      rintro ⟨type, hq, -⟩
      exact ⟨type, hq⟩
  | succeeding hfsm hstate hown hq =>
      rcases hq with ⟨htimer, hq, hc⟩ | ⟨htimer, hq, hbroken⟩ | ⟨htimer, hq, hc⟩
      · exact hstopping hfsm hown (Or.inl hc.exchange.up) (Or.inl ⟨htimer, Or.inl hq⟩)
      · exact hstopping hfsm hown (Or.inr hbroken) (Or.inl ⟨htimer, Or.inr ⟨_, hq⟩⟩)
      · exact hstopping hfsm hown (Or.inl hc.exchange.up) (Or.inr ⟨htimer, hq⟩)
  | done hfsm hstate htimer howner husockOwner hset hq =>
      have hstop : s.timer.stop = .ok s.timer :=
        Timer.stop_of_not_active (by rw [htimer.1]; simp)
      have hno : StreamhdrEvent.timer .stopped ∉ s.events := by
        rcases hq with hq | hq | hq <;> simp [hq]
      have hitem : StreamhdrEvent.item .stopped ∉ s.events.map StreamhdrEvent.item := by
        rcases hq with hq | hq | hq <;> simp [hq, StreamhdrEvent.item]
      refine ⟨{ s with fsm := .idle, state := .idle, events := s.events ++ [.stopped] }, ?_, ?_⟩
      · simp only [next, stop, hfsm, if_true, hstop, ok_bind, shutdown, timerIsIdle,
          Timer.isIdle, htimer.1, hno, raise, raiseEvent_ok hitem, gridAssert_pos, pure_eq_ok]
        rfl
      · refine ⟨.idle rfl rfl htimer ?_ ?_ fun _ => husockOwner, ?_, fun _ => howner⟩
        · intro e he
          rcases List.mem_append.mp he with he | he
          · rcases hq with hq | hq | hq <;> simp [hq] at he <;> simp [he]
          · exact Or.inr (Or.inr (List.mem_singleton.mp he))
        · intro hnil
          exact absurd hnil (by simp)
        · intro hok
          refine (h.ok ?_).congr rfl rfl rfl rfl rfl
          simpa using hok
  | stopping hfsm => exact hinactive (by rw [hfsm]; simp)

/-! ## Events are delivered -/

/-- What delivering an event comes to. -/
def Delivers (socktype : Socktype) (s : Streamhdr) (io : Io) : Prop :=
  ∃ s', s.next socktype (.deliver io) = .ok s' ∧ s'.Inv socktype

theorem next_deliver {e : StreamhdrEvent} {rest : List StreamhdrEvent} {io : Io}
    (hq : s.events = e :: rest) : s.next socktype (.deliver io) =
      ({ s with events := rest } : Streamhdr).deliver socktype e io := by
  simp only [next, hq]

/-- After a timeout or a failure the timer is stopped. -/
theorem fail_spec (hfsm : s.fsm = .active) (htimer : s.timer.Running) (hown : s.Owning)
    (husock : s.usock.Up ∨ s.usock.Broken) (hq : s.events = []) :
    ∃ s', s.stopTimer .stoppingTimerError = .ok s' ∧ s'.Inv socktype := by
  obtain ⟨timer, hstop, hstopping⟩ := Timer.stop_running htimer
  refine ⟨{ s with timer := timer, state := .stoppingTimerError }, ?_, ?_⟩
  · simp only [stopTimer, hstop, ok_bind, pure_eq_ok]
  · exact .of_phase (.failing hfsm rfl ⟨hown.owner, hown.usockOwner, hown.usockSet⟩ husock
      (Or.inl ⟨hstopping, Or.inl hq⟩)) (by simp [hq]) (by simp [hq])

theorem deliver_idle (h : s.Inv socktype) {io : Io} {e : StreamhdrEvent}
    {rest : List StreamhdrEvent} (hevents : s.events = e :: rest) (hfsm : s.fsm = .idle)
    (hstate : s.state = .idle) (htimer : s.timer.Quiet)
    (hq : ∀ e ∈ s.events, e = .ok ∨ e = .error ∨ e = .stopped)
    (hset : s.usockSet = false → s.usockOwner = none) : s.Delivers socktype io := by
  have hrest : ∀ e' ∈ rest, e' ∈ s.events := fun e' he' => by
    rw [hevents]
    exact List.mem_cons_of_mem e he'
  have hok : .ok ∈ rest → s.Complete socktype := fun hm => h.ok (hrest _ hm)
  rcases hq e (by rw [hevents]; exact List.mem_cons_self) with rfl | rfl | rfl
  · refine ⟨_, next_deliver hevents, .idle hfsm hstate htimer (fun e he => hq e (hrest e he))
      (fun _ => h.handed (Or.inl (by simp [hevents]))) hset, ?_, ?_⟩
    · exact fun hm => (hok hm).congr rfl rfl rfl rfl rfl
    · exact fun _ => h.handed (Or.inl (by simp [hevents]))
  · refine ⟨_, next_deliver hevents, .idle hfsm hstate htimer (fun e he => hq e (hrest e he))
      (fun _ => h.handed (Or.inr (by simp [hevents]))) hset, ?_, ?_⟩
    · exact fun hm => (hok hm).congr rfl rfl rfl rfl rfl
    · exact fun _ => h.handed (Or.inr (by simp [hevents]))
  · refine ⟨_, next_deliver hevents, .idle hfsm hstate htimer (fun e he => hq e (hrest e he))
      (fun _ => rfl) hset, ?_, fun _ => rfl⟩
    exact fun hm => (hok hm).congr rfl rfl rfl rfl rfl

/-- The header was sent: the header of the peer is asked for. -/
theorem deliver_sent {io : Io} (hfsm : s.fsm = .active) (hstate : s.state = .sending)
    (htimer : s.timer.Running) (hown : s.Owning) (hq : s.events = [.usock .sent])
    (hex : s.Exchange socktype 0) (hidle : s.UsockIdle) : s.Delivers socktype io := by
  obtain ⟨u, wire, e, hcall, hout⟩ :=
    Usock.recv_or_broken hex.up.steady hidle.2 s.wire (by decide : 0 < 8) io
  have hbuf : s.usock.inBuf = [] := List.length_eq_zero_iff.mp (by have := hex.length; omega)
  have hread := hex.read
  rw [hbuf, List.nil_append] at hread
  refine ⟨{ s with
    state := .receiving, usock := u, wire := wire
    events := (e.map StreamhdrEvent.usock).toList }, ?_, ?_⟩
  · simp only [next_deliver hq, deliver, hfsm, reduceCtorEq, if_false, usockHandler, hstate,
      usockRecv, hcall, ok_bind, raise?, raiseEvent?_nil, pure_eq_ok]
  · rcases hout with ⟨hgot, hdata⟩ | ⟨rfl, hbroken⟩
    · have hno := hgot.sameOut.notSending hidle.1
      have hex' : ∀ q, ({ s with state := .receiving, usock := u, wire := wire, events := q } :
          Streamhdr).Exchange socktype 8 := fun q => by
        refine ⟨⟨hgot.steady, Or.inl hno, ?_⟩, hgot.length, hdata.trans hread, ?_⟩
        · rcases hgot.outcome with ⟨-, hdone, -⟩ | ⟨-, hrec, -⟩
          · exact Or.inl hdone
          · exact Or.inr hrec
        · rw [hgot.sameOut.out]
          exact hex.wrote
      rcases hgot.outcome with ⟨rfl, hdone, -⟩ | ⟨rfl, hrec, -⟩
      · refine .of_phase (.receiving hfsm rfl htimer
          ⟨hown.owner, hown.usockOwner, hown.usockSet⟩ ?_) (by simp) (by simp)
        exact .reported rfl (hex' _) ⟨hno, hdone⟩
      · refine .of_phase (.receiving hfsm rfl htimer
          ⟨hown.owner, hown.usockOwner, hown.usockSet⟩ ?_) (by simp) (by simp)
        exact .waiting (Or.inl rfl) (hex' _) ⟨hno, hrec⟩
    · refine .of_phase (.receiving hfsm rfl htimer
        ⟨hown.owner, hown.usockOwner, hown.usockSet⟩ ?_) (by simp) (by simp)
      exact .broken (Or.inr (Or.inr (Or.inl rfl))) (Or.inl hbroken)

/-- The header of the peer has come. -/
theorem deliver_received {io : Io} (hfsm : s.fsm = .active) (hstate : s.state = .receiving)
    (htimer : s.timer.Running) (hown : s.Owning) (hq : s.events = [.usock .received])
    (hex : s.Exchange socktype 8) (hidle : s.UsockIdle) : s.Delivers socktype io := by
  unfold Delivers
  simp only [next_deliver hq, deliver, hfsm, reduceCtorEq, if_false, usockHandler, hstate]
  by_cases haccepts : socktype.acceptsHeader s.usock.inBuf
  · rw [if_pos haccepts]
    obtain ⟨timer, hstop, hstopping⟩ := Timer.stop_running htimer
    refine ⟨{ s with
      events := [], protohdr := s.usock.inBuf, timer := timer, state := .stoppingTimerDone },
      ?_, ?_⟩
    · simp only [stopTimer, hstop, hfsm, ok_bind, pure_eq_ok]
    · refine .of_phase (.succeeding hfsm rfl ⟨hown.owner, hown.usockOwner, hown.usockSet⟩
        (Or.inl ⟨hstopping, rfl, ?_⟩)) (by simp) (by simp)
      exact ⟨hex.congr rfl rfl rfl rfl, hidle, rfl, haccepts⟩
  · rw [if_neg haccepts]
    exact fail_spec rfl htimer ⟨hown.owner, hown.usockOwner, hown.usockSet⟩ (Or.inl hex.up) rfl

/-- The machine goes on waiting. -/
theorem Awaiting.popped {n : Nat} {report : UsockEvent} {opened : Usock → Prop}
    (h : s.usock.Broken) :
    ({ s with events := [] } : Streamhdr).Awaiting socktype n report opened :=
  .broken (Or.inl rfl) h

/-- A machine that waits for its usock fails when the timer is up or the usock reports an
error, and otherwise does what the report of the request asks for. -/
theorem deliver_awaiting {io : Io} {n : Nat} {report : UsockEvent} {opened : Usock → Prop}
    (hen : s.events ≠ []) (hfsm : s.fsm = .active)
    (hstate : s.state = .sending ∨ s.state = .receiving) (htimer : s.timer.Running)
    (hown : s.Owning) (hwait : s.Awaiting socktype n report opened)
    (hphase : s.usock.Broken → ({ s with events := [] } : Streamhdr).Phase socktype)
    (hreported : s.events = [.usock report] → s.Exchange socktype n → s.UsockIdle →
      s.Delivers socktype io) : s.Delivers socktype io := by
  have hfails : s.events = [.timer .timeout] ∨ s.events = [.usock .error] →
      s.Delivers socktype io := by
    intro hq
    unfold Delivers
    rcases hstate with hstate | hstate <;> rcases hq with hq | hq <;>
      simp only [next_deliver hq, deliver, hfsm, reduceCtorEq, if_false, timerHandler,
        usockHandler, hstate] <;>
      exact fail_spec rfl htimer ⟨hown.owner, hown.usockOwner, hown.usockSet⟩ hwait.usock rfl
  cases hwait with
  | waiting hq hex hopen => exact hfails (Or.inl (hq.resolve_left hen))
  | reported hq hex hidle => exact hreported hq hex hidle
  | broken hq hbroken =>
      rcases hq with hq | hq | hq | hq
      · exact absurd hq hen
      · exact hfails (Or.inl hq)
      · refine ⟨{ s with events := [] }, ?_, .of_phase (hphase hbroken) (by simp) (by simp)⟩
        rcases hstate with hstate | hstate <;>
          simp only [next_deliver hq, deliver, hfsm, reduceCtorEq, if_false, usockHandler, hstate]
      · exact hfails (Or.inr hq)

theorem deliver_sending {io : Io} (hen : s.events ≠ []) (hfsm : s.fsm = .active)
    (hstate : s.state = .sending) (htimer : s.timer.Running) (hown : s.Owning)
    (hwait : s.Awaiting socktype 0 .sent fun u => u.Sending ∧ u.NotReceiving) :
    s.Delivers socktype io :=
  deliver_awaiting hen hfsm (Or.inl hstate) htimer hown hwait
    (fun hbroken => .sending hfsm hstate htimer
      ⟨hown.owner, hown.usockOwner, hown.usockSet⟩ (.popped hbroken))
    (deliver_sent hfsm hstate htimer hown)

theorem deliver_receiving {io : Io} (hen : s.events ≠ []) (hfsm : s.fsm = .active)
    (hstate : s.state = .receiving) (htimer : s.timer.Running) (hown : s.Owning)
    (hwait : s.Awaiting socktype 8 .received fun u => u.NotSending ∧ u.Receiving) :
    s.Delivers socktype io :=
  deliver_awaiting hen hfsm (Or.inr hstate) htimer hown hwait
    (fun hbroken => .receiving hfsm hstate htimer
      ⟨hown.owner, hown.usockOwner, hown.usockSet⟩ (.popped hbroken))
    (deliver_received hfsm hstate htimer hown)

/-- The timer has stopped: the usock is handed back and the result raised. -/
theorem deliver_finish {io : Io} {result : StreamhdrEvent} (hfsm : s.fsm = .active)
    (htimer : s.timer.Quiet) (hown : s.Owning) (hq : s.events = [.timer .stopped])
    (hstate : s.state = .stoppingTimerError ∧ result = .error ∨
      s.state = .stoppingTimerDone ∧ result = .ok ∧ s.Complete socktype) :
    s.Delivers socktype io := by
  refine ⟨{ s with
    owner := some .session, usockOwner := none, usockSet := false, state := .done
    events := [result] }, ?_, ?_⟩
  · rcases hstate with ⟨hstate, rfl⟩ | ⟨hstate, rfl, -⟩
    · simp only [next_deliver hq, deliver, hfsm, reduceCtorEq, if_false, timerHandler, hstate,
        finish, swapOwner, raise, raiseEvent_nil, ok_bind, pure_eq_ok, hown.usockOwner]
    · simp only [next_deliver hq, deliver, hfsm, reduceCtorEq, if_false, timerHandler, hstate,
        finish, swapOwner, raise, raiseEvent_nil, ok_bind, pure_eq_ok, hown.usockOwner]
  · refine ⟨.done hfsm rfl htimer rfl rfl rfl ?_, ?_, fun _ => rfl⟩
    · rcases hstate with ⟨-, rfl⟩ | ⟨-, rfl, -⟩
      · exact Or.inr (Or.inr rfl)
      · exact Or.inr (Or.inl rfl)
    · intro hok
      rcases hstate with ⟨-, rfl⟩ | ⟨-, rfl, hc⟩
      · exact absurd hok (by simp)
      · exact hc.congr rfl rfl rfl rfl rfl

/-- A machine that was stopped waits for its timer. -/
theorem deliver_stopping {io : Io} (hen : s.events ≠ []) (hfsm : s.fsm = .stopping)
    (hstate : s.state = .stopping) (hown : s.Owning) (husock : s.usock.Up ∨ s.usock.Broken)
    (hq : s.timer.Stopping ∧ (s.events = [] ∨ s.events = [.timer .timeout] ∨
        ∃ type, s.events = [.usock type]) ∨
      s.timer.Quiet ∧ s.events = [.timer .stopped]) : s.Delivers socktype io := by
  rcases hq with ⟨htimer, hq⟩ | ⟨htimer, hq⟩
  · have hphase : ({ s with events := [] } : Streamhdr).Inv socktype :=
      .of_phase (.stopping hfsm hstate ⟨hown.owner, hown.usockOwner, hown.usockSet⟩ husock
        (Or.inl ⟨htimer, Or.inl rfl⟩)) (by simp) (by simp)
    have hbusy := Timer.Stopping.not_isIdle htimer
    refine ⟨_, ?_, hphase⟩
    rcases hq with hq | hq | ⟨type, hq⟩
    · exact absurd hq hen
    · simp only [next_deliver hq, deliver, hfsm, if_true, shutdown, hstate, timerIsIdle, hbusy]
      rfl
    · simp only [next_deliver hq, deliver, hfsm, if_true, shutdown, hstate, timerIsIdle, hbusy]
      rfl
  · refine ⟨{ s with fsm := .idle, state := .idle, events := [.stopped] }, ?_, ?_⟩
    · simp only [next_deliver hq, deliver, hfsm, if_true, shutdown, hstate, timerIsIdle,
        Timer.isIdle, htimer.1, raise, raiseEvent_nil, gridAssert_pos, ok_bind, pure_eq_ok,
        List.not_mem_nil, decide_false]
      rfl
    · refine .of_phase (.idle rfl rfl htimer (by simp) (by simp) ?_) (by simp) (by simp)
      intro hset
      exact absurd (hown.usockSet.symm.trans hset) (by simp)

theorem deliver_spec (h : s.Inv socktype) {io : Io} (hen : s.events ≠ [])
    (horderly : s.Orderly (.deliver io)) : s.Delivers socktype io := by
  obtain ⟨e, rest, hevents⟩ := List.exists_cons_of_ne_nil hen
  cases h.phase with
  | idle hfsm hstate htimer hq howner hset =>
      exact deliver_idle h hevents hfsm hstate htimer hq hset
  | sending hfsm hstate htimer hown hwait =>
      exact deliver_sending hen hfsm hstate htimer hown hwait
  | receiving hfsm hstate htimer hown hwait =>
      exact deliver_receiving hen hfsm hstate htimer hown hwait
  | failing hfsm hstate hown husock hq =>
      rcases hq with ⟨htimer, hq | ⟨type, hq, hlate⟩⟩ | ⟨htimer, hq⟩
      · exact absurd hq hen
      · obtain ⟨hsent, hreceived⟩ := (horderly (.usock type) (by simp [hq])).1 hstate
        obtain rfl := (hlate.resolve_left hsent).resolve_left hreceived
        refine ⟨{ s with events := [] }, ?_, ?_⟩
        · simp only [next_deliver hq, deliver, hfsm, reduceCtorEq, if_false, usockHandler,
            hstate, gridAssert_pos, ok_bind, pure_eq_ok]
        · exact .of_phase (.failing hfsm hstate ⟨hown.owner, hown.usockOwner, hown.usockSet⟩
            husock (Or.inl ⟨htimer, Or.inl rfl⟩)) (by simp) (by simp)
      · exact deliver_finish hfsm htimer hown hq (Or.inl ⟨hstate, rfl⟩)
  | succeeding hfsm hstate hown hq =>
      rcases hq with ⟨-, hq, -⟩ | ⟨-, hq, -⟩ | ⟨htimer, hq, hc⟩
      · exact absurd hq hen
      · exact absurd rfl ((horderly (.usock .error) (by simp [hq])).2 hstate)
      · exact deliver_finish hfsm htimer hown hq (Or.inr ⟨hstate, rfl, hc⟩)
  | done hfsm hstate htimer howner husockOwner hset hq =>
      have hrest : ∀ e, s.events = [e] → e = .ok ∨ e = .error → s.Delivers socktype io := by
        intro e hq he
        refine ⟨{ s with events := [] }, ?_, ?_⟩
        · rcases he with rfl | rfl
          · simp only [next_deliver hq, deliver]
          · simp only [next_deliver hq, deliver]
        · exact .of_phase (.done hfsm hstate htimer howner husockOwner hset (Or.inl rfl))
            (by simp) (by simp)
      rcases hq with hq | hq | hq
      · exact absurd hq hen
      · exact hrest _ hq (Or.inl rfl)
      · exact hrest _ hq (Or.inr rfl)
  | stopping hfsm hstate hown husock hq =>
      exact deliver_stopping hen hfsm hstate hown husock hq

/-! ## The worker -/

theorem Exchange.moved {n : Nat} {u : Usock} {wire written : List UInt8}
    {e : Option UsockEvent} (h : s.Exchange socktype n)
    (hm : Usock.Moved s.usock s.wire u wire written e) (q : List StreamhdrEvent) :
    ({ s with usock := u, wire := wire, written := s.written ++ written, events := q } :
      Streamhdr).Exchange socktype n where
  up := hm.up h.up
  length := hm.length.trans h.length
  read := hm.read.trans h.read
  wrote := by
    simp only [List.append_assoc, hm.wrote]
    exact h.wrote

/-- The usock of a machine that waits for it goes on or reports. -/
theorem Awaiting.worked {n : Nat} {report : UsockEvent} {opened : Usock → Prop} {w : Usock.Work}
    {u : Usock} {wire written : List UInt8} {e : Option UsockEvent}
    (h : s.Awaiting socktype n report opened) (hq : s.events = []) (hready : s.usock.Ready w)
    (hwork : s.usock.work s.wire w = .ok (u, wire, written, e))
    (hreport : ∀ u wire written e, opened s.usock → Usock.Moved s.usock s.wire u wire written e →
      e = none ∧ opened u ∨ e = some report ∧ u.NotSending ∧ u.NotReceiving) :
    ({ s with
      usock := u, wire := wire, written := s.written ++ written
      events := (e.map StreamhdrEvent.usock).toList } : Streamhdr).Awaiting socktype n report
        opened := by
  cases h with
  | waiting hq hex hopen =>
      rcases Usock.work_up hex.up hready hwork with hm | ⟨-, -, rfl, hdown⟩
      · rcases hreport u wire written e hopen hm with ⟨rfl, hopen'⟩ | ⟨rfl, hidle⟩
        · exact .waiting (Or.inl rfl) (hex.moved hm _) hopen'
        · exact .reported rfl (hex.moved hm _) hidle
      · exact .broken (Or.inr (Or.inr (Or.inr rfl))) (Or.inr hdown)
  | reported hq' hex hidle => exact absurd (hq'.symm.trans hq) (by simp)
  | broken hq' hbroken =>
      rcases Usock.work_broken hbroken hready hwork with ⟨-, -, ⟨rfl, hstays⟩ | ⟨rfl, -, hdown⟩⟩
      · exact .broken (Or.inl rfl) hstays
      · exact .broken (Or.inr (Or.inr (Or.inr rfl))) (Or.inr hdown)

theorem sending_report {u u' : Usock} {wire wire' written : List UInt8} {e : Option UsockEvent}
    (h : u.Sending ∧ u.NotReceiving) (hm : Usock.Moved u wire u' wire' written e) :
    e = none ∧ (u'.Sending ∧ u'.NotReceiving) ∨
      e = some .sent ∧ u'.NotSending ∧ u'.NotReceiving := by
  rcases hm.outcome with ⟨he, -, hyes, hno, -⟩ | ⟨he, -, hdone, hno, -⟩ | ⟨-, hrec, -⟩
  · exact Or.inl ⟨he, hyes h.1, hno h.2⟩
  · exact Or.inr ⟨he, hdone, hno h.2⟩
  · exact absurd h.2.inLen (Nat.ne_of_gt hrec.inLen)

theorem receiving_report {u u' : Usock} {wire wire' written : List UInt8}
    {e : Option UsockEvent} (h : u.NotSending ∧ u.Receiving)
    (hm : Usock.Moved u wire u' wire' written e) :
    e = none ∧ (u'.NotSending ∧ u'.Receiving) ∨
      e = some .received ∧ u'.NotSending ∧ u'.NotReceiving := by
  rcases hm.outcome with ⟨he, hno, -, -, hyes⟩ | ⟨-, hsend, -⟩ | ⟨he, -, hdone, hno, -⟩
  · exact Or.inl ⟨he, hno h.1, hyes h.2⟩
  · exact absurd h.1.out hsend.out
  · exact Or.inr ⟨he, hno h.1, hdone⟩

theorem usockWork_spec (h : s.Inv socktype) {w : Usock.Work} {s' : Streamhdr}
    (hen : s.Enabled (.usockWork w)) (hnext : s.next socktype (.usockWork w) = .ok s') :
    s'.Inv socktype := by
  obtain ⟨hq, howner, hready⟩ := hen
  obtain ⟨⟨u, wire, written, e⟩, hwork, hret⟩ := bind_eq_ok_iff.mp hnext
  have hqueue : (e.map StreamhdrEvent.usock).toList = [] ∨
      ∃ type, (e.map StreamhdrEvent.usock).toList = [.usock type] ∧ e = some type := by
    cases e with
    | none => exact Or.inl rfl
    | some type => exact Or.inr ⟨type, rfl, rfl⟩
  simp only [raise?, hq, raiseEvent?_nil, ok_bind, pure_eq_ok] at hret
  obtain rfl := Except.ok.inj hret
  have hno : ∀ e' : StreamhdrEvent, e' = .ok ∨ e' = .error →
      e' ∉ (e.map StreamhdrEvent.usock).toList := by
    intro e' he'
    rcases hqueue with hqueue | ⟨type, hqueue, -⟩ <;> rcases he' with rfl | rfl <;> simp [hqueue]
  refine .of_phase ?_ (hno _ (Or.inl rfl)) (hno _ (Or.inr rfl))
  cases h.phase with
  | idle hfsm hstate htimer hq' howner' => exact absurd (howner.symm.trans (howner' hq)) (by simp)
  | sending hfsm hstate htimer hown hwait =>
      exact .sending hfsm hstate htimer ⟨hown.owner, hown.usockOwner, hown.usockSet⟩
        (hwait.worked hq hready hwork fun _ _ _ _ => sending_report)
  | receiving hfsm hstate htimer hown hwait =>
      exact .receiving hfsm hstate htimer ⟨hown.owner, hown.usockOwner, hown.usockSet⟩
        (hwait.worked hq hready hwork fun _ _ _ _ => receiving_report)
  | failing hfsm hstate hown husock hq' =>
      obtain ⟨husock', hreport⟩ := Usock.work_report husock hready hwork
      refine .failing hfsm hstate ⟨hown.owner, hown.usockOwner, hown.usockSet⟩ husock' ?_
      rcases hq' with ⟨htimer, -⟩ | ⟨-, hq'⟩
      · refine Or.inl ⟨htimer, hqueue.imp id ?_⟩
        rintro ⟨type, hqueue, rfl⟩
        refine ⟨type, hqueue, ?_⟩
        rcases hreport with he | he | he | he
        · exact absurd he (by simp)
        · exact Or.inl (Option.some.inj he)
        · exact Or.inr (Or.inl (Option.some.inj he))
        · exact Or.inr (Or.inr (Option.some.inj he))
      · exact absurd (hq'.symm.trans hq) (by simp)
  | succeeding hfsm hstate hown hq' =>
      refine .succeeding hfsm hstate ⟨hown.owner, hown.usockOwner, hown.usockSet⟩ ?_
      rcases hq' with ⟨htimer, -, hc⟩ | ⟨-, hq', -⟩ | ⟨-, hq', -⟩
      · rcases Usock.work_up hc.exchange.up hready hwork with hm | ⟨-, -, rfl, hdown⟩
        · obtain ⟨rfl, hsend, hrecv, hbuf⟩ := hm.idle hc.idle.1 hc.idle.2
          exact Or.inl ⟨htimer, rfl, hc.exchange.moved hm _, ⟨hsend, hrecv⟩,
            hc.protohdr.trans hbuf.symm, hc.accepted⟩
        · exact Or.inr (Or.inl ⟨htimer, rfl, Or.inr hdown⟩)
      · exact absurd (hq'.symm.trans hq) (by simp)
      · exact absurd (hq'.symm.trans hq) (by simp)
  | done hfsm hstate htimer howner' => exact absurd (howner.symm.trans howner') (by simp)
  | stopping hfsm hstate hown husock hq' =>
      obtain ⟨husock', -⟩ := Usock.work_report husock hready hwork
      refine .stopping hfsm hstate ⟨hown.owner, hown.usockOwner, hown.usockSet⟩ husock' ?_
      rcases hq' with ⟨htimer, -⟩ | ⟨-, hq'⟩
      · refine Or.inl ⟨htimer, hqueue.imp id ?_⟩
        intro hevent
        obtain ⟨type, hqueue, -⟩ := hevent
        exact Or.inr ⟨type, hqueue⟩
      · exact absurd (hq'.symm.trans hq) (by simp)

/-! ## The timer -/

theorem Awaiting.congr {n : Nat} {report : UsockEvent} {opened : Usock → Prop} {s' : Streamhdr}
    (h : s.Awaiting socktype n report opened) (hq : s.events = [])
    (hq' : s'.events = [] ∨ s'.events = [.timer .timeout]) (husock : s'.usock = s.usock)
    (hwire : s'.wire = s.wire) (harrived : s'.arrived = s.arrived)
    (hwritten : s'.written = s.written) : s'.Awaiting socktype n report opened := by
  cases h with
  | waiting _ hex hopen =>
      exact .waiting hq' (hex.congr husock hwire harrived hwritten) (by rw [husock]; exact hopen)
  | reported hreport => exact absurd (hreport.symm.trans hq) (by simp)
  | broken _ hbroken =>
      exact .broken (hq'.imp id Or.inl) (by rw [husock]; exact hbroken)

/-- The timer of a machine does something while the queue is empty. -/
theorem timer_spec (h : s.Inv socktype) (hq : s.events = [])
    {run : Except Abort (Timer × Option TimerEvent)} (hquiet : ¬ s.timer.Quiet)
    (hrunning : s.timer.Running → ∃ timer, (run = .ok (timer, none) ∨
      run = .ok (timer, some .timeout)) ∧ timer.Running)
    (hstopping : s.timer.Stopping → ∃ timer, run = .ok (timer, none) ∧ timer.Stopping ∨
      run = .ok (timer, some .stopped) ∧ timer.Quiet) :
    ∃ s', (run >>= fun r => ({ s with timer := r.1 } : Streamhdr).raise? (r.2.map .timer)) =
      .ok s' ∧ s'.Inv socktype := by
  -- a timer that runs may report a timeout
  have hwaits : s.timer.Running → (∀ timer q, timer.Running →
        (q = [] ∨ q = [StreamhdrEvent.timer .timeout]) →
        ({ s with timer := timer, events := q } : Streamhdr).Phase socktype) →
      ∃ s', (run >>= fun r => ({ s with timer := r.1 } : Streamhdr).raise? (r.2.map .timer)) =
        .ok s' ∧ s'.Inv socktype := by
    intro htimer hphase
    obtain ⟨timer, hrun | hrun, htimer'⟩ := hrunning htimer
    · refine ⟨{ s with timer := timer, events := [] }, ?_, ?_⟩
      · simp only [hrun, ok_bind, raise?, hq, raiseEvent?_nil, pure_eq_ok]
        rfl
      · exact .of_phase (hphase timer [] htimer' (Or.inl rfl)) (by simp) (by simp)
    · refine ⟨{ s with timer := timer, events := [.timer .timeout] }, ?_, ?_⟩
      · simp only [hrun, ok_bind, raise?, hq, raiseEvent?_nil, pure_eq_ok]
        rfl
      · exact .of_phase (hphase timer _ htimer' (Or.inr rfl)) (by simp) (by simp)
  -- a timer that is being stopped may report that it has
  have hstops : s.timer.Stopping → (∀ timer q, timer.Stopping ∧ q = [] ∨
        timer.Quiet ∧ q = [StreamhdrEvent.timer .stopped] →
        ({ s with timer := timer, events := q } : Streamhdr).Phase socktype) →
      ∃ s', (run >>= fun r => ({ s with timer := r.1 } : Streamhdr).raise? (r.2.map .timer)) =
        .ok s' ∧ s'.Inv socktype := by
    intro htimer hphase
    obtain ⟨timer, ⟨hrun, htimer'⟩ | ⟨hrun, htimer'⟩⟩ := hstopping htimer
    · refine ⟨{ s with timer := timer, events := [] }, ?_, ?_⟩
      · simp only [hrun, ok_bind, raise?, hq, raiseEvent?_nil, pure_eq_ok]
        rfl
      · exact .of_phase (hphase timer [] (Or.inl ⟨htimer', rfl⟩)) (by simp) (by simp)
    · refine ⟨{ s with timer := timer, events := [.timer .stopped] }, ?_, ?_⟩
      · simp only [hrun, ok_bind, raise?, hq, raiseEvent?_nil, pure_eq_ok]
        rfl
      · exact .of_phase (hphase timer _ (Or.inr ⟨htimer', rfl⟩)) (by simp) (by simp)
  cases h.phase with
  | idle hfsm hstate htimer => exact absurd htimer hquiet
  | sending hfsm hstate htimer hown hwait =>
      refine hwaits htimer fun timer q htimer' hq' => ?_
      exact .sending hfsm hstate htimer' ⟨hown.owner, hown.usockOwner, hown.usockSet⟩
        (hwait.congr hq hq' rfl rfl rfl rfl)
  | receiving hfsm hstate htimer hown hwait =>
      refine hwaits htimer fun timer q htimer' hq' => ?_
      exact .receiving hfsm hstate htimer' ⟨hown.owner, hown.usockOwner, hown.usockSet⟩
        (hwait.congr hq hq' rfl rfl rfl rfl)
  | failing hfsm hstate hown husock hq' =>
      rcases hq' with ⟨htimer, -⟩ | ⟨-, hq'⟩
      · refine hstops htimer fun timer q hq' => ?_
        exact .failing hfsm hstate ⟨hown.owner, hown.usockOwner, hown.usockSet⟩ husock
          (hq'.imp (fun h => ⟨h.1, Or.inl h.2⟩) id)
      · exact absurd (hq'.symm.trans hq) (by simp)
  | succeeding hfsm hstate hown hq' =>
      rcases hq' with ⟨htimer, -, hc⟩ | ⟨-, hq', -⟩ | ⟨-, hq', -⟩
      · refine hstops htimer fun timer q hq' => ?_
        have hc' : ({ s with timer := timer, events := q } : Streamhdr).Complete socktype :=
          hc.congr rfl rfl rfl rfl rfl
        exact .succeeding hfsm hstate ⟨hown.owner, hown.usockOwner, hown.usockSet⟩
          (hq'.imp (fun h => ⟨h.1, h.2, hc'⟩) fun h => Or.inr ⟨h.1, h.2, hc'⟩)
      · exact absurd (hq'.symm.trans hq) (by simp)
      · exact absurd (hq'.symm.trans hq) (by simp)
  | done hfsm hstate htimer => exact absurd htimer hquiet
  | stopping hfsm hstate hown husock hq' =>
      rcases hq' with ⟨htimer, -⟩ | ⟨-, hq'⟩
      · refine hstops htimer fun timer q hq' => ?_
        exact .stopping hfsm hstate ⟨hown.owner, hown.usockOwner, hown.usockSet⟩ husock
          (hq'.imp (fun h => ⟨h.1, Or.inl h.2⟩) id)
      · exact absurd (hq'.symm.trans hq) (by simp)

theorem timerTask_spec (h : s.Inv socktype) (hen : s.Enabled .timerTask) :
    ∃ s', s.next socktype .timerTask = .ok s' ∧ s'.Inv socktype := by
  refine timer_spec h hen.1 (fun hquiet => hen.2 hquiet.2.2.1) (fun htimer => ?_) fun htimer => ?_
  · obtain ⟨timer, hrun, htimer'⟩ := Timer.runTask_running htimer
    exact ⟨timer, Or.inl hrun, htimer'⟩
  · rcases Timer.runTask_stopping htimer with ⟨timer, hrun⟩ | ⟨timer, hrun⟩
    · exact ⟨timer, Or.inl hrun⟩
    · exact ⟨timer, Or.inr hrun⟩

theorem timerExpire_spec (h : s.Inv socktype) (hen : s.Enabled .timerExpire) :
    ∃ s', s.next socktype .timerExpire = .ok s' ∧ s'.Inv socktype := by
  refine timer_spec h hen.1 (fun hquiet => ?_) (fun htimer => ?_) fun htimer => ?_
  · exact absurd (hquiet.2.2.2.symm.trans hen.2) (by simp)
  · obtain ⟨timer, hrun, htimer'⟩ := Timer.expire_running htimer hen.2
    exact ⟨timer, Or.inr hrun, htimer'⟩
  · obtain ⟨timer, hrun, htimer'⟩ := Timer.expire_stopping htimer
    exact ⟨timer, Or.inl ⟨hrun, htimer'⟩⟩

/-! ## The peer sends -/

theorem Exchange.arrive {n : Nat} (h : s.Exchange socktype n) (bytes : List UInt8) :
    ({ s with wire := s.wire ++ bytes, arrived := s.arrived ++ bytes } :
      Streamhdr).Exchange socktype n where
  up := h.up
  length := h.length
  read := by
    simp only [← h.read, List.append_assoc]
  wrote := h.wrote

theorem Complete.arrive (h : s.Complete socktype) (bytes : List UInt8) :
    ({ s with wire := s.wire ++ bytes, arrived := s.arrived ++ bytes } :
      Streamhdr).Complete socktype :=
  ⟨h.exchange.arrive bytes, h.idle, h.protohdr, h.accepted⟩

theorem Awaiting.arrive {n : Nat} {report : UsockEvent} {opened : Usock → Prop}
    (h : s.Awaiting socktype n report opened) (bytes : List UInt8) :
    ({ s with wire := s.wire ++ bytes, arrived := s.arrived ++ bytes } :
      Streamhdr).Awaiting socktype n report opened := by
  cases h with
  | waiting hq hex hopen => exact .waiting hq (hex.arrive bytes) hopen
  | reported hq hex hidle => exact .reported hq (hex.arrive bytes) hidle
  | broken hq hbroken => exact .broken hq hbroken

theorem Inv.arrive (h : s.Inv socktype) (bytes : List UInt8) :
    ({ s with wire := s.wire ++ bytes, arrived := s.arrived ++ bytes } :
      Streamhdr).Inv socktype := by
  refine ⟨?_, fun hok => (h.ok hok).arrive bytes, h.handed⟩
  cases h.phase with
  | idle hfsm hstate htimer hq howner hset => exact .idle hfsm hstate htimer hq howner hset
  | sending hfsm hstate htimer hown hwait =>
      exact .sending hfsm hstate htimer ⟨hown.owner, hown.usockOwner, hown.usockSet⟩
        (hwait.arrive bytes)
  | receiving hfsm hstate htimer hown hwait =>
      exact .receiving hfsm hstate htimer ⟨hown.owner, hown.usockOwner, hown.usockSet⟩
        (hwait.arrive bytes)
  | failing hfsm hstate hown husock hq =>
      exact .failing hfsm hstate ⟨hown.owner, hown.usockOwner, hown.usockSet⟩ husock hq
  | succeeding hfsm hstate hown hq =>
      exact .succeeding hfsm hstate ⟨hown.owner, hown.usockOwner, hown.usockSet⟩
        (hq.imp (fun h => ⟨h.1, h.2.1, h.2.2.arrive bytes⟩)
          (Or.imp id fun h => ⟨h.1, h.2.1, h.2.2.arrive bytes⟩))
  | done hfsm hstate htimer howner husockOwner hset hq =>
      exact .done hfsm hstate htimer howner husockOwner hset hq
  | stopping hfsm hstate hown husock hq =>
      exact .stopping hfsm hstate ⟨hown.owner, hown.usockOwner, hown.usockSet⟩ husock hq

/-! ## Orderly runs -/

theorem inv_init : ({} : Streamhdr).Inv socktype :=
  .of_phase (.idle rfl rfl Timer.quiet_default (by simp) (fun _ => rfl) fun _ => rfl) (by simp)
    (by simp)

/-- A step of the machine itself or of its timer succeeds. -/
theorem step_spec (h : s.Inv socktype) {l : Label} (hl : ∀ w, l ≠ .usockWork w)
    (hen : s.Enabled l) (horderly : s.Orderly l) :
    ∃ s', s.next socktype l = .ok s' ∧ s'.Inv socktype := by
  cases l with
  | start batch wire io => exact start_spec h hen horderly
  | stop => exact stop_spec h
  | deliver io => exact deliver_spec h hen horderly
  | usockWork w => exact absurd rfl (hl w)
  | timerTask => exact timerTask_spec h hen
  | timerExpire => exact timerExpire_spec h hen
  | arrive bytes => exact ⟨_, rfl, h.arrive bytes⟩

theorem Inv.step (h : s.Inv socktype) {l : Label} {s' : Streamhdr}
    (hstep : ((system socktype).restrict Orderly).step s l s') : s'.Inv socktype := by
  obtain ⟨horderly, hen, hnext⟩ := hstep
  by_cases hl : ∀ w, l ≠ .usockWork w
  · obtain ⟨s'', hnext', h'⟩ := step_spec h hl hen horderly
    obtain rfl := Except.ok.inj (hnext.symm.trans hnext')
    exact h'
  · obtain ⟨w, hw⟩ := not_forall.mp hl
    obtain rfl := not_not.mp hw
    exact usockWork_spec h hen hnext

theorem inv_reachable (hs : ((system socktype).restrict Orderly).Reachable s) :
    s.Inv socktype :=
  hs.invariant (fun _ h => h ▸ inv_init) fun _ _ _ _ h hstep => h.step hstep

/-- In an orderly run no event ends the process.  OK is raised when the local header was
sent and the peer has sent one on this connection that the socket accepts, on a usock that
is up; and with either result the usock is the session's again and the timer is idle. -/
theorem result_sound (hs : ((system socktype).restrict Orderly).Reachable s) :
    (∀ l, (∀ w, l ≠ .usockWork w) → s.Enabled l → s.Orderly l →
      ∃ s', s.next socktype l = .ok s') ∧
    (.ok ∈ s.events → s.written = protocolHeader socktype.protocol ∧
      s.protohdr <+: s.arrived ∧ s.protohdr.length = 8 ∧ socktype.acceptsHeader s.protohdr ∧
      s.usock.state = .active) ∧
    (.ok ∈ s.events ∨ .error ∈ s.events →
      s.owner = some .session ∧ s.timer.fsm = .idle ∧ s.timerIsIdle = true) := by
  have h := inv_reachable hs
  refine ⟨?_, ?_, ?_⟩
  · intro l hl hen horderly
    obtain ⟨s', hnext, -⟩ := step_spec h hl hen horderly
    exact ⟨s', hnext⟩
  · intro hok
    have hc := h.ok hok
    refine ⟨?_, ?_, ?_, hc.accepted, hc.exchange.up.steady.state⟩
    · have hwrote := hc.exchange.wrote
      rw [hc.idle.1.out, List.flatten_nil, List.append_nil] at hwrote
      exact hwrote
    · rw [hc.protohdr]
      exact ⟨_, hc.exchange.read⟩
    · rw [hc.protohdr]
      have hlength := hc.exchange.length
      rw [hc.idle.2.inLen] at hlength
      exact hlength
  · intro hresult
    refine ⟨h.handed hresult, ?_⟩
    -- a result is queued in two states only, and the timer is idle in both
    have hnone : ∀ q : List StreamhdrEvent, s.events = q →
        (∀ e ∈ q, e ≠ .ok ∧ e ≠ .error) → s.timer.fsm = .idle ∧ s.timerIsIdle = true := by
      intro q hq hno
      rw [hq] at hresult
      rcases hresult with hresult | hresult
      · exact absurd rfl (hno _ hresult).1
      · exact absurd rfl (hno _ hresult).2
    have hidle : s.timer.Quiet → StreamhdrEvent.timer .stopped ∉ s.events →
        s.timer.fsm = .idle ∧ s.timerIsIdle = true := by
      intro htimer hno
      exact ⟨htimer.1, by simp [timerIsIdle, Timer.isIdle, htimer.1, hno]⟩
    cases h.phase with
    | idle hfsm hstate htimer hq =>
        refine hidle htimer fun hm => ?_
        rcases hq _ hm with he | he | he <;> exact absurd he (by simp)
    | sending hfsm hstate htimer hown hwait =>
        rcases hwait.events with hq | hq | ⟨type, hq⟩ <;> exact hnone _ hq (by simp)
    | receiving hfsm hstate htimer hown hwait =>
        rcases hwait.events with hq | hq | ⟨type, hq⟩ <;> exact hnone _ hq (by simp)
    | failing hfsm hstate hown husock hq =>
        rcases hq with ⟨-, hq | ⟨type, hq, -⟩⟩ | ⟨-, hq⟩ <;> exact hnone _ hq (by simp)
    | succeeding hfsm hstate hown hq =>
        rcases hq with ⟨-, hq, -⟩ | ⟨-, hq, -⟩ | ⟨-, hq, -⟩ <;> exact hnone _ hq (by simp)
    | done hfsm hstate htimer howner husockOwner hset hq =>
        refine hidle htimer fun hm => ?_
        rcases hq with hq | hq | hq <;> simp [hq] at hm
    | stopping hfsm hstate hown husock hq =>
        rcases hq with ⟨-, hq | hq | ⟨type, hq⟩⟩ | ⟨-, hq⟩ <;> exact hnone _ hq (by simp)

/-- A socket of the PAIR protocol. -/
def pairSocktype : Socktype := ⟨16, fun socktype => socktype = 16⟩

/-- The runs computed from the beginning. -/
def run (socktype : Socktype) (labels : List Label) : Option Streamhdr :=
  System.follow (tryNext socktype) {} labels

/-- The orderly ones. -/
def orderlyRun (socktype : Socktype) (labels : List Label) : Option Streamhdr :=
  System.follow (fun s l => if s.Orderly l then s.tryNext socktype l else none) {} labels

theorem run_reachable {labels : List Label} (h : run socktype labels = some s) :
    (system socktype).Reachable s :=
  (System.Reachable.start rfl).follow (fun _ _ _ => tryNext_step) h

theorem orderlyRun_reachable {labels : List Label} (h : orderlyRun socktype labels = some s) :
    ((system socktype).restrict Orderly).Reachable s := by
  refine (System.Reachable.start rfl).follow (fun s l s' hnext => ?_) h
  split at hnext
  · rename_i horderly
    exact ⟨horderly, tryNext_step hnext⟩
  · exact absurd hnext (by simp)

/-- Two such sockets exchange their headers. -/
theorem result_sound_pair : ∃ s, ((system pairSocktype).restrict Orderly).Reachable s ∧
    .ok ∈ s.events ∧ s.written = protocolHeader 16 ∧ s.protohdr <+: s.arrived ∧
      s.owner = some .session := by
  have hrun : (orderlyRun pairSocktype
      [.start [] (protocolHeader 16) (.bytes 8), .deliver (.bytes 8), .deliver (.bytes 0),
        .timerTask, .timerTask, .deliver (.bytes 0)]).any
      (fun s => .ok ∈ s.events) = true := by decide +kernel
  obtain ⟨s, hfollow, hok⟩ := (Option.any_eq_true _ _).mp hrun
  have hs := orderlyRun_reachable hfollow
  have hok := of_decide_eq_true hok
  obtain ⟨-, hresult, hhanded⟩ := result_sound hs
  exact ⟨s, hs, hok, (hresult hok).1, (hresult hok).2.1, (hhanded (Or.inl hok)).1⟩

/-- A header that comes just after the timeout ends the process; a connection that breaks
just after the headers were exchanged is reported as a success; and so is one on which no
header has come, if a header was left in the batch buffer. -/
theorem not_result_sound :
    (∃ s, (system pairSocktype).Reachable s ∧ s.Enabled (.deliver (.bytes 0)) ∧
      s.next pairSocktype (.deliver (.bytes 0)) = .error .assertion) ∧
    (∃ s, (system pairSocktype).Reachable s ∧ .ok ∈ s.events ∧ s.usock.state = .done) ∧
    ∃ s, (system pairSocktype).Reachable s ∧ .ok ∈ s.events ∧ s.arrived = [] ∧
      ¬ s.protohdr <+: s.arrived := by
  have hlate : (run pairSocktype
      [.start [] [] (.bytes 8), .deliver (.bytes 0), .timerTask, .timerExpire,
        .deliver (.bytes 0), .arrive (protocolHeader 16), .usockWork .task,
        .usockWork (.fdIn (.bytes 8))]).any
      (fun s => s.Enabled (.deliver (.bytes 0)) ∧
        s.state = .stoppingTimerError ∧ s.events = [.usock .received] ∧ s.fsm = .active) =
      true := by decide +kernel
  have hbroken : (run pairSocktype
      [.start [] (protocolHeader 16) (.bytes 8), .deliver (.bytes 8), .deliver (.bytes 0),
        .usockWork .fdErr, .deliver (.bytes 0), .timerTask, .timerTask, .deliver (.bytes 0)]).any
      (fun s => .ok ∈ s.events ∧ s.usock.state = .done) = true := by decide +kernel
  have hleft : (run pairSocktype
      [.start (protocolHeader 16) [] (.bytes 8), .deliver (.bytes 8), .deliver (.bytes 0),
        .timerTask, .timerTask, .deliver (.bytes 0)]).any
      (fun s => .ok ∈ s.events ∧ s.arrived = [] ∧ ¬ s.protohdr <+: s.arrived) = true := by
    decide +kernel
  obtain ⟨s, hs, hend⟩ := (Option.any_eq_true _ _).mp hlate
  obtain ⟨s', hs', hend'⟩ := (Option.any_eq_true _ _).mp hbroken
  obtain ⟨s'', hs'', hend''⟩ := (Option.any_eq_true _ _).mp hleft
  obtain ⟨hen, hstate, hq, hfsm⟩ := of_decide_eq_true hend
  refine ⟨⟨s, run_reachable hs, hen, ?_⟩, ⟨s', run_reachable hs', of_decide_eq_true hend'⟩,
    s'', run_reachable hs'', of_decide_eq_true hend''⟩
  rw [next_deliver hq, deliver, hfsm, if_neg (by simp), usockHandler, hstate]
  rfl

end Streamhdr

end GridMq.Transports
