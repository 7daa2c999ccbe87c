import GridMq.Protocols.Boxes
import GridMq.Survey.SurveyorRuns

set_option autoImplicit false

/-!
# Where the messages of a SURVEYOR socket come from

What waits on the pipes has arrived there, and what was given to the pipes is the survey of the
user.
-/

namespace GridMq.Survey

open GridMq.Core GridMq.Protocols GridMq.Aio GridMq.ReqRep

variable {In Out : Nat → List UInt8 → Prop}

namespace Xsurveyor

/-- The messages that wait on the pipes and those that were given to them. -/
def Boxed (In Out : Nat → List UInt8 → Prop) (x : Xsurveyor) : Prop :=
  ∀ p pipe, x.pipes p = some pipe → Protocols.Boxed (In p) (Out p) pipe

variable {x x' : Xsurveyor} {p : Nat}

theorem Boxed.congr (h : x.Boxed In Out) (hpipes : x'.pipes = x.pipes) : x'.Boxed In Out :=
  fun q pipe hq => h q pipe (hpipes ▸ hq)

theorem Boxed.update {pipe : Pipe (Session (List UInt8))} (h : x.Boxed In Out)
    (hpipe : Protocols.Boxed (In p) (Out p) pipe) : (x.setPipe p (some pipe)).Boxed In Out := by
  intro q pipe' hq
  unfold setPipe at hq
  simp only at hq
  split at hq
  · rename_i hqp
    obtain rfl := Option.some.inj hq
    exact hqp ▸ hpipe
  · exact h q pipe' hq

theorem Boxed.add {sndprio rcvprio : Nat} (h : x.Boxed In Out)
    (hcall : x.add p sndprio rcvprio = .ok x') : x'.Boxed In Out := by
  obtain ⟨_, -, hcall⟩ := bind_eq_ok_iff.mp hcall
  obtain rfl := Except.ok.inj hcall
  exact h.update (.start _ _ sndprio rcvprio)

theorem Boxed.rm (h : x.Boxed In Out) (hcall : x.rm p = .ok x') : x'.Boxed In Out := by
  obtain ⟨pipe, -, hcall⟩ := bind_eq_ok_iff.mp hcall
  obtain rfl := Except.ok.inj hcall
  intro q pipe' hq
  unfold setPipe at hq
  simp only at hq
  split at hq
  · exact absurd hq (by simp)
  · exact h q pipe' hq

theorem Boxed.xsurveyorIn (h : x.Boxed In Out) (hcall : x.xsurveyorIn p = .ok x') :
    x'.Boxed In Out := by
  obtain ⟨pipe, -, hcall⟩ := bind_eq_ok_iff.mp hcall
  obtain ⟨inpipes, -, hcall⟩ := bind_eq_ok_iff.mp hcall
  obtain rfl := Except.ok.inj hcall
  exact h.congr rfl

theorem Boxed.xsurveyorOut (h : x.Boxed In Out) (hcall : x.xsurveyorOut p = .ok x') :
    x'.Boxed In Out := by
  obtain ⟨pipe, -, hcall⟩ := bind_eq_ok_iff.mp hcall
  obtain ⟨outpipes, -, hcall⟩ := bind_eq_ok_iff.mp hcall
  obtain rfl := Except.ok.inj hcall
  exact h.congr rfl

theorem Boxed.pipeSend {msg : Msg} {r : Xsurveyor × Bool} (h : x.Boxed In Out)
    (hmsg : ∀ q, Out q msg.wire) (hcall : pipeSend msg x p = .ok r) : r.1.Boxed In Out := by
  obtain ⟨pipe, hget, hcall⟩ := bind_eq_ok_iff.mp hcall
  obtain ⟨sent, hsend, hcall⟩ := bind_eq_ok_iff.mp hcall
  obtain rfl := Except.ok.inj hcall
  exact h.update ((h p pipe (getPipe_eq_ok hget)).send (hmsg p) hsend)

/-- A message that is sent is the one that was given, on every pipe. -/
theorem Boxed.send {msg : Msg} (h : x.Boxed In Out) (hmsg : ∀ q, Out q msg.wire)
    (hcall : x.send msg = .ok x') : x'.Boxed In Out := by
  obtain ⟨r, hsend, hcall⟩ := bind_eq_ok_iff.mp hcall
  obtain rfl := Except.ok.inj hcall
  have hkeeps : x.Boxed In Out → r.2.Boxed In Out := by
    refine Dist.send_induction (R := fun x x' => x.Boxed In Out → x'.Boxed In Out)
      (fun _ hx => hx) ?_ hsend
    intro x₁ q r₁ x₂ hpipe hrest hx
    exact hrest (hx.pipeSend hmsg hpipe)
  exact (hkeeps h).congr rfl

/-- A message that is received was waiting on a pipe. -/
theorem Boxed.fqRecv {r : Xsurveyor × Option (List UInt8)} (h : x.Boxed In Out)
    (hcall : x.fqRecv = .ok r) :
    r.1.Boxed In Out ∧ ∀ wire, r.2 = some wire → ∃ q, In q wire := by
  obtain ⟨o, -, hcall⟩ := bind_eq_ok_iff.mp hcall
  cases o with
  | none =>
      obtain rfl := Except.ok.inj hcall
      exact ⟨h, fun wire hw => absurd hw (by simp)⟩
  | some d =>
      obtain ⟨pipe, hget, hcall⟩ := bind_eq_ok_iff.mp hcall
      obtain ⟨received, hrecv, hcall⟩ := bind_eq_ok_iff.mp hcall
      obtain ⟨inpipes, -, hcall⟩ := bind_eq_ok_iff.mp hcall
      obtain rfl := Except.ok.inj hcall
      obtain ⟨hpipe, hin⟩ := (h d.pipe pipe (getPipe_eq_ok hget)).recv hrecv
      refine ⟨(h.update hpipe).congr rfl, ?_⟩
      intro wire hw
      obtain rfl := Option.some.inj hw
      exact ⟨d.pipe, hin⟩

theorem Boxed.receivedMsg {wire : List UInt8} {r : Xsurveyor × Bool} (h : x.Boxed In Out)
    (hin : In p wire) (hcall : x.receivedMsg p wire = .ok r) : r.1.Boxed In Out := by
  obtain ⟨pipe, hget, hcall⟩ := bind_eq_ok_iff.mp hcall
  obtain ⟨arrived, harrive, hcall⟩ := bind_eq_ok_iff.mp hcall
  obtain rfl := Except.ok.inj hcall
  exact h.update ((h p pipe (getPipe_eq_ok hget)).arrive hin harrive)

theorem Boxed.sentMsg {r : Xsurveyor × Bool} (h : x.Boxed In Out)
    (hcall : x.sentMsg p = .ok r) : r.1.Boxed In Out := by
  obtain ⟨pipe, hget, hcall⟩ := bind_eq_ok_iff.mp hcall
  obtain ⟨sent, hsent, hcall⟩ := bind_eq_ok_iff.mp hcall
  obtain rfl := Except.ok.inj hcall
  exact h.update ((h p pipe (getPipe_eq_ok hget)).sent hsent)

end Xsurveyor

namespace Surveyor

/-- The messages of a socket: those that are reported, those on the pipes, and the survey while
it is in progress. -/
structure Boxed (In Out : Nat → List UInt8 → Prop) (s : Surveyor) : Prop where
  xsurveyor : s.xsurveyor.Boxed In Out
  reported : ∀ p wire, Event.transport (.received p wire) ∈ s.events → In p wire
  survey : s.inprogress = true → ∀ q, Out q s.tosend.wire

variable {s s' : Surveyor} {p : Nat}

theorem Boxed.congr (h : s.Boxed In Out) (hx : s'.xsurveyor = s.xsurveyor)
    (hevents : s'.events = s.events) (htosend : s'.tosend = s.tosend)
    (hprog : s'.inprogress = true → s.inprogress = true) : s'.Boxed In Out where
  xsurveyor := hx ▸ h.xsurveyor
  reported q wire hq := h.reported q wire (hevents ▸ hq)
  survey hp := htosend ▸ h.survey (hprog hp)

theorem Boxed.mono {In' Out' : Nat → List UInt8 → Prop} (h : s.Boxed In Out)
    (hin : ∀ p wire, In p wire → In' p wire) (hout : ∀ p wire, Out p wire → Out' p wire) :
    s.Boxed In' Out' where
  xsurveyor q pipe hq := (h.xsurveyor q pipe hq).mono (hin q) (hout q)
  reported q wire hq := hin q wire (h.reported q wire hq)
  survey hp q := hout q _ (h.survey hp q)

/-- The pipes change, and nothing else. -/
theorem Boxed.pipes {x' : Xsurveyor} (h : s.Boxed In Out) (hx : x'.Boxed In Out) :
    ({ s with xsurveyor := x' } : Surveyor).Boxed In Out := ⟨hx, h.reported, h.survey⟩

theorem Boxed.raise {e : Event} (h : s.Boxed In Out) (he : ∀ t, e ≠ .transport t)
    (hcall : s.raise e = .ok s') : s'.Boxed In Out := by
  obtain ⟨_, -, hcall⟩ := bind_eq_ok_iff.mp hcall
  obtain rfl := Except.ok.inj hcall
  refine ⟨h.xsurveyor, ?_, h.survey⟩
  intro q wire hq
  rcases List.mem_append.mp hq with hq | hq
  · exact h.reported q wire hq
  · exact absurd (List.mem_singleton.mp hq).symm (he _)

theorem Boxed.raiseIf {e : Event} {cond : Bool} (h : s.Boxed In Out) (he : ∀ t, e ≠ .transport t)
    (hcall : s.raiseIf cond e = .ok s') : s'.Boxed In Out := by
  unfold Surveyor.raiseIf at hcall
  split at hcall
  · exact h.raise he hcall
  · obtain rfl := Except.ok.inj hcall
    exact h

/-! ## The state machine -/

theorem Boxed.launch (h : s.Boxed In Out) (hsurvey : ∀ q, Out q s.tosend.wire)
    (hcall : s.launch = .ok s') : s'.Boxed In Out := by
  obtain ⟨s₁, hresend, hcall⟩ := bind_eq_ok_iff.mp hcall
  obtain ⟨x', hsend, hret⟩ := bind_eq_ok_iff.mp hresend
  obtain rfl := Except.ok.inj hret
  obtain ⟨timer, -, hret⟩ := bind_eq_ok_iff.mp hcall
  obtain rfl := Except.ok.inj hret
  exact ⟨h.xsurveyor.send hsurvey hsend, h.reported, fun _ => hsurvey⟩

/-- What the handler can do: send the survey, or change the state and the timer and nothing
else. -/
theorem handler_cases {src : SurveyorSource} (hcall : s.handler src = .ok s') :
    (s.launch = .ok s' ∧ (s.inprogress = true ∨ src = .action .start)) ∨
    ∃ state timer timedout,
      s' = { s with state := state, timer := timer, timedout := timedout } ∧
      (s'.inprogress = true → s.inprogress = true) := by
  unfold handler at hcall
  cases hstate : s.state with
  | idle =>
      simp only [hstate] at hcall
      split at hcall
      · exact Or.inr ⟨_, _, _, (Except.ok.inj hcall).symm, by
          rw [← Except.ok.inj hcall]
          simp [inprogress]⟩
      · exact absurd hcall (by simp)
      · exact absurd hcall (by simp)
  | passive =>
      simp only [hstate] at hcall
      split at hcall
      · exact Or.inl ⟨hcall, Or.inr rfl⟩
      · exact absurd hcall (by simp)
      · exact absurd hcall (by simp)
  | stopping =>
      simp only [hstate] at hcall
      exact absurd hcall (by simp)
  | _ =>
      have hprog : s.inprogress = true := by simp [inprogress, hstate]
      simp only [hstate] at hcall
      split at hcall
      all_goals first
        | exact Or.inl ⟨hcall, Or.inl hprog⟩
        | exact Or.inr ⟨_, _, _, (Except.ok.inj hcall).symm, fun _ => hprog⟩
        | obtain ⟨timer, -, hret⟩ := bind_eq_ok_iff.mp hcall
          exact Or.inr ⟨_, _, _, (Except.ok.inj hret).symm, fun _ => hprog⟩
        | exact absurd hcall (by simp)

theorem Boxed.handler {src : SurveyorSource} (h : s.Boxed In Out)
    (hstart : src = .action .start → ∀ q, Out q s.tosend.wire)
    (hcall : s.handler src = .ok s') : s'.Boxed In Out := by
  rcases handler_cases hcall with ⟨hlaunch, hwhy⟩ | ⟨state, timer, timedout, rfl, hprog⟩
  · exact h.launch (hwhy.elim h.survey hstart) hlaunch
  · exact h.congr rfl rfl rfl hprog

/-! ## The functions of the socket type -/

/-- A response that is handed over came in on a pipe. -/
def FromPipe (In : Nat → List UInt8 → Prop) (r : SurveyorResult) : Prop :=
  ∀ wire msg, r = .response wire msg → ∃ q, In q wire

/-- A new survey takes the place of the last one. -/
theorem Boxed.send {msg : Msg} {r : Surveyor × SurveyorResult} (h : s.Boxed In Out)
    (hbody : ∀ q, Out q (putl (nextId s.surveyid) ++ msg.body)) (hcall : s.send msg = .ok r) :
    r.1.Boxed In Out ∧ FromPipe In r.2 := by
  obtain ⟨_, -, hcall⟩ := bind_eq_ok_iff.mp hcall
  have hnew : ({ s with
      surveyid := nextId s.surveyid
      tosend := { sphdr := putl (nextId s.surveyid), body := msg.body } } : Surveyor).Boxed
        In Out := ⟨h.xsurveyor, h.reported, fun _ => hbody⟩
  simp only at hcall
  split at hcall
  · split at hcall
    · obtain rfl := Except.ok.inj hcall
      exact ⟨hnew, fun wire msg hm => absurd hm (by simp)⟩
    · obtain ⟨s₁, hcancel, hret⟩ := bind_eq_ok_iff.mp hcall
      obtain rfl := Except.ok.inj hret
      exact ⟨hnew.handler (by simp) hcancel, fun wire msg hm => absurd hm (by simp)⟩
  · obtain ⟨s₁, hstart, hret⟩ := bind_eq_ok_iff.mp hcall
    obtain rfl := Except.ok.inj hret
    exact ⟨hnew.handler (fun _ => hbody) hstart, fun wire msg hm => absurd hm (by simp)⟩

theorem Boxed.xsurveyorRecv {slot : Slot (List UInt8)}
    {r : Surveyor × Slot (List UInt8) × Option Msg} (h : s.Boxed In Out)
    (hcall : s.xsurveyorRecv slot = .ok r) :
    r.1.Boxed In Out ∧ ∀ msg, r.2.2 = some msg → ∃ q, In q (msg.sphdr ++ msg.body) := by
  obtain ⟨t, hrecv, hcall⟩ := bind_eq_ok_iff.mp hcall
  obtain ⟨hx, hin⟩ := h.xsurveyor.fqRecv hrecv
  split at hcall
  · obtain rfl := Except.ok.inj hcall
    exact ⟨h.pipes hx, fun msg hm => absurd hm (by simp)⟩
  · rename_i wire hwire
    split at hcall
    · obtain rfl := Except.ok.inj hcall
      exact ⟨⟨hx, h.reported, h.survey⟩, fun msg hm => absurd hm (by simp)⟩
    · rename_i msg hsplit
      obtain rfl := Except.ok.inj hcall
      refine ⟨⟨hx, h.reported, h.survey⟩, ?_⟩
      intro msg' hm
      obtain rfl := Option.some.inj hm
      rw [← (xreqSplit_eq_some hsplit).1]
      exact hin wire hwire

theorem Boxed.recvLoop (n : Nat) : ∀ {s : Surveyor} {slot : Slot (List UInt8)}
    {r : Surveyor × Slot (List UInt8) × SurveyorResult}, s.Boxed In Out →
    Surveyor.recvLoop n s slot = .ok r → r.1.Boxed In Out ∧ FromPipe In r.2.2 := by
  induction n with
  | zero =>
      intro s slot r _ hcall
      exact absurd hcall (by simp [Surveyor.recvLoop])
  | succ n ih =>
      intro s slot r h hcall
      obtain ⟨t, hrecv, hcall⟩ := bind_eq_ok_iff.mp hcall
      obtain ⟨hboxed, hin⟩ := h.xsurveyorRecv hrecv
      split at hcall
      · obtain rfl := Except.ok.inj hcall
        exact ⟨hboxed, fun wire msg hm => absurd hm (by simp)⟩
      · rename_i msg hmsg
        split at hcall
        · exact ih hboxed hcall
        · split at hcall
          · exact ih hboxed hcall
          · obtain rfl := Except.ok.inj hcall
            refine ⟨⟨hboxed.xsurveyor, hboxed.reported, hboxed.survey⟩, ?_⟩
            intro wire msg' hm
            obtain ⟨rfl, -⟩ := SurveyorResult.response.inj hm
            exact hin msg hmsg

theorem Boxed.recv {slot : Slot (List UInt8)}
    {r : Surveyor × Slot (List UInt8) × SurveyorResult} (h : s.Boxed In Out)
    (hcall : s.recv slot = .ok r) : r.1.Boxed In Out ∧ FromPipe In r.2.2 := by
  unfold Surveyor.recv at hcall
  split at hcall
  · split at hcall
    · obtain rfl := Except.ok.inj hcall
      exact ⟨⟨h.xsurveyor, h.reported, h.survey⟩, fun wire msg hm => absurd hm (by simp)⟩
    · obtain rfl := Except.ok.inj hcall
      exact ⟨h, fun wire msg hm => absurd hm (by simp)⟩
  · exact h.recvLoop _ hcall

/-! ## The socket -/

theorem Boxed.transportEvent {e : TransportEvent} (h : s.Boxed In Out)
    (harrival : ∀ p wire, e = .received p wire → In p wire)
    (hcall : s.transportEvent e = .ok s') : s'.Boxed In Out := by
  cases e with
  | start p sndprio rcvprio =>
      simp only [Surveyor.transportEvent] at hcall
      split at hcall
      · obtain ⟨x', hadd, hraise⟩ := bind_eq_ok_iff.mp hcall
        exact (h.pipes (h.xsurveyor.add hadd)).raise (by simp) hraise
      · obtain rfl := Except.ok.inj hcall
        exact h
  | stop p =>
      simp only [Surveyor.transportEvent] at hcall
      split at hcall
      · obtain ⟨x', hrm, hret⟩ := bind_eq_ok_iff.mp hcall
        obtain rfl := Except.ok.inj hret
        exact h.pipes (h.xsurveyor.rm hrm)
      · obtain rfl := Except.ok.inj hcall
        exact h
  | received p wire =>
      simp only [Surveyor.transportEvent] at hcall
      split at hcall
      · obtain ⟨r, hreceived, hraise⟩ := bind_eq_ok_iff.mp hcall
        have hx := h.xsurveyor.receivedMsg (harrival p wire rfl) hreceived
        exact (h.pipes hx).raiseIf (by simp) hraise
      · obtain rfl := Except.ok.inj hcall
        exact h
  | sent p =>
      simp only [Surveyor.transportEvent] at hcall
      split at hcall
      · obtain ⟨r, hsent, hraise⟩ := bind_eq_ok_iff.mp hcall
        exact (h.pipes (h.xsurveyor.sentMsg hsent)).raiseIf (by simp) hraise
      · obtain rfl := Except.ok.inj hcall
        exact h

theorem Boxed.deliver {e : Event} (h : s.Boxed In Out)
    (harrival : ∀ p wire, e = .transport (.received p wire) → In p wire)
    (hcall : s.deliver e = .ok s') : s'.Boxed In Out := by
  cases e with
  | pipeIn p =>
      obtain ⟨x', hin, hret⟩ := bind_eq_ok_iff.mp hcall
      obtain rfl := Except.ok.inj hret
      exact h.pipes (h.xsurveyor.xsurveyorIn hin)
  | pipeOut p =>
      obtain ⟨x', hout, hret⟩ := bind_eq_ok_iff.mp hcall
      obtain rfl := Except.ok.inj hret
      exact h.pipes (h.xsurveyor.xsurveyorOut hout)
  | timer e =>
      have hhandler : s.handler (.deadlineTimer e) = .ok s' := hcall
      exact h.handler (by simp) hhandler
  | transport e => exact h.transportEvent (fun p wire he => harrival p wire (he ▸ rfl)) hcall
  | sockStopped => exact absurd hcall (by simp [Surveyor.deliver])

theorem Boxed.raiseTimer {r : Timer × Option TimerEvent} (h : s.Boxed In Out)
    (hcall : s.raiseTimer r = .ok s') : s'.Boxed In Out := by
  have htimer : ({ s with timer := r.1 } : Surveyor).Boxed In Out :=
    ⟨h.xsurveyor, h.reported, h.survey⟩
  unfold Surveyor.raiseTimer at hcall
  split at hcall
  · obtain rfl := Except.ok.inj hcall
    exact htimer
  · exact htimer.raise (by simp) hcall

/-- Every step keeps the conditions, if what it brings in and what it asks for meet them. -/
theorem Boxed.next {l : Label} {r : Surveyor × SurveyorResult} (h : s.Boxed In Out)
    (harrival : ∀ p wire, l = .notify (.received p wire) → In p wire)
    (hbody : ∀ msg, l = .send msg → ∀ q, Out q (putl (nextId s.surveyid) ++ msg.body))
    (hcall : s.next l = .ok r) : r.1.Boxed In Out ∧ FromPipe In r.2 := by
  have hother : ∀ wire msg, SurveyorResult.none = .response wire msg → ∃ q, In q wire :=
    fun wire msg hm => absurd hm (by simp)
  cases l with
  | notify e =>
      obtain rfl := Except.ok.inj hcall
      refine ⟨⟨h.xsurveyor, ?_, h.survey⟩, hother⟩
      intro p wire hp
      rcases List.mem_append.mp hp with hp | hp
      · exact h.reported p wire hp
      · have he := List.mem_singleton.mp hp
        obtain rfl := Event.transport.inj he
        exact harrival p wire rfl
  | deliver =>
      simp only [Surveyor.next] at hcall
      split at hcall
      · obtain rfl := Except.ok.inj hcall
        exact ⟨h, hother⟩
      · rename_i e events hevents
        obtain ⟨s₁, hdeliver, hret⟩ := bind_eq_ok_iff.mp hcall
        obtain rfl := Except.ok.inj hret
        have hpop : ({ s with events := events } : Surveyor).Boxed In Out := by
          refine ⟨h.xsurveyor, ?_, h.survey⟩
          intro p wire hp
          exact h.reported p wire (hevents ▸ List.mem_cons_of_mem e hp)
        refine ⟨hpop.deliver ?_ hdeliver, hother⟩
        intro p wire he
        exact h.reported p wire (hevents ▸ he ▸ List.mem_cons_self)
  | send msg => exact h.send (hbody msg rfl) hcall
  | recv slot =>
      obtain ⟨t, hrecv, hret⟩ := bind_eq_ok_iff.mp hcall
      obtain rfl := Except.ok.inj hret
      exact h.recv hrecv
  | setDeadline deadline =>
      obtain rfl := Except.ok.inj hcall
      exact ⟨⟨h.xsurveyor, h.reported, h.survey⟩, fun wire msg hm => absurd hm (by simp)⟩
  | workerTask | workerTimeout =>
      obtain ⟨t, -, hcall⟩ := bind_eq_ok_iff.mp hcall
      obtain ⟨s₁, hraise, hret⟩ := bind_eq_ok_iff.mp hcall
      obtain rfl := Except.ok.inj hret
      exact ⟨h.raiseTimer hraise, hother⟩

end Surveyor

end GridMq.Survey
