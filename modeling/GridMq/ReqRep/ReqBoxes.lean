import GridMq.Protocols.Boxes
import GridMq.ReqRep.ReqSteps

set_option autoImplicit false

/-!
# Where the messages of a REQ socket come from

What waits on the pipes has arrived there, and what was given to the pipes is the request of the
user.
-/

namespace GridMq.ReqRep

open GridMq.Core GridMq.Protocols GridMq.Aio

variable {In Out : Nat → List UInt8 → Prop}

namespace Xreq

/-- The messages that wait on the pipes and those that were given to them. -/
def Boxed (In Out : Nat → List UInt8 → Prop) (x : Xreq) : Prop :=
  ∀ p pipe, x.pipes p = some pipe → Protocols.Boxed (fun a => In p a.wire) (Out p) pipe

variable {x x' : Xreq} {p : Nat}

theorem Boxed.congr (h : x.Boxed In Out) (hpipes : x'.pipes = x.pipes) : x'.Boxed In Out :=
  fun q pipe hq => h q pipe (hpipes ▸ hq)

theorem Boxed.update {pipe : Pipe (Session Arrival)} (h : x.Boxed In Out)
    (hpipe : Protocols.Boxed (fun a => In p a.wire) (Out p) pipe) :
    (x.setPipe p (some pipe)).Boxed In Out := by
  intro q pipe' hq
  unfold setPipe at hq
  simp only at hq
  split at hq
  · rename_i hqp
    obtain rfl := Option.some.inj hq
    exact hqp ▸ hpipe
  · exact h q pipe' hq

theorem Boxed.add {sndprio rcvprio : Nat} (h : x.Boxed In Out)
    (hcall : x.add p sndprio rcvprio = .ok x') : x'.Boxed In Out := by
  obtain ⟨_, -, hcall⟩ := bind_eq_ok_iff.mp hcall
  obtain ⟨_, -, hcall⟩ := bind_eq_ok_iff.mp hcall
  obtain rfl := Except.ok.inj hcall
  exact h.update (.start _ _ sndprio rcvprio)

theorem Boxed.rm (h : x.Boxed In Out) (hcall : x.rm p = .ok x') : x'.Boxed In Out := by
  obtain ⟨pipe, -, hcall⟩ := bind_eq_ok_iff.mp hcall
  obtain ⟨_, -, hcall⟩ := bind_eq_ok_iff.mp hcall
  obtain rfl := Except.ok.inj hcall
  intro q pipe' hq
  unfold setPipe at hq
  simp only at hq
  split at hq
  · exact absurd hq (by simp)
  · exact h q pipe' hq

theorem Boxed.xreqIn (h : x.Boxed In Out) (hcall : x.xreqIn p = .ok x') : x'.Boxed In Out := by
  obtain ⟨pipe, -, hcall⟩ := bind_eq_ok_iff.mp hcall
  obtain ⟨fq, -, hcall⟩ := bind_eq_ok_iff.mp hcall
  obtain rfl := Except.ok.inj hcall
  exact h.congr rfl

theorem Boxed.xreqOut (h : x.Boxed In Out) (hcall : x.xreqOut p = .ok x') : x'.Boxed In Out := by
  obtain ⟨pipe, -, hcall⟩ := bind_eq_ok_iff.mp hcall
  obtain ⟨lb, -, hcall⟩ := bind_eq_ok_iff.mp hcall
  obtain ⟨_, -, hcall⟩ := bind_eq_ok_iff.mp hcall
  obtain rfl := Except.ok.inj hcall
  exact h.congr rfl

/-- A message that is sent is the one that was given. -/
theorem Boxed.sendTo {msg : Msg} {r : Xreq × Option Nat} (h : x.Boxed In Out)
    (hmsg : ∀ q, Out q msg.wire) (hcall : x.sendTo msg = .ok r) : r.1.Boxed In Out := by
  obtain ⟨o, -, hcall⟩ := bind_eq_ok_iff.mp hcall
  cases o with
  | none =>
      obtain rfl := Except.ok.inj hcall
      exact h
  | some d =>
      obtain ⟨pipe, hget, hcall⟩ := bind_eq_ok_iff.mp hcall
      obtain ⟨sent, hsend, hcall⟩ := bind_eq_ok_iff.mp hcall
      obtain ⟨lb, -, hcall⟩ := bind_eq_ok_iff.mp hcall
      obtain rfl := Except.ok.inj hcall
      have hpipe := (h d.pipe pipe (getPipe_eq_ok hget)).send (hmsg d.pipe) hsend
      exact (h.update hpipe).congr rfl

/-- A message that is received was waiting on a pipe. -/
theorem Boxed.fqRecv {r : Xreq × Option Arrival} (h : x.Boxed In Out)
    (hcall : x.fqRecv = .ok r) :
    r.1.Boxed In Out ∧ ∀ a, r.2 = some a → ∃ q, In q a.wire := by
  obtain ⟨o, -, hcall⟩ := bind_eq_ok_iff.mp hcall
  cases o with
  | none =>
      obtain rfl := Except.ok.inj hcall
      exact ⟨h, fun a ha => absurd ha (by simp)⟩
  | some d =>
      obtain ⟨pipe, hget, hcall⟩ := bind_eq_ok_iff.mp hcall
      obtain ⟨received, hrecv, hcall⟩ := bind_eq_ok_iff.mp hcall
      obtain ⟨fq, -, hcall⟩ := bind_eq_ok_iff.mp hcall
      obtain rfl := Except.ok.inj hcall
      obtain ⟨hpipe, hin⟩ := (h d.pipe pipe (getPipe_eq_ok hget)).recv hrecv
      refine ⟨(h.update hpipe).congr rfl, ?_⟩
      intro a ha
      obtain rfl := Option.some.inj ha
      exact ⟨d.pipe, hin⟩

theorem Boxed.receivedMsg {a : Arrival} {r : Xreq × Bool} (h : x.Boxed In Out)
    (ha : In p a.wire) (hcall : x.receivedMsg p a = .ok r) : r.1.Boxed In Out := by
  obtain ⟨pipe, hget, hcall⟩ := bind_eq_ok_iff.mp hcall
  obtain ⟨arrived, harrive, hcall⟩ := bind_eq_ok_iff.mp hcall
  obtain rfl := Except.ok.inj hcall
  exact h.update ((h p pipe (getPipe_eq_ok hget)).arrive ha harrive)

theorem Boxed.sentMsg {r : Xreq × Bool} (h : x.Boxed In Out) (hcall : x.sentMsg p = .ok r) :
    r.1.Boxed In Out := by
  obtain ⟨pipe, hget, hcall⟩ := bind_eq_ok_iff.mp hcall
  obtain ⟨sent, hsent, hcall⟩ := bind_eq_ok_iff.mp hcall
  obtain rfl := Except.ok.inj hcall
  exact h.update ((h p pipe (getPipe_eq_ok hget)).sent hsent)

end Xreq

namespace Req

/-- What a slot holds or has held. -/
def Holding (slot : Slot Reply) (wire : List UInt8) : Prop :=
  ∃ r : Reply, (slot = .live r ∨ slot = .stale r) ∧ r.arrival.wire = wire

/-- The messages of a socket: those that are reported, those on the pipes, the reply, and the
request while it is in progress. -/
structure Boxed (In Out : Nat → List UInt8 → Prop) (s : Req) : Prop where
  xreq : s.xreq.Boxed In Out
  reported : ∀ p wire, Event.transport (.received p wire) ∈ s.events → In p wire
  reply : ∀ wire, Holding s.reply wire → ∃ p, In p wire
  request : s.inprogress = true → ∀ q, Out q (s.request.content {}).wire

variable {s s' : Req} {p : Nat}

theorem Boxed.congr (h : s.Boxed In Out) (hxreq : s'.xreq = s.xreq) (hevents : s'.events = s.events)
    (hreply : s'.reply = s.reply) (hrequest : s'.request = s.request)
    (hprog : s'.inprogress = true → s.inprogress = true) : s'.Boxed In Out where
  xreq := hxreq ▸ h.xreq
  reported q wire hq := h.reported q wire (hevents ▸ hq)
  reply wire hw := h.reply wire (hreply ▸ hw)
  request hp := hrequest ▸ h.request (hprog hp)

theorem Boxed.mono {In' Out' : Nat → List UInt8 → Prop} (h : s.Boxed In Out)
    (hin : ∀ p wire, In p wire → In' p wire) (hout : ∀ p wire, Out p wire → Out' p wire) :
    s.Boxed In' Out' where
  xreq q pipe hq := (h.xreq q pipe hq).mono (fun a => hin q a.wire) (hout q)
  reported q wire hq := hin q wire (h.reported q wire hq)
  reply wire hw := by
    obtain ⟨q, hq⟩ := h.reply wire hw
    exact ⟨q, hin q wire hq⟩
  request hp q := hout q _ (h.request hp q)

/-- The pipes change, and nothing else. -/
theorem Boxed.pipes {x' : Xreq} (h : s.Boxed In Out) (hx : x'.Boxed In Out) :
    ({ s with xreq := x' } : Req).Boxed In Out :=
  ⟨hx, h.reported, h.reply, h.request⟩

theorem Boxed.raise {e : Event} (h : s.Boxed In Out) (he : ∀ t, e ≠ .transport t)
    (hcall : s.raise e = .ok s') : s'.Boxed In Out := by
  obtain ⟨_, -, hcall⟩ := bind_eq_ok_iff.mp hcall
  obtain rfl := Except.ok.inj hcall
  refine ⟨h.xreq, ?_, h.reply, h.request⟩
  intro q wire hq
  rcases List.mem_append.mp hq with hq | hq
  · exact h.reported q wire hq
  · exact absurd (List.mem_singleton.mp hq).symm (he _)

theorem Boxed.raiseIf {e : Event} {cond : Bool} (h : s.Boxed In Out) (he : ∀ t, e ≠ .transport t)
    (hcall : s.raiseIf cond e = .ok s') : s'.Boxed In Out := by
  unfold Req.raiseIf at hcall
  split at hcall
  · exact h.raise he hcall
  · obtain rfl := Except.ok.inj hcall
    exact h

/-! ## The state machine -/

theorem Boxed.actionSend {allowDelay : Bool} (h : s.Boxed In Out)
    (hrequest : ∀ q, Out q (s.request.content {}).wire)
    (hcall : s.actionSend allowDelay = .ok s') : s'.Boxed In Out := by
  obtain ⟨r, hsend, hcall⟩ := bind_eq_ok_iff.mp hcall
  have hx := h.xreq.sendTo hrequest hsend
  split at hcall
  · obtain ⟨_, -, hcall⟩ := bind_eq_ok_iff.mp hcall
    obtain rfl := Except.ok.inj hcall
    exact ⟨hx, h.reported, h.reply, fun _ => hrequest⟩
  · obtain ⟨timer, -, hcall⟩ := bind_eq_ok_iff.mp hcall
    obtain rfl := Except.ok.inj hcall
    exact ⟨hx, h.reported, h.reply, fun _ => hrequest⟩

theorem Boxed.leaveActive {state : ReqState} (h : s.Boxed In Out) (hprog : s.inprogress = true)
    (hcall : s.leaveActive state = .ok s') : s'.Boxed In Out := by
  obtain ⟨timer, -, hcall⟩ := bind_eq_ok_iff.mp hcall
  obtain rfl := Except.ok.inj hcall
  exact h.congr rfl rfl rfl rfl fun _ => hprog

/-- What the handler can do: send the request, leave ACTIVE, or change the state and nothing
else. -/
theorem handler_cases {src : ReqSource} (hcall : s.handler src = .ok s') :
    (∃ allowDelay, s.actionSend allowDelay = .ok s' ∧
      (s.inprogress = true ∨ src = .action .sent)) ∨
    (∃ state, s.leaveActive state = .ok s' ∧ s.inprogress = true) ∨
    ∃ state, s' = { s with state := state } ∧
      (({ s with state := state } : Req).inprogress = true → s.inprogress = true) := by
  unfold handler at hcall
  cases hstate : s.state with
  | idle =>
      simp only [hstate] at hcall
      split at hcall
      · exact Or.inr (Or.inr ⟨_, (Except.ok.inj hcall).symm, by simp [inprogress]⟩)
      · exact absurd hcall (by simp)
      · exact absurd hcall (by simp)
  | passive =>
      simp only [hstate] at hcall
      split at hcall
      · exact Or.inl ⟨_, hcall, Or.inr rfl⟩
      · exact absurd hcall (by simp)
      · exact absurd hcall (by simp)
  | stopping =>
      simp only [hstate] at hcall
      exact absurd hcall (by simp)
  | _ =>
      have hprog : s.inprogress = true := by simp [inprogress, hstate]
      simp only [hstate] at hcall
      split at hcall
      all_goals first
        | exact Or.inl ⟨_, hcall, Or.inl hprog⟩
        | exact Or.inr (Or.inl ⟨_, hcall, hprog⟩)
        | exact Or.inr (Or.inr ⟨_, (Except.ok.inj hcall).symm, fun _ => hprog⟩)
        | exact absurd hcall (by simp)

theorem Boxed.handler {src : ReqSource} (h : s.Boxed In Out)
    (hsent : src = .action .sent → ∀ q, Out q (s.request.content {}).wire)
    (hcall : s.handler src = .ok s') : s'.Boxed In Out := by
  rcases handler_cases hcall with ⟨_, hsend, hwhy⟩ | ⟨_, hleave, hprog⟩ | ⟨_, rfl, hprog⟩
  · exact h.actionSend (hwhy.elim h.request hsent) hsend
  · exact h.leaveActive hprog hleave
  · exact h.congr rfl rfl rfl rfl hprog

/-- What a stopped machine does at the end of `grid_req_shutdown`. -/
theorem Boxed.stopped (h : s.Boxed In Out)
    (hcall : (if s.state = .stopping then
        if s.timer.isIdle s.stoppedActive = true then do
          gridAssert (s.fsm = FsmState.stopping)
          ({ s with state := .idle, fsm := .idle } : Req).raise .sockStopped
        else return s
      else Except.error Abort.badState) = .ok s') : s'.Boxed In Out := by
  split at hcall
  · split at hcall
    · obtain ⟨_, -, hraise⟩ := bind_eq_ok_iff.mp hcall
      have hidle : ({ s with state := .idle, fsm := .idle } : Req).Boxed In Out :=
        h.congr rfl rfl rfl rfl (by simp [inprogress])
      exact hidle.raise (by simp) hraise
    · obtain rfl := Except.ok.inj hcall
      exact h
  · exact absurd hcall (by simp)

theorem Boxed.shutdown {src : ReqSource} (h : s.Boxed In Out)
    (hcall : s.shutdown src = .ok s') : s'.Boxed In Out := by
  unfold Req.shutdown at hcall
  split at hcall
  · obtain ⟨timer, -, hcall⟩ := bind_eq_ok_iff.mp hcall
    have hstopping : ({ s with timer := timer, state := .stopping } : Req).Boxed In Out :=
      h.congr rfl rfl rfl rfl (by simp [inprogress])
    exact hstopping.stopped hcall
  · exact h.stopped hcall

theorem Boxed.feed {src : ReqSource} (h : s.Boxed In Out)
    (hsent : src = .action .sent → ∀ q, Out q (s.request.content {}).wire)
    (hcall : s.feed src = .ok s') : s'.Boxed In Out := by
  unfold Req.feed at hcall
  split at hcall
  · exact h.shutdown hcall
  · exact h.handler hsent hcall

theorem Boxed.stop (h : s.Boxed In Out) (hcall : s.stop = .ok s') : s'.Boxed In Out := by
  unfold Req.stop at hcall
  split at hcall
  · have hstopping : ({ s with fsm := .stopping } : Req).Boxed In Out :=
      h.congr rfl rfl rfl rfl fun hp => hp
    exact hstopping.shutdown hcall
  · obtain rfl := Except.ok.inj hcall
    exact h

/-! ## Replies -/

theorem holding_term {slot : Slot Reply} {wire : List UInt8} (h : Holding slot.term.1 wire) :
    Holding slot wire := by
  obtain ⟨r, hr, hwire⟩ := h
  refine ⟨r, ?_, hwire⟩
  cases slot with
  | blank => exact absurd hr (by simp [Slot.term])
  | live m => simpa [Slot.term] using hr
  | stale m => simpa [Slot.term] using hr

theorem Boxed.termReply (h : s.Boxed In Out) : s.termReply.Boxed In Out where
  xreq := h.xreq
  reported := h.reported
  reply wire hw := h.reply wire (holding_term hw)
  request := h.request

/-- A reply that came in on a pipe is put into the slot. -/
theorem Boxed.putReply {r : Reply} (h : s.Boxed In Out) (hr : ∃ q, In q r.arrival.wire) :
    (s.putReply r).Boxed In Out where
  xreq := h.xreq
  reported := h.reported
  reply wire hw := by
    obtain ⟨r', hr', hwire⟩ := hw
    have hput : (s.putReply r).reply = .live r := by
      unfold Req.putReply
      cases s.reply <;> rfl
    rw [hput] at hr'
    rcases hr' with hr' | hr'
    · obtain rfl := Slot.live.inj hr'
      exact hwire ▸ hr
    · exact absurd hr' (by simp)
  request := h.request

theorem Boxed.xreqRecv {r : Req × Option Reply} (h : s.Boxed In Out)
    (hcall : s.xreqRecv = .ok r) :
    r.1.Boxed In Out ∧ ∀ reply, r.2 = some reply → ∃ q, In q reply.arrival.wire := by
  obtain ⟨t, hrecv, hcall⟩ := bind_eq_ok_iff.mp hcall
  obtain ⟨hx, hin⟩ := h.xreq.fqRecv hrecv
  have hpipes := h.pipes hx
  split at hcall
  · obtain rfl := Except.ok.inj hcall
    exact ⟨hpipes, fun reply hr => absurd hr (by simp)⟩
  · rename_i a ha
    split at hcall
    · obtain rfl := Except.ok.inj hcall
      exact ⟨(hpipes.putReply (hin a ha)).termReply, fun reply hr => absurd hr (by simp)⟩
    · obtain rfl := Except.ok.inj hcall
      refine ⟨hpipes.putReply (hin a ha), ?_⟩
      intro reply hr
      obtain rfl := Option.some.inj hr
      exact hin a ha

theorem Boxed.examine {reply : Reply} {r : Req × Bool} (h : s.Boxed In Out)
    (hreply : ∃ q, In q reply.arrival.wire) (hcall : s.examine reply = .ok r) :
    r.1.Boxed In Out := by
  have hdrop : s.termReply.Boxed In Out := h.termReply
  have htrim : (s.trimReply reply).Boxed In Out := by
    refine ⟨h.xreq, h.reported, ?_, h.request⟩
    intro wire hw
    obtain ⟨r', hr', hwire⟩ := hw
    rcases hr' with hr' | hr'
    · obtain rfl := Slot.live.inj hr'
      exact hwire ▸ hreply
    · exact absurd hr' (by simp [trimReply])
  unfold Req.examine at hcall
  split at hcall
  · obtain rfl := Except.ok.inj hcall
    exact hdrop
  · split at hcall
    · obtain rfl := Except.ok.inj hcall
      exact hdrop
    · split at hcall
      · obtain rfl := Except.ok.inj hcall
        exact hdrop
      · split at hcall
        · obtain rfl := Except.ok.inj hcall
          exact hdrop
        · simp only at hcall
          split at hcall
          · obtain ⟨s₁, hin, hret⟩ := bind_eq_ok_iff.mp hcall
            obtain rfl := Except.ok.inj hret
            exact htrim.feed (by simp) hin
          · obtain rfl := Except.ok.inj hcall
            exact htrim

theorem Boxed.inLoop (n : Nat) : ∀ {s s' : Req}, s.Boxed In Out → Req.inLoop n s = .ok s' →
    s'.Boxed In Out := by
  induction n with
  | zero =>
      intro s s' _ hcall
      exact absurd hcall (by simp [Req.inLoop])
  | succ n ih =>
      intro s s' h hcall
      obtain ⟨r, hrecv, hcall⟩ := bind_eq_ok_iff.mp hcall
      obtain ⟨hboxed, hin⟩ := h.xreqRecv hrecv
      split at hcall
      · obtain rfl := Except.ok.inj hcall
        exact hboxed
      · rename_i reply hreply
        obtain ⟨t, hexamine, hcall⟩ := bind_eq_ok_iff.mp hcall
        have hnext := hboxed.examine (hin reply hreply) hexamine
        split at hcall
        · exact ih hnext hcall
        · obtain rfl := Except.ok.inj hcall
          exact hnext

/-! ## The functions of the socket type -/

theorem Boxed.reqIn (h : s.Boxed In Out) (hcall : s.reqIn p = .ok s') : s'.Boxed In Out := by
  obtain ⟨xreq, hin, hcall⟩ := bind_eq_ok_iff.mp hcall
  exact (h.pipes (h.xreq.xreqIn hin)).inLoop _ hcall

theorem Boxed.reqOut (h : s.Boxed In Out) (hcall : s.reqOut p = .ok s') : s'.Boxed In Out := by
  obtain ⟨xreq, hout, hcall⟩ := bind_eq_ok_iff.mp hcall
  have hpipes := h.pipes (h.xreq.xreqOut hout)
  simp only at hcall
  split at hcall
  · exact hpipes.feed (by simp) hcall
  · obtain rfl := Except.ok.inj hcall
    exact hpipes

theorem Boxed.reqRm (h : s.Boxed In Out) (hcall : s.reqRm p = .ok s') : s'.Boxed In Out := by
  obtain ⟨xreq, hrm, hcall⟩ := bind_eq_ok_iff.mp hcall
  have hpipes := h.pipes (h.xreq.rm hrm)
  simp only at hcall
  split at hcall
  · exact hpipes.feed (by simp) hcall
  · obtain rfl := Except.ok.inj hcall
    exact hpipes

/-- A new request takes the place of the last one. -/
theorem Boxed.csend {body : List UInt8} (h : s.Boxed In Out)
    (hbody : ∀ q, Out q (putl (setTopBit ((s.id + 1) % 2 ^ 32)) ++ body))
    (hcall : s.csend body = .ok s') : s'.Boxed In Out := by
  have hslot : ∀ (slot : Slot Msg) (m : Msg), (slot.term.1.put m).1.content {} = m := by
    intro slot m
    cases slot <;> rfl
  unfold Req.csend at hcall
  refine feed (s := _) ?_ ?_ hcall
  · refine ⟨h.xreq, h.reported, h.reply, ?_⟩
    intro _
    rw [hslot]
    exact hbody
  · intro _
    rw [hslot]
    exact hbody

theorem Boxed.crecv {r : Req × Result} (h : s.Boxed In Out) (hcall : s.crecv = .ok r) :
    r.1.Boxed In Out := by
  unfold Req.crecv at hcall
  split at hcall
  · obtain rfl := Except.ok.inj hcall
    exact h
  · split at hcall
    · obtain rfl := Except.ok.inj hcall
      exact h
    · obtain ⟨s₁, hreceived, hret⟩ := bind_eq_ok_iff.mp hcall
      obtain rfl := Except.ok.inj hret
      refine feed (s := _) ?_ (by simp) hreceived
      refine ⟨h.xreq, h.reported, ?_, h.request⟩
      intro wire hw
      obtain ⟨r', hr', -⟩ := hw
      exact absurd hr' (by simp)

theorem Boxed.destroy (h : s.Boxed In Out) (hcall : s.destroy = .ok s') : s'.Boxed In Out := by
  obtain ⟨_, -, hcall⟩ := bind_eq_ok_iff.mp hcall
  obtain ⟨_, -, hcall⟩ := bind_eq_ok_iff.mp hcall
  obtain ⟨_, -, hcall⟩ := bind_eq_ok_iff.mp hcall
  obtain ⟨_, -, hcall⟩ := bind_eq_ok_iff.mp hcall
  obtain ⟨_, -, hcall⟩ := bind_eq_ok_iff.mp hcall
  obtain ⟨_, -, hcall⟩ := bind_eq_ok_iff.mp hcall
  obtain ⟨_, -, hcall⟩ := bind_eq_ok_iff.mp hcall
  obtain rfl := Except.ok.inj hcall
  have hcontent : s.request.term.1.content {} = s.request.content {} := by
    cases s.request <;> rfl
  refine ⟨h.xreq, h.reported, h.termReply.reply, ?_⟩
  intro hp
  exact hcontent ▸ h.request hp

/-! ## The socket -/

theorem Boxed.transportEvent {e : TransportEvent} (h : s.Boxed In Out)
    (harrival : ∀ p wire, e = .received p wire → In p wire)
    (hcall : s.transportEvent e = .ok s') : s'.Boxed In Out := by
  cases e with
  | start p sndprio rcvprio =>
      simp only [Req.transportEvent] at hcall
      split at hcall
      · obtain ⟨xreq, hadd, hraise⟩ := bind_eq_ok_iff.mp hcall
        exact (h.pipes (h.xreq.add hadd)).raise (by simp) hraise
      · obtain rfl := Except.ok.inj hcall
        exact h
  | stop p =>
      simp only [Req.transportEvent] at hcall
      split at hcall
      · exact h.reqRm hcall
      · obtain rfl := Except.ok.inj hcall
        exact h
  | received p wire =>
      simp only [Req.transportEvent] at hcall
      split at hcall
      · obtain ⟨r, hreceived, hraise⟩ := bind_eq_ok_iff.mp hcall
        have hx := h.xreq.receivedMsg (harrival p wire rfl) hreceived
        exact (h.pipes hx).raiseIf (by simp) hraise
      · obtain rfl := Except.ok.inj hcall
        exact h
  | sent p =>
      simp only [Req.transportEvent] at hcall
      split at hcall
      · obtain ⟨r, hsent, hraise⟩ := bind_eq_ok_iff.mp hcall
        exact (h.pipes (h.xreq.sentMsg hsent)).raiseIf (by simp) hraise
      · obtain rfl := Except.ok.inj hcall
        exact h

theorem Boxed.deliver {e : Event} (h : s.Boxed In Out)
    (harrival : ∀ p wire, e = .transport (.received p wire) → In p wire)
    (hcall : s.deliver e = .ok s') : s'.Boxed In Out := by
  cases e with
  | pipeIn p =>
      simp only [Req.deliver] at hcall
      split at hcall
      · exact h.reqIn hcall
      · obtain rfl := Except.ok.inj hcall
        exact h
      · exact absurd hcall (by simp)
      · exact absurd hcall (by simp)
  | pipeOut p =>
      simp only [Req.deliver] at hcall
      split at hcall
      · exact h.reqOut hcall
      · obtain rfl := Except.ok.inj hcall
        exact h
      · exact absurd hcall (by simp)
      · exact absurd hcall (by simp)
  | timer e => exact h.feed (by simp) hcall
  | transport e => exact h.transportEvent (fun p wire he => harrival p wire (he ▸ rfl)) hcall
  | sockStopped =>
      simp only [Req.deliver] at hcall
      split at hcall
      · exact absurd hcall (by simp)
      · obtain rfl := Except.ok.inj hcall
        exact h
      · obtain ⟨s₁, hdestroy, hret⟩ := bind_eq_ok_iff.mp hcall
        obtain rfl := Except.ok.inj hret
        have hboxed := h.destroy hdestroy
        exact ⟨hboxed.xreq, hboxed.reported, hboxed.reply, hboxed.request⟩
      · exact absurd hcall (by simp)

theorem Boxed.raiseTimer {r : Timer × Option TimerEvent} (h : s.Boxed In Out)
    (hcall : s.raiseTimer r = .ok s') : s'.Boxed In Out := by
  have htimer : ({ s with timer := r.1 } : Req).Boxed In Out :=
    ⟨h.xreq, h.reported, h.reply, h.request⟩
  unfold Req.raiseTimer at hcall
  split at hcall
  · obtain rfl := Except.ok.inj hcall
    exact htimer
  · exact htimer.raise (by simp) hcall

/-- Every step keeps the conditions, if what it brings in and what it asks for meet them. -/
theorem Boxed.next {l : Label} {r : Req × Result} (h : s.Boxed In Out)
    (harrival : ∀ p wire, l = .notify (.received p wire) → In p wire)
    (hbody : ∀ body, l = .csend body →
      ∀ q, Out q (putl (setTopBit ((s.id + 1) % 2 ^ 32)) ++ body))
    (hcall : s.next l = .ok r) : r.1.Boxed In Out := by
  cases l with
  | notify e =>
      obtain rfl := Except.ok.inj hcall
      refine ⟨h.xreq, ?_, h.reply, h.request⟩
      intro p wire hp
      rcases List.mem_append.mp hp with hp | hp
      · exact h.reported p wire hp
      · have he := List.mem_singleton.mp hp
        obtain rfl := Event.transport.inj he
        exact harrival p wire rfl
  | deliver =>
      simp only [Req.next] at hcall
      split at hcall
      · obtain rfl := Except.ok.inj hcall
        exact h
      · rename_i e events hevents
        obtain ⟨s₁, hdeliver, hret⟩ := bind_eq_ok_iff.mp hcall
        obtain rfl := Except.ok.inj hret
        have hpop : ({ s with events := events } : Req).Boxed In Out := by
          refine ⟨h.xreq, ?_, h.reply, h.request⟩
          intro p wire hp
          exact h.reported p wire (hevents ▸ List.mem_cons_of_mem e hp)
        refine hpop.deliver ?_ hdeliver
        intro p wire he
        exact h.reported p wire (hevents ▸ he ▸ List.mem_cons_self)
  | csend body =>
      obtain ⟨s₁, hsend, hret⟩ := bind_eq_ok_iff.mp hcall
      obtain rfl := Except.ok.inj hret
      exact h.csend (hbody body rfl) hsend
  | crecv => exact h.crecv hcall
  | setResendIvl ivl =>
      obtain rfl := Except.ok.inj hcall
      exact ⟨h.xreq, h.reported, h.reply, h.request⟩
  | workerTask | workerTimeout =>
      obtain ⟨t, -, hcall⟩ := bind_eq_ok_iff.mp hcall
      obtain ⟨s₁, hraise, hret⟩ := bind_eq_ok_iff.mp hcall
      obtain rfl := Except.ok.inj hret
      exact h.raiseTimer hraise
  | close =>
      obtain rfl := Except.ok.inj hcall
      exact ⟨h.xreq, h.reported, h.reply, h.request⟩
  | epsStopped =>
      obtain ⟨s₁, hstop, hret⟩ := bind_eq_ok_iff.mp hcall
      obtain rfl := Except.ok.inj hret
      have hstopping : ({ s with sock := .stopping } : Req).Boxed In Out :=
        ⟨h.xreq, h.reported, h.reply, h.request⟩
      exact hstopping.stop hstop

end Req

end GridMq.ReqRep
