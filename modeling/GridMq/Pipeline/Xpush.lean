import GridMq.Library.Machine
import GridMq.Protocols.PipeJournals
import GridMq.Protocols.SocketTypes
import GridMq.ReqRep.XreqInvariant

set_option autoImplicit false

/-!
# The PUSH socket (`src/protocols/pipeline/xpush.c`)

The cooked PUSH socket is the raw one.  Every message goes to one pipe, which the load balancer
chooses, and the IN events of the pipes are not looked at.
-/

namespace GridMq.Pipeline

open GridMq.Core GridMq.Library GridMq.Protocols

/-- `struct grid_xpush`, with the pipes attached to it. -/
structure Xpush where
  pipes : SocketPipes := {}
  lb : Priolist := .init

namespace Xpush

/-- The assertion of `grid_sock_stat_increment` for `CURRENT_SND_PRIORITY`. -/
def statPriority (lb : Priolist) : Except Abort Unit :=
  gridAssert (lb.getPriority = -1 ∨ 0 < lb.getPriority ∧ lb.getPriority ≤ priolistSlots)

/-- `grid_pipebase_start` with `grid_xpush_add`. -/
def add (self : Xpush) (p sndprio rcvprio : Nat) : Except Abort Xpush := do
  gridAssert (1 ≤ sndprio ∧ sndprio ≤ 16)
  let pipes ← self.pipes.attach p sndprio rcvprio
  return { self with pipes := pipes }

/-- `grid_pipebase_stop` with `grid_xpush_rm`. -/
def rm (self : Xpush) (p : Nat) : Except Abort Xpush := do
  let lb ← self.pipes.lbRm self.lb p
  statPriority lb
  let pipes ← self.pipes.detach p
  return { pipes := pipes, lb := lb }

/-- `grid_xpush_in` and `grid_xpush_out`. -/
def deliver (self : Xpush) (p : Nat) (e : PipeEvent) : Except Abort Xpush :=
  let pipes := self.pipes.took p e
  match e with
  | .pipeIn => .ok { self with pipes := pipes }
  | .pipeOut => do
      let lb ← pipes.lbOut self.lb p
      statPriority lb
      return { pipes := pipes, lb := lb }

/-- `grid_xpush_events`: whether a message can be sent. -/
def events (self : Xpush) : Bool := self.lb.isActive

/-- `grid_xpush_send`, with the pipe that the message went to; `none` is `-EAGAIN`. -/
def send (self : Xpush) (msg : Msg) : Except Abort (Xpush × Option Nat) := do
  let r ← self.pipes.lbSend msg self.lb
  return ({ pipes := r.1.1, lb := r.1.2 }, r.2)

/-- What happens to a PUSH socket. -/
inductive Op where
  | pipe (op : PipeOp)
  | send (msg : Msg)

def Enabled (mine : Nat → Bool) (self : Xpush) : Op → Prop
  | .pipe op => self.pipes.Enabled mine op
  | .send _ => True

instance (mine : Nat → Bool) (self : Xpush) (op : Op) : Decidable (self.Enabled mine op) := by
  cases op <;> unfold Enabled <;> infer_instance

/-- A check for `Enabled`. -/
def ready (mine : Nat → Bool) (s : Xpush) (op : Op) : Bool := decide (s.Enabled mine op)

theorem enabled_of_ready {mine : Nat → Bool} {s : Xpush} {op : Op} (h : ready mine s op = true) :
    s.Enabled mine op := of_decide_eq_true h

/-- One step on the pipes. -/
def nextPipe (self : Xpush) : PipeOp → Except Abort Xpush
  | .add p sndprio rcvprio => self.add p sndprio.1 rcvprio.1
  | .rm p => self.rm p
  | .arrive p wire => do
      let pipes ← self.pipes.arrive p wire
      return { self with pipes := pipes }
  | .sent p => do
      let pipes ← self.pipes.sent p
      return { self with pipes := pipes }
  | .deliver p e => self.deliver p e

/-- One step, with the pipe that a message went to. -/
def next (self : Xpush) : Op → Except Abort (Xpush × Option Nat)
  | .pipe op => do
      let self ← self.nextPipe op
      return (self, none)
  | .send msg => self.send msg

/-- A step as it is seen from outside. -/
abbrev Label := Op × Option Nat

/-- A PUSH socket from its creation on. -/
def machine (mine : Nat → Bool) : Machine Xpush Op (Option Nat) Abort where
  init := {}
  Enabled := Enabled mine
  next := next

/-- What arrives in a step. -/
def arrival : Label → Option (Nat × List UInt8)
  | (.pipe op, _) => op.arrival
  | (.send _, _) => none

/-- The message that the socket accepts in a step, with its pipe. -/
def accepted : Label → List (Nat × List UInt8)
  | (.send msg, some p) => [(p, msg.wire)]
  | _ => []

/-- The function without the pipe is the one of `SocketTypes`. -/
theorem send_eq (self : Xpush) (msg : Msg) :
    (Protocols.Xpush.send { lb := self.lb, pipes := self.pipes.pipes } msg).map Prod.snd =
      (self.send msg).map fun r => r.2.isSome := by
  unfold Protocols.Xpush.send send SocketPipes.lbSend
  cases hget : self.lb.getpipe with
  | error e => rfl
  | ok d =>
      cases d with
      | none => rfl
      | some d =>
          simp only [ok_bind, OutPipes.send, SocketPipes.send, SocketPipes.getPipe]
          cases hpipe : self.pipes.pipes d.pipe with
          | none => rfl
          | some pipe =>
              simp only [ok_bind]
              cases hsend : pipe.send sessionVfptr msg with
              | error e => rfl
              | ok r =>
                  simp only [ok_bind, pure_eq_ok]
                  cases hadvance : self.lb.advance r.2 with
                  | error e => rfl
                  | ok lb => rfl

/-! ## The invariant -/

/-- The pipes are in the load balancer as they should be, and IN events are heard or pending. -/
structure Inv (s : Xpush) : Prop where
  named : s.pipes.Named
  kept : Kept outward s.pipes s.lb
  ignored : ∃ heard, Staged inward s.pipes heard

theorem inv_init : Inv {} where
  named := SocketPipes.named_init
  kept := .init outward
  ignored := ⟨_, .init inward⟩

theorem statPriority_ok {lb : Priolist} (h : lb.WF) : statPriority lb = .ok () :=
  ReqRep.Xreq.statPriority_ok (x := { lb := lb }) h

variable {mine : Nat → Bool} {s s' : Xpush} {p : Nat}

/-- A step is sound: no assertion fails, and the messages are given to the pipes that the label
says. -/
def Sound (mine : Nat → Bool) (s : Xpush) (op : Op) : Prop :=
  ∃ s' r, s.next op = .ok (s', r) ∧ Inv s' ∧ ∀ given, Given mine given s.pipes →
    Given mine (given ++ accepted (op, r)) s'.pipes

theorem Inv.add {sndprio rcvprio : Priority} (h : Inv s)
    (hen : s.Enabled mine (.pipe (.add p sndprio rcvprio))) :
    Sound mine s (.pipe (.add p sndprio rcvprio)) := by
  obtain ⟨hmine, hfresh⟩ := hen
  obtain ⟨heard, hheard⟩ := h.ignored
  obtain ⟨w', hcall, ha⟩ := SocketPipes.attach_spec sndprio.1 rcvprio.1 h.named hfresh
  refine ⟨{ s with pipes := w' }, none, ?_, ⟨ha.named, ?_, heard, ?_⟩, ?_⟩
  · simp only [next, nextPipe, Xpush.add, gridAssert_pos sndprio.2, hcall, ok_bind, pure_eq_ok]
  · exact h.kept.attach ha h.named hfresh sndprio.2 (ha.outward h.named hfresh h.kept.toStaged)
  · exact ha.inward h.named hfresh hheard
  · intro given hg
    exact (List.append_nil given).symm ▸ hg.attach ha hfresh hmine

theorem Inv.rm (h : Inv s) (hen : s.Enabled mine (.pipe (.rm p))) :
    Sound mine s (.pipe (.rm p)) := by
  obtain ⟨pipe, hpipe⟩ := SocketPipes.pipe_of_attached hen
  obtain ⟨heard, hheard⟩ := h.ignored
  obtain ⟨hrm, hkept⟩ := h.kept.remove hpipe
  refine ⟨⟨s.pipes.setPipe p none, s.lb.rm ⟨p, pipe.sndprio⟩⟩, none, ?_,
    ⟨h.named.detach p, hkept, fun q => heard q ∧ q ≠ p, ?_⟩, ?_⟩
  · have hlb : s.pipes.lbRm s.lb p = .ok (s.lb.rm ⟨p, pipe.sndprio⟩) := hrm
    have hstat : statPriority (s.lb.rm ⟨p, pipe.sndprio⟩) = .ok () := statPriority_ok hkept.wf
    simp only [next, nextPipe, Xpush.rm, hlb, hstat, ok_bind, SocketPipes.detach_ok hpipe,
      pure_eq_ok]
  · exact hheard.detach rfl rfl fun _ => Iff.rfl
  · intro given hg
    exact (List.append_nil given).symm ▸ hg.detach p

theorem Inv.arrive {wire : List UInt8} (h : Inv s)
    (hen : s.Enabled mine (.pipe (.arrive p wire))) : Sound mine s (.pipe (.arrive p wire)) := by
  obtain ⟨heard, hheard⟩ := h.ignored
  obtain ⟨w', pipe, pipe', hcall, ha, hstaged⟩ := SocketPipes.arrive_spec h.named hheard hen wire
  refine ⟨{ s with pipes := w' }, none, ?_, ⟨ha.named, ?_, heard, hstaged⟩, ?_⟩
  · simp only [next, nextPipe, hcall, ok_bind, pure_eq_ok]
  · exact h.kept.other ha.toReporting (by simp [outward]) ha.sndprio (outward_alike ha.outstate)
  · intro given hg
    exact (List.append_nil given).symm ▸ hg.replace ha.was ha.pipes ha.used ha.outbox

theorem Inv.sent (h : Inv s) (hen : s.Enabled mine (.pipe (.sent p))) :
    Sound mine s (.pipe (.sent p)) := by
  obtain ⟨heard, hheard⟩ := h.ignored
  obtain ⟨w', pipe, pipe', hcall, hs, hstaged⟩ :=
    SocketPipes.sent_spec h.named h.kept.toStaged hen
  refine ⟨{ s with pipes := w' }, none, ?_, ⟨hs.named, ⟨?_, hstaged⟩, heard, ?_⟩, ?_⟩
  · simp only [next, nextPipe, hcall, ok_bind, pure_eq_ok]
  · exact h.kept.toQueued.replace hs.was hs.pipes hs.sndprio
  · exact hs.other hheard (by simp [inward])
      (inward_alike hs.instate (congrArg Session.inbox hs.session))
  · intro given hg
    exact (List.append_nil given).symm ▸
      hg.replace hs.was hs.pipes hs.used (congrArg Session.outbox hs.session)

theorem Inv.deliver {e : PipeEvent} (h : Inv s) (hen : s.Enabled mine (.pipe (.deliver p e))) :
    Sound mine s (.pipe (.deliver p e)) := by
  obtain ⟨heard, hheard⟩ := h.ignored
  have hgiven : ∀ given, Given mine given s.pipes →
      Given mine (given ++ accepted (.pipe (.deliver p e), none)) (s.pipes.took p e) := by
    intro given hg
    exact (List.append_nil given).symm ▸ hg.keep rfl rfl
  cases e with
  | pipeIn =>
      refine ⟨{ s with pipes := s.pipes.took p .pipeIn }, none, rfl,
        ⟨h.named.took p _, h.kept.took_other p (by simp [outward]), fun q => q = p ∨ heard q, ?_⟩,
        hgiven⟩
      exact (hheard.activate hen fun _ => Iff.rfl).2
  | pipeOut =>
      obtain ⟨lb, hcall, hkept⟩ := h.kept.activate hen
      refine ⟨⟨s.pipes.took p .pipeOut, lb⟩, none, ?_, ⟨h.named.took p _, hkept, heard, ?_⟩, hgiven⟩
      · have hlb : (s.pipes.took p .pipeOut).lbOut s.lb p = .ok lb := hcall
        simp only [next, nextPipe, Xpush.deliver, hlb, statPriority_ok hkept.wf, ok_bind,
          pure_eq_ok]
      · exact hheard.keep rfl fun q => PipeQueues.count_erase_ne (by simp [inward])

theorem Inv.send (h : Inv s) (msg : Msg) : Sound mine s (.send msg) := by
  obtain ⟨heard, hheard⟩ := h.ignored
  rcases h.kept.lbSend_spec msg with ⟨hcall, -⟩ | ⟨w', lb, p, pipe, pipe', hcall, -, hgive, hk⟩
  · refine ⟨s, none, ?_, h, ?_⟩
    · simp only [next, Xpush.send, hcall, ok_bind, pure_eq_ok]
    · intro given hg
      exact (List.append_nil given).symm ▸ hg
  · refine ⟨⟨w', lb⟩, some p, ?_, ⟨?_, hk, heard, ?_⟩, ?_⟩
    · simp only [next, Xpush.send, hcall, ok_bind, pure_eq_ok]
    · exact h.named.replace hgive.was hgive.pipes hgive.used fun e he => Or.inl (hgive.events ▸ he)
    · exact hheard.other hgive.was hgive.pipes (fun q => by rw [hgive.events])
        (inward_alike hgive.instate hgive.inbox)
    · intro given hg
      exact hg.give hgive h.named

/-- Every step that can be taken is sound. -/
theorem Inv.sound (h : Inv s) {op : Op} (hen : s.Enabled mine op) : Sound mine s op := by
  cases op with
  | send msg => exact h.send msg
  | pipe op =>
      cases op with
      | add p sndprio rcvprio => exact h.add hen
      | rm p => exact h.rm hen
      | arrive p wire => exact h.arrive hen
      | sent p => exact h.sent hen
      | deliver p e => exact h.deliver hen

/-- A message is refused when no pipe is ready for one. -/
theorem Inv.refused (h : Inv s) (msg : Msg) :
    (∃ s', s.send msg = .ok (s', none)) ↔ s.events = false := by
  rcases h.kept.lbSend_spec msg with ⟨hcall, hoff⟩ | ⟨w', lb, p, pipe, pipe', hcall, hon, -⟩
  · refine ⟨fun _ => hoff, fun _ => ⟨s, ?_⟩⟩
    simp only [Xpush.send, hcall, ok_bind, pure_eq_ok]
  · constructor
    · intro hsend
      obtain ⟨s', hsend⟩ := hsend
      simp [Xpush.send, hcall] at hsend
    · intro hoff
      exact absurd (hon.symm.trans hoff) (by simp)

/-- A run is sound as a whole. -/
theorem inv_run {labels : List Label} (h : (machine mine).system.Run labels s) :
    Inv s ∧ Given mine (labels.flatMap accepted) s.pipes := by
  refine Machine.run_rule (m := machine mine)
    (P := fun labels s => Inv s ∧ Given mine (labels.flatMap accepted) s.pipes)
    ⟨inv_init, .init mine⟩ ?_ h
  intro labels s op s' r ih hen hnext
  obtain ⟨s₁, r₁, hcall, hinv, hgiven⟩ := ih.1.sound hen
  obtain ⟨rfl, rfl⟩ := Prod.mk.inj (Except.ok.inj (hcall.symm.trans hnext))
  refine ⟨hinv, ?_⟩
  rw [List.flatMap_append, List.flatMap_cons, List.flatMap_nil, List.append_nil]
  exact hgiven _ ih.2

end Xpush

end GridMq.Pipeline
