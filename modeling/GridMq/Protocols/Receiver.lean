import GridMq.Library.Machine
import GridMq.Protocols.PipeJournals
import Mathlib.Algebra.Order.BigOperators.Group.List
import Mathlib.Algebra.Order.Group.Nat

set_option autoImplicit false

/-!
# Sockets that only receive

The functions that `src/protocols/pipeline/xpull.c` and `src/protocols/pubsub/xsub.c` have in
common.  Messages are received through a fair queue from all the pipes, and the OUT events of
the pipes are not looked at.
-/

namespace GridMq.Protocols

open GridMq.Core GridMq.Library

/-- A `struct grid_fq`, with the pipes attached to the socket. -/
structure Receiver where
  pipes : SocketPipes := {}
  fq : Priolist := .init

namespace Receiver

/-- `grid_pipebase_start` with `add` of the socket type. -/
def add (self : Receiver) (p sndprio rcvprio : Nat) : Except Abort Receiver := do
  gridAssert (1 ≤ rcvprio ∧ rcvprio ≤ 16)
  let pipes ← self.pipes.attach p sndprio rcvprio
  return { self with pipes := pipes }

/-- `grid_pipebase_stop` with `rm` of the socket type. -/
def rm (self : Receiver) (p : Nat) : Except Abort Receiver := do
  let fq ← self.pipes.fqRm self.fq p
  let pipes ← self.pipes.detach p
  return { pipes := pipes, fq := fq }

/-- `in` and `out` of the socket type. -/
def deliver (self : Receiver) (p : Nat) (e : PipeEvent) : Except Abort Receiver :=
  let pipes := self.pipes.took p e
  match e with
  | .pipeIn => do
      let fq ← pipes.fqIn self.fq p
      return { pipes := pipes, fq := fq }
  | .pipeOut => .ok { self with pipes := pipes }

/-- `events` of the socket type: whether there is a message. -/
def events (self : Receiver) : Bool := self.fq.isActive

/-- `grid_fq_recv`; `none` is `-EAGAIN`. -/
def recv (self : Receiver) : Except Abort (Receiver × Option (Nat × List UInt8)) := do
  let r ← self.pipes.fqRecv self.fq
  return ({ pipes := r.1.1, fq := r.1.2 }, r.2)

/-- One step on the pipes. -/
def nextPipe (self : Receiver) : PipeOp → Except Abort Receiver
  | .add p sndprio rcvprio => self.add p sndprio.1 rcvprio.1
  | .rm p => self.rm p
  | .arrive p wire => do
      let pipes ← self.pipes.arrive p wire
      return { self with pipes := pipes }
  | .sent p => do
      let pipes ← self.pipes.sent p
      return { self with pipes := pipes }
  | .deliver p e => self.deliver p e

/-- How many messages wait on a pipe. -/
def waiting (self : Receiver) (p : Nat) : Nat :=
  match self.pipes.pipes p with
  | none => 0
  | some pipe => pipe.session.inbox.length

/-- How many messages wait on all the pipes. -/
def unread (self : Receiver) : Nat := (self.pipes.used.map self.waiting).sum

/-! ## The invariant -/

/-- The pipes are in the fair queue as they should be, and OUT events are heard or pending. -/
structure Inv (s : Receiver) : Prop where
  named : s.pipes.Named
  kept : Kept inward s.pipes s.fq
  ignored : ∃ heard, Staged outward s.pipes heard

theorem inv_init : Inv {} where
  named := SocketPipes.named_init
  kept := .init inward
  ignored := ⟨_, .init outward⟩

variable {mine : Nat → Bool} {s s' : Receiver} {p : Nat}

/-- A step on the pipes is sound: no assertion fails, and the messages are where they should
be. -/
def SoundPipe (mine : Nat → Bool) (s : Receiver) (op : PipeOp) : Prop :=
  ∃ s', s.nextPipe op = .ok s' ∧ Inv s' ∧ ∀ came went, Received mine came went s.pipes →
    Received mine (came ++ op.arrival.toList) went s'.pipes

theorem Inv.add {sndprio rcvprio : Priority} (h : Inv s)
    (hen : s.pipes.Enabled mine (.add p sndprio rcvprio)) :
    SoundPipe mine s (.add p sndprio rcvprio) := by
  obtain ⟨hmine, hfresh⟩ := hen
  obtain ⟨heard, hheard⟩ := h.ignored
  obtain ⟨w', hcall, ha⟩ := SocketPipes.attach_spec sndprio.1 rcvprio.1 h.named hfresh
  refine ⟨{ s with pipes := w' }, ?_, ⟨ha.named, ?_, heard, ?_⟩, ?_⟩
  · simp only [nextPipe, Receiver.add, gridAssert_pos rcvprio.2, hcall, ok_bind, pure_eq_ok]
  · exact h.kept.attach ha h.named hfresh rcvprio.2 (ha.inward h.named hfresh h.kept.toStaged)
  · exact ha.outward h.named hfresh hheard
  · intro came went hr
    exact (List.append_nil came).symm ▸ hr.attach ha hfresh hmine

theorem Inv.rm (h : Inv s) (hen : s.pipes.Enabled mine (.rm p)) : SoundPipe mine s (.rm p) := by
  obtain ⟨pipe, hpipe⟩ := SocketPipes.pipe_of_attached hen
  obtain ⟨heard, hheard⟩ := h.ignored
  obtain ⟨hrm, hkept⟩ := h.kept.remove hpipe
  refine ⟨⟨s.pipes.setPipe p none, s.fq.rm ⟨p, pipe.rcvprio⟩⟩, ?_,
    ⟨h.named.detach p, hkept, fun q => heard q ∧ q ≠ p, ?_⟩, ?_⟩
  · have hfq : s.pipes.fqRm s.fq p = .ok (s.fq.rm ⟨p, pipe.rcvprio⟩) := hrm
    simp only [nextPipe, Receiver.rm, hfq, ok_bind, SocketPipes.detach_ok hpipe, pure_eq_ok]
  · exact hheard.detach rfl rfl fun _ => Iff.rfl
  · intro came went hr
    exact (List.append_nil came).symm ▸ hr.detach p

theorem Inv.arrive {wire : List UInt8} (h : Inv s) (hen : s.pipes.Enabled mine (.arrive p wire)) :
    SoundPipe mine s (.arrive p wire) := by
  obtain ⟨heard, hheard⟩ := h.ignored
  obtain ⟨w', pipe, pipe', hcall, ha, hstaged⟩ :=
    SocketPipes.arrive_spec h.named h.kept.toStaged hen wire
  refine ⟨{ s with pipes := w' }, ?_, ⟨ha.named, ⟨?_, hstaged⟩, heard, ?_⟩, ?_⟩
  · simp only [nextPipe, hcall, ok_bind, pure_eq_ok]
  · exact h.kept.toQueued.replace ha.was ha.pipes ha.rcvprio
  · exact ha.other hheard (by simp [outward]) (outward_alike ha.outstate)
  · intro came went hr
    exact hr.arrive ha h.named

theorem Inv.sent (h : Inv s) (hen : s.pipes.Enabled mine (.sent p)) :
    SoundPipe mine s (.sent p) := by
  obtain ⟨heard, hheard⟩ := h.ignored
  obtain ⟨w', pipe, pipe', hcall, hs, hstaged⟩ := SocketPipes.sent_spec h.named hheard hen
  refine ⟨{ s with pipes := w' }, ?_, ⟨hs.named, ?_, heard, hstaged⟩, ?_⟩
  · simp only [nextPipe, hcall, ok_bind, pure_eq_ok]
  · exact h.kept.other hs.toReporting (by simp [inward]) hs.rcvprio
      (inward_alike hs.instate (congrArg Session.inbox hs.session))
  · intro came went hr
    refine (List.append_nil came).symm ▸ hr.keep (SocketPipes.inboxes_same hs.was hs.pipes ?_)
      hs.used
    rw [hs.session]

theorem Inv.deliver {e : PipeEvent} (h : Inv s) (hen : s.pipes.Enabled mine (.deliver p e)) :
    SoundPipe mine s (.deliver p e) := by
  obtain ⟨heard, hheard⟩ := h.ignored
  have hreceived : ∀ came went, Received mine came went s.pipes →
      Received mine (came ++ (PipeOp.deliver p e).arrival.toList) went (s.pipes.took p e) := by
    intro came went hr
    exact (List.append_nil came).symm ▸ hr.keep rfl rfl
  cases e with
  | pipeIn =>
      obtain ⟨fq, hcall, hkept⟩ := h.kept.activate hen
      refine ⟨⟨s.pipes.took p .pipeIn, fq⟩, ?_, ⟨h.named.took p _, hkept, heard, ?_⟩, hreceived⟩
      · have hfq : (s.pipes.took p .pipeIn).fqIn s.fq p = .ok fq := hcall
        simp only [nextPipe, Receiver.deliver, hfq, ok_bind, pure_eq_ok]
      · exact hheard.keep rfl fun q => PipeQueues.count_erase_ne (by simp [outward])
  | pipeOut =>
      refine ⟨{ s with pipes := s.pipes.took p .pipeOut }, rfl,
        ⟨h.named.took p _, h.kept.took_other p (by simp [inward]), fun q => q = p ∨ heard q, ?_⟩,
        hreceived⟩
      exact (hheard.activate hen fun _ => Iff.rfl).2

/-- Every step that can happen to the pipes is sound. -/
theorem Inv.pipe (h : Inv s) {op : PipeOp} (hen : s.pipes.Enabled mine op) :
    SoundPipe mine s op := by
  cases op with
  | add p sndprio rcvprio => exact h.add hen
  | rm p => exact h.rm hen
  | arrive p wire => exact h.arrive hen
  | sent p => exact h.sent hen
  | deliver p e => exact h.deliver hen

/-- A message less. -/
theorem unread_take {w' : SocketPipes} {fq' : Priolist} {wire : List UInt8}
    {pipe pipe' : WirePipe} (h : Inv s) (ht : Taking s.pipes w' p wire pipe pipe') :
    ({ pipes := w', fq := fq' } : Receiver).unread < s.unread := by
  have hself : w'.pipes p = some pipe' := by
    rw [ht.pipes, Function.update_self]
  have hle : ∀ q, ({ pipes := w', fq := fq' } : Receiver).waiting q ≤ s.waiting q := by
    intro q
    rcases eq_or_ne q p with rfl | hq
    · simp only [waiting, hself, ht.was, ht.inbox, List.length_cons]
      omega
    · simp only [waiting, ht.pipes, Function.update_of_ne hq]
      omega
  have hlt : ({ pipes := w', fq := fq' } : Receiver).waiting p < s.waiting p := by
    simp only [waiting, hself, ht.was, ht.inbox, List.length_cons]
    omega
  unfold unread
  simp only [ht.used]
  exact List.sum_lt_sum _ _ (fun q _ => hle q) ⟨p, h.named.pipes p pipe ht.was, hlt⟩

/-- Receiving takes the first message of a pipe in the fair queue, if there is one. -/
theorem Inv.recv (h : Inv s) :
    (s.recv = .ok (s, none) ∧ s.events = false) ∨
      ∃ s' p wire, s.recv = .ok (s', some (p, wire)) ∧ s.events = true ∧ Inv s' ∧
        s'.unread < s.unread ∧ ∀ mine came went, Received mine came went s.pipes →
          Received mine came (went ++ [(p, wire)]) s'.pipes := by
  rcases h.kept.fqRecv_spec with ⟨hcall, hoff⟩ | ⟨w', fq', p, wire, pipe, pipe', hcall, hon, ht, hk⟩
  · refine Or.inl ⟨?_, hoff⟩
    simp only [Receiver.recv, hcall, ok_bind, pure_eq_ok]
  · obtain ⟨heard, hheard⟩ := h.ignored
    refine Or.inr ⟨⟨w', fq'⟩, p, wire, ?_, hon, ⟨?_, hk, heard, ?_⟩, unread_take h ht, ?_⟩
    · simp only [Receiver.recv, hcall, ok_bind, pure_eq_ok]
    · exact h.named.replace ht.was ht.pipes ht.used fun e he => Or.inl (ht.events ▸ he)
    · exact hheard.other ht.was ht.pipes (fun q => by rw [ht.events]) (outward_alike ht.outstate)
    · intro mine came went hr
      exact hr.take ht

/-- With nothing to receive, every message that waits on a pipe has its IN event pending. -/
theorem Inv.pending (h : Inv s) (hoff : s.events = false) {pipe : WirePipe}
    (hpipe : s.pipes.pipes p = some pipe) :
    pipe.session.inbox = [] ∨ (p, .pipeIn) ∈ s.pipes.events := by
  cases h.kept.stage p pipe hpipe with
  | waiting hstate _ _ => exact Or.inl hstate.2
  | announced _ _ hone =>
      refine Or.inr (List.count_pos_iff.mp ?_)
      have hevent : inward.event = PipeEvent.pipeIn := rfl
      rw [← hevent, hone]
      exact Nat.one_pos
  | listed _ hready _ =>
      have hon := h.kept.isActive_iff.mpr ⟨p, hready⟩
      exact absurd (hon.symm.trans hoff) (by simp)

end Receiver

end GridMq.Protocols
