import GridMq.Library.Machine
import GridMq.Protocols.Distribution

set_option autoImplicit false

/-!
# The PUB socket (`src/protocols/pubsub/xpub.c`)

The cooked PUB socket is the raw one.  A message goes to every pipe that is ready and to no
other.  Subscribers are not expected to send: the IN event of a pipe is an assertion that fails.
-/

namespace GridMq.PubSub

open GridMq.Core GridMq.Library GridMq.Protocols

/-- `struct grid_xpub`, with the pipes attached to it. -/
structure Xpub where
  pipes : SocketPipes := {}
  outpipes : Dist := {}

namespace Xpub

/-- `grid_pipebase_start` with `grid_xpub_add`. -/
def add (self : Xpub) (p sndprio rcvprio : Nat) : Except Abort Xpub := do
  let pipes ← self.pipes.attach p sndprio rcvprio
  return { self with pipes := pipes }

/-- `grid_pipebase_stop` with `grid_xpub_rm`. -/
def rm (self : Xpub) (p : Nat) : Except Abort Xpub := do
  let pipes ← self.pipes.detach p
  return { pipes := pipes, outpipes := self.outpipes.rm p }

/-- `grid_xpub_in` and `grid_xpub_out`. -/
def deliver (self : Xpub) (p : Nat) (e : PipeEvent) : Except Abort Xpub :=
  let pipes := self.pipes.took p e
  match e with
  | .pipeIn => .error .assertion
  | .pipeOut => do
      let outpipes ← self.outpipes.out p
      return { pipes := pipes, outpipes := outpipes }

/-- `grid_xpub_send`, with the pipes that the message is given to. -/
def send (self : Xpub) (msg : Msg) : Except Abort (Xpub × List Nat) := do
  let r ← self.outpipes.send (SocketPipes.send msg) none self.pipes
  return ({ pipes := r.2, outpipes := r.1 }, self.outpipes.pipes)

/-- What happens to a PUB socket. -/
inductive Op where
  | pipe (op : PipeOp)
  | send (msg : Msg)

def Enabled (mine : Nat → Bool) (self : Xpub) : Op → Prop
  | .pipe op => self.pipes.Enabled mine op
  | .send _ => True

instance (mine : Nat → Bool) (self : Xpub) (op : Op) : Decidable (self.Enabled mine op) := by
  cases op <;> unfold Enabled <;> infer_instance

/-- A check for `Enabled`. -/
def ready (mine : Nat → Bool) (s : Xpub) (op : Op) : Bool := decide (s.Enabled mine op)

theorem enabled_of_ready {mine : Nat → Bool} {s : Xpub} {op : Op} (h : ready mine s op = true) :
    s.Enabled mine op := of_decide_eq_true h

/-- One step on the pipes. -/
def nextPipe (self : Xpub) : PipeOp → Except Abort Xpub
  | .add p sndprio rcvprio => self.add p sndprio.1 rcvprio.1
  | .rm p => self.rm p
  | .arrive p wire => do
      let pipes ← self.pipes.arrive p wire
      return { self with pipes := pipes }
  | .sent p => do
      let pipes ← self.pipes.sent p
      return { self with pipes := pipes }
  | .deliver p e => self.deliver p e

/-- One step, with the pipes that a message was given to. -/
def next (self : Xpub) : Op → Except Abort (Xpub × List Nat)
  | .pipe op => do
      let self ← self.nextPipe op
      return (self, [])
  | .send msg => self.send msg

/-- A step as it is seen from outside. -/
abbrev Label := Op × List Nat

/-- A PUB socket from its creation on. -/
def machine (mine : Nat → Bool) : Machine Xpub Op (List Nat) Abort where
  init := {}
  Enabled := Enabled mine
  next := next

/-- What arrives in a step. -/
def arrival : Label → Option (Nat × List UInt8)
  | (.pipe op, _) => op.arrival
  | (.send _, _) => none

/-- The message that is published in a step. -/
def published : Label → Option (List UInt8)
  | (.send msg, _) => some msg.wire
  | (.pipe _, _) => none

/-- The message that is published in a step, once for each pipe that it is given to. -/
def given : Label → List (Nat × List UInt8)
  | (.send msg, pipes) => pipes.map fun p => (p, msg.wire)
  | (.pipe _, _) => []

/-! ## The invariant -/

/-- The distributor has the pipes that are ready, and no IN event was delivered. -/
structure Inv (s : Xpub) : Prop where
  named : s.pipes.Named
  ready : Staged outward s.pipes (· ∈ s.outpipes.pipes)
  count : s.outpipes.count = s.outpipes.pipes.length
  nodup : s.outpipes.pipes.Nodup
  unheard : Staged inward s.pipes fun _ => False

theorem inv_init : Inv {} where
  named := SocketPipes.named_init
  ready := by
    have hnone : (fun p => p ∈ ({} : Xpub).outpipes.pipes) = fun _ => False := by
      funext p
      simp
    rw [hnone]
    exact .init outward
  count := rfl
  nodup := List.nodup_nil
  unheard := .init inward

variable {mine : Nat → Bool} {s s' : Xpub} {p : Nat} {came : List (Nat × List UInt8)}

/-- A step is sound: no assertion fails, each message is given to the pipes that the label
says, and what arrived is still there. -/
def Sound (mine : Nat → Bool) (s : Xpub) (op : Op) : Prop :=
  ∃ s' r, s.next op = .ok (s', r) ∧ Inv s' ∧ r.Nodup ∧
    (∀ sent, Given mine sent s.pipes → Given mine (sent ++ given (op, r)) s'.pipes) ∧
    ∀ came, Received mine came [] s.pipes →
      Received mine (came ++ (arrival (op, r)).toList) [] s'.pipes

theorem Inv.add {sndprio rcvprio : Priority} (h : Inv s)
    (hen : s.Enabled mine (.pipe (.add p sndprio rcvprio))) :
    Sound mine s (.pipe (.add p sndprio rcvprio)) := by
  obtain ⟨hmine, hfresh⟩ := hen
  obtain ⟨w', hcall, ha⟩ := SocketPipes.attach_spec sndprio.1 rcvprio.1 h.named hfresh
  refine ⟨{ s with pipes := w' }, [], ?_, ⟨ha.named, ha.outward h.named hfresh h.ready, h.count,
    h.nodup, ha.inward h.named hfresh h.unheard⟩, List.nodup_nil, ?_, ?_⟩
  · simp only [next, nextPipe, Xpub.add, hcall, ok_bind, pure_eq_ok]
  · intro sent hg
    exact (List.append_nil sent).symm ▸ hg.attach ha hfresh hmine
  · intro came hr
    exact (List.append_nil came).symm ▸ hr.attach ha hfresh hmine

theorem Inv.rm (h : Inv s) (hen : s.Enabled mine (.pipe (.rm p))) :
    Sound mine s (.pipe (.rm p)) := by
  obtain ⟨pipe, hpipe⟩ := SocketPipes.pipe_of_attached hen
  obtain ⟨hcount, hnodup, hmem⟩ := Dist.rm_count h.count h.nodup p
  refine ⟨⟨s.pipes.setPipe p none, s.outpipes.rm p⟩, [], ?_, ⟨h.named.detach p,
    h.ready.detach rfl rfl hmem, hcount, hnodup, h.unheard.detach rfl rfl fun q => ?_⟩,
    List.nodup_nil, ?_, ?_⟩
  · simp only [next, nextPipe, Xpub.rm, ok_bind, SocketPipes.detach_ok hpipe, pure_eq_ok]
  · exact ⟨False.elim, fun hq => hq.1⟩
  · intro sent hg
    exact (List.append_nil sent).symm ▸ hg.detach p
  · intro came hr
    exact (List.append_nil came).symm ▸ hr.detach p

theorem Inv.arrive {wire : List UInt8} (h : Inv s)
    (hen : s.Enabled mine (.pipe (.arrive p wire))) : Sound mine s (.pipe (.arrive p wire)) := by
  obtain ⟨w', pipe, pipe', hcall, ha, hstaged⟩ :=
    SocketPipes.arrive_spec h.named h.unheard hen wire
  refine ⟨{ s with pipes := w' }, [], ?_, ⟨ha.named, ?_, h.count, h.nodup, hstaged⟩,
    List.nodup_nil, ?_, ?_⟩
  · simp only [next, nextPipe, hcall, ok_bind, pure_eq_ok]
  · exact ha.other h.ready (by simp [outward]) (outward_alike ha.outstate)
  · intro sent hg
    exact (List.append_nil sent).symm ▸ hg.replace ha.was ha.pipes ha.used ha.outbox
  · intro came hr
    exact hr.arrive ha h.named

theorem Inv.sent (h : Inv s) (hen : s.Enabled mine (.pipe (.sent p))) :
    Sound mine s (.pipe (.sent p)) := by
  obtain ⟨w', pipe, pipe', hcall, hs, hstaged⟩ := SocketPipes.sent_spec h.named h.ready hen
  refine ⟨{ s with pipes := w' }, [], ?_, ⟨hs.named, hstaged, h.count, h.nodup, ?_⟩,
    List.nodup_nil, ?_, ?_⟩
  · simp only [next, nextPipe, hcall, ok_bind, pure_eq_ok]
  · exact hs.other h.unheard (by simp [inward])
      (inward_alike hs.instate (congrArg Session.inbox hs.session))
  · intro sent hg
    exact (List.append_nil sent).symm ▸
      hg.replace hs.was hs.pipes hs.used (congrArg Session.outbox hs.session)
  · intro came hr
    exact (List.append_nil came).symm ▸ hr.keep (SocketPipes.inboxes_same hs.was hs.pipes
      (congrArg Session.inbox hs.session)) hs.used

theorem Inv.out (h : Inv s) (hen : s.Enabled mine (.pipe (.deliver p .pipeOut))) :
    Sound mine s (.pipe (.deliver p .pipeOut)) := by
  have hmem : ∀ q, q ∈ s.outpipes.pipes ++ [p] ↔ q = p ∨ q ∈ s.outpipes.pipes := by
    intro q
    rw [List.mem_append, List.mem_singleton, or_comm]
  obtain ⟨hnew, hready⟩ := h.ready.activate hen hmem
  refine ⟨⟨s.pipes.took p .pipeOut, ⟨s.outpipes.count + 1, s.outpipes.pipes ++ [p]⟩⟩, [], ?_,
    ⟨h.named.took p _, hready, ?_, ?_, ?_⟩, List.nodup_nil, ?_, ?_⟩
  · simp only [next, nextPipe, Xpub.deliver, Dist.out, gridAssert_pos hnew, ok_bind, pure_eq_ok]
  · rw [List.length_append, h.count]
    rfl
  · rw [List.nodup_append]
    refine ⟨h.nodup, List.nodup_singleton p, ?_⟩
    intro a ha b hb hab
    obtain rfl := List.mem_singleton.mp hb
    exact hnew (hab ▸ ha)
  · exact h.unheard.keep rfl fun q => PipeQueues.count_erase_ne (by simp [inward])
  · intro sent hg
    exact (List.append_nil sent).symm ▸ hg.keep rfl rfl
  · intro came hr
    exact (List.append_nil came).symm ▸ hr.keep rfl rfl

theorem Inv.send (h : Inv s) (msg : Msg) : Sound mine s (.send msg) := by
  obtain ⟨w', d', hcall, hd, hready, hcount, hnodup⟩ :=
    h.ready.distribute h.named h.count h.nodup none msg
  refine ⟨⟨w', d'⟩, s.outpipes.pipes, ?_, ⟨hd.named, hready, hcount, hnodup,
    hd.inward _ h.unheard⟩, h.nodup, ?_, ?_⟩
  · simp only [next, Xpub.send, hcall, ok_bind, pure_eq_ok]
  · intro sent hg
    have hgiven := hd.given mine sent hg
    rw [Dist.targets_none] at hgiven
    exact hgiven
  · intro came hr
    exact (List.append_nil came).symm ▸ hd.received mine came [] hr

/-- Every step is sound but the delivery of an IN event. -/
theorem Inv.sound (h : Inv s) {op : Op} (hen : s.Enabled mine op)
    (hop : ∀ p, op ≠ .pipe (.deliver p .pipeIn)) : Sound mine s op := by
  cases op with
  | send msg => exact h.send msg
  | pipe op =>
      cases op with
      | add p sndprio rcvprio => exact h.add hen
      | rm p => exact h.rm hen
      | arrive p wire => exact h.arrive hen
      | sent p => exact h.sent hen
      | deliver p e =>
          cases e with
          | pipeIn => exact absurd rfl (hop p)
          | pipeOut => exact h.out hen

/-- An IN event means that a subscriber has sent a message. -/
theorem Inv.not_pending (h : Inv s) (hr : Received mine [] [] s.pipes) (p : Nat) :
    ¬s.pipes.Pending p .pipeIn := by
  intro hpending
  obtain ⟨pipe, hpipe⟩ := Option.isSome_iff_exists.mp hpending.1
  have hbalance := hr.balance p _ (SocketPipes.inboxes_of_pipe hpipe)
  have hempty : pipe.session.inbox = [] := by simpa using hbalance.symm
  have hcount := List.count_pos_iff.mpr hpending.2
  cases h.unheard.stage p pipe hpipe with
  | waiting _ _ hnone =>
      have hzero : s.pipes.events.count (p, .pipeIn) = 0 := hnone
      omega
  | announced hstate _ _ => exact hstate.2 hempty
  | listed _ hready _ => exact hready

/-- A run is sound as a whole. -/
theorem inv_run {labels : List Label} (h : (machine mine).system.Run labels s) :
    Inv s ∧ Given mine (labels.flatMap given) s.pipes ∧
      Received mine (labels.filterMap arrival) [] s.pipes ∧ ∀ l ∈ labels, l.2.Nodup := by
  refine Machine.run_rule (m := machine mine) (P := fun labels s => Inv s ∧
    Given mine (labels.flatMap given) s.pipes ∧
      Received mine (labels.filterMap arrival) [] s.pipes ∧ ∀ l ∈ labels, l.2.Nodup)
    ⟨inv_init, .init mine, .init mine, by simp⟩ ?_ h
  intro labels s op s' r ih hen hnext
  have hop : ∀ p, op ≠ .pipe (.deliver p .pipeIn) := by
    intro p hp
    rw [hp] at hnext
    exact absurd hnext (by simp [machine, next, nextPipe, deliver])
  obtain ⟨s₁, r₁, hcall, hinv, hnodup, hgiven, hreceived⟩ := ih.1.sound hen hop
  obtain ⟨rfl, rfl⟩ := Prod.mk.inj (Except.ok.inj (hcall.symm.trans hnext))
  refine ⟨hinv, ?_, ?_, ?_⟩
  · rw [List.flatMap_append, List.flatMap_cons, List.flatMap_nil, List.append_nil]
    exact hgiven _ ih.2.1
  · rw [filterMap_concat]
    exact hreceived _ ih.2.2.1
  · intro l hl
    rcases List.mem_append.mp hl with hl | hl
    · exact ih.2.2.2 l hl
    · obtain rfl := List.mem_singleton.mp hl
      exact hnodup

/-- What was given to one pipe was published, in that order. -/
theorem given_sublist (labels : List Label) (hnodup : ∀ l ∈ labels, l.2.Nodup) (p : Nat) :
    (entries p (labels.flatMap given)).Sublist (labels.filterMap published) := by
  refine entries_flatMap_sublist ?_
  intro l hl
  obtain ⟨op, pipes⟩ := l
  cases op with
  | pipe op => exact List.Sublist.refl _
  | send msg =>
      have hcopies : entries p (given (.send msg, pipes)) = if p ∈ pipes then [msg.wire] else [] :=
        entries_copies (hnodup _ hl) p msg.wire
      rw [hcopies]
      split
      · exact List.Sublist.refl _
      · exact List.nil_sublist _

end Xpub

end GridMq.PubSub
