import GridMq.Protocols.FairQueue
import GridMq.Protocols.TwoWay

set_option autoImplicit false

/-!
# The PAIR socket (`src/protocols/pair/xpair.c`, `src/protocols/utils/excl.c`)

A PAIR socket talks to one peer at a time.  A second pipe is refused as long as the first one is
attached, and all messages go over that one, in both directions.  The cooked PAIR socket is the
raw one.
-/

namespace GridMq.Pair

open GridMq.Core GridMq.Library GridMq.Protocols

/-- `struct grid_excl`. -/
structure Excl where
  pipe : Option Nat := none
  inpipe : Option Nat := none
  outpipe : Option Nat := none
  deriving DecidableEq

namespace Excl

/-- `grid_excl_add`; `none` is `-EISCONN`. -/
def add (self : Excl) (p : Nat) : Option Excl :=
  if self.pipe.isSome then none else some { self with pipe := some p }

/-- `grid_excl_rm`. -/
def rm (self : Excl) : Except Abort Excl := do
  gridAssert (self.pipe.isSome = true)
  return {}

/-- `grid_excl_in`. -/
def exclIn (self : Excl) (p : Nat) : Except Abort Excl := do
  gridAssert (self.inpipe = none)
  gridAssert (self.pipe = some p)
  return { self with inpipe := some p }

/-- `grid_excl_out`. -/
def exclOut (self : Excl) (p : Nat) : Except Abort Excl := do
  gridAssert (self.outpipe = none)
  gridAssert (self.pipe = some p)
  return { self with outpipe := some p }

/-- `grid_excl_can_send`. -/
def canSend (self : Excl) : Bool := self.outpipe.isSome

/-- `grid_excl_can_recv`. -/
def canRecv (self : Excl) : Bool := self.inpipe.isSome

end Excl

/-- `struct grid_xpair`, with the pipes attached to it. -/
structure Xpair where
  pipes : SocketPipes := {}
  excl : Excl := {}

/-- What a call on a PAIR socket comes to. -/
inductive Answer where
  | done
  /-- `-EISCONN` -/
  | refused
  /-- `-EAGAIN` -/
  | again
  | sent (p : Nat)
  | received (p : Nat) (wire : List UInt8)
  deriving DecidableEq

namespace Xpair

/-- `grid_pipebase_start` with `grid_xpair_add`.  No event is raised for a pipe that is
refused; what the caller does with the refusal is not a part of the socket. -/
def add (self : Xpair) (p sndprio rcvprio : Nat) : Except Abort (Xpair × Answer) :=
  match self.excl.add p with
  | none => .ok (self, .refused)
  | some excl => do
      let pipes ← self.pipes.attach p sndprio rcvprio
      return ({ pipes := pipes, excl := excl }, .done)

/-- `grid_pipebase_stop` with `grid_xpair_rm`. -/
def rm (self : Xpair) (p : Nat) : Except Abort Xpair := do
  let excl ← self.excl.rm
  let pipes ← self.pipes.detach p
  return { pipes := pipes, excl := excl }

/-- `grid_xpair_in` and `grid_xpair_out`. -/
def deliver (self : Xpair) (p : Nat) (e : PipeEvent) : Except Abort Xpair := do
  let excl ← match e with
    | .pipeIn => self.excl.exclIn p
    | .pipeOut => self.excl.exclOut p
  return { pipes := self.pipes.took p e, excl := excl }

/-- `grid_xpair_events`: whether IN and OUT are there. -/
def events (self : Xpair) : Bool × Bool := (self.excl.canRecv, self.excl.canSend)

/-- `grid_xpair_send` with `grid_excl_send`. -/
def send (self : Xpair) (msg : Msg) : Except Abort (Xpair × Answer) :=
  match self.excl.outpipe with
  | none => .ok (self, .again)
  | some p => do
      let r ← self.pipes.send msg p
      let excl := if r.2 then { self.excl with outpipe := none } else self.excl
      return ({ pipes := r.1, excl := excl }, .sent p)

/-- `grid_xpair_recv` with `grid_excl_recv`. -/
def recv (self : Xpair) : Except Abort (Xpair × Answer) :=
  match self.excl.inpipe with
  | none => .ok (self, .again)
  | some p => do
      let r ← self.pipes.recv p
      let excl := if r.2.2 then { self.excl with inpipe := none } else self.excl
      return ({ pipes := r.1, excl := excl }, .received p r.2.1)

/-- What happens to a PAIR socket. -/
inductive Op where
  | pipe (op : PipeOp)
  | send (msg : Msg)
  | recv

def Enabled (mine : Nat → Bool) (self : Xpair) : Op → Prop
  | .pipe op => self.pipes.Enabled mine op
  | .send _ => True
  | .recv => True

instance (mine : Nat → Bool) (self : Xpair) (op : Op) : Decidable (self.Enabled mine op) := by
  cases op <;> unfold Enabled <;> infer_instance

/-- A check for `Enabled`. -/
def ready (mine : Nat → Bool) (s : Xpair) (op : Op) : Bool := decide (s.Enabled mine op)

/-- One step on the pipes. -/
def nextPipe (self : Xpair) : PipeOp → Except Abort (Xpair × Answer)
  | .add p sndprio rcvprio => self.add p sndprio.1 rcvprio.1
  | .rm p => do
      let self ← self.rm p
      return (self, .done)
  | .arrive p wire => do
      let pipes ← self.pipes.arrive p wire
      return ({ self with pipes := pipes }, .done)
  | .sent p => do
      let pipes ← self.pipes.sent p
      return ({ self with pipes := pipes }, .done)
  | .deliver p e => do
      let self ← self.deliver p e
      return (self, .done)

/-- One step. -/
def next (self : Xpair) : Op → Except Abort (Xpair × Answer)
  | .pipe op => self.nextPipe op
  | .send msg => self.send msg
  | .recv => self.recv

/-- A PAIR socket from its creation on. -/
def machine (mine : Nat → Bool) : Machine Xpair Op Answer Abort where
  init := {}
  Enabled := Enabled mine
  next := next

theorem enabled_of_ready (mine : Nat → Bool) (s : Xpair) (op : Op)
    (h : s.ready mine op = true) : (machine mine).Enabled s op := by
  have hen : s.Enabled mine op := of_decide_eq_true h
  exact hen

/-- What arrives in a step. -/
def arrival : Op × Answer → Option (Nat × List UInt8)
  | (.pipe op, _) => op.arrival
  | _ => none

/-- What the user receives in a step. -/
def taken : Op × Answer → List (Nat × List UInt8)
  | (_, .received p wire) => [(p, wire)]
  | _ => []

/-- What the user sends in a step. -/
def given : Op × Answer → List (Nat × List UInt8)
  | (.send msg, .sent p) => [(p, msg.wire)]
  | _ => []

/-- PAIR sockets from outside. -/
def view : SocketView Xpair Op Answer where
  machine := machine
  pipes := pipes
  arrival := arrival
  taken := taken
  given := given

/-! ## The invariant -/

/-- The pipe of the socket is the one that is attached, and it is ready or will be announced. -/
structure Inv (s : Xpair) : Prop where
  named : s.pipes.Named
  single : ∀ p, (∃ pipe, s.pipes.pipes p = some pipe) ↔ s.excl.pipe = some p
  inward : Staged inward s.pipes fun p => s.excl.inpipe = some p
  outward : Staged outward s.pipes fun p => s.excl.outpipe = some p

theorem inv_init : Inv {} where
  named := SocketPipes.named_init
  single p := by simp
  inward := by simpa using Staged.init Protocols.inward
  outward := by simpa using Staged.init Protocols.outward

variable {mine : Nat → Bool} {s s' : Xpair} {p : Nat}

/-- A step is sound: no assertion fails, and the messages go where the answer says. -/
def Sound (mine : Nat → Bool) (s : Xpair) (op : Op) : Prop :=
  ∃ s' r, s.next op = .ok (s', r) ∧ Inv s' ∧
    (∀ came went, Received mine came went s.pipes →
      Received mine (came ++ (arrival (op, r)).toList) (went ++ taken (op, r)) s'.pipes) ∧
    ∀ sent, Given mine sent s.pipes → Given mine (sent ++ given (op, r)) s'.pipes

/-- The one pipe of the socket. -/
theorem Inv.pipe_eq (h : Inv s) {q : Nat} (hq : ∃ pipe, s.pipes.pipes q = some pipe) :
    s.excl.pipe = some q := (h.single q).mp hq

/-- Replacing the pipe leaves it the only one. -/
theorem Inv.single_replace (h : Inv s) {w' : SocketPipes} {excl : Excl} {pipe pipe' : WirePipe}
    (hpipe : s.pipes.pipes p = some pipe)
    (hpipes : w'.pipes = Function.update s.pipes.pipes p (some pipe'))
    (hexcl : excl.pipe = s.excl.pipe) (q : Nat) :
    (∃ pipe, w'.pipes q = some pipe) ↔ excl.pipe = some q := by
  rw [hexcl, ← h.single q, hpipes]
  rcases eq_or_ne q p with rfl | hq
  · rw [Function.update_self]
    exact ⟨fun _ => ⟨pipe, hpipe⟩, fun _ => ⟨pipe', rfl⟩⟩
  · rw [Function.update_of_ne hq]

theorem Inv.add {sndprio rcvprio : Priority} (h : Inv s)
    (hen : s.Enabled mine (.pipe (.add p sndprio rcvprio))) :
    Sound mine s (.pipe (.add p sndprio rcvprio)) := by
  obtain ⟨hmine, hfresh⟩ := hen
  cases hpipe : s.excl.pipe with
  | some q =>
      refine ⟨s, .refused, ?_, h, ?_, ?_⟩
      · simp [next, nextPipe, Xpair.add, Excl.add, hpipe]
      · intro came went hr
        exact (List.append_nil came).symm ▸ (List.append_nil went).symm ▸ hr
      · intro sent hg
        exact (List.append_nil sent).symm ▸ hg
  | none =>
      obtain ⟨w', hcall, ha⟩ := SocketPipes.attach_spec sndprio.1 rcvprio.1 h.named hfresh
      refine ⟨⟨w', { s.excl with pipe := some p }⟩, .done, ?_, ⟨ha.named, ?_, ?_, ?_⟩, ?_, ?_⟩
      · simp [next, nextPipe, Xpair.add, Excl.add, hpipe, hcall, ok_bind, pure_eq_ok]
      · intro q
        have hnone : ¬∃ pipe, s.pipes.pipes q = some pipe := by
          rw [h.single q, hpipe]
          simp
        rw [ha.pipes]
        rcases eq_or_ne q p with rfl | hq
        · simp
        · rw [Function.update_of_ne hq]
          exact ⟨fun hex => absurd hex hnone, fun heq => absurd (Option.some.inj heq).symm hq⟩
      · exact ha.inward h.named hfresh h.inward
      · exact ha.outward h.named hfresh h.outward
      · intro came went hr
        exact (List.append_nil came).symm ▸ (List.append_nil went).symm ▸
          hr.attach ha hfresh hmine
      · intro sent hg
        exact (List.append_nil sent).symm ▸ hg.attach ha hfresh hmine

theorem Inv.rm (h : Inv s) (hen : s.Enabled mine (.pipe (.rm p))) :
    Sound mine s (.pipe (.rm p)) := by
  obtain ⟨pipe, hpipe⟩ := SocketPipes.pipe_of_attached hen
  have hexcl := h.pipe_eq ⟨pipe, hpipe⟩
  have honly : ∀ q, (∃ pipe, s.pipes.pipes q = some pipe) → q = p := by
    intro q hq
    exact Option.some.inj ((h.pipe_eq hq).symm.trans hexcl)
  refine ⟨⟨s.pipes.setPipe p none, {}⟩, .done, ?_, ⟨h.named.detach p, ?_, ?_, ?_⟩, ?_, ?_⟩
  · have hassert : gridAssert (s.excl.pipe.isSome = true) = .ok () :=
      gridAssert_pos (by rw [hexcl]; rfl)
    simp only [next, nextPipe, Xpair.rm, Excl.rm, hassert, ok_bind,
      SocketPipes.detach_ok hpipe, pure_eq_ok]
  · intro q
    rw [SocketPipes.setPipe_pipes]
    rcases eq_or_ne q p with rfl | hq
    · simp
    · rw [Function.update_of_ne hq]
      exact ⟨fun hex => absurd (honly q hex) hq, fun heq => absurd heq (by simp)⟩
  · refine h.inward.detach rfl rfl ?_
    intro q
    exact ⟨fun heq => absurd heq (by simp), fun hq => absurd (honly q (h.inward.attached q hq.1))
      hq.2⟩
  · refine h.outward.detach rfl rfl ?_
    intro q
    exact ⟨fun heq => absurd heq (by simp), fun hq => absurd (honly q (h.outward.attached q hq.1))
      hq.2⟩
  · intro came went hr
    exact (List.append_nil came).symm ▸ (List.append_nil went).symm ▸ hr.detach p
  · intro sent hg
    exact (List.append_nil sent).symm ▸ hg.detach p

theorem Inv.arrive {wire : List UInt8} (h : Inv s)
    (hen : s.Enabled mine (.pipe (.arrive p wire))) : Sound mine s (.pipe (.arrive p wire)) := by
  obtain ⟨w', pipe, pipe', hcall, ha, hstaged⟩ := SocketPipes.arrive_spec h.named h.inward hen wire
  refine ⟨{ s with pipes := w' }, .done, ?_, ⟨ha.named, h.single_replace ha.was ha.pipes rfl,
    hstaged, ?_⟩, ?_, ?_⟩
  · simp only [next, nextPipe, hcall, ok_bind, pure_eq_ok]
  · exact ha.other h.outward (by simp [Protocols.outward]) (outward_alike ha.outstate)
  · intro came went hr
    exact (List.append_nil went).symm ▸ hr.arrive ha h.named
  · intro sent hg
    exact (List.append_nil sent).symm ▸ hg.replace ha.was ha.pipes ha.used ha.outbox

theorem Inv.sent (h : Inv s) (hen : s.Enabled mine (.pipe (.sent p))) :
    Sound mine s (.pipe (.sent p)) := by
  obtain ⟨w', pipe, pipe', hcall, hs, hstaged⟩ := SocketPipes.sent_spec h.named h.outward hen
  refine ⟨{ s with pipes := w' }, .done, ?_, ⟨hs.named, h.single_replace hs.was hs.pipes rfl,
    ?_, hstaged⟩, ?_, ?_⟩
  · simp only [next, nextPipe, hcall, ok_bind, pure_eq_ok]
  · exact hs.other h.inward (by simp [Protocols.inward])
      (inward_alike hs.instate (congrArg Session.inbox hs.session))
  · intro came went hr
    exact (List.append_nil came).symm ▸ (List.append_nil went).symm ▸
      hr.keep (SocketPipes.inboxes_same hs.was hs.pipes (congrArg Session.inbox hs.session)) hs.used
  · intro sent hg
    exact (List.append_nil sent).symm ▸
      hg.replace hs.was hs.pipes hs.used (congrArg Session.outbox hs.session)

/-- The event of the pipe makes it ready, which it was not. -/
theorem Inv.activates {dir : Direction} {slot : Option Nat} (h : Inv s)
    (hstaged : Staged dir s.pipes fun q => slot = some q) (hpending : s.pipes.Pending p dir.event) :
    slot = none ∧ s.excl.pipe = some p ∧
      Staged dir (s.pipes.took p dir.event) fun q => some p = some q := by
  have hexcl := h.pipe_eq (SocketPipes.pipe_of_attached hpending.1)
  have hnone : slot = none := by
    cases hslot : slot with
    | none => rfl
    | some q =>
        have hq := h.pipe_eq (hstaged.attached q hslot)
        obtain rfl := Option.some.inj (hq.symm.trans hexcl)
        exact absurd hslot (hstaged.activate hpending fun _ => Iff.rfl).1
  refine ⟨hnone, hexcl, (hstaged.activate hpending ?_).2⟩
  intro q
  rw [hnone]
  exact ⟨fun heq => Or.inl (Option.some.inj heq).symm, fun hor => hor.elim (fun heq => heq ▸ rfl)
    fun heq => absurd heq (by simp)⟩

theorem Inv.deliver {e : PipeEvent} (h : Inv s) (hen : s.Enabled mine (.pipe (.deliver p e))) :
    Sound mine s (.pipe (.deliver p e)) := by
  have hreceived : ∀ came went, Received mine came went s.pipes →
      Received mine (came ++ []) (went ++ []) (s.pipes.took p e) := by
    intro came went hr
    exact (List.append_nil came).symm ▸ (List.append_nil went).symm ▸ hr.keep rfl rfl
  have hgiven : ∀ sent, Given mine sent s.pipes → Given mine (sent ++ []) (s.pipes.took p e) := by
    intro sent hg
    exact (List.append_nil sent).symm ▸ hg.keep rfl rfl
  cases e with
  | pipeIn =>
      obtain ⟨hnone, hexcl, hstaged⟩ := h.activates h.inward hen
      refine ⟨⟨s.pipes.took p .pipeIn, { s.excl with inpipe := some p }⟩, .done, ?_,
        ⟨h.named.took p _, h.single, hstaged, ?_⟩, hreceived, hgiven⟩
      · simp only [next, nextPipe, Xpair.deliver, Excl.exclIn, gridAssert_pos hnone,
          gridAssert_pos hexcl, ok_bind, pure_eq_ok]
      · exact h.outward.keep rfl fun q => PipeQueues.count_erase_ne (by simp [Protocols.outward])
  | pipeOut =>
      obtain ⟨hnone, hexcl, hstaged⟩ := h.activates h.outward hen
      refine ⟨⟨s.pipes.took p .pipeOut, { s.excl with outpipe := some p }⟩, .done, ?_,
        ⟨h.named.took p _, h.single, ?_, hstaged⟩, hreceived, hgiven⟩
      · simp only [next, nextPipe, Xpair.deliver, Excl.exclOut, gridAssert_pos hnone,
          gridAssert_pos hexcl, ok_bind, pure_eq_ok]
      · exact h.inward.keep rfl fun q => PipeQueues.count_erase_ne (by simp [Protocols.inward])

theorem Inv.send (h : Inv s) (msg : Msg) : Sound mine s (.send msg) := by
  cases hout : s.excl.outpipe with
  | none =>
      refine ⟨s, .again, ?_, h, ?_, ?_⟩
      · simp only [next, Xpair.send, hout]
      · intro came went hr
        exact (List.append_nil came).symm ▸ (List.append_nil went).symm ▸ hr
      · intro sent hg
        exact (List.append_nil sent).symm ▸ hg
  | some p =>
      have hless : ∀ q, none = some q ↔ s.excl.outpipe = some q ∧ q ≠ p := by
        intro q
        rw [hout]
        exact ⟨fun heq => absurd heq (by simp), fun hq => absurd (Option.some.inj hq.1).symm hq.2⟩
      obtain ⟨w', pipe, pipe', hcall, hgive, -, hstaged⟩ := h.outward.give hout hless msg
      refine ⟨⟨w', { s.excl with outpipe := none }⟩, .sent p, ?_, ⟨?_,
        h.single_replace hgive.was hgive.pipes rfl, ?_, hstaged⟩, ?_, ?_⟩
      · simp only [next, Xpair.send, hout, hcall, ok_bind, if_true, pure_eq_ok]
      · exact h.named.replace hgive.was hgive.pipes hgive.used fun e he => Or.inl (hgive.events ▸ he)
      · exact h.inward.other hgive.was hgive.pipes (fun q => by rw [hgive.events])
          (inward_alike hgive.instate hgive.inbox)
      · intro came went hr
        exact (List.append_nil came).symm ▸ (List.append_nil went).symm ▸
          hr.keep (SocketPipes.inboxes_same hgive.was hgive.pipes hgive.inbox) hgive.used
      · intro sent hg
        exact hg.give hgive h.named

theorem Inv.recv (h : Inv s) : Sound mine s .recv := by
  cases hin : s.excl.inpipe with
  | none =>
      refine ⟨s, .again, ?_, h, ?_, ?_⟩
      · simp only [next, Xpair.recv, hin]
      · intro came went hr
        exact (List.append_nil came).symm ▸ (List.append_nil went).symm ▸ hr
      · intro sent hg
        exact (List.append_nil sent).symm ▸ hg
  | some p =>
      obtain ⟨w', wire, release, pipe, pipe', hcall, htake, -, hstaged⟩ := h.inward.take hin
      refine ⟨⟨w', if release then { s.excl with inpipe := none } else s.excl⟩, .received p wire,
        ?_, ⟨?_, h.single_replace htake.was htake.pipes (by split <;> rfl), ?_, ?_⟩, ?_, ?_⟩
      · simp only [next, Xpair.recv, hin, hcall, ok_bind, pure_eq_ok]
      · exact h.named.replace htake.was htake.pipes htake.used fun e he => Or.inl (htake.events ▸ he)
      · refine hstaged _ ?_ ?_ ?_
        · intro q hq
          have hne : s.excl.inpipe ≠ some q := by
            rw [hin]
            exact fun heq => hq (Option.some.inj heq).symm
          split
          · exact ⟨fun heq => absurd heq (by simp), fun heq => absurd heq hne⟩
          · rfl
        · intro hrelease
          rw [hrelease]
          exact fun heq => absurd heq (by simp)
        · intro hrelease
          rw [hrelease]
          exact hin
      · have hsame : (if release then ({ s.excl with inpipe := none } : Excl) else s.excl).outpipe =
            s.excl.outpipe := by
          split <;> rfl
        simp only [hsame]
        exact h.outward.other htake.was htake.pipes (fun q => by rw [htake.events])
          (outward_alike htake.outstate)
      · intro came went hr
        exact (List.append_nil came).symm ▸ hr.take htake
      · intro sent hg
        exact (List.append_nil sent).symm ▸ hg.replace htake.was htake.pipes htake.used htake.outbox

/-- Every step that can be taken is sound. -/
theorem Inv.sound (h : Inv s) {op : Op} (hen : s.Enabled mine op) : Sound mine s op := by
  cases op with
  | send msg => exact h.send msg
  | recv => exact h.recv
  | pipe op =>
      cases op with
      | add p sndprio rcvprio => exact h.add hen
      | rm p => exact h.rm hen
      | arrive p wire => exact h.arrive hen
      | sent p => exact h.sent hen
      | deliver p e => exact h.deliver hen

theorem inv_run {labels : List (Op × Answer)} (h : (machine mine).system.Run labels s) :
    Inv s ∧ Received mine (labels.filterMap arrival) (labels.flatMap taken) s.pipes ∧
      Given mine (labels.flatMap given) s.pipes := by
  refine Machine.run_rule (m := machine mine) (P := fun labels s => Inv s ∧
    Received mine (labels.filterMap arrival) (labels.flatMap taken) s.pipes ∧
      Given mine (labels.flatMap given) s.pipes) ⟨inv_init, .init mine, .init mine⟩ ?_ h
  intro labels s op s' r ih hen hnext
  obtain ⟨s₁, r₁, hcall, hinv, hreceived, hgiven⟩ := ih.1.sound hen
  obtain ⟨rfl, rfl⟩ := Prod.mk.inj (Except.ok.inj (hcall.symm.trans hnext))
  refine ⟨hinv, ?_, ?_⟩
  · rw [filterMap_concat, List.flatMap_append, List.flatMap_cons, List.flatMap_nil,
      List.append_nil]
    exact hreceived _ _ ih.2.1
  · rw [List.flatMap_append, List.flatMap_cons, List.flatMap_nil, List.append_nil]
    exact hgiven _ ih.2.2

theorem accounts : view.Accounts := fun _ _ _ h => (inv_run h).2

/-- A new pipe is refused as long as there is one. -/
theorem Inv.add_refused {sndprio rcvprio : Priority} (h : Inv s) (hfresh : s.pipes.Fresh p) :
    s.next (.pipe (.add p sndprio rcvprio)) = .ok (s, .refused) ↔
      ∃ q pipe, s.pipes.pipes q = some pipe := by
  constructor
  · intro hcall
    cases hpipe : s.excl.pipe with
    | some q =>
        obtain ⟨pipe, hq⟩ := (h.single q).mpr hpipe
        exact ⟨q, pipe, hq⟩
    | none =>
        obtain ⟨w', hattach, -⟩ := SocketPipes.attach_spec sndprio.1 rcvprio.1 h.named hfresh
        simp [next, nextPipe, Xpair.add, Excl.add, hpipe, hattach] at hcall
  · intro hex
    obtain ⟨q, hq⟩ := hex
    have hpipe := h.pipe_eq hq
    simp [next, nextPipe, Xpair.add, Excl.add, hpipe]

end Xpair

/-! ## Pairs of sockets -/

/-- PAIR sockets that are joined by links. -/
abbrev State := TwoWay.State Xpair Xpair.Op Answer

variable {links : Links} {s : State}

theorem inv_reachable (h : (TwoWay.network Xpair.view links).system.Reachable s) (i : Nat) :
    Xpair.Inv (s.parties i) := (Xpair.inv_run (Network.run_party h i)).1

/-- OUT is there exactly when a message is taken. -/
theorem Xpair.send_again (s : Xpair) (msg : Msg) :
    Xpair.next s (.send msg) = .ok (s, .again) ↔ s.events.2 = false := by
  cases hout : s.excl.outpipe with
  | none =>
      refine iff_of_true ?_ (by simp [events, Excl.canSend, hout])
      rw [Xpair.next, Xpair.send, hout]
  | some p =>
      refine iff_of_false ?_ (by simp [events, Excl.canSend, hout])
      intro h
      rw [Xpair.next, Xpair.send, hout] at h
      obtain ⟨r, -, h⟩ := bind_eq_ok_iff.mp h
      exact absurd (congrArg Prod.snd (Except.ok.inj h)) (by simp)

/-- IN is there exactly when there is a message. -/
theorem Xpair.recv_again (s : Xpair) :
    Xpair.next s .recv = .ok (s, .again) ↔ s.events.1 = false := by
  cases hin : s.excl.inpipe with
  | none =>
      refine iff_of_true ?_ (by simp [events, Excl.canRecv, hin])
      rw [Xpair.next, Xpair.recv, hin]
  | some p =>
      refine iff_of_false ?_ (by simp [events, Excl.canRecv, hin])
      intro h
      rw [Xpair.next, Xpair.recv, hin] at h
      obtain ⟨r, -, h⟩ := bind_eq_ok_iff.mp h
      exact absurd (congrArg Prod.snd (Except.ok.inj h)) (by simp)

/-- Two sockets, joined by two links. -/
def twoLinks : Links where
  owner p := p % 2
  peer p := if p % 2 = 0 then p + 1 else p - 1
  peer_peer p := by
    split <;> split <;> omega

/-- The first link is used in both directions; the second one is refused where the first one is
attached. -/
def exchange : List ((_ : Nat) × Xpair.Op × Answer) :=
  [⟨0, .pipe (.add 0 defaultPriority defaultPriority), .done⟩,
    ⟨1, .pipe (.add 1 defaultPriority defaultPriority), .done⟩,
    ⟨0, .pipe (.add 2 defaultPriority defaultPriority), .refused⟩,
    ⟨0, .pipe (.deliver 0 .pipeOut), .done⟩,
    ⟨1, .pipe (.deliver 1 .pipeOut), .done⟩,
    ⟨0, .send { body := [1] }, .sent 0⟩,
    ⟨1, .send { body := [2] }, .sent 1⟩,
    ⟨0, .pipe (.arrive 0 [2]), .done⟩,
    ⟨0, .pipe (.deliver 0 .pipeIn), .done⟩,
    ⟨0, .recv, .received 0 [2]⟩]

/-- In every run of PAIR sockets no assertion of the socket type fails; a socket has at most one
pipe, and a new one is refused if and only if it has (what becomes of the transport that offered it
is left out); the events of a socket say when it sends and receives; every message goes over the
pipes of its socket, and over each link the messages come once and in order in both directions,
with nothing lost at an end that is up. -/
theorem pair_delivers (h : (TwoWay.network Xpair.view links).system.Reachable s) :
    (∀ i op, Xpair.Enabled (fun p => links.owner p == i) (s.parties i) op →
      ∃ r, Xpair.next (s.parties i) op = .ok r) ∧
    (∀ i p q, SocketPipes.Attached (s.parties i).pipes p →
      SocketPipes.Attached (s.parties i).pipes q → p = q) ∧
    (∀ i p sndprio rcvprio, SocketPipes.Fresh (s.parties i).pipes p →
      (Xpair.next (s.parties i) (.pipe (.add p sndprio rcvprio)) = .ok (s.parties i, .refused) ↔
        ∃ q, SocketPipes.Attached (s.parties i).pipes q)) ∧
    (∀ i msg, Xpair.next (s.parties i) (.send msg) = .ok (s.parties i, .again) ↔
      (s.parties i).events.2 = false) ∧
    (∀ i, Xpair.next (s.parties i) .recv = .ok (s.parties i, .again) ↔
      (s.parties i).events.1 = false) ∧
    TwoWay.Delivers Xpair.view links s := by
  refine ⟨?_, ?_, ?_, fun i msg => Xpair.send_again (s.parties i) msg,
    fun i => Xpair.recv_again (s.parties i), TwoWay.delivers Xpair.accounts h⟩
  · intro i op hen
    obtain ⟨s', r, hcall, -⟩ := (inv_reachable h i).sound hen
    exact ⟨(s', r), hcall⟩
  · intro i p q hp hq
    have hpipe := (inv_reachable h i).pipe_eq (SocketPipes.pipe_of_attached hp)
    have hpipe' := (inv_reachable h i).pipe_eq (SocketPipes.pipe_of_attached hq)
    exact Option.some.inj (hpipe.symm.trans hpipe')
  · intro i p sndprio rcvprio hfresh
    rw [(inv_reachable h i).add_refused hfresh]
    simp only [SocketPipes.Attached, Option.isSome_iff_exists]

theorem pair_delivers_exchange :
    ∃ s, TwoWay.after Xpair.view twoLinks Xpair.ready exchange = some s ∧
      TwoWay.taken Xpair.view s 0 = [(0, [2])] ∧
      entries 0 (TwoWay.taken Xpair.view s 0) <+: entries 1 (TwoWay.given Xpair.view s 1) := by
  have hrun : (TwoWay.after Xpair.view twoLinks Xpair.ready exchange).map
      (fun s => TwoWay.taken Xpair.view s 0) = some [(0, [2])] := by
    decide +kernel
  obtain ⟨s, hs, htaken⟩ := Option.map_eq_some_iff.mp hrun
  have hreach := TwoWay.reachable_after Xpair.enabled_of_ready hs
  exact ⟨s, hs, htaken, (pair_delivers hreach).2.2.2.2.2.order 0⟩

end GridMq.Pair
