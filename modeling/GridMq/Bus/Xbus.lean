import GridMq.Protocols.Distribution
import GridMq.Protocols.TwoWay

set_option autoImplicit false

/-!
# The BUS socket (`src/protocols/bus/xbus.c`, `src/protocols/bus/bus.c`)

A message goes to every pipe that is ready.  The raw socket hands over each message with the
address of the pipe it came in on as its header, and a message that is sent with such a header
does not go to the pipe at that address.  The cooked socket has no headers.
-/

namespace GridMq.Bus

open GridMq.Core GridMq.Library GridMq.Protocols

/-- `struct grid_xbus`, with the pipes attached to it. -/
structure Xbus where
  pipes : SocketPipes := {}
  outpipes : Dist := {}
  inpipes : Priolist := .init

/-- What a call on a BUS socket comes to. -/
inductive Answer where
  | done
  /-- `-EINVAL` -/
  | invalid
  /-- `-EAGAIN` -/
  | again
  | sent (pipes : List Nat)
  | received (p : Nat) (msg : Msg)
  deriving DecidableEq

/-- The pointer to a `struct grid_pipe`, as the eight bytes of a header. -/
def header (address : Nat → UInt64) (p : Nat) : List UInt8 := nativeOf 8 (address p).toNat

namespace Xbus

section Calls

variable (address : Nat → UInt64)

/-- `grid_pipebase_start` with `grid_xbus_add`. -/
def add (self : Xbus) (p sndprio rcvprio : Nat) : Except Abort Xbus := do
  gridAssert (1 ≤ rcvprio ∧ rcvprio ≤ 16)
  let pipes ← self.pipes.attach p sndprio rcvprio
  return { self with pipes := pipes }

/-- `grid_pipebase_stop` with `grid_xbus_rm`. -/
def rm (self : Xbus) (p : Nat) : Except Abort Xbus := do
  let inpipes ← self.pipes.fqRm self.inpipes p
  let outpipes := self.outpipes.rm p
  let pipes ← self.pipes.detach p
  return { pipes := pipes, outpipes := outpipes, inpipes := inpipes }

/-- `grid_xbus_in` and `grid_xbus_out`. -/
def deliver (self : Xbus) (p : Nat) (e : PipeEvent) : Except Abort Xbus :=
  let pipes := self.pipes.took p e
  match e with
  | .pipeIn => do
      let inpipes ← pipes.fqIn self.inpipes p
      return { self with pipes := pipes, inpipes := inpipes }
  | .pipeOut => do
      let outpipes ← self.outpipes.out p
      return { self with pipes := pipes, outpipes := outpipes }

/-- `grid_dist_send` on the pipes of the socket. -/
def distribute (self : Xbus) (exclude : Option Nat) (msg : Msg) :
    Except Abort (Xbus × Answer) := do
  let r ← self.outpipes.send (SocketPipes.send msg) exclude self.pipes
  return ({ self with pipes := r.2, outpipes := r.1 }, .sent (self.outpipes.targets exclude))

/-- The pipe that `grid_dist_send` compares equal to the pointer in a header. -/
def exclude (self : Xbus) (sphdr : List UInt8) : Option Nat :=
  self.outpipes.pipes.find? fun p => (address p).toNat = native sphdr

/-- `grid_xbus_send`. -/
def send (self : Xbus) (msg : Msg) : Except Abort (Xbus × Answer) :=
  if msg.sphdr.length = 0 then self.distribute none msg
  else if msg.sphdr.length = 8 then
    self.distribute (self.exclude address msg.sphdr) { msg with sphdr := [] }
  else .ok (self, .invalid)

/-- `grid_xbus_recv`.  The messages of the pipes have no header, so that the first one ends the
loop. -/
def recv (self : Xbus) : Except Abort (Xbus × Answer) := do
  let r ← self.pipes.fqRecv self.inpipes
  let self := { self with pipes := r.1.1, inpipes := r.1.2 }
  match r.2 with
  | none => return (self, .again)
  | some (p, wire) => return (self, .received p { sphdr := header address p, body := wire })

/-- `grid_bus_send`. -/
def busSend (self : Xbus) (msg : Msg) : Except Abort (Xbus × Answer) :=
  if msg.sphdr.length ≠ 0 then .ok (self, .invalid)
  else do
    let r ← self.send address msg
    gridAssert (r.2 ≠ .invalid)
    return r

/-- `grid_bus_recv`. -/
def busRecv (self : Xbus) : Except Abort (Xbus × Answer) := do
  let r ← self.recv address
  match r.2 with
  | .received p msg => do
      gridAssert (msg.sphdr.length = 8)
      return (r.1, .received p { msg with sphdr := [] })
  | answer => return (r.1, answer)

/-- What happens to a BUS socket. -/
inductive Op where
  | pipe (op : PipeOp)
  | send (msg : Msg)
  | recv
  | busSend (msg : Msg)
  | busRecv
  deriving DecidableEq

/-- No two pipes are at one address at the same time. -/
def Enabled (mine : Nat → Bool) (self : Xbus) : Op → Prop
  | .pipe op => self.pipes.Enabled mine op ∧ ∀ p sndprio rcvprio, op = .add p sndprio rcvprio →
      ∀ q ∈ self.pipes.used, self.pipes.Attached q → address q ≠ address p
  | _ => True

/-- A check for `Enabled`. -/
def ready (mine : Nat → Bool) (self : Xbus) : Op → Bool
  | .pipe op => decide (self.pipes.Enabled mine op) && (match op with
      | .add p _ _ => self.pipes.used.all fun q =>
          decide (self.pipes.Attached q → address q ≠ address p)
      | _ => true)
  | _ => true

/-- One step on the pipes. -/
def nextPipe (self : Xbus) : PipeOp → Except Abort Xbus
  | .add p sndprio rcvprio => self.add p sndprio.1 rcvprio.1
  | .rm p => self.rm p
  | .arrive p wire => do
      let pipes ← self.pipes.arrive p wire
      return { self with pipes := pipes }
  | .sent p => do
      let pipes ← self.pipes.sent p
      return { self with pipes := pipes }
  | .deliver p e => self.deliver p e

/-- One step. -/
def next (self : Xbus) : Op → Except Abort (Xbus × Answer)
  | .pipe op => do
      let self ← self.nextPipe op
      return (self, .done)
  | .send msg => self.send address msg
  | .recv => self.recv address
  | .busSend msg => self.busSend address msg
  | .busRecv => self.busRecv address

/-- A BUS socket from its creation on. -/
def machine (mine : Nat → Bool) : Machine Xbus Op Answer Abort where
  init := {}
  Enabled := Enabled address mine
  next := next address

theorem enabled_of_ready (mine : Nat → Bool) (s : Xbus) (op : Op)
    (h : ready address mine s op = true) : (machine address mine).Enabled s op := by
  cases op with
  | pipe op =>
      obtain ⟨hen, hadd⟩ := Bool.and_eq_true_iff.mp h
      refine ⟨of_decide_eq_true hen, ?_⟩
      intro p sndprio rcvprio hop q hq
      subst hop
      exact of_decide_eq_true (List.all_eq_true.mp hadd q hq)
  | _ => trivial

end Calls

/-- A step as it is seen from outside. -/
abbrev Label := Op × Answer

instance : DecidableEq (List Label) := inferInstanceAs (DecidableEq (List (Op × Answer)))

/-- What arrives in a step. -/
def arrival : Label → Option (Nat × List UInt8)
  | (.pipe op, _) => op.arrival
  | _ => none

/-- What the user receives in a step. -/
def taken : Label → List (Nat × List UInt8)
  | (_, .received p msg) => [(p, msg.body)]
  | _ => []

/-- The message that is sent in a step, once for each pipe that it is given to. -/
def given : Label → List (Nat × List UInt8)
  | (.send msg, .sent pipes) => pipes.map fun p => (p, msg.body)
  | (.busSend msg, .sent pipes) => pipes.map fun p => (p, msg.body)
  | _ => []

/-- The message that is sent in a step, if it is not to keep off the pipe. -/
def meant (address : Nat → UInt64) (p : Nat) : Label → Option (List UInt8)
  | (.send msg, .sent _) => if msg.sphdr = header address p then none else some msg.body
  | (.busSend msg, .sent _) => some msg.body
  | _ => none

/-- BUS sockets from outside. -/
def view (address : Nat → UInt64) : SocketView Xbus Op Answer where
  machine := machine address
  pipes := pipes
  arrival := arrival
  taken := taken
  given := given

/-! ## The invariant -/

/-- The fair queue has the pipes with a message, and the distributor those that are ready for
one. -/
structure Inv (address : Nat → UInt64) (s : Xbus) : Prop where
  named : s.pipes.Named
  inward : Kept inward s.pipes s.inpipes
  outward : Staged outward s.pipes (· ∈ s.outpipes.pipes)
  count : s.outpipes.count = s.outpipes.pipes.length
  nodup : s.outpipes.pipes.Nodup
  apart : ∀ p q, s.pipes.Attached p → s.pipes.Attached q → address p = address q → p = q

variable {address : Nat → UInt64} {mine : Nat → Bool} {s s' : Xbus} {p : Nat}

theorem inv_init (address : Nat → UInt64) : Inv address {} where
  named := SocketPipes.named_init
  inward := .init Protocols.inward
  outward := by
    have hnone : (fun p => p ∈ ({} : Xbus).outpipes.pipes) = fun _ => False := by
      funext p
      simp
    rw [hnone]
    exact .init Protocols.outward
  count := rfl
  nodup := List.nodup_nil
  apart p q hp := absurd hp (by simp [SocketPipes.Attached])

/-- A message goes to each pipe once, and to none that its header keeps it off. -/
def Spares (address : Nat → UInt64) : Label → Prop
  | (.send msg, .sent pipes) => pipes.Nodup ∧ ∀ p ∈ pipes, msg.sphdr ≠ header address p
  | (.busSend _, .sent pipes) => pipes.Nodup
  | _ => True

/-- A step is sound: no assertion fails, and the messages go where the answer says. -/
def Sound (address : Nat → UInt64) (mine : Nat → Bool) (s : Xbus) (op : Op) : Prop :=
  ∃ s' r, s.next address op = .ok (s', r) ∧ Inv address s' ∧ Spares address (op, r) ∧
    (∀ came went, Received mine came went s.pipes →
      Received mine (came ++ (arrival (op, r)).toList) (went ++ taken (op, r)) s'.pipes) ∧
    ∀ sent, Given mine sent s.pipes → Given mine (sent ++ given (op, r)) s'.pipes

/-- Pipes that were attached before are at the addresses where they were. -/
theorem Inv.apart_of (h : Inv address s) {w' : SocketPipes}
    (hless : ∀ q, w'.Attached q → s.pipes.Attached q) (p q : Nat) (hp : w'.Attached p)
    (hq : w'.Attached q) (heq : address p = address q) : p = q :=
  h.apart p q (hless p hp) (hless q hq) heq

/-- A step that hands nothing over and gives nothing to the pipes. -/
theorem sound_pipe {op : PipeOp} (s' : Xbus) (hcall : s.nextPipe op = .ok s')
    (hinv : Inv address s')
    (hreceived : ∀ came went, Received mine came went s.pipes →
      Received mine (came ++ op.arrival.toList) went s'.pipes)
    (hgiven : ∀ sent, Given mine sent s.pipes → Given mine sent s'.pipes) :
    Sound address mine s (.pipe op) := by
  refine ⟨s', .done, ?_, hinv, trivial, ?_, ?_⟩
  · simp only [next, hcall, ok_bind, pure_eq_ok]
  · intro came went hr
    exact (List.append_nil went).symm ▸ hreceived came went hr
  · intro sent hg
    exact (List.append_nil sent).symm ▸ hgiven sent hg

theorem Inv.add {sndprio rcvprio : Priority} (h : Inv address s)
    (hen : s.Enabled address mine (.pipe (.add p sndprio rcvprio))) :
    Sound address mine s (.pipe (.add p sndprio rcvprio)) := by
  obtain ⟨⟨hmine, hfresh⟩, haddress⟩ := hen
  have hother := haddress p sndprio rcvprio rfl
  obtain ⟨w', hcall, ha⟩ := SocketPipes.attach_spec sndprio.1 rcvprio.1 h.named hfresh
  have hold : ∀ q, q ≠ p → w'.Attached q → s.pipes.Attached q := by
    intro q hq hattached
    unfold SocketPipes.Attached at hattached ⊢
    rw [ha.pipes, Function.update_of_ne hq] at hattached
    exact hattached
  have hnew : ∀ q, q ≠ p → w'.Attached q → address q ≠ address p := by
    intro q hq hattached
    obtain ⟨pipe, hpipe⟩ := SocketPipes.pipe_of_attached (hold q hq hattached)
    exact hother q (h.named.pipes q pipe hpipe) (hold q hq hattached)
  refine sound_pipe { s with pipes := w' } ?_ ⟨ha.named, ?_,
    ha.outward h.named hfresh h.outward, h.count, h.nodup, ?_⟩ ?_ ?_
  · simp only [nextPipe, Xbus.add, gridAssert_pos rcvprio.2, hcall, ok_bind, pure_eq_ok]
  · exact h.inward.attach ha h.named hfresh rcvprio.2
      (ha.inward h.named hfresh h.inward.toStaged)
  · intro q r hq hr heq
    rcases eq_or_ne q p with rfl | hqp
    · rcases eq_or_ne r q with rfl | hrq
      · rfl
      · exact absurd heq.symm (hnew r hrq hr)
    · rcases eq_or_ne r p with rfl | hrp
      · exact absurd heq (hnew q hqp hq)
      · exact h.apart q r (hold q hqp hq) (hold r hrp hr) heq
  · intro came went hr
    exact (List.append_nil came).symm ▸ hr.attach ha hfresh hmine
  · intro sent hg
    exact hg.attach ha hfresh hmine

theorem Inv.rm (h : Inv address s) (hen : s.pipes.Attached p) :
    Sound address mine s (.pipe (.rm p)) := by
  obtain ⟨pipe, hpipe⟩ := SocketPipes.pipe_of_attached hen
  obtain ⟨hrm, hkept⟩ := h.inward.remove hpipe
  obtain ⟨hcount, hnodup, hmem⟩ := Dist.rm_count h.count h.nodup p
  refine sound_pipe ⟨s.pipes.setPipe p none, s.outpipes.rm p,
    s.inpipes.rm ⟨p, pipe.rcvprio⟩⟩ ?_ ⟨h.named.detach p, hkept,
    h.outward.detach rfl rfl hmem, hcount, hnodup, h.apart_of ?_⟩ ?_ ?_
  · have hfq : s.pipes.fqRm s.inpipes p = .ok (s.inpipes.rm ⟨p, pipe.rcvprio⟩) := hrm
    simp only [nextPipe, Xbus.rm, hfq, ok_bind, SocketPipes.detach_ok hpipe, pure_eq_ok]
  · intro q hq
    unfold SocketPipes.Attached at hq ⊢
    rcases eq_or_ne q p with rfl | hne
    · rw [hpipe]
      rfl
    · rw [SocketPipes.setPipe_pipes, Function.update_of_ne hne] at hq
      exact hq
  · intro came went hr
    exact (List.append_nil came).symm ▸ hr.detach p
  · intro sent hg
    exact hg.detach p

theorem Inv.arrive {wire : List UInt8} (h : Inv address s) (hen : s.pipes.Attached p) :
    Sound address mine s (.pipe (.arrive p wire)) := by
  obtain ⟨w', pipe, pipe', hcall, ha, hstaged⟩ :=
    SocketPipes.arrive_spec h.named h.inward.toStaged hen wire
  refine sound_pipe { s with pipes := w' } ?_ ⟨ha.named, ⟨?_, hstaged⟩, ?_, h.count,
    h.nodup, h.apart_of fun q => (SocketPipes.attached_replace ha.was ha.pipes q).mp⟩ ?_ ?_
  · simp only [nextPipe, hcall, ok_bind, pure_eq_ok]
  · exact h.inward.toQueued.replace ha.was ha.pipes ha.rcvprio
  · exact ha.other h.outward (by simp [Protocols.outward]) (outward_alike ha.outstate)
  · intro came went hr
    exact hr.arrive ha h.named
  · intro sent hg
    exact hg.replace ha.was ha.pipes ha.used ha.outbox

theorem Inv.sent (h : Inv address s) (hen : s.pipes.Sending p) :
    Sound address mine s (.pipe (.sent p)) := by
  obtain ⟨w', pipe, pipe', hcall, hs, hstaged⟩ := SocketPipes.sent_spec h.named h.outward hen
  refine sound_pipe { s with pipes := w' } ?_ ⟨hs.named, ?_, hstaged, h.count, h.nodup,
    h.apart_of fun q => (SocketPipes.attached_replace hs.was hs.pipes q).mp⟩ ?_ ?_
  · simp only [nextPipe, hcall, ok_bind, pure_eq_ok]
  · exact h.inward.other hs.toReporting (by simp [Protocols.inward]) hs.rcvprio
      (inward_alike hs.instate (congrArg Session.inbox hs.session))
  · intro came went hr
    exact (List.append_nil came).symm ▸ hr.keep (SocketPipes.inboxes_same hs.was hs.pipes
      (congrArg Session.inbox hs.session)) hs.used
  · intro sent hg
    exact hg.replace hs.was hs.pipes hs.used (congrArg Session.outbox hs.session)

theorem Inv.deliver {e : PipeEvent} (h : Inv address s) (hen : s.pipes.Pending p e) :
    Sound address mine s (.pipe (.deliver p e)) := by
  have hreceived : ∀ came went, Received mine came went s.pipes →
      Received mine (came ++ (PipeOp.deliver p e).arrival.toList) went (s.pipes.took p e) := by
    intro came went hr
    exact (List.append_nil came).symm ▸ hr.keep rfl rfl
  have hgiven : ∀ sent, Given mine sent s.pipes → Given mine sent (s.pipes.took p e) := by
    intro sent hg
    exact hg.keep rfl rfl
  cases e with
  | pipeIn =>
      obtain ⟨inpipes, hcall, hkept⟩ := h.inward.activate hen
      refine sound_pipe ⟨s.pipes.took p .pipeIn, s.outpipes, inpipes⟩ ?_
        ⟨h.named.took p _, hkept, ?_, h.count, h.nodup, h.apart_of fun _ hq => hq⟩
        hreceived hgiven
      · have hfq : (s.pipes.took p .pipeIn).fqIn s.inpipes p = .ok inpipes := hcall
        simp only [nextPipe, Xbus.deliver, hfq, ok_bind, pure_eq_ok]
      · exact h.outward.keep rfl fun q => PipeQueues.count_erase_ne (by simp [Protocols.outward])
  | pipeOut =>
      have hmem : ∀ q, q ∈ s.outpipes.pipes ++ [p] ↔ q = p ∨ q ∈ s.outpipes.pipes := by
        intro q
        rw [List.mem_append, List.mem_singleton, or_comm]
      obtain ⟨hnew, hready⟩ := h.outward.activate hen hmem
      refine sound_pipe ⟨s.pipes.took p .pipeOut,
        ⟨s.outpipes.count + 1, s.outpipes.pipes ++ [p]⟩, s.inpipes⟩ ?_
        ⟨h.named.took p _, h.inward.took_other p (by simp [Protocols.inward]), hready, ?_, ?_,
          h.apart_of fun _ hq => hq⟩ hreceived hgiven
      · simp only [nextPipe, Xbus.deliver, Dist.out, gridAssert_pos hnew, ok_bind, pure_eq_ok]
      · rw [List.length_append, h.count]
        rfl
      · rw [List.nodup_append]
        refine ⟨h.nodup, List.nodup_singleton p, ?_⟩
        intro a ha b hb hab
        obtain rfl := List.mem_singleton.mp hb
        exact hnew (hab ▸ ha)

/-! ## Sending and receiving -/

/-- The distributor gives the message to all pipes that are ready but one. -/
theorem Inv.distribute (h : Inv address s) (exclude : Option Nat) (msg : Msg) :
    ∃ s', s.distribute exclude msg = .ok (s', .sent (s.outpipes.targets exclude)) ∧
      Inv address s' ∧ Distributing s.pipes s'.pipes msg.wire (s.outpipes.targets exclude) := by
  obtain ⟨w', d', hcall, hd, hready, hcount, hnodup⟩ :=
    h.outward.distribute h.named h.count h.nodup exclude msg
  refine ⟨⟨w', d', s.inpipes⟩, ?_, ⟨hd.named, ⟨hd.queued _ h.inward.toQueued,
    hd.inward _ h.inward.toStaged⟩, hready, hcount, hnodup,
    h.apart_of fun q => (hd.attached q).mp⟩, hd⟩
  simp only [Xbus.distribute, hcall, ok_bind, pure_eq_ok]

theorem native_header (address : Nat → UInt64) (p : Nat) :
    native (header address p) = (address p).toNat :=
  native_nativeOf (address p).toNat_lt

theorem length_header (address : Nat → UInt64) (p : Nat) : (header address p).length = 8 :=
  length_nativeOf 8 _

/-- A pipe that is ready is attached. -/
theorem Inv.attached_of_mem (h : Inv address s) (hp : p ∈ s.outpipes.pipes) :
    s.pipes.Attached p := Option.isSome_iff_exists.mpr (h.outward.attached p hp)

/-- The pointer in a header is compared equal to a pipe if and only if it is its header. -/
theorem Inv.exclude_iff (h : Inv address s) {sphdr : List UInt8} (hlength : sphdr.length = 8)
    (hp : p ∈ s.outpipes.pipes) :
    s.exclude address sphdr = some p ↔ sphdr = header address p := by
  constructor
  · intro hfind
    have hsame : (address p).toNat = native sphdr := by
      simpa using List.find?_some hfind
    rw [header, hsame, ← hlength, nativeOf_native]
  · intro heq
    have hself : native sphdr = (address p).toNat := by
      rw [heq, native_header]
    cases hfind : s.exclude address sphdr with
    | none =>
        have hno := List.find?_eq_none.mp hfind p hp
        exact absurd hself.symm (by simpa using hno)
    | some q =>
        have hq : q ∈ s.outpipes.pipes := List.mem_of_find?_eq_some hfind
        have hsame : (address q).toNat = native sphdr := by
          simpa using List.find?_some hfind
        have haddress : address q = address p := UInt64.toNat_inj.mp (hsame.trans hself)
        rw [h.apart q p (h.attached_of_mem hq) (h.attached_of_mem hp) haddress]

/-- The pipes that a message of the raw socket goes to. -/
theorem Inv.mem_targets_iff (h : Inv address s) {sphdr : List UInt8}
    (hlength : sphdr.length = 8) :
    p ∈ s.outpipes.targets (s.exclude address sphdr) ↔
      p ∈ s.outpipes.pipes ∧ sphdr ≠ header address p := by
  rw [Dist.mem_targets]
  exact and_congr_right fun hp => not_congr (h.exclude_iff hlength hp)

/-- What `grid_xbus_send` comes to. -/
theorem Inv.send_spec (h : Inv address s) (msg : Msg) :
    (s.send address msg = .ok (s, .invalid) ∧ msg.sphdr.length ≠ 0 ∧ msg.sphdr.length ≠ 8) ∨
      ∃ s' pipes, s.send address msg = .ok (s', .sent pipes) ∧
        (msg.sphdr.length = 0 ∨ msg.sphdr.length = 8) ∧ Inv address s' ∧ pipes.Nodup ∧
        (∀ p, p ∈ pipes ↔ p ∈ s.outpipes.pipes ∧ msg.sphdr ≠ header address p) ∧
        Distributing s.pipes s'.pipes msg.body pipes := by
  unfold Xbus.send
  split
  · rename_i hzero
    obtain ⟨s', hcall, hinv, hd⟩ := h.distribute none msg
    have hwire : msg.wire = msg.body := by
      rw [Msg.wire, List.length_eq_zero_iff.mp hzero, List.nil_append]
    refine Or.inr ⟨s', _, hcall, Or.inl hzero, hinv, Dist.nodup_targets h.nodup _, ?_,
      hwire ▸ hd⟩
    intro p
    rw [Dist.targets_none]
    refine ⟨fun hp => ⟨hp, fun heq => ?_⟩, fun hp => hp.1⟩
    rw [heq, length_header] at hzero
    exact absurd hzero (by simp)
  · rename_i hzero
    split
    · rename_i height
      obtain ⟨s', hcall, hinv, hd⟩ :=
        h.distribute (s.exclude address msg.sphdr) { msg with sphdr := [] }
      exact Or.inr ⟨s', _, hcall, Or.inr height, hinv, Dist.nodup_targets h.nodup _,
        fun p => h.mem_targets_iff height, hd⟩
    · rename_i height
      exact Or.inl ⟨rfl, hzero, height⟩

/-- What `grid_xbus_recv` comes to. -/
theorem Inv.recv_spec (h : Inv address s) :
    s.recv address = .ok (s, .again) ∨
      ∃ s' p wire, s.recv address = .ok (s', .received p ⟨header address p, wire⟩) ∧
        Inv address s' ∧
        (∀ mine came went, Received mine came went s.pipes →
          Received mine came (went ++ [(p, wire)]) s'.pipes) ∧
        ∀ mine sent, Given mine sent s.pipes → Given mine sent s'.pipes := by
  rcases h.inward.fqRecv_spec with ⟨hcall, -⟩ | ⟨w', inpipes, p, wire, pipe, pipe', hcall, -, ht, hk⟩
  · left
    simp only [Xbus.recv, hcall, ok_bind, pure_eq_ok]
  · refine Or.inr ⟨⟨w', s.outpipes, inpipes⟩, p, wire, ?_, ⟨?_, hk, ?_, h.count, h.nodup,
      h.apart_of fun q => (SocketPipes.attached_replace ht.was ht.pipes q).mp⟩, ?_, ?_⟩
    · simp only [Xbus.recv, hcall, ok_bind, pure_eq_ok]
    · exact h.named.replace ht.was ht.pipes ht.used fun e he => Or.inl (ht.events ▸ he)
    · exact h.outward.other ht.was ht.pipes (fun q => by rw [ht.events])
        (outward_alike ht.outstate)
    · intro mine came went hr
      exact hr.take ht
    · intro mine sent hg
      exact hg.replace ht.was ht.pipes ht.used ht.outbox

/-- A step that moves no message. -/
theorem sound_idle {op : Op} {r : Answer} (h : Inv address s)
    (hcall : s.next address op = .ok (s, r)) (hop : arrival (op, r) = none)
    (htaken : taken (op, r) = []) (hgiven : given (op, r) = []) (hspares : Spares address (op, r)) :
    Sound address mine s op := by
  refine ⟨s, r, hcall, h, hspares, ?_, ?_⟩
  · intro came went hr
    rw [hop, htaken]
    exact (List.append_nil came).symm ▸ (List.append_nil went).symm ▸ hr
  · intro sent hg
    rw [hgiven]
    exact (List.append_nil sent).symm ▸ hg

theorem Inv.send (h : Inv address s) (msg : Msg) : Sound address mine s (.send msg) := by
  rcases h.send_spec msg with ⟨hcall, -, -⟩ | ⟨s', pipes, hcall, -, hinv, hnodup, hmem, hd⟩
  · exact sound_idle h hcall rfl rfl rfl trivial
  · refine ⟨s', .sent pipes, hcall, hinv, ⟨hnodup, fun p hp => ((hmem p).mp hp).2⟩, ?_, ?_⟩
    · intro came went hr
      exact (List.append_nil came).symm ▸ (List.append_nil went).symm ▸
        hd.received mine came went hr
    · intro sent hg
      exact hd.given mine sent hg

theorem Inv.recv (h : Inv address s) : Sound address mine s .recv := by
  rcases h.recv_spec with hcall | ⟨s', p, wire, hcall, hinv, hreceived, hgiven⟩
  · exact sound_idle h hcall rfl rfl rfl trivial
  · refine ⟨s', .received p ⟨header address p, wire⟩, hcall, hinv, trivial, ?_, ?_⟩
    · intro came went hr
      exact (List.append_nil came).symm ▸ hreceived mine came went hr
    · intro sent hg
      exact (List.append_nil sent).symm ▸ hgiven mine sent hg

/-- A message that `grid_bus_send` has sent is one that the raw socket has sent. -/
theorem send_of_busSend {s' : Xbus} {msg : Msg} {pipes : List Nat}
    (h : s.busSend address msg = .ok (s', .sent pipes)) :
    s.send address msg = .ok (s', .sent pipes) := by
  unfold Xbus.busSend at h
  split at h
  · exact absurd (Prod.mk.inj (Except.ok.inj h)).2 (by simp)
  · obtain ⟨r, hsend, h⟩ := bind_eq_ok_iff.mp h
    obtain ⟨-, -, h⟩ := bind_eq_ok_iff.mp h
    rw [hsend, Except.ok.inj h]

/-- The assertion of `grid_bus_send` holds: without a header the raw socket takes the message. -/
theorem Inv.busSend (h : Inv address s) (msg : Msg) : Sound address mine s (.busSend msg) := by
  rcases eq_or_ne msg.sphdr.length 0 with hzero | hzero
  · rcases h.send_spec msg with ⟨-, hne, -⟩ | ⟨s', pipes, hcall, -, hinv, hnodup, -, hd⟩
    · exact absurd hzero hne
    · refine ⟨s', .sent pipes, ?_, hinv, hnodup, ?_, ?_⟩
      · have hok : gridAssert (Answer.sent pipes ≠ .invalid) = .ok () := gridAssert_pos (by simp)
        simp only [next, Xbus.busSend, if_neg (not_not.mpr hzero), hcall, ok_bind, hok,
          pure_eq_ok]
      · intro came went hr
        exact (List.append_nil came).symm ▸ (List.append_nil went).symm ▸
          hd.received mine came went hr
      · intro sent hg
        exact hd.given mine sent hg
  · refine sound_idle h (r := .invalid) ?_ rfl rfl rfl trivial
    simp only [next, Xbus.busSend, if_pos hzero]

/-- The assertions of `grid_bus_recv` hold. -/
theorem Inv.busRecv (h : Inv address s) : Sound address mine s .busRecv := by
  rcases h.recv_spec with hcall | ⟨s', p, wire, hcall, hinv, hreceived, hgiven⟩
  · refine sound_idle h (r := .again) ?_ rfl rfl rfl trivial
    simp only [next, Xbus.busRecv, hcall, ok_bind, pure_eq_ok]
  · refine ⟨s', .received p ⟨[], wire⟩, ?_, hinv, trivial, ?_, ?_⟩
    · simp only [next, Xbus.busRecv, hcall, ok_bind, gridAssert_pos (length_header address p),
        pure_eq_ok]
    · intro came went hr
      exact (List.append_nil came).symm ▸ hreceived mine came went hr
    · intro sent hg
      exact (List.append_nil sent).symm ▸ hgiven mine sent hg

/-- Every step that can be taken is sound. -/
theorem Inv.sound (h : Inv address s) {op : Op} (hen : s.Enabled address mine op) :
    Sound address mine s op := by
  cases op with
  | send msg => exact h.send msg
  | recv => exact h.recv
  | busSend msg => exact h.busSend msg
  | busRecv => exact h.busRecv
  | pipe op =>
      cases op with
      | add p sndprio rcvprio => exact h.add hen
      | rm p => exact h.rm hen.1
      | arrive p wire => exact h.arrive hen.1
      | sent p => exact h.sent hen.1
      | deliver p e => exact h.deliver hen.1

theorem inv_run {labels : List Label} (h : (machine address mine).system.Run labels s) :
    Inv address s ∧ (∀ l ∈ labels, Spares address l) ∧
      Received mine (labels.filterMap arrival) (labels.flatMap taken) s.pipes ∧
      Given mine (labels.flatMap given) s.pipes := by
  refine Machine.run_rule (m := machine address mine) (P := fun labels s => Inv address s ∧
    (∀ l ∈ labels, Spares address l) ∧
      Received mine (labels.filterMap arrival) (labels.flatMap taken) s.pipes ∧
      Given mine (labels.flatMap given) s.pipes)
    ⟨inv_init address, by simp, .init mine, .init mine⟩ ?_ h
  intro labels s op s' r ih hen hnext
  obtain ⟨s₁, r₁, hcall, hinv, hspares, hreceived, hgiven⟩ := ih.1.sound hen
  obtain ⟨rfl, rfl⟩ := Prod.mk.inj (Except.ok.inj (hcall.symm.trans hnext))
  refine ⟨hinv, ?_, ?_, ?_⟩
  · intro l hl
    rcases List.mem_append.mp hl with hl | hl
    · exact ih.2.1 l hl
    · obtain rfl := List.mem_singleton.mp hl
      exact hspares
  · rw [filterMap_concat, List.flatMap_append, List.flatMap_cons, List.flatMap_nil,
      List.append_nil]
    exact hreceived _ _ ih.2.2.1
  · rw [List.flatMap_append, List.flatMap_cons, List.flatMap_nil, List.append_nil]
    exact hgiven _ ih.2.2.2

theorem accounts (address : Nat → UInt64) : (view address).Accounts :=
  fun _ _ _ h => (inv_run h).2.2

/-- One step gives a pipe nothing that it is not to have, and nothing twice. -/
theorem entries_given {l : Label} (h : Spares address l) (p : Nat) :
    (entries p (given l)).Sublist (meant address p l).toList := by
  obtain ⟨op, r⟩ := l
  cases op with
  | send msg =>
      cases r with
      | sent pipes =>
          have hcopies : entries p (given (.send msg, .sent pipes)) =
              if p ∈ pipes then [msg.body] else [] := entries_copies h.1 p msg.body
          rw [hcopies]
          split
          · rename_i hp
            rw [meant, if_neg (h.2 p hp)]
            exact List.Sublist.refl _
          · exact List.nil_sublist _
      | _ => exact List.nil_sublist _
  | busSend msg =>
      cases r with
      | sent pipes =>
          have hcopies : entries p (given (.busSend msg, .sent pipes)) =
              if p ∈ pipes then [msg.body] else [] := entries_copies h p msg.body
          rw [hcopies]
          split
          · exact List.Sublist.refl _
          · exact List.nil_sublist _
      | _ => exact List.nil_sublist _
  | _ => exact List.nil_sublist _

/-- A pipe that can be written to and has no event pending gets every message that is not to
keep off it. -/
theorem Inv.mem_of_idle (h : Inv address s) {pipe : WirePipe} (hpipe : s.pipes.pipes p = some pipe)
    (hidle : pipe.outstate = .idle) (hquiet : (p, PipeEvent.pipeOut) ∉ s.pipes.events) :
    p ∈ s.outpipes.pipes := by
  cases h.outward.stage p pipe hpipe with
  | waiting hstate _ _ =>
      have hasync : pipe.outstate = .async := hstate
      rw [hidle] at hasync
      exact absurd hasync (by simp)
  | announced _ _ hone =>
      refine absurd (List.count_pos_iff.mp ?_) hquiet
      have hevent : Protocols.outward.event = PipeEvent.pipeOut := rfl
      rw [← hevent, hone]
      exact Nat.one_pos
  | listed _ hready _ => exact hready

end Xbus

end GridMq.Bus
