import GridMq.Aio.Ctx
import GridMq.Core.Pipe
import GridMq.Library.Transition
import GridMq.Protocols.Priolist

set_option autoImplicit false

/-!
# Pipes in a fair queue and a load balancer (`src/protocols/utils/fq.c`, `lb.c`)

A raw socket adds its pipes to both queues, activates them on IN and OUT and takes the
next one to receive or send.  The transport behind a pipe owes one report for every
message: within the call or later, as it likes.
-/

namespace GridMq.Protocols

open GridMq.Aio GridMq.Core GridMq.Library

/-- `GRID_PIPE_IN` and `GRID_PIPE_OUT`. -/
inductive PipeEvent where
  | pipeIn | pipeOut
  deriving DecidableEq, Repr

/-- The reports a session has yet to make: `received` for the next message, and `sent` for
the last one. -/
structure Owed where
  received : Bool := true
  sent : Bool := false
  deriving DecidableEq, Repr

/-- A transport that reports within the call if `sync` says so. -/
def owedVfptr (sync : Bool) : PipeVfptr Owed Unit where
  send pipe _ :=
    if sync then do
      let (pipe, _) ← pipe.sent
      return pipe
    else .ok { pipe with session := { pipe.session with sent := true } }
  recv pipe :=
    if sync then do
      let (pipe, _) ← pipe.received
      return (pipe, ())
    else .ok ({ pipe with session := { pipe.session with received := true } }, ())

/-- The pipes of a socket, its two queues, and the events that are pending in its
context. -/
structure PipeQueues where
  pipes : Nat → Option (Pipe Owed) := fun _ => none
  fq : Priolist := .init
  lb : Priolist := .init
  events : List (Nat × PipeEvent) := []

namespace PipeQueues

/-- A pipe that is followed has to be attached. -/
def getPipe (self : PipeQueues) (p : Nat) : Except Abort (Pipe Owed) :=
  match self.pipes p with
  | none => .error .nullPointer
  | some pipe => .ok pipe

def setPipe (self : PipeQueues) (p : Nat) (pipe : Option (Pipe Owed)) : PipeQueues :=
  { self with pipes := fun q => if q = p then pipe else self.pipes q }

/-- `grid_fsm_raise` of an event of a pipe. -/
def raise (self : PipeQueues) (p : Nat) (e : PipeEvent) (raised : Bool) :
    Except Abort PipeQueues :=
  if raised then do
    let events ← raiseEvent id self.events (p, e)
    return { self with events := events }
  else .ok self

/-- `grid_pipebase_start`, in whose course the socket type calls `grid_fq_add` and
`grid_lb_add`; neither list takes the pipe yet. -/
def add (self : PipeQueues) (p : Nat) (sndprio rcvprio : Priority) : Except Abort PipeQueues :=
  let pipe : Pipe Owed :=
    Pipe.start { sndprio := sndprio.1, rcvprio := rcvprio.1, session := {} }
  (self.setPipe p (some pipe)).raise p .pipeOut true

/-- `grid_pipebase_stop`, in whose course the socket type calls `grid_fq_rm` and
`grid_lb_rm`. -/
def rm (self : PipeQueues) (p : Nat) : Except Abort PipeQueues := do
  let pipe ← self.getPipe p
  return { self.setPipe p none with
    fq := self.fq.rm ⟨p, pipe.rcvprio⟩
    lb := self.lb.rm ⟨p, pipe.sndprio⟩ }

/-- `grid_pipebase_received`, as the transport owes it. -/
def received (self : PipeQueues) (p : Nat) : Except Abort PipeQueues := do
  let pipe ← self.getPipe p
  let (pipe, raised) ← pipe.received
  let pipe := { pipe with session := { pipe.session with received := false } }
  (self.setPipe p (some pipe)).raise p .pipeIn raised

/-- `grid_pipebase_sent`, as the transport owes it. -/
def sent (self : PipeQueues) (p : Nat) : Except Abort PipeQueues := do
  let pipe ← self.getPipe p
  let (pipe, raised) ← pipe.sent
  let pipe := { pipe with session := { pipe.session with sent := false } }
  (self.setPipe p (some pipe)).raise p .pipeOut raised

/-- The event of a pipe is delivered to the socket: `grid_fq_in` or `grid_lb_out`. -/
def deliver (self : PipeQueues) (p : Nat) (e : PipeEvent) : Except Abort PipeQueues := do
  let pipe ← self.getPipe p
  let self := { self with events := self.events.erase (p, e) }
  match e with
  | .pipeIn =>
      let fq ← self.fq.activate ⟨p, pipe.rcvprio⟩
      return { self with fq := fq }
  | .pipeOut =>
      let lb ← self.lb.activate ⟨p, pipe.sndprio⟩
      return { self with lb := lb }

/-- `grid_fq_recv`; nothing changes when there is no pipe. -/
def fqRecv (self : PipeQueues) (sync : Bool) : Except Abort PipeQueues := do
  match ← self.fq.getpipe with
  | none => return self
  | some d =>
      let pipe ← self.getPipe d.pipe
      let (pipe, _, release) ← pipe.recv (owedVfptr sync)
      let fq ← self.fq.advance release
      return { self.setPipe d.pipe (some pipe) with fq := fq }

/-- `grid_lb_send`; nothing changes when there is no pipe. -/
def lbSend (self : PipeQueues) (sync : Bool) (msg : Msg) : Except Abort PipeQueues := do
  match ← self.lb.getpipe with
  | none => return self
  | some d =>
      let pipe ← self.getPipe d.pipe
      let (pipe, release) ← pipe.send (owedVfptr sync) msg
      let lb ← self.lb.advance release
      return { self.setPipe d.pipe (some pipe) with lb := lb }

/-! ## Runs -/

/-- What can happen to the pipes of a socket. -/
inductive Label where
  | add (p : Nat) (sndprio rcvprio : Priority)
  | rm (p : Nat)
  | received (p : Nat)
  | sent (p : Nat)
  | deliver (p : Nat) (e : PipeEvent)
  | fqRecv (sync : Bool)
  | lbSend (sync : Bool) (msg : Msg)

/-- What the transports keep to: they report what they owe on pipes that are attached, and
start a pipe again only after its events have been delivered. -/
def Enabled (s : PipeQueues) : Label → Prop
  | .add p _ _ => (s.pipes p).isNone ∧ (p, .pipeIn) ∉ s.events ∧ (p, .pipeOut) ∉ s.events
  | .rm p => (s.pipes p).isSome
  | .received p => (s.pipes p).any (·.session.received)
  | .sent p => (s.pipes p).any (·.session.sent)
  | .deliver p e => (s.pipes p).isSome ∧ (p, e) ∈ s.events
  | .fqRecv _ => True
  | .lbSend _ _ => True

instance (s : PipeQueues) (l : Label) : Decidable (s.Enabled l) := by
  cases l <;> unfold Enabled <;> infer_instance

/-- One step, or the assertion that fails. -/
def next (s : PipeQueues) : Label → Except Abort PipeQueues
  | .add p sndprio rcvprio => s.add p sndprio rcvprio
  | .rm p => s.rm p
  | .received p => s.received p
  | .sent p => s.sent p
  | .deliver p e => s.deliver p e
  | .fqRecv sync => s.fqRecv sync
  | .lbSend sync msg => s.lbSend sync msg

/-- A socket from its creation on. -/
def system : System PipeQueues Label where
  init s := s = {}
  step s l s' := s.Enabled l ∧ s.next l = .ok s'

/-! ## The invariant -/

/-- Where a pipe is in one direction. -/
inductive Phase where
  /-- the transport owes a report -/
  | waiting
  /-- the event is pending -/
  | announced
  /-- the pipe is in the list -/
  | listed
  deriving DecidableEq, Repr

/-- What the state of a pipe in one direction, the transport, the list and the number of
pending events say in a phase. -/
inductive Phase.Holds (idle async : Prop) (owed : Bool) (active : Prop) (pending : Nat) :
    Phase → Prop where
  | waiting (hstate : async) (howed : owed = true) (hactive : ¬active) (hpending : pending = 0) :
      Holds idle async owed active pending .waiting
  | announced (hstate : idle) (howed : owed = false) (hactive : ¬active)
      (hpending : pending = 1) : Holds idle async owed active pending .announced
  | listed (hstate : idle) (howed : owed = false) (hactive : active) (hpending : pending = 0) :
      Holds idle async owed active pending .listed

/-- The inbound direction of a pipe. -/
def InPhase (s : PipeQueues) (p : Nat) (pipe : Pipe Owed) (phase : Phase) : Prop :=
  Phase.Holds (pipe.instate = .idle) (pipe.instate = .async) pipe.session.received
    (s.fq.Active ⟨p, pipe.rcvprio⟩) (s.events.count (p, .pipeIn)) phase

/-- The outbound direction of a pipe. -/
def OutPhase (s : PipeQueues) (p : Nat) (pipe : Pipe Owed) (phase : Phase) : Prop :=
  Phase.Holds (pipe.outstate = .idle) (pipe.outstate = .async) pipe.session.sent
    (s.lb.Active ⟨p, pipe.sndprio⟩) (s.events.count (p, .pipeOut)) phase

/-- The invariant. -/
structure Inv (s : PipeQueues) : Prop where
  fqWF : s.fq.WF
  lbWF : s.lb.WF
  fqActive : ∀ d, s.fq.Active d → ∃ pipe, s.pipes d.pipe = some pipe ∧ pipe.rcvprio = d.priority
  lbActive : ∀ d, s.lb.Active d → ∃ pipe, s.pipes d.pipe = some pipe ∧ pipe.sndprio = d.priority
  prio : ∀ p pipe, s.pipes p = some pipe →
    (1 ≤ pipe.sndprio ∧ pipe.sndprio ≤ 16) ∧ 1 ≤ pipe.rcvprio ∧ pipe.rcvprio ≤ 16
  inbound : ∀ p pipe, s.pipes p = some pipe → ∃ phase, s.InPhase p pipe phase
  outbound : ∀ p pipe, s.pipes p = some pipe → ∃ phase, s.OutPhase p pipe phase

theorem inv_init : Inv {} where
  fqWF := Priolist.wf_init
  lbWF := Priolist.wf_init
  fqActive d h := absurd h (Priolist.not_active_init d)
  lbActive d h := absurd h (Priolist.not_active_init d)
  prio p pipe h := absurd h (by simp)
  inbound p pipe h := absurd h (by simp)
  outbound p pipe h := absurd h (by simp)

variable {s s' : PipeQueues} {p : Nat} {pipe pipe' : Pipe Owed} {phase : Phase}

theorem getPipe_some (h : s.pipes p = some pipe) : s.getPipe p = .ok pipe := by
  simp [getPipe, h]

/-- One pipe replaced, added or removed: the others keep their phases. -/
theorem Inv.update (h : Inv s) (hpipes : ∀ q, q ≠ p → s'.pipes q = s.pipes q)
    (hfqWF : s'.fq.WF) (hlbWF : s'.lb.WF)
    (hfq : ∀ d, d.pipe ≠ p → (s'.fq.Active d ↔ s.fq.Active d))
    (hlb : ∀ d, d.pipe ≠ p → (s'.lb.Active d ↔ s.lb.Active d))
    (hevents : ∀ q e, q ≠ p → s'.events.count (q, e) = s.events.count (q, e))
    (hfqp : ∀ d, d.pipe = p → s'.fq.Active d →
      ∃ pipe, s'.pipes p = some pipe ∧ pipe.rcvprio = d.priority)
    (hlbp : ∀ d, d.pipe = p → s'.lb.Active d →
      ∃ pipe, s'.pipes p = some pipe ∧ pipe.sndprio = d.priority)
    (hp : ∀ pipe, s'.pipes p = some pipe →
      ((1 ≤ pipe.sndprio ∧ pipe.sndprio ≤ 16) ∧ 1 ≤ pipe.rcvprio ∧ pipe.rcvprio ≤ 16) ∧
        (∃ phase, s'.InPhase p pipe phase) ∧ ∃ phase, s'.OutPhase p pipe phase) : Inv s' where
  fqWF := hfqWF
  lbWF := hlbWF
  fqActive d hd := by
    by_cases hdp : d.pipe = p
    · rw [hdp]
      exact hfqp d hdp hd
    · rw [hpipes _ hdp]
      exact h.fqActive d ((hfq d hdp).mp hd)
  lbActive d hd := by
    by_cases hdp : d.pipe = p
    · rw [hdp]
      exact hlbp d hdp hd
    · rw [hpipes _ hdp]
      exact h.lbActive d ((hlb d hdp).mp hd)
  prio q pipe hq := by
    by_cases hqp : q = p
    · subst hqp
      exact (hp pipe hq).1
    · rw [hpipes q hqp] at hq
      exact h.prio q pipe hq
  inbound q pipe hq := by
    by_cases hqp : q = p
    · subst hqp
      exact (hp pipe hq).2.1
    · rw [hpipes q hqp] at hq
      obtain ⟨phase, hphase⟩ := h.inbound q pipe hq
      refine ⟨phase, ?_⟩
      rw [InPhase, hevents q _ hqp, propext (hfq ⟨q, _⟩ hqp)]
      exact hphase
  outbound q pipe hq := by
    by_cases hqp : q = p
    · subst hqp
      exact (hp pipe hq).2.2
    · rw [hpipes q hqp] at hq
      obtain ⟨phase, hphase⟩ := h.outbound q pipe hq
      refine ⟨phase, ?_⟩
      rw [OutPhase, hevents q _ hqp, propext (hlb ⟨q, _⟩ hqp)]
      exact hphase

theorem count_concat_ne {l : List (Nat × PipeEvent)} {a b : Nat × PipeEvent} (h : a ≠ b) :
    (l ++ [b]).count a = l.count a := by
  rw [List.count_append, List.count_singleton, if_neg (by simpa using h.symm), Nat.add_zero]

theorem count_concat_self {l : List (Nat × PipeEvent)} {a : Nat × PipeEvent}
    (h : l.count a = 0) : (l ++ [a]).count a = 1 := by
  rw [List.count_append, h, List.count_singleton_self]

theorem count_erase_ne {l : List (Nat × PipeEvent)} {a b : Nat × PipeEvent} (h : a ≠ b) :
    (l.erase b).count a = l.count a := List.count_erase_of_ne h

/-- Raising an event that is not pending. -/
theorem raise_spec {e : PipeEvent} (h : s.events.count (p, e) = 0) :
    s.raise p e true = .ok { s with events := s.events ++ [(p, e)] } := by
  have hfree : (p, e) ∉ s.events := List.count_eq_zero.mp h
  rw [raise, if_pos rfl, raiseEvent_ok (by simpa using hfree)]
  rfl

/-! ## The steps -/

theorem add_spec {sndprio rcvprio : Priority} (h : Inv s)
    (hen : s.Enabled (.add p sndprio rcvprio)) :
    ∃ s', s.add p sndprio rcvprio = .ok s' ∧ Inv s' := by
  obtain ⟨hnone, hin, hout⟩ := hen
  rw [Option.isNone_iff_eq_none] at hnone
  have hcount : ∀ e, s.events.count (p, e) = 0 := by
    intro e
    cases e with
    | pipeIn => exact List.count_eq_zero.mpr hin
    | pipeOut => exact List.count_eq_zero.mpr hout
  have hfq : ∀ d, d.pipe = p → ¬s.fq.Active d := by
    intro d hd hact
    obtain ⟨pipe, hpipe, -⟩ := h.fqActive d hact
    rw [hd, hnone] at hpipe
    exact absurd hpipe (by simp)
  have hlb : ∀ d, d.pipe = p → ¬s.lb.Active d := by
    intro d hd hact
    obtain ⟨pipe, hpipe, -⟩ := h.lbActive d hact
    rw [hd, hnone] at hpipe
    exact absurd hpipe (by simp)
  refine ⟨_, raise_spec (hcount _), ?_⟩
  refine h.update (p := p) ?_ h.fqWF h.lbWF (fun _ _ => Iff.rfl) (fun _ _ => Iff.rfl) ?_
    (fun d hd hact => absurd hact (hfq d hd)) (fun d hd hact => absurd hact (hlb d hd)) ?_
  · intro q hq
    exact if_neg hq
  · intro q e hq
    exact count_concat_ne (by simp [hq])
  · intro pipe hpipe
    obtain rfl := Option.some.inj ((if_pos rfl).symm.trans hpipe)
    refine ⟨⟨sndprio.2, rcvprio.2⟩, ⟨_, .waiting rfl rfl (hfq _ rfl) ?_⟩,
      ⟨_, .announced rfl rfl (hlb _ rfl) ?_⟩⟩
    · exact (count_concat_ne (by simp)).trans (hcount _)
    · exact count_concat_self (hcount _)

/-- Removing a pipe takes it from both lists. -/
theorem rm_spec (h : Inv s) (hpipe : s.pipes p = some pipe) :
    ∃ s', s.rm p = .ok s' ∧ Inv s' := by
  obtain ⟨hfqWF, hfq⟩ := Priolist.rm_spec h.fqWF ⟨p, pipe.rcvprio⟩
  obtain ⟨hlbWF, hlb⟩ := Priolist.rm_spec h.lbWF ⟨p, pipe.sndprio⟩
  refine ⟨_, by rw [rm, getPipe_some hpipe]; rfl, ?_⟩
  refine h.update (p := p) ?_ hfqWF hlbWF ?_ ?_ (fun _ _ _ => rfl) ?_ ?_ ?_
  · intro q hq
    exact if_neg hq
  · intro d hd
    rw [hfq]
    exact and_iff_left (by rintro rfl; exact hd rfl)
  · intro d hd
    rw [hlb]
    exact and_iff_left (by rintro rfl; exact hd rfl)
  · intro d hd hact
    obtain ⟨hold, hne⟩ := (hfq d).mp hact
    obtain ⟨pipe', hpipe', hprio⟩ := h.fqActive d hold
    obtain rfl : pipe = pipe' := Option.some.inj (hpipe.symm.trans (hd ▸ hpipe'))
    exact absurd (by cases d; simp_all) hne
  · intro d hd hact
    obtain ⟨hold, hne⟩ := (hlb d).mp hact
    obtain ⟨pipe', hpipe', hprio⟩ := h.lbActive d hold
    obtain rfl : pipe = pipe' := Option.some.inj (hpipe.symm.trans (hd ▸ hpipe'))
    exact absurd (by cases d; simp_all) hne
  · intro pipe' hpipe'
    exact absurd ((if_pos rfl).symm.trans hpipe') (by simp)

/-- A step that concerns one attached pipe, which stays attached. -/
theorem Inv.move (h : Inv s) (hpipe : s.pipes p = some pipe)
    (hpipes : ∀ q, s'.pipes q = if q = p then some pipe' else s.pipes q)
    (hsnd : pipe'.sndprio = pipe.sndprio) (hrcv : pipe'.rcvprio = pipe.rcvprio)
    (hfqWF : s'.fq.WF) (hlbWF : s'.lb.WF)
    (hfq : ∀ d, d ≠ ⟨p, pipe.rcvprio⟩ → (s'.fq.Active d ↔ s.fq.Active d))
    (hlb : ∀ d, d ≠ ⟨p, pipe.sndprio⟩ → (s'.lb.Active d ↔ s.lb.Active d))
    (hevents : ∀ q e, q ≠ p → s'.events.count (q, e) = s.events.count (q, e))
    (hin : ∃ phase, s'.InPhase p pipe' phase) (hout : ∃ phase, s'.OutPhase p pipe' phase) :
    Inv s' := by
  have hpipe' : s'.pipes p = some pipe' := (hpipes p).trans (if_pos rfl)
  refine h.update (p := p) ?_ hfqWF hlbWF ?_ ?_ hevents ?_ ?_ ?_
  · intro q hq
    exact (hpipes q).trans (if_neg hq)
  · intro d hd
    exact hfq d (by rintro rfl; exact hd rfl)
  · intro d hd
    exact hlb d (by rintro rfl; exact hd rfl)
  · intro d hd hact
    refine ⟨pipe', hpipe', ?_⟩
    by_contra hne
    have hother : d ≠ ⟨p, pipe.rcvprio⟩ := by
      rintro rfl
      exact hne hrcv
    obtain ⟨pipe₁, hpipe₁, hprio⟩ := h.fqActive d ((hfq d hother).mp hact)
    obtain rfl : pipe = pipe₁ := Option.some.inj (hpipe.symm.trans (hd ▸ hpipe₁))
    exact hne (hrcv.trans hprio)
  · intro d hd hact
    refine ⟨pipe', hpipe', ?_⟩
    by_contra hne
    have hother : d ≠ ⟨p, pipe.sndprio⟩ := by
      rintro rfl
      exact hne hsnd
    obtain ⟨pipe₁, hpipe₁, hprio⟩ := h.lbActive d ((hlb d hother).mp hact)
    obtain rfl : pipe = pipe₁ := Option.some.inj (hpipe.symm.trans (hd ▸ hpipe₁))
    exact hne (hsnd.trans hprio)
  · intro pipe₁ hpipe₁
    obtain rfl : pipe' = pipe₁ := Option.some.inj (hpipe'.symm.trans hpipe₁)
    refine ⟨?_, hin, hout⟩
    rw [hsnd, hrcv]
    exact h.prio p pipe hpipe

theorem received_spec (h : Inv s) (hpipe : s.pipes p = some pipe)
    (howed : pipe.session.received = true) : ∃ s', s.received p = .ok s' ∧ Inv s' := by
  obtain ⟨inPhase, hin⟩ := h.inbound p pipe hpipe
  obtain ⟨outPhase, hout⟩ := h.outbound p pipe hpipe
  cases hin with
  | announced _ hno => exact absurd (hno.symm.trans howed) (by simp)
  | listed _ hno => exact absurd (hno.symm.trans howed) (by simp)
  | waiting hasync _ hactive hpending =>
      have hcall : pipe.received = .ok ({ pipe with instate := .idle }, true) :=
        Pipe.received_eq_ok.mpr (Or.inr ⟨hasync, rfl, rfl⟩)
      have hraise := raise_spec (s := s.setPipe p (some { pipe with
        instate := .idle, session := { pipe.session with received := false } })) hpending
      refine ⟨_, by rw [received, getPipe_some hpipe, ok_bind, hcall]; exact hraise, ?_⟩
      refine h.move hpipe (fun _ => rfl) rfl rfl h.fqWF h.lbWF (fun _ _ => Iff.rfl)
        (fun _ _ => Iff.rfl) ?_ ⟨_, .announced rfl rfl hactive ?_⟩ ⟨outPhase, ?_⟩
      · intro q e hq
        exact count_concat_ne (by simp [hq])
      · exact count_concat_self hpending
      · rw [OutPhase]
        change Phase.Holds _ _ _ _ ((s.events ++ [(p, PipeEvent.pipeIn)]).count _) _
        rw [count_concat_ne (by simp)]
        exact hout

theorem sent_spec (h : Inv s) (hpipe : s.pipes p = some pipe)
    (howed : pipe.session.sent = true) : ∃ s', s.sent p = .ok s' ∧ Inv s' := by
  obtain ⟨inPhase, hin⟩ := h.inbound p pipe hpipe
  obtain ⟨outPhase, hout⟩ := h.outbound p pipe hpipe
  cases hout with
  | announced _ hno => exact absurd (hno.symm.trans howed) (by simp)
  | listed _ hno => exact absurd (hno.symm.trans howed) (by simp)
  | waiting hasync _ hactive hpending =>
      have hcall : pipe.sent = .ok ({ pipe with outstate := .idle }, true) :=
        Pipe.sent_eq_ok.mpr (Or.inr ⟨hasync, rfl, rfl⟩)
      have hraise := raise_spec (s := s.setPipe p (some { pipe with
        outstate := .idle, session := { pipe.session with sent := false } })) hpending
      refine ⟨_, by rw [sent, getPipe_some hpipe, ok_bind, hcall]; exact hraise, ?_⟩
      refine h.move hpipe (fun _ => rfl) rfl rfl h.fqWF h.lbWF (fun _ _ => Iff.rfl)
        (fun _ _ => Iff.rfl) ?_ ⟨inPhase, ?_⟩ ⟨_, .announced rfl rfl hactive ?_⟩
      · intro q e hq
        exact count_concat_ne (by simp [hq])
      · rw [InPhase]
        change Phase.Holds _ _ _ _ ((s.events ++ [(p, PipeEvent.pipeOut)]).count _) _
        rw [count_concat_ne (by simp)]
        exact hin
      · exact count_concat_self hpending

theorem pipes_self (hpipe : s.pipes p = some pipe) (q : Nat) :
    s.pipes q = if q = p then some pipe else s.pipes q := by
  split
  · rename_i hq
    rw [hq, hpipe]
  · rfl

/-- IN puts the pipe into the fair queue, where it is not yet. -/
theorem deliverIn_spec (h : Inv s) (hpipe : s.pipes p = some pipe)
    (hpending : (p, .pipeIn) ∈ s.events) : ∃ s', s.deliver p .pipeIn = .ok s' ∧ Inv s' := by
  obtain ⟨inPhase, hin⟩ := h.inbound p pipe hpipe
  obtain ⟨outPhase, hout⟩ := h.outbound p pipe hpipe
  have hcount := List.count_pos_iff.mpr hpending
  cases hin with
  | waiting _ _ _ hnone => exact absurd hnone (by omega)
  | listed _ _ _ hnone => exact absurd hnone (by omega)
  | announced hidle howed hactive hone =>
      obtain ⟨-, hlo, hhi⟩ := h.prio p pipe hpipe
      obtain ⟨fq, hcall, hfqWF, hfq⟩ := Priolist.activate_spec h.fqWF hactive hlo hhi
      refine ⟨{ s with events := s.events.erase (p, .pipeIn), fq := fq },
        by rw [deliver, getPipe_some hpipe, ok_bind]; simp only [hcall]; rfl, ?_⟩
      refine h.move hpipe (pipes_self hpipe) rfl rfl hfqWF h.lbWF ?_ (fun _ _ => Iff.rfl) ?_
        ⟨_, .listed hidle howed ((hfq _).mpr (Or.inl rfl)) ?_⟩ ⟨outPhase, ?_⟩
      · intro d hd
        rw [hfq]
        exact or_iff_right hd
      · intro q e hq
        exact count_erase_ne (by simp [hq])
      · rw [List.count_erase_self, hone]
      · rw [OutPhase]
        change Phase.Holds _ _ _ _ ((s.events.erase (p, PipeEvent.pipeIn)).count _) _
        rw [count_erase_ne (by simp)]
        exact hout

/-- OUT puts the pipe into the load balancer, where it is not yet. -/
theorem deliverOut_spec (h : Inv s) (hpipe : s.pipes p = some pipe)
    (hpending : (p, .pipeOut) ∈ s.events) : ∃ s', s.deliver p .pipeOut = .ok s' ∧ Inv s' := by
  obtain ⟨inPhase, hin⟩ := h.inbound p pipe hpipe
  obtain ⟨outPhase, hout⟩ := h.outbound p pipe hpipe
  have hcount := List.count_pos_iff.mpr hpending
  cases hout with
  | waiting _ _ _ hnone => exact absurd hnone (by omega)
  | listed _ _ _ hnone => exact absurd hnone (by omega)
  | announced hidle howed hactive hone =>
      obtain ⟨⟨hlo, hhi⟩, -⟩ := h.prio p pipe hpipe
      obtain ⟨lb, hcall, hlbWF, hlb⟩ := Priolist.activate_spec h.lbWF hactive hlo hhi
      refine ⟨{ s with events := s.events.erase (p, .pipeOut), lb := lb },
        by rw [deliver, getPipe_some hpipe, ok_bind]; simp only [hcall]; rfl, ?_⟩
      refine h.move hpipe (pipes_self hpipe) rfl rfl h.fqWF hlbWF (fun _ _ => Iff.rfl) ?_ ?_
        ⟨inPhase, ?_⟩ ⟨_, .listed hidle howed ((hlb _).mpr (Or.inl rfl)) ?_⟩
      · intro d hd
        rw [hlb]
        exact or_iff_right hd
      · intro q e hq
        exact count_erase_ne (by simp [hq])
      · rw [InPhase]
        change Phase.Holds _ _ _ _ ((s.events.erase (p, PipeEvent.pipeOut)).count _) _
        rw [count_erase_ne (by simp)]
        exact hin
      · rw [List.count_erase_self, hone]

/-- A pipe that is ready is read from, and released unless the transport reported. -/
theorem recv_owed (sync : Bool) (hidle : pipe.instate = .idle) :
    pipe.recv (owedVfptr sync) = .ok ({ pipe with
      instate := if sync then .idle else .async
      session := { pipe.session with received := pipe.session.received || !sync } }, (),
        !sync) := by
  cases sync <;> simp [Pipe.recv, owedVfptr, hidle, Pipe.received]

theorem send_owed (sync : Bool) (msg : Msg) (hidle : pipe.outstate = .idle) :
    pipe.send (owedVfptr sync) msg = .ok ({ pipe with
      outstate := if sync then .idle else .async
      session := { pipe.session with sent := pipe.session.sent || !sync } }, !sync) := by
  cases sync <;> simp [Pipe.send, owedVfptr, hidle, Pipe.sent]

theorem fqRecv_spec (h : Inv s) (sync : Bool) : ∃ s', s.fqRecv sync = .ok s' ∧ Inv s' := by
  rcases Priolist.getpipe_spec h.fqWF with ⟨hget, -, -⟩ | ⟨c, d, -, -, hget, -, hact⟩
  · exact ⟨s, by rw [fqRecv, hget]; rfl, h⟩
  · obtain ⟨pipe, hpipe, hprio⟩ := h.fqActive d hact
    obtain ⟨p, priority⟩ := d
    obtain rfl : pipe.rcvprio = priority := hprio
    obtain ⟨inPhase, hin⟩ := h.inbound p pipe hpipe
    obtain ⟨outPhase, hout⟩ := h.outbound p pipe hpipe
    obtain ⟨fq, hadvance, hfqWF, hfq⟩ := Priolist.advance_spec h.fqWF (!sync) hget
    cases hin with
    | waiting _ _ hno => exact absurd hact hno
    | announced _ _ hno => exact absurd hact hno
    | listed hidle howed _ hnone =>
        have hcall : s.fqRecv sync = .ok { s.setPipe p (some { pipe with
            instate := if sync then .idle else .async
            session := { pipe.session with received := pipe.session.received || !sync } }) with
              fq := fq } := by
          rw [fqRecv, hget, ok_bind]
          simp only [getPipe_some hpipe, ok_bind, recv_owed sync hidle, hadvance]
          rfl
        refine ⟨_, hcall, ?_⟩
        refine h.move hpipe (fun _ => rfl) rfl rfl hfqWF h.lbWF ?_ (fun _ _ => Iff.rfl)
          (fun _ _ _ => rfl) ?_ ⟨outPhase, hout⟩
        · intro d hd
          rw [hfq]
          exact and_iff_left fun _ => hd
        · cases sync with
          | true =>
              refine ⟨_, .listed rfl ?_ ((hfq _).mpr ⟨hact, by simp⟩) hnone⟩
              simp [howed]
          | false =>
              refine ⟨_, .waiting rfl ?_ ?_ hnone⟩
              · simp
              · exact fun hactive => ((hfq _).mp hactive).2 rfl rfl

theorem lbSend_spec (h : Inv s) (sync : Bool) (msg : Msg) :
    ∃ s', s.lbSend sync msg = .ok s' ∧ Inv s' := by
  rcases Priolist.getpipe_spec h.lbWF with ⟨hget, -, -⟩ | ⟨c, d, -, -, hget, -, hact⟩
  · exact ⟨s, by rw [lbSend, hget]; rfl, h⟩
  · obtain ⟨pipe, hpipe, hprio⟩ := h.lbActive d hact
    obtain ⟨p, priority⟩ := d
    obtain rfl : pipe.sndprio = priority := hprio
    obtain ⟨inPhase, hin⟩ := h.inbound p pipe hpipe
    obtain ⟨outPhase, hout⟩ := h.outbound p pipe hpipe
    obtain ⟨lb, hadvance, hlbWF, hlb⟩ := Priolist.advance_spec h.lbWF (!sync) hget
    cases hout with
    | waiting _ _ hno => exact absurd hact hno
    | announced _ _ hno => exact absurd hact hno
    | listed hidle howed _ hnone =>
        have hcall : s.lbSend sync msg = .ok { s.setPipe p (some { pipe with
            outstate := if sync then .idle else .async
            session := { pipe.session with sent := pipe.session.sent || !sync } }) with
              lb := lb } := by
          rw [lbSend, hget, ok_bind]
          simp only [getPipe_some hpipe, ok_bind, send_owed sync msg hidle, hadvance]
          rfl
        refine ⟨_, hcall, ?_⟩
        refine h.move hpipe (fun _ => rfl) rfl rfl h.fqWF hlbWF (fun _ _ => Iff.rfl) ?_
          (fun _ _ _ => rfl) ⟨inPhase, hin⟩ ?_
        · intro d hd
          rw [hlb]
          exact and_iff_left fun _ => hd
        · cases sync with
          | true =>
              refine ⟨_, .listed rfl ?_ ((hlb _).mpr ⟨hact, by simp⟩) hnone⟩
              simp [howed]
          | false =>
              refine ⟨_, .waiting rfl ?_ ?_ hnone⟩
              · simp
              · exact fun hactive => ((hlb _).mp hactive).2 rfl rfl

/-! ## Every run -/

/-- No step that the transports keep to aborts, and it keeps the invariant. -/
theorem inv_step {l : Label} (h : Inv s) (hen : s.Enabled l) :
    ∃ s', s.next l = .ok s' ∧ Inv s' := by
  cases l with
  | add p sndprio rcvprio => exact add_spec h hen
  | rm p =>
      obtain ⟨pipe, hpipe⟩ := Option.isSome_iff_exists.mp hen
      exact rm_spec h hpipe
  | received p =>
      obtain ⟨pipe, hpipe, howed⟩ := (Option.any_eq_true _ _).mp hen
      exact received_spec h hpipe howed
  | sent p =>
      obtain ⟨pipe, hpipe, howed⟩ := (Option.any_eq_true _ _).mp hen
      exact sent_spec h hpipe howed
  | deliver p e =>
      obtain ⟨hattached, hpending⟩ := hen
      obtain ⟨pipe, hpipe⟩ := Option.isSome_iff_exists.mp hattached
      cases e with
      | pipeIn => exact deliverIn_spec h hpipe hpending
      | pipeOut => exact deliverOut_spec h hpipe hpending
  | fqRecv sync => exact fqRecv_spec h sync
  | lbSend sync msg => exact lbSend_spec h sync msg

theorem inv_reachable (h : system.Reachable s) : Inv s := by
  apply h.invariant
  · rintro s rfl
    exact inv_init
  · rintro s l s' - hinv ⟨hen, hnext⟩
    obtain ⟨s₁, hnext₁, hinv₁⟩ := inv_step hinv hen
    obtain rfl := Except.ok.inj (hnext.symm.trans hnext₁)
    exact hinv₁

/-- In one direction: what is in the list is idle, and an attached pipe that is idle is in
the list, or else has exactly one event pending. -/
theorem Phase.Holds.agrees {idle async active : Prop} {owed : Bool} {pending : Nat}
    (h : Phase.Holds idle async owed active pending phase) (hstates : async → ¬idle) :
    (active → idle) ∧ (idle → active ∧ pending = 0 ∨ ¬active ∧ pending = 1) := by
  cases h with
  | waiting hasync _ hactive _ =>
      exact ⟨fun hact => absurd hact hactive, fun hidle => absurd hidle (hstates hasync)⟩
  | announced hidle _ hactive hone => exact ⟨fun _ => hidle, fun _ => Or.inr ⟨hactive, hone⟩⟩
  | listed hidle _ hactive hnone => exact ⟨fun _ => hidle, fun _ => Or.inl ⟨hactive, hnone⟩⟩

/-- In every state of every run the lists, the states of the pipes and the pending events
agree, and no assertion of the pipes, the queues and the lists can fail. -/
theorem coherent (h : system.Reachable s) :
    (∀ d, s.fq.Active d → ∃ pipe, s.pipes d.pipe = some pipe ∧ pipe.instate = .idle) ∧
      (∀ d, s.lb.Active d → ∃ pipe, s.pipes d.pipe = some pipe ∧ pipe.outstate = .idle) ∧
      (∀ p pipe, s.pipes p = some pipe → pipe.instate = .idle →
        s.fq.Active ⟨p, pipe.rcvprio⟩ ∧ s.events.count (p, .pipeIn) = 0 ∨
          ¬s.fq.Active ⟨p, pipe.rcvprio⟩ ∧ s.events.count (p, .pipeIn) = 1) ∧
      (∀ p pipe, s.pipes p = some pipe → pipe.outstate = .idle →
        s.lb.Active ⟨p, pipe.sndprio⟩ ∧ s.events.count (p, .pipeOut) = 0 ∨
          ¬s.lb.Active ⟨p, pipe.sndprio⟩ ∧ s.events.count (p, .pipeOut) = 1) ∧
      ∀ l, s.Enabled l → ∃ s', s.next l = .ok s' := by
  have hinv := inv_reachable h
  refine ⟨?_, ?_, ?_, ?_, ?_⟩
  · intro d hd
    obtain ⟨pipe, hpipe, hprio⟩ := hinv.fqActive d hd
    obtain ⟨phase, hphase⟩ := hinv.inbound d.pipe pipe hpipe
    refine ⟨pipe, hpipe, (hphase.agrees (by simp +contextual)).1 ?_⟩
    rw [hprio]
    exact hd
  · intro d hd
    obtain ⟨pipe, hpipe, hprio⟩ := hinv.lbActive d hd
    obtain ⟨phase, hphase⟩ := hinv.outbound d.pipe pipe hpipe
    refine ⟨pipe, hpipe, (hphase.agrees (by simp +contextual)).1 ?_⟩
    rw [hprio]
    exact hd
  · intro p pipe hpipe
    obtain ⟨phase, hphase⟩ := hinv.inbound p pipe hpipe
    exact (hphase.agrees (by simp +contextual)).2
  · intro p pipe hpipe
    obtain ⟨phase, hphase⟩ := hinv.outbound p pipe hpipe
    exact (hphase.agrees (by simp +contextual)).2
  · intro l hen
    obtain ⟨s', hnext, -⟩ := inv_step hinv hen
    exact ⟨s', hnext⟩

/-- A step that is enabled and does not abort. -/
def tryNext (s : PipeQueues) (l : Label) : Option PipeQueues := System.tryStep (s.Enabled l) (s.next l)

/-- A pipe whose first message was announced is in the fair queue. -/
theorem coherent_listed : ∃ s, system.Reachable s ∧ s.fq.Active ⟨0, 8⟩ ∧
    ∃ pipe, s.pipes 0 = some pipe ∧ pipe.instate = .idle := by
  have hrun : (System.follow tryNext {} [.add 0 ⟨8, by decide⟩ ⟨8, by decide⟩, .received 0,
      .deliver 0 .pipeIn]).any (fun s => decide (s.fq.Active ⟨0, 8⟩)) = true := by
    decide +kernel
  obtain ⟨s, hfollow, hact⟩ := (Option.any_eq_true _ _).mp hrun
  have hreach := (System.Reachable.start (S := system) rfl).follow (fun _ _ _ => System.tryStep_eq_some)
    hfollow
  have hactive := of_decide_eq_true hact
  exact ⟨s, hreach, hactive, (coherent hreach).1 _ hactive⟩

end PipeQueues

end GridMq.Protocols
