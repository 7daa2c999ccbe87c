import GridMq.Aio.Ctx
import GridMq.Aio.Timer

set_option autoImplicit false

/-!
# Name resolution (`src/transports/utils/dns.c`)

One machine for both ways the resolver is built: `getaddrinfo` answers at once, while
`getaddrinfo_a` may leave a lookup behind that notifies the machine later.
-/

namespace GridMq.Transports

open GridMq.Aio

/-- The `error` of `struct grid_dns_result`: 0, an error, or `EINPROGRESS`. -/
inductive Answer where
  | found
  | failed
  | inProgress
  deriving DecidableEq, Repr

/-- `GRID_DNS_STATE_*`. -/
inductive DnsState where
  | idle | resolving | done | stopping
  deriving DecidableEq, Repr

/-- `GRID_DNS_DONE` and `GRID_DNS_STOPPED`. -/
inductive DnsEvent where
  | done | stopped
  deriving DecidableEq, Repr

/-- `struct grid_dns`, with the result it fills in and whether a lookup is under way. -/
structure Dns where
  fsm : FsmState := .idle
  state : DnsState := .idle
  result : Answer := .failed
  lookup : Bool := false
  deriving DecidableEq, Repr

namespace Dns

/-- `grid_dns_isidle`. -/
def isIdle (self : Dns) (stoppedActive : Bool) : Bool := self.fsm == .idle && !stoppedActive

/-- `grid_dns_start`, where the name resolves to `answer`. -/
def start (self : Dns) (stoppedActive : Bool) (answer : Answer) :
    Except Abort (Dns × Option DnsEvent) := do
  gridAssert (self.state = .idle)
  let self := { self with result := answer }
  gridAssert (self.isIdle stoppedActive)
  match answer with
  | .inProgress =>
      return ({ self with state := .resolving, lookup := true, fsm := .active }, none)
  | _ => return ({ self with state := .done, fsm := .active }, some .done)

/-- `grid_dns_stop`, where `cancelled` says whether `gai_cancel` is in time. -/
def stop (self : Dns) (cancelled : Bool) : Dns × Option DnsEvent :=
  if self.fsm = .active then
    if self.state = .resolving ∧ cancelled = false then
      ({ self with state := .stopping, fsm := .stopping }, none)
    else ({ self with state := .idle, fsm := .idle, lookup := false }, some .stopped)
  else (self, none)

/-- `grid_dns_notify`, with the outcome of the lookup; `inProgress` stands for
`EAI_CANCELED`. -/
def notify (self : Dns) (answer : Answer) : Except Abort (Dns × Option DnsEvent) :=
  let self := { self with
    lookup := false
    result := if answer = Answer.inProgress then self.result else answer }
  match self.fsm with
  | .stopping =>
      match self.state with
      | .stopping => .ok ({ self with state := .idle, fsm := .idle }, some .stopped)
      | _ => .error .badState
  | _ =>
      match self.state with
      | .resolving =>
          if answer = Answer.inProgress then .error .badAction
          else .ok ({ self with state := .done }, some .done)
      | .idle => .error .badAction
      | .done => .error .badSource
      | .stopping => .error .badState

/-- When the resolver can notify it; only a lookup that was to be cancelled says that it
was. -/
def Ready (self : Dns) (answer : Answer) : Prop :=
  self.lookup = true ∧ (answer = .inProgress → self.fsm = .stopping)

instance (self : Dns) (answer : Answer) : Decidable (self.Ready answer) :=
  inferInstanceAs (Decidable (_ ∧ _))

/-! ## What it can be doing -/

variable {d : Dns} {q : List DnsEvent}

/-- Nothing is going on. -/
structure Quiet (d : Dns) : Prop where
  fsm : d.fsm = .idle
  state : d.state = .idle
  lookup : d.lookup = false

/-- Looking the name up, or done with it. -/
def Resolving (d : Dns) (q : List DnsEvent) : Prop :=
  d.fsm = .active ∧
    (d.state = .resolving ∧ d.lookup = true ∧ q = [] ∨
      d.state = .done ∧ d.lookup = false ∧ q = [.done])

/-- A lookup could not be cancelled in time. -/
structure Cancelling (d : Dns) : Prop where
  fsm : d.fsm = .stopping
  state : d.state = .stopping
  lookup : d.lookup = true

/-- Asked to stop. -/
def Stopping (d : Dns) (q : List DnsEvent) : Prop := Ending d.Cancelling d.Quiet .stopped q

theorem quiet_default : ({} : Dns).Quiet := ⟨rfl, rfl, rfl⟩

theorem Quiet.isIdle (h : d.Quiet) (stoppedActive : Bool) :
    d.isIdle stoppedActive = !stoppedActive := by
  simp [Dns.isIdle, h.fsm]

theorem Cancelling.isIdle (h : d.Cancelling) (stoppedActive : Bool) :
    d.isIdle stoppedActive = false := by
  simp [Dns.isIdle, h.fsm]

theorem Quiet.start (h : d.Quiet) (answer : Answer) :
    ∃ d' e, d.start false answer = .ok (d', e) ∧ d'.Resolving e.toList := by
  have hidle : { d with result := answer }.isIdle false = true := by
    simp [Dns.isIdle, h.fsm]
  unfold Dns.start
  simp only [gridAssert_pos h.state, gridAssert_pos hidle, ok_bind]
  cases answer with
  | inProgress => exact ⟨_, _, rfl, rfl, Or.inl ⟨rfl, rfl, rfl⟩⟩
  | found => exact ⟨_, _, rfl, rfl, Or.inr ⟨rfl, h.lookup, rfl⟩⟩
  | failed => exact ⟨_, _, rfl, rfl, Or.inr ⟨rfl, h.lookup, rfl⟩⟩

theorem Quiet.stop_eq (h : d.Quiet) (cancelled : Bool) : Dns.stop d cancelled = (d, none) := by
  simp [Dns.stop, h.fsm]

theorem Cancelling.stop_eq (h : d.Cancelling) (cancelled : Bool) :
    Dns.stop d cancelled = (d, none) := by
  simp [Dns.stop, h.fsm]

theorem stop_resolving (h : d.Resolving q) (cancelled : Bool) :
    (d.stop cancelled).1.Stopping (q ++ (d.stop cancelled).2.toList) ∧
      ((d.stop cancelled).2 = none ∨ (d.stop cancelled).2 = some .stopped) := by
  obtain ⟨hfsm, ⟨hstate, hlookup, rfl⟩ | ⟨hstate, hlookup, rfl⟩⟩ := h
  · unfold Dns.stop
    rw [if_pos hfsm]
    cases cancelled with
    | false =>
        rw [if_pos ⟨hstate, rfl⟩]
        exact ⟨Ending.still ⟨rfl, rfl, hlookup⟩ (by simp), Or.inl rfl⟩
    | true =>
        rw [if_neg (by simp)]
        exact ⟨Ending.raised (q := []) ⟨rfl, rfl, rfl⟩ (by simp), Or.inr rfl⟩
  · unfold Dns.stop
    rw [if_pos hfsm, if_neg (by simp [hstate])]
    exact ⟨Ending.raised ⟨rfl, rfl, rfl⟩ (by simp), Or.inr rfl⟩

theorem notify_resolving {answer : Answer} (h : d.Resolving []) (hready : d.Ready answer) :
    ∃ d' e, d.notify answer = .ok (d', e) ∧ d'.Resolving e.toList := by
  obtain ⟨hfsm, ⟨hstate, hlookup, -⟩ | ⟨-, -, hq⟩⟩ := h
  · have hanswer : answer ≠ .inProgress := fun ha => by
      have := hready.2 ha
      exact absurd (hfsm.symm.trans this) (by simp)
    refine ⟨{ d with lookup := false, result := answer, state := .done }, some .done, ?_,
      hfsm, Or.inr ⟨rfl, rfl, rfl⟩⟩
    simp [notify, hfsm, hstate, hanswer]
  · exact absurd hq (by simp)

theorem notify_cancelling (answer : Answer) (h : d.Cancelling) :
    ∃ d', d.notify answer = .ok (d', some .stopped) ∧ d'.Quiet := by
  refine ⟨{ d with
    lookup := false
    result := if answer = Answer.inProgress then d.result else answer
    state := .idle
    fsm := .idle }, ?_, rfl, rfl, rfl⟩
  simp [notify, h.fsm, h.state]

theorem not_ready_of_quiet (h : d.Quiet) (answer : Answer) : ¬d.Ready answer := by
  intro hready
  exact absurd (h.lookup.symm.trans hready.1) (by simp)

end Dns

end GridMq.Transports
