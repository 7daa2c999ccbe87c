import GridMq.Library.Network
import GridMq.Pipeline.Xpush
import GridMq.Protocols.Receiver

set_option autoImplicit false

/-!
# PULL sockets and the pipeline (`src/protocols/pipeline/xpull.c`)

Any number of PUSH and PULL sockets, joined by links that keep the order of the messages and may
be cut at any time.  The cooked PULL socket is the raw one.
-/

namespace GridMq.Pipeline

open GridMq.Core GridMq.Library GridMq.Protocols

/-- `struct grid_xpull`, with the pipes attached to it. -/
abbrev Xpull := Receiver

namespace Xpull

/-- `grid_xpull_recv`; `none` is `-EAGAIN`. -/
def xpullRecv (self : Xpull) : Except Abort (Xpull × Option (Nat × List UInt8)) := self.recv

/-- What happens to a PULL socket. -/
inductive Op where
  | pipe (op : PipeOp)
  | recv

def Enabled (mine : Nat → Bool) (self : Xpull) : Op → Prop
  | .pipe op => self.pipes.Enabled mine op
  | .recv => True

instance (mine : Nat → Bool) (self : Xpull) (op : Op) : Decidable (Enabled mine self op) := by
  cases op <;> unfold Enabled <;> infer_instance

/-- A check for `Enabled`. -/
def ready (mine : Nat → Bool) (s : Xpull) (op : Op) : Bool := decide (Enabled mine s op)

theorem enabled_of_ready {mine : Nat → Bool} {s : Xpull} {op : Op} (h : ready mine s op = true) :
    Enabled mine s op := of_decide_eq_true h

/-- One step, with the message that the user received and the pipe that it came from. -/
def next (self : Xpull) : Op → Except Abort (Xpull × Option (Nat × List UInt8))
  | .pipe op => do
      let self ← self.nextPipe op
      return (self, none)
  | .recv => xpullRecv self

/-- A step as it is seen from outside. -/
abbrev Label := Op × Option (Nat × List UInt8)

/-- A PULL socket from its creation on. -/
def machine (mine : Nat → Bool) : Machine Xpull Op (Option (Nat × List UInt8)) Abort where
  init := {}
  Enabled := Enabled mine
  next := next

/-- What arrives in a step. -/
def arrival : Label → Option (Nat × List UInt8)
  | (.pipe op, _) => op.arrival
  | (.recv, _) => none

/-- What the user receives in a step. -/
def received : Label → Option (Nat × List UInt8)
  | (.pipe _, _) => none
  | (.recv, r) => r

variable {mine : Nat → Bool} {s : Xpull}

/-- A step is sound: no assertion fails, and the journals go on as the label says. -/
def Sound (mine : Nat → Bool) (s : Xpull) (op : Op) : Prop :=
  ∃ s' r, next s op = .ok (s', r) ∧ s'.Inv ∧ ∀ came went, Received mine came went s.pipes →
    Received mine (came ++ (arrival (op, r)).toList) (went ++ (received (op, r)).toList) s'.pipes

/-- Every step that can be taken is sound. -/
theorem sound (h : s.Inv) {op : Op} (hen : Enabled mine s op) : Sound mine s op := by
  cases op with
  | pipe op =>
      obtain ⟨s', hcall, hinv, hreceived⟩ := h.pipe hen
      refine ⟨s', none, ?_, hinv, ?_⟩
      · simp only [next, hcall, ok_bind, pure_eq_ok]
      · intro came went hr
        exact (List.append_nil went).symm ▸ hreceived came went hr
  | recv =>
      rcases h.recv with ⟨hcall, -⟩ | ⟨s', p, wire, hcall, -, hinv, -, hreceived⟩
      · refine ⟨s, none, hcall, h, ?_⟩
        intro came went hr
        exact (List.append_nil came).symm ▸ (List.append_nil went).symm ▸ hr
      · refine ⟨s', some (p, wire), hcall, hinv, ?_⟩
        intro came went hr
        exact (List.append_nil came).symm ▸ hreceived mine came went hr

theorem inv_run {labels : List Label} (h : (machine mine).system.Run labels s) :
    s.Inv ∧ Received mine (labels.filterMap arrival) (labels.filterMap received) s.pipes := by
  refine Machine.run_rule (m := machine mine) (P := fun labels s => Receiver.Inv s ∧
    Received mine (labels.filterMap arrival) (labels.filterMap received) s.pipes)
    ⟨Receiver.inv_init, .init mine⟩ ?_ h
  intro labels s op s' r ih hen hnext
  obtain ⟨s₁, r₁, hcall, hinv, hreceived⟩ := sound ih.1 hen
  obtain ⟨rfl, rfl⟩ := Prod.mk.inj (Except.ok.inj (hcall.symm.trans hnext))
  refine ⟨hinv, ?_⟩
  rw [filterMap_concat, filterMap_concat]
  exact hreceived _ _ ih.2

end Xpull

/-! ## The pipeline -/

/-- The sockets, of either type. -/
inductive Party where
  | push (i : Nat)
  | pull (j : Nat)
  deriving DecidableEq

abbrev Party.State : Party → Type
  | .push _ => Xpush
  | .pull _ => Xpull

abbrev Party.Label : Party → Type
  | .push _ => Xpush.Label
  | .pull _ => Xpull.Label

/-- PUSH and PULL sockets.  Each link leads from one of the PUSH sockets to one of the PULL
sockets, and both have a pipe for it under its name. -/
def network (source target : Nat → Nat) :
    Network Party Nat (List UInt8) Party.State Party.Label where
  party
    | .push i => (Xpush.machine fun l => source l == i).system
    | .pull j => (Xpull.machine fun l => target l == j).system
  source l := .push (source l)
  target l := .pull (target l)
  sends
    | .push _ => Xpush.accepted
    | .pull _ => fun _ => []
  arrival
    | .push _ => Xpush.arrival
    | .pull _ => Xpull.arrival

/-- The sockets of a pipeline and what they have done. -/
abbrev State := NetworkState Nat Party.State Party.Label

/-- The PUSH and PULL sockets. -/
def State.push (s : State) (i : Nat) : Xpush := s.parties (.push i)
def State.pull (s : State) (j : Nat) : Xpull := s.parties (.pull j)

/-- What a PUSH socket accepted, with the link that it chose, in order. -/
def State.accepted (s : State) (i : Nat) : List (Nat × List UInt8) :=
  (s.trace (.push i)).flatMap Xpush.accepted

/-- What a PULL socket gave to its user, with the link that it came from, in order. -/
def State.received (s : State) (j : Nat) : List (Nat × List UInt8) :=
  (s.trace (.pull j)).filterMap Xpull.received

/-- The messages of a link that have not arrived. -/
def State.inFlight (s : State) (source : Nat → Nat) (l : Nat) : List (List UInt8) :=
  (entries l (s.accepted (source l))).drop (s.carried l)

variable {source target : Nat → Nat} {s : State}

theorem push_run (h : (network source target).system.Reachable s) (i : Nat) :
    (s.push i).Inv ∧ Given (fun l => source l == i) (s.accepted i) (s.push i).pipes :=
  Xpush.inv_run (Network.run_party h (.push i))

theorem pull_run (h : (network source target).system.Reachable s) (j : Nat) :
    (s.pull j).Inv ∧ Received (fun l => target l == j)
      ((s.trace (.pull j)).filterMap Xpull.arrival) (s.received j) (s.pull j).pipes :=
  Xpull.inv_run (Network.run_party h (.pull j))

/-- What arrived from a link is what was accepted for it, less what is in flight. -/
theorem arrived_eq (h : (network source target).system.Reachable s) (l : Nat) :
    entries l (s.accepted (source l)) =
      entries l ((s.trace (.pull (target l))).filterMap Xpull.arrival) ++
        s.inFlight source l := by
  have harrived : entries l ((s.trace (.pull (target l))).filterMap Xpull.arrival) =
      (entries l (s.accepted (source l))).take (s.carried l) :=
    (Network.carried_of_reachable h l).2
  rw [harrived, State.inFlight, List.take_append_drop]

/-- The sockets before anything happens. -/
def State.init : State where
  parties
    | .push _ => ({} : Xpush)
    | .pull _ => ({} : Xpull)
  trace _ := []
  carried _ := 0

/-- What the sockets compute. -/
def partyNext (source target : Nat → Nat) :
    (i : Party) → i.State → i.Label → Option i.State
  | .push i => (Xpush.machine fun l => source l == i).compute
      (Xpush.ready fun l => source l == i)
  | .pull j => (Xpull.machine fun l => target l == j).compute
      (Xpull.ready fun l => target l == j)

theorem partyNext_step {i : Party} {p p' : i.State} {l : i.Label}
    (h : partyNext source target i p l = some p') :
    ((network source target).party i).step p l p' := by
  cases i with
  | push i => exact Machine.step_of_compute (fun _ _ => Xpush.enabled_of_ready) h
  | pull j => exact Machine.step_of_compute (fun _ _ => Xpull.enabled_of_ready) h

/-- The state after some steps. -/
def State.after (source target : Nat → Nat) (labels : List ((i : Party) × i.Label)) :
    Option State :=
  System.follow ((network source target).tryStep (partyNext source target)) .init labels

theorem reachable_after {labels : List ((i : Party) × i.Label)}
    (h : State.after source target labels = some s) :
    (network source target).system.Reachable s := by
  refine System.Reachable.follow (fun s l s' hstep => ?_) (.start ?_) h
  · exact Network.step_of_tryStep (fun i p l p' hp => partyNext_step hp) hstep
  · refine ⟨?_, fun _ => rfl, fun _ => rfl⟩
    intro i
    cases i with
    | push i => rfl
    | pull j => rfl

/-- Two PUSH sockets with a link each to one PULL socket: each sends a message, and the second
one has arrived and was received. -/
def twoPushers : List ((i : Party) × i.Label) :=
  [⟨.push 0, .pipe (.add 0 defaultPriority defaultPriority), none⟩,
    ⟨.push 1, .pipe (.add 1 defaultPriority defaultPriority), none⟩,
    ⟨.push 0, .pipe (.deliver 0 .pipeOut), none⟩,
    ⟨.push 1, .pipe (.deliver 1 .pipeOut), none⟩,
    ⟨.pull 0, .pipe (.add 0 defaultPriority defaultPriority), none⟩,
    ⟨.pull 0, .pipe (.add 1 defaultPriority defaultPriority), none⟩,
    ⟨.push 0, .send { body := [1] }, some 0⟩,
    ⟨.push 1, .send { body := [2] }, some 1⟩,
    ⟨.pull 0, .pipe (.arrive 1 [2]), none⟩,
    ⟨.pull 0, .pipe (.deliver 1 .pipeIn), none⟩,
    ⟨.pull 0, .recv, some (1, [2])⟩]

/-- In every run of a pipeline, no assertion of a PUSH or PULL socket fails; every message that
a PUSH socket accepts goes to one of its own links, and every message that a PULL socket gives
to its user comes from one of its own; over each link the messages come once and in order;
nothing is lost on a link whose receiving end is up; and a user who finds nothing to receive has
all that was accepted for such a link, once nothing is on its way and no event is pending. -/
theorem pipeline_delivers (h : (network source target).system.Reachable s) :
    (∀ i op, (s.push i).Enabled (fun l => source l == i) op →
      ∃ r, (s.push i).next op = .ok r) ∧
    (∀ j op, Xpull.Enabled (fun l => target l == j) (s.pull j) op →
      ∃ r, Xpull.next (s.pull j) op = .ok r) ∧
    (∀ i, ∀ e ∈ s.accepted i, source e.1 = i) ∧
    (∀ j, ∀ e ∈ s.received j, target e.1 = j) ∧
    (∀ l, entries l (s.received (target l)) <+: entries l (s.accepted (source l))) ∧
    (∀ l pipe, (s.pull (target l)).pipes.pipes l = some pipe →
      entries l (s.accepted (source l)) =
        entries l (s.received (target l)) ++ pipe.session.inbox ++ s.inFlight source l) ∧
    ∀ l, (s.pull (target l)).pipes.Attached l → s.inFlight source l = [] →
      ¬(s.pull (target l)).pipes.Pending l .pipeIn → (s.pull (target l)).events = false →
      entries l (s.received (target l)) = entries l (s.accepted (source l)) := by
  have hbalance : ∀ l pipe, (s.pull (target l)).pipes.pipes l = some pipe →
      entries l (s.accepted (source l)) =
        entries l (s.received (target l)) ++ pipe.session.inbox ++ s.inFlight source l := by
    intro l pipe hpipe
    rw [arrived_eq h l, (pull_run h (target l)).2.balance l _ (SocketPipes.inboxes_of_pipe hpipe)]
  refine ⟨?_, ?_, ?_, ?_, ?_, hbalance, ?_⟩
  · intro i op hen
    obtain ⟨s', r, hcall, -⟩ := (push_run h i).1.sound hen
    exact ⟨(s', r), hcall⟩
  · intro j op hen
    obtain ⟨s', r, hcall, -⟩ := Xpull.sound (pull_run h j).1 hen
    exact ⟨(s', r), hcall⟩
  · intro i e he
    simpa using (push_run h i).2.given_mine he
  · intro j e he
    simpa using (pull_run h j).2.went_mine he
  · intro l
    rw [arrived_eq h l]
    exact ((pull_run h (target l)).2.front l).trans (List.prefix_append _ _)
  · intro l hup hflight hpending hoff
    obtain ⟨pipe, hpipe⟩ := SocketPipes.pipe_of_attached hup
    rcases (pull_run h (target l)).1.pending hoff hpipe with hinbox | hevent
    · rw [hbalance l pipe hpipe, hinbox, hflight, List.append_nil, List.append_nil]
    · exact absurd ⟨hup, hevent⟩ hpending

theorem pipeline_delivers_twoPushers : ∃ s, State.after id (fun _ => 0) twoPushers = some s ∧
    s.accepted 0 = [(0, [1])] ∧ s.received 0 = [(1, [2])] ∧ s.inFlight id 0 = [[1]] ∧
    entries 1 (s.received 0) <+: entries 1 (s.accepted 1) := by
  have hrun : (State.after id (fun _ => 0) twoPushers).map (fun s =>
      (s.accepted 0, s.received 0, s.inFlight id 0)) =
        some ([(0, [1])], [(1, [2])], [[1]]) := by
    decide +kernel
  obtain ⟨s, hs, heq⟩ := Option.map_eq_some_iff.mp hrun
  obtain ⟨haccepted, hrest⟩ := Prod.mk.inj heq
  obtain ⟨hreceived, hflight⟩ := Prod.mk.inj hrest
  exact ⟨s, hs, haccepted, hreceived, hflight,
    (pipeline_delivers (reachable_after hs)).2.2.2.2.1 1⟩

end GridMq.Pipeline
