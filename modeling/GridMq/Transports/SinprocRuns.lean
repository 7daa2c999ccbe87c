import GridMq.Library.Transition
import GridMq.Transports.SinprocSteps

set_option autoImplicit false

/-!
# Runs of an inproc connection

The sockets send and receive on the pipes that were added to them, the events under way
arrive in any order, and either session may be stopped at any time.  The messages that
were given to and taken from each pipe are recorded.
-/

namespace GridMq.Transports

open GridMq.Core GridMq.Library

/-- A connection and what went through it. -/
structure Traffic where
  pair : Pair
  sent : Side → List Msg := fun _ => []
  received : Side → List Msg := fun _ => []
  acked : Side → Nat := fun _ => 0

namespace Traffic

/-- What can happen to a connection. -/
inductive Label where
  | send (x : Side) (msg : Msg)
  | recv (x : Side)
  | arrive (x : Side) (e : PeerEvent) (refused : Bool)
  | stop (x : Side)

/-- One step; there is none when the process would be aborted. -/
def next (t : Traffic) : Label → Option Traffic
  | .send x msg =>
      if t.pair.added x = true then
        match t.pair.send x msg with
        | .ok pair =>
            some { t with
              pair := pair
              sent := fun y => if y = x then t.sent y ++ [msg] else t.sent y }
        | .error _ => none
      else none
  | .recv x =>
      if t.pair.added x = true then
        match t.pair.recv x with
        | .ok (pair, msg) =>
            some { t with
              pair := pair
              received := fun y => if y = x then t.received y ++ [msg] else t.received y }
        | .error _ => none
      else none
  | .arrive x e refused =>
      if t.pair.link.UnderWay x e then
        match t.pair.feed x refused e with
        | .ok pair =>
            some { t with
              pair := pair
              acked := fun y =>
                if y = x ∧ e = .notice .received then t.acked y + 1 else t.acked y }
        | .error _ => none
      else none
  | .stop x =>
      match t.pair.stop x with
      | .ok pair => some { t with pair := pair }
      | .error _ => none

/-- Runs from the moment a connection has been accepted, for all sizes of the receive
buffers and all priorities. -/
def system : System Traffic Label where
  init t := ∃ x sndprio rcvprio rcvbuf, t = { pair := .accepted x sndprio rcvprio rcvbuf }
  step t l t' := t.next l = some t'

/-- The messages from one side to the other. -/
def direction (t : Traffic) (x : Side) : Direction where
  sender := (t.pair.link.ends x).state
  receiver := (t.pair.link.ends x.peer).state
  sending := (t.pair.link.ends x).sending
  receiving := (t.pair.link.ends x.peer).receiving
  sentComing := t.pair.link.notice x.peer .sent
  receivedComing := t.pair.link.notice x .received
  msg := (t.pair.link.ends x).msg
  msgqueue := (t.pair.link.ends x.peer).msgqueue
  outstate := (t.pair.pipe x).outstate
  instate := (t.pair.pipe x.peer).instate
  sent := t.sent x
  received := t.received x.peer
  acked := t.acked x

end Traffic

namespace Traffic

/-- Both sessions are in their `ACTIVE` state. -/
def BothActive (t : Traffic) : Prop := ∀ x, (t.pair.link.ends x).state = .active

/-- Neither session has lost its peer or been stopped. -/
def Connected (t : Traffic) : Prop := ∀ x, (t.pair.link.ends x).Connected

theorem BothActive.connected {t : Traffic} (h : t.BothActive) : t.Connected :=
  fun x => Or.inr (Or.inr (h x))

/-- The invariant, as long as both sessions are connected. -/
structure Inv (t : Traffic) : Prop where
  fsm : ∀ x, (t.pair.link.ends x).fsm = .active
  added : ∀ x, t.pair.added x = true → (t.pair.link.ends x).state = .active
  peer : ∀ x, (t.pair.link.ends x).state ≠ .connecting → (t.pair.link.ends x).peer = true
  flow : ∀ x, ∃ stage, (t.direction x).Flow stage

variable {t t' : Traffic} {x : Side} {msg : Msg} {refused : Bool} {e : PeerEvent}

/-- There are two directions. -/
theorem flows_of (x : Side) (stage stage' : Stage) (h : (t.direction x).Flow stage)
    (h' : (t.direction x.peer).Flow stage') : ∀ y, ∃ stage, (t.direction y).Flow stage := by
  intro y
  rcases x.eq_or_eq_peer y with rfl | rfl
  · exact ⟨stage, h⟩
  · exact ⟨stage', h'⟩

/-- Steps that start no pipe. -/
theorem Inv.move (hinv : t.Inv) (hfsm : ∀ y, (t'.pair.link.ends y).fsm = .active)
    (hadded : t'.pair.added = t.pair.added)
    (hsame : ∀ y, (t.pair.link.ends y).SamePhase (t'.pair.link.ends y))
    (hflow : ∀ y, ∃ stage, (t'.direction y).Flow stage) : t'.Inv := by
  refine ⟨hfsm, ?_, ?_, hflow⟩
  · intro y hy
    rw [hadded] at hy
    rw [(hsame y).1]
    exact hinv.added y hy
  · intro y hy
    rw [(hsame y).1] at hy
    rw [(hsame y).2]
    exact hinv.peer y hy

theorem inv_send {pair : Pair} (hinv : t.Inv) (h : t.pair.send x msg = .ok pair)
    (hconn : ∀ y, (pair.link.ends y).Connected) :
    Inv { t with
      pair := pair
      sent := fun y => if y = x then t.sent y ++ [msg] else t.sent y } := by
  have hfsm : ∀ y, (pair.link.ends y).fsm = .active :=
    fun y => (Pair.send_stays h y (hconn y)).2.trans (hinv.fsm y)
  obtain ⟨hidle, hactive, -, rfl⟩ := Pair.send_cases h
  obtain ⟨stage, hflow⟩ := hinv.flow x
  obtain ⟨stage', hflow'⟩ := hinv.flow x.peer
  obtain rfl := hflow.quiet_of_idle hactive hidle
  have hoffer := hflow.offer hactive msg
  refine hinv.move hfsm rfl (Link.setEnd_samePhase ⟨rfl, rfl⟩)
    (flows_of x .offered stage' ?_ ?_)
  · simpa [direction, Link.setEnd, Link.withNotice, Pair.withStates] using hoffer
  · simpa [direction, Link.setEnd, Link.withNotice, Pair.withStates] using hflow'

theorem inv_recv {pair : Pair} (hinv : t.Inv) (hadded : t.pair.added x = true)
    (h : t.pair.recv x = .ok (pair, msg)) (hconn : ∀ y, (pair.link.ends y).Connected) :
    Inv { t with
      pair := pair
      received := fun y => if y = x then t.received y ++ [msg] else t.received y } := by
  have hfsm : ∀ y, (pair.link.ends y).fsm = .active :=
    fun y => (Pair.recv_stays h y (hconn y)).2.trans (hinv.fsm y)
  obtain ⟨hidle, -, q, link, htaken, hretry, rfl⟩ := Pair.recv_cases h
  have hactive := hinv.added x hadded
  obtain ⟨stage, hflow⟩ := hinv.flow x
  obtain ⟨stage', hflow'⟩ := hinv.flow x.peer
  have hreceiver : (t.direction x.peer).receiver = .active := by simpa [direction] using hactive
  have hne := (hflow'.nonempty_iff hreceiver).mpr (by simpa [direction] using hidle)
  obtain ⟨m, rest, hcontents⟩ := List.exists_cons_of_ne_nil hne
  -- what was taken is the oldest message
  obtain ⟨q', htaken', hwf, hrest, -⟩ := Msgqueue.recv_spec hflow'.wf hcontents
  obtain ⟨rfl, rfl⟩ : m = msg ∧ q' = q := by
    have hsame := htaken'.symm.trans (by simpa [direction] using htaken)
    simpa using hsame
  have hreceiving : (t.pair.link.ends x).receiving = decide (stage' = .lingering) := by
    simpa [direction] using hflow'.receiving
  rcases Sinproc.retry_cases hretry with ⟨rfl, hnone⟩ | ⟨hlinger, rfl, hfull⟩ |
    ⟨q'', hlinger, hsend, rfl⟩
  · have hstage : stage' ≠ .lingering := by
      rintro rfl
      simp [hactive, hreceiving] at hnone
    have htake := hflow'.take hreceiver hstage hcontents hwf hrest
    have hempty : q'.empty = true ↔ rest = [] := by rw [hwf.empty_iff, hrest]
    refine hinv.move hfsm rfl (Link.setEnd_samePhase ⟨rfl, rfl⟩)
      (flows_of x stage stage' ?_ ?_)
    · simpa [direction, Link.setEnd, Pair.withStates] using hflow
    · simpa [direction, Link.setEnd, Pair.withStates, hempty] using htake
  · simp only [Link.setEnd_ends_self, Link.setEnd_ends_peer] at hlinger hfull
    obtain rfl : stage' = .lingering := by
      rw [hreceiving] at hlinger
      exact of_decide_eq_true hlinger
    have htake := hflow'.takeFull hreceiver hcontents hwf hrest hfull
    have hempty : q'.empty = false := hwf.empty_eq_false_iff.mpr (Msgqueue.send_none hwf hfull)
    refine hinv.move hfsm rfl (Link.setEnd_samePhase ⟨rfl, rfl⟩)
      (flows_of x stage .lingering ?_ ?_)
    · simpa [direction, Link.setEnd, Pair.withStates] using hflow
    · simpa [direction, Link.setEnd, Pair.withStates, hempty] using htake
  · simp only [Link.setEnd_ends_self, Link.setEnd_ends_peer] at hlinger hsend
    obtain rfl : stage' = .lingering := by
      rw [hreceiving] at hlinger
      exact of_decide_eq_true hlinger
    have htake := hflow'.takeRetry hreceiver hcontents hwf hrest hsend
    obtain ⟨hwf', hcontents', -⟩ := Msgqueue.send_spec hwf hsend
    have hempty : q''.empty = false := hwf'.empty_eq_false_iff.mpr (by simp [hcontents'])
    refine hinv.move hfsm rfl ?_ (flows_of x stage .answered ?_ ?_)
    · intro y
      simp only [Link.withNotice_ends, Link.setEnd_setEnd]
      apply Link.setEnds_samePhase
      · simp [Sinproc.SamePhase]
      · simp [Sinproc.SamePhase]
    · simpa [direction, Link.setEnd, Link.withNotice, Pair.withStates] using hflow
    · simpa [direction, Link.setEnd, Link.withNotice, Pair.withStates, hempty] using htake

theorem inv_arrive {pair : Pair} (hinv : t.Inv) (hcoming : t.pair.link.UnderWay x e)
    (h : t.pair.feed x refused e = .ok pair) (hconn : ∀ y, (pair.link.ends y).Connected) :
    Inv { t with
      pair := pair
      acked := fun y =>
        if y = x ∧ e = .notice .received then t.acked y + 1 else t.acked y } := by
  have hfsm : ∀ y, (pair.link.ends y).fsm = .active :=
    fun y => (Pair.feed_stays h y (hconn y)).2.trans (hinv.fsm y)
  unfold Pair.feed at h
  simp only [Link.arrived_ends] at h
  rw [if_neg (by rw [hinv.fsm x]; simp)] at h
  obtain ⟨stage, hflow⟩ := hinv.flow x
  obtain ⟨stage', hflow'⟩ := hinv.flow x.peer
  have hhandled := Pair.handled h
  cases hhandled with
  | ready hstate =>
      simp only [Link.arrived_ends] at hstate
      have hsender := hflow.startSender (by simp [direction, hstate])
      have hreceiver := hflow'.startReceiver (by simp [direction, hstate])
      refine ⟨hfsm, ?_, ?_, flows_of x stage stage' ?_ ?_⟩
      · intro y
        simp only [Pair.started, Link.withHandshake_ends, Link.setEnd_ends, Link.arrived_ends]
        split
        · simp
        · exact hinv.added y
      · intro y
        simp only [Link.withHandshake_ends, Link.setEnd_ends, Link.arrived_ends]
        split
        · simp
        · exact hinv.peer y
      · simpa [direction, Link.setEnd, Link.withHandshake, Link.arrived, Pair.started,
          Pair.withStates] using hsender
      · simpa [direction, Link.setEnd, Link.withHandshake, Link.arrived, Pair.started,
          Pair.withStates] using hreceiver
  | accepted hstate k =>
      simp only [Link.arrived_ends] at hstate
      have hsender := hflow.startSender (by simp [direction, hstate])
      have hreceiver := hflow'.startReceiver (by simp [direction, hstate])
      refine ⟨hfsm, ?_, ?_, flows_of x stage stage' ?_ ?_⟩
      · intro y
        simp only [Pair.started, Link.setEnd_ends, Link.arrived_ends]
        split
        · simp
        · exact hinv.added y
      · intro y
        simp only [Link.setEnd_ends, Link.arrived_ends]
        split
        · intro _
          exact hinv.peer x (by simp [hstate])
        · exact hinv.peer y
      · simpa [direction, Link.setEnd, Link.withHandshake, Link.arrived, Pair.started,
          Pair.withStates] using hsender
      · simpa [direction, Link.setEnd, Link.withHandshake, Link.arrived, Pair.started,
          Pair.withStates] using hreceiver
  | full hstate hsend =>
      simp only [Link.arrived_ends] at hstate hsend
      obtain rfl := hflow'.offered_of_sent (by simpa [direction, Link.UnderWay] using hcoming)
      have hlinger := hflow'.linger (by simpa [direction] using hstate)
        (by simpa [direction] using hsend)
      refine hinv.move hfsm rfl ?_
        (flows_of x stage .lingering ?_ ?_)
      · intro y
        rw [← Link.arrived_ends t.pair.link x (.notice .sent)]
        apply Link.setEnd_samePhase
        exact ⟨rfl, rfl⟩
      · simpa [direction, Link.setEnd, Link.withNotice, Link.arrived] using hflow
      · simpa [direction, Link.setEnd, Link.withNotice, Link.arrived] using hlinger
  | @queued hstate q instate hsend hpipe =>
      simp only [Link.arrived_ends] at hstate hsend hpipe
      obtain rfl := hflow'.offered_of_sent (by simpa [direction, Link.UnderWay] using hcoming)
      have haccept := hflow'.accept (by simpa [direction] using hstate)
        (by simpa [direction] using hsend)
      have hin : (t.pair.pipe x).instate =
          if (t.pair.link.ends x).msgqueue.contents = [] then .async else .idle := by
        simpa [direction, hstate] using hflow'.instate
      have hwf : (t.pair.link.ends x).msgqueue.WF := by simpa [direction] using hflow'.wf
      obtain rfl : instate = .idle := by
        rcases hpipe with ⟨hempty, hsame⟩ | ⟨hempty, hmove⟩
        · have hfull : ¬(t.pair.link.ends x).msgqueue.contents = [] := by
            rw [← hwf.empty_iff, hempty]
            simp
          rw [if_neg hfull] at hin
          exact hsame.trans hin
        · rw [if_pos (hwf.empty_iff.mp hempty)] at hin
          rcases hmove with ⟨hreceiving, -⟩ | ⟨-, hidle⟩
          · exact absurd (hin.symm.trans hreceiving) (by simp)
          · exact hidle
      refine hinv.move hfsm rfl ?_ (flows_of x stage .answered ?_ ?_)
      · intro y
        rw [Link.withNotice_ends, ← Link.arrived_ends t.pair.link x (.notice .sent)]
        apply Link.setEnds_samePhase
        · exact ⟨rfl, rfl⟩
        · exact ⟨rfl, rfl⟩
      · simpa [direction, Link.setEnd, Link.withNotice, Link.arrived, Pair.withStates] using hflow
      · simpa [direction, Link.setEnd, Link.withNotice, Link.arrived, Pair.withStates]
          using haccept
  | @acknowledged hstate hsending outstate hpipe =>
      simp only [Link.arrived_ends] at hstate hsending
      obtain rfl := hflow.answered_of_received hcoming
      have hasync : (t.pair.pipe x).outstate = .async := hflow.outstate hstate
      obtain rfl : outstate = .idle := by
        rcases hpipe with ⟨hbusy, -⟩ | ⟨-, hidle⟩
        · exact absurd (hasync.symm.trans hbusy) (by simp)
        · exact hidle
      have hdone := hflow.acknowledge
      refine hinv.move hfsm rfl ?_ (flows_of x .quiet stage' ?_ ?_)
      · intro y
        rw [← Link.arrived_ends t.pair.link x (.notice .received)]
        apply Link.setEnd_samePhase
        exact ⟨rfl, rfl⟩
      · simpa [direction, Link.setEnd, Link.withNotice, Link.arrived, Pair.withStates] using hdone
      · simpa [direction, Link.setEnd, Link.withNotice, Link.arrived, Pair.withStates] using hflow'
  | disconnected hstate =>
      refine absurd (hconn x) ?_
      simp [Sinproc.Connected]
  | ignored hstate =>
      simp only [Link.arrived_ends] at hstate
      refine absurd (hconn x) ?_
      simp [Sinproc.Connected, hstate]

theorem inv_init (h : system.init t) : t.Inv := by
  obtain ⟨x, sndprio, rcvprio, rcvbuf, rfl⟩ := h
  have hflow : ∀ y, (direction { pair := .accepted x sndprio rcvprio rcvbuf } y).Flow .quiet := by
    intro y
    by_cases hy : y = x <;> by_cases hpeer : y.peer = x <;>
      constructor <;>
        simp [direction, Pair.accepted, hy, hpeer, Msgqueue.wf_init, Direction.waiting]
  refine ⟨?_, ?_, ?_, ?_⟩
  · intro y
    simp only [Pair.accepted]
    split <;> rfl
  · intro y hy
    exact absurd hy (by simp [Pair.accepted])
  · intro y
    simp only [Pair.accepted]
    split <;> simp
  · intro y
    exact ⟨.quiet, hflow y⟩

/-- A step into a state in which both sessions are connected comes from such a state, and
keeps the invariant. -/
theorem inv_step {l : Label} (h : t.next l = some t') (hconn : t'.Connected) :
    t.Connected ∧ (t.Inv → t'.Inv) := by
  cases l with
  | send x msg =>
      simp only [next] at h
      split at h
      · split at h
        · rename_i hsend
          obtain rfl := Option.some.inj h
          exact ⟨fun y => (Pair.send_stays hsend y (hconn y)).1, fun hinv => inv_send hinv hsend hconn⟩
        · exact absurd h (by simp)
      · exact absurd h (by simp)
  | recv x =>
      simp only [next] at h
      split at h
      · rename_i hadded
        split at h
        · rename_i hrecv
          obtain rfl := Option.some.inj h
          exact ⟨fun y => (Pair.recv_stays hrecv y (hconn y)).1,
            fun hinv => inv_recv hinv hadded hrecv hconn⟩
        · exact absurd h (by simp)
      · exact absurd h (by simp)
  | arrive x e refused =>
      simp only [next] at h
      split at h
      · rename_i hcoming
        split at h
        · rename_i hfeed
          obtain rfl := Option.some.inj h
          exact ⟨fun y => (Pair.feed_stays hfeed y (hconn y)).1,
            fun hinv => inv_arrive hinv hcoming hfeed hconn⟩
        · exact absurd h (by simp)
      · exact absurd h (by simp)
  | stop x =>
      simp only [next] at h
      split at h
      · rename_i hstop
        obtain rfl := Option.some.inj h
        refine ⟨fun y => (Pair.stop_stays hstop y (hconn y)).1, ?_⟩
        intro hinv
        exact absurd (hconn x) (Pair.stop_gone hstop (hinv.fsm x))
      · exact absurd h (by simp)

theorem inv_reachable (h : system.Reachable t) : t.Connected → t.Inv := by
  apply h.invariant
  · intro s hs _
    exact inv_init hs
  · intro s l s' _ hinv hstep hconn
    obtain ⟨hbefore, hkeep⟩ := inv_step hstep hconn
    exact hkeep (hinv hbefore)

/-- The message that a side has exposed and its peer has not yet taken. -/
def held (t : Traffic) (x : Side) : List Msg :=
  if t.pair.link.notice x.peer .sent = true ∨ (t.pair.link.ends x.peer).receiving = true then
    [(t.pair.link.ends x).msg]
  else []

theorem waiting_eq_held {stage : Stage} (hflow : (t.direction x).Flow stage) :
    (t.direction x).waiting stage = t.held x := by
  have hsent : t.pair.link.notice x.peer .sent = decide (stage = .offered) := hflow.sentComing
  have hreceiving : (t.pair.link.ends x.peer).receiving = decide (stage = .lingering) :=
    hflow.receiving
  cases stage <;> simp [Direction.waiting, held, hsent, hreceiving, direction]

/-- Between two active sessions messages arrive once each, in the order they were sent, as
header and body put together; those that have not been handed out lie in the receiver's
queue, save at most one that the sender still holds. -/
theorem received_in_order (h : system.Reachable t) (hactive : t.BothActive) (x : Side) :
    (t.sent x).map exposed =
        t.received x.peer ++ (t.pair.link.ends x.peer).msgqueue.contents ++ t.held x ∧
      t.acked x ≤ (t.sent x).length ∧ (t.sent x).length ≤ t.acked x + 1 := by
  obtain ⟨stage, hflow⟩ := (inv_reachable h hactive.connected).flow x
  have hsent := hflow.sent
  rw [waiting_eq_held hflow] at hsent
  have hacked : (t.sent x).length = t.acked x + if stage = .quiet then 0 else 1 := hflow.acked
  refine ⟨hsent, ?_⟩
  split at hacked <;> omega

/-- A sender whose message is outstanding with no event under way has a receiver that will
take it, and a pipe can be read exactly when its session's queue has a message. -/
theorem no_lost_wakeup (h : system.Reachable t) (hactive : t.BothActive) (x : Side) :
    ((t.pair.link.ends x).sending = true → t.pair.link.notice x.peer .sent = false →
        t.pair.link.notice x .received = false →
          (t.pair.link.ends x.peer).receiving = true ∧
            (t.pair.link.ends x.peer).msgqueue.empty = false) ∧
      ((t.pair.link.ends x).msgqueue.empty = false ↔ (t.pair.pipe x).instate = .idle) := by
  have hinv := inv_reachable h hactive.connected
  obtain ⟨stage, hflow⟩ := hinv.flow x
  obtain ⟨stage', hflow'⟩ := hinv.flow x.peer
  constructor
  · intro hsending hsent hreceived
    have hbusy : stage ≠ .quiet := of_decide_eq_true (hflow.sending.symm.trans hsending)
    have hoffered : stage ≠ .offered := of_decide_eq_false (hflow.sentComing.symm.trans hsent)
    have hanswered : stage ≠ .answered :=
      of_decide_eq_false (hflow.receivedComing.symm.trans hreceived)
    have hstage : stage = .lingering := by
      cases stage with
      | quiet => exact absurd rfl hbusy
      | offered => exact absurd rfl hoffered
      | lingering => rfl
      | answered => exact absurd rfl hanswered
    refine ⟨?_, ?_⟩
    · exact hflow.receiving.trans (decide_eq_true hstage)
    · exact hflow.wf.empty_eq_false_iff.mpr (hflow.lingering hstage)
  · have hwf : (t.pair.link.ends x).msgqueue.WF := by simpa [direction] using hflow'.wf
    have hiff := hflow'.nonempty_iff (by simpa [direction] using hactive x)
    simp only [direction, Side.peer_peer] at hiff
    rw [hwf.empty_eq_false_iff, hiff]

/-- A message exposed to a peer whose queue is full. -/
def fullQueue : List Label :=
  [.arrive .left (.handshake .ready) false, .arrive .right (.handshake .accepted) false,
    .send .left { sphdr := [1], body := [2] }, .arrive .right (.notice .sent) false,
    .arrive .left (.notice .received) false, .send .left { body := [3] },
    .arrive .right (.notice .sent) false]

instance (t : Traffic) : Decidable t.BothActive :=
  decidable_of_iff ((t.pair.link.ends .left).state = .active ∧
      (t.pair.link.ends .right).state = .active) <| by
    constructor
    · rintro ⟨hleft, hright⟩ x
      cases x with
      | left => exact hleft
      | right => exact hright
    · exact fun h => ⟨h .left, h .right⟩

theorem reachable_fullQueue : ∃ t, system.Reachable t ∧ t.BothActive ∧
    (t.pair.link.ends .left).sending = true ∧ t.pair.link.notice .right .sent = false ∧
      t.pair.link.notice .left .received = false := by
  have hrun : (System.follow next
      { pair := .accepted .left (fun _ => 8) (fun _ => 8) (fun _ => 1) } fullQueue).any
        (fun t => decide (t.BothActive ∧ (t.pair.link.ends .left).sending = true ∧
          t.pair.link.notice .right .sent = false ∧
            t.pair.link.notice .left .received = false)) = true := by
    decide +kernel
  obtain ⟨t, hfollow, ht⟩ := (Option.any_eq_true _ _).mp hrun
  have hreach := (System.Reachable.start (S := system) ⟨_, _, _, _, rfl⟩).follow
    (fun _ _ _ h => h) hfollow
  exact ⟨t, hreach, of_decide_eq_true ht⟩

theorem received_in_order_fullQueue : ∃ t, system.Reachable t ∧ t.BothActive ∧
    (t.sent .left).map exposed =
      t.received .right ++ (t.pair.link.ends .right).msgqueue.contents ++ t.held .left := by
  obtain ⟨t, hreach, hactive, -⟩ := reachable_fullQueue
  exact ⟨t, hreach, hactive, (received_in_order hreach hactive .left).1⟩

theorem no_lost_wakeup_fullQueue : ∃ t, system.Reachable t ∧ t.BothActive ∧
    (t.pair.link.ends .right).receiving = true ∧
      (t.pair.link.ends .right).msgqueue.empty = false := by
  obtain ⟨t, hreach, hactive, hsending, hsent, hreceived⟩ := reachable_fullQueue
  exact ⟨t, hreach, hactive,
    (no_lost_wakeup hreach hactive .left).1 hsending hsent hreceived⟩

/-! ## No call and no event aborts -/

/-- Between two active sessions a pipe that is ready can be used, and every event is
handled. -/
theorem proceeds (h : system.Reachable t) (hactive : t.BothActive) (x : Side) :
    ((t.pair.pipe x).outstate = .idle → ∀ msg, ∃ pair, t.pair.send x msg = .ok pair) ∧
      ((t.pair.pipe x).instate = .idle → ∃ r, t.pair.recv x = .ok r) ∧
        (t.pair.link.UnderWay x (.notice .sent) → ∀ refused,
          ∃ pair, t.pair.feed x refused (.notice .sent) = .ok pair) ∧
          (t.pair.link.UnderWay x (.notice .received) → ∀ refused,
            ∃ pair, t.pair.feed x refused (.notice .received) = .ok pair) := by
  have hinv := inv_reachable h hactive.connected
  obtain ⟨stage, hflow⟩ := hinv.flow x
  obtain ⟨stage', hflow'⟩ := hinv.flow x.peer
  have hstate := hactive x
  have hpeer := hinv.peer x (by simp [hstate])
  refine ⟨?_, ?_, ?_, ?_⟩
  · intro hidle msg
    obtain rfl := hflow.quiet_of_idle hstate hidle
    have hsending : (t.pair.link.ends x).sending = false := hflow.sending
    have hsent : t.pair.link.notice x.peer .sent = false := hflow.sentComing
    simp [Pair.send, Pipe.send, Sinproc.vfptr, Sinproc.send, Pair.pipebase, hidle, hstate,
      hsending, hpeer, Link.raiseNotice, hsent]
  · intro hidle
    have hne := (hflow'.nonempty_iff (by simpa [direction] using hstate)).mpr
      (by simpa [direction] using hidle)
    obtain ⟨msg, rest, hcontents⟩ := List.exists_cons_of_ne_nil hne
    obtain ⟨q, htaken, -⟩ := Msgqueue.recv_spec hflow'.wf hcontents
    simp only [direction, Side.peer_peer] at htaken
    have hanswer : (t.pair.link.ends x).receiving = true →
        t.pair.link.notice x.peer .received = false := by
      intro hreceiving
      have hstage : stage' = .lingering := of_decide_eq_true
        (hflow'.receiving.symm.trans (by simpa [direction] using hreceiving))
      have hcoming := hflow'.receivedComing
      rw [hstage] at hcoming
      exact hcoming
    have hretry : ∃ link, Sinproc.retry x
        (t.pair.link.setEnd x { t.pair.link.ends x with msgqueue := q }) = .ok link := by
      unfold Sinproc.retry
      simp only [Link.setEnd_ends_self]
      split
      · rename_i hlinger
        rw [if_neg (by simp [hpeer])]
        split
        · exact ⟨_, rfl⟩
        · refine ⟨_, Link.raiseNotice_eq_ok.mpr ⟨?_, rfl⟩⟩
          simpa using hanswer hlinger.2
      · exact ⟨_, rfl⟩
    obtain ⟨link, hretry⟩ := hretry
    have hassert : gridAssert ((t.pair.link.ends x).state = .active ∨
        (t.pair.link.ends x).state = .disconnected) = .ok () := gridAssert_pos (Or.inl hstate)
    by_cases hempty : (link.ends x).msgqueue.empty = true <;>
      simp [Pair.recv, Pipe.recv, Sinproc.vfptr, Sinproc.recv, Pair.pipebase, hidle, hassert,
        htaken, hretry, hempty, Pipe.received]
  · intro hcoming refused
    have hstage : stage' = .offered :=
      hflow'.offered_of_sent (by simpa [direction, Link.UnderWay] using hcoming)
    subst hstage
    have hanswer : t.pair.link.notice x.peer .received = false := hflow'.receivedComing
    have hin : (t.pair.pipe x).instate =
        if (t.pair.link.ends x).msgqueue.contents = [] then .async else .idle := by
      simpa [direction, hstate] using hflow'.instate
    have hwf : (t.pair.link.ends x).msgqueue.WF := by simpa [direction] using hflow'.wf
    unfold Pair.feed
    simp only [Link.arrived_ends]
    rw [if_neg (by simp [hinv.fsm x])]
    simp only [Pair.handler, Link.arrived_ends, hstate]
    rw [if_neg (by simp [hpeer])]
    split
    · exact ⟨_, rfl⟩
    · by_cases hempty : (t.pair.link.ends x).msgqueue.empty = true
      · rw [if_pos (hwf.empty_iff.mp hempty)] at hin
        simp [hempty, Pair.setEnd, Pair.pipebase, Pipe.received, hin, Pair.raiseNotice,
          Pair.withPipebase, Link.raiseNotice, Link.arrived, Link.withNotice, hanswer]
      · simp [hempty, Pair.setEnd, Pair.raiseNotice, Link.raiseNotice, Link.arrived,
          Link.withNotice, hanswer]
  · intro hcoming refused
    obtain rfl := hflow.answered_of_received hcoming
    have hsending : (t.pair.link.ends x).sending = true := hflow.sending
    have hasync : (t.pair.pipe x).outstate = .async := hflow.outstate hstate
    simp [Pair.feed, Pair.handler, hinv.fsm x, hstate, hsending, Pair.pipebase, Pipe.sent, hasync]

end Traffic

end GridMq.Transports
