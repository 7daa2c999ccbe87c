import GridMq.Transports.Sinproc
import Mathlib.Data.List.Infix

set_option autoImplicit false

/-!
# One direction of an inproc connection

What the two sessions keep about the messages that go one way: the flag, the exposed
message and the outbound state of the sender, the flag, the queue and the inbound state
of the receiver, and the two events between them.  A message passes four stages; each
call and each event moves the direction from one of them to another.
-/

namespace GridMq.Transports

open GridMq.Core

/-- A message as the receiver gets it. -/
def exposed (msg : Msg) : Msg := { body := msg.wire }

/-- The messages one way, with the messages given to the sender, those the receiver handed
out and the number of answers the sender got. -/
structure Direction where
  sender : SinprocState
  receiver : SinprocState
  sending : Bool
  receiving : Bool
  sentComing : Bool
  receivedComing : Bool
  msg : Msg
  msgqueue : Msgqueue
  outstate : OutState
  instate : InState
  sent : List Msg
  received : List Msg
  acked : Nat

/-- How far the last message has come. -/
inductive Stage where
  /-- there is none -/
  | quiet
  /-- SENT is under way -/
  | offered
  /-- the receiver's queue was full -/
  | lingering
  /-- RECEIVED is under way -/
  | answered
  deriving DecidableEq, Repr

namespace Direction

/-- The message that is still with the sender. -/
def waiting (d : Direction) : Stage → List Msg
  | .offered | .lingering => [d.msg]
  | .quiet | .answered => []

/-- The flags and the two pipes say the same about the stage and the queue, and no message
is lost or doubled. -/
structure Flow (d : Direction) (stage : Stage) : Prop where
  sending : d.sending = decide (stage ≠ .quiet)
  sentComing : d.sentComing = decide (stage = .offered)
  receiving : d.receiving = decide (stage = .lingering)
  receivedComing : d.receivedComing = decide (stage = .answered)
  lingering : stage = .lingering → d.msgqueue.contents ≠ []
  wf : d.msgqueue.WF
  unsent : d.sender ≠ .active → stage = .quiet
  unread : d.receiver ≠ .active → d.msgqueue.contents = []
  outstate : d.sender = .active → d.outstate = if stage = .quiet then .idle else .async
  instate : d.receiver = .active →
    d.instate = if d.msgqueue.contents = [] then .async else .idle
  sent : d.sent.map exposed = d.received ++ d.msgqueue.contents ++ d.waiting stage
  acked : d.sent.length = d.acked + if stage = .quiet then 0 else 1

variable {d : Direction} {stage : Stage}

theorem Flow.offered_of_sent (h : d.Flow stage) (hcoming : d.sentComing = true) :
    stage = .offered := by
  rw [h.sentComing] at hcoming
  exact of_decide_eq_true hcoming

theorem Flow.answered_of_received (h : d.Flow stage) (hcoming : d.receivedComing = true) :
    stage = .answered := by
  rw [h.receivedComing] at hcoming
  exact of_decide_eq_true hcoming

theorem Flow.quiet_of_idle (h : d.Flow stage) (hactive : d.sender = .active)
    (hidle : d.outstate = .idle) : stage = .quiet := by
  by_contra hbusy
  rw [h.outstate hactive, if_neg hbusy] at hidle
  exact absurd hidle (by simp)

theorem Flow.nonempty_iff (h : d.Flow stage) (hactive : d.receiver = .active) :
    d.msgqueue.contents ≠ [] ↔ d.instate = .idle := by
  rw [h.instate hactive]
  by_cases hnil : d.msgqueue.contents = []
  · rw [if_pos hnil]
    simp [hnil]
  · rw [if_neg hnil]
    simp [hnil]

/-! ## The moves -/

/-- A message is given to the sender. -/
theorem Flow.offer (h : d.Flow .quiet) (hactive : d.sender = .active) (msg : Msg) :
    Flow { d with
      sending := true, sentComing := true, msg := exposed msg, outstate := .async
      sent := d.sent ++ [msg] } .offered where
  sending := rfl
  sentComing := rfl
  receiving := h.receiving
  receivedComing := h.receivedComing
  lingering := by simp
  wf := h.wf
  unsent hno := absurd hactive hno
  unread := h.unread
  outstate _ := rfl
  instate := h.instate
  sent := by
    have hsent := h.sent
    simp only [waiting, List.append_nil] at hsent
    rw [List.map_append, hsent]
    rfl
  acked := by
    have hacked := h.acked
    rw [if_pos rfl] at hacked
    rw [List.length_append, hacked]
    rfl

/-- SENT arrives and the queue is full. -/
theorem Flow.linger (h : d.Flow .offered) (hactive : d.receiver = .active)
    (hfull : d.msgqueue.send d.msg = none) :
    Flow { d with sentComing := false, receiving := true } .lingering where
  sending := h.sending
  sentComing := rfl
  receiving := rfl
  receivedComing := h.receivedComing
  lingering _ := Msgqueue.send_none h.wf hfull
  wf := h.wf
  unsent hno := absurd (h.unsent hno) (by simp)
  unread hno := absurd hactive hno
  outstate := h.outstate
  instate := h.instate
  sent := h.sent
  acked := h.acked

/-- SENT arrives and the queue takes the message. -/
theorem Flow.accept (h : d.Flow .offered) (hactive : d.receiver = .active) {q : Msgqueue}
    (hsend : d.msgqueue.send d.msg = some q) :
    Flow { d with
      sentComing := false, receivedComing := true, msg := {}, msgqueue := q
      instate := .idle } .answered := by
  obtain ⟨hwf, hcontents, -⟩ := Msgqueue.send_spec h.wf hsend
  exact {
    sending := h.sending
    sentComing := rfl
    receiving := h.receiving
    receivedComing := rfl
    lingering := by simp
    wf := hwf
    unsent := fun hno => absurd (h.unsent hno) (by simp)
    unread := fun hno => absurd hactive hno
    outstate := h.outstate
    instate := fun _ => by
      rw [if_neg]
      rw [hcontents]
      simp
    sent := by
      have hsent := h.sent
      simp only [waiting, List.append_nil] at hsent ⊢
      rw [hcontents, hsent, List.append_assoc]
    acked := h.acked }

/-- RECEIVED arrives. -/
theorem Flow.acknowledge (h : d.Flow .answered) :
    Flow { d with
      sending := false, receivedComing := false, outstate := .idle, acked := d.acked + 1 }
      .quiet where
  sending := rfl
  sentComing := h.sentComing
  receiving := h.receiving
  receivedComing := rfl
  lingering := by simp
  wf := h.wf
  unsent _ := rfl
  unread := h.unread
  outstate _ := rfl
  instate := h.instate
  sent := h.sent
  acked := h.acked

/-- A message is taken from the queue, and no other is lingering. -/
theorem Flow.take (h : d.Flow stage) (hactive : d.receiver = .active)
    (hstage : stage ≠ .lingering) {msg : Msg} {rest : List Msg} {q : Msgqueue}
    (hcontents : d.msgqueue.contents = msg :: rest) (hwf : q.WF) (hrest : q.contents = rest) :
    Flow { d with
      msgqueue := q, received := d.received ++ [msg]
      instate := if rest = [] then .async else .idle } stage where
  sending := h.sending
  sentComing := h.sentComing
  receiving := h.receiving
  receivedComing := h.receivedComing
  lingering hl := absurd hl hstage
  wf := hwf
  unsent := h.unsent
  unread hno := absurd hactive hno
  outstate := h.outstate
  instate _ := by rw [hrest]
  sent := by
    rw [h.sent, hcontents, hrest]
    cases stage <;> simp [waiting]
  acked := h.acked

/-- A message is taken from the queue, which is still full for the lingering one. -/
theorem Flow.takeFull (h : d.Flow .lingering) (hactive : d.receiver = .active)
    {msg : Msg} {rest : List Msg} {q : Msgqueue}
    (hcontents : d.msgqueue.contents = msg :: rest) (hwf : q.WF) (hrest : q.contents = rest)
    (hfull : q.send d.msg = none) :
    Flow { d with msgqueue := q, received := d.received ++ [msg], instate := .idle }
      .lingering where
  sending := h.sending
  sentComing := h.sentComing
  receiving := h.receiving
  receivedComing := h.receivedComing
  lingering _ := Msgqueue.send_none hwf hfull
  wf := hwf
  unsent := h.unsent
  unread hno := absurd hactive hno
  outstate := h.outstate
  instate _ := by rw [if_neg (Msgqueue.send_none hwf hfull)]
  sent := by
    rw [h.sent, hcontents, hrest]
    simp [waiting]
  acked := h.acked

/-- A message is taken from the queue, and the lingering one takes its place. -/
theorem Flow.takeRetry (h : d.Flow .lingering) (hactive : d.receiver = .active)
    {msg : Msg} {rest : List Msg} {q q' : Msgqueue}
    (hcontents : d.msgqueue.contents = msg :: rest) (hwf : q.WF) (hrest : q.contents = rest)
    (hsend : q.send d.msg = some q') :
    Flow { d with
      receiving := false, receivedComing := true, msg := {}, msgqueue := q'
      received := d.received ++ [msg], instate := .idle } .answered := by
  obtain ⟨hwf', hcontents', -⟩ := Msgqueue.send_spec hwf hsend
  exact {
    sending := h.sending
    sentComing := h.sentComing
    receiving := rfl
    receivedComing := rfl
    lingering := by simp
    wf := hwf'
    unsent := fun hno => absurd (h.unsent hno) (by simp)
    unread := fun hno => absurd hactive hno
    outstate := h.outstate
    instate := fun _ => by
      rw [if_neg]
      rw [hcontents']
      simp
    sent := by
      rw [h.sent, hcontents, hcontents', hrest]
      simp [waiting]
    acked := h.acked }

/-- The sender's pipe is started. -/
theorem Flow.startSender (h : d.Flow stage) (hbefore : d.sender ≠ .active) :
    Flow { d with sender := .active, outstate := .idle } stage where
  sending := h.sending
  sentComing := h.sentComing
  receiving := h.receiving
  receivedComing := h.receivedComing
  lingering := h.lingering
  wf := h.wf
  unsent hno := absurd rfl hno
  unread := h.unread
  outstate _ := by rw [if_pos (h.unsent hbefore)]
  instate := h.instate
  sent := h.sent
  acked := h.acked

/-- The receiver's pipe is started. -/
theorem Flow.startReceiver (h : d.Flow stage) (hbefore : d.receiver ≠ .active) :
    Flow { d with receiver := .active, instate := .async } stage where
  sending := h.sending
  sentComing := h.sentComing
  receiving := h.receiving
  receivedComing := h.receivedComing
  lingering := h.lingering
  wf := h.wf
  unsent := h.unsent
  unread hno := absurd rfl hno
  outstate := h.outstate
  instate _ := by rw [if_pos (h.unread hbefore)]
  sent := h.sent
  acked := h.acked

end Direction

end GridMq.Transports
