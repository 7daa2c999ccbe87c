import GridMq.Core.Pipe

set_option autoImplicit false

/-!
# Sessions

What the socket types see of a transport's session: messages that have arrived and
wait to be received, and messages that were sent.
-/

namespace GridMq.Core

/-- The session behind a pipe.  What arrives is of type `α`. -/
structure Session (α : Type) where
  inbox : List α := []
  outbox : List (List UInt8) := []
  deriving DecidableEq, Repr

/-- Sending is reported later, by `grid_pipebase_sent`.  Receiving takes the
oldest message and reports at once when more of them are waiting. -/
def sessionVfptr {α : Type} : PipeVfptr (Session α) α where
  send pipe msg :=
    .ok { pipe with session :=
      { pipe.session with outbox := pipe.session.outbox ++ [msg.wire] } }
  recv pipe :=
    match pipe.session.inbox with
    | [] => .error .errnum
    | a :: rest => do
        let pipe := { pipe with session := { pipe.session with inbox := rest } }
        if rest ≠ [] then
          let r ← pipe.received
          return (r.1, a)
        else return (pipe, a)

namespace Pipe

variable {α : Type}

/-- A message arrives, and whether an IN event is raised: only a queue that was empty is
announced, as in the handler of `sinproc.c`. -/
def arrive (self : Pipe (Session α)) (a : α) : Except Abort (Pipe (Session α) × Bool) :=
  let queued := { self with session :=
    { self.session with inbox := self.session.inbox ++ [a] } }
  if self.session.inbox.isEmpty then queued.received else .ok (queued, false)

/-! ## What the calls leave alone -/

/-- The outbound half of a pipe, which receiving does not touch. -/
structure SameOut (pipe pipe' : Pipe (Session α)) : Prop where
  outstate : pipe'.outstate = pipe.outstate
  outbox : pipe'.session.outbox = pipe.session.outbox

theorem received_sameOut {pipe : Pipe (Session α)} {r : Pipe (Session α) × Bool}
    (h : pipe.received = .ok r) : SameOut pipe r.1 := by
  unfold received at h
  split at h
  · obtain rfl := Except.ok.inj h
    exact ⟨rfl, rfl⟩
  · split at h
    · obtain rfl := Except.ok.inj h
      exact ⟨rfl, rfl⟩
    · exact absurd h (by simp)

theorem arrive_sameOut {pipe : Pipe (Session α)} {a : α} {r : Pipe (Session α) × Bool}
    (h : pipe.arrive a = .ok r) : SameOut pipe r.1 := by
  unfold arrive at h
  split at h
  · have hsame := received_sameOut h
    exact ⟨hsame.outstate, hsame.outbox⟩
  · obtain rfl := Except.ok.inj h
    exact ⟨rfl, rfl⟩

theorem sessionVfptr_recv_sameOut {pipe : Pipe (Session α)} {r : Pipe (Session α) × α}
    (h : sessionVfptr.recv pipe = .ok r) : SameOut pipe r.1 := by
  unfold sessionVfptr at h
  simp only at h
  split at h
  · exact absurd h (by simp)
  · split at h
    · obtain ⟨r', hrec, hret⟩ := bind_eq_ok_iff.mp h
      obtain rfl := Except.ok.inj hret
      have hsame := received_sameOut hrec
      exact ⟨hsame.outstate, hsame.outbox⟩
    · obtain rfl := Except.ok.inj h
      exact ⟨rfl, rfl⟩

theorem recv_sameOut {pipe : Pipe (Session α)} {r : Pipe (Session α) × α × Bool}
    (h : pipe.recv sessionVfptr = .ok r) : SameOut pipe r.1 := by
  unfold recv at h
  obtain ⟨_, -, h⟩ := bind_eq_ok_iff.mp h
  obtain ⟨⟨pipe', a⟩, hrecv, h⟩ := bind_eq_ok_iff.mp h
  have hsame := sessionVfptr_recv_sameOut hrecv
  simp only at h
  split at h
  · obtain rfl := Except.ok.inj h
    exact ⟨hsame.outstate, hsame.outbox⟩
  · obtain ⟨_, -, h⟩ := bind_eq_ok_iff.mp h
    obtain rfl := Except.ok.inj h
    exact ⟨hsame.outstate, hsame.outbox⟩

/-- A pipe that is ready takes a message and is released. -/
theorem send_ready {pipe : Pipe (Session α)} (h : pipe.outstate = .idle) (msg : Msg) :
    pipe.send sessionVfptr msg = .ok ({ pipe with
      outstate := .async
      session := { pipe.session with outbox := pipe.session.outbox ++ [msg.wire] } }, true) := by
  simp [send, sessionVfptr, h]

/-- What a call that returns has put into the session. -/
theorem send_outbox {pipe : Pipe (Session α)} {msg : Msg} {r : Pipe (Session α) × Bool}
    (h : pipe.send sessionVfptr msg = .ok r) :
    r.1.session.outbox = pipe.session.outbox ++ [msg.wire] := by
  obtain ⟨_, hassert, -⟩ := bind_eq_ok_iff.mp h
  have hready := send_ready (gridAssert_eq_ok_iff.mp hassert) msg
  obtain rfl := Except.ok.inj (hready.symm.trans h)
  rfl

end Pipe

end GridMq.Core
