import GridMq.Core.Session

set_option autoImplicit false

/-!
# Where the messages of a pipe come from

A condition on all messages that wait on a pipe, and one on all that were given to it, are kept
by every call.
-/

namespace GridMq.Protocols

open GridMq.Core

variable {α : Type}

/-- What is in the two boxes of a pipe meets a condition. -/
structure Boxed (In : α → Prop) (Out : List UInt8 → Prop) (pipe : Pipe (Session α)) : Prop where
  inbox : ∀ a ∈ pipe.session.inbox, In a
  outbox : ∀ w ∈ pipe.session.outbox, Out w

namespace Boxed

variable {In In' : α → Prop} {Out Out' : List UInt8 → Prop} {pipe pipe' : Pipe (Session α)}

theorem mono (h : Boxed In Out pipe) (hin : ∀ a, In a → In' a) (hout : ∀ w, Out w → Out' w) :
    Boxed In' Out' pipe where
  inbox a ha := hin a (h.inbox a ha)
  outbox w hw := hout w (h.outbox w hw)

theorem congr (h : Boxed In Out pipe) (hsession : pipe'.session = pipe.session) :
    Boxed In Out pipe' where
  inbox a ha := h.inbox a (hsession ▸ ha)
  outbox w hw := h.outbox w (hsession ▸ hw)

/-- A new pipe has empty boxes. -/
theorem start (In : α → Prop) (Out : List UInt8 → Prop) (sndprio rcvprio : Nat) :
    Boxed In Out (Pipe.start { sndprio := sndprio, rcvprio := rcvprio, session := {} }) where
  inbox a ha := absurd ha (by simp [Pipe.start])
  outbox w hw := absurd hw (by simp [Pipe.start])

theorem received {r : Pipe (Session α) × Bool} (h : Boxed In Out pipe)
    (hcall : pipe.received = .ok r) : Boxed In Out r.1 := by
  rcases Pipe.received_eq_ok.mp hcall with ⟨-, heq, -⟩ | ⟨-, heq, -⟩
  · exact h.congr (by rw [heq])
  · exact h.congr (by rw [heq])

theorem sent {r : Pipe (Session α) × Bool} (h : Boxed In Out pipe) (hcall : pipe.sent = .ok r) :
    Boxed In Out r.1 := by
  rcases Pipe.sent_eq_ok.mp hcall with ⟨-, heq, -⟩ | ⟨-, heq, -⟩
  · exact h.congr (by rw [heq])
  · exact h.congr (by rw [heq])

theorem arrive {a : α} {r : Pipe (Session α) × Bool} (h : Boxed In Out pipe) (ha : In a)
    (hcall : pipe.arrive a = .ok r) : Boxed In Out r.1 := by
  have hqueued : Boxed In Out { pipe with session :=
      { pipe.session with inbox := pipe.session.inbox ++ [a] } } := by
    refine ⟨?_, h.outbox⟩
    intro b hb
    rcases List.mem_append.mp hb with hb | hb
    · exact h.inbox b hb
    · obtain rfl := List.mem_singleton.mp hb
      exact ha
  unfold Pipe.arrive at hcall
  split at hcall
  · exact hqueued.received hcall
  · obtain rfl := Except.ok.inj hcall
    exact hqueued

/-- What is received was waiting. -/
theorem recv {r : Pipe (Session α) × α × Bool} (h : Boxed In Out pipe)
    (hcall : pipe.recv sessionVfptr = .ok r) : Boxed In Out r.1 ∧ In r.2.1 := by
  obtain ⟨-, pipe', hrecv, hcases⟩ := Pipe.recv_cases hcall
  have hboxed : Boxed In Out pipe' ∧ In r.2.1 := by
    cases hinbox : pipe.session.inbox with
    | nil =>
        simp only [sessionVfptr, hinbox] at hrecv
        exact absurd hrecv (by simp)
    | cons a rest =>
        have hrest : Boxed In Out { pipe with
            instate := .receiving, session := { pipe.session with inbox := rest } } :=
          ⟨fun b hb => h.inbox b (hinbox ▸ List.mem_cons_of_mem a hb), h.outbox⟩
        simp only [sessionVfptr, hinbox] at hrecv
        split at hrecv
        · obtain ⟨q, hreceived, hret⟩ := bind_eq_ok_iff.mp hrecv
          obtain ⟨rfl, heq⟩ := Prod.mk.inj (Except.ok.inj hret)
          exact ⟨hrest.received hreceived, heq ▸ h.inbox a (hinbox ▸ List.mem_cons_self)⟩
        · obtain ⟨rfl, heq⟩ := Prod.mk.inj (Except.ok.inj hrecv)
          exact ⟨hrest, heq ▸ h.inbox a (hinbox ▸ List.mem_cons_self)⟩
  refine ⟨?_, hboxed.2⟩
  rcases hcases with ⟨-, heq, -⟩ | ⟨-, heq, -⟩
  · exact hboxed.1.congr (by rw [heq])
  · exact hboxed.1.congr (by rw [heq])

theorem send {msg : Msg} {r : Pipe (Session α) × Bool} (h : Boxed In Out pipe)
    (hmsg : Out msg.wire) (hcall : pipe.send sessionVfptr msg = .ok r) : Boxed In Out r.1 := by
  obtain ⟨_, hassert, -⟩ := bind_eq_ok_iff.mp hcall
  have hready := Pipe.send_ready (gridAssert_eq_ok_iff.mp hassert) msg
  obtain rfl := Except.ok.inj (hready.symm.trans hcall)
  refine ⟨h.inbox, ?_⟩
  intro w hw
  rcases List.mem_append.mp hw with hw | hw
  · exact h.outbox w hw
  · obtain rfl := List.mem_singleton.mp hw
    exact hmsg

end Boxed

/-! ## What a step has given to the pipes -/

/-- What is in the outboxes of some pipes that was not there before. -/
def newlyGiven (names : List Nat) (before after : Nat → List (List UInt8)) :
    List (Nat × List UInt8) :=
  names.flatMap fun p => ((after p).drop (before p).length).map fun wire => (p, wire)

end GridMq.Protocols
