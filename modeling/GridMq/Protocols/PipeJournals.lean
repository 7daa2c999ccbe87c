import GridMq.Protocols.FairQueue

set_option autoImplicit false

/-!
# What went through the pipes of a socket

The steps that all socket types share, and journals of the messages that arrived, that were
received from the pipes and that were given to them.
-/

namespace GridMq.Protocols

open GridMq.Aio GridMq.Core GridMq.Library

/-- What happens to the pipes of a socket of any type. -/
inductive PipeOp where
  | add (p : Nat) (sndprio rcvprio : Priority)
  | rm (p : Nat)
  | arrive (p : Nat) (wire : List UInt8)
  | sent (p : Nat)
  | deliver (p : Nat) (e : PipeEvent)
  deriving DecidableEq

/-- The message that arrives. -/
def PipeOp.arrival : PipeOp → Option (Nat × List UInt8)
  | .arrive p wire => some (p, wire)
  | _ => none

namespace SocketPipes

/-- What the transports and the context keep to.  `mine` says which pipes may be attached to the
socket. -/
def Enabled (mine : Nat → Bool) (w : SocketPipes) : PipeOp → Prop
  | .add p _ _ => mine p = true ∧ w.Fresh p
  | .rm p => w.Attached p
  | .arrive p _ => w.Attached p
  | .sent p => w.Sending p
  | .deliver p e => w.Pending p e

instance (mine : Nat → Bool) (w : SocketPipes) (op : PipeOp) : Decidable (w.Enabled mine op) := by
  cases op <;> unfold Enabled <;> infer_instance

end SocketPipes

/-- Messages that came in on the pipes and went out to the user.  Those on attached pipes that
have not gone out wait there. -/
structure Received (mine : Nat → Bool) (came went : List (Nat × List UInt8)) (w : SocketPipes) :
    Prop extends Conserves came went w.inboxes where
  used : ∀ e ∈ came, e.1 ∈ w.used
  mine : ∀ p ∈ w.used, mine p = true

/-- Messages that were given to the pipes. -/
structure Given (mine : Nat → Bool) (given : List (Nat × List UInt8)) (w : SocketPipes) :
    Prop where
  outbox : ∀ p pipe, w.pipes p = some pipe → pipe.session.outbox = entries p given
  used : ∀ e ∈ given, e.1 ∈ w.used
  mine : ∀ p ∈ w.used, mine p = true

variable {mine : Nat → Bool} {came went given : List (Nat × List UInt8)} {w w' : SocketPipes}
  {p : Nat} {pipe pipe' : WirePipe} {wire : List UInt8}

namespace Received

theorem init (mine : Nat → Bool) : Received mine [] [] {} where
  toConserves := .init
  used e h := absurd h (by simp)
  mine p h := absurd h (by simp)

/-- What went out came in on a pipe of the socket. -/
theorem went_mine (h : Received mine came went w) {e : Nat × List UInt8} (he : e ∈ went) :
    mine e.1 = true := by
  have hcame : e.2 ∈ entries e.1 came := (h.front e.1).subset (mem_entries.mpr he)
  exact h.mine _ (h.used _ (mem_entries.mp hcame))

/-- Messages that stay where they are. -/
theorem keep (h : Received mine came went w) (hinboxes : w'.inboxes = w.inboxes)
    (hused : w'.used = w.used) : Received mine came went w' where
  toConserves := hinboxes ▸ h.toConserves
  used e he := hused ▸ h.used e he
  mine q hq := h.mine q (hused ▸ hq)

theorem attach {sndprio rcvprio : Nat} (h : Received mine came went w)
    (ha : SocketPipes.Attaching w w' p sndprio rcvprio) (hfresh : w.Fresh p)
    (hmine : mine p = true) : Received mine came went w' where
  toConserves := by
    rw [SocketPipes.inboxes_update ha.pipes]
    refine h.opens (entries_eq_nil ?_)
    intro e he hp
    exact hfresh (hp ▸ h.used e he)
  used e he := by
    rw [ha.used]
    exact List.mem_cons_of_mem p (h.used e he)
  mine q hq := by
    rw [ha.used] at hq
    rcases List.mem_cons.mp hq with rfl | hq
    · exact hmine
    · exact h.mine q hq

theorem detach (h : Received mine came went w) (p : Nat) :
    Received mine came went (w.setPipe p none) where
  toConserves := by
    rw [SocketPipes.inboxes_update_none (SocketPipes.setPipe_pipes w p none)]
    exact h.closes
  used := h.used
  mine := h.mine

theorem arrive (h : Received mine came went w)
    (ha : SocketPipes.Arriving w w' p wire pipe pipe') (hn : w.Named) :
    Received mine (came ++ [(p, wire)]) went w' where
  toConserves := by
    rw [SocketPipes.inboxes_update ha.pipes, ha.inbox]
    exact h.comes (SocketPipes.inboxes_of_pipe ha.was)
  used e he := by
    rw [ha.used]
    rcases List.mem_append.mp he with he | he
    · exact h.used e he
    · obtain rfl := List.mem_singleton.mp he
      exact hn.pipes p pipe ha.was
  mine q hq := h.mine q (ha.used ▸ hq)

theorem take (h : Received mine came went w) (ht : Taking w w' p wire pipe pipe') :
    Received mine came (went ++ [(p, wire)]) w' where
  toConserves := by
    rw [SocketPipes.inboxes_update ht.pipes]
    refine h.goes ?_
    rw [SocketPipes.inboxes_of_pipe ht.was, ht.inbox]
  used e he := ht.used ▸ h.used e he
  mine q hq := h.mine q (ht.used ▸ hq)

end Received

namespace Given

theorem init (mine : Nat → Bool) : Given mine [] {} where
  outbox p pipe h := absurd h (by simp)
  used e h := absurd h (by simp)
  mine p h := absurd h (by simp)

theorem given_mine (h : Given mine given w) {e : Nat × List UInt8} (he : e ∈ given) :
    mine e.1 = true := h.mine _ (h.used e he)

/-- A pipe replaced by one that was given the same messages. -/
theorem replace (h : Given mine given w) (hpipe : w.pipes p = some pipe)
    (hpipes : w'.pipes = Function.update w.pipes p (some pipe')) (hused : w'.used = w.used)
    (houtbox : pipe'.session.outbox = pipe.session.outbox) : Given mine given w' where
  outbox q pipe₁ hq := by
    rw [hpipes] at hq
    rcases eq_or_ne q p with rfl | hne
    · rw [Function.update_self] at hq
      obtain rfl := Option.some.inj hq
      exact houtbox.trans (h.outbox q pipe hpipe)
    · rw [Function.update_of_ne hne] at hq
      exact h.outbox q pipe₁ hq
  used e he := hused ▸ h.used e he
  mine q hq := h.mine q (hused ▸ hq)

theorem keep (h : Given mine given w) (hpipes : w'.pipes = w.pipes) (hused : w'.used = w.used) :
    Given mine given w' where
  outbox q pipe hq := h.outbox q pipe (hpipes ▸ hq)
  used e he := hused ▸ h.used e he
  mine q hq := h.mine q (hused ▸ hq)

theorem attach {sndprio rcvprio : Nat} (h : Given mine given w)
    (ha : SocketPipes.Attaching w w' p sndprio rcvprio) (hfresh : w.Fresh p)
    (hmine : mine p = true) : Given mine given w' where
  outbox q pipe hq := by
    rw [ha.pipes] at hq
    rcases eq_or_ne q p with rfl | hne
    · rw [Function.update_self] at hq
      obtain rfl := Option.some.inj hq
      refine (entries_eq_nil ?_).symm
      intro e he hp
      exact hfresh (hp ▸ h.used e he)
    · rw [Function.update_of_ne hne] at hq
      exact h.outbox q pipe hq
  used e he := by
    rw [ha.used]
    exact List.mem_cons_of_mem p (h.used e he)
  mine q hq := by
    rw [ha.used] at hq
    rcases List.mem_cons.mp hq with rfl | hq
    · exact hmine
    · exact h.mine q hq

theorem detach (h : Given mine given w) (p : Nat) : Given mine given (w.setPipe p none) where
  outbox q pipe hq := by
    rcases eq_or_ne q p with rfl | hne
    · rw [SocketPipes.setPipe_pipes, Function.update_self] at hq
      exact absurd hq (by simp)
    · rw [SocketPipes.setPipe_pipes, Function.update_of_ne hne] at hq
      exact h.outbox q pipe hq
  used := h.used
  mine := h.mine

theorem give (h : Given mine given w) (hg : Giving w w' p wire pipe pipe') (hn : w.Named) :
    Given mine (given ++ [(p, wire)]) w' where
  outbox q pipe₁ hq := by
    rw [hg.pipes] at hq
    rcases eq_or_ne q p with rfl | hne
    · rw [Function.update_self] at hq
      obtain rfl := Option.some.inj hq
      rw [hg.outbox, h.outbox q pipe hg.was, entries_append, entries_cons_self, entries_nil]
    · rw [Function.update_of_ne hne] at hq
      rw [h.outbox q pipe₁ hq, entries_append, entries_cons_of_ne hne.symm, entries_nil,
        List.append_nil]
  used e he := by
    rw [hg.used]
    rcases List.mem_append.mp he with he | he
    · exact h.used e he
    · obtain rfl := List.mem_singleton.mp he
      exact hn.pipes p pipe hg.was
  mine q hq := h.mine q (hg.used ▸ hq)

end Given

end GridMq.Protocols
