import GridMq.Library.Network
import GridMq.PubSub.Xpub
import GridMq.PubSub.Xsub

set_option autoImplicit false

/-!
# Publishers and subscribers

Any number of PUB and SUB sockets, joined by links that keep the order of the messages and may
be cut at any time.  A publisher does not know the subscriptions: every message goes to every
link that is ready, and the subscriber drops what nobody asked for.
-/

namespace GridMq.PubSub

open GridMq.Core GridMq.Library GridMq.Protocols

/-- The sockets, of either type. -/
inductive Party where
  | pub (i : Nat)
  | sub (j : Nat)
  deriving DecidableEq

abbrev Party.State : Party → Type
  | .pub _ => Xpub
  | .sub _ => Xsub

abbrev Party.Label : Party → Type
  | .pub _ => Xpub.Label
  | .sub _ => Xsub.Label

/-- PUB and SUB sockets.  Each link leads from one of the publishers to one of the subscribers,
and both have a pipe for it under its name. -/
def network (source target : Nat → Nat) :
    Network Party Nat (List UInt8) Party.State Party.Label where
  party
    | .pub i => (Xpub.machine fun l => source l == i).system
    | .sub j => (Xsub.machine fun l => target l == j).system
  source l := .pub (source l)
  target l := .sub (target l)
  sends
    | .pub _ => Xpub.given
    | .sub _ => fun _ => []
  arrival
    | .pub _ => Xpub.arrival
    | .sub _ => Xsub.arrival

/-- The sockets and what they have done. -/
abbrev State := NetworkState Nat Party.State Party.Label

/-- The PUB and SUB sockets. -/
def State.pub (s : State) (i : Nat) : Xpub := s.parties (.pub i)
def State.sub (s : State) (j : Nat) : Xsub := s.parties (.sub j)

/-- What a publisher has sent. -/
def State.published (s : State) (i : Nat) : List (List UInt8) :=
  (s.trace (.pub i)).filterMap Xpub.published

/-- What a publisher gave to its links, in order. -/
def State.given (s : State) (i : Nat) : List (Nat × List UInt8) :=
  (s.trace (.pub i)).flatMap Xpub.given

/-- What a subscriber took from its links, in order. -/
def State.taken (s : State) (j : Nat) : List (Nat × List UInt8) :=
  (s.trace (.sub j)).flatMap Xsub.taken

/-- What a subscriber handed to its user, in order. -/
def State.handed (s : State) (j : Nat) : List (Nat × List UInt8) :=
  (s.trace (.sub j)).filterMap Xsub.handed

/-- The messages of a link that have not arrived. -/
def State.inFlight (s : State) (source : Nat → Nat) (l : Nat) : List (List UInt8) :=
  (entries l (s.given (source l))).drop (s.carried l)

variable {source target : Nat → Nat} {s : State}

theorem pub_run (h : (network source target).system.Reachable s) (i : Nat) :
    (s.pub i).Inv ∧ Given (fun l => source l == i) (s.given i) (s.pub i).pipes ∧
      Received (fun l => source l == i) [] [] (s.pub i).pipes ∧
      ∀ l ∈ s.trace (.pub i), l.2.Nodup := by
  obtain ⟨hinv, hgiven, hreceived, hnodup⟩ := Xpub.inv_run (Network.run_party h (.pub i))
  have hnone : (s.trace (.pub i)).filterMap Xpub.arrival = [] := by
    apply List.eq_nil_iff_forall_not_mem.mpr
    intro e he
    exact absurd (Network.target_of_arrival h (.pub i) e he) (by simp [network])
  rw [hnone] at hreceived
  exact ⟨hinv, hgiven, hreceived, hnodup⟩

theorem sub_run (h : (network source target).system.Reachable s) (j : Nat) :
    (s.sub j).receiver.Inv ∧ Received (fun l => target l == j)
      ((s.trace (.sub j)).filterMap Xsub.arrival) (s.taken j) (s.sub j).receiver.pipes ∧
      runCalls trieInit ((s.trace (.sub j)).filterMap Xsub.call) = .ok (s.sub j).trie :=
  Xsub.inv_run (Network.run_party h (.sub j))

/-- What arrived from a link is what was given to it, less what is in flight. -/
theorem arrived_eq (h : (network source target).system.Reachable s) (l : Nat) :
    entries l (s.given (source l)) =
      entries l ((s.trace (.sub (target l))).filterMap Xsub.arrival) ++ s.inFlight source l := by
  have harrived : entries l ((s.trace (.sub (target l))).filterMap Xsub.arrival) =
      (entries l (s.given (source l))).take (s.carried l) :=
    (Network.carried_of_reachable h l).2
  rw [harrived, State.inFlight, List.take_append_drop]

/-- What is handed to the user was taken from the links, in that order. -/
theorem handed_sublist (labels : List Xsub.Label) :
    (labels.filterMap Xsub.handed).Sublist (labels.flatMap Xsub.taken) := by
  induction labels with
  | nil => exact List.Sublist.refl _
  | cons l labels ih =>
      obtain ⟨op, r⟩ := l
      cases op with
      | pipe op => exact ih
      | setopt call => exact ih
      | recv behind =>
          have htaken : ((Xsub.Op.recv behind, r) :: labels).flatMap Xsub.taken =
              r.dropped ++ (r.handed.toList ++ labels.flatMap Xsub.taken) := by
            rw [List.flatMap_cons, Xsub.taken, Xsub.Screened.taken, List.append_assoc]
          have hhanded : ((Xsub.Op.recv behind, r) :: labels).filterMap Xsub.handed =
              r.handed.toList ++ labels.filterMap Xsub.handed := by
            rw [← List.singleton_append, List.filterMap_append]
            cases hr : r.handed with
            | none => simp [Xsub.handed, hr]
            | some e => simp [Xsub.handed, hr]
          rw [htaken, hhanded]
          exact (ih.append_left _).trans (List.sublist_append_right _ _)

/-- Each receive does with the messages what the subscriptions made so far say. -/
theorem filtered_of_recv (h : (network source target).system.Reachable s) {j : Nat}
    {before after : List Xsub.Label} {behind : Nat → Nat → UInt8} {r : Xsub.Screened}
    (htrace : s.trace (.sub j) = before ++ (.recv behind, r) :: after)
    (hcalls : Xsub.CallsCounted (before.filterMap Xsub.call)) :
    Xsub.Filtered (before.filterMap Xsub.call) r := by
  have hrun := Network.run_party h (.sub j)
  rw [htrace] at hrun
  obtain ⟨s₁, s₂, hbefore, hstep⟩ := hrun.step_of_mem
  obtain ⟨hinv, -, htrie⟩ := Xsub.inv_run hbefore
  obtain ⟨s', r', hrecv, -, hscreens⟩ := Xsub.recv_spec hinv behind
  obtain ⟨-, rfl⟩ := Prod.mk.inj (Except.ok.inj (hrecv.symm.trans hstep.2))
  exact hscreens.filtered hcalls htrie

/-- The sockets before anything happens. -/
def State.init : State where
  parties
    | .pub _ => ({} : Xpub)
    | .sub _ => ({} : Xsub)
  trace _ := []
  carried _ := 0

/-- What the sockets compute. -/
def partyNext (source target : Nat → Nat) :
    (i : Party) → i.State → i.Label → Option i.State
  | .pub i => (Xpub.machine fun l => source l == i).compute
      (Xpub.ready fun l => source l == i)
  | .sub j => (Xsub.machine fun l => target l == j).compute
      (Xsub.ready fun l => target l == j)

theorem partyNext_step {i : Party} {p p' : i.State} {l : i.Label}
    (h : partyNext source target i p l = some p') :
    ((network source target).party i).step p l p' := by
  cases i with
  | pub i => exact Machine.step_of_compute (fun _ _ => Xpub.enabled_of_ready) h
  | sub j => exact Machine.step_of_compute (fun _ _ => Xsub.enabled_of_ready) h

/-- The state after some steps. -/
def State.after (source target : Nat → Nat) (labels : List ((i : Party) × i.Label)) :
    Option State :=
  System.follow ((network source target).tryStep (partyNext source target)) .init labels

theorem reachable_after {labels : List ((i : Party) × i.Label)}
    (h : State.after source target labels = some s) :
    (network source target).system.Reachable s := by
  refine System.Reachable.follow (fun s l s' hstep => ?_) (.start ?_) h
  · exact Network.step_of_tryStep (fun i p l p' hp => partyNext_step hp) hstep
  · refine ⟨?_, fun _ => rfl, fun _ => rfl⟩
    intro i
    cases i with
    | pub i => rfl
    | sub j => rfl

/-- A publisher with a link to each of two subscribers: the first one has asked for what is
published, the second one has not. -/
def twoSubscribers : List ((i : Party) × i.Label) :=
  [⟨.pub 0, .pipe (.add 0 defaultPriority defaultPriority), []⟩,
    ⟨.pub 0, .pipe (.add 1 defaultPriority defaultPriority), []⟩,
    ⟨.pub 0, .pipe (.deliver 0 .pipeOut), []⟩,
    ⟨.pub 0, .pipe (.deliver 1 .pipeOut), []⟩,
    ⟨.sub 0, .pipe (.add 0 defaultPriority defaultPriority), {}⟩,
    ⟨.sub 1, .pipe (.add 1 defaultPriority defaultPriority), {}⟩,
    ⟨.sub 0, .setopt (.subscribe [7]), {}⟩,
    ⟨.pub 0, .send { body := [7, 1] }, [0, 1]⟩,
    ⟨.sub 0, .pipe (.arrive 0 [7, 1]), {}⟩,
    ⟨.sub 1, .pipe (.arrive 1 [7, 1]), {}⟩,
    ⟨.sub 0, .pipe (.deliver 0 .pipeIn), {}⟩,
    ⟨.sub 1, .pipe (.deliver 1 .pipeIn), {}⟩,
    ⟨.sub 0, .recv fun _ _ => 0, { handed := some (0, [7, 1]) }⟩,
    ⟨.sub 1, .recv fun _ _ => 0, { dropped := [(1, [7, 1])] }⟩]

/-- In every run of publishers and subscribers, no assertion of a publisher fails, nor one of a
subscriber but for calls on the trie that it does not count right; what a user receives over a
link was published at its other end, once and in the order of publication; nothing is lost
between the two ends while the receiving end is up; and as long as the calls on the trie keep to
what it counts right, a receive drops no message that is subscribed to, and hands over only
messages that are subscribed to or are the beginning of a subscription. -/
theorem publication_delivers (h : (network source target).system.Reachable s) :
    (∀ i op, (s.pub i).Enabled (fun l => source l == i) op → ∃ r, (s.pub i).next op = .ok r) ∧
    (∀ j op, (s.sub j).Enabled (fun l => target l == j) op → (∀ call, op ≠ .setopt call) →
      ∃ r, (s.sub j).next op = .ok r) ∧
    (∀ j call, Xsub.CallsCounted ((s.trace (.sub j)).filterMap Xsub.call ++ [call]) →
      ∃ r, (s.sub j).next (.setopt call) = .ok r) ∧
    (∀ l, (entries l (s.handed (target l))).Sublist (s.published (source l))) ∧
    (∀ l, entries l (s.taken (target l)) <+: entries l (s.given (source l))) ∧
    (∀ l pipe, (s.sub (target l)).receiver.pipes.pipes l = some pipe →
      entries l (s.given (source l)) =
        entries l (s.taken (target l)) ++ pipe.session.inbox ++ s.inFlight source l) ∧
    ∀ j before after behind r, s.trace (.sub j) = before ++ (.recv behind, r) :: after →
      Xsub.CallsCounted (before.filterMap Xsub.call) →
      Xsub.Filtered (before.filterMap Xsub.call) r := by
  have htaken : ∀ l, entries l (s.taken (target l)) <+: entries l (s.given (source l)) := by
    intro l
    rw [arrived_eq h l]
    exact ((sub_run h (target l)).2.1.front l).trans (List.prefix_append _ _)
  refine ⟨?_, ?_, ?_, ?_, htaken, ?_, ?_⟩
  · intro i op hen
    obtain ⟨hinv, -, hreceived, -⟩ := pub_run h i
    have hop : ∀ p, op ≠ .pipe (.deliver p .pipeIn) := by
      intro p hp
      rw [hp] at hen
      exact hinv.not_pending hreceived p hen
    obtain ⟨s', r, hcall, -⟩ := hinv.sound hen hop
    exact ⟨(s', r), hcall⟩
  · intro j op hen hop
    obtain ⟨s', r, hcall⟩ := Xsub.goes_on (sub_run h j).1 hen hop
    exact ⟨(s', r), hcall⟩
  · intro j call hcalls
    obtain ⟨root, hroot, -⟩ := runCalls_spec _ hcalls.balanced hcalls.few hcalls.keeps
    rw [runCalls_concat, (sub_run h j).2.2, ok_bind] at hroot
    refine ⟨({ s.sub j with trie := root }, {}), ?_⟩
    simp only [Xsub.next, Xsub.setopt, hroot, ok_bind, pure_eq_ok]
  · intro l
    have hhanded : (entries l (s.handed (target l))).Sublist (entries l (s.taken (target l))) :=
      entries_sublist (handed_sublist _) l
    have hgiven : (entries l (s.given (source l))).Sublist (s.published (source l)) :=
      Xpub.given_sublist _ (pub_run h (source l)).2.2.2 l
    exact (hhanded.trans (htaken l).sublist).trans hgiven
  · intro l pipe hpipe
    rw [arrived_eq h l,
      (sub_run h (target l)).2.1.balance l _ (SocketPipes.inboxes_of_pipe hpipe)]
  · intro j before after behind r htrace hcalls
    exact filtered_of_recv h htrace hcalls

theorem publication_delivers_twoSubscribers :
    ∃ s, State.after (fun _ => 0) id twoSubscribers = some s ∧
      s.published 0 = [[7, 1]] ∧ s.handed 0 = [(0, [7, 1])] ∧ s.handed 1 = [] ∧
      (entries 0 (s.handed 0)).Sublist (s.published 0) := by
  have hrun : (State.after (fun _ => 0) id twoSubscribers).map (fun s =>
      (s.published 0, s.handed 0, s.handed 1)) = some ([[7, 1]], [(0, [7, 1])], []) := by
    decide +kernel
  obtain ⟨s, hs, heq⟩ := Option.map_eq_some_iff.mp hrun
  obtain ⟨hpublished, hrest⟩ := Prod.mk.inj heq
  obtain ⟨hfirst, hsecond⟩ := Prod.mk.inj hrest
  exact ⟨s, hs, hpublished, hfirst, hsecond, (publication_delivers (reachable_after hs)).2.2.2.1 0⟩

end GridMq.PubSub
