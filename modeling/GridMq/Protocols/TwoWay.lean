import GridMq.Library.Machine
import GridMq.Library.Network
import GridMq.Protocols.PipeJournals

set_option autoImplicit false

/-!
# Sockets of one type, joined by links

Each link has two ends, and each end is a pipe of one of the sockets.  A message that is given
to a pipe arrives at the other end of its link; the links keep the order of the messages in
either direction and may be cut at any time.
-/

namespace GridMq.Protocols

open GridMq.Core GridMq.Library

/-- The ends of the links: the socket that has the end as a pipe, and the other end. -/
structure Links where
  owner : Nat → Nat
  peer : Nat → Nat
  peer_peer : ∀ p, peer (peer p) = p

theorem Links.peer_injective (links : Links) : Function.Injective links.peer := by
  intro p q h
  rw [← links.peer_peer p, h, links.peer_peer]

/-- A type of sockets as it is seen from outside: what arrives in a step, what is taken from the
pipes, and what is given to them. -/
structure SocketView (σ ω ρ : Type) where
  machine : (Nat → Bool) → Machine σ ω ρ Abort
  pipes : σ → SocketPipes
  arrival : ω × ρ → Option (Nat × List UInt8)
  taken : ω × ρ → List (Nat × List UInt8)
  given : ω × ρ → List (Nat × List UInt8)

/-- In every run the messages of a socket are where they should be. -/
def SocketView.Accounts {σ ω ρ : Type} (view : SocketView σ ω ρ) : Prop :=
  ∀ mine labels s, (view.machine mine).system.Run labels s →
    Received mine (labels.filterMap view.arrival) (labels.flatMap view.taken) (view.pipes s) ∧
      Given mine (labels.flatMap view.given) (view.pipes s)

namespace TwoWay

variable {σ ω ρ : Type} (view : SocketView σ ω ρ) (links : Links)

/-- The sockets.  A channel is known by the end at which messages go in. -/
def network : Network Nat Nat (List UInt8) (fun _ => σ) fun _ => ω × ρ where
  party i := (view.machine fun p => links.owner p == i).system
  source p := links.owner p
  target p := links.owner (links.peer p)
  sends _ := view.given
  arrival _ l := (view.arrival l).map fun e => (links.peer e.1, e.2)

/-- The sockets and what they have done. -/
abbrev State (σ ω ρ : Type) := NetworkState Nat (fun _ : Nat => σ) fun _ => ω × ρ

/-- What a socket gave to its pipes, in order. -/
def given (s : State σ ω ρ) (i : Nat) : List (Nat × List UInt8) := (s.trace i).flatMap view.given

/-- What a socket took from its pipes, in order. -/
def taken (s : State σ ω ρ) (i : Nat) : List (Nat × List UInt8) := (s.trace i).flatMap view.taken

/-- The messages on their way to an end of a link. -/
def inFlight (s : State σ ω ρ) (p : Nat) : List (List UInt8) :=
  (entries (links.peer p) (given view s (links.owner (links.peer p)))).drop
    (s.carried (links.peer p))

variable {view links} {s : State σ ω ρ}

theorem accounts (hview : view.Accounts) (h : (network view links).system.Reachable s) (i : Nat) :
    Received (fun p => links.owner p == i) ((s.trace i).filterMap view.arrival) (taken view s i)
        (view.pipes (s.parties i)) ∧
      Given (fun p => links.owner p == i) (given view s i) (view.pipes (s.parties i)) :=
  hview _ _ _ (Network.run_party h i)

/-- What arrived at an end of a link is what was given to the other end, less what is in
flight. -/
theorem arrived_eq (h : (network view links).system.Reachable s) (p : Nat) :
    entries (links.peer p) (given view s (links.owner (links.peer p))) =
      entries p ((s.trace (links.owner p)).filterMap view.arrival) ++ inFlight view links s p := by
  have hcarried := (Network.carried_of_reachable h (links.peer p)).2
  have harrived : entries p ((s.trace (links.owner p)).filterMap view.arrival) =
      (entries (links.peer p) (given view s (links.owner (links.peer p)))).take
        (s.carried (links.peer p)) := by
    have hnames : ∀ labels : List (ω × ρ), labels.filterMap
        (fun l => (view.arrival l).map fun e => (links.peer e.1, e.2)) =
        (labels.filterMap view.arrival).map fun e => (links.peer e.1, e.2) := by
      intro labels
      rw [List.map_filterMap]
    unfold Network.arrivedOn network at hcarried
    simp only [links.peer_peer, hnames] at hcarried
    rw [entries_map links.peer_injective] at hcarried
    exact hcarried
  rw [harrived, inFlight, List.take_append_drop]

/-- Every message goes to a pipe of its own socket and comes from one; over each link the
messages come once and in order, in both directions; and nothing is lost at an end that is
up. -/
structure Delivers (view : SocketView σ ω ρ) (links : Links) (s : State σ ω ρ) : Prop where
  given : ∀ i, ∀ e ∈ given view s i, links.owner e.1 = i
  taken : ∀ i, ∀ e ∈ taken view s i, links.owner e.1 = i
  order : ∀ p, entries p (TwoWay.taken view s (links.owner p)) <+:
    entries (links.peer p) (TwoWay.given view s (links.owner (links.peer p)))
  balance : ∀ p pipe, (view.pipes (s.parties (links.owner p))).pipes p = some pipe →
    entries (links.peer p) (TwoWay.given view s (links.owner (links.peer p))) =
      entries p (TwoWay.taken view s (links.owner p)) ++ pipe.session.inbox ++
        inFlight view links s p

theorem delivers (hview : view.Accounts) (h : (network view links).system.Reachable s) :
    Delivers view links s where
  given i e he := by simpa using (accounts hview h i).2.given_mine he
  taken i e he := by simpa using (accounts hview h i).1.went_mine he
  order p := by
    rw [arrived_eq h p]
    exact ((accounts hview h (links.owner p)).1.front p).trans (List.prefix_append _ _)
  balance p pipe hpipe := by
    rw [arrived_eq h p, (accounts hview h (links.owner p)).1.balance p _
      (SocketPipes.inboxes_of_pipe hpipe)]

/-! ## Runs that are computed -/

section Compute

variable [DecidableEq ρ] (view links)

/-- The sockets before anything happens. -/
def init : State σ ω ρ where
  parties i := (view.machine fun p => links.owner p == i).init
  trace _ := []
  carried _ := 0

/-- The state after some steps. -/
def after (ready : (Nat → Bool) → σ → ω → Bool) (labels : List ((_ : Nat) × ω × ρ)) :
    Option (State σ ω ρ) :=
  System.follow ((network view links).tryStep fun i =>
    (view.machine fun p => links.owner p == i).compute (ready fun p => links.owner p == i))
    (init view links) labels

variable {view links}

theorem reachable_after {ready : (Nat → Bool) → σ → ω → Bool}
    (hready : ∀ mine s op, ready mine s op = true → (view.machine mine).Enabled s op)
    {labels : List ((_ : Nat) × ω × ρ)} (h : after view links ready labels = some s) :
    (network view links).system.Reachable s := by
  refine System.Reachable.follow (fun s l s' hstep => ?_) (.start ?_) h
  · exact Network.step_of_tryStep
      (fun i p l p' hp => Machine.step_of_compute (hready _) hp) hstep
  · exact ⟨fun _ => rfl, fun _ => rfl, fun _ => rfl⟩

end Compute

end TwoWay

end GridMq.Protocols
