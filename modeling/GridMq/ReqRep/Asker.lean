import GridMq.Devices.Forwarder
import GridMq.Library.Network

set_option autoImplicit false

/-!
# Sockets that ask, devices that pass on, and REP sockets that answer

REQ and SURVEYOR sockets number what they ask, and know an answer by its number.  Here any number
of sockets that do so are joined to REP sockets, over any number of devices between raw sockets.
The links between them keep the order of the messages in both directions and may be cut at any
time; a RESPONDENT socket is a REP socket.
-/

namespace GridMq.ReqRep

open GridMq.Core GridMq.Library GridMq.Devices

/-- The bytes of the request with a number. -/
def requestWire (lastid k : Nat) (body : List UInt8) : List UInt8 :=
  putl (setTopBit ((lastid + k + 1) % 2 ^ 32)) ++ body

/-- The bytes of one of some requests. -/
def IsRequest (lastid : Nat) (requests : List (List UInt8)) (wire : List UInt8) : Prop :=
  ∃ k body, requests[k]? = some body ∧ wire = requestWire lastid k body

theorem IsRequest.more {lastid : Nat} {requests : List (List UInt8)} {wire : List UInt8}
    (h : IsRequest lastid requests wire) (later : List (List UInt8)) :
    IsRequest lastid (requests ++ later) wire := by
  obtain ⟨k, body, hk, hwire⟩ := h
  exact ⟨k, body, List.getElem?_append_left (List.getElem?_eq_some_iff.mp hk).1 ▸ hk, hwire⟩

/-- A type of sockets that ask, as it is seen from outside: what arrives in a step, what is given
to the pipes, and what the user asks.  The number is the one that a socket starts from. -/
structure Asker (σ ω ρ : Type) where
  machine : Nat → (Nat → Bool) → Machine σ ω ρ Abort
  arrival : ω × ρ → Option (Nat × List UInt8)
  sends : ω × ρ → List (Nat × List UInt8)
  request : ω × ρ → Option (List UInt8)

/-- The sockets, and the devices with theirs. -/
inductive Party where
  | asker (i : Nat)
  | device (d : Nat)
  | rep (j : Nat)
  deriving DecidableEq

abbrev Party.State (σ δ : Type) : Party → Type
  | .asker _ => σ
  | .device _ => Forwarder δ
  | .rep _ => Rep

abbrev Party.Label (ω ρ : Type) : Party → Type
  | .asker _ => ω × ρ
  | .device _ => Forwarder.Seen
  | .rep _ => Rep.Seen

/-- The two directions of a link. -/
inductive Channel where
  | request (l : Nat)
  | reply (l : Nat)
  deriving DecidableEq

/-- Where requests come from. -/
inductive Upper where
  | asker (i : Nat)
  | device (d : Nat)
  deriving DecidableEq

/-- Where requests go to. -/
inductive Lower where
  | rep (j : Nat)
  | device (d : Nat)
  deriving DecidableEq

def Upper.party : Upper → Party
  | .asker i => .asker i
  | .device d => .device d

def Lower.party : Lower → Party
  | .rep j => .rep j
  | .device d => .device d

/-- What each link joins, and which socket of a device is its first.  The upper end has a pipe for
the link under its name, the lower end under the number of pipes that were added before. -/
structure Wiring where
  source : Nat → Upper
  target : Nat → Lower
  link : Lower → Nat → Nat
  order : Nat → Way := fun _ => .onward

/-- The sockets and what they have done. -/
abbrev Asker.Joined (σ δ ω ρ : Type) :=
  NetworkState Channel (Party.State σ δ) (Party.Label ω ρ)

namespace Asker

variable {σ δ ω ρ : Type} (asker : Asker σ ω ρ) (outlet : Outlet δ)

/-- The sockets and devices, with the random numbers that they start from. -/
def network (lastid : Nat → Nat) (key : Lower → Nat) (w : Wiring) :
    Network Party Channel (List UInt8) (Party.State σ δ) (Party.Label ω ρ) where
  party
    | .asker i => (asker.machine (lastid i) fun l => w.source l == .asker i).system
    | .device d => (Forwarder.machine outlet (w.order d) (key (.device d))
        (fun p => w.target (w.link (.device d) p) == .device d)
        fun l => w.source l == .device d).system
    | .rep j => (Rep.machine (key (.rep j)) fun p =>
        w.target (w.link (.rep j) p) == .rep j).system
  source
    | .request l => (w.source l).party
    | .reply l => (w.target l).party
  target
    | .request l => (w.target l).party
    | .reply l => (w.source l).party
  sends
    | .asker _ => fun x => (asker.sends x).map fun e => (.request e.1, e.2)
    | .device d => fun x =>
        (x.2.1.map fun e => (.reply (w.link (.device d) e.1), e.2)) ++
          x.2.2.map fun e => (.request e.1, e.2)
    | .rep j => fun x => (Rep.sends x).map fun e => (.reply (w.link (.rep j) e.1), e.2)
  arrival
    | .asker _ => fun x => (asker.arrival x).map fun e => (.reply e.1, e.2)
    | .device d => fun x =>
        ((Forwarder.asked x).map fun e => (.request (w.link (.device d) e.1), e.2)).or
          ((Forwarder.answered x).map fun e => (.reply e.1, e.2))
    | .rep j => fun x => (Rep.arrival x).map fun e => (.request (w.link (.rep j) e.1), e.2)

/-- A REP socket, and a device. -/
def rep (s : Joined σ δ ω ρ) (j : Nat) : Rep := s.parties (.rep j)
def device (s : Joined σ δ ω ρ) (d : Nat) : Forwarder δ := s.parties (.device d)

/-- How many pipes were added at the lower end of links. -/
def adds (s : Joined σ δ ω ρ) : Lower → Nat
  | .rep j => (rep s j).adds
  | .device d => (device s d).adds

/-- What happened to a socket that asks. -/
def asked (s : Joined σ δ ω ρ) (i : Nat) : List (ω × ρ) := s.trace (.asker i)

/-- What the user of a socket has asked, in order. -/
def requests (s : Joined σ δ ω ρ) (i : Nat) : List (List UInt8) :=
  (asked s i).filterMap asker.request

/-- The user of a REP socket received the request that came over the pipe `q` as `wire`, and then
gave an answer, with nothing else received and no other answer given in between. -/
def Answered (s : Joined σ δ ω ρ) (j q : Nat) (wire request body : List UInt8) : Prop :=
  ∃ front mid rest g g' stack, s.trace (.rep j) =
    front ++ (.recv, .request { body := request }, g) :: mid ++
      (.send { body := body }, .ok, g') :: rest ∧
    (∀ l ∈ mid, l.1 ≠ .recv ∧ l.2.1 ≠ .ok) ∧ (q, wire) ∈ front.filterMap Rep.arrival ∧
    xrepSplit wire = some { sphdr := stack, body := request }

/-- What is `wire` on one link is `wire'` on another one below it: each device in between puts the
key of the pipe on top that it came in on. -/
inductive Onward (key : Lower → Nat) (w : Wiring) :
    Nat → List UInt8 → Nat → List UInt8 → Prop where
  | here (l : Nat) (wire : List UInt8) : Onward key w l wire l wire
  | device {d p l l' : Nat} {wire wire' : List UInt8} (hsource : w.source l = .device d)
      (h : Onward key w l (putl (Xrep.keyOf (key (.device d) % 2 ^ 32) p) ++ wire) l' wire') :
      Onward key w (w.link (.device d) p) wire l' wire'

/-- A reply on a link: over the same link, and under the same stack, a request was sent, and the
user of the REP socket that it came to gave this answer to it. -/
def Matched (net : Network Party Channel (List UInt8) (Party.State σ δ) (Party.Label ω ρ))
    (key : Lower → Nat) (w : Wiring) (s : Joined σ δ ω ρ) (l : Nat) (wire : List UInt8) : Prop :=
  ∃ stack request body j q arrived, stack ++ request ∈ net.sentOn s (.request l) ∧
    xrepSplit (stack ++ request) = some { sphdr := stack, body := request } ∧
    wire = stack ++ body ∧ Onward key w l (stack ++ request) (w.link (.rep j) q) arrived ∧
    Answered s j q arrived request body

variable {asker outlet} {lastid : Nat → Nat} {key : Lower → Nat} {w : Wiring}
  {s s' : Joined σ δ ω ρ}

/-! ## What arrives at a party -/

theorem Answered.later {j q : Nat} {wire request body : List UInt8}
    (h : Answered s j q wire request body) {later : List Rep.Seen}
    (htrace : s'.trace (.rep j) = s.trace (.rep j) ++ later) :
    Answered s' j q wire request body := by
  obtain ⟨front, mid, rest, g, g', stack, heq, hrest⟩ := h
  refine ⟨front, mid, rest ++ later, g, g', stack, ?_, hrest⟩
  rw [htrace, heq, List.append_assoc, List.cons_append]

theorem Matched.step {i : Party} {x : i.Label ω ρ}
    (hstep : (asker.network outlet lastid key w).system.step s ⟨i, x⟩ s') {l : Nat}
    {wire : List UInt8} (h : Matched (asker.network outlet lastid key w) key w s l wire) :
    Matched (asker.network outlet lastid key w) key w s' l wire := by
  obtain ⟨stack, request, body, j, q, arrived, hsent, hsplit, hwire, honward, hanswer⟩ := h
  obtain ⟨-, htrace, hother, hmore⟩ := Network.step_moves hstep
  refine ⟨stack, request, body, j, q, arrived, (hmore _).subset hsent, hsplit, hwire, honward, ?_⟩
  rcases eq_or_ne (.rep j) i with rfl | hj
  · exact hanswer.later htrace
  · have htrace' : s'.trace (.rep j) = s.trace (.rep j) ++ [] := by
      rw [List.append_nil]
      exact (hother _ hj).2
    exact hanswer.later htrace'

theorem setTopBit_mod (n : Nat) : setTopBit n % 2 ^ 31 = n % 2 ^ 31 := by
  rw [setTopBit, Nat.or_mod_two_pow, Nat.mod_self, Nat.or_zero]

section Compute

variable [DecidableEq ρ] (asker outlet) (lastid : Nat → Nat) (key : Lower → Nat) (w : Wiring)

/-- The sockets before anything happens. -/
def initState : Joined σ δ ω ρ where
  parties
    | .asker i => (asker.machine (lastid i) fun l => w.source l == .asker i).init
    | .device d => .init outlet (key (.device d))
    | .rep j => .init (key (.rep j))
  trace _ := []
  carried _ := 0

/-- What the sockets compute. -/
def partyNext (ready : (Nat → Bool) → σ → ω → Bool) :
    (i : Party) → i.State σ δ → i.Label ω ρ → Option (i.State σ δ)
  | .asker i => (asker.machine (lastid i) fun l => w.source l == .asker i).compute
      (ready fun l => w.source l == .asker i)
  | .device d => (Forwarder.machine outlet (w.order d) (key (.device d))
        (fun p => w.target (w.link (.device d) p) == .device d)
        fun l => w.source l == .device d).compute
      (Forwarder.ready outlet (fun p => w.target (w.link (.device d) p) == .device d)
        fun l => w.source l == .device d)
  | .rep j => (Rep.machine (key (.rep j)) fun p =>
        w.target (w.link (.rep j) p) == .rep j).compute
      (Rep.ready fun p => w.target (w.link (.rep j) p) == .rep j)

/-- The state after some steps. -/
def after (ready : (Nat → Bool) → σ → ω → Bool) (labels : List ((i : Party) × i.Label ω ρ)) :
    Option (Joined σ δ ω ρ) :=
  System.follow
    ((asker.network outlet lastid key w).tryStep (partyNext asker outlet lastid key w ready))
    (initState asker outlet lastid key w) labels

variable {asker outlet lastid key w}

theorem partyNext_step {ready : (Nat → Bool) → σ → ω → Bool}
    (hready : ∀ n mine p op, ready mine p op = true → (asker.machine n mine).Enabled p op)
    {i : Party} {p p' : i.State σ δ} {l : i.Label ω ρ}
    (h : partyNext asker outlet lastid key w ready i p l = some p') :
    ((asker.network outlet lastid key w).party i).step p l p' := by
  cases i with
  | asker i => exact Machine.step_of_compute (hready _ _) h
  | device d => exact Machine.step_of_compute (fun _ _ => Forwarder.enabled_of_ready outlet) h
  | rep j => exact Machine.step_of_compute (fun _ _ => Rep.enabled_of_ready) h

theorem reachable_after {ready : (Nat → Bool) → σ → ω → Bool}
    (hready : ∀ n mine p op, ready mine p op = true → (asker.machine n mine).Enabled p op)
    {labels : List ((i : Party) × i.Label ω ρ)}
    (h : asker.after outlet lastid key w ready labels = some s) :
    (asker.network outlet lastid key w).system.Reachable s := by
  refine System.Reachable.follow (fun s l s' hstep => ?_) (.start ?_) h
  · exact Network.step_of_tryStep (fun i p l p' hp => partyNext_step hready hp) hstep
  · refine ⟨?_, fun _ => rfl, fun _ => rfl⟩
    intro i
    cases i with
    | asker i => rfl
    | device d => rfl
    | rep j => rfl

end Compute

end Asker

end GridMq.ReqRep
