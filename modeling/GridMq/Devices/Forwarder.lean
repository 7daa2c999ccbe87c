import GridMq.Protocols.PipeJournals
import GridMq.ReqRep.RepBoxes
import GridMq.ReqRep.XrepKeys

set_option autoImplicit false

/-!
# A device between two raw sockets (`src/devices/device.c`)

`grid_device_twoway` takes requests from a raw REP socket and passes them on through a raw REQ
socket, and takes the replies the other way; or it does so between a raw RESPONDENT and a raw
SURVEYOR socket.  A raw RESPONDENT socket is a raw REP socket.
-/

namespace GridMq.Devices

open GridMq.Core GridMq.Library GridMq.Protocols GridMq.ReqRep

/-! ## The socket that requests are passed on with -/

/-- A type of raw sockets that requests are passed on with.  `Boxed` is what a condition on the
messages that arrive, and one on those that are sent, makes of the messages on the pipes. -/
structure Outlet (δ : Type) where
  init : δ
  next : δ → PipeOp → Except Abort δ
  events : δ → Bool × Bool
  send : δ → Msg → Except Abort (δ × Bool)
  recv : δ → Except Abort (δ × Option Msg)
  outbox : δ → Nat → List (List UInt8)
  Boxed : (Nat → List UInt8 → Prop) → (Nat → List UInt8 → Prop) → δ → Prop

/-- The socket sends what it is given and receives what arrived, split behind one word. -/
structure Outlet.Passes {δ : Type} (outlet : Outlet δ) : Prop where
  init : ∀ In Out, outlet.Boxed In Out outlet.init
  mono : ∀ {In In' Out Out' d}, outlet.Boxed In Out d → (∀ p wire, In p wire → In' p wire) →
    (∀ p wire, Out p wire → Out' p wire) → outlet.Boxed In' Out' d
  next : ∀ {In Out d d' op}, outlet.Boxed In Out d → outlet.next d op = .ok d' →
    (∀ p wire, op.arrival = some (p, wire) → In p wire) → outlet.Boxed In Out d'
  send : ∀ {In Out d r msg}, outlet.Boxed In Out d → (∀ p, Out p msg.wire) →
    outlet.send d msg = .ok r → outlet.Boxed In Out r.1
  recv : ∀ {In Out d r}, outlet.Boxed In Out d → outlet.recv d = .ok r →
    outlet.Boxed In Out r.1 ∧
      ∀ msg, r.2 = some msg → msg.sphdr.length = 4 ∧ ∃ p, In p msg.wire
  outbox : ∀ {In Out d p wire}, outlet.Boxed In Out d → wire ∈ outlet.outbox d p → Out p wire

/-! ## The device -/

/-- The way of requests, and that of replies. -/
inductive Way where
  | onward
  | back
  deriving DecidableEq

def Way.other : Way → Way
  | .onward => .back
  | .back => .onward

/-- Where the loop is: in `poll`, about to pass a message the first or the second way, or between
the receive and the send of one. -/
inductive Turn where
  | poll
  | pass (first : Bool)
  | holds (first : Bool) (msg : Msg)

def Turn.isPoll : Turn → Bool
  | .poll => true
  | _ => false

/-- The two sockets and the loop between them.  `adds` counts the pipes of the raw REP socket;
`watched` says for each way which of the two descriptors are still polled, that of the socket that
messages come from and that of the one that they go to. -/
structure Forwarder (δ : Type) where
  up : Xrep
  adds : Nat := 0
  down : δ
  used : List Nat := []
  watched : Way → Bool × Bool := fun _ => (true, true)
  turn : Turn := .poll

/-- `grid_xrep_events`: IN, and OUT. -/
def xrepEvents (self : Xrep) : Bool × Bool := (self.inpipes.isActive, true)

namespace Forwarder

variable {δ : Type} (outlet : Outlet δ) (order : Way)

/-- Both sockets before anything happens. -/
def init (key : Nat) : Forwarder δ := { up := .init key, down := outlet.init }

/-- What happens to the pipes of the raw REP socket. -/
def upNext (self : Forwarder δ) : PipeOp → Except Abort (Forwarder δ)
  | .add p sndprio rcvprio => do
      let up ← self.up.add p sndprio.1 rcvprio.1
      return { self with up := up, adds := self.adds + 1 }
  | .rm p => do
      let up ← self.up.rm p
      return { self with up := up }
  | .arrive p wire => do
      let r ← self.up.receivedMsg p wire
      return { self with up := r.1 }
  | .sent p => do
      let r ← self.up.sentMsg p
      return { self with up := r.1 }
  | .deliver p .pipeIn => do
      let up ← self.up.xrepIn p
      return { self with up := up }
  | .deliver p .pipeOut => do
      let up ← self.up.xrepOut p
      return { self with up := up }

/-- The name that a call gives to a new pipe. -/
def newName : PipeOp → Option Nat
  | .add p _ _ => some p
  | _ => none

/-- What happens to the pipes of the socket that requests are passed on with. -/
def downNext (self : Forwarder δ) (op : PipeOp) : Except Abort (Forwarder δ) := do
  let down ← outlet.next self.down op
  return { self with down := down, used := (newName op).toList ++ self.used }

/-- The way of a message that is passed first, or second; `order` is the way from the first socket
of the device to the second one. -/
def way (first : Bool) : Way := if first then order else order.other

/-- Where the loop goes on. -/
def after (first : Bool) : Turn := if first then .pass false else .poll

/-- For each way, whether the socket that messages come from is readable and the one that they go
to is writable. -/
def signalled (self : Forwarder δ) : Way → Bool × Bool
  | .onward => ((xrepEvents self.up).1, (outlet.events self.down).2)
  | .back => ((outlet.events self.down).1, (xrepEvents self.up).2)

/-- `poll` returned: what was reported is not polled any more. -/
def polled (self : Forwarder δ) (revents : Way → Bool × Bool) : Forwarder δ :=
  { self with
    watched := fun w =>
      ((self.watched w).1 && !(revents w).1, (self.watched w).2 && !(revents w).2)
    turn := .pass true }

/-- `grid_recvmsg` of the socket that messages come from; `none` is `-EAGAIN`. -/
def recv (self : Forwarder δ) : Way → Except Abort (Forwarder δ × Option Msg)
  | .onward => do
      let r ← self.up.recv
      return ({ self with up := r.1 }, r.2.map fun e => e.2.2)
  | .back => do
      let r ← outlet.recv self.down
      return ({ self with down := r.1 }, r.2)

/-- `grid_sendmsg` to the socket that messages go to; `false` is `-EAGAIN`. -/
def send (self : Forwarder δ) (msg : Msg) : Way → Except Abort (Forwarder δ × Bool)
  | .onward => do
      let r ← outlet.send self.down msg
      return ({ self with down := r.1 }, r.2)
  | .back => do
      let up ← self.up.send msg
      return ({ self with up := up }, true)

/-- The loop of `grid_device_twoway` goes on after `poll`, with `grid_device_mvmsg` cut in two.
The calls do not wait, and their failure is asserted not to happen. -/
def goOn (self : Forwarder δ) : Except Abort (Forwarder δ) :=
  match self.turn with
  | .poll => .ok self
  | .pass first =>
      if self.watched (way order first) = (false, false) then do
        let r ← self.recv outlet (way order first)
        match r.2 with
        | none => .error .assertion
        | some msg => return { r.1 with turn := .holds first msg }
      else .ok { self with turn := after first }
  | .holds first msg => do
      let r ← self.send outlet msg (way order first)
      gridAssert (r.2 = true)
      return { r.1 with
        watched := Function.update r.1.watched (way order first) (true, true)
        turn := after first }

/-- What happens to a device. -/
inductive Op where
  | up (op : PipeOp)
  | down (op : PipeOp)
  | poll (revents : Way → Bool × Bool)
  | goOn

/-- The transports and the system keep to this.  A pipe of the raw REP socket is named by the
number of pipes added before it; `mine` and `below` say which pipes the sockets may be given. -/
def Enabled (mine below : Nat → Bool) (self : Forwarder δ) : Op → Prop
  | .up (.add p _ _) => p = self.adds ∧ mine p = true
  | .up (.deliver p .pipeOut) => ∃ data, self.up.pipes p = some data ∧ data.pipe.outstate = .idle
  | .up _ => True
  | .down op => ∀ p, newName op = some p → below p = true ∧ p ∉ self.used
  | .poll revents => self.turn.isPoll = true ∧
      (∃ w, (revents w).1 = true ∨ (revents w).2 = true) ∧
      ∀ w, ((revents w).1 = true → (self.watched w).1 = true ∧ (self.signalled outlet w).1 = true) ∧
        ((revents w).2 = true → (self.watched w).2 = true ∧ (self.signalled outlet w).2 = true)
  | .goOn => self.turn.isPoll = false

/-- A check for `Enabled`. -/
def ready (mine below : Nat → Bool) (self : Forwarder δ) : Op → Bool
  | .up (.add p _ _) => decide (p = self.adds) && mine p
  | .up (.deliver p .pipeOut) =>
      (self.up.pipes p).any fun data => decide (data.pipe.outstate = .idle)
  | .up _ => true
  | .down op => (newName op).all fun p => below p && !self.used.contains p
  | .poll revents => self.turn.isPoll &&
      ([Way.onward, .back].any fun w => (revents w).1 || (revents w).2) &&
      [Way.onward, .back].all fun w =>
        (!(revents w).1 || (self.watched w).1 && (self.signalled outlet w).1) &&
        (!(revents w).2 || (self.watched w).2 && (self.signalled outlet w).2)
  | .goOn => !self.turn.isPoll

theorem enabled_of_ready {mine below : Nat → Bool} {self : Forwarder δ} {op : Op}
    (h : self.ready outlet mine below op = true) : self.Enabled outlet mine below op := by
  cases op with
  | up op =>
      cases op with
      | add p sndprio rcvprio => simpa [ready, Enabled] using h
      | deliver p e =>
          cases e with
          | pipeIn => trivial
          | pipeOut =>
              obtain ⟨data, hdata, hidle⟩ := (Option.any_eq_true _ _).mp h
              exact ⟨data, hdata, of_decide_eq_true hidle⟩
      | _ => trivial
  | down op =>
      intro p hp
      simp only [ready, hp] at h
      simpa using h
  | poll revents =>
      simp only [ready, Bool.and_eq_true, List.any_eq_true, List.all_eq_true] at h
      obtain ⟨⟨hpoll, w, -, hw⟩, hall⟩ := h
      refine ⟨hpoll, ⟨w, by simpa using hw⟩, ?_⟩
      intro w
      have hmem : w ∈ [Way.onward, .back] := by cases w <;> simp
      obtain ⟨hrcv, hsnd⟩ := hall w hmem
      constructor
      · intro hr
        simpa [hr] using hrcv
      · intro hr
        simpa [hr] using hsnd
  | goOn => simpa [ready, Enabled] using h

/-- One step. -/
def next (self : Forwarder δ) : Op → Except Abort (Forwarder δ)
  | .up op => self.upNext op
  | .down op => self.downNext outlet op
  | .poll revents => .ok (self.polled revents)
  | .goOn => self.goOn outlet order

/-- What was given to a pipe of the raw REP socket so far. -/
def upBox (self : Forwarder δ) (p : Nat) : List (List UInt8) :=
  match self.up.pipes p with
  | none => []
  | some data => data.pipe.session.outbox

/-- What a step gave to the pipes, on either side. -/
abbrev Gave := List (Nat × List UInt8) × List (Nat × List UInt8)

/-- A step as it is seen from outside. -/
abbrev Seen := Op × Gave

/-- A device from its start on.  The sockets are not used by anyone else. -/
def machine (key : Nat) (mine below : Nat → Bool) : Machine (Forwarder δ) Op Gave Abort where
  init := init outlet key
  Enabled := Enabled outlet mine below
  next s op := do
    let s' ← s.next outlet order op
    return (s', newlyGiven (List.range s'.adds) s.upBox s'.upBox,
      newlyGiven s'.used (outlet.outbox s.down) (outlet.outbox s'.down))

/-- The request that arrives in a step. -/
def asked : Seen → Option (Nat × List UInt8)
  | (.up op, _) => op.arrival
  | _ => none

/-- The reply that arrives in a step. -/
def answered : Seen → Option (Nat × List UInt8)
  | (.down op, _) => op.arrival
  | _ => none

/-! ## Where the messages come from -/

/-- A request that arrived at the raw REP socket, with the key of its pipe in front. -/
def Passed (first adds : Nat) (labels : List Seen) (wire : List UInt8) : Prop :=
  ∃ p request req, p < adds ∧ (p, request) ∈ labels.filterMap asked ∧
    xrepSplit request = some req ∧ wire = putl (Xrep.keyOf first p) ++ request

/-- A reply that arrived under the key of a pipe of the raw REP socket. -/
def Brought (first adds : Nat) (labels : List Seen) (p : Nat) (wire : List UInt8) : Prop :=
  p < adds ∧ ∃ q, (q, putl (Xrep.keyOf first p) ++ wire) ∈ labels.filterMap answered

/-- What the loop holds has arrived. -/
def Carries (first adds : Nat) (labels : List Seen) (msg : Msg) : Way → Prop
  | .onward => Passed first adds labels msg.wire
  | .back => msg.sphdr.length = 4 ∧ ∃ q, (q, msg.wire) ∈ labels.filterMap answered

/-- What waits on the pipes has arrived by now, and what was given to them, or is held, had
arrived earlier. -/
structure Sourced (first : Nat) (now earlier : List Seen) (s : Forwarder δ) : Prop where
  keyed : s.up.Keyed first s.adds
  up : s.up.Boxed (fun p wire => (p, wire) ∈ now.filterMap asked) (Brought first s.adds earlier)
  down : outlet.Boxed (fun p wire => (p, wire) ∈ now.filterMap answered)
    (fun _ => Passed first s.adds earlier) s.down
  held : ∀ b msg, s.turn = .holds b msg → Carries first s.adds earlier msg (way order b)

variable {outlet order} {first adds adds' : Nat} {labels now now' earlier earlier' : List Seen}
  {s s' : Forwarder δ}

theorem Passed.mono {wire : List UInt8} (h : Passed first adds earlier wire) (hle : adds ≤ adds')
    (hearlier : earlier <+: earlier') : Passed first adds' earlier' wire := by
  obtain ⟨p, request, req, hp, harrived, hsplit, hwire⟩ := h
  exact ⟨p, request, req, by omega, (hearlier.filterMap asked).subset harrived, hsplit, hwire⟩

theorem Brought.mono {p : Nat} {wire : List UInt8} (h : Brought first adds earlier p wire)
    (hle : adds ≤ adds') (hearlier : earlier <+: earlier') :
    Brought first adds' earlier' p wire := by
  obtain ⟨hp, q, harrived⟩ := h
  exact ⟨by omega, q, (hearlier.filterMap answered).subset harrived⟩

theorem Carries.mono {msg : Msg} {w : Way} (h : Carries first adds earlier msg w)
    (hle : adds ≤ adds') (hearlier : earlier <+: earlier') :
    Carries first adds' earlier' msg w := by
  cases w with
  | onward => exact Passed.mono h hle hearlier
  | back =>
      obtain ⟨hlen, q, harrived⟩ := h
      exact ⟨hlen, q, (hearlier.filterMap answered).subset harrived⟩

/-- As time goes by. -/
theorem Sourced.mono (h : Sourced outlet order first now earlier s) (hpasses : outlet.Passes)
    (hnow : now <+: now') (hearlier : earlier <+: earlier') :
    Sourced outlet order first now' earlier' s where
  keyed := h.keyed
  up p data hp := (h.up p data hp).mono (fun _ hw => (hnow.filterMap asked).subset hw)
    fun _ hw => hw.mono (Nat.le_refl _) hearlier
  down := hpasses.mono h.down (fun _ _ hw => (hnow.filterMap answered).subset hw)
    fun _ _ hw => hw.mono (Nat.le_refl _) hearlier
  held b msg hturn := (h.held b msg hturn).mono (Nat.le_refl _) hearlier

/-- The pipes of the raw REP socket change, and nothing else. -/
theorem Sourced.pipes {up : Xrep} (h : Sourced outlet order first now earlier s)
    (hkeyed : up.Keyed first s.adds)
    (hup : up.Boxed (fun p wire => (p, wire) ∈ now.filterMap asked)
      (Brought first s.adds earlier)) :
    Sourced outlet order first now earlier { s with up := up } :=
  ⟨hkeyed, hup, h.down, h.held⟩

theorem Sourced.upNext {op : PipeOp} {mine below : Nat → Bool}
    (h : Sourced outlet order first now earlier s) (hpasses : outlet.Passes)
    (hen : s.Enabled outlet mine below (.up op)) (hcall : s.upNext op = .ok s')
    (harrival : ∀ p wire, op.arrival = some (p, wire) → (p, wire) ∈ now.filterMap asked) :
    Sourced outlet order first now earlier s' ∧ s.adds ≤ s'.adds := by
  cases op with
  | add p sndprio rcvprio =>
      obtain ⟨rfl, -⟩ := hen
      obtain ⟨up, hadd, hret⟩ := bind_eq_ok_iff.mp hcall
      obtain rfl := Except.ok.inj hret
      have hle : s.adds ≤ s.adds + 1 := Nat.le_succ _
      refine ⟨⟨(h.keyed.add hadd).1, ?_, ?_, ?_⟩, hle⟩
      · intro q data hq
        exact (h.up.add hadd q data hq).mono (fun _ hw => hw)
          fun _ hw => hw.mono hle (List.prefix_refl _)
      · exact hpasses.mono h.down (fun _ _ hw => hw)
          fun _ _ hw => hw.mono hle (List.prefix_refl _)
      · intro b msg hturn
        exact (h.held b msg hturn).mono hle (List.prefix_refl _)
  | rm p =>
      obtain ⟨up, hrm, hret⟩ := bind_eq_ok_iff.mp hcall
      obtain rfl := Except.ok.inj hret
      exact ⟨h.pipes (h.keyed.rm hrm).1 (h.up.rm hrm), Nat.le_refl _⟩
  | arrive p wire =>
      obtain ⟨r, hreceived, hret⟩ := bind_eq_ok_iff.mp hcall
      obtain rfl := Except.ok.inj hret
      exact ⟨h.pipes (h.keyed.receivedMsg hreceived).1
        (h.up.receivedMsg (harrival p wire rfl) hreceived), Nat.le_refl _⟩
  | sent p =>
      obtain ⟨r, hsent, hret⟩ := bind_eq_ok_iff.mp hcall
      obtain rfl := Except.ok.inj hret
      exact ⟨h.pipes (h.keyed.sentMsg hsent).1 (h.up.sentMsg hsent), Nat.le_refl _⟩
  | deliver p e =>
      cases e with
      | pipeIn =>
          obtain ⟨up, hin, hret⟩ := bind_eq_ok_iff.mp hcall
          obtain rfl := Except.ok.inj hret
          exact ⟨h.pipes (h.keyed.xrepIn hin).1 (h.up.xrepIn hin), Nat.le_refl _⟩
      | pipeOut =>
          obtain ⟨up, hout, hret⟩ := bind_eq_ok_iff.mp hcall
          obtain rfl := Except.ok.inj hret
          exact ⟨h.pipes (h.keyed.xrepOut hout hen).1 (h.up.xrepOut hout), Nat.le_refl _⟩

/-- A message that is received has arrived before. -/
theorem Sourced.recv {r : Forwarder δ × Option Msg} {w : Way}
    (h : Sourced outlet order first earlier earlier s) (hpasses : outlet.Passes)
    (hcall : s.recv outlet w = .ok r) :
    Sourced outlet order first earlier earlier r.1 ∧ r.1.adds = s.adds ∧
      ∀ msg, r.2 = some msg → Carries first s.adds earlier msg w := by
  cases w with
  | onward =>
      obtain ⟨t, hrecv, hret⟩ := bind_eq_ok_iff.mp hcall
      obtain rfl := Except.ok.inj hret
      obtain ⟨hkeyed, -, hrequest⟩ := h.keyed.recv hrecv
      obtain ⟨hup, hin⟩ := h.up.recv hrecv
      refine ⟨h.pipes hkeyed hup, rfl, ?_⟩
      intro msg hmsg
      obtain ⟨⟨p, wire, msg'⟩, hsome, rfl⟩ := Option.map_eq_some_iff.mp hmsg
      obtain ⟨hlt, -, req, hsplit, rfl⟩ := hrequest p wire msg' hsome
      refine ⟨p, wire, req, hlt, hin p wire _ hsome, hsplit, ?_⟩
      rw [← xrepSplit_wire hsplit]
      exact List.append_assoc _ _ _
  | back =>
      obtain ⟨t, hrecv, hret⟩ := bind_eq_ok_iff.mp hcall
      obtain rfl := Except.ok.inj hret
      obtain ⟨hdown, hmsg⟩ := hpasses.recv h.down hrecv
      exact ⟨⟨h.keyed, h.up, hdown, h.held⟩, rfl, hmsg⟩

/-- A message that arrived is sent. -/
theorem Sourced.send {msg : Msg} {r : Forwarder δ × Bool} {w : Way}
    (h : Sourced outlet order first now earlier s) (hpasses : outlet.Passes)
    (hmsg : Carries first s.adds earlier msg w) (hcall : s.send outlet msg w = .ok r) :
    Sourced outlet order first now earlier r.1 ∧ r.1.adds = s.adds := by
  cases w with
  | onward =>
      obtain ⟨t, hsend, hret⟩ := bind_eq_ok_iff.mp hcall
      obtain rfl := Except.ok.inj hret
      exact ⟨⟨h.keyed, h.up, hpasses.send h.down (fun _ => hmsg) hsend, h.held⟩, rfl⟩
  | back =>
      obtain ⟨up, hsend, hret⟩ := bind_eq_ok_iff.mp hcall
      obtain rfl := Except.ok.inj hret
      refine ⟨h.pipes (RawRep.keyed_send h.keyed hsend) (h.up.send ?_ hsend), rfl⟩
      intro q hq _
      obtain ⟨hlen, p, harrived⟩ := hmsg
      obtain ⟨hlt, hkey⟩ := h.keyed.key_of_get hq
      refine ⟨hlt, p, ?_⟩
      -- the whole header is the key
      have hnil : msg.sphdr.drop 4 = [] := List.drop_of_length_le (by omega)
      rw [← hkey, putl_getl hlen]
      simpa [Msg.wire, hnil] using harrived

/-- What a step keeps: what it gives to the pipes had arrived before. -/
theorem Sourced.step {op : Op} {mine below : Nat → Bool} (gave : Gave)
    (h : Sourced outlet order first labels labels s) (hpasses : outlet.Passes)
    (hen : s.Enabled outlet mine below op) (hcall : s.next outlet order op = .ok s') :
    Sourced outlet order first (labels ++ [(op, gave)]) labels s' ∧ s.adds ≤ s'.adds := by
  have hlater : labels <+: labels ++ [(op, gave)] := List.prefix_append _ _
  have hnow := h.mono hpasses hlater (List.prefix_refl labels)
  cases op with
  | up op =>
      refine hnow.upNext hpasses hen hcall ?_
      intro p wire hop
      rw [List.filterMap_append]
      exact List.mem_append_right _ (List.mem_filterMap.mpr ⟨_, List.mem_singleton_self _, hop⟩)
  | down op =>
      obtain ⟨down, hdown, hret⟩ := bind_eq_ok_iff.mp hcall
      obtain rfl := Except.ok.inj hret
      refine ⟨⟨hnow.keyed, hnow.up, hpasses.next hnow.down hdown ?_, hnow.held⟩, Nat.le_refl _⟩
      intro p wire hop
      rw [List.filterMap_append]
      exact List.mem_append_right _ (List.mem_filterMap.mpr ⟨_, List.mem_singleton_self _, hop⟩)
  | poll revents =>
      obtain rfl := Except.ok.inj hcall
      exact ⟨⟨hnow.keyed, hnow.up, hnow.down, fun b msg hturn => absurd hturn (by simp [polled])⟩,
        Nat.le_refl _⟩
  | goOn =>
      simp only [next, Forwarder.goOn] at hcall
      split at hcall
      · obtain rfl := Except.ok.inj hcall
        exact ⟨hnow, Nat.le_refl _⟩
      · rename_i b hturn
        split at hcall
        · obtain ⟨r, hrecv, hret⟩ := bind_eq_ok_iff.mp hcall
          obtain ⟨hs, hadds, hmsg⟩ := h.recv hpasses hrecv
          cases hr : r.2 with
          | none =>
              simp only [hr] at hret
              exact absurd hret (by simp)
          | some msg =>
              simp only [hr] at hret
              obtain rfl := Except.ok.inj hret
              have hs' := hs.mono hpasses hlater (List.prefix_refl labels)
              refine ⟨⟨hs'.keyed, hs'.up, hs'.down, ?_⟩, hadds.ge⟩
              intro b' msg' hturn'
              obtain ⟨rfl, rfl⟩ := Turn.holds.inj hturn'
              change Carries first r.1.adds labels msg (way order b)
              rw [hadds]
              exact hmsg msg hr
        · obtain rfl := Except.ok.inj hcall
          refine ⟨⟨hnow.keyed, hnow.up, hnow.down, fun b' msg hturn' => absurd hturn' ?_⟩,
            Nat.le_refl _⟩
          cases b <;> simp [after]
      · rename_i b msg hturn
        obtain ⟨r, hsend, hret⟩ := bind_eq_ok_iff.mp hcall
        obtain ⟨_, -, hret⟩ := bind_eq_ok_iff.mp hret
        obtain rfl := Except.ok.inj hret
        obtain ⟨hs, hadds⟩ := hnow.send hpasses (hnow.held b msg hturn) hsend
        refine ⟨⟨hs.keyed, hs.up, hs.down, fun b' msg hturn' => absurd hturn' ?_⟩, hadds.ge⟩
        cases b <;> simp [after]

end Forwarder

end GridMq.Devices
