import GridMq.Survey.Respondent
import GridMq.Survey.Xsurveyor

set_option autoImplicit false

/-!
# The way back through a chain of forwarders

A forwarder receives from a raw REP or RESPONDENT socket, sends header and body on
through a raw REQ or SURVEYOR socket, and passes replies in the other direction.  A
request collects the keys of the pipes it came in on; a reply loses them one by one.

Nothing is assumed about what the sockets do between the request and the reply, only
that the pipes are still attached and ready when the reply comes back.
-/

namespace GridMq.Devices

open GridMq.Core GridMq.Protocols GridMq.ReqRep GridMq.Survey

/-! ## The two sides of a forwarder -/

/-- A socket that requests come in on. -/
inductive Upstream where
  | xrep (s : Xrep)
  | xrespondent (s : Xrespondent)

/-- A socket that requests are forwarded with. -/
inductive Downstream where
  | xreq (s : Xreq)
  | xsurveyor (s : Xsurveyor)

namespace Upstream

/-- The pipes and their keys. -/
def raw : Upstream → Xrep
  | xrep s => s
  | xrespondent s => s

def send : Upstream → Msg → Except Abort Xrep
  | xrep s, msg => s.send msg
  | xrespondent s, msg => Xrespondent.send s msg

def recv : Upstream → Except Abort (Xrep × Option (Nat × List UInt8 × Msg))
  | xrep s => s.recv
  | xrespondent s => Xrespondent.recv s

theorem send_eq (up : Upstream) (msg : Msg) : up.send msg = up.raw.send msg := by
  cases up with
  | xrep s => rfl
  | xrespondent s => rfl

theorem recv_eq (up : Upstream) : up.recv = up.raw.recv := by
  cases up with
  | xrep s => rfl
  | xrespondent s => rfl

end Upstream

/-- What was sent on a pipe, if it is attached. -/
def outboxOf {α : Type} : Option (Pipe (Session α)) → List (List UInt8)
  | none => []
  | some pipe => pipe.session.outbox

namespace Downstream

def send : Downstream → Msg → Except Abort Downstream
  | xreq s, msg => do
      let r ← s.sendTo msg
      return xreq r.1
  | xsurveyor s, msg => do
      let s ← s.send msg
      return xsurveyor s

def recv : Downstream → Except Abort (Downstream × Option Msg)
  | xreq s => do
      let r ← s.recv
      return (xreq r.1, r.2)
  | xsurveyor s => do
      let r ← s.recv
      return (xsurveyor r.1, r.2)

/-- What was sent on a pipe. -/
def outbox : Downstream → Nat → List (List UInt8)
  | xreq s, p => outboxOf (s.pipes p)
  | xsurveyor s, p => outboxOf (s.pipes p)

/-- The fair queue hands over a message. -/
inductive Takes (wire : List UInt8) : Downstream → Downstream → Prop where
  | xreq {s s' : Xreq} {a : Arrival} (h : s.fqRecv = .ok (s', some a)) (hwire : a.wire = wire) :
      Takes wire (.xreq s) (.xreq s')
  | xsurveyor {s s' : Xsurveyor} (h : s.fqRecv = .ok (s', some wire)) :
      Takes wire (.xsurveyor s) (.xsurveyor s')

end Downstream

/-! ## One forwarder -/

/-- The pipe a request came in on, and its key. -/
structure Hop where
  pipe : Nat
  key : Nat
  deriving DecidableEq, Repr

/-- A message is received from the pipe of the hop. -/
def Hop.Receives (hop : Hop) (wire : List UInt8) (msg : Msg) : Prop :=
  ∃ (up : Upstream) (x : Xrep) (data : XrepData), up.raw.pipes hop.pipe = some data ∧
    data.key = hop.key ∧ up.recv = .ok (x, some (hop.pipe, wire, msg))

/-- A request comes in on the pipe of the hop as some bytes, and leaves on some pipe. -/
def Hop.Forwards (hop : Hop) (wire wire' : List UInt8) : Prop :=
  ∃ (msg : Msg) (down down' : Downstream) (q : Nat), hop.Receives wire msg ∧
    down.send msg = .ok down' ∧ down'.outbox q = down.outbox q ++ [wire']

/-- A message leaves on the pipe of the hop, and on no other, whenever that pipe is
attached and ready. -/
def Hop.Delivers (hop : Hop) (msg : Msg) (wire : List UInt8) : Prop :=
  ∀ (up : Upstream) (data : XrepData), up.raw.Serves hop.pipe hop.key data →
    ∃ x, up.send msg = .ok x ∧ up.raw.Delivered x hop.pipe wire

/-- A reply that comes back to the forwarder leaves on the pipe of the hop. -/
def Hop.Returns (hop : Hop) (wire wire' : List UInt8) : Prop :=
  ∀ down down', Downstream.Takes wire down down' →
    ∃ msg, down.recv = .ok (down', some msg) ∧ hop.Delivers msg wire'

/-! ## The chain -/

/-- A request passes the forwarders one after the other. -/
inductive Asked : List Hop → List UInt8 → List UInt8 → Prop where
  | nil (wire : List UInt8) : Asked [] wire wire
  | cons {hop : Hop} {hops : List Hop} {w w₁ w₂ : List UInt8} (first : hop.Forwards w w₁)
      (rest : Asked hops w₁ w₂) : Asked (hop :: hops) w w₂

/-- A reply passes the forwarders in reverse order. -/
inductive Returned : List Hop → List UInt8 → List UInt8 → Prop where
  | nil (wire : List UInt8) : Returned [] wire wire
  | cons {hop : Hop} {hops : List Hop} {w w₁ w₂ : List UInt8} (rest : Returned hops w w₁)
      (last : hop.Returns w₁ w₂) : Returned (hop :: hops) w w₂

/-- The keys of the hops, the last one first. -/
def way : List Hop → List UInt8
  | [] => []
  | hop :: hops => way hops ++ putl hop.key

/-! ## What one forwarder does -/

/-- A request is received with the key of its pipe in front. -/
theorem Hop.Receives.msg_eq {hop : Hop} {wire : List UInt8} {msg : Msg}
    (h : hop.Receives wire msg) : ∃ req, xrepSplit wire = some req ∧
      msg = { req with sphdr := putl hop.key ++ req.sphdr } := by
  obtain ⟨up, x, data, hp, hkey, hrecv⟩ := h
  obtain ⟨-, data', req, hp', hsplit, rfl⟩ := Xrep.recv_some (up.recv_eq.symm.trans hrecv)
  obtain rfl := Option.some.inj (hp.symm.trans hp')
  exact ⟨req, hsplit, by rw [hkey]⟩

/-- A pipe was sent on. -/
theorem outboxOf_update {α : Type} {pipes : Nat → Option (Pipe (Session α))} {p : Nat}
    {pipe pipe' : Pipe (Session α)} {wire : List UInt8} (hp : pipes p = some pipe)
    (hbox : pipe'.session.outbox = pipe.session.outbox ++ [wire]) (q : Nat) :
    ∃ n, outboxOf (if q = p then some pipe' else pipes q) =
      outboxOf (pipes q) ++ List.replicate n wire := by
  by_cases hq : q = p
  · refine ⟨1, ?_⟩
    rw [if_pos hq, hq, hp]
    exact hbox
  · refine ⟨0, ?_⟩
    rw [if_neg hq]
    exact (List.append_nil _).symm

/-- What a raw REQ socket sends is the message. -/
theorem xreq_outbox {s s' : Xreq} {o : Option Nat} {msg : Msg}
    (h : s.sendTo msg = .ok (s', o)) (q : Nat) :
    ∃ n, outboxOf (s'.pipes q) = outboxOf (s.pipes q) ++ List.replicate n msg.wire := by
  obtain ⟨cur, -, h⟩ := bind_eq_ok_iff.mp h
  cases cur with
  | none =>
      obtain ⟨rfl, -⟩ := Prod.mk.inj (Except.ok.inj h)
      exact ⟨0, (List.append_nil _).symm⟩
  | some d =>
      obtain ⟨pipe, hpipe, h⟩ := bind_eq_ok_iff.mp h
      obtain ⟨r, hsend, h⟩ := bind_eq_ok_iff.mp h
      obtain ⟨lb, -, h⟩ := bind_eq_ok_iff.mp h
      obtain ⟨rfl, -⟩ := Prod.mk.inj (Except.ok.inj h)
      exact outboxOf_update (Xreq.getPipe_eq_ok hpipe) (Pipe.send_outbox hsend) q

/-- What a raw SURVEYOR socket sends, on however many pipes, is the message. -/
theorem xsurveyor_outbox {s s' : Xsurveyor} {msg : Msg} (h : s.send msg = .ok s') (q : Nat) :
    ∃ n, outboxOf (s'.pipes q) = outboxOf (s.pipes q) ++ List.replicate n msg.wire := by
  obtain ⟨r, hdist, hret⟩ := bind_eq_ok_iff.mp h
  obtain rfl := Except.ok.inj hret
  refine Dist.send_induction (R := fun s s' : Xsurveyor => ∃ n, outboxOf (s'.pipes q) =
    outboxOf (s.pipes q) ++ List.replicate n msg.wire) ?_ ?_ hdist
  · exact fun s => ⟨0, (List.append_nil _).symm⟩
  · rintro s p r s' hsend ⟨n, hn⟩
    obtain ⟨pipe, hpipe, hrest⟩ := bind_eq_ok_iff.mp hsend
    obtain ⟨r', hsend', hret⟩ := bind_eq_ok_iff.mp hrest
    obtain rfl := Except.ok.inj hret
    obtain ⟨m, hm⟩ :=
      outboxOf_update (Xsurveyor.getPipe_eq_ok hpipe) (Pipe.send_outbox hsend') q
    refine ⟨m + n, ?_⟩
    rw [hn, List.replicate_add, ← List.append_assoc, ← hm]
    rfl

theorem Downstream.send_outbox {down down' : Downstream} {msg : Msg}
    (h : down.send msg = .ok down') (q : Nat) :
    ∃ n, down'.outbox q = down.outbox q ++ List.replicate n msg.wire := by
  cases down with
  | xreq s =>
      obtain ⟨r, hsend, hret⟩ := bind_eq_ok_iff.mp h
      obtain rfl := Except.ok.inj hret
      exact xreq_outbox hsend q
  | xsurveyor s =>
      obtain ⟨s', hsend, hret⟩ := bind_eq_ok_iff.mp h
      obtain rfl := Except.ok.inj hret
      exact xsurveyor_outbox hsend q

/-- A forwarder puts the key of the pipe in front of the request. -/
theorem Hop.Forwards.wire_eq {hop : Hop} {w w' : List UInt8} (h : hop.Forwards w w') :
    w' = putl hop.key ++ w := by
  obtain ⟨msg, down, down', q, hrecv, hsend, hbox⟩ := h
  obtain ⟨req, hsplit, rfl⟩ := hrecv.msg_eq
  obtain ⟨n, hn⟩ := Downstream.send_outbox hsend q
  have hone : List.replicate n (Msg.wire { req with sphdr := putl hop.key ++ req.sphdr }) = [w'] :=
    List.append_cancel_left (hn.symm.trans hbox)
  obtain rfl : n = 1 := by simpa using congrArg List.length hone
  obtain rfl := (List.cons.inj hone).1
  rw [← xrepSplit_wire hsplit]
  exact List.append_assoc _ _ _

/-- What a downstream socket receives is split behind the first word. -/
theorem Downstream.Takes.recv {word rest : List UInt8} {down down' : Downstream}
    (h : Takes (word ++ rest) down down') (hlen : word.length = 4) :
    down.recv = .ok (down', some { sphdr := word, body := rest }) := by
  cases h with
  | xreq h hwire =>
      simp only [Downstream.recv, Xreq.recv, h, hwire, ok_bind, pure_eq_ok,
        xreqSplit_append hlen]
  | xsurveyor h =>
      simp only [Downstream.recv, Xsurveyor.recv, h, ok_bind, pure_eq_ok, xreqSplit_append hlen]

/-- A reply whose header begins with the key of the hop leaves on its pipe, without it. -/
theorem Hop.delivers (hop : Hop) (hkey : hop.key < 2 ^ 31) (stack body : List UInt8) :
    hop.Delivers { sphdr := putl hop.key ++ stack, body := body } (stack ++ body) := by
  intro up data hserves
  have hsend := hserves.send (by omega) stack body
  exact ⟨_, (up.send_eq _).trans hsend, Xrep.delivered_setData hserves.attached rfl⟩

/-- A forwarder takes the key of the pipe off the reply. -/
theorem Hop.returns (hop : Hop) (hkey : hop.key < 2 ^ 31) (wire : List UInt8) :
    hop.Returns (putl hop.key ++ wire) wire := by
  intro down down' htakes
  refine ⟨_, htakes.recv (length_putl hop.key), ?_⟩
  have hdel := hop.delivers hkey [] wire
  rwa [List.append_nil] at hdel

/-! ## What the chain does -/

theorem Asked.wire_eq {hops : List Hop} {w w' : List UInt8} (h : Asked hops w w') :
    w' = way hops ++ w := by
  induction h with
  | nil w => rfl
  | cons first rest ih => rw [ih, first.wire_eq, way, List.append_assoc]

/-- The keys are not the bottom of the stack. -/
theorem xrepSplit_way {hops : List Hop} (hkeys : ∀ hop ∈ hops, hop.key < 2 ^ 31)
    (bytes : List UInt8) : xrepSplit (way hops ++ bytes) =
      (xrepSplit bytes).map fun msg => { msg with sphdr := way hops ++ msg.sphdr } := by
  induction hops generalizing bytes with
  | nil => simp [way]
  | cons hop hops ih =>
      have hkey := hkeys hop List.mem_cons_self
      have htop : topBit (getl (putl hop.key)) = false := by
        have hget := getl_putl (by omega : hop.key < 2 ^ 32) []
        rw [List.append_nil] at hget
        rw [hget, topBit_eq_false_iff (by omega)]
        exact hkey
      rw [way, List.append_assoc, ih fun h hh => hkeys h (List.mem_cons_of_mem _ hh),
        xrepSplit_push (length_putl hop.key) htop, Option.map_map]
      refine congrArg (fun f => Option.map f (xrepSplit bytes)) (funext fun msg => ?_)
      simp

theorem returned_way {hops : List Hop} (hkeys : ∀ hop ∈ hops, hop.key < 2 ^ 31)
    (wire : List UInt8) : Returned hops (way hops ++ wire) wire := by
  induction hops generalizing wire with
  | nil => exact .nil wire
  | cons hop hops ih =>
      rw [way, List.append_assoc]
      exact .cons (ih (fun h hh => hkeys h (List.mem_cons_of_mem _ hh)) _)
        (hop.returns (hkeys hop List.mem_cons_self) wire)

/-- A request that came through any number of forwarders is received with its body
unchanged.  A reply with the header that was received leaves on the pipe the request came in
on, passes the forwarders in reverse order, on those pipes only, and reaches the requester
with the ID of the request as its header and its body unchanged. -/
theorem round_trip {hops : List Hop} {id : Nat} {body arrived : List UInt8}
    (hid : id < 2 ^ 32) (htop : topBit id = true) (hasked : Asked hops (putl id ++ body) arrived)
    {last : Hop} {msg : Msg} (hrecv : last.Receives arrived msg)
    (hkeys : ∀ hop ∈ last :: hops, hop.key < 2 ^ 31) (rbody : List UInt8) :
    msg.body = body ∧ ∃ back, last.Delivers { sphdr := msg.sphdr, body := rbody } back ∧
      Returned hops back (putl id ++ rbody) ∧
      ∀ down down', Downstream.Takes (putl id ++ rbody) down down' →
        down.recv = .ok (down', some { sphdr := putl id, body := rbody }) := by
  have hhops : ∀ hop ∈ hops, hop.key < 2 ^ 31 := fun h hh => hkeys h (List.mem_cons_of_mem _ hh)
  have hget := getl_putl hid []
  rw [List.append_nil] at hget
  have hbottom := xrepSplit_bottom (length_putl id) (by rw [hget]; exact htop) body
  obtain ⟨req, hsplit, rfl⟩ := hrecv.msg_eq
  rw [hasked.wire_eq, xrepSplit_way hhops, hbottom] at hsplit
  obtain rfl := Option.some.inj hsplit
  refine ⟨rfl, way hops ++ putl id ++ rbody, ?_, ?_, fun down down' h => ?_⟩
  · exact last.delivers (hkeys last List.mem_cons_self) (way hops ++ putl id) rbody
  · rw [List.append_assoc]
    exact returned_way hhops _
  · exact h.recv (length_putl id)

/-- A raw REP socket with one message on its only pipe. -/
def holding (key : Nat) (wire : List UInt8) : Xrep where
  nextKey := key + 1
  inpipes := { Priolist.init.setSlot 1 { pipes := [⟨0, 1⟩], current := some ⟨0, 1⟩ } with
    current := some 1 }
  pipes q := if q = 0 then some { key := key, pipe := {
    instate := .idle, sndprio := 1, rcvprio := 1, session := { inbox := [wire] } } } else none

theorem holding_receives (key : Nat) {wire : List UInt8} {req : Msg}
    (hsplit : xrepSplit wire = some req) :
    (Hop.mk 0 key).Receives wire { req with sphdr := putl key ++ req.sphdr } := by
  have hfq : ∃ x data, (holding key wire).fqRecv = .ok (x, some (0, wire)) ∧
      x.pipes 0 = some data ∧ data.key = key := ⟨_, _, rfl, rfl, rfl⟩
  obtain ⟨x, data, hfq, hp, rfl⟩ := hfq
  exact ⟨.xrep (holding data.key wire), x, _, rfl, rfl, Xrep.recv_of_fqRecv hfq hsplit hp⟩

/-- A raw REQ socket whose only pipe is ready. -/
def ready : Xreq where
  pipes q := if q = 0 then some {
    outstate := .idle, sndprio := 1, rcvprio := 1, session := {} } else none
  lb := { Priolist.init.setSlot 1 { pipes := [⟨0, 1⟩], current := some ⟨0, 1⟩ } with
    current := some 1 }

theorem ready_sends (msg : Msg) : ∃ down', (Downstream.xreq ready).send msg = .ok down' ∧
    down'.outbox 0 = (Downstream.xreq ready).outbox 0 ++ [msg.wire] :=
  ⟨_, rfl, rfl⟩

theorem round_trip_one_forwarder : ∃ arrived msg back,
    Asked [⟨0, 5⟩] (putl (setTopBit 1) ++ [97]) arrived ∧ (Hop.mk 0 6).Receives arrived msg ∧
    msg.body = [97] ∧ (Hop.mk 0 6).Delivers { sphdr := msg.sphdr, body := [98] } back ∧
    Returned [⟨0, 5⟩] back (putl (setTopBit 1) ++ [98]) := by
  have hsplit : xrepSplit (putl (setTopBit 1) ++ [97]) =
      some { sphdr := putl (setTopBit 1), body := [97] } := by decide
  have hsplit' : xrepSplit (putl 5 ++ putl (setTopBit 1) ++ [97]) =
      some { sphdr := putl 5 ++ putl (setTopBit 1), body := [97] } := by decide
  obtain ⟨down', hsend, hbox⟩ :=
    ready_sends { sphdr := putl 5 ++ putl (setTopBit 1), body := [97] }
  have hasked : Asked [⟨0, 5⟩] (putl (setTopBit 1) ++ [97])
      (putl 5 ++ putl (setTopBit 1) ++ [97]) :=
    .cons ⟨_, _, down', 0, holding_receives 5 hsplit, hsend, hbox⟩ (.nil _)
  have hrecv := holding_receives 6 hsplit'
  obtain ⟨hbody, back, hdel, hret, -⟩ :=
    round_trip (setTopBit_lt (by decide)) (topBit_setTopBit 1) hasked hrecv (by decide) [98]
  exact ⟨_, _, back, hasked, hrecv, hbody, hdel, hret⟩

end GridMq.Devices
