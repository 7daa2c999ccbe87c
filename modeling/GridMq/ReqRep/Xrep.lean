import GridMq.Core.Session
import GridMq.Protocols.Priolist
import GridMq.Utils.Hash

set_option autoImplicit false

/-!
# The raw REP socket (`src/protocols/reqrep/xrep.c`)

A request is handed over with its way back in front: the key of the pipe it came in
on, then the backtrace stack it arrived with.  A reply leaves through the pipe
whose key is first in its header.

`src/protocols/survey/xrespondent.c` is the same code under other names.
-/

namespace GridMq.ReqRep

open GridMq.Core GridMq.Protocols

/-- `struct grid_xrep_data`, with the pipe it belongs to.  `out` is the flag
`GRID_XREP_OUT`. -/
structure XrepData where
  pipe : Pipe (Session (List UInt8))
  key : Nat
  out : Bool := false

/-- `struct grid_xrep`, with the pipes attached to it. -/
structure Xrep where
  nextKey : Nat
  outpipes : Hash Nat := {}
  inpipes : Priolist := .init
  pipes : Nat → Option XrepData := fun _ => none

/-- The loop of `grid_xrep_recv` over the words of the body: how many of them are the
backtrace stack.  `none` is a request without the bottom of the stack.

The counter of the source is an `int`, which a body of 8 GiB without a bottom would
overflow. -/
def stackWords : List UInt8 → Option Nat
  | b0 :: b1 :: b2 :: b3 :: rest =>
      if topBit (getl [b0, b1, b2, b3]) then some 1
      else (stackWords rest).map fun i => i + 1
  | _ => none

/-- The split of a received message into header and body. -/
def xrepSplit (bytes : List UInt8) : Option Msg :=
  (stackWords bytes).map fun i => { sphdr := bytes.take (i * 4), body := bytes.drop (i * 4) }

namespace Xrep

/-- `grid_xrep_init`, from a random key. -/
def init (key : Nat) : Xrep := { nextKey := key % 2 ^ 32 }

/-- A pipe that is followed has to be attached. -/
def getData (self : Xrep) (p : Nat) : Except Abort XrepData :=
  match self.pipes p with
  | none => .error .nullPointer
  | some data => .ok data

def setData (self : Xrep) (p : Nat) (data : Option XrepData) : Xrep :=
  { self with pipes := fun q => if q = p then data else self.pipes q }

/-- `grid_pipebase_start` with `grid_xrep_add`. -/
def add (self : Xrep) (p sndprio rcvprio : Nat) : Except Abort Xrep := do
  gridAssert (1 ≤ rcvprio ∧ rcvprio ≤ 16)
  let key := self.nextKey &&& 0x7fffffff
  let outpipes ← self.outpipes.insert key p
  let self := { self with outpipes := outpipes, nextKey := (self.nextKey + 1) % 2 ^ 32 }
  let pipe : Pipe (Session (List UInt8)) :=
    { sndprio := sndprio, rcvprio := rcvprio, session := {} }
  return self.setData p (some { pipe := pipe.start, key := key })

/-- `grid_pipebase_stop` with `grid_xrep_rm`. -/
def rm (self : Xrep) (p : Nat) : Except Abort Xrep := do
  let data ← self.getData p
  let self := { self with
    inpipes := self.inpipes.rm ⟨p, data.pipe.rcvprio⟩
    outpipes := self.outpipes.erase data.key }
  return self.setData p none

/-- `grid_xrep_in`. -/
def xrepIn (self : Xrep) (p : Nat) : Except Abort Xrep := do
  let data ← self.getData p
  let inpipes ← self.inpipes.activate ⟨p, data.pipe.rcvprio⟩
  return { self with inpipes := inpipes }

/-- `grid_xrep_out`. -/
def xrepOut (self : Xrep) (p : Nat) : Except Abort Xrep := do
  let data ← self.getData p
  return self.setData p (some { data with out := true })

/-- `grid_xrep_send`. -/
def send (self : Xrep) (msg : Msg) : Except Abort Xrep :=
  -- an invalid peer ID is treated as if the peer was non-existent
  if msg.sphdr.length < 4 then .ok self
  else
    let key := getl msg.sphdr
    let msg := { msg with sphdr := msg.sphdr.drop 4 }
    match self.outpipes.get key with
    | none => .ok self
    | some p => do
        let data ← self.getData p
        if !data.out then return self
        else
          let r ← data.pipe.send sessionVfptr msg
          return self.setData p (some { data with
            pipe := r.1, out := if r.2 then false else data.out })

/-- `grid_fq_recv`, with the pipe the message came in on; `none` is `-EAGAIN`. -/
def fqRecv (self : Xrep) : Except Abort (Xrep × Option (Nat × List UInt8)) := do
  match ← self.inpipes.getpipe with
  | none => return (self, none)
  | some d =>
      let data ← self.getData d.pipe
      let r ← data.pipe.recv sessionVfptr
      let inpipes ← self.inpipes.advance r.2.2
      let self := self.setData d.pipe (some { data with pipe := r.1 })
      return ({ self with inpipes := inpipes }, some (d.pipe, r.2.1))

/-- `grid_xrep_recv`: the request, with the pipe it came in on and the bytes it arrived
as; `none` is `-EAGAIN`. -/
def recv (self : Xrep) : Except Abort (Xrep × Option (Nat × List UInt8 × Msg)) := do
  let r ← self.fqRecv
  match r.2 with
  | none => return (r.1, none)
  | some (p, wire) =>
      match xrepSplit wire with
      | none => return (r.1, none)
      | some msg =>
          -- prepend the header by the pipe key
          let data ← r.1.getData p
          return (r.1, some (p, wire, { msg with sphdr := putl data.key ++ msg.sphdr }))

/-- A message arrives on a pipe, and whether an IN event is raised. -/
def receivedMsg (self : Xrep) (p : Nat) (wire : List UInt8) : Except Abort (Xrep × Bool) := do
  let data ← self.getData p
  let r ← data.pipe.arrive wire
  return (self.setData p (some { data with pipe := r.1 }), r.2)

/-- A message has left a pipe, and whether an OUT event is raised. -/
def sentMsg (self : Xrep) (p : Nat) : Except Abort (Xrep × Bool) := do
  let data ← self.getData p
  let r ← data.pipe.sent
  return (self.setData p (some { data with pipe := r.1 }), r.2)

end Xrep

/-! ## The backtrace stack -/

/-- What is split is what arrived. -/
theorem xrepSplit_wire {bytes : List UInt8} {msg : Msg} (h : xrepSplit bytes = some msg) :
    msg.wire = bytes := by
  obtain ⟨i, -, rfl⟩ := Option.map_eq_some_iff.mp h
  exact List.take_append_drop (i * 4) bytes

/-- A word at the top of the stack that is not its bottom. -/
theorem xrepSplit_push {word : List UInt8} (hlen : word.length = 4)
    (htop : topBit (getl word) = false) (bytes : List UInt8) :
    xrepSplit (word ++ bytes) =
      (xrepSplit bytes).map fun msg => { msg with sphdr := word ++ msg.sphdr } := by
  match word, hlen with
  | [b0, b1, b2, b3], _ =>
      have hwords : stackWords ([b0, b1, b2, b3] ++ bytes) =
          (stackWords bytes).map fun i => i + 1 := by
        simp [stackWords, htop]
      unfold xrepSplit
      rw [hwords]
      cases stackWords bytes with
      | none => rfl
      | some i => simp [Nat.add_mul]

/-- The bottom of the stack is all of it. -/
theorem xrepSplit_bottom {word : List UInt8} (hlen : word.length = 4)
    (htop : topBit (getl word) = true) (body : List UInt8) :
    xrepSplit (word ++ body) = some { sphdr := word, body := body } := by
  match word, hlen with
  | [b0, b1, b2, b3], _ => simp [xrepSplit, stackWords, htop]

/-! ## Requests -/

namespace Xrep

theorem setData_pipes {x : Xrep} (p q : Nat) (data : Option XrepData) :
    (x.setData p data).pipes q = if q = p then data else x.pipes q := rfl

theorem getData_eq_ok {x : Xrep} {p : Nat} {data : XrepData} (h : x.getData p = .ok data) :
    x.pipes p = some data := by
  unfold getData at h
  cases hp : x.pipes p with
  | none => simp [hp] at h
  | some d => simpa [hp] using h

/-- What the fair queue hands over comes from an attached pipe, which keeps its key. -/
theorem fqRecv_some {x x' : Xrep} {p : Nat} {wire : List UInt8}
    (h : x.fqRecv = .ok (x', some (p, wire))) :
    ∃ data data', x.pipes p = some data ∧ x'.pipes p = some data' ∧ data'.key = data.key := by
  obtain ⟨o, -, h⟩ := bind_eq_ok_iff.mp h
  cases o with
  | none => exact absurd h (by simp)
  | some d =>
      obtain ⟨data, hdata, h⟩ := bind_eq_ok_iff.mp h
      obtain ⟨r, -, h⟩ := bind_eq_ok_iff.mp h
      obtain ⟨inpipes, -, h⟩ := bind_eq_ok_iff.mp h
      obtain ⟨rfl, hsome⟩ := Prod.mk.inj (Except.ok.inj h)
      obtain ⟨rfl, -⟩ := Prod.mk.inj (Option.some.inj hsome)
      exact ⟨data, { data with pipe := r.1 }, getData_eq_ok hdata, if_pos rfl, rfl⟩

/-- A request is received with the key of its pipe in front of its backtrace. -/
theorem recv_some {x x' : Xrep} {p : Nat} {wire : List UInt8} {msg : Msg}
    (h : x.recv = .ok (x', some (p, wire, msg))) :
    x.fqRecv = .ok (x', some (p, wire)) ∧ ∃ data req, x.pipes p = some data ∧
      xrepSplit wire = some req ∧ msg = { req with sphdr := putl data.key ++ req.sphdr } := by
  obtain ⟨⟨x₁, o⟩, hfq, hret⟩ := bind_eq_ok_iff.mp h
  cases o with
  | none => exact absurd hret (by simp)
  | some pw =>
      obtain ⟨q, wire'⟩ := pw
      simp only at hret
      cases hsplit : xrepSplit wire' with
      | none =>
          rw [hsplit] at hret
          exact absurd hret (by simp)
      | some req =>
          rw [hsplit] at hret
          obtain ⟨data', hdata', hret⟩ := bind_eq_ok_iff.mp hret
          obtain ⟨rfl, hsome⟩ := Prod.mk.inj (Except.ok.inj hret)
          obtain ⟨rfl, hrest⟩ := Prod.mk.inj (Option.some.inj hsome)
          obtain ⟨rfl, rfl⟩ := Prod.mk.inj hrest
          obtain ⟨data, d, hp, hp', hkey⟩ := fqRecv_some hfq
          obtain rfl := Option.some.inj (hp'.symm.trans (getData_eq_ok hdata'))
          exact ⟨hfq, data, req, hp, hsplit, by rw [hkey]⟩

theorem recv_of_fqRecv {x x' : Xrep} {p : Nat} {wire : List UInt8} {req : Msg}
    {data : XrepData} (hfq : x.fqRecv = .ok (x', some (p, wire)))
    (hsplit : xrepSplit wire = some req) (hp : x'.pipes p = some data) :
    x.recv = .ok (x', some (p, wire, { req with sphdr := putl data.key ++ req.sphdr })) := by
  have hdata : x'.getData p = .ok data := by simp [getData, hp]
  simp only [recv, hfq, ok_bind, hsplit, hdata, pure_eq_ok]

end Xrep

/-! ## Replies -/

namespace Xrep

/-- One pipe is given a message to send, and no other pipe changes. -/
def Delivered (x x' : Xrep) (p : Nat) (wire : List UInt8) : Prop :=
  ∃ data data', x.pipes p = some data ∧ x'.pipes p = some data' ∧
    data'.pipe.session.outbox = data.pipe.session.outbox ++ [wire] ∧
    ∀ q, q ≠ p → x'.pipes q = x.pipes q

/-- The pipe is attached under the key and ready for sending. -/
structure Serves (x : Xrep) (p key : Nat) (data : XrepData) : Prop where
  attached : x.pipes p = some data
  keyed : data.key = key
  found : x.outpipes.get key = some p
  out : data.out = true
  idle : data.pipe.outstate = .idle

theorem Serves.getData {x : Xrep} {p key : Nat} {data : XrepData} (h : x.Serves p key data) :
    x.getData p = .ok data := by
  simp [Xrep.getData, h.attached]

/-- A reply whose header begins with the key of a pipe that is ready leaves on that pipe,
without the key. -/
theorem Serves.send {x : Xrep} {p key : Nat} {data : XrepData} (h : x.Serves p key data)
    (hkey : key < 2 ^ 32) (stack body : List UInt8) :
    x.send { sphdr := putl key ++ stack, body := body } =
      .ok (x.setData p (some { data with
        out := false
        pipe := { data.pipe with
          outstate := .async
          session := { data.pipe.session with
            outbox := data.pipe.session.outbox ++ [stack ++ body] } } })) := by
  have hlong : ¬ (putl key ++ stack).length < 4 := by simp
  have hget : getl (putl key ++ stack) = key := getl_putl hkey stack
  have hdrop : (putl key ++ stack).drop 4 = stack := List.drop_left' (length_putl key)
  unfold Xrep.send
  rw [if_neg hlong]
  simp only [hget, hdrop, h.found, h.getData, ok_bind]
  simp [h.out, Pipe.send_ready h.idle, Msg.wire]

theorem delivered_setData {x : Xrep} {p : Nat} {data data' : XrepData} {wire : List UInt8}
    (hp : x.pipes p = some data)
    (hbox : data'.pipe.session.outbox = data.pipe.session.outbox ++ [wire]) :
    Delivered x (x.setData p (some data')) p wire := by
  refine ⟨data, data', hp, ?_, hbox, fun q hq => ?_⟩
  · rw [setData_pipes, if_pos rfl]
  · rw [setData_pipes, if_neg hq]

end Xrep

end GridMq.ReqRep
