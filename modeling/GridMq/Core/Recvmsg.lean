import GridMq.Core.Sendmsg
import GridMq.Library.Memory
import GridMq.Utils.Chunkref

set_option autoImplicit false

/-!
# Receiving a message (`grid_recvmsg` in `src/core/global.c`, `grid_sock_recv` in `sock.c`)

One call, from the checks of its arguments to the copy of the message into the buffers and the
control data of the caller.  The socket type is given by its `recv`; a message that it hands
out is no longer in the socket.  Other threads use the socket whenever the call is not in its
context, so that each turn of the loop finds the socket and the memory in a state of its own.
-/

namespace GridMq.Core

open GridMq.Library

/-- The error codes of a receive. -/
inductive RecvErrno where
  | ebadf | eterm | einval | emsgsize | enotsup | efsm | eagain | etimedout | eintr
  deriving DecidableEq, Repr

/-! ## The socket -/

/-- A message that a socket type hands out, in the memory it lies in: its references are
counted, and what it has in itself is short. -/
structure Handed where
  heap : ChunkHeap
  msg : GridMsg
  counted : ∀ a, msg.addrs.count a ≤ heap.count a
  short : ∀ data, Chunkref.small data ∈ [msg.sphdr, msg.hdrs, msg.body] →
    data.length < chunkrefMax

namespace Handed

/-- The three parts of the message. -/
def sphdr (self : Handed) : List UInt8 := self.heap.bytes self.msg.sphdr

def hdrs (self : Handed) : List UInt8 := self.heap.bytes self.msg.hdrs

def body (self : Handed) : List UInt8 := self.heap.bytes self.msg.body

end Handed

/-- What a receive depends on in a socket type. -/
structure RecvType where
  State : Type
  /-- `GRID_SOCKTYPE_FLAG_NORECV` -/
  norecv : Bool
  recv : State → Except Abort (Except RecvErrno Handed)

/-- The socket as a turn of the loop of `grid_sock_recv` finds it. -/
structure RecvTurn (T : RecvType) where
  sock : SockState
  type : T.State

/-- How `grid_sock_recv` ends. -/
inductive SockRecv where
  | message (m : Handed)
  | failed (e : RecvErrno)
  /-- it waits for the descriptor -/
  | waiting

/-- A turn of the loop of `grid_sock_recv`. -/
def sockRecvTurn {T : RecvType} (dontwait : Bool) (turn : RecvTurn T) :
    Except Abort SockRecv :=
  match turn.sock with
  | .zombie => .ok (.failed .eterm)
  | .stoppingEps | .stopping | .fini => .ok (.failed .ebadf)
  | .active | .init => do
      match ← T.recv turn.type with
      | .ok m => return .message m
      | .error e =>
          if e ≠ .eagain then return .failed e
          else if dontwait = true then return .failed .eagain
          else return .waiting

/-- What `grid_efd_wait` returned, when it ends the call. -/
def recvWaitErrno : WaitResult → Option RecvErrno
  | .zero => none
  | .etimedout => some .etimedout
  | .eintr => some .eintr
  | .ebadf => some .ebadf

/-- The loop of `grid_sock_recv`, with the ends of its waits and the turns after them. -/
def sockRecvLoop {T : RecvType} (dontwait : Bool) :
    List (WaitResult × RecvTurn T) → RecvTurn T → Except Abort SockRecv
  | [], turn => sockRecvTurn dontwait turn
  | (w, turn') :: later, turn => do
      match ← sockRecvTurn dontwait turn with
      | .waiting =>
          match recvWaitErrno w with
          | none => sockRecvLoop dontwait later turn'
          | some e => return .failed e
      | s => return s

/-- `grid_sock_recv`. -/
def sockRecv (T : RecvType) (dontwait : Bool) (turn : RecvTurn T)
    (later : List (WaitResult × RecvTurn T)) : Except Abort SockRecv :=
  if T.norecv = true then .ok (.failed .enotsup) else sockRecvLoop dontwait later turn

/-! ## The body -/

/-- The loop that copies the body to the buffers: the buffers after it, and `false` if it has
come to `GRID_MSG`. -/
def fill : List Iovec → List UInt8 → Except Abort (List Iovec × Bool)
  | [], _ => .ok ([], true)
  | iov :: rest, data =>
      match iov with
      | .gridMsg chunk => .ok (.gridMsg chunk :: rest, false)
      | .null len =>
          if min len data.length ≠ 0 then .error .nullPointer
          else if len > data.length then .ok (.null len :: rest, true)
          else do
            let r ← fill rest (data.drop len)
            return (.null len :: r.1, r.2)
      | .buffer base =>
          if base.length > data.length then
            .ok (.buffer (data ++ base.drop data.length) :: rest, true)
          else do
            let r ← fill rest (data.drop base.length)
            return (.buffer (data.take base.length) :: r.1, r.2)

/-- The message after its body was given to the caller, the buffers, and the size of the body;
no size if the buffers are refused. -/
structure BodyRecv where
  heap : ChunkHeap
  msg : GridMsg
  iov : List Iovec
  size : Option Nat

/-- The body is given away as it is, or copied to the buffers. -/
def recvBody (heap : ChunkHeap) (msg : GridMsg) (iov : List Iovec) : Except Abort BodyRecv :=
  match iov with
  | [.gridMsg _] => do
      let r ← heap.getchunk msg.body
      let chunk ← r.1.getptr r.2
      return {
        heap := r.1
        msg := { msg with body := .small [] }
        iov := [.gridMsg (some r.2)]
        size := some chunk.data.length }
  | iov => do
      let data := heap.bytes msg.body
      let r ← fill iov data
      return { heap := heap, msg := msg, iov := r.1, size := if r.2 then some data.length else none }

/-! ## The control data -/

/-- `GRID_CMSG_SPACE`. -/
def cmsgSpaceOf (len : Nat) : Nat := (cmsgAlign len + cmsgAlign cmsgSpace) % 2 ^ 64

/-- `sptotalsz`, the size of the property `SP_HDR` for a header of some size. -/
def spTotal (spsz : Nat) : Nat := cmsgSpaceOf ((spsz + 8) % 2 ^ 64)

/-- The fields of the property `SP_HDR`, up to the header of the message. -/
def spFields (spsz : Nat) : List UInt8 :=
  nativeOf 8 (spTotal spsz) ++ nativeOf 4 protoSp ++ nativeOf 4 spHdrType ++ nativeOf 8 spsz

/-- The control data of a received message, in memory of some size: `SP_HDR`, and as much of
the other properties as there is room for. -/
def fillControl (ctrl sphdr hdrs : List UInt8) : Control :=
  let sptotalsz := spTotal sphdr.length
  if ctrl.length ≥ sptotalsz then
    let ctrl := overwrite ctrl 0 (spFields sphdr.length)
    let ctrl := overwrite ctrl (spFields sphdr.length).length sphdr
    overwrite ctrl sptotalsz (hdrs.take (ctrl.length - sptotalsz))
  else ctrl

/-- The control data that the caller gets.  A chunk for them has any bytes in it at first. -/
def recvControl (garbage : Nat → UInt8) (heap : ChunkHeap) (sphdr hdrs : List UInt8) :
    MsgControl → Except Abort (ChunkHeap × MsgControl)
  | .null => .ok (heap, .null)
  | .gridMsg _ =>
      let ctrlsz := (spTotal sphdr.length + hdrs.length) % 2 ^ 64
      let ctrl := fillControl ((List.range ctrlsz).map garbage) sphdr hdrs
      if h : Fits ctrl.length then .ok (heap.alloc ctrl h, .gridMsg (some heap.next))
      else .error .errnum
  | .buffer data => .ok (heap, .buffer (fillControl data sphdr hdrs))

/-! ## The call -/

/-- How a call ends. -/
inductive RecvOutcome where
  /-- the value that is returned, the buffers and the control data, and the memory -/
  | received (ret : Int) (hdr : Msghdr) (heap : ChunkHeap)
  | failed (e : RecvErrno)
  /-- it waits for the descriptor -/
  | waiting

/-- What the caller gets, if the call has returned. -/
def RecvOutcome.value : RecvOutcome → Option Int
  | .received ret _ _ => some ret
  | .failed _ => some (-1)
  | .waiting => none

/-- A call that has returned or waits, and the message that it has taken from the socket. -/
structure RecvCall where
  taken : Option Handed := none
  outcome : RecvOutcome

/-- `(int) sz`. -/
def intOf (sz : Nat) : Int := (BitVec.ofNat 32 sz).toInt

/-- What is done with a message that was received. -/
def deliver (garbage : Nat → UInt8) (hdr : Msghdr) (iov : List Iovec) (m : Handed) :
    Except Abort RecvOutcome := do
  let b ← recvBody m.heap m.msg iov
  match b.size with
  | none => do
      let _ ← b.msg.term b.heap
      return .failed .einval
  | some sz => do
      let c ← recvControl garbage b.heap (b.heap.bytes b.msg.sphdr) (b.heap.bytes b.msg.hdrs)
        hdr.control
      let heap ← b.msg.term c.1
      return .received (intOf sz) { iov := some b.iov, control := c.2 } heap

/-- `grid_recvmsg`.  `hold` is the error of `grid_global_hold_socket`. -/
def recvmsg (T : RecvType) (hold : Option RecvErrno) (msghdr : Option Msghdr) (dontwait : Bool)
    (garbage : Nat → UInt8) (turn : RecvTurn T) (later : List (WaitResult × RecvTurn T)) :
    Except Abort RecvCall :=
  match hold with
  | some e => .ok { outcome := .failed e }
  | none =>
      match msghdr with
      | none => .ok { outcome := .failed .einval }
      | some hdr =>
          match hdr.iov with
          | none => .ok { outcome := .failed .emsgsize }
          | some iov => do
              match ← sockRecv T dontwait turn later with
              | .failed e => return { outcome := .failed e }
              | .waiting => return { outcome := .waiting }
              | .message m => do
                  let outcome ← deliver garbage hdr iov m
                  return { taken := some m, outcome := outcome }

end GridMq.Core
