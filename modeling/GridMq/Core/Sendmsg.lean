import GridMq.Core.Cmsg
import GridMq.Core.Global
import GridMq.Utils.ChunkHeap

set_option autoImplicit false

/-!
# Sending a message (`grid_sendmsg` in `src/core/global.c`, `grid_sock_send` in `sock.c`)

One call with everything it does to the memory of the messages.  The socket type is given
by its `send`.  Other threads use the socket whenever the call is not in its context, so
that each turn of the loop finds the socket in a state of its own.
-/

namespace GridMq.Core

/-! ## The arguments -/

/-- `struct grid_iovec`. -/
inductive Iovec where
  /-- `GRID_MSG`, with the pointer to a message of `grid_allocmsg`; `none` is `NULL` -/
  | gridMsg (chunk : Option Nat)
  | buffer (base : List UInt8)
  /-- `NULL` with a length -/
  | null (len : Nat)
  deriving DecidableEq

/-- `msg_control` and `msg_controllen`. -/
inductive MsgControl where
  | null
  /-- `GRID_MSG`, with the pointer to a message of `grid_allocmsg`; `none` is `NULL` -/
  | gridMsg (chunk : Option Nat)
  | buffer (data : List UInt8)
  deriving DecidableEq

/-- `struct grid_msghdr`; `none` is a negative `msg_iovlen`. -/
structure Msghdr where
  iov : Option (List Iovec)
  control : MsgControl := .null
  deriving DecidableEq

/-- The error codes of a send. -/
inductive SendErrno where
  | ebadf | eterm | einval | emsgsize | efault | enotsup | efsm | eagain | etimedout | eintr
  deriving DecidableEq, Repr

/-- What the body of the message is made of. -/
inductive MsgBody where
  | chunk (addr : Nat)
  | scatter (bytes : List UInt8)
  deriving DecidableEq

/-- The chunk of the caller in the body, and in the control data. -/
def MsgBody.own : MsgBody → Option Nat
  | .chunk addr => some addr
  | .scatter _ => none

def MsgControl.own : MsgControl → Option Nat
  | .gridMsg addr => addr
  | _ => none

/-- The chunks of the caller that a header refers to. -/
def Msghdr.own (self : Msghdr) : List Nat :=
  self.control.own.toList ++ ((self.iov.getD []).filterMap fun iov =>
    match iov with
    | .gridMsg addr => addr
    | _ => none)

/-- The checks of the scatter array, with the sum of the sizes so far and the bytes. -/
def checkIov : List Iovec → Nat → List UInt8 → Except SendErrno MsgBody
  | [], _, bytes => .ok (.scatter bytes)
  | iov :: rest, sz, bytes =>
      match iov with
      | .gridMsg _ => .error .einval
      | .null len => if len ≠ 0 then .error .efault else checkIov rest sz bytes
      | .buffer base =>
          if (sz + base.length) % 2 ^ 64 < sz then .error .einval
          else checkIov rest ((sz + base.length) % 2 ^ 64) (bytes ++ base)

/-- The checks of the arguments, which come before anything is done with them. -/
def checkArgs (hold : Option SendErrno) (msghdr : Option Msghdr) :
    Except SendErrno (Msghdr × MsgBody) :=
  match hold with
  | some e => .error e
  | none =>
      match msghdr with
      | none => .error .einval
      | some hdr =>
          match hdr.iov with
          | none => .error .emsgsize
          | some [.gridMsg none] => .error .efault
          | some [.gridMsg (some addr)] => .ok (hdr, .chunk addr)
          | some iov => (checkIov iov 0 []).map fun body => (hdr, body)

/-! ## The message -/

def liftAbort {α : Type} (x : Except Abort α) : Except SendAbort α := x.mapError .other

/-- The body: the chunk of the user, or a copy of the scatter array. -/
def initBody (heap : ChunkHeap) : MsgBody → Except Abort (ChunkHeap × Chunkref)
  | .chunk addr => do
      -- `grid_chunk_size`
      let _ ← heap.getptr addr
      return (heap, .chunk addr)
  | .scatter bytes => heap.store bytes

/-- The ancillary data: the chunk of the user, or a copy of the buffer. -/
def initHdrs (heap : ChunkHeap) : MsgControl → Except Abort (ChunkHeap × Chunkref × Control)
  | .null => .ok (heap, .small [], [])
  | .gridMsg none => .error .nullPointer
  | .gridMsg (some addr) => do
      let chunk ← heap.getptr addr
      return (heap, .chunk addr, chunk.data)
  | .buffer data => do
      let r ← heap.store data
      return (r.1, r.2, data)

/-- The message that is made of the arguments. -/
def assemble (fuel : Nat) (heap : ChunkHeap) (hdr : Msghdr) (src : MsgBody) :
    Except SendAbort (ChunkHeap × GridMsg) := do
  let body ← liftAbort (initBody heap src)
  let hdrs ← liftAbort (initHdrs body.1 hdr.control)
  let sphdr ← Control.spHdr hdrs.2.2 fuel
  match sphdr with
  | none => return (hdrs.1, { hdrs := hdrs.2.1, body := body.2 })
  | some bytes =>
      let sphdr ← liftAbort (hdrs.1.store bytes)
      return (sphdr.1, { sphdr := sphdr.2, hdrs := hdrs.2.1, body := body.2 })

/-! ## The socket -/

/-- What `send` of a socket type does with a message. -/
inductive SendResult where
  /-- 0: the message was taken over -/
  | taken
  /-- an error; the message is as it was -/
  | refused (e : SendErrno)
  /-- an error; the message was taken over, and an empty one left -/
  | emptied (e : SendErrno)
  deriving DecidableEq

/-- What a send depends on in a socket type. -/
structure SendType where
  State : Type
  /-- `GRID_SOCKTYPE_FLAG_NOSEND` -/
  nosend : Bool
  send : State → Msg → Except SendAbort SendResult

/-- The socket as a turn of the loop of `grid_sock_send` finds it. -/
structure SendTurn (T : SendType) where
  sock : SockState
  type : T.State

/-- How a call ends. -/
inductive SendOutcome where
  | sent
  | failed (e : SendErrno)
  /-- it waits for the descriptor -/
  | waiting
  deriving DecidableEq

/-- The socket's part of a turn. -/
def SendTurn.attempt {T : SendType} (self : SendTurn T) (msg : Msg) :
    Except SendAbort SendResult :=
  match self.sock with
  | .active | .init => T.send self.type msg
  | .zombie => .ok (.refused .eterm)
  | .stoppingEps | .stopping | .fini => .ok (.refused .ebadf)

/-- What is left of a call after it was made: the message, the chunks that the socket has
taken over, and how it ended. -/
structure SockSend where
  msg : GridMsg
  held : List Nat := []
  outcome : SendOutcome

/-- An error of the socket type: it is returned, or the call has to wait. -/
def SockSend.refuse (dontwait : Bool) (e : SendErrno) (msg : GridMsg) (held : List Nat) :
    SockSend :=
  { msg := msg, held := held,
    outcome := if e ≠ .eagain ∨ dontwait = true then .failed e else .waiting }

/-- A turn of the loop of `grid_sock_send`. -/
def sockSendTurn {T : SendType} (dontwait : Bool) (heap : ChunkHeap) (turn : SendTurn T)
    (msg : GridMsg) (held : List Nat) : Except SendAbort SockSend := do
  match ← turn.attempt (msg.view heap) with
  | .taken => return { msg := {}, held := held ++ msg.addrs, outcome := .sent }
  | .refused e => return .refuse dontwait e msg held
  | .emptied e => return .refuse dontwait e {} (held ++ msg.addrs)

/-- What `grid_efd_wait` returned, when it ends the call. -/
def waitErrno : WaitResult → Option SendErrno
  | .zero => none
  | .etimedout => some .etimedout
  | .eintr => some .eintr
  | .ebadf => some .ebadf

/-- The loop of `grid_sock_send`, with the ends of its waits and the turns after them. -/
def sockSendLoop {T : SendType} (dontwait : Bool) (heap : ChunkHeap) :
    List (WaitResult × SendTurn T) → SendTurn T → GridMsg → List Nat →
      Except SendAbort SockSend
  | [], turn, msg, held => sockSendTurn dontwait heap turn msg held
  | (w, turn') :: later, turn, msg, held => do
      let s ← sockSendTurn dontwait heap turn msg held
      if s.outcome = .waiting then
        match waitErrno w with
        | none => sockSendLoop dontwait heap later turn' s.msg s.held
        | some e => return { s with outcome := .failed e }
      else return s

/-- `grid_sock_send`. -/
def sockSend (T : SendType) (dontwait : Bool) (heap : ChunkHeap) (turn : SendTurn T)
    (later : List (WaitResult × SendTurn T)) (msg : GridMsg) : Except SendAbort SockSend :=
  if T.nosend = true then .ok { msg := msg, outcome := .failed .enotsup }
  else sockSendLoop dontwait heap later turn msg []

/-! ## The call -/

/-- The memory after a call, the chunks that the socket has taken over, and how the call
ended. -/
structure SendCall where
  heap : ChunkHeap
  held : List Nat := []
  outcome : SendOutcome

/-- The undoing of a send that failed: the chunk of the user is detached from the message,
and the rest is released. -/
def undo (heap : ChunkHeap) (src : MsgBody) (msg : GridMsg) : Except Abort ChunkHeap :=
  match src with
  | .chunk _ => GridMsg.term { msg with body := .small [] } heap
  | .scatter _ => GridMsg.term msg heap

/-- What is done after `grid_sock_send`. -/
def finish (heap : ChunkHeap) (src : MsgBody) (s : SockSend) : Except SendAbort SendCall :=
  match s.outcome with
  | .failed e => do
      let heap ← liftAbort (undo heap src s.msg)
      return { heap := heap, held := s.held, outcome := .failed e }
  | .sent => .ok { heap := heap, held := s.held, outcome := .sent }
  | .waiting => .ok { heap := heap, held := s.held, outcome := .waiting }

/-- `grid_sendmsg`.  `hold` is the error of `grid_global_hold_socket`, and `fuel` bounds the
steps through the control data. -/
def sendmsg (T : SendType) (hold : Option SendErrno) (msghdr : Option Msghdr) (dontwait : Bool)
    (fuel : Nat) (turn : SendTurn T) (later : List (WaitResult × SendTurn T))
    (heap : ChunkHeap) : Except SendAbort SendCall :=
  match checkArgs hold msghdr with
  | .error e => .ok { heap := heap, outcome := .failed e }
  | .ok (hdr, src) => do
      let r ← assemble fuel heap hdr src
      let s ← sockSend T dontwait r.1 turn later r.2
      finish r.1 src s

end GridMq.Core
