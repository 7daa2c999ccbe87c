import GridMq.Aio.UsockStream
import GridMq.Library.Memory
import Mathlib.Algebra.GroupWithZero.Nat

set_option autoImplicit false

/-!
# The buffers of a usock (`src/aio/usock.c`)

Sending and receiving once more, with the memory they work on: the batch buffer with the
positions of what is left in it, the place in the buffer of the owner, and the array of pieces
that is advanced in place.  What `Usock` says about the bytes is what happens there.
-/

namespace GridMq.Aio

open GridMq.Library

/-- A difference of type `size_t`. -/
def sizeSub (a b : Nat) : Nat := (a + 2 ^ 64 - b) % 2 ^ 64

theorem sizeSub_eq {a b : Nat} (hle : b ≤ a) (ha : a < 2 ^ 64) : sizeSub a b = a - b := by
  rw [sizeSub]
  omega

/-- `memcpy`, where both pieces of memory are there. -/
def memcpy (dst : List UInt8) (pos : Nat) (src : List UInt8) (start sz : Nat) :
    Except Abort (List UInt8) :=
  if pos + sz ≤ dst.length ∧ start + sz ≤ src.length then
    .ok (overwrite dst pos ((src.drop start).take sz))
  else .error .nullPointer

/-- The member `in` of `struct grid_usock`, without the place for a descriptor.  `dst` is the
memory of the owner, in which `buf` is a position. -/
structure UsockIn where
  dst : List UInt8 := []
  buf : Nat := 0
  len : Nat := 0
  batch : Option (List UInt8) := none
  batchLen : Nat := 0
  batchPos : Nat := 0

/-- `struct iovec`, with the memory from `iov_base` on. -/
structure IovEntry where
  base : List UInt8 := []
  len : Nat := 0

/-- The member `out` of `struct grid_usock`: the array, and where in it the header begins. -/
structure UsockOut where
  iov : List IovEntry := List.replicate usockMaxIovcnt {}
  msgIov : Nat := 0
  msgIovlen : Nat := 0

/-- `struct grid_usock` on a connection, with its tasks in the worker's queue and what the
worker polls its descriptor for. -/
structure UsockMem where
  state : UsockState := .active
  fd : Bool := true
  inPart : UsockIn := {}
  outPart : UsockOut := {}
  tasks : List UsockTask := []
  pollIn : Bool := false
  pollOut : Bool := false

namespace UsockIn

/-- What of a request is in the batch buffer already: it is copied from there. -/
def takeBatch (self : UsockIn) (batch : List UInt8) (buf length : Nat) :
    Except Abort (UsockIn × Nat) := do
  let sz := sizeSub self.batchLen self.batchPos
  if sz = 0 then return (self, 0)
  else
    let sz := if sz > length then length else sz
    let dst ← memcpy self.dst buf batch self.batchPos sz
    return ({ self with dst := dst, batchPos := self.batchPos + sz }, sz)

/-- One `recvmsg`, directly into the place or into the batch buffer. -/
def readMore (self : UsockIn) (batch wire : List UInt8) (buf length n : Nat) :
    Except Abort (UsockIn × List UInt8 × Nat) := do
  if length > usockBatchSize then
    let got := wire.take (min n length)
    let dst ← memcpy self.dst buf got 0 got.length
    return ({ self with dst := dst }, wire.drop got.length, got.length)
  else
    let got := wire.take (min n usockBatchSize)
    let batch ← memcpy batch 0 got 0 got.length
    let sz := if got.length > length then length else got.length
    let dst ← memcpy self.dst buf batch 0 sz
    return ({ self with dst := dst, batch := some batch, batchLen := got.length, batchPos := sz },
      wire.drop got.length, sz)

/-- `grid_usock_recv_raw` for `len` bytes at the position `buf`: what is left on the wire, and
how many bytes came; `none` for `-ECONNRESET`. -/
def recvRaw (self : UsockIn) (wire : List UInt8) (buf len : Nat) (io : Io) :
    Except Abort (UsockIn × List UInt8 × Option Nat) := do
  let batch := self.batch.getD (List.replicate usockBatchSize 0)
  let self := { self with batch := some batch }
  let left := sizeSub self.batchLen self.batchPos
  let r ← self.takeBatch batch buf len
  if left ≠ 0 ∧ len - r.2 = 0 then return (r.1, wire, some len)
  else
    match io with
    | .reset => return (r.1, wire, none)
    | .bytes n => do
        let r' ← r.1.readMore batch wire (buf + r.2) (len - r.2) n
        return (r'.1, r'.2.1, some (r.2 + r'.2.2))

/-- What a read into a part of the place leaves to be read. -/
def moved (self : UsockIn) (sz : Nat) : UsockIn :=
  { self with len := sizeSub self.len sz, buf := self.buf + sz }

end UsockIn

namespace UsockOut

/-- The bytes of the pieces that the header names. -/
def pieces (self : UsockOut) : List (List UInt8) :=
  ((self.iov.drop self.msgIov).take self.msgIovlen).map fun e => e.base.take e.len

/-- The loop of `grid_usock_send_raw` with `nbytes` that were sent, for a header of `msgIovlen`
pieces from `msgIov` on, and whether nothing is left.  No piece follows the last one. -/
def adjust (iov : List IovEntry) : Nat → Nat → Nat → Except Abort (UsockOut × Bool)
  | msgIov, 0, nbytes =>
      if nbytes = 0 then .ok ({ iov := iov, msgIov := msgIov, msgIovlen := 0 }, true)
      else .error .nullPointer
  | msgIov, msgIovlen + 1, nbytes =>
      if nbytes = 0 then
        .ok ({ iov := iov, msgIov := msgIov, msgIovlen := msgIovlen + 1 }, false)
      else
        match iov[msgIov]? with
        | none => .error .nullPointer
        | some e =>
            if nbytes ≥ e.len then
              if msgIovlen = 0 then do
                gridAssert (nbytes = e.len)
                return ({ iov := iov, msgIov := msgIov, msgIovlen := 0 }, true)
              else adjust iov (msgIov + 1) msgIovlen (nbytes - e.len)
            else
              .ok ({ iov := iov.set msgIov { base := e.base.drop nbytes, len := e.len - nbytes }
                     msgIov := msgIov
                     msgIovlen := msgIovlen + 1 }, false)

/-- `grid_usock_send_raw`, where `n` bytes can be sent: the bytes that leave, and whether
nothing is left. -/
def sendRaw (self : UsockOut) (n : Nat) : Except Abort (UsockOut × List UInt8 × Bool) := do
  let written := self.pieces.flatten.take n
  let r ← adjust self.iov self.msgIov self.msgIovlen written.length
  return (r.1, written, r.2)

/-- The entry for a whole piece. -/
def entry (p : List UInt8) : IovEntry := { base := p, len := p.length }

/-- The pieces of a send in the array, without those that are empty. -/
def copy (self : UsockOut) (iov : List (List UInt8)) : UsockOut :=
  let entries := (iov.filter (· ≠ [])).map entry
  { iov := overwrite self.iov 0 entries, msgIov := 0, msgIovlen := entries.length }

end UsockOut

namespace UsockMem

/-- `grid_worker_execute`. -/
def execute (self : UsockMem) (task : UsockTask) : Except Abort UsockMem := do
  gridAssert (task ∉ self.tasks)
  return { self with tasks := self.tasks ++ [task] }

/-- `GRID_USOCK_ACTION_ERROR` in the ACTIVE state, with `grid_usock_async_stop`. -/
def actionError (self : UsockMem) : Except Abort (UsockMem × Option UsockEvent) := do
  let self ← { self with state := .removingFd }.execute .stop
  return (self, some .shutdown)

/-- The label `error` of `grid_usock_handler`. -/
def fdError (self : UsockMem) : UsockMem × Option UsockEvent :=
  ({ self with pollIn := false, pollOut := false, fd := false, state := .done }, some .error)

/-- A usock that was stopped, started again and connected.  The worker has executed its tasks
before the STOP task; only `grid_usock_init` sets the members `in` and `out`. -/
def restarted (self : UsockMem) : UsockMem := { inPart := self.inPart, outPart := self.outPart }

/-- `grid_usock_send`. -/
def send (self : UsockMem) (iov : List (List UInt8)) (io : Io) :
    Except Abort (UsockMem × List UInt8 × Option UsockEvent) := do
  gridAssert (self.state = .active)
  gridAssert (iov.length ≤ usockMaxIovcnt)
  let self := { self with outPart := self.outPart.copy iov }
  match io with
  | .reset => do
      let r ← self.actionError
      return (r.1, [], r.2)
  | .bytes n => do
      let r ← self.outPart.sendRaw n
      let self := { self with outPart := r.1 }
      if r.2.2 then return (self, r.2.1, some .sent)
      else
        let self ← self.execute .send
        return (self, r.2.1, none)

/-- `grid_usock_recv` into the memory `dst` of the owner. -/
def recv (self : UsockMem) (dst wire : List UInt8) (io : Io) :
    Except Abort (UsockMem × List UInt8 × Option UsockEvent) := do
  gridAssert (self.state = .active)
  let r ← { self.inPart with dst := dst }.recvRaw wire 0 dst.length io
  match r.2.2 with
  | none => do
      let r' ← { self with inPart := r.1 }.actionError
      return (r'.1, r.2.1, r'.2)
  | some nbytes =>
      if nbytes = dst.length then return ({ self with inPart := r.1 }, r.2.1, some .received)
      else do
        let inPart := { r.1 with buf := nbytes, len := dst.length - nbytes }
        let self ← { self with inPart := inPart }.execute .recv
        return (self, r.2.1, none)

/-- `GRID_WORKER_FD_IN` in the ACTIVE state. -/
def readOn (self : UsockMem) (wire : List UInt8) (io : Io) :
    Except Abort (UsockMem × List UInt8 × Option UsockEvent) := do
  let r ← self.inPart.recvRaw wire self.inPart.buf self.inPart.len io
  match r.2.2 with
  | none =>
      let r' := { self with inPart := r.1 }.fdError
      return (r'.1, r.2.1, r'.2)
  | some sz =>
      let self := { self with inPart := r.1.moved sz }
      if self.inPart.len = 0 then return ({ self with pollIn := false }, r.2.1, some .received)
      else return (self, r.2.1, none)

/-- `GRID_WORKER_FD_IN`. -/
def fdIn (self : UsockMem) (wire : List UInt8) (io : Io) :
    Except Abort (UsockMem × List UInt8 × Option UsockEvent) :=
  match self.state with
  | .active => self.readOn wire io
  | .removingFd => .ok (self, wire, none)
  | _ => .error .badSource

/-- `GRID_WORKER_FD_OUT` on a connected usock. -/
def fdOut (self : UsockMem) (io : Io) :
    Except Abort (UsockMem × List UInt8 × Option UsockEvent) :=
  match self.state with
  | .active =>
      match io with
      | .reset => .ok (self.fdError.1, [], self.fdError.2)
      | .bytes n => do
          let r ← self.outPart.sendRaw n
          let self := { self with outPart := r.1 }
          if r.2.2 then return ({ self with pollOut := false }, r.2.1, some .sent)
          else return (self, r.2.1, none)
  | .removingFd => .ok (self, [], none)
  | _ => .error .badSource

/-- The tasks of a connected usock: `grid_internal_tasks`, and the STOP task in the REMOVING_FD
state. -/
def feedTask (self : UsockMem) (task : UsockTask) : Except Abort (UsockMem × Option UsockEvent) :=
  match task with
  | .send => .ok ({ self with pollOut := self.fd }, none)
  | .recv => .ok ({ self with pollIn := self.fd }, none)
  | .connected => .ok ({ self with pollIn := false, pollOut := false }, none)
  | .connecting => .ok ({ self with pollIn := false, pollOut := self.fd }, none)
  | .accept => .ok ({ self with pollIn := self.fd, pollOut := false }, none)
  | .stop =>
      match self.state with
      | .removingFd => .ok self.fdError
      | _ => .error .badSource

/-- The worker takes the next task from its queue. -/
def runTask (self : UsockMem) : Except Abort (UsockMem × Option UsockEvent) :=
  match self.tasks with
  | [] => .ok (self, none)
  | task :: tasks => { self with tasks := tasks }.feedTask task

end UsockMem

/-! ## The batch buffer -/

variable {i : UsockIn} {u : Usock} {left : List UInt8} {buf len : Nat}

theorem memcpy_eq {dst src : List UInt8} {pos start sz : Nat} (hdst : pos + sz ≤ dst.length)
    (hsrc : start + sz ≤ src.length) :
    memcpy dst pos src start sz = .ok (overwrite dst pos ((src.drop start).take sz)) :=
  if_pos ⟨hdst, hsrc⟩

/-- A copy of the whole of something. -/
theorem memcpy_all {dst src : List UInt8} {pos : Nat} (h : pos + src.length ≤ dst.length) :
    memcpy dst pos src 0 src.length = .ok (overwrite dst pos src) := by
  rw [memcpy_eq h (by omega), List.drop_zero, List.take_length]

namespace UsockIn

/-- The batch buffer, which is there from the first receive on. -/
def bytes (i : UsockIn) : List UInt8 := i.batch.getD (List.replicate usockBatchSize 0)

/-- What lies between the positions in the batch buffer. -/
def unread (i : UsockIn) : List UInt8 :=
  (i.bytes.drop i.batchPos).take (i.batchLen - i.batchPos)

/-- The positions are within the batch buffer, and `left` is what lies between them. -/
structure Leaves (i : UsockIn) (left : List UInt8) : Prop where
  pos : i.batchPos ≤ i.batchLen
  len : i.batchLen ≤ usockBatchSize
  size : i.bytes.length = usockBatchSize
  left : left = (i.bytes.drop i.batchPos).take (i.batchLen - i.batchPos)

/-- The positions are equal exactly when nothing is left. -/
theorem Leaves.pos_eq (h : i.Leaves left) : i.batchPos = i.batchLen ↔ left = [] := by
  have hpos := h.pos
  have hlen := h.len
  have hsize := h.size
  rw [h.left, ← List.length_eq_zero_iff, List.length_take, List.length_drop]
  omega

theorem Leaves.sizeSub (h : i.Leaves left) : sizeSub i.batchLen i.batchPos = left.length := by
  have hpos := h.pos
  have hlen := h.len
  have hsize := h.size
  have hbatch : usockBatchSize = 2048 := rfl
  rw [sizeSub_eq hpos (by omega), h.left, List.length_take, List.length_drop]
  omega

/-- What is in the batch buffer is copied to the owner. -/
theorem Leaves.takeBatch (len : Nat) (h : i.Leaves left) (hroom : buf + len ≤ i.dst.length) :
    ∃ i', i.takeBatch i.bytes buf len = .ok (i', (left.take len).length) ∧
      i'.Leaves (left.drop len) ∧ i'.dst = overwrite i.dst buf (left.take len) ∧
      i'.buf = i.buf ∧ i'.len = i.len ∧ i'.bytes = i.bytes := by
  have hpos := h.pos
  have hlen := h.len
  have hsize := h.size
  have hleft : left.length = i.batchLen - i.batchPos := by
    rw [h.left, List.length_take, List.length_drop]
    omega
  rw [UsockIn.takeBatch, h.sizeSub]
  by_cases hnone : left.length = 0
  · obtain rfl := List.length_eq_zero_iff.mp hnone
    refine ⟨i, ?_, ?_, ?_, rfl, rfl, rfl⟩
    · rw [if_pos hnone, List.take_nil]
      rfl
    · rwa [List.drop_nil]
    · rw [List.take_nil, overwrite_nil]
  · have hsz : (if left.length > len then len else left.length) = (left.take len).length := by
      rw [List.length_take]
      split <;> omega
    have hle : (left.take len).length ≤ len ∧ (left.take len).length ≤ left.length := by
      rw [List.length_take]
      omega
    have hcopied : (i.bytes.drop i.batchPos).take (left.take len).length = left.take len := by
      rw [List.length_take, hleft, ← List.take_take, ← h.left]
    have hmin : min len (i.batchLen - i.batchPos) ≤ i.batchLen - i.batchPos := Nat.min_le_right _ _
    rw [if_neg hnone]
    simp only [hsz]
    rw [memcpy_eq (by omega) (by omega), hcopied]
    refine ⟨_, rfl, ⟨?_, hlen, hsize, ?_⟩, rfl, rfl, rfl, rfl⟩
    · change i.batchPos + (left.take len).length ≤ i.batchLen
      omega
    · change left.drop len = (i.bytes.drop (i.batchPos + (left.take len).length)).take
        (i.batchLen - (i.batchPos + (left.take len).length))
      rw [← List.drop_drop, ← Nat.sub_sub, ← List.drop_take, ← h.left, List.length_take]
      by_cases hshort : len ≤ left.length
      · rw [Nat.min_eq_left hshort]
      · rw [Nat.min_eq_right (by omega), List.drop_length, List.drop_of_length_le (by omega)]

/-- What a read brings: `got` for the owner, and the rest of it in the batch buffer. -/
structure Brings (i i' : UsockIn) (buf : Nat) (got left : List UInt8) : Prop where
  leaves : i'.Leaves left
  dst : i'.dst = overwrite i.dst buf got
  buf : i'.buf = i.buf
  len : i'.len = i.len

/-- A read directly into the place. -/
theorem Leaves.readPlace (h : i.Leaves []) (wire : List UInt8) (hroom : buf + len ≤ i.dst.length)
    (hlong : len > usockBatchSize) (n : Nat) :
    ∃ i', i.readMore i.bytes wire buf len n = .ok (i', wire.drop (min n len),
        (wire.take (min n len)).length) ∧
      Brings i i' buf (wire.take (min n len)) [] := by
  have hgot : (wire.take (min n len)).length ≤ len := by
    rw [List.length_take]
    omega
  rw [readMore, if_pos hlong]
  simp only
  rw [memcpy_all (by omega), ok_bind, List.length_take, ← List.drop_eq_drop_min]
  exact ⟨_, rfl, ⟨h.pos, h.len, h.size, h.left⟩, rfl, rfl, rfl⟩

/-- A read into the batch buffer. -/
theorem Leaves.readBatch (h : i.Leaves left) (wire : List UInt8)
    (hroom : buf + len ≤ i.dst.length) (hshort : ¬len > usockBatchSize) (n : Nat) :
    ∃ i', i.readMore i.bytes wire buf len n = .ok (i', wire.drop (min n usockBatchSize),
        ((wire.take (min n usockBatchSize)).take len).length) ∧
      Brings i i' buf ((wire.take (min n usockBatchSize)).take len)
        ((wire.take (min n usockBatchSize)).drop len) := by
  have hsize := h.size
  generalize hread : wire.take (min n usockBatchSize) = got
  have hgot : got.length ≤ usockBatchSize := by
    rw [← hread, List.length_take]
    omega
  have hdrop : wire.drop got.length = wire.drop (min n usockBatchSize) := by
    rw [← hread, List.length_take, ← List.drop_eq_drop_min]
  have hsz : (if got.length > len then len else got.length) = (got.take len).length := by
    rw [List.length_take]
    split <;> omega
  have hle : (got.take len).length ≤ len ∧ (got.take len).length ≤ got.length := by
    rw [List.length_take]
    omega
  have hroom' : 0 + got.length ≤ i.bytes.length := by omega
  have hbatch : (overwrite i.bytes 0 got).length = i.bytes.length := length_overwrite hroom'
  have htake : (overwrite i.bytes 0 got).take got.length = got := by
    have hend := take_overwrite_end got (Nat.zero_le i.bytes.length)
    rwa [Nat.zero_add, List.take_zero, List.nil_append] at hend
  have hcopied : ((overwrite i.bytes 0 got).drop 0).take (got.take len).length = got.take len := by
    rw [List.drop_zero, List.length_take, ← List.take_take, htake]
  rw [readMore, if_neg hshort, hread]
  simp only
  rw [memcpy_all hroom', ok_bind, hsz, memcpy_eq (by omega) (by omega), hcopied, ok_bind, hdrop]
  refine ⟨_, rfl, ⟨hle.2, hgot, hbatch.trans hsize, ?_⟩, rfl, rfl, rfl⟩
  change got.drop len = ((overwrite i.bytes 0 got).drop (got.take len).length).take
    (got.length - (got.take len).length)
  rw [← List.drop_take, htake, List.length_take, ← List.drop_eq_drop_min]

/-- A read does to the buffers what it does to the bytes. -/
theorem Leaves.recvRaw (h : i.Leaves u.batch) (wire : List UInt8)
    (hroom : buf + len ≤ i.dst.length) (n : Nat) :
    ∃ i' left wire' got,
      u.recvRaw wire len (.bytes n) = ({ u with batch := left }, wire', some got) ∧
      i.recvRaw wire buf len (.bytes n) = .ok (i', wire', some got.length) ∧
      got.length ≤ len ∧ Brings i i' buf got left := by
  have hstart : ({ i with batch := some i.bytes } : UsockIn).Leaves u.batch :=
    ⟨h.pos, h.len, h.size, h.left⟩
  obtain ⟨i₁, htake, hleft, hdst, hbuf, hlen₁, hbytes⟩ := hstart.takeBatch len hroom
  have hcount := hstart.sizeSub
  have hfirst : (u.batch.take len).length ≤ len := by
    rw [List.length_take]
    omega
  have hroom₁ : buf + (u.batch.take len).length + (len - (u.batch.take len).length) ≤
      i₁.dst.length := by
    rw [hdst, length_overwrite (by change _ ≤ i.dst.length; omega)]
    change _ ≤ i.dst.length
    omega
  have hwhole : ∀ got, overwrite (overwrite i.dst buf (u.batch.take len))
      (buf + (u.batch.take len).length) got = overwrite i.dst buf (u.batch.take len ++ got) :=
    fun got => overwrite_append got (by omega)
  change UsockIn.takeBatch { i with batch := some i.bytes } i.bytes buf len = _ at htake
  change i₁.bytes = i.bytes at hbytes
  unfold UsockIn.recvRaw Usock.recvRaw
  simp only
  rw [← UsockIn.bytes, hcount, htake, ok_bind]
  by_cases hall : u.batch ≠ [] ∧ len - (u.batch.take len).length = 0
  · -- the batch buffer has all of it
    have hall' : u.batch.length ≠ 0 ∧ len - (u.batch.take len).length = 0 :=
      ⟨fun hz => hall.1 (List.length_eq_zero_iff.mp hz), hall.2⟩
    rw [if_pos hall, if_pos hall']
    have hexact : (u.batch.take len).length = len := by omega
    exact ⟨i₁, _, wire, _, rfl, by rw [hexact]; rfl, hfirst, hleft, hdst, hbuf, hlen₁⟩
  · have hall' : ¬(u.batch.length ≠ 0 ∧ len - (u.batch.take len).length = 0) := fun h' =>
      hall ⟨fun hnil => h'.1 (by rw [hnil, List.length_nil]), h'.2⟩
    rw [if_neg hall, if_neg hall']
    simp only
    have hempty : u.batch.drop len = [] := by
      rw [List.drop_eq_nil_iff]
      rw [List.length_take] at hall'
      omega
    rw [hempty] at hleft ⊢
    by_cases hlong : len - (u.batch.take len).length > usockBatchSize
    · obtain ⟨i₂, hread, hbrings⟩ := hleft.readPlace wire hroom₁ hlong n
      rw [hbytes] at hread
      rw [if_pos hlong, hread, ok_bind]
      refine ⟨i₂, _, _, _, rfl, by rw [List.length_append]; rfl, ?_, hbrings.leaves, ?_,
        hbrings.buf.trans hbuf, hbrings.len.trans hlen₁⟩
      · rw [List.length_append, List.length_take (l := wire)]
        omega
      · rw [hbrings.dst, hdst]
        exact hwhole _
    · obtain ⟨i₂, hread, hbrings⟩ := hleft.readBatch wire hroom₁ hlong n
      rw [hbytes] at hread
      rw [if_neg hlong, hread, ok_bind]
      refine ⟨i₂, _, _, _, rfl, by rw [List.length_append]; rfl, ?_, hbrings.leaves, ?_,
        hbrings.buf.trans hbuf, hbrings.len.trans hlen₁⟩
      · have hmore := List.length_take_le (len - (u.batch.take len).length)
          (wire.take (min n usockBatchSize))
        rw [List.length_append]
        omega
      · rw [hbrings.dst, hdst]
        exact hwhole _

end UsockIn

/-! ## The array of pieces -/

variable {o : UsockOut} {out out' : List (List UInt8)} {n : Nat}

namespace UsockOut

/-- The header names the entries of `out`, which are within the array. -/
structure Names (o : UsockOut) (out : List (List UInt8)) : Prop where
  size : o.iov.length = usockMaxIovcnt
  count : o.msgIovlen = out.length
  entries : (o.iov.drop o.msgIov).take out.length = out.map entry

theorem Names.pieces (h : o.Names out) : o.pieces = out := by
  have hwhole : ∀ p ∈ out, (fun e : IovEntry => e.base.take e.len) (entry p) = p := fun p _ =>
    List.take_length
  rw [UsockOut.pieces, h.count, h.entries, List.map_map]
  exact (List.map_congr_left hwhole).trans (List.map_id' out)

/-- The loop takes the same pieces off the array as off the list. -/
theorem adjust_advance {iov : List IovEntry} {msgIov nbytes : Nat}
    (hentries : (iov.drop msgIov).take out.length = out.map entry)
    (hadv : Usock.advance out nbytes = .ok out') :
    ∃ o', adjust iov msgIov out.length nbytes = .ok (o', out'.isEmpty) ∧
      o'.iov.length = iov.length ∧ o'.msgIovlen = out'.length ∧
      (o'.iov.drop o'.msgIov).take out'.length = out'.map entry := by
  induction out generalizing msgIov nbytes with
  | nil =>
      rw [Usock.advance] at hadv
      split at hadv
      · rename_i hz
        obtain rfl := Except.ok.inj hadv
        exact ⟨_, if_pos hz, rfl, rfl, hentries⟩
      · exact absurd hadv (by simp)
  | cons p rest ih =>
      have hcons := hentries
      rw [List.length_cons, List.map_cons] at hcons
      cases htl : iov.drop msgIov with
      | nil =>
          rw [htl, List.take_nil] at hcons
          exact absurd hcons (by simp)
      | cons e tl =>
          rw [htl, List.take_succ_cons] at hcons
          obtain ⟨rfl, hrest⟩ := List.cons.inj hcons
          have hnext : iov.drop (msgIov + 1) = tl := by
            rw [← List.drop_drop, htl, List.drop_one, List.tail_cons]
          have hread : iov[msgIov]? = some (entry p) := by
            have hfirst : (iov.drop msgIov)[0]? = some (entry p) := by rw [htl]; rfl
            rwa [List.getElem?_drop, Nat.add_zero] at hfirst
          rw [Usock.advance] at hadv
          rw [List.length_cons, adjust]
          by_cases hz : nbytes = 0
          · rw [if_pos hz] at hadv ⊢
            obtain rfl := Except.ok.inj hadv
            exact ⟨_, rfl, rfl, rfl, hentries⟩
          · rw [if_neg hz] at hadv ⊢
            simp only [hread]
            by_cases hle : p.length ≤ nbytes
            · rw [if_pos hle] at hadv
              rw [if_pos (show nbytes ≥ (entry p).len from hle)]
              by_cases hlast : rest = []
              · rw [if_pos hlast] at hadv
                rw [if_pos (List.length_eq_zero_iff.mpr hlast)]
                obtain ⟨x, hassert, hpure⟩ := bind_eq_ok_iff.mp hadv
                obtain rfl := Except.ok.inj hpure
                have hall : gridAssert (nbytes = (entry p).len) = .ok x := hassert
                rw [hall, ok_bind]
                exact ⟨_, rfl, rfl, rfl, rfl⟩
              · rw [if_neg hlast] at hadv
                rw [if_neg (fun hl => hlast (List.length_eq_zero_iff.mp hl))]
                exact ih (by rw [hnext, hrest]) hadv
            · rw [if_neg hle] at hadv
              rw [if_neg (show ¬nbytes ≥ (entry p).len from hle)]
              obtain rfl := Except.ok.inj hadv
              have hset : (iov.set msgIov (entry (p.drop nbytes))).drop msgIov =
                  entry (p.drop nbytes) :: tl := by
                have hfirst : ((iov.drop msgIov).set 0 (entry (p.drop nbytes))) = _ :=
                  List.set_drop
                rwa [htl, List.set_cons_zero, Nat.add_zero, eq_comm] at hfirst
              have hentry : ({ base := (entry p).base.drop nbytes
                               len := (entry p).len - nbytes } : IovEntry) =
                  entry (p.drop nbytes) := by
                rw [entry, entry, List.length_drop]
              rw [hentry]
              refine ⟨_, rfl, List.length_set, rfl, ?_⟩
              change ((iov.set msgIov (entry (p.drop nbytes))).drop msgIov).take (rest.length + 1) =
                entry (p.drop nbytes) :: rest.map entry
              rw [hset, List.take_succ_cons, hrest]

/-- The pieces of a send are copied to the array. -/
theorem names_copy (hsize : o.iov.length = usockMaxIovcnt) {iov : List (List UInt8)}
    (hiov : iov.length ≤ usockMaxIovcnt) : (o.copy iov).Names (iov.filter (· ≠ [])) := by
  have hcount : (iov.filter (· ≠ [])).length ≤ iov.length := List.length_filter_le _ iov
  have hroom : 0 + ((iov.filter (· ≠ [])).map entry).length ≤ o.iov.length := by
    rw [List.length_map]
    omega
  have hend := take_overwrite_end ((iov.filter (· ≠ [])).map entry) (Nat.zero_le o.iov.length)
  rw [Nat.zero_add, List.take_zero, List.nil_append, List.length_map] at hend
  refine ⟨(length_overwrite hroom).trans hsize, List.length_map .., ?_⟩
  rw [copy, List.drop_zero, hend]

/-- A send does to the array what it does to the list of pieces. -/
theorem Names.sendRaw {u u' : Usock} {w : List UInt8} {done : Bool} (h : o.Names u.out)
    (hsend : u.sendRaw n = .ok (u', w, done)) :
    ∃ o', o.sendRaw n = .ok (o', w, done) ∧ o'.Names u'.out := by
  rw [Usock.sendRaw] at hsend
  obtain ⟨out', hadv, hresult⟩ := bind_eq_ok_iff.mp hsend
  obtain ⟨rfl, rfl, rfl⟩ := Prod.mk.injEq .. ▸ Except.ok.inj hresult
  obtain ⟨o', hadjust, hsize, hcount, hentries⟩ := adjust_advance h.entries hadv
  refine ⟨o', ?_, hsize.trans h.size, hcount, hentries⟩
  rw [UsockOut.sendRaw, h.pieces, h.count, List.length_take, hadjust]
  rfl

end UsockOut

/-! ## The calls -/

namespace UsockMem

variable {f : UsockMem} {dst : List UInt8}

/-- A usock in memory stands for one without its buffers.  Where no request is open, what a
request has left there does not matter. -/
structure Stands (f : UsockMem) (u : Usock) : Prop where
  state : f.state = u.state
  fd : f.fd = u.fd
  tasks : f.tasks = u.tasks
  pollIn : f.pollIn = u.pollIn
  pollOut : f.pollOut = u.pollOut
  leaves : f.inPart.Leaves u.batch
  len : 0 < u.inLen → f.inPart.len = u.inLen
  size : u.inLen < 2 ^ 64
  room : 0 < u.inLen → f.inPart.buf + u.inLen = f.inPart.dst.length
  filled : 0 < u.inLen → f.inPart.dst.take f.inPart.buf = u.inBuf
  array : f.outPart.iov.length = usockMaxIovcnt
  names : u.out ≠ [] → f.outPart.Names u.out

theorem stands_connected : Stands {} Usock.connected where
  state := rfl
  fd := rfl
  tasks := rfl
  pollIn := rfl
  pollOut := rfl
  leaves := ⟨Nat.le_refl 0, Nat.zero_le _, List.length_replicate .., rfl⟩
  len h := absurd h (Nat.lt_irrefl 0)
  size := by decide
  room h := absurd h (Nat.lt_irrefl 0)
  filled h := absurd h (Nat.lt_irrefl 0)
  array := List.length_replicate ..
  names h := absurd rfl h

/-- A usock that is started again has what was left in its batch buffer. -/
theorem Stands.restarted (h : Stands f u) :
    Stands f.restarted { Usock.connected with batch := u.batch } where
  state := rfl
  fd := rfl
  tasks := rfl
  pollIn := rfl
  pollOut := rfl
  leaves := h.leaves
  len hpos := absurd hpos (Nat.lt_irrefl 0)
  size := Nat.two_pow_pos 64
  room hpos := absurd hpos (Nat.lt_irrefl 0)
  filled hpos := absurd hpos (Nat.lt_irrefl 0)
  array := h.array
  names hne := absurd rfl hne

/-- A receive, with the memory that the bytes go to. -/
theorem Stands.recv (h : Stands f u) (hu : u.Steady) (hnot : u.NotReceiving)
    (hsize : dst.length < 2 ^ 64) (wire : List UInt8) (n : Nat) :
    ∃ f' u' wire' e, f.recv dst wire (.bytes n) = .ok (f', wire', e) ∧
      u.recv wire dst.length (.bytes n) = .ok (u', wire', e) ∧ Stands f' u' ∧
      (e = some .received → f'.inPart.dst = u'.inBuf) := by
  have hleaves : ({ f.inPart with dst := dst } : UsockIn).Leaves u.batch :=
    ⟨h.leaves.pos, h.leaves.len, h.leaves.size, h.leaves.left⟩
  obtain ⟨i', left, wire', got, hraw, hmem, hle, hbrings⟩ := hleaves.recvRaw wire
    (Nat.le_of_eq (Nat.zero_add dst.length)) n
  have htake : i'.dst.take got.length = got := by
    have hend := take_overwrite_end got (Nat.zero_le dst.length)
    rw [hbrings.dst]
    rwa [Nat.zero_add, List.take_zero, List.nil_append] at hend
  have hlength : i'.dst.length = dst.length := by
    rw [hbrings.dst]
    exact length_overwrite (by rwa [Nat.zero_add])
  have hactive : f.state = .active := h.state.trans hu.state
  unfold UsockMem.recv Usock.recv
  rw [gridAssert_pos hu.state, gridAssert_pos hactive, ok_bind, ok_bind, hraw, hmem, ok_bind]
  simp only
  by_cases hall : got.length = dst.length
  · rw [if_pos hall, if_pos hall]
    refine ⟨_, _, _, _, rfl, rfl, ⟨h.state, h.fd, h.tasks, h.pollIn, h.pollOut, hbrings.leaves,
      ?_, h.size, ?_, ?_, h.array, h.names⟩, fun _ => ?_⟩
    · intro hpos
      exact absurd hpos (by simp [hnot.inLen])
    · intro hpos
      exact absurd hpos (by simp [hnot.inLen])
    · intro hpos
      exact absurd hpos (by simp [hnot.inLen])
    · change i'.dst = got
      rw [← htake, hall, ← hlength, List.take_length]
  · have htask : UsockTask.recv ∉ f.tasks := by
      rw [h.tasks]
      exact hnot.task
    rw [if_neg hall, if_neg hall]
    simp only [execute, Usock.execute, gridAssert_pos hnot.task, gridAssert_pos htask, ok_bind,
      pure_eq_ok]
    refine ⟨_, _, _, _, rfl, rfl, ⟨h.state, h.fd, congrArg (· ++ [UsockTask.recv]) h.tasks,
      h.pollIn, h.pollOut, ⟨hbrings.leaves.pos, hbrings.leaves.len, hbrings.leaves.size,
      hbrings.leaves.left⟩, fun _ => rfl, Nat.lt_of_le_of_lt (Nat.sub_le ..) hsize, fun _ => ?_,
      fun _ => htake, h.array, h.names⟩, by simp⟩
    change got.length + (dst.length - got.length) = i'.dst.length
    omega

/-- The worker reads into the rest of the place. -/
theorem Stands.fdIn (h : Stands f u) (hu : u.Steady) (hrec : u.Receiving) (wire : List UInt8)
    (n : Nat) :
    ∃ f' u' wire' e, f.fdIn wire (.bytes n) = .ok (f', wire', e) ∧
      u.fdIn wire (.bytes n) = .ok (u', wire', e) ∧ Stands f' u' ∧
      (e = some .received → f'.inPart.dst = u'.inBuf) := by
  have hroom := h.room hrec.inLen
  have hlen := h.len hrec.inLen
  obtain ⟨i', left, wire', got, hraw, hmem, hle, hbrings⟩ := h.leaves.recvRaw wire
    (Nat.le_of_eq hroom) n
  have htake : i'.dst.take (f.inPart.buf + got.length) = u.inBuf ++ got := by
    rw [hbrings.dst, take_overwrite_end got (by omega), h.filled hrec.inLen]
  have hlength : i'.dst.length = f.inPart.dst.length := by
    rw [hbrings.dst]
    exact length_overwrite (by omega)
  have hmoved : i'.moved got.length =
      { i' with len := u.inLen - got.length, buf := i'.buf + got.length } := by
    rw [UsockIn.moved, hbrings.len, hlen, sizeSub_eq hle h.size]
  have hactive : f.state = .active := h.state.trans hu.state
  rw [← hlen] at hmem
  have hcall : f.fdIn wire (.bytes n) = f.readOn wire (.bytes n) := by
    rw [UsockMem.fdIn, hactive]
  rw [hcall, readOn, hmem, ok_bind]
  simp only
  rw [hmoved]
  unfold Usock.fdIn
  rw [hu.state]
  simp only [hraw]
  by_cases hall : u.inLen - got.length = 0
  · rw [if_pos hall, if_pos hall]
    refine ⟨_, _, _, _, rfl, rfl, ⟨h.state, h.fd, h.tasks, rfl, h.pollOut, ⟨hbrings.leaves.pos,
      hbrings.leaves.len, hbrings.leaves.size, hbrings.leaves.left⟩, fun _ => rfl, ?_, ?_, ?_,
      h.array, h.names⟩, fun _ => ?_⟩
    · exact Nat.lt_of_le_of_lt (Nat.sub_le ..) h.size
    · intro hpos
      exact absurd hall (Nat.ne_of_gt hpos)
    · intro hpos
      exact absurd hall (Nat.ne_of_gt hpos)
    · change i'.dst = u.inBuf ++ got
      rw [← htake, List.take_of_length_le (by omega)]
  · rw [if_neg hall, if_neg hall]
    refine ⟨_, _, _, _, rfl, rfl, ⟨h.state, h.fd, h.tasks, h.pollIn, h.pollOut,
      ⟨hbrings.leaves.pos, hbrings.leaves.len, hbrings.leaves.size, hbrings.leaves.left⟩,
      fun _ => rfl, ?_, fun _ => ?_, fun _ => ?_, h.array, h.names⟩, by simp⟩
    · exact Nat.lt_of_le_of_lt (Nat.sub_le ..) h.size
    · change i'.buf + got.length + (u.inLen - got.length) = i'.dst.length
      rw [hbrings.buf]
      omega
    · change i'.dst.take (i'.buf + got.length) = u.inBuf ++ got
      rw [hbrings.buf, htake]

/-- What a send leaves of a usock. -/
theorem sendRaw_out {u' : Usock} {w : List UInt8} {done : Bool} {n : Nat}
    (h : u.sendRaw n = .ok (u', w, done)) : ∃ out, u' = { u with out := out } := by
  rw [Usock.sendRaw] at h
  obtain ⟨out, -, hresult⟩ := bind_eq_ok_iff.mp h
  exact ⟨out, (Prod.mk.inj (Except.ok.inj hresult)).1.symm⟩

/-- A send, with the array of its pieces. -/
theorem Stands.send (h : Stands f u) (hu : u.Steady) (hnot : u.NotSending)
    {iov : List (List UInt8)} (hiov : iov.length ≤ usockMaxIovcnt) {n : Nat}
    {u' : Usock} {w : List UInt8} {e : Option UsockEvent}
    (hsend : u.send iov (.bytes n) = .ok (u', w, e)) :
    ∃ f', f.send iov (.bytes n) = .ok (f', w, e) ∧ Stands f' u' := by
  have hactive : f.state = .active := h.state.trans hu.state
  have hcopy := UsockOut.names_copy h.array hiov
  rw [Usock.send, gridAssert_pos hu.state, gridAssert_pos hiov, ok_bind, ok_bind] at hsend
  simp only at hsend
  obtain ⟨⟨u₁, w₁, done⟩, hraw, hrest⟩ := bind_eq_ok_iff.mp hsend
  obtain ⟨o', hmem, hnames⟩ := UsockOut.Names.sendRaw (u := { u with out := iov.filter (· ≠ []) })
    hcopy hraw
  obtain ⟨out, rfl⟩ := sendRaw_out hraw
  rw [UsockMem.send, gridAssert_pos hactive, gridAssert_pos hiov, ok_bind, ok_bind]
  simp only
  rw [hmem, ok_bind]
  cases done with
  | true =>
      obtain ⟨rfl, hw⟩ := Prod.mk.inj (Except.ok.inj hrest)
      obtain ⟨rfl, rfl⟩ := Prod.mk.inj hw
      exact ⟨_, rfl, h.state, h.fd, h.tasks, h.pollIn, h.pollOut, h.leaves, h.len, h.size, h.room,
        h.filled, hnames.size, fun _ => hnames⟩
  | false =>
      have htask : UsockTask.send ∉ f.tasks := by
        rw [h.tasks]
        exact hnot.task
      obtain ⟨u₂, hexecute, hpure⟩ := bind_eq_ok_iff.mp hrest
      rw [Usock.execute, gridAssert_pos hnot.task, ok_bind] at hexecute
      obtain rfl := Except.ok.inj hexecute
      obtain ⟨rfl, hw⟩ := Prod.mk.inj (Except.ok.inj hpure)
      obtain ⟨rfl, rfl⟩ := Prod.mk.inj hw
      rw [if_neg (by simp), execute, gridAssert_pos htask]
      exact ⟨_, rfl, h.state, h.fd, congrArg (· ++ [UsockTask.send]) h.tasks, h.pollIn, h.pollOut,
        h.leaves, h.len, h.size, h.room, h.filled, hnames.size, fun _ => hnames⟩

/-- The worker writes what is left of the pieces. -/
theorem Stands.fdOut (h : Stands f u) (hu : u.Steady) (hne : u.out ≠ []) {n : Nat} {u' : Usock}
    {w : List UInt8} {e : Option UsockEvent} (hout : u.fdOut (.bytes n) = .ok (u', w, e)) :
    ∃ f', f.fdOut (.bytes n) = .ok (f', w, e) ∧ Stands f' u' := by
  have hactive : f.state = .active := h.state.trans hu.state
  rw [Usock.fdOut, hu.state] at hout
  simp only at hout
  obtain ⟨⟨u₁, w₁, done⟩, hraw, hrest⟩ := bind_eq_ok_iff.mp hout
  obtain ⟨o', hmem, hnames⟩ := (h.names hne).sendRaw hraw
  obtain ⟨out, rfl⟩ := sendRaw_out hraw
  rw [UsockMem.fdOut, hactive]
  simp only
  rw [hmem, ok_bind]
  cases done with
  | true =>
      obtain ⟨rfl, hw⟩ := Prod.mk.inj (Except.ok.inj hrest)
      obtain ⟨rfl, rfl⟩ := Prod.mk.inj hw
      exact ⟨_, rfl, hu.state.symm, h.fd, h.tasks, h.pollIn, rfl, h.leaves, h.len, h.size, h.room,
        h.filled, hnames.size, fun _ => hnames⟩
  | false =>
      obtain ⟨rfl, hw⟩ := Prod.mk.inj (Except.ok.inj hrest)
      obtain ⟨rfl, rfl⟩ := Prod.mk.inj hw
      exact ⟨_, rfl, hu.state.symm, h.fd, h.tasks, h.pollIn, h.pollOut, h.leaves, h.len, h.size,
        h.room, h.filled, hnames.size, fun _ => hnames⟩

/-- The worker begins to poll for the next of its tasks. -/
theorem Stands.runTask (h : Stands f u) (hu : u.Steady) {task : UsockTask}
    {tasks : List UsockTask} (htasks : u.tasks = task :: tasks) :
    ∃ f' u', f.runTask = .ok (f', none) ∧ u.runTask = .ok (u', none) ∧ Stands f' u' := by
  have hfd : f.fd = true := h.fd.trans hu.fd
  rcases hu.tasks task (by rw [htasks]; exact List.mem_cons_self) with rfl | rfl
  · refine ⟨{ f with tasks := tasks, pollOut := true }, { u with tasks := tasks, pollOut := true },
      ?_, ?_, ⟨h.state, h.fd, rfl, h.pollIn, rfl, h.leaves, h.len, h.size, h.room, h.filled,
      h.array, h.names⟩⟩
    · simp [UsockMem.runTask, h.tasks, htasks, feedTask, hfd]
    · simp [Usock.runTask, htasks, Usock.feedTask, hu.fd]
  · refine ⟨{ f with tasks := tasks, pollIn := true }, { u with tasks := tasks, pollIn := true },
      ?_, ?_, ⟨h.state, h.fd, rfl, rfl, h.pollOut, h.leaves, h.len, h.size, h.room, h.filled,
      h.array, h.names⟩⟩
    · simp [UsockMem.runTask, h.tasks, htasks, feedTask, hfd]
    · simp [Usock.runTask, htasks, Usock.feedTask, hu.fd]

end UsockMem

end GridMq.Aio
