import GridMq.Utils.Chunk
import GridMq.Utils.Msg

set_option autoImplicit false

/-!
# Chunks with their reference counts (`src/utils/chunk.c`, `chunkref.c`, `msg.c`)

A chunk is known by its address, and an address is not given out twice.  A message refers
to three chunks, or has the bytes in itself where there are few of them.
-/

namespace GridMq

/-- `struct grid_chunk`.  `empty` is the space between the header and the data, which is
written in front of the data. -/
structure MsgChunk where
  refcount : Nat
  empty : Nat := 0
  data : List UInt8
  fits : Fits data.length

theorem noChunk_fresh (a : Nat) (_ : 1 ≤ a) : (fun _ => none : Nat → Option MsgChunk) a = none :=
  rfl

/-- The chunks that are allocated, and the address of the next one. -/
structure ChunkHeap where
  chunks : Nat → Option MsgChunk := fun _ => none
  next : Nat := 1
  fresh : ∀ a, next ≤ a → chunks a = none := by exact noChunk_fresh

/-- `struct grid_chunkref`. -/
inductive Chunkref where
  | small (data : List UInt8)
  | chunk (addr : Nat)
  deriving DecidableEq

namespace ChunkHeap

/-- A chunk that was allocated changes or goes. -/
def set (self : ChunkHeap) (addr : Nat) (chunk : Option MsgChunk) : ChunkHeap where
  chunks a := if a = addr ∧ addr < self.next then chunk else self.chunks a
  next := self.next
  fresh a ha := by
    rw [if_neg (by omega)]
    exact self.fresh a ha

/-- `grid_chunk_alloc`, and the bytes are written to the chunk. -/
def alloc (self : ChunkHeap) (data : List UInt8) (fits : Fits data.length) : ChunkHeap where
  chunks a := if a = self.next then some { refcount := 1, data := data, fits := fits }
    else self.chunks a
  next := self.next + 1
  fresh a ha := by
    rw [if_neg (by omega)]
    exact self.fresh a (by omega)

/-- `grid_chunk_getptr`, which asserts the tag of the chunk. -/
def getptr (self : ChunkHeap) (addr : Nat) : Except Abort MsgChunk :=
  match self.chunks addr with
  | none => .error .assertion
  | some chunk => .ok chunk

/-- `grid_chunk_free`. -/
def free (self : ChunkHeap) (addr : Nat) : Except Abort ChunkHeap := do
  let chunk ← self.getptr addr
  if chunk.refcount ≤ 1 then return self.set addr none
  else return self.set addr (some { chunk with refcount := chunk.refcount - 1 })

/-- `grid_chunkref_init`, and the bytes are written. -/
def store (self : ChunkHeap) (data : List UInt8) : Except Abort (ChunkHeap × Chunkref) :=
  if data.length < chunkrefMax then .ok (self, .small data)
  else if h : Fits data.length then .ok (self.alloc data h, .chunk self.next)
  else .error .errnum

/-- `grid_chunkref_term`. -/
def term (self : ChunkHeap) : Chunkref → Except Abort ChunkHeap
  | .small _ => .ok self
  | .chunk addr => self.free addr

/-- `grid_chunkref_data`. -/
def bytes (self : ChunkHeap) : Chunkref → List UInt8
  | .small data => data
  | .chunk addr => ((self.chunks addr).map MsgChunk.data).getD []

end ChunkHeap

/-- `struct grid_msg`. -/
structure GridMsg where
  sphdr : Chunkref := .small []
  hdrs : Chunkref := .small []
  body : Chunkref := .small []
  deriving DecidableEq

/-- The chunk that a reference is to. -/
def Chunkref.addrs : Chunkref → List Nat
  | .small _ => []
  | .chunk addr => [addr]

namespace GridMsg

/-- The chunks of a message. -/
def addrs (self : GridMsg) : List Nat := self.sphdr.addrs ++ self.hdrs.addrs ++ self.body.addrs

/-- What the protocols see of a message. -/
def view (self : GridMsg) (heap : ChunkHeap) : Msg where
  sphdr := heap.bytes self.sphdr
  body := heap.bytes self.body

/-- `grid_msg_term`. -/
def term (self : GridMsg) (heap : ChunkHeap) : Except Abort ChunkHeap := do
  let heap ← heap.term self.sphdr
  let heap ← heap.term self.hdrs
  heap.term self.body

end GridMsg

/-! ## What stays as it is -/

namespace ChunkHeap

variable {self self' : ChunkHeap} {ref : Chunkref} {data : List UInt8} {addr : Nat}

theorem getptr_eq_ok {chunk : MsgChunk} (h : self.getptr addr = .ok chunk) :
    self.chunks addr = some chunk := by
  unfold getptr at h
  cases hc : self.chunks addr with
  | none => simp [hc] at h
  | some c => simpa [hc] using h

theorem lt_next {chunk : MsgChunk} (h : self.chunks addr = some chunk) : addr < self.next := by
  by_contra hge
  exact absurd (self.fresh addr (Nat.not_lt.mp hge)) (by simp [h])

/-- A chunk that is released is not the same as before; the others are. -/
theorem free_spec (h : self.free addr = .ok self') :
    (∃ chunk, self.chunks addr = some chunk) ∧ self'.chunks addr ≠ self.chunks addr ∧
      ∀ a, a ≠ addr → self'.chunks a = self.chunks a := by
  obtain ⟨chunk, hget, h⟩ := bind_eq_ok_iff.mp h
  have hchunk := getptr_eq_ok hget
  have hlt := lt_next hchunk
  refine ⟨⟨chunk, hchunk⟩, ?_, ?_⟩
  · rw [hchunk]
    split at h
    · obtain rfl := Except.ok.inj h
      simp [set, hlt]
    · rename_i hmany
      obtain rfl := Except.ok.inj h
      intro heq
      simp only [set, hlt, and_self, if_true, Option.some.injEq] at heq
      have hrefs := congrArg MsgChunk.refcount heq
      simp only at hrefs
      omega
  · intro a ha
    split at h
    · obtain rfl := Except.ok.inj h
      simp [set, ha]
    · obtain rfl := Except.ok.inj h
      simp [set, ha]

/-- What is stored is stored in a chunk of its own. -/
theorem store_spec (h : self.store data = .ok (self', ref)) :
    (∀ a ∈ ref.addrs, self.chunks a = none ∧ self.next ≤ a) ∧ self.next ≤ self'.next ∧
      ∀ a, a < self.next → self'.chunks a = self.chunks a := by
  unfold store at h
  split at h
  · obtain ⟨rfl, rfl⟩ := Prod.mk.inj (Except.ok.inj h)
    exact ⟨fun a ha => absurd ha (by simp [Chunkref.addrs]), Nat.le_refl _, fun a _ => rfl⟩
  · split at h
    · obtain ⟨rfl, rfl⟩ := Prod.mk.inj (Except.ok.inj h)
      refine ⟨?_, Nat.le_succ _, ?_⟩
      · intro a ha
        obtain rfl := List.mem_singleton.mp ha
        exact ⟨self.fresh _ (Nat.le_refl _), Nat.le_refl _⟩
      · intro a ha
        simp only [alloc]
        rw [if_neg (by omega)]
    · exact absurd h (by simp)

/-- What is stored can be read back. -/
theorem bytes_store (h : self.store data = .ok (self', ref)) : self'.bytes ref = data := by
  unfold store at h
  split at h
  · obtain ⟨rfl, rfl⟩ := Prod.mk.inj (Except.ok.inj h)
    rfl
  · split at h
    · obtain ⟨rfl, rfl⟩ := Prod.mk.inj (Except.ok.inj h)
      simp [bytes, alloc]
    · exact absurd h (by simp)

/-- Bytes can be stored if they are few or fit. -/
theorem store_of_fits (h : data.length < chunkrefMax ∨ Fits data.length) :
    ∃ self' ref, self.store data = .ok (self', ref) := by
  unfold store
  split
  · exact ⟨_, _, rfl⟩
  · rename_i hlarge
    exact ⟨_, _, dif_pos (h.resolve_left hlarge)⟩

/-- What could be stored fits. -/
theorem fits_of_store {r : ChunkHeap × Chunkref} (h : self.store data = .ok r) :
    Fits data.length := by
  unfold store at h
  split at h
  · rename_i hsmall
    exact Nat.le_trans (Nat.add_le_add_left (Nat.le_of_lt hsmall) _) (by decide)
  · split at h
    · assumption
    · exact absurd h (by simp)

/-- The release of a reference touches no chunk but its own. -/
theorem term_other (h : self.term ref = .ok self') {a : Nat} (ha : a ∉ ref.addrs) :
    self'.chunks a = self.chunks a := by
  cases ref with
  | small data =>
      obtain rfl := Except.ok.inj h
      rfl
  | chunk addr => exact (free_spec h).2.2 a (by simpa [Chunkref.addrs] using ha)

end ChunkHeap

namespace GridMsg

variable {self : GridMsg} {heap heap' : ChunkHeap}

theorem term_other (h : self.term heap = .ok heap') {a : Nat} (ha : a ∉ self.addrs) :
    heap'.chunks a = heap.chunks a := by
  simp only [addrs, List.mem_append, not_or] at ha
  obtain ⟨heap₁, h1, h⟩ := bind_eq_ok_iff.mp h
  obtain ⟨heap₂, h2, h3⟩ := bind_eq_ok_iff.mp h
  rw [ChunkHeap.term_other h3 ha.2, ChunkHeap.term_other h2 ha.1.2,
    ChunkHeap.term_other h1 ha.1.1]

end GridMsg

end GridMq
