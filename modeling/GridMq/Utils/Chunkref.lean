import GridMq.Utils.ChunkHeap

set_option autoImplicit false

/-!
# References to chunks (`src/utils/chunkref.c`, `src/utils/chunk.c`)

The functions that copy, move, trim and take apart references.  Each has a theorem that
says what it does to the reference counts (`count`) and to the data (`bytes`).
-/

namespace GridMq

/-- `UINT32_MAX`. -/
def uint32Max : Nat := 2 ^ 32 - 1

/-- The first byte of a reference, which is the size of the data or `0xff`. -/
def Chunkref.tag : Chunkref → UInt8
  | .small data => .ofNat data.length
  | .chunk _ => 0xff

/-- The tag of data that is short enough for the reference is never that of a chunk. -/
theorem Chunkref.tag_small {data : List UInt8} (h : data.length < chunkrefMax) :
    (Chunkref.small data).tag ≠ 0xff := by
  have hmax : chunkrefMax = 32 := rfl
  intro htag
  have hnat : (UInt8.ofNat data.length).toNat = 255 := congrArg UInt8.toNat htag
  rw [UInt8.toNat_ofNat'] at hnat
  omega

namespace ChunkHeap

/-- `grid_chunk_addref`. -/
def addref (self : ChunkHeap) (addr n : Nat) : Except Abort ChunkHeap := do
  let chunk ← self.getptr addr
  return self.set addr (some { chunk with refcount := (chunk.refcount + n) % 2 ^ 32 })

/-- `grid_chunk_trim`. -/
def chunkTrim (self : ChunkHeap) (addr n : Nat) : Except Abort ChunkHeap := do
  let chunk ← self.getptr addr
  gridAssert (n ≤ chunk.data.length)
  gridAssert (chunk.empty + n < uint32Max)
  return self.set addr (some { chunk with
    empty := chunk.empty + n
    data := chunk.data.drop n
    fits := by
      have hfits : chunkHdrsize + chunk.data.length ≤ ptrdiffMax := chunk.fits
      change chunkHdrsize + (chunk.data.drop n).length ≤ ptrdiffMax
      rw [List.length_drop]
      omega })

/-- `grid_chunkref_cp`. -/
def cp (self : ChunkHeap) : Chunkref → Except Abort (ChunkHeap × Chunkref)
  | .small data => .ok (self, .small data)
  | .chunk addr => do
      let self ← self.addref addr 1
      return (self, .chunk addr)

/-- `grid_chunkref_bulkcopy_start`. -/
def bulkcopyStart (self : ChunkHeap) (copies : Nat) : Chunkref → Except Abort ChunkHeap
  | .small _ => .ok self
  | .chunk addr => self.addref addr copies

/-- `grid_chunkref_trim`. -/
def trim (self : ChunkHeap) (n : Nat) : Chunkref → Except Abort (ChunkHeap × Chunkref)
  | .small data => do
      gridAssert (n ≤ data.length)
      return (self, .small (data.drop n))
  | .chunk addr => do
      let self ← self.chunkTrim addr n
      return (self, .chunk addr)

/-- `grid_chunkref_getchunk`: the chunk; the reference is an empty one afterwards. -/
def getchunk (self : ChunkHeap) : Chunkref → Except Abort (ChunkHeap × Nat)
  | .small data =>
      if h : Fits data.length then .ok (self.alloc data h, self.next) else .error .errnum
  | .chunk addr => .ok (self, addr)

/-- The reference count of the chunk at an address, 0 if there is none. -/
def count (self : ChunkHeap) (addr : Nat) : Nat :=
  match self.chunks addr with
  | none => 0
  | some chunk => chunk.refcount

variable {self self' : ChunkHeap} {addr n : Nat} {chunk : MsgChunk}

theorem getptr_some (h : self.chunks addr = some chunk) : self.getptr addr = .ok chunk := by
  simp [getptr, h]

theorem count_some (h : self.chunks addr = some chunk) : self.count addr = chunk.refcount := by
  simp [count, h]

theorem set_chunks (h : self.chunks addr = some chunk) (new : Option MsgChunk) (a : Nat) :
    (self.set addr new).chunks a = if a = addr then new else self.chunks a := by
  have hlt := lt_next h
  simp only [set, hlt, and_true]

/-- What an operation leaves as it is: the chunks at the other addresses, and the address of
the next one. -/
structure Local (heap heap' : ChunkHeap) (addr : Nat) : Prop where
  other : ∀ a, a ≠ addr → heap'.chunks a = heap.chunks a
  next : heap'.next = heap.next

theorem Local.set (h : self.chunks addr = some chunk) (new : Option MsgChunk) :
    Local self (self.set addr new) addr := by
  refine ⟨?_, rfl⟩
  intro a ha
  rw [set_chunks h, if_neg ha]

theorem Local.count_other (h : Local self self' addr) {a : Nat} (ha : a ≠ addr) :
    self'.count a = self.count a := by
  rw [count, count, h.other a ha]

theorem Local.bytes_other (h : Local self self' addr) {a : Nat} (ha : a ≠ addr) :
    self'.bytes (.chunk a) = self.bytes (.chunk a) := by
  rw [bytes, bytes, h.other a ha]

/-- More references to a chunk, as long as they can be counted. -/
theorem addref_spec (h : self.chunks addr = some chunk) (hfew : chunk.refcount + n < 2 ^ 32) :
    ∃ self', self.addref addr n = .ok self' ∧ Local self self' addr ∧
      self'.chunks addr = some { chunk with refcount := chunk.refcount + n } := by
  refine ⟨_, by rw [addref, getptr_some h]; rfl, .set h _, ?_⟩
  rw [set_chunks h, if_pos rfl, Nat.mod_eq_of_lt hfew]

/-- One reference less: the chunk goes with the last one. -/
theorem free_one (h : self.chunks addr = some chunk) (hpos : 0 < chunk.refcount) :
    ∃ self', self.free addr = .ok self' ∧ Local self self' addr ∧
      self'.chunks addr = if chunk.refcount = 1 then none
        else some { chunk with refcount := chunk.refcount - 1 } := by
  by_cases hone : chunk.refcount = 1
  · refine ⟨self.set addr none, ?_, .set h _, ?_⟩
    · rw [free, getptr_some h, ok_bind, if_pos (by omega)]
      rfl
    · rw [set_chunks h, if_pos rfl, if_pos hone]
  · refine ⟨self.set addr (some { chunk with refcount := chunk.refcount - 1 }), ?_, .set h _, ?_⟩
    · rw [free, getptr_some h, ok_bind, if_neg (by omega)]
      rfl
    · rw [set_chunks h, if_pos rfl, if_neg hone]

/-- A chunk that has a reference can be released, and has one less then. -/
theorem free_count (h : 0 < self.count addr) :
    ∃ self', self.free addr = .ok self' ∧ Local self self' addr ∧
      self'.count addr = self.count addr - 1 := by
  cases hchunk : self.chunks addr with
  | none => exact absurd h (by simp [count, hchunk])
  | some chunk =>
      rw [count_some hchunk] at h ⊢
      obtain ⟨self', hfree, hlocal, hafter⟩ := free_one hchunk h
      refine ⟨self', hfree, hlocal, ?_⟩
      rw [count, hafter]
      split
      · rename_i hnone
        split at hnone
        · omega
        · exact absurd hnone (by simp)
      · rename_i chunk' hsome
        split at hsome
        · exact absurd hsome (by simp)
        · obtain rfl := Option.some.inj hsome
          rfl

/-- A reference that is counted can be released, and is not counted any more. -/
theorem term_count {ref : Chunkref} (h : ∀ a, ref.addrs.count a ≤ self.count a) :
    ∃ self', self.term ref = .ok self' ∧
      ∀ a, self'.count a = self.count a - ref.addrs.count a := by
  cases ref with
  | small data => exact ⟨self, rfl, fun a => rfl⟩
  | chunk addr =>
      have hone := h addr
      rw [Chunkref.addrs, List.count_singleton_self] at hone
      obtain ⟨self', hfree, hlocal, hcount⟩ := free_count hone
      refine ⟨self', hfree, fun a => ?_⟩
      by_cases ha : a = addr
      · rw [ha, hcount, Chunkref.addrs, List.count_singleton_self]
      · rw [hlocal.count_other ha, Chunkref.addrs, List.count_singleton,
          if_neg (by simpa using Ne.symm ha)]
        rfl

/-- Fewer bytes, as long as the space in front of them can be written down. -/
theorem chunkTrim_spec (h : self.chunks addr = some chunk) (hle : n ≤ chunk.data.length)
    (hroom : chunk.empty + n < uint32Max) :
    ∃ self', self.chunkTrim addr n = .ok self' ∧ Local self self' addr ∧
      ∃ chunk', self'.chunks addr = some chunk' ∧ chunk'.refcount = chunk.refcount ∧
        chunk'.empty = chunk.empty + n ∧ chunk'.data = chunk.data.drop n := by
  unfold chunkTrim
  rw [getptr_some h, ok_bind, gridAssert_pos hle, ok_bind, gridAssert_pos hroom, ok_bind]
  exact ⟨_, rfl, .set h _, _, (set_chunks h _ _).trans (if_pos rfl), rfl, rfl, rfl⟩

/-- A new chunk at the next address. -/
theorem alloc_chunks (data : List UInt8) (fits : Fits data.length) (a : Nat) :
    (self.alloc data fits).chunks a = if a = self.next then
      some { refcount := 1, data := data, fits := fits } else self.chunks a := rfl

/-- The freed ones among some chunks. -/
def freedOf (self : ChunkHeap) (addrs : List Nat) : List Nat :=
  addrs.filter fun a => (self.chunks a).isNone

/-! ## Steps that free nothing -/

/-- No address is `NULL`, and every chunk has a reference. -/
structure Counted (heap : ChunkHeap) : Prop where
  next : 1 ≤ heap.next
  chunks : ∀ a chunk, heap.chunks a = some chunk → 1 ≤ a ∧ 0 < chunk.refcount

/-- References are added, to chunks that are there or are new, and no chunk goes. -/
structure Grows (heap heap' : ChunkHeap) (extra : Nat → Nat) : Prop where
  count : ∀ a, heap'.count a = heap.count a + extra a
  data : ∀ a, heap.chunks a ≠ none → heap'.bytes (.chunk a) = heap.bytes (.chunk a)
  gone : ∀ a, (1 ≤ a ∧ a < heap'.next ∧ heap'.chunks a = none) ↔
    (1 ≤ a ∧ a < heap.next ∧ heap.chunks a = none)
  counted : heap.Counted → heap'.Counted

theorem Grows.refl (heap : ChunkHeap) : Grows heap heap fun _ => 0 :=
  ⟨fun _ => rfl, fun _ _ => rfl, fun _ => Iff.rfl, fun h => h⟩

variable {heap heap' : ChunkHeap}

theorem Grows.alloc (data : List UInt8) (fits : Fits data.length) :
    Grows heap (heap.alloc data fits) fun a => if a = heap.next then 1 else 0 := by
  have hnew : ∀ a, a ≠ heap.next → (heap.alloc data fits).chunks a = heap.chunks a := by
    intro a ha
    rw [alloc_chunks, if_neg ha]
  have hself : (heap.alloc data fits).chunks heap.next =
      some { refcount := 1, data := data, fits := fits } := by
    rw [alloc_chunks, if_pos rfl]
  have hfree : heap.chunks heap.next = none := heap.fresh _ (Nat.le_refl _)
  refine ⟨?_, ?_, ?_, ?_⟩
  · intro a
    by_cases ha : a = heap.next
    · subst ha
      rw [ChunkHeap.count, hself, ChunkHeap.count, hfree, if_pos rfl]
    · rw [ChunkHeap.count, hnew a ha, if_neg ha]
      rfl
  · intro a ha
    have hne : a ≠ heap.next := by
      rintro rfl
      exact ha hfree
    rw [bytes, bytes, hnew a hne]
  · intro a
    by_cases ha : a = heap.next
    · subst ha
      rw [hself]
      simp
    · rw [hnew a ha, show (heap.alloc data fits).next = heap.next + 1 from rfl]
      have hlt : a < heap.next + 1 ↔ a < heap.next := by omega
      rw [hlt]
  · intro hcounted
    refine ⟨Nat.le_add_left _ _, ?_⟩
    intro a chunk hchunk
    by_cases ha : a = heap.next
    · subst ha
      rw [hself] at hchunk
      obtain rfl := Option.some.inj hchunk
      exact ⟨hcounted.next, Nat.one_pos⟩
    · rw [hnew a ha] at hchunk
      exact hcounted.chunks a chunk hchunk

theorem Grows.addref (h : heap.chunks addr = some chunk)
    (hfew : chunk.refcount + n < 2 ^ 32) :
    ∃ heap', heap.addref addr n = .ok heap' ∧
      Grows heap heap' fun a => if a = addr then n else 0 := by
  obtain ⟨heap', hadd, hlocal, hself⟩ := addref_spec h hfew
  refine ⟨heap', hadd, ?_, ?_, ?_, ?_⟩
  · intro a
    by_cases ha : a = addr
    · subst ha
      rw [count_some hself, count_some h, if_pos rfl]
    · rw [hlocal.count_other ha, if_neg ha, Nat.add_zero]
  · intro a _
    by_cases ha : a = addr
    · subst ha
      rw [bytes, bytes, hself, h]
      rfl
    · exact hlocal.bytes_other ha
  · intro a
    rw [hlocal.next]
    by_cases ha : a = addr
    · subst ha
      rw [hself, h]
      simp
    · rw [hlocal.other a ha]
  · intro hcounted
    refine ⟨hlocal.next ▸ hcounted.next, ?_⟩
    intro a chunk' hchunk'
    by_cases ha : a = addr
    · subst ha
      rw [hself] at hchunk'
      obtain rfl := Option.some.inj hchunk'
      obtain ⟨haddr, hpos⟩ := hcounted.chunks a chunk h
      exact ⟨haddr, Nat.add_pos_left hpos n⟩
    · rw [hlocal.other a ha] at hchunk'
      exact hcounted.chunks a chunk' hchunk'

/-! ## The end of a reference -/

/-- One reference less, and the chunk goes if it was the last one. -/
structure Shrinks (heap heap' : ChunkHeap) (addr : Nat) : Prop where
  count : ∀ a, heap'.count a + (if a = addr then 1 else 0) = heap.count a
  data : ∀ a, heap'.chunks a ≠ none → heap'.bytes (.chunk a) = heap.bytes (.chunk a)
  counted : heap.Counted → heap'.Counted
  gone : 1 ≤ addr → ∀ a, (heap'.freedOf [addr]).count a +
    (if 1 ≤ a ∧ a < heap.next ∧ heap.chunks a = none then 1 else 0) =
      if 1 ≤ a ∧ a < heap'.next ∧ heap'.chunks a = none then 1 else 0

/-- The last reference. -/
theorem Shrinks.last (h : heap.chunks addr = some chunk) (hone : chunk.refcount = 1)
    (hlocal : Local heap heap' addr) (hself : heap'.chunks addr = none) :
    Shrinks heap heap' addr := by
  refine ⟨?_, ?_, ?_, ?_⟩
  · intro a
    by_cases ha : a = addr
    · subst ha
      rw [count_some h, hone, ChunkHeap.count, hself, if_pos rfl]
    · rw [hlocal.count_other ha, if_neg ha, Nat.add_zero]
  · intro a hthere
    exact hlocal.bytes_other fun ha => hthere (ha ▸ hself)
  · intro hcounted
    refine ⟨hlocal.next ▸ hcounted.next, ?_⟩
    intro a chunk' hchunk'
    have ha : a ≠ addr := fun ha => absurd (hself.symm.trans (ha ▸ hchunk')) (by simp)
    exact hcounted.chunks a chunk' ((hlocal.other a ha).symm.trans hchunk')
  · intro hnonzero a
    have hfreed : heap'.freedOf [addr] = [addr] := by
      rw [freedOf, List.filter_cons_of_pos (by rw [hself]; rfl), List.filter_nil]
    rw [hfreed, hlocal.next]
    by_cases ha : a = addr
    · subst ha
      have hlt := lt_next h
      rw [hself, h]
      simp [hnonzero, hlt]
    · rw [hlocal.other a ha, List.count_singleton, if_neg (by simpa using Ne.symm ha),
        Nat.zero_add]

/-- A reference, but not the last one. -/
theorem Shrinks.more (h : heap.chunks addr = some chunk) (hmany : 1 < chunk.refcount)
    (hlocal : Local heap heap' addr)
    (hself : heap'.chunks addr = some { chunk with refcount := chunk.refcount - 1 }) :
    Shrinks heap heap' addr := by
  refine ⟨?_, ?_, ?_, ?_⟩
  · intro a
    by_cases ha : a = addr
    · subst ha
      rw [count_some h, count_some hself, if_pos rfl]
      simp only
      omega
    · rw [hlocal.count_other ha, if_neg ha, Nat.add_zero]
  · intro a _
    by_cases ha : a = addr
    · subst ha
      rw [bytes, hself, bytes, h]
      rfl
    · exact hlocal.bytes_other ha
  · intro hcounted
    refine ⟨hlocal.next ▸ hcounted.next, ?_⟩
    intro a chunk' hchunk'
    by_cases ha : a = addr
    · subst ha
      obtain rfl := Option.some.inj (hself.symm.trans hchunk')
      exact ⟨(hcounted.chunks a chunk h).1, Nat.sub_pos_of_lt hmany⟩
    · exact hcounted.chunks a chunk' ((hlocal.other a ha).symm.trans hchunk')
  · intro _ a
    have hfreed : heap'.freedOf [addr] = [] := by
      rw [freedOf, List.filter_cons_of_neg (by rw [hself]; simp), List.filter_nil]
    rw [hfreed, hlocal.next, List.count_nil, Nat.zero_add]
    by_cases ha : a = addr
    · subst ha
      rw [hself, h]
      simp
    · rw [hlocal.other a ha]

theorem Shrinks.free (h : heap.chunks addr = some chunk) (hpos : 0 < chunk.refcount) :
    ∃ heap', heap.free addr = .ok heap' ∧ Shrinks heap heap' addr := by
  obtain ⟨heap', hfree, hlocal, hself⟩ := free_one h hpos
  refine ⟨heap', hfree, ?_⟩
  by_cases hone : chunk.refcount = 1
  · rw [if_pos hone] at hself
    exact .last h hone hlocal hself
  · rw [if_neg hone] at hself
    exact .more h (by omega) hlocal hself


/-! ## References that nobody shares -/

/-- A reference as `grid_chunkref_init` makes it. -/
def Fresh (self : ChunkHeap) (data : List UInt8) : Chunkref → Prop
  | .small d => d = data ∧ data.length < chunkrefMax
  | .chunk addr => chunkrefMax ≤ data.length ∧
      ∃ fits, self.chunks addr = some { refcount := 1, data := data, fits := fits }

variable {ref : Chunkref} {data : List UInt8}

/-- Data is seen as before where its chunk is the same. -/
theorem bytes_congr (h : ∀ a ∈ ref.addrs, heap'.chunks a = heap.chunks a) :
    heap'.bytes ref = heap.bytes ref := by
  cases ref with
  | small d => rfl
  | chunk addr => rw [bytes, bytes, h addr (List.mem_singleton.mpr rfl)]

theorem Fresh.bytes (h : heap.Fresh data ref) : heap.bytes ref = data := by
  cases ref with
  | small d => exact h.1
  | chunk addr =>
      obtain ⟨-, fits, hchunk⟩ := h
      rw [ChunkHeap.bytes, hchunk]
      rfl

theorem Fresh.lt_next (h : heap.Fresh data ref) : ∀ a ∈ ref.addrs, a < heap.next := by
  cases ref with
  | small d => exact fun a ha => absurd ha (by simp [Chunkref.addrs])
  | chunk addr =>
      obtain ⟨-, fits, hchunk⟩ := h
      intro a ha
      obtain rfl := List.mem_singleton.mp ha
      exact ChunkHeap.lt_next hchunk

/-- What happens to other chunks does not matter to it. -/
theorem Fresh.frame (h : heap.Fresh data ref)
    (hsame : ∀ a ∈ ref.addrs, heap'.chunks a = heap.chunks a) : heap'.Fresh data ref := by
  cases ref with
  | small d => exact h
  | chunk addr =>
      obtain ⟨hlarge, fits, hchunk⟩ := h
      exact ⟨hlarge, fits, (hsame addr (List.mem_singleton.mpr rfl)).trans hchunk⟩

theorem fresh_store (hstore : heap.store data = .ok (heap', ref)) : heap'.Fresh data ref := by
  unfold store at hstore
  split at hstore
  · rename_i hshort
    obtain ⟨rfl, rfl⟩ := Prod.mk.inj (Except.ok.inj hstore)
    exact ⟨rfl, hshort⟩
  · rename_i hlarge
    split at hstore
    · rename_i fits
      obtain ⟨rfl, rfl⟩ := Prod.mk.inj (Except.ok.inj hstore)
      exact ⟨Nat.not_lt.mp hlarge, fits, (alloc_chunks data fits _).trans (if_pos rfl)⟩
    · exact absurd hstore (by simp)

/-- It can be given back. -/
theorem Fresh.term (h : heap.Fresh data ref) : ∃ heap', heap.term ref = .ok heap' := by
  cases ref with
  | small d => exact ⟨heap, rfl⟩
  | chunk addr =>
      obtain ⟨-, fits, hchunk⟩ := h
      obtain ⟨heap', hfree, -⟩ := free_one hchunk Nat.one_pos
      exact ⟨heap', hfree⟩

/-- It can be trimmed by less than 2^32 - 1 bytes. -/
theorem Fresh.trim (h : heap.Fresh data ref) (hle : n ≤ data.length) (hroom : n < uint32Max) :
    ∃ heap' ref', heap.trim n ref = .ok (heap', ref') ∧ heap'.bytes ref' = data.drop n ∧
      ref'.addrs = ref.addrs ∧ heap'.next = heap.next ∧
      ∀ a, a ∉ ref.addrs → heap'.chunks a = heap.chunks a := by
  cases ref with
  | small d =>
      obtain ⟨rfl, -⟩ := h
      refine ⟨heap, .small (d.drop n), ?_, rfl, rfl, rfl, fun _ _ => rfl⟩
      rw [ChunkHeap.trim, gridAssert_pos hle, ok_bind]
      rfl
  | chunk addr =>
      obtain ⟨-, fits, hchunk⟩ := h
      obtain ⟨heap', htrim, hlocal, chunk', hchunk', -, -, hdata⟩ :=
        chunkTrim_spec (n := n) hchunk hle (by simpa using hroom)
      refine ⟨heap', .chunk addr, ?_, ?_, rfl, hlocal.next, ?_⟩
      · rw [ChunkHeap.trim, htrim, ok_bind]
        rfl
      · rw [ChunkHeap.bytes, hchunk']
        exact hdata
      · intro a ha
        exact hlocal.other a (by simpa [Chunkref.addrs] using ha)

/-- From there on the assertion fails. -/
theorem Fresh.trim_error (h : heap.Fresh data ref) (hle : n ≤ data.length)
    (hlong : uint32Max ≤ n) : heap.trim n ref = .error .assertion := by
  have hmax : chunkrefMax = 32 := rfl
  have huint : uint32Max = 2 ^ 32 - 1 := rfl
  cases ref with
  | small d =>
      have hshort := h.2
      omega
  | chunk addr =>
      obtain ⟨-, fits, hchunk⟩ := h
      rw [ChunkHeap.trim, chunkTrim, getptr_some hchunk, ok_bind, gridAssert_pos hle, ok_bind,
        gridAssert, if_neg (by simp only; omega), error_bind, error_bind]

end ChunkHeap

/-- A message whose references are counted can be released. -/
theorem GridMsg.term_of_counted {msg : GridMsg} {heap : ChunkHeap}
    (h : ∀ a, msg.addrs.count a ≤ heap.count a) : ∃ heap', msg.term heap = .ok heap' := by
  simp only [GridMsg.addrs, List.count_append] at h
  have hsphdr : ∀ a, msg.sphdr.addrs.count a ≤ heap.count a := by
    intro a
    have ha := h a
    omega
  obtain ⟨heap₁, h1, hc1⟩ := ChunkHeap.term_count hsphdr
  have hhdrs : ∀ a, msg.hdrs.addrs.count a ≤ heap₁.count a := by
    intro a
    have ha := h a
    have hc := hc1 a
    omega
  obtain ⟨heap₂, h2, hc2⟩ := ChunkHeap.term_count hhdrs
  have hbody : ∀ a, msg.body.addrs.count a ≤ heap₂.count a := by
    intro a
    have ha := h a
    have hc := hc1 a
    have hc' := hc2 a
    omega
  obtain ⟨heap₃, h3, -⟩ := ChunkHeap.term_count hbody
  refine ⟨heap₃, ?_⟩
  rw [GridMsg.term, h1, ok_bind, h2, ok_bind, h3]

end GridMq
