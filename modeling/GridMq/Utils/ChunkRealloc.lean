import GridMq.Library.Memory
import GridMq.Library.Transition
import GridMq.Utils.Chunk
import GridMq.Utils.Wire

set_option autoImplicit false

/-!
# The memory of a chunk (`src/utils/chunk.c`)

A chunk hides the size of the empty space and a tag in the eight bytes in front of its data.
Trimming moves the data on and writes both anew in front of them; the space that the data leave
is not looked at again.  Here a chunk is the memory behind its `struct grid_chunk`, in which
its references point to places.
-/

namespace GridMq

open GridMq.Library

/-- `GRID_CHUNK_TAG`. -/
def chunkTag : Nat := 0xdeadcafe

/-- What becomes of a function that does not return. -/
inductive MemAbort where
  | assertion
  /-- memory outside of an allocation is used -/
  | outside
  deriving DecidableEq, Repr

/-- `struct grid_chunk` and the memory behind it, with the places that the references to the
chunk point to. -/
structure ChunkBlock where
  refcount : Nat
  size : Nat
  bytes : List UInt8
  ptrs : List Nat
  deriving DecidableEq, Repr

namespace ChunkBlock

/-- `2 * sizeof (uint32_t)`, where the data of a chunk are that was not trimmed. -/
def prefixSize : Nat := 8

/-- `grid_chunk_alloc`, and the data are written. -/
def fresh (data : List UInt8) : ChunkBlock where
  refcount := 1
  size := data.length
  bytes := putl 0 ++ putl chunkTag ++ data
  ptrs := [prefixSize]

/-- `grid_chunk_getptr`.  A chunk that the space in front of the data does not lead to would be
another one. -/
def getptr (self : ChunkBlock) (p : Nat) : Except MemAbort Unit :=
  if getl (self.bytes.drop (p - 4)) ≠ chunkTag then .error .assertion
  else if getl (self.bytes.drop (p - prefixSize)) ≠ p - prefixSize then .error .outside
  else .ok ()

/-- The data that are seen through a reference. -/
def data (self : ChunkBlock) (p : Nat) : List UInt8 := (self.bytes.drop p).take self.size

/-- `grid_chunk_trim`: the reference points behind what is cut off. -/
def trim (self : ChunkBlock) (p n : Nat) : Except MemAbort ChunkBlock := do
  self.getptr p
  if n > self.size then .error .assertion
  else
    let bytes := overwrite self.bytes (p + n - 4) (putl chunkTag)
    let empty := p + n - prefixSize
    if empty ≥ 2 ^ 32 - 1 then .error .assertion
    else return { self with
      size := self.size - n
      bytes := overwrite bytes (p + n - prefixSize) (putl empty)
      ptrs := (p + n) :: self.ptrs.erase p }

/-- `grid_chunk_addref`. -/
def addref (self : ChunkBlock) (p n : Nat) : Except MemAbort ChunkBlock := do
  self.getptr p
  return { self with
    refcount := (self.refcount + n) % 2 ^ 32
    ptrs := List.replicate n p ++ self.ptrs }

/-! ## Changing the size -/

/-- There is memory for a chunk of some size, and the sum of the sizes does not wrap. -/
def Available (avail : Nat → Bool) (size : Nat) : Prop :=
  ¬(chunkHdrsize + size) % 2 ^ 64 < chunkHdrsize ∧
    avail ((chunkHdrsize + size) % 2 ^ 64) = true

instance (avail : Nat → Bool) (size : Nat) : Decidable (Available avail size) :=
  inferInstanceAs (Decidable (_ ∧ _))

/-- Memory of some size with a new size, as `grid_realloc` leaves it. -/
def resize (garbage : Nat → UInt8) (bytes : List UInt8) (size : Nat) : List UInt8 :=
  bytes.take size ++ (List.range (size - bytes.length)).map garbage

/-- What `grid_chunk_realloc` does: it fails, or there is a new chunk, whose data are where they
are in a chunk that was not trimmed, and the old one if others refer to it. -/
inductive Realloc where
  | enomem (old : ChunkBlock)
  | done (new : ChunkBlock) (old : Option ChunkBlock)
  deriving DecidableEq, Repr

/-- `grid_chunk_realloc`, of a reference that points to `p`. -/
def realloc (avail : Nat → Bool) (garbage : Nat → UInt8) (self : ChunkBlock) (p size : Nat) :
    Except MemAbort Realloc := do
  self.getptr p
  if self.refcount = 1 then
    if ¬Available avail size then return .enomem self
    else
      let new := { self with
        size := size
        bytes := resize garbage self.bytes (prefixSize + size)
        ptrs := [prefixSize] }
      return .done new none
  else
    if ¬Available avail size then return .enomem self
    -- `memcpy` of the old size to the data of the new chunk
    else if self.size > size then .error .outside
    else
      let new := fresh (overwrite ((List.range size).map garbage) 0 (self.data prefixSize))
      let old := { self with
        refcount := (self.refcount + 2 ^ 32 - 1) % 2 ^ 32
        ptrs := self.ptrs.erase p }
      return .done new (some old)

end ChunkBlock

/-! ## Chunks that can be reached -/

/-- What is done with a chunk through a reference. -/
inductive ChunkOp where
  | trim (p n : Nat)
  | addref (p n : Nat)
  deriving DecidableEq, Repr

namespace ChunkBlock

def next (self : ChunkBlock) : ChunkOp → Except MemAbort ChunkBlock
  | .trim p n => self.trim p n
  | .addref p n => self.addref p n

/-- The reference through which a step is taken. -/
def Refers (self : ChunkBlock) : ChunkOp → Prop
  | .trim p _ => p ∈ self.ptrs
  | .addref p _ => p ∈ self.ptrs

/-- Chunks that are allocated, trimmed and referred to. -/
def system : System ChunkBlock ChunkOp where
  init s := ∃ data, Fits data.length ∧ s = fresh data
  step s l s' := s.Refers l ∧ s.next l = .ok s'

/-- The references point into the chunk and are counted. -/
structure Inv (block : ChunkBlock) : Prop where
  within : ∀ p ∈ block.ptrs, prefixSize ≤ p ∧ p + block.size ≤ block.bytes.length
  counted : block.refcount = block.ptrs.length % 2 ^ 32

variable {self self' : ChunkBlock} {p q n size : Nat}

theorem length_fresh (data : List UInt8) :
    (fresh data).bytes.length = prefixSize + data.length := by
  rw [fresh, List.length_append, List.length_append, length_putl, length_putl]
  rfl

theorem inv_fresh (data : List UInt8) : (fresh data).Inv where
  within p hp := by
    obtain rfl := List.mem_singleton.mp hp
    rw [length_fresh]
    exact ⟨Nat.le_refl _, Nat.le_refl _⟩
  counted := rfl

/-- A chunk that was trimmed. -/
theorem trim_spec (h : self.trim p n = .ok self') :
    n ≤ self.size ∧ p + n - prefixSize < 2 ^ 32 - 1 ∧
      self' = { self with
        size := self.size - n
        bytes := overwrite (overwrite self.bytes (p + n - 4) (putl chunkTag))
          (p + n - prefixSize) (putl (p + n - prefixSize))
        ptrs := (p + n) :: self.ptrs.erase p } := by
  obtain ⟨_, -, h⟩ := bind_eq_ok_iff.mp h
  split at h
  · exact absurd h (by simp)
  · rename_i hle
    simp only at h
    split at h
    · exact absurd h (by simp)
    · rename_i hempty
      exact ⟨Nat.not_lt.mp hle, Nat.not_le.mp hempty, (Except.ok.inj h).symm⟩

theorem addref_spec (h : self.addref p n = .ok self') :
    self' = { self with
      refcount := (self.refcount + n) % 2 ^ 32
      ptrs := List.replicate n p ++ self.ptrs } := by
  obtain ⟨_, -, h⟩ := bind_eq_ok_iff.mp h
  exact (Except.ok.inj h).symm

/-- What is written in front of the data lies within the chunk. -/
theorem length_trimmed (hp : prefixSize ≤ p) (hn : p + n ≤ self.bytes.length) :
    (overwrite (overwrite self.bytes (p + n - 4) (putl chunkTag)) (p + n - prefixSize)
      (putl (p + n - prefixSize))).length = self.bytes.length := by
  have hprefix : prefixSize = 8 := rfl
  have hlen : (overwrite self.bytes (p + n - 4) (putl chunkTag)).length = self.bytes.length := by
    apply length_overwrite
    rw [length_putl]
    omega
  rw [length_overwrite, hlen]
  rw [hlen, length_putl]
  omega

theorem Inv.trim (h : self.Inv) (hp : p ∈ self.ptrs) (htrim : self.trim p n = .ok self') :
    self'.Inv := by
  obtain ⟨hle, -, rfl⟩ := trim_spec htrim
  obtain ⟨hfirst, hlast⟩ := h.within p hp
  have hlen : (overwrite (overwrite self.bytes (p + n - 4) (putl chunkTag)) (p + n - prefixSize)
      (putl (p + n - prefixSize))).length = self.bytes.length :=
    length_trimmed hfirst (by omega)
  refine ⟨?_, ?_⟩
  · intro q hq
    rw [hlen]
    rcases List.mem_cons.mp hq with rfl | hother
    · exact ⟨by omega, by simp only; omega⟩
    · obtain ⟨hfirst', hlast'⟩ := h.within q (List.mem_of_mem_erase hother)
      exact ⟨hfirst', by simp only; omega⟩
  · have hpos := List.length_pos_of_mem hp
    rw [h.counted, List.length_cons, List.length_erase_of_mem hp, Nat.sub_add_cancel hpos]

theorem Inv.addref (h : self.Inv) (hp : p ∈ self.ptrs) (hadd : self.addref p n = .ok self') :
    self'.Inv := by
  obtain rfl := addref_spec hadd
  refine ⟨?_, ?_⟩
  · intro q hq
    rcases List.mem_append.mp hq with hnew | hold
    · rw [List.eq_of_mem_replicate hnew]
      exact h.within p hp
    · exact h.within q hold
  · rw [List.length_append, List.length_replicate, h.counted, Nat.mod_add_mod, Nat.add_comm n]

theorem inv_of_reachable (h : system.Reachable self) : self.Inv := by
  refine h.invariant (P := Inv) ?_ ?_
  · rintro s ⟨data, -, rfl⟩
    exact inv_fresh data
  · rintro s l s' - hinv ⟨hrefers, hnext⟩
    cases l with
    | trim p n => exact hinv.trim hrefers hnext
    | addref p n => exact hinv.addref hrefers hnext

/-! ## What is kept -/

/-- What a change of the size has to be: on failure the chunk is as it was; otherwise the new
chunk has the new size and begins with the data of before, and nothing changes for the other
references.  Nothing outside of an allocation is used. -/
def Reallocated (self : ChunkBlock) (p size : Nat) : Except MemAbort Realloc → Prop
  | .ok (.enomem old) => old = self
  | .ok (.done new old) =>
      new.getptr prefixSize = .ok () ∧ new.size = size ∧ (new.data prefixSize).length = size ∧
        (new.data prefixSize).take (min self.size size) =
          (self.data p).take (min self.size size) ∧
        ∀ q ∈ self.ptrs.erase p, ∃ o, old = some o ∧ o.getptr q = self.getptr q ∧
          o.size = self.size ∧ o.data q = self.data q
  | .error _ => False

/-- The reference is one to the chunk, and there is no memory, or the data are where those of a
chunk are that was not trimmed, which then is the caller's alone or does not get smaller. -/
def Keepable (avail : Nat → Bool) (self : ChunkBlock) (p size : Nat) : Prop :=
  self.getptr p = .ok () ∧ (¬Available avail size ∨
    (self.data prefixSize).take (min self.size size) = (self.data p).take (min self.size size) ∧
      if self.refcount = 1 then self.ptrs = [p] ∧ self.getptr prefixSize = .ok ()
      else self.size ≤ size)

theorem getl_take (bytes : List UInt8) : getl (bytes.take 4) = getl bytes := by
  match bytes with
  | [] => rfl
  | [_] => rfl
  | [_, _] => rfl
  | [_, _, _] => rfl
  | _ :: _ :: _ :: _ :: _ => rfl

/-- What is in front of the data decides where a reference leads. -/
theorem getptr_congr {other : ChunkBlock} (hp : prefixSize ≤ p)
    (h : self.bytes.take p = other.bytes.take p) : self.getptr p = other.getptr p := by
  have hprefix : prefixSize = 8 := rfl
  have hread : ∀ k, k + 4 ≤ p → getl (self.bytes.drop k) = getl (other.bytes.drop k) := by
    intro k hk
    rw [← getl_take, ← getl_take (other.bytes.drop k)]
    have hcut : ∀ bytes : List UInt8, (bytes.drop k).take 4 = ((bytes.take p).drop k).take 4 := by
      intro bytes
      rw [List.drop_take, List.take_take, Nat.min_eq_left (by omega)]
    rw [hcut self.bytes, h, ← hcut other.bytes]
  rw [getptr, getptr, hread (p - 4) (by omega), hread (p - prefixSize) (by omega)]

theorem getptr_bytes {other : ChunkBlock} (h : self.bytes = other.bytes) :
    self.getptr p = other.getptr p := by
  rw [getptr, getptr, h]

/-- The first data. -/
theorem take_data {m : Nat} (hm : m ≤ self.size) :
    (self.data p).take m = (self.bytes.take (p + m)).drop p := by
  rw [data, List.take_take, Nat.min_eq_left hm, List.drop_take, Nat.add_sub_cancel_left]

theorem length_resize (garbage : Nat → UInt8) (bytes : List UInt8) (size : Nat) :
    (resize garbage bytes size).length = size := by
  rw [resize, List.length_append, List.length_take, List.length_map, List.length_range]
  omega

theorem take_resize (garbage : Nat → UInt8) {bytes : List UInt8} {size n : Nat} (hn : n ≤ size)
    (hlen : n ≤ bytes.length) : (resize garbage bytes size).take n = bytes.take n := by
  rw [resize, List.take_append_of_le_length (by rw [List.length_take]; omega), List.take_take,
    Nat.min_eq_left hn]

theorem data_fresh (data : List UInt8) : (fresh data).data prefixSize = data := by
  rw [ChunkBlock.data, fresh]
  exact List.take_length

theorem getptr_fresh (data : List UInt8) : (fresh data).getptr prefixSize = .ok () := by
  have htag : getl ((fresh data).bytes.drop (prefixSize - 4)) = chunkTag :=
    getl_putl (by decide) data
  have hempty : getl ((fresh data).bytes.drop (prefixSize - prefixSize)) = prefixSize - prefixSize := by
    have hread := @getl_putl 0 (by decide) (putl chunkTag ++ data)
    rwa [← List.append_assoc] at hread
  rw [getptr, if_neg (not_not_intro htag), if_neg (not_not_intro hempty)]

/-- A reference without others. -/
theorem eq_singleton_of_erase {ptrs : List Nat} (hp : p ∈ ptrs) (h : ptrs.erase p = []) :
    ptrs = [p] := by
  have hlen := List.length_erase_of_mem hp
  have hpos := List.length_pos_of_mem hp
  rw [h, List.length_nil] at hlen
  obtain ⟨q, rfl⟩ := List.length_eq_one_iff.mp (show ptrs.length = 1 by omega)
  rw [List.mem_singleton.mp hp]

variable {avail : Nat → Bool}

/-- With one reference the chunk is changed in place. -/
theorem realloc_alone (garbage : Nat → UInt8) (h : self.Inv) (hp : p ∈ self.ptrs)
    (hone : self.refcount = 1) (hget : self.getptr p = .ok ()) (hav : Available avail size) :
    self.Reallocated p size (realloc avail garbage self p size) ↔
      (self.data prefixSize).take (min self.size size) = (self.data p).take (min self.size size) ∧
        self.ptrs = [p] ∧ self.getptr prefixSize = .ok () := by
  obtain ⟨hfirst, hlast⟩ := h.within p hp
  have hlen : prefixSize + min self.size size ≤ self.bytes.length := by omega
  have hresult : realloc avail garbage self p size = .ok (.done
      { self with
        size := size
        bytes := resize garbage self.bytes (prefixSize + size)
        ptrs := [prefixSize] } none) := by
    rw [realloc, hget, ok_bind, if_pos hone, if_neg (not_not_intro hav)]
    rfl
  rw [hresult]
  generalize hnew : ({ self with
    size := size
    bytes := resize garbage self.bytes (prefixSize + size)
    ptrs := [prefixSize] } : ChunkBlock) = new
  have hsize : new.size = size := by rw [← hnew]
  have hbytes : new.bytes = resize garbage self.bytes (prefixSize + size) := by rw [← hnew]
  have hget' : new.getptr prefixSize = self.getptr prefixSize := by
    apply getptr_congr (Nat.le_refl _)
    rw [hbytes, take_resize garbage (by omega) (by omega)]
  have hlength : (new.data prefixSize).length = size := by
    rw [data, hbytes, hsize, List.length_take, List.length_drop, length_resize]
    omega
  have hdata : (new.data prefixSize).take (min self.size size) =
      (self.data prefixSize).take (min self.size size) := by
    rw [take_data (by omega), take_data (by omega), hbytes,
      take_resize garbage (by omega) hlen]
  constructor
  · rintro ⟨hnewptr, -, -, hkept, hothers⟩
    refine ⟨hdata.symm.trans hkept, ?_, hget'.symm.trans hnewptr⟩
    have hnone : self.ptrs.erase p = [] := by
      apply List.eq_nil_iff_forall_not_mem.mpr
      intro q hq
      obtain ⟨o, ho, -⟩ := hothers q hq
      exact absurd ho (by simp)
    exact eq_singleton_of_erase hp hnone
  · rintro ⟨hsame, halone, hprefix⟩
    refine ⟨hget'.trans hprefix, hsize, hlength, hdata.trans hsame, ?_⟩
    intro q hq
    rw [halone, List.erase_cons_head] at hq
    exact absurd hq List.not_mem_nil

/-- With more of them it is copied. -/
theorem realloc_shared (garbage : Nat → UInt8) (h : self.Inv) (hp : p ∈ self.ptrs)
    (hmany : self.refcount ≠ 1) (hget : self.getptr p = .ok ()) (hav : Available avail size) :
    self.Reallocated p size (realloc avail garbage self p size) ↔
      (self.data prefixSize).take (min self.size size) = (self.data p).take (min self.size size) ∧
        self.size ≤ size := by
  obtain ⟨hfirst, hlast⟩ := h.within p hp
  by_cases hle : self.size ≤ size
  · have hold : (self.data prefixSize).length = self.size := by
      rw [data, List.length_take, List.length_drop]
      omega
    have hroom : 0 + (self.data prefixSize).length ≤ ((List.range size).map garbage).length := by
      rw [hold, List.length_map, List.length_range, Nat.zero_add]
      exact hle
    generalize hcopy : overwrite ((List.range size).map garbage) 0 (self.data prefixSize) = copy
    have hlength : copy.length = size := by
      rw [← hcopy, length_overwrite hroom, List.length_map, List.length_range]
    have htake : copy.take self.size = self.data prefixSize := by
      have hend := take_overwrite_end (self.data prefixSize)
        (Nat.zero_le ((List.range size).map garbage).length)
      rwa [hold, Nat.zero_add, hcopy, List.take_zero, List.nil_append] at hend
    have hresult : realloc avail garbage self p size = .ok (.done (fresh copy)
        (some { self with
          refcount := (self.refcount + 2 ^ 32 - 1) % 2 ^ 32
          ptrs := self.ptrs.erase p })) := by
      rw [realloc, hget, ok_bind, if_neg hmany, if_neg (not_not_intro hav),
        if_neg (Nat.not_lt.mpr hle), ← hcopy]
      rfl
    have hmin : min self.size size = self.size := Nat.min_eq_left hle
    rw [hresult, hmin]
    have hkept : ((fresh copy).data prefixSize).take self.size =
        (self.data prefixSize).take self.size := by
      rw [data_fresh, htake, ← hold, List.take_length]
    constructor
    · rintro ⟨-, -, -, hsame, -⟩
      rw [hmin] at hsame
      exact ⟨hkept.symm.trans hsame, hle⟩
    · rintro ⟨hsame, -⟩
      refine ⟨getptr_fresh copy, hlength, ?_, ?_, ?_⟩
      · rw [data_fresh, hlength]
      · rw [hmin]
        exact hkept.trans hsame
      · intro q _
        exact ⟨_, rfl, getptr_bytes rfl, rfl, by rw [data, data]⟩
  · have hresult : realloc avail garbage self p size = .error .outside := by
      rw [realloc, hget, ok_bind, if_neg hmany, if_neg (not_not_intro hav),
        if_pos (Nat.not_le.mp hle)]
    rw [hresult]
    exact iff_of_false id (fun hkept => hle hkept.2)

/-- A change of the size keeps what it has to exactly under the condition. -/
theorem reallocated_iff (garbage : Nat → UInt8) (h : self.Inv) (hp : p ∈ self.ptrs) :
    self.Reallocated p size (realloc avail garbage self p size) ↔
      self.Keepable avail p size := by
  unfold Keepable
  cases hget : self.getptr p with
  | error e =>
      rw [realloc, hget]
      exact iff_of_false id (by simp)
  | ok u =>
      by_cases hav : Available avail size
      · by_cases hone : self.refcount = 1
        · rw [realloc_alone garbage h hp hone hget hav, if_pos hone]
          simp [hav]
        · rw [realloc_shared garbage h hp hone hget hav, if_neg hone]
          simp [hav]
      · have hsame : realloc avail garbage self p size = .ok (.enomem self) := by
          rw [realloc, hget, ok_bind, if_pos hav, if_pos hav, ite_self]
          rfl
        rw [hsame]
        exact iff_of_true rfl ⟨rfl, Or.inl hav⟩

/-- Whatever was done with a chunk: the change of its size keeps what it has to exactly under
the condition. -/
theorem realloc_keeps_iff (h : system.Reachable self) (hp : p ∈ self.ptrs) (avail : Nat → Bool)
    (garbage : Nat → UInt8) (size : Nat) :
    self.Reallocated p size (realloc avail garbage self p size) ↔
      self.Keepable avail p size :=
  reallocated_iff garbage (inv_of_reachable h) hp

/-- A chunk of ten bytes of which eight were cut off. -/
def twoOfTen : ChunkBlock where
  refcount := 1
  size := 2
  bytes := putl 0 ++ putl chunkTag ++ putl 8 ++ putl chunkTag ++ [9, 10]
  ptrs := [16]

theorem reachable_twoOfTen : system.Reachable twoOfTen := by
  have hstart : system.Reachable (fresh [1, 2, 3, 4, 5, 6, 7, 8, 9, 10]) :=
    .start ⟨_, by decide, rfl⟩
  exact hstart.step (l := .trim 8 8) ⟨List.mem_singleton_self _, by decide⟩

/-- A chunk of two bytes with two references. -/
def twoShared : ChunkBlock := { fresh [1, 2] with refcount := 2, ptrs := [8, 8] }

theorem reachable_twoShared : system.Reachable twoShared := by
  have hstart : system.Reachable (fresh [1, 2]) := .start ⟨_, by decide, rfl⟩
  exact hstart.step (l := .addref 8 1) ⟨List.mem_singleton_self _, by decide⟩

theorem realloc_keeps_iff_twoShared :
    twoShared.Reallocated 8 1 (realloc (fun _ => true) (fun _ => 0) twoShared 8 1) ↔
      twoShared.Keepable (fun _ => true) 8 1 :=
  realloc_keeps_iff reachable_twoShared (by decide) (fun _ => true) (fun _ => 0) 1

/-- After the trimming the data are taken from the wrong place, and of the shared chunk more is
copied than there is room for. -/
theorem not_realloc_keeps :
    ¬twoOfTen.Reallocated 16 2 (realloc (fun _ => true) (fun _ => 0) twoOfTen 16 2) ∧
      realloc (fun _ => true) (fun _ => 0) twoShared 8 1 = .error .outside ∧
      ¬∀ (self : ChunkBlock) (p : Nat) (avail : Nat → Bool) (garbage : Nat → UInt8) (size : Nat),
        system.Reachable self → p ∈ self.ptrs →
          self.Reallocated p size (realloc avail garbage self p size) := by
  have htrimmed :
      ¬twoOfTen.Reallocated 16 2 (realloc (fun _ => true) (fun _ => 0) twoOfTen 16 2) := by
    rw [reallocated_iff _ (inv_of_reachable reachable_twoOfTen) (by decide)]
    rintro ⟨-, hfull | ⟨hsame, -⟩⟩
    · exact hfull (by decide)
    · exact absurd hsame (by decide)
  refine ⟨htrimmed, by decide, fun hall => htrimmed ?_⟩
  exact hall twoOfTen 16 (fun _ => true) (fun _ => 0) 2 reachable_twoOfTen (by decide)

end ChunkBlock

end GridMq
