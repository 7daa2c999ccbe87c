import GridMq.Library.Total
import GridMq.Library.Transition
import GridMq.Utils.Chunkref

set_option autoImplicit false

/-!
# References as strings (`src/utils/chunkref.c`, `src/utils/chunk.c`)

References are made, copied, moved, trimmed and terminated in any order, and chunks are
handed to the user and taken back.  Next to them an abstract machine makes the same steps
on strings (`Label.apply`).  A message is three references, and its functions make the same
call on each.  What is seen through a reference is the string, the chunks
count their references, and each is freed with the last of them.
-/

namespace GridMq

open GridMq.Library

/-- What keeps data alive: a reference, or a pointer that the user has. -/
inductive Holder where
  | ref (ref : Chunkref)
  | pointer (addr : Nat)
  deriving DecidableEq

namespace Holder

def addrs : Holder → List Nat
  | .ref r => r.addrs
  | .pointer addr => [addr]

def bytes (heap : ChunkHeap) : Holder → List UInt8
  | .ref r => heap.bytes r
  | .pointer addr => heap.bytes (.chunk addr)

end Holder

/-- A holder, and how many of the copies that `grid_chunkref_bulkcopy_start` announced have
not been made. -/
structure Live where
  holder : Holder
  owed : Nat := 0
  deriving DecidableEq

/-- The references to a chunk that stand behind a name. -/
def Live.refs (addr : Nat) : Option Live → Nat
  | none => 0
  | some live => if addr ∈ live.holder.addrs then 1 + live.owed else 0

/-- The references of a program by their names.  `names` are those that were used, `freed`
the chunks that were freed. -/
structure RefUse where
  heap : ChunkHeap := {}
  live : Nat → Option Live := fun _ => none
  names : Finset Nat := ∅
  freed : List Nat := []

namespace RefUse

/-- One call. -/
inductive Label where
  /-- `grid_chunkref_init`, and the bytes are written -/
  | init (dst : Nat) (data : List UInt8)
  /-- `grid_chunk_alloc` for a chunk of the user -/
  | alloc (dst : Nat) (data : List UInt8)
  /-- `grid_chunkref_init_chunk` -/
  | initChunk (dst src : Nat)
  /-- `grid_chunkref_cp` -/
  | cp (dst src : Nat)
  /-- `grid_chunkref_mv` -/
  | mv (dst src : Nat)
  /-- `grid_chunkref_bulkcopy_start` -/
  | bulkcopyStart (src copies : Nat)
  /-- `grid_chunkref_bulkcopy_cp` -/
  | bulkcopyCp (dst src : Nat)
  /-- `grid_chunkref_trim` -/
  | trim (name n : Nat)
  /-- `grid_chunkref_getchunk` -/
  | getchunk (dst src : Nat)
  /-- `grid_chunkref_term` -/
  | term (name : Nat)
  /-- `grid_chunk_free` by the user -/
  | free (name : Nat)

/-! ## The abstract machine -/

/-- A step on strings: nothing is shared, and nothing is allocated. -/
def Label.apply (strings : Nat → Option (List UInt8)) : Label → Nat → Option (List UInt8)
  | .init dst data => Function.update strings dst (some data)
  | .alloc dst data => Function.update strings dst (some data)
  | .initChunk dst src => Function.update (Function.update strings src none) dst (strings src)
  | .cp dst src => Function.update strings dst (strings src)
  | .mv dst src => Function.update (Function.update strings src none) dst (strings src)
  | .bulkcopyStart _ _ => strings
  | .bulkcopyCp dst src => Function.update strings dst (strings src)
  | .trim name n => Function.update strings name ((strings name).map (·.drop n))
  | .getchunk dst src =>
      Function.update (Function.update strings src (some [])) dst (strings src)
  | .term name => Function.update strings name none
  | .free name => Function.update strings name none

/-- The strings after a program. -/
def strings (labels : List Label) : Nat → Option (List UInt8) :=
  labels.foldl Label.apply fun _ => none

/-! ## The calls -/

def put (self : RefUse) (name : Nat) (live : Option Live) : RefUse :=
  { self with live := Function.update self.live name live, names := insert name self.names }

def getRef (self : RefUse) (name : Nat) : Except Abort (Chunkref × Nat) :=
  match self.live name with
  | some ⟨.ref ref, owed⟩ => .ok (ref, owed)
  | _ => .error .nullPointer

def getPointer (self : RefUse) (name : Nat) : Except Abort Nat :=
  match self.live name with
  | some ⟨.pointer addr, _⟩ => .ok addr
  | _ => .error .nullPointer

/-- The heap after a release, and the chunk if it was freed. -/
def release (self : RefUse) (heap : ChunkHeap) (addrs : List Nat) : RefUse :=
  { self with heap := heap, freed := heap.freedOf addrs ++ self.freed }

/-- A call. -/
def next (self : RefUse) : Label → Except Abort RefUse
  | .init dst data => do
      let (heap, ref) ← self.heap.store data
      return { self with heap := heap }.put dst (some ⟨.ref ref, 0⟩)
  | .alloc dst data =>
      if h : Fits data.length then
        .ok ({ self with heap := self.heap.alloc data h }.put dst
          (some ⟨.pointer self.heap.next, 0⟩))
      else .ok self
  | .initChunk dst src => do
      let addr ← self.getPointer src
      return (self.put src none).put dst (some ⟨.ref (.chunk addr), 0⟩)
  | .cp dst src => do
      let (ref, _) ← self.getRef src
      let (heap, ref) ← self.heap.cp ref
      return { self with heap := heap }.put dst (some ⟨.ref ref, 0⟩)
  | .mv dst src => do
      let (ref, _) ← self.getRef src
      return (self.put src none).put dst (some ⟨.ref ref, 0⟩)
  | .bulkcopyStart src copies => do
      let (ref, owed) ← self.getRef src
      let heap ← self.heap.bulkcopyStart copies ref
      return { self with heap := heap }.put src (some ⟨.ref ref, owed + copies⟩)
  | .bulkcopyCp dst src => do
      let (ref, owed) ← self.getRef src
      return (self.put src (some ⟨.ref ref, owed - 1⟩)).put dst (some ⟨.ref ref, 0⟩)
  | .trim name n => do
      let (ref, owed) ← self.getRef name
      let (heap, ref) ← self.heap.trim n ref
      return { self with heap := heap }.put name (some ⟨.ref ref, owed⟩)
  | .getchunk dst src => do
      let (ref, owed) ← self.getRef src
      let (heap, addr) ← self.heap.getchunk ref
      return ({ self with heap := heap }.put src (some ⟨.ref (.small []), owed⟩)).put dst
        (some ⟨.pointer addr, 0⟩)
  | .term name => do
      let (ref, _) ← self.getRef name
      let heap ← self.heap.term ref
      return (self.release heap ref.addrs).put name none
  | .free name => do
      let addr ← self.getPointer name
      let heap ← self.heap.free addr
      return (self.release heap [addr]).put name none

/-- What a reference can be written to: it refers to no chunk. -/
def Vacant (self : RefUse) (name : Nat) : Prop :=
  ∀ live, self.live name = some live → live.owed = 0 ∧ live.holder.addrs = []

/-- No other name stands for the same chunk. -/
def Unshared (self : RefUse) (name : Nat) : Prop :=
  ∀ other live live', other ≠ name → self.live name = some live →
    self.live other = some live' → ∀ a ∈ live.holder.addrs, a ∉ live'.holder.addrs

/-- The calls that the callers make.  Before a reference ends or moves, the copies that were
announced have been made. -/
def Enabled (self : RefUse) : Label → Prop
  | .init dst data => self.Vacant dst ∧ (data.length < chunkrefMax ∨ Fits data.length)
  | .alloc dst data => self.Vacant dst ∧ Fits data.length
  | .initChunk dst src =>
      dst ≠ src ∧ self.Vacant dst ∧ ∃ addr, self.live src = some ⟨.pointer addr, 0⟩
  | .cp dst src =>
      dst ≠ src ∧ self.Vacant dst ∧ ∃ ref owed, self.live src = some ⟨.ref ref, owed⟩
  | .mv dst src => dst ≠ src ∧ self.Vacant dst ∧ ∃ ref, self.live src = some ⟨.ref ref, 0⟩
  | .bulkcopyStart src copies =>
      copies < 2 ^ 32 ∧ ∃ ref owed, self.live src = some ⟨.ref ref, owed⟩
  | .bulkcopyCp dst src =>
      dst ≠ src ∧ self.Vacant dst ∧ ∃ ref owed, self.live src = some ⟨.ref ref, owed + 1⟩
  | .trim name n =>
      self.Unshared name ∧
        ∃ ref, self.live name = some ⟨.ref ref, 0⟩ ∧ n ≤ (self.heap.bytes ref).length
  | .getchunk dst src =>
      dst ≠ src ∧ self.Vacant dst ∧ ∃ ref, self.live src = some ⟨.ref ref, 0⟩
  | .term name => ∃ ref, self.live name = some ⟨.ref ref, 0⟩
  | .free name => ∃ addr, self.live name = some ⟨.pointer addr, 0⟩

/-- The 32 bits of a counter suffice: that of the references to a chunk, and that of the
space in front of its data. -/
def Within (self : RefUse) : Label → Prop
  | .cp _ src => ∀ live, self.live src = some live → ∀ a ∈ live.holder.addrs,
      self.heap.count a + 1 < 2 ^ 32
  | .bulkcopyStart src copies => ∀ live, self.live src = some live → ∀ a ∈ live.holder.addrs,
      self.heap.count a + copies < 2 ^ 32
  | .trim name n => ∀ live, self.live name = some live → ∀ a ∈ live.holder.addrs,
      ∀ chunk, self.heap.chunks a = some chunk → chunk.empty + n < uint32Max
  | _ => True

/-- The programs. -/
def system : System RefUse Label where
  init s := s = {}
  step s l s' := s.Enabled l ∧ s.next l = .ok s'

/-- The data that is seen through a name. -/
def value (self : RefUse) (name : Nat) : Option (List UInt8) :=
  (self.live name).map fun live => live.holder.bytes self.heap

/-- All references to a chunk. -/
def refs (self : RefUse) (addr : Nat) : Nat := total self.names (Live.refs addr) self.live

end RefUse

/-! ## References and counters -/

/-- Data is seen as before where the chunks have the same data. -/
theorem Holder.bytes_congr {holder : Holder} {heap heap' : ChunkHeap}
    (h : ∀ a ∈ holder.addrs, heap'.bytes (.chunk a) = heap.bytes (.chunk a)) :
    holder.bytes heap' = holder.bytes heap := by
  cases holder with
  | ref r =>
      cases r with
      | small data => rfl
      | chunk a => exact h a (List.mem_singleton.mpr rfl)
  | pointer a => exact h a (List.mem_singleton.mpr rfl)

namespace RefUse

variable {s : RefUse} {name : Nat} {heap : ChunkHeap} {extra : Nat → Nat}

@[simp] theorem put_live_self (live : Option Live) : (s.put name live).live name = live :=
  Function.update_self _ _ _

theorem put_live_of_ne {n : Nat} (hn : n ≠ name) (live : Option Live) :
    (s.put name live).live n = s.live n :=
  Function.update_of_ne hn _ _

/-- Only names that were used stand for something. -/
def Named (s : RefUse) : Prop := ∀ n, n ∉ s.names → s.live n = none

theorem Named.covers (h : s.Named) (a : Nat) : Covers s.names (Live.refs a) s.live := by
  intro n hn
  rw [h n hn]
  rfl

theorem Named.put (h : s.Named) (name : Nat) (live : Option Live) : (s.put name live).Named := by
  intro n hn
  have hno : n ≠ name ∧ n ∉ s.names := by
    simpa only [RefUse.put, Finset.mem_insert, not_or] using hn
  rw [put_live_of_ne hno.1, h n hno.2]

/-- What a name stands for now counts in place of what it stood for. -/
theorem Named.refs_put (h : s.Named) (name : Nat) (live : Option Live) (a : Nat) :
    (s.put name live).refs a + Live.refs a (s.live name) = s.refs a + Live.refs a live :=
  total_update (h.covers a) name live

/-- What a name stands for is one of the references to its chunk. -/
theorem Named.refs_pos (h : s.Named) {live : Live} {a : Nat} (hlive : s.live name = some live)
    (ha : a ∈ live.holder.addrs) : 1 + live.owed ≤ s.refs a := by
  have hone : Live.refs a (s.live name) = 1 + live.owed := by
    rw [hlive]
    exact if_pos ha
  rw [← hone]
  exact le_total (h.covers a) name

/-- The references counted by the chunks are those that there are, and the chunks that were
freed are those that are gone. -/
structure Inv (s : RefUse) : Prop where
  named : s.Named
  short : ∀ n data owed, s.live n = some ⟨.ref (.small data), owed⟩ → data.length < chunkrefMax
  counts : ∀ a, s.heap.count a = s.refs a
  counted : s.heap.Counted
  once : ∀ a, s.freed.count a =
    if 1 ≤ a ∧ a < s.heap.next ∧ s.heap.chunks a = none then 1 else 0

/-- The chunk of a reference is there. -/
theorem Inv.chunk (h : s.Inv) {live : Live} {a : Nat} (hlive : s.live name = some live)
    (ha : a ∈ live.holder.addrs) :
    ∃ chunk, s.heap.chunks a = some chunk ∧ chunk.refcount = s.refs a := by
  have hpos := h.named.refs_pos hlive ha
  rw [← h.counts a] at hpos ⊢
  cases hc : s.heap.chunks a with
  | none =>
      rw [ChunkHeap.count, hc] at hpos
      simp only at hpos
      omega
  | some chunk => exact ⟨chunk, rfl, (ChunkHeap.count_some hc).symm⟩

end RefUse

/-! ## Calls that free nothing -/

namespace RefUse

variable {s s' : RefUse} {name dst src : Nat} {heap : ChunkHeap} {extra : Nat → Nat}

/-- References are made as the chunks count them. -/
theorem Inv.grow (h : s.Inv) (hgrows : s.heap.Grows s'.heap extra) (hfreed : s'.freed = s.freed)
    (hnamed : s'.Named)
    (hshort : ∀ n data owed, s'.live n = some ⟨.ref (.small data), owed⟩ →
      data.length < chunkrefMax)
    (hrefs : ∀ a, s'.refs a = s.refs a + extra a) : s'.Inv := by
  refine ⟨hnamed, hshort, ?_, hgrows.counted h.counted, ?_⟩
  · intro a
    rw [hgrows.count, h.counts, hrefs]
  · intro a
    rw [hfreed, h.once]
    exact if_congr (hgrows.gone a).symm rfl rfl

/-- What the other names stand for is seen as before. -/
theorem Inv.bytes_grow (h : s.Inv) (hgrows : s.heap.Grows heap extra) {live : Live}
    (hlive : s.live name = some live) : live.holder.bytes heap = live.holder.bytes s.heap := by
  apply Holder.bytes_congr
  intro a ha
  obtain ⟨chunk, hchunk, -⟩ := h.chunk hlive ha
  exact hgrows.data a (by rw [hchunk]; simp)

/-- The data of what a name may stand for. -/
def seen (heap : ChunkHeap) (live : Option Live) : Option (List UInt8) :=
  live.map fun l => l.holder.bytes heap

def IsShort (live : Option Live) : Prop :=
  ∀ data owed, live = some ⟨.ref (.small data), owed⟩ → data.length < chunkrefMax

theorem put_short (h : ∀ n, IsShort (s.live n)) {live : Option Live} (hlive : IsShort live) :
    ∀ n, IsShort ((s.put name live).live n) := by
  intro n
  by_cases hn : n = name
  · subst hn
    rw [put_live_self]
    exact hlive
  · rw [put_live_of_ne hn]
    exact h n

/-- One name stands for something else. -/
theorem Inv.put (h : s.Inv) (hgrows : s.heap.Grows heap extra) (name : Nat) {live : Option Live}
    (hshort : IsShort live)
    (hrefs : ∀ a, Live.refs a live = Live.refs a (s.live name) + extra a) :
    ({ s with heap := heap }.put name live).Inv ∧
      ({ s with heap := heap }.put name live).value =
        Function.update s.value name (seen heap live) := by
  have hnamed : Named { s with heap := heap } := h.named
  refine ⟨h.grow hgrows rfl (hnamed.put name live) (put_short h.short hshort) ?_, ?_⟩
  · intro a
    have hput := hnamed.refs_put name live a
    have hsame : RefUse.refs { s with heap := heap } a = s.refs a := rfl
    have hlive := hrefs a
    simp only at hput
    omega
  · funext n
    by_cases hn : n = name
    · subst hn
      rw [Function.update_self, value, put_live_self]
      rfl
    · rw [Function.update_of_ne hn, value, put_live_of_ne hn, value]
      cases hlive : s.live n with
      | none => rfl
      | some l => exact congrArg some (h.bytes_grow hgrows hlive)

/-- Two names stand for something else. -/
theorem Inv.put_two (h : s.Inv) (hgrows : s.heap.Grows heap extra) {live live' : Option Live}
    (hne : dst ≠ src) (hshort : IsShort live) (hshort' : IsShort live')
    (hrefs : ∀ a, Live.refs a live + Live.refs a live' =
      Live.refs a (s.live src) + Live.refs a (s.live dst) + extra a) :
    (({ s with heap := heap }.put src live).put dst live').Inv ∧
      (({ s with heap := heap }.put src live).put dst live').value =
        Function.update (Function.update s.value src (seen heap live)) dst (seen heap live') := by
  have hnamed : Named { s with heap := heap } := h.named
  have hnamed' := hnamed.put src live
  refine ⟨h.grow hgrows rfl (hnamed'.put dst live')
    (put_short (put_short (s := { s with heap := heap }) h.short hshort) hshort') ?_, ?_⟩
  · intro a
    have hput := hnamed.refs_put src live a
    have hput' := hnamed'.refs_put dst live' a
    rw [put_live_of_ne hne] at hput'
    have hsame : RefUse.refs { s with heap := heap } a = s.refs a := rfl
    have hlive := hrefs a
    simp only at hput hput'
    omega
  · funext n
    by_cases hn : n = dst
    · subst hn
      rw [Function.update_self, value, put_live_self]
      rfl
    · rw [Function.update_of_ne hn, value, put_live_of_ne hn]
      by_cases hn' : n = src
      · subst hn'
        rw [Function.update_self, put_live_self]
        rfl
      · rw [Function.update_of_ne hn', put_live_of_ne hn', value]
        cases hlive : s.live n with
        | none => rfl
        | some l => exact congrArg some (h.bytes_grow hgrows hlive)

end RefUse

/-! ## References that end, and trimming -/

namespace RefUse

variable {s s' : RefUse} {name dst src : Nat} {heap : ChunkHeap}

/-- A name no longer stands for its chunk. -/
theorem Inv.release (h : s.Inv) {holder : Holder} {addr : Nat}
    (hlive : s.live name = some ⟨holder, 0⟩) (haddr : holder.addrs = [addr]) :
    ∃ heap', s.heap.free addr = .ok heap' ∧ ((s.release heap' [addr]).put name none).Inv ∧
      ((s.release heap' [addr]).put name none).value = Function.update s.value name none := by
  obtain ⟨chunk, hchunk, -⟩ := h.chunk hlive (haddr ▸ List.mem_singleton.mpr rfl)
  obtain ⟨hnonzero, hpos⟩ := h.counted.chunks addr chunk hchunk
  obtain ⟨heap', hfree, hshrinks⟩ := ChunkHeap.Shrinks.free hchunk hpos
  have hold : (s.release heap' [addr]).Named := h.named
  have hnamed := hold.put name none
  have hcounts : ∀ a, heap'.count a = ((s.release heap' [addr]).put name none).refs a := by
    intro a
    have hput := hold.refs_put name none a
    have hone : Live.refs a ((s.release heap' [addr]).live name) = if a = addr then 1 else 0 := by
      rw [show (s.release heap' [addr]).live name = some ⟨holder, 0⟩ from hlive, Live.refs, haddr]
      simp only [List.mem_singleton, Nat.add_zero]
    have hsame : (s.release heap' [addr]).refs a = s.refs a := rfl
    have hnone : Live.refs a none = 0 := rfl
    have hcount := hshrinks.count a
    rw [h.counts a] at hcount
    omega
  refine ⟨heap', hfree, ⟨hnamed, ?_, hcounts, hshrinks.counted h.counted, ?_⟩, ?_⟩
  · exact put_short (s := s.release heap' [addr]) h.short fun _ _ hno => absurd hno (by simp)
  · intro a
    change (heap'.freedOf [addr] ++ s.freed).count a = _
    rw [List.count_append, h.once]
    exact hshrinks.gone hnonzero a
  · funext n
    by_cases hn : n = name
    · subst hn
      rw [Function.update_self, value, put_live_self]
      rfl
    · rw [Function.update_of_ne hn, value, put_live_of_ne hn, value]
      change (s.live n).map _ = _
      cases hother : s.live n with
      | none => rfl
      | some l =>
          refine congrArg some (Holder.bytes_congr ?_)
          intro a ha
          apply hshrinks.data
          -- the chunk has a reference, so it was not freed
          have hleft := hnamed.refs_pos ((put_live_of_ne hn none).trans hother) ha
          rw [← hcounts a] at hleft
          intro hgone
          rw [ChunkHeap.count, hgone] at hleft
          simp only at hleft
          omega

/-- A chunk that no other name stands for is trimmed. -/
theorem Inv.trim (h : s.Inv) {addr n : Nat} {chunk : MsgChunk}
    (hlive : s.live name = some ⟨.ref (.chunk addr), 0⟩) (hunshared : s.Unshared name)
    (hchunk : s.heap.chunks addr = some chunk) (hle : n ≤ chunk.data.length)
    (hroom : chunk.empty + n < uint32Max) :
    ∃ heap', s.heap.chunkTrim addr n = .ok heap' ∧
      ({ s with heap := heap' }.put name (some ⟨.ref (.chunk addr), 0⟩)).Inv ∧
      ({ s with heap := heap' }.put name (some ⟨.ref (.chunk addr), 0⟩)).value =
        Function.update s.value name (some (chunk.data.drop n)) := by
  obtain ⟨heap', htrim, hlocal, chunk', hself, hrefcount, -, hdata⟩ :=
    ChunkHeap.chunkTrim_spec hchunk hle hroom
  have hnamed : Named { s with heap := heap' } := h.named
  refine ⟨heap', htrim, ⟨hnamed.put name _, ?_, ?_, ⟨?_, ?_⟩, ?_⟩, ?_⟩
  · apply put_short (s := { s with heap := heap' }) h.short
    intro data owed hno
    exact absurd hno (by simp)
  · intro a
    have hput := hnamed.refs_put name (some ⟨.ref (.chunk addr), 0⟩) a
    rw [show ({ s with heap := heap' } : RefUse).live name = _ from hlive] at hput
    have hsame : RefUse.refs { s with heap := heap' } a = s.refs a := rfl
    have hcount : heap'.count a = s.heap.count a := by
      by_cases ha : a = addr
      · subst ha
        rw [ChunkHeap.count_some hself, ChunkHeap.count_some hchunk, hrefcount]
      · exact hlocal.count_other ha
    change heap'.count a = _
    rw [hcount, h.counts]
    omega
  · exact hlocal.next ▸ h.counted.next
  · intro a chunk'' hchunk''
    by_cases ha : a = addr
    · subst ha
      obtain rfl := Option.some.inj (hself.symm.trans hchunk'')
      rw [hrefcount]
      exact h.counted.chunks a chunk hchunk
    · exact h.counted.chunks a chunk'' ((hlocal.other a ha).symm.trans hchunk'')
  · intro a
    change s.freed.count a = if 1 ≤ a ∧ a < heap'.next ∧ heap'.chunks a = none then 1 else 0
    rw [h.once, hlocal.next]
    by_cases ha : a = addr
    · subst ha
      rw [hself, hchunk]
      simp
    · rw [hlocal.other a ha]
  · funext m
    by_cases hm : m = name
    · subst hm
      rw [Function.update_self, value, put_live_self]
      change some (heap'.bytes (.chunk addr)) = _
      rw [ChunkHeap.bytes, hself, ← hdata]
      rfl
    · rw [Function.update_of_ne hm, value, put_live_of_ne hm, value]
      cases hother : s.live m with
      | none => rfl
      | some l =>
          refine congrArg some (Holder.bytes_congr ?_)
          intro a ha
          apply hlocal.bytes_other
          rintro rfl
          exact hunshared m _ l hm hlive hother a (List.mem_singleton.mpr rfl) ha

/-! ## One call -/

theorem refs_small (data : List UInt8) (owed a : Nat) :
    Live.refs a (some ⟨.ref (.small data), owed⟩) = 0 := rfl

theorem refs_chunk (addr owed a : Nat) :
    Live.refs a (some ⟨.ref (.chunk addr), owed⟩) = if a = addr then 1 + owed else 0 :=
  if_congr List.mem_singleton rfl rfl

theorem refs_pointer (addr owed a : Nat) :
    Live.refs a (some ⟨.pointer addr, owed⟩) = if a = addr then 1 + owed else 0 :=
  if_congr List.mem_singleton rfl rfl

theorem Vacant.refs (h : s.Vacant name) (a : Nat) : Live.refs a (s.live name) = 0 := by
  cases hlive : s.live name with
  | none => rfl
  | some live =>
      rw [Live.refs, (h live hlive).2]
      rfl

theorem isShort_none : IsShort none := fun _ _ hno => absurd hno (by simp)

theorem isShort_small {data : List UInt8} (h : data.length < chunkrefMax) (owed : Nat) :
    IsShort (some ⟨.ref (.small data), owed⟩) := by
  intro data' owed' heq
  simp only [Option.some.injEq, Live.mk.injEq, Holder.ref.injEq, Chunkref.small.injEq] at heq
  exact heq.1 ▸ h

theorem isShort_chunk (addr owed : Nat) : IsShort (some ⟨.ref (.chunk addr), owed⟩) :=
  fun _ _ hno => absurd hno (by simp)

theorem isShort_pointer (addr owed : Nat) : IsShort (some ⟨.pointer addr, owed⟩) :=
  fun _ _ hno => absurd hno (by simp)

theorem getRef_some {ref : Chunkref} {owed : Nat} (h : s.live name = some ⟨.ref ref, owed⟩) :
    s.getRef name = .ok (ref, owed) := by
  rw [getRef, h]

theorem getPointer_some {addr owed : Nat} (h : s.live name = some ⟨.pointer addr, owed⟩) :
    s.getPointer name = .ok addr := by
  rw [getPointer, h]

theorem value_some {holder : Holder} {owed : Nat} (h : s.live name = some ⟨holder, owed⟩) :
    s.value name = some (holder.bytes s.heap) := by
  rw [value, h]
  rfl

/-- What a step that the callers make leads to. -/
def Steps (s : RefUse) (l : Label) : Prop :=
  ∃ s', s.next l = .ok s' ∧ s'.Inv ∧ s'.value = l.apply s.value

variable {data : List UInt8} {n : Nat}

theorem Inv.init (h : s.Inv) (hdst : s.Vacant dst)
    (hdata : data.length < chunkrefMax ∨ Fits data.length) : s.Steps (.init dst data) := by
  by_cases hsmall : data.length < chunkrefMax
  · have hstore : s.heap.store data = .ok (s.heap, .small data) := if_pos hsmall
    refine ⟨_, by rw [next, hstore]; rfl, h.put (.refl _) dst (isShort_small hsmall 0) ?_⟩
    intro a
    rw [hdst.refs, refs_small]
  · have hfits := hdata.resolve_left hsmall
    have hstore : s.heap.store data = .ok (s.heap.alloc data hfits, .chunk s.heap.next) := by
      rw [ChunkHeap.store, if_neg hsmall, dif_pos hfits]
    obtain ⟨hinv, hvalue⟩ := h.put (.alloc data hfits) dst
      (isShort_chunk s.heap.next 0) (fun a => by rw [hdst.refs, refs_chunk, Nat.zero_add])
    refine ⟨_, by rw [next, hstore]; rfl, hinv, hvalue.trans ?_⟩
    refine congrArg (Function.update s.value dst) (congrArg some ?_)
    change ChunkHeap.bytes _ (.chunk s.heap.next) = data
    rw [ChunkHeap.bytes, ChunkHeap.alloc_chunks, if_pos rfl]
    rfl

theorem Inv.alloc (h : s.Inv) (hdst : s.Vacant dst) (hfits : Fits data.length) :
    s.Steps (.alloc dst data) := by
  obtain ⟨hinv, hvalue⟩ := h.put (.alloc data hfits) dst
    (isShort_pointer s.heap.next 0) (fun a => by rw [hdst.refs, refs_pointer, Nat.zero_add])
  refine ⟨_, dif_pos hfits, hinv, hvalue.trans ?_⟩
  refine congrArg (Function.update s.value dst) (congrArg some ?_)
  change ChunkHeap.bytes _ (.chunk s.heap.next) = data
  rw [ChunkHeap.bytes, ChunkHeap.alloc_chunks, if_pos rfl]
  rfl

theorem Inv.initChunk (h : s.Inv) (hne : dst ≠ src) (hdst : s.Vacant dst) {addr : Nat}
    (hsrc : s.live src = some ⟨.pointer addr, 0⟩) : s.Steps (.initChunk dst src) := by
  obtain ⟨hinv, hvalue⟩ := h.put_two (.refl _) hne isShort_none (isShort_chunk addr 0)
    (fun a => by rw [hdst.refs, hsrc, refs_chunk, refs_pointer]; exact Nat.zero_add _)
  refine ⟨_, by rw [next, getPointer_some hsrc]; rfl, hinv, hvalue.trans ?_⟩
  rw [Label.apply, value_some hsrc]
  rfl

theorem Inv.isShort (h : s.Inv) (name : Nat) : IsShort (s.live name) := h.short name

theorem Inv.cp (h : s.Inv) (hdst : s.Vacant dst) {ref : Chunkref} {owed : Nat}
    (hsrc : s.live src = some ⟨.ref ref, owed⟩) (hw : s.Within (.cp dst src)) :
    s.Steps (.cp dst src) := by
  cases ref with
  | small data =>
      obtain ⟨hinv, hvalue⟩ := h.put (.refl _) dst (isShort_small (h.short src data owed hsrc) 0)
        (fun a => by rw [hdst.refs, refs_small])
      refine ⟨_, by rw [next, getRef_some hsrc]; rfl, hinv, hvalue.trans ?_⟩
      rw [Label.apply, value_some hsrc]
      rfl
  | chunk addr =>
      have hmem : addr ∈ (Holder.ref (.chunk addr)).addrs := List.mem_singleton.mpr rfl
      obtain ⟨chunk, hchunk, -⟩ := h.chunk hsrc hmem
      have hfew := hw _ hsrc addr hmem
      rw [ChunkHeap.count_some hchunk] at hfew
      obtain ⟨heap', hadd, hgrows⟩ := ChunkHeap.Grows.addref hchunk hfew
      obtain ⟨hinv, hvalue⟩ := h.put hgrows dst (isShort_chunk addr 0)
        (fun a => by rw [hdst.refs, refs_chunk, Nat.zero_add])
      have hcp : s.heap.cp (.chunk addr) = .ok (heap', .chunk addr) := by
        rw [ChunkHeap.cp, hadd]
        rfl
      refine ⟨_, by simp only [next, getRef_some hsrc, ok_bind, hcp]; rfl, hinv, hvalue.trans ?_⟩
      have hseen := h.bytes_grow hgrows hsrc
      rw [Label.apply, value_some hsrc]
      exact congrArg (Function.update s.value dst) (congrArg some hseen)

theorem Inv.mv (h : s.Inv) (hne : dst ≠ src) (hdst : s.Vacant dst) {ref : Chunkref}
    (hsrc : s.live src = some ⟨.ref ref, 0⟩) : s.Steps (.mv dst src) := by
  obtain ⟨hinv, hvalue⟩ := h.put_two (.refl _) hne isShort_none (hsrc ▸ h.isShort src)
    (fun a => by rw [hdst.refs, hsrc]; exact Nat.zero_add _)
  refine ⟨_, by rw [next, getRef_some hsrc]; rfl, hinv, hvalue.trans ?_⟩
  rw [Label.apply, value_some hsrc]
  rfl

theorem Inv.bulkcopyStart (h : s.Inv) {ref : Chunkref} {owed : Nat}
    (hsrc : s.live src = some ⟨.ref ref, owed⟩) (hw : s.Within (.bulkcopyStart src n)) :
    s.Steps (.bulkcopyStart src n) := by
  have hsame : ∀ heap, heap = s.heap ∨ (∃ extra, s.heap.Grows heap extra) →
      Function.update s.value src (seen heap (some ⟨.ref ref, owed + n⟩)) = s.value := by
    intro heap hheap
    refine Function.update_eq_self_iff.mpr ?_
    rw [value_some hsrc]
    rcases hheap with rfl | ⟨extra, hgrows⟩
    · rfl
    · have hseen := h.bytes_grow hgrows hsrc
      exact congrArg some hseen
  cases ref with
  | small data =>
      obtain ⟨hinv, hvalue⟩ := h.put (.refl _) src
        (isShort_small (h.short src data owed hsrc) (owed + n))
        (fun a => by rw [hsrc, refs_small, refs_small])
      exact ⟨_, by rw [next, getRef_some hsrc]; rfl, hinv, hvalue.trans (hsame _ (Or.inl rfl))⟩
  | chunk addr =>
      have hmem : addr ∈ (Holder.ref (.chunk addr)).addrs := List.mem_singleton.mpr rfl
      obtain ⟨chunk, hchunk, -⟩ := h.chunk hsrc hmem
      have hfew := hw _ hsrc addr hmem
      rw [ChunkHeap.count_some hchunk] at hfew
      obtain ⟨heap', hadd, hgrows⟩ := ChunkHeap.Grows.addref hchunk hfew
      obtain ⟨hinv, hvalue⟩ := h.put hgrows src (isShort_chunk addr (owed + n)) (by
          intro a
          rw [hsrc, refs_chunk, refs_chunk]
          split <;> omega)
      have hbulk : s.heap.bulkcopyStart n (.chunk addr) = .ok heap' := hadd
      exact ⟨_, by simp only [next, getRef_some hsrc, ok_bind, hbulk]; rfl, hinv,
        hvalue.trans (hsame _ (Or.inr ⟨_, hgrows⟩))⟩

theorem Inv.bulkcopyCp (h : s.Inv) (hne : dst ≠ src) (hdst : s.Vacant dst) {ref : Chunkref}
    {owed : Nat} (hsrc : s.live src = some ⟨.ref ref, owed + 1⟩) :
    s.Steps (.bulkcopyCp dst src) := by
  have hshort : ∀ k, IsShort (some ⟨.ref ref, k⟩) := by
    intro k
    cases ref with
    | small data => exact isShort_small (h.short src data _ hsrc) k
    | chunk addr => exact isShort_chunk addr k
  obtain ⟨hinv, hvalue⟩ := h.put_two (.refl _) hne (hshort owed) (hshort 0) (by
    intro a
    rw [hdst.refs, hsrc]
    cases ref with
    | small data => rfl
    | chunk addr =>
        simp only [refs_chunk]
        split <;> omega)
  refine ⟨_, by rw [next, getRef_some hsrc]; rfl, hinv, hvalue.trans ?_⟩
  have hsrcvalue : Function.update s.value src (seen s.heap (some ⟨.ref ref, owed⟩)) = s.value :=
    Function.update_eq_self_iff.mpr (value_some hsrc).symm
  rw [Label.apply, hsrcvalue, value_some hsrc]
  rfl

theorem Inv.trimRef (h : s.Inv) (hunshared : s.Unshared name) {ref : Chunkref}
    (hlive : s.live name = some ⟨.ref ref, 0⟩) (hle : n ≤ (s.heap.bytes ref).length)
    (hw : s.Within (.trim name n)) : s.Steps (.trim name n) := by
  cases ref with
  | small data =>
      have hshort := h.short name data 0 hlive
      have htrim : s.heap.trim n (.small data) = .ok (s.heap, .small (data.drop n)) := by
        rw [ChunkHeap.trim, gridAssert_pos (show n ≤ data.length from hle)]
        rfl
      have hdrop : (data.drop n).length < chunkrefMax := by
        rw [List.length_drop]
        omega
      obtain ⟨hinv, hvalue⟩ := h.put (.refl _) name (isShort_small hdrop 0)
        (fun a => by rw [hlive, refs_small, refs_small])
      refine ⟨_, by simp only [next, getRef_some hlive, ok_bind, htrim]; rfl, hinv, hvalue.trans ?_⟩
      rw [Label.apply, value_some hlive]
      rfl
  | chunk addr =>
      have hmem : addr ∈ (Holder.ref (.chunk addr)).addrs := List.mem_singleton.mpr rfl
      obtain ⟨chunk, hchunk, -⟩ := h.chunk hlive hmem
      have hbytes : s.heap.bytes (.chunk addr) = chunk.data := by
        rw [ChunkHeap.bytes, hchunk]
        rfl
      rw [hbytes] at hle
      obtain ⟨heap', hchunkTrim, hinv, hvalue⟩ :=
        h.trim hlive hunshared hchunk hle (hw _ hlive addr hmem chunk hchunk)
      have htrim : s.heap.trim n (.chunk addr) = .ok (heap', .chunk addr) := by
        rw [ChunkHeap.trim, hchunkTrim]
        rfl
      refine ⟨_, by simp only [next, getRef_some hlive, ok_bind, htrim]; rfl, hinv, hvalue.trans ?_⟩
      rw [Label.apply, value_some hlive]
      exact congrArg (fun d => Function.update s.value name (some (List.drop n d))) hbytes.symm

theorem Inv.getchunk (h : s.Inv) (hne : dst ≠ src) (hdst : s.Vacant dst) {ref : Chunkref}
    (hsrc : s.live src = some ⟨.ref ref, 0⟩) : s.Steps (.getchunk dst src) := by
  have hempty : IsShort (some ⟨.ref (.small []), 0⟩) := isShort_small (by decide) 0
  cases ref with
  | small data =>
      have hshort := h.short src data 0 hsrc
      have hfits : Fits data.length := by
        have hmax : chunkrefMax = 32 := rfl
        have hhdr : chunkHdrsize = 32 := rfl
        have hptr : ptrdiffMax = 2 ^ 63 - 1 := rfl
        change chunkHdrsize + data.length ≤ ptrdiffMax
        omega
      obtain ⟨hinv, hvalue⟩ := h.put_two (.alloc data hfits) hne hempty
        (isShort_pointer s.heap.next 0) (fun a => by
          rw [hdst.refs, hsrc, refs_small, refs_small, refs_pointer])
      have hget : s.heap.getchunk (.small data) = .ok (s.heap.alloc data hfits, s.heap.next) :=
        dif_pos hfits
      refine ⟨_, by simp only [next, getRef_some hsrc, ok_bind, hget]; rfl, hinv, hvalue.trans ?_⟩
      rw [Label.apply, value_some hsrc]
      refine congrArg (Function.update _ dst) (congrArg some ?_)
      change ChunkHeap.bytes _ (.chunk s.heap.next) = data
      rw [ChunkHeap.bytes, ChunkHeap.alloc_chunks, if_pos rfl]
      rfl
  | chunk addr =>
      obtain ⟨hinv, hvalue⟩ := h.put_two (.refl _) hne hempty (isShort_pointer addr 0)
        (fun a => by rw [hdst.refs, hsrc, refs_small, refs_chunk, refs_pointer, Nat.zero_add]; rfl)
      refine ⟨_, by rw [next, getRef_some hsrc]; rfl, hinv, hvalue.trans ?_⟩
      rw [Label.apply, value_some hsrc]
      rfl

theorem Inv.term (h : s.Inv) {ref : Chunkref} (hlive : s.live name = some ⟨.ref ref, 0⟩) :
    s.Steps (.term name) := by
  cases ref with
  | small data =>
      obtain ⟨hinv, hvalue⟩ := h.put (.refl _) name isShort_none
        (fun a => by rw [hlive, refs_small]; rfl)
      exact ⟨_, by rw [next, getRef_some hlive]; rfl, hinv, hvalue⟩
  | chunk addr =>
      obtain ⟨heap', hfree, hinv, hvalue⟩ := h.release hlive rfl
      have hterm : s.heap.term (.chunk addr) = .ok heap' := hfree
      exact ⟨_, by simp only [next, getRef_some hlive, ok_bind, hterm]; rfl, hinv, hvalue⟩

theorem Inv.free (h : s.Inv) {addr : Nat} (hlive : s.live name = some ⟨.pointer addr, 0⟩) :
    s.Steps (.free name) := by
  obtain ⟨heap', hfree, hinv, hvalue⟩ := h.release hlive rfl
  exact ⟨_, by rw [next, getPointer_some hlive, ok_bind, hfree]; rfl, hinv, hvalue⟩

/-- Every call succeeds, keeps the counters and does to the data what the abstract machine
does to the strings. -/
theorem Inv.steps (h : s.Inv) {l : Label} (hen : s.Enabled l) (hw : s.Within l) : s.Steps l := by
  cases l with
  | init dst data => exact h.init hen.1 hen.2
  | alloc dst data => exact h.alloc hen.1 hen.2
  | initChunk dst src =>
      obtain ⟨hne, hdst, addr, hsrc⟩ := hen
      exact h.initChunk hne hdst hsrc
  | cp dst src =>
      obtain ⟨-, hdst, ref, owed, hsrc⟩ := hen
      exact h.cp hdst hsrc hw
  | mv dst src =>
      obtain ⟨hne, hdst, ref, hsrc⟩ := hen
      exact h.mv hne hdst hsrc
  | bulkcopyStart src copies =>
      obtain ⟨-, ref, owed, hsrc⟩ := hen
      exact h.bulkcopyStart hsrc hw
  | bulkcopyCp dst src =>
      obtain ⟨hne, hdst, ref, owed, hsrc⟩ := hen
      exact h.bulkcopyCp hne hdst hsrc
  | trim name n =>
      obtain ⟨hunshared, ref, hlive, hle⟩ := hen
      exact h.trimRef hunshared hlive hle hw
  | getchunk dst src =>
      obtain ⟨hne, hdst, ref, hsrc⟩ := hen
      exact h.getchunk hne hdst hsrc
  | term name =>
      obtain ⟨ref, hlive⟩ := hen
      exact h.term hlive
  | free name =>
      obtain ⟨addr, hlive⟩ := hen
      exact h.free hlive

/-! ## Whole programs -/

theorem inv_init : ({} : RefUse).Inv := by
  refine ⟨fun _ _ => rfl, fun _ _ _ hno => absurd hno (by simp), fun _ => rfl,
    ⟨Nat.le_refl 1, fun _ _ hno => absurd hno (by simp)⟩, ?_⟩
  intro a
  rw [if_neg]
  · rfl
  · rintro ⟨hpos, hlt, -⟩
    have hnext : ({} : RefUse).heap.next = 1 := rfl
    omega

theorem inv_run {labels : List Label} (hrun : (system.restrict Within).Run labels s) :
    s.Inv ∧ s.value = strings labels := by
  induction hrun with
  | start hinit =>
      obtain rfl := hinit
      exact ⟨inv_init, rfl⟩
  | step _ hstep ih =>
      obtain ⟨hw, hen, hnext⟩ := hstep
      obtain ⟨s', hnext', hinv, hvalue⟩ := ih.1.steps hen hw
      obtain rfl := Except.ok.inj (hnext.symm.trans hnext')
      refine ⟨hinv, ?_⟩
      rw [hvalue, ih.2, strings, strings, List.foldl_append]
      rfl

/-- What is seen through the names are the strings, each chunk counts the references to it
and those that were announced, and the chunks without one, and only they, were freed, and
once. -/
structure Agrees (s : RefUse) (strings : Nat → Option (List UInt8)) : Prop where
  values : ∀ name, s.value name = strings name
  tags : ∀ name ref owed, s.live name = some ⟨.ref ref, owed⟩ →
    (ref.tag = 0xff ↔ ∃ addr, ref = .chunk addr)
  counts : ∀ a, s.heap.count a = s.refs a
  freed : ∀ a, s.freed.count a = if 1 ≤ a ∧ a < s.heap.next ∧ s.refs a = 0 then 1 else 0

theorem Inv.agrees (h : s.Inv) : s.Agrees s.value := by
  refine ⟨fun _ => rfl, ?_, h.counts, ?_⟩
  · intro name ref owed hlive
    cases ref with
    | small data =>
        have htag := Chunkref.tag_small (h.short name data owed hlive)
        exact ⟨fun hno => absurd hno htag, fun ⟨_, hno⟩ => absurd hno (by simp)⟩
    | chunk addr => exact ⟨fun _ => ⟨addr, rfl⟩, fun _ => rfl⟩
  · intro a
    rw [h.once a]
    refine if_congr (and_congr_right fun _ => and_congr_right fun _ => ?_) rfl rfl
    rw [← h.counts a, ChunkHeap.count]
    cases hc : s.heap.chunks a with
    | none => simp
    | some chunk =>
        have hpos := (h.counted.chunks a chunk hc).2
        simp only [reduceCtorEq, false_iff]
        omega

/-- The state after one large message was made. -/
def withChunk (data : List UInt8) (fits : Fits data.length) : RefUse :=
  { ({} : RefUse) with heap := ({} : ChunkHeap).alloc data fits }.put 0
    (some ⟨.ref (.chunk 1), 0⟩)

theorem next_init {data : List UInt8} (fits : Fits data.length)
    (hlarge : chunkrefMax ≤ data.length) :
    ({} : RefUse).Enabled (.init 0 data) ∧
      ({} : RefUse).next (.init 0 data) = .ok (withChunk data fits) := by
  have hstore : ({} : ChunkHeap).store data = .ok (({} : ChunkHeap).alloc data fits, .chunk 1) := by
    rw [ChunkHeap.store, if_neg (Nat.not_lt.mpr hlarge), dif_pos fits]
  refine ⟨⟨fun live hno => absurd hno (by simp), Or.inr fits⟩, ?_⟩
  rw [next, hstore]
  rfl

/-- A trim by 2^32 - 1 bytes runs into the assertion on the space in front of the data. -/
theorem next_trim {data : List UInt8} (fits : Fits data.length)
    (hlong : uint32Max ≤ data.length) :
    (withChunk data fits).Enabled (.trim 0 uint32Max) ∧
      (withChunk data fits).next (.trim 0 uint32Max) = .error .assertion := by
  have hlive : ∀ n, n ≠ 0 → (withChunk data fits).live n = none := by
    intro n hn
    exact (put_live_of_ne hn _).trans rfl
  have hself : (withChunk data fits).live 0 = some ⟨.ref (.chunk 1), 0⟩ := put_live_self _
  refine ⟨⟨?_, .chunk 1, hself, hlong⟩, ?_⟩
  · intro other live live' hother _ hlive'
    rw [hlive other hother] at hlive'
    exact absurd hlive' (by simp)
  · have hget : (withChunk data fits).heap.getptr 1 = .ok ⟨1, 0, data, fits⟩ := rfl
    have htrim : (withChunk data fits).heap.trim uint32Max (.chunk 1) = .error .assertion := by
      rw [ChunkHeap.trim, ChunkHeap.chunkTrim, hget, ok_bind, gridAssert_pos hlong, ok_bind,
        gridAssert, if_neg (by simp), error_bind, error_bind]
    simp only [next, getRef_some hself, ok_bind, htrim, error_bind]

/-- References are strings, whatever the callers do with them, while 32 bits suffice. -/
theorem references_are_strings {labels : List Label}
    (hrun : (system.restrict Within).Run labels s) :
    s.Agrees (strings labels) ∧
      ∀ l, s.Enabled l → s.Within l → ∃ s', s.next l = .ok s' := by
  obtain ⟨hinv, hvalue⟩ := inv_run hrun
  refine ⟨hvalue ▸ hinv.agrees, ?_⟩
  intro l hen hw
  obtain ⟨s', hnext, -⟩ := hinv.steps hen hw
  exact ⟨s', hnext⟩

/-- A chunk and a copy of the reference to it. -/
theorem references_are_strings_copy :
    ∃ s : RefUse, s.Agrees (strings [.init 0 (List.replicate 40 7), .cp 1 0]) := by
  have fits : Fits (List.replicate 40 (7 : UInt8)).length := by decide
  obtain ⟨hen, hnext⟩ := next_init fits (by decide)
  have hrun : (system.restrict Within).Run ([] ++ [.init 0 (List.replicate 40 7)])
      (withChunk _ fits) := .step (.start rfl) ⟨trivial, hen, hnext⟩
  have hlive : (withChunk _ fits).live 0 = some ⟨.ref (.chunk 1), 0⟩ := put_live_self _
  have hen' : (withChunk _ fits).Enabled (.cp 1 0) :=
    ⟨by decide, fun live hno => absurd hno (by simp [withChunk, put]), .chunk 1, 0, hlive⟩
  have hw : (withChunk _ fits).Within (.cp 1 0) := by
    intro live heq a ha
    obtain rfl := Option.some.inj (hlive.symm.trans heq)
    obtain rfl := List.mem_singleton.mp ha
    change 1 + 1 < 2 ^ 32
    decide
  obtain ⟨s', hnext'⟩ := (references_are_strings hrun).2 _ hen' hw
  exact ⟨s', (references_are_strings (.step hrun ⟨hw, hen', hnext'⟩)).1⟩

/-- Without the condition a long message ends the process when it is trimmed. -/
theorem not_references_are_strings :
    ¬∀ (labels : List Label) (s : RefUse), system.Run labels s →
      s.Agrees (strings labels) ∧ ∀ l, s.Enabled l → ∃ s', s.next l = .ok s' := by
  intro hall
  have fits : Fits (List.replicate (2 ^ 32) (0 : UInt8)).length := by
    rw [List.length_replicate]
    decide
  have hlong : uint32Max ≤ (List.replicate (2 ^ 32) (0 : UInt8)).length := by
    rw [List.length_replicate]
    decide
  obtain ⟨hen, hnext⟩ := next_init fits (Nat.le_trans (by decide) hlong)
  obtain ⟨hen', hnext'⟩ := next_trim fits hlong
  obtain ⟨s', hok⟩ := (hall _ _ (.step (.start rfl) ⟨hen, hnext⟩)).2 _ hen'
  exact absurd (hok.symm.trans hnext') (by simp)

end RefUse

end GridMq
