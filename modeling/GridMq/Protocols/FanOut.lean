import GridMq.Protocols.Dist
import GridMq.Utils.Chunkref

set_option autoImplicit false

/-!
# A message for many pipes (`grid_dist_send` in `src/protocols/utils/dist.c`)

The references to the chunks of the message are added for all pipes at once, and each copy is
given to its pipe or, for the pipe that is left out, released.  What a pipe does is known by
whether it asks to be released; the copy that it is given it holds.
-/

namespace GridMq

/-! ## References of a message -/

/-- `grid_msg_bulkcopy_start`. -/
def GridMsg.bulkcopyStart (self : GridMsg) (copies : Nat) (heap : ChunkHeap) :
    Except Abort ChunkHeap := do
  let heap ← heap.bulkcopyStart copies self.sphdr
  let heap ← heap.bulkcopyStart copies self.hdrs
  heap.bulkcopyStart copies self.body

namespace ChunkHeap

/-- References to some addresses are released, as often as they are in the list. -/
structure Drops (heap heap' : ChunkHeap) (addrs : List Nat) : Prop where
  count : ∀ a, heap'.count a = heap.count a - addrs.count a
  other : ∀ a, a ∉ addrs → heap'.chunks a = heap.chunks a
  data : ∀ a, heap'.chunks a ≠ none →
    heap.chunks a ≠ none ∧ heap'.bytes (.chunk a) = heap.bytes (.chunk a)

/-- As many references to each of some addresses are added in 32 bits. -/
structure Adds (heap heap' : ChunkHeap) (copies : Nat) (addrs : List Nat) : Prop where
  count : ∀ a, heap.count a < 2 ^ 32 →
    heap'.count a = (heap.count a + copies * addrs.count a) % 2 ^ 32
  other : ∀ a, a ∉ addrs → heap'.chunks a = heap.chunks a
  there : ∀ a, heap'.chunks a = none ↔ heap.chunks a = none
  data : ∀ a, heap'.bytes (.chunk a) = heap.bytes (.chunk a)

variable {heap heap' heap'' : ChunkHeap} {addrs addrs' : List Nat} {addr copies : Nat}

theorem Drops.refl (heap : ChunkHeap) : Drops heap heap [] :=
  ⟨fun _ => rfl, fun _ _ => rfl, fun _ h => ⟨h, rfl⟩⟩

theorem Drops.trans (h : Drops heap heap' addrs) (h' : Drops heap' heap'' addrs') :
    Drops heap heap'' (addrs ++ addrs') where
  count a := by rw [h'.count, h.count, List.count_append, Nat.sub_sub]
  other a ha := by
    rw [List.mem_append, not_or] at ha
    exact (h'.other a ha.2).trans (h.other a ha.1)
  data a ha := by
    obtain ⟨hthere, hdata⟩ := h'.data a ha
    exact ⟨(h.data a hthere).1, hdata.trans (h.data a hthere).2⟩

/-- A chunk that could be released has one reference less, or is gone. -/
theorem Drops.free (h : heap.free addr = .ok heap') : Drops heap heap' [addr] := by
  obtain ⟨chunk, hget, h⟩ := bind_eq_ok_iff.mp h
  have hchunk := getptr_eq_ok hget
  split at h
  · rename_i hlast
    obtain rfl := Except.ok.inj h
    have hlocal := Local.set hchunk none
    have hnone : (heap.set addr none).chunks addr = none := by
      rw [set_chunks hchunk, if_pos rfl]
    refine ⟨?_, ?_, ?_⟩
    · intro a
      by_cases ha : a = addr
      · rw [ha, ChunkHeap.count, hnone, count_some hchunk, List.count_singleton_self]
        exact (Nat.sub_eq_zero_of_le hlast).symm
      · rw [hlocal.count_other ha, List.count_singleton, if_neg (by simpa using Ne.symm ha)]
        rfl
    · intro a ha
      exact hlocal.other a (by simpa using ha)
    · intro a hthere
      have ha : a ≠ addr := fun ha => hthere (ha ▸ hnone)
      exact ⟨hlocal.other a ha ▸ hthere, hlocal.bytes_other ha⟩
  · obtain rfl := Except.ok.inj h
    have hlocal := Local.set hchunk (some { chunk with refcount := chunk.refcount - 1 })
    have hsome : (heap.set addr (some { chunk with refcount := chunk.refcount - 1 })).chunks addr =
        some { chunk with refcount := chunk.refcount - 1 } := by
      rw [set_chunks hchunk, if_pos rfl]
    refine ⟨?_, ?_, ?_⟩
    · intro a
      by_cases ha : a = addr
      · rw [ha, count_some hsome, count_some hchunk, List.count_singleton_self]
      · rw [hlocal.count_other ha, List.count_singleton, if_neg (by simpa using Ne.symm ha)]
        rfl
    · intro a ha
      exact hlocal.other a (by simpa using ha)
    · intro a hthere
      by_cases ha : a = addr
      · rw [ha, ChunkHeap.bytes, ChunkHeap.bytes, hsome, hchunk]
        exact ⟨by simp, rfl⟩
      · exact ⟨hlocal.other a ha ▸ hthere, hlocal.bytes_other ha⟩

theorem Drops.term {ref : Chunkref} (h : heap.term ref = .ok heap') :
    Drops heap heap' ref.addrs := by
  cases ref with
  | small data =>
      obtain rfl := Except.ok.inj h
      exact .refl heap
  | chunk addr => exact .free h

theorem Drops.msg {msg : GridMsg} (h : msg.term heap = .ok heap') :
    Drops heap heap' msg.addrs := by
  obtain ⟨heap₁, h1, h⟩ := bind_eq_ok_iff.mp h
  obtain ⟨heap₂, h2, h3⟩ := bind_eq_ok_iff.mp h
  exact ((Drops.term h1).trans (.term h2)).trans (.term h3)

theorem Adds.trans (h : Adds heap heap' copies addrs) (h' : Adds heap' heap'' copies addrs') :
    Adds heap heap'' copies (addrs ++ addrs') where
  count a ha := by
    have hfirst := h.count a ha
    have hlt : heap'.count a < 2 ^ 32 := by
      rw [hfirst]
      exact Nat.mod_lt _ (by decide)
    rw [h'.count a hlt, hfirst, Nat.mod_add_mod, List.count_append, Nat.mul_add, Nat.add_assoc]
  other a ha := by
    rw [List.mem_append, not_or] at ha
    exact (h'.other a ha.2).trans (h.other a ha.1)
  there a := (h'.there a).trans (h.there a)
  data a := (h'.data a).trans (h.data a)

/-- References to a chunk that is there can be added. -/
theorem adds_bulkcopyStart (copies : Nat) {ref : Chunkref}
    (h : ∀ a ∈ ref.addrs, heap.chunks a ≠ none) :
    ∃ heap', heap.bulkcopyStart copies ref = .ok heap' ∧ Adds heap heap' copies ref.addrs := by
  cases ref with
  | small data =>
      refine ⟨heap, rfl, ?_, fun _ _ => rfl, fun _ => Iff.rfl, fun _ => rfl⟩
      intro a ha
      exact (Nat.mod_eq_of_lt ha).symm
  | chunk addr =>
      obtain ⟨chunk, hchunk⟩ := Option.ne_none_iff_exists'.mp (h addr (List.mem_singleton_self _))
      have hlocal := Local.set hchunk
        (some { chunk with refcount := (chunk.refcount + copies) % 2 ^ 32 })
      have hsome : (heap.set addr
          (some { chunk with refcount := (chunk.refcount + copies) % 2 ^ 32 })).chunks addr =
          some { chunk with refcount := (chunk.refcount + copies) % 2 ^ 32 } := by
        rw [set_chunks hchunk, if_pos rfl]
      refine ⟨_, by rw [bulkcopyStart, addref, getptr_some hchunk]; rfl, ?_, ?_, ?_, ?_⟩
      · intro a hlt
        by_cases ha : a = addr
        · rw [ha, count_some hsome, count_some hchunk, Chunkref.addrs, List.count_singleton_self,
            Nat.mul_one]
        · rw [hlocal.count_other ha, Chunkref.addrs, List.count_singleton,
            if_neg (by simpa using Ne.symm ha), Nat.mul_zero, Nat.add_zero, Nat.mod_eq_of_lt hlt]
      · intro a ha
        exact hlocal.other a (by simpa [Chunkref.addrs] using ha)
      · intro a
        by_cases ha : a = addr
        · rw [ha, hsome, hchunk]
          simp
        · rw [hlocal.other a ha]
      · intro a
        by_cases ha : a = addr
        · rw [ha, ChunkHeap.bytes, ChunkHeap.bytes, hsome, hchunk]
          rfl
        · exact hlocal.bytes_other ha

theorem adds_msg (copies : Nat) {msg : GridMsg} (h : ∀ a ∈ msg.addrs, heap.chunks a ≠ none) :
    ∃ heap', msg.bulkcopyStart copies heap = .ok heap' ∧ Adds heap heap' copies msg.addrs := by
  have hsphdr : ∀ a ∈ msg.sphdr.addrs, heap.chunks a ≠ none := fun a ha =>
    h a (List.mem_append_left _ (List.mem_append_left _ ha))
  obtain ⟨heap₁, h1, hadds₁⟩ := adds_bulkcopyStart copies hsphdr
  have hhdrs : ∀ a ∈ msg.hdrs.addrs, heap₁.chunks a ≠ none := fun a ha =>
    (not_congr (hadds₁.there a)).mpr (h a (List.mem_append_left _ (List.mem_append_right _ ha)))
  obtain ⟨heap₂, h2, hadds₂⟩ := adds_bulkcopyStart copies hhdrs
  have hbody : ∀ a ∈ msg.body.addrs, heap₂.chunks a ≠ none := fun a ha =>
    (not_congr ((hadds₁.trans hadds₂).there a)).mpr (h a (List.mem_append_right _ ha))
  obtain ⟨heap₃, h3, hadds₃⟩ := adds_bulkcopyStart copies hbody
  refine ⟨heap₃, ?_, (hadds₁.trans hadds₂).trans hadds₃⟩
  rw [GridMsg.bulkcopyStart, h1, ok_bind, h2, ok_bind, h3]

end ChunkHeap

namespace Protocols

open ChunkHeap

/-! ## Sending -/

/-- The distributor after a message was sent, the pipes that it was given to, and the memory. -/
structure Fanned where
  dist : Dist
  given : List Nat
  heap : ChunkHeap

namespace Dist

/-- The loop of `grid_dist_send` over the pipes that are left, where some of the pipes ask to be
released. -/
def sendCopies (release : Nat → Bool) (exclude : Option Nat) (msg : GridMsg) :
    List Nat → Nat → ChunkHeap → Except Abort Fanned
  | [], count, heap => .ok { dist := { count := count, pipes := [] }, given := [], heap := heap }
  | p :: rest, count, heap =>
      if exclude = some p then do
        let heap ← msg.term heap
        let r ← sendCopies release exclude msg rest count heap
        return { r with dist := { r.dist with pipes := p :: r.dist.pipes } }
      else if release p = true then do
        let r ← sendCopies release exclude msg rest (count - 1) heap
        return { r with given := p :: r.given }
      else do
        let r ← sendCopies release exclude msg rest count heap
        return { r with
          dist := { r.dist with pipes := p :: r.dist.pipes }
          given := p :: r.given }

/-- `grid_dist_send`, with the references of the message. -/
def sendMsg (release : Nat → Bool) (exclude : Option Nat) (self : Dist) (msg : GridMsg)
    (heap : ChunkHeap) : Except Abort Fanned :=
  if self.count = 0 then do
    let heap ← msg.term heap
    return { dist := self, given := [], heap := heap }
  else do
    let heap ← msg.bulkcopyStart self.count heap
    let r ← sendCopies release exclude msg self.pipes self.count heap
    let heap ← msg.term r.heap
    return { r with heap := heap }

variable {release : Nat → Bool} {exclude : Option Nat} {msg : GridMsg}

/-- The pipes and their number are those of the distributor of any pipes. -/
theorem sendTo_of_sendCopies {pipes : List Nat} :
    ∀ {count : Nat} {heap : ChunkHeap} {r : Fanned} (log : List Nat),
      sendCopies release exclude msg pipes count heap = .ok r →
        sendTo (fun log p => .ok (log ++ [p], release p)) exclude pipes count log =
          .ok (r.dist, log ++ r.given) := by
  induction pipes with
  | nil =>
      intro count heap r log h
      obtain rfl := Except.ok.inj h
      rw [sendTo, List.append_nil]
  | cons p rest ih =>
      intro count heap r log h
      rw [sendCopies] at h
      rw [sendTo]
      split at h
      · rename_i hex
        obtain ⟨heap₁, -, h⟩ := bind_eq_ok_iff.mp h
        obtain ⟨r₁, hrest, h⟩ := bind_eq_ok_iff.mp h
        obtain rfl := Except.ok.inj h
        rw [if_pos hex, ih log hrest]
        rfl
      · rename_i hex
        rw [if_neg hex, ok_bind]
        split at h
        · rename_i hrel
          obtain ⟨r₁, hrest, h⟩ := bind_eq_ok_iff.mp h
          obtain rfl := Except.ok.inj h
          rw [if_pos hrel, ih (log ++ [p]) hrest, List.append_assoc]
          rfl
        · rename_i hrel
          obtain ⟨r₁, hrest, h⟩ := bind_eq_ok_iff.mp h
          obtain rfl := Except.ok.inj h
          rw [if_neg hrel, ih (log ++ [p]) hrest, List.append_assoc]
          rfl

/-- The pipe is not left out. -/
def receives (exclude : Option Nat) (p : Nat) : Bool := decide (exclude ≠ some p)

/-- The pipe is still active after the message. -/
def stays (release : Nat → Bool) (exclude : Option Nat) (p : Nat) : Bool :=
  decide (exclude = some p ∨ release p = false)

/-- What the loop has done. -/
structure Looped (release : Nat → Bool) (exclude : Option Nat) (msg : GridMsg) (pipes : List Nat)
    (count : Nat) (heap : ChunkHeap) (r : Fanned) : Prop where
  given : r.given = pipes.filter (receives exclude)
  kept : r.dist.pipes = pipes.filter (stays release exclude)
  count : pipes.length ≤ count → r.dist.count + pipes.length = count + r.dist.pipes.length
  drops : ∃ n, Drops heap r.heap (List.replicate n msg.addrs).flatten ∧
    n + r.given.length = pipes.length

theorem sendCopies_spec {pipes : List Nat} :
    ∀ {count : Nat} {heap : ChunkHeap} {r : Fanned},
      sendCopies release exclude msg pipes count heap = .ok r →
        Looped release exclude msg pipes count heap r := by
  induction pipes with
  | nil =>
      intro count heap r h
      obtain rfl := Except.ok.inj h
      exact ⟨rfl, rfl, fun _ => rfl, 0, .refl heap, rfl⟩
  | cons p rest ih =>
      intro count heap r h
      rw [sendCopies] at h
      split at h
      · -- the copy for the pipe that is left out is released
        rename_i hex
        obtain ⟨heap₁, hterm, h⟩ := bind_eq_ok_iff.mp h
        obtain ⟨r₁, hrest, h⟩ := bind_eq_ok_iff.mp h
        obtain rfl := Except.ok.inj h
        have hloop := ih hrest
        obtain ⟨n, hdrops, hn⟩ := hloop.drops
        refine ⟨?_, ?_, ?_, n + 1, ?_, ?_⟩
        · rw [List.filter_cons_of_neg (by simp [receives, hex])]
          exact hloop.given
        · rw [List.filter_cons_of_pos (by simp [stays, hex]), ← hloop.kept]
        · intro hle
          have hcount := hloop.count (Nat.le_of_succ_le hle)
          simp only [List.length_cons] at hcount ⊢
          omega
        · rw [List.replicate_succ, List.flatten_cons]
          exact (Drops.msg hterm).trans hdrops
        · simp only [List.length_cons]
          omega
      · rename_i hex
        split at h
        · -- the pipe takes the copy and is released
          rename_i hrel
          obtain ⟨r₁, hrest, h⟩ := bind_eq_ok_iff.mp h
          obtain rfl := Except.ok.inj h
          have hloop := ih hrest
          obtain ⟨n, hdrops, hn⟩ := hloop.drops
          refine ⟨?_, ?_, ?_, n, hdrops, ?_⟩
          · rw [List.filter_cons_of_pos (by simp [receives, hex]), ← hloop.given]
          · rw [List.filter_cons_of_neg (by simp [stays, hex, hrel])]
            exact hloop.kept
          · intro hle
            have hcount := hloop.count (by simp only [List.length_cons] at hle; omega)
            simp only [List.length_cons] at hcount hle ⊢
            omega
          · simp only [List.length_cons]
            omega
        · -- the pipe takes the copy and stays
          rename_i hrel
          obtain ⟨r₁, hrest, h⟩ := bind_eq_ok_iff.mp h
          obtain rfl := Except.ok.inj h
          have hloop := ih hrest
          obtain ⟨n, hdrops, hn⟩ := hloop.drops
          refine ⟨?_, ?_, ?_, n, hdrops, ?_⟩
          · rw [List.filter_cons_of_pos (by simp [receives, hex]), ← hloop.given]
          · rw [List.filter_cons_of_pos (by simp [stays, hrel]), ← hloop.kept]
          · intro hle
            have hcount := hloop.count (Nat.le_of_succ_le hle)
            simp only [List.length_cons] at hcount ⊢
            omega
          · simp only [List.length_cons]
            omega

/-- As often as some addresses are repeated, each of them is in the list. -/
theorem count_repeated (n : Nat) (addrs : List Nat) (a : Nat) :
    ((List.replicate n addrs).flatten).count a = n * addrs.count a := by
  induction n with
  | zero => rw [List.replicate_zero, List.flatten_nil, List.count_nil, Nat.zero_mul]
  | succ n ih =>
      rw [List.replicate_succ, List.flatten_cons, List.count_append, ih, Nat.succ_mul,
        Nat.add_comm]

/-- The loop comes to its end as long as there are references to release. -/
theorem sendCopies_ok {pipes : List Nat} :
    ∀ {count : Nat} {heap : ChunkHeap},
      (∀ a, (pipes.filter fun p => decide (exclude = some p)).length * msg.addrs.count a ≤
        heap.count a) →
        ∃ r, sendCopies release exclude msg pipes count heap = .ok r := by
  induction pipes with
  | nil =>
      intro count heap _
      exact ⟨_, rfl⟩
  | cons p rest ih =>
      intro count heap h
      rw [sendCopies]
      by_cases hex : exclude = some p
      · rw [List.filter_cons_of_pos (by simpa using hex)] at h
        simp only [List.length_cons, Nat.succ_mul] at h
        obtain ⟨heap₁, hterm⟩ := GridMsg.term_of_counted
          fun a => (Nat.le_add_left _ _).trans (h a)
        have hcount := (Drops.msg hterm).count
        obtain ⟨r, hr⟩ := @ih count heap₁ (by
          intro a
          have hle := h a
          rw [hcount a]
          omega)
        exact ⟨_, by rw [if_pos hex, hterm, ok_bind, hr]; rfl⟩
      · rw [List.filter_cons_of_neg (by simpa using hex)] at h
        rw [if_neg hex]
        by_cases hrel : release p = true
        · obtain ⟨r, hr⟩ := @ih (count - 1) heap h
          exact ⟨_, by rw [if_pos hrel, hr]; rfl⟩
        · obtain ⟨r, hr⟩ := @ih count heap h
          exact ⟨_, by rw [if_neg hrel, hr]; rfl⟩

/-! ## What a send comes to -/

/-- The active pipes of a distributor are different ones, and counted in 32 bits. -/
structure Sound (dist : Dist) : Prop where
  count : dist.count = dist.pipes.length
  nodup : dist.pipes.Nodup
  range : dist.count < 2 ^ 32

theorem sound_init : Sound {} := ⟨rfl, List.nodup_nil, by decide⟩

theorem Sound.rm {dist : Dist} (h : dist.Sound) (p : Nat) : (dist.rm p).Sound := by
  obtain ⟨hcount, hnodup, -⟩ := rm_count h.count h.nodup p
  refine ⟨hcount, hnodup, Nat.lt_of_le_of_lt ?_ h.range⟩
  unfold Dist.rm
  split
  · exact Nat.sub_le _ _
  · exact Nat.le_refl _

theorem Sound.out {dist dist' : Dist} (h : dist.Sound) {p : Nat} (hout : dist.out p = .ok dist')
    (hfew : dist.count + 1 < 2 ^ 32) : dist'.Sound := by
  obtain ⟨_, hassert, hret⟩ := bind_eq_ok_iff.mp hout
  have hp : p ∉ dist.pipes := gridAssert_eq_ok_iff.mp hassert
  obtain rfl := Except.ok.inj hret
  refine ⟨?_, ?_, hfew⟩
  · rw [List.length_append, List.length_singleton, h.count]
  · refine h.nodup.append (List.nodup_singleton p) ?_
    intro q hq hqp
    exact hp (List.mem_singleton.mp hqp ▸ hq)

/-- What a send has to do: the message is given once to each active pipe that is not left out,
the pipes that asked to be released are not active any more and the others are, and the copies
that were given are all the references that the message has left. -/
structure FansOut (release : Nat → Bool) (exclude : Option Nat) (dist : Dist) (msg : GridMsg)
    (heap : ChunkHeap) (r : Fanned) : Prop where
  given : r.given = dist.pipes.filter (receives exclude)
  once : r.given.Nodup
  kept : r.dist.pipes = dist.pipes.filter (stays release exclude)
  count : r.dist.count = r.dist.pipes.length
  refs : ∀ a, r.heap.count a + msg.addrs.count a =
    heap.count a + r.given.length * msg.addrs.count a
  data : ∀ a, r.heap.chunks a ≠ none → r.heap.bytes (.chunk a) = heap.bytes (.chunk a)
  other : ∀ a, a ∉ msg.addrs → r.heap.chunks a = heap.chunks a

/-- A send comes to its end and does so. -/
def Fans (release : Nat → Bool) (exclude : Option Nat) (dist : Dist) (msg : GridMsg)
    (heap : ChunkHeap) : Prop :=
  ∃ r, dist.sendMsg release exclude msg heap = .ok r ∧
    FansOut release exclude dist msg heap r

variable {self : Dist} {heap heap' : ChunkHeap}

/-- After a send the distributor is as sound as before. -/
theorem FansOut.sound {r : Fanned} (h : FansOut release exclude self msg heap r)
    (hs : self.Sound) : r.dist.Sound := by
  refine ⟨h.count, ?_, ?_⟩
  · rw [h.kept]
    exact hs.nodup.filter _
  · rw [h.count, h.kept]
    exact Nat.lt_of_le_of_lt (List.length_filter_le _ _) (hs.count ▸ hs.range)

/-- Where nobody is ready, the message is released. -/
theorem fans_nobody (hs : self.Sound) (hzero : self.count = 0)
    (hcounted : ∀ a, msg.addrs.count a ≤ heap.count a) : Fans release exclude self msg heap := by
  have hnil : self.pipes = [] := List.length_eq_zero_iff.mp (hs.count.symm.trans hzero)
  obtain ⟨heap', hterm⟩ := GridMsg.term_of_counted hcounted
  have hdrops := Drops.msg hterm
  refine ⟨{ dist := self, given := [], heap := heap' }, ?_, ?_, List.nodup_nil, ?_, hs.count, ?_,
    fun a ha => (hdrops.data a ha).2, hdrops.other⟩
  · rw [sendMsg, if_pos hzero, hterm]
    rfl
  · rw [hnil, List.filter_nil]
  · rw [hnil, List.filter_nil]
  · intro a
    rw [hdrops.count a, Nat.sub_add_cancel (hcounted a), List.length_nil, Nat.zero_mul,
      Nat.add_zero]

/-- Where somebody is ready, each pipe gets a copy. -/
theorem fans_somebody (hs : self.Sound) (hsome : self.count ≠ 0)
    (hcounted : ∀ a, msg.addrs.count a ≤ heap.count a)
    (hfew : ∀ a, heap.count a + self.count * msg.addrs.count a < 2 ^ 32) :
    Fans release exclude self msg heap := by
  have hthere : ∀ a ∈ msg.addrs, heap.chunks a ≠ none := by
    intro a ha hnone
    have hpos := Nat.lt_of_lt_of_le (List.count_pos_iff.mpr ha) (hcounted a)
    exact absurd hpos (by simp [ChunkHeap.count, hnone])
  obtain ⟨heap₁, hstart, hadds⟩ := adds_msg self.count hthere
  have hbulk : ∀ a, heap₁.count a = heap.count a + self.count * msg.addrs.count a := fun a =>
    (hadds.count a (Nat.lt_of_le_of_lt (Nat.le_add_right _ _) (hfew a))).trans
      (Nat.mod_eq_of_lt (hfew a))
  have hexcluded : ∀ a, (self.pipes.filter fun p => decide (exclude = some p)).length *
      msg.addrs.count a ≤ heap₁.count a := by
    intro a
    have hle : (self.pipes.filter fun p => decide (exclude = some p)).length ≤ self.count := by
      rw [hs.count]
      exact List.length_filter_le _ _
    have hmul := Nat.mul_le_mul_right (msg.addrs.count a) hle
    have hc := hbulk a
    omega
  obtain ⟨r₁, hloop⟩ := @sendCopies_ok release exclude msg self.pipes self.count heap₁ hexcluded
  have hspec := sendCopies_spec hloop
  obtain ⟨n, hdrops, hn⟩ := hspec.drops
  have hafter : ∀ a, r₁.heap.count a = heap.count a + r₁.given.length * msg.addrs.count a := by
    intro a
    rw [hdrops.count a, count_repeated, hbulk a, hs.count, ← hn, Nat.add_mul]
    omega
  obtain ⟨heap₂, hterm⟩ := @GridMsg.term_of_counted msg r₁.heap fun a => by
    rw [hafter a]
    exact (hcounted a).trans (Nat.le_add_right _ _)
  have hlast := Drops.msg hterm
  have hall := hdrops.trans hlast
  refine ⟨{ r₁ with heap := heap₂ }, ?_, hspec.given, ?_, hspec.kept, ?_, ?_, ?_, ?_⟩
  · rw [sendMsg, if_neg hsome, hstart, ok_bind, hloop, ok_bind, hterm]
    rfl
  · rw [hspec.given]
    exact hs.nodup.filter _
  · have hcount := hspec.count (Nat.le_of_eq hs.count.symm)
    rw [← hs.count] at hcount
    change r₁.dist.count = r₁.dist.pipes.length
    omega
  · intro a
    change heap₂.count a + _ = heap.count a + r₁.given.length * _
    rw [hlast.count a, hafter a]
    have hle := hcounted a
    omega
  · intro a ha
    exact ((hall.data a ha).2).trans (hadds.data a)
  · intro a ha
    have hnot : a ∉ (List.replicate n msg.addrs).flatten ++ msg.addrs := by
      intro hmem
      rcases List.mem_append.mp hmem with hrep | hmsg
      · obtain ⟨l, hl, hal⟩ := List.mem_flatten.mp hrep
        exact ha (List.eq_of_mem_replicate hl ▸ hal)
      · exact ha hmsg
    exact (hall.other a hnot).trans (hadds.other a ha)

/-- Whichever pipe is left out and whichever ask to be released, a send does what it has to,
and leaves a distributor as sound as before.  The references of the message are counted in the
memory, and their number has room in 32 bits. -/
theorem fans_every (hs : self.Sound) (hcounted : ∀ a, msg.addrs.count a ≤ heap.count a)
    (hfew : ∀ a, heap.count a + self.count * msg.addrs.count a < 2 ^ 32) :
    Fans release exclude self msg heap ∧
      ∀ r, FansOut release exclude self msg heap r → r.dist.Sound := by
  refine ⟨?_, fun r hout => hout.sound hs⟩
  by_cases hzero : self.count = 0
  · exact fans_nobody hs hzero hcounted
  · exact fans_somebody hs hzero hcounted hfew

/-- A chunk to which this message has the only reference. -/
def oneChunk : ChunkHeap where
  chunks a := if a = 1 then some { refcount := 1, data := [], fits := by decide } else none
  next := 2
  fresh a ha := if_neg (by omega)

theorem count_oneChunk (a : Nat) :
    oneChunk.count a = ({ body := .chunk 1 } : GridMsg).addrs.count a := by
  by_cases ha : a = 1
  · simp [ChunkHeap.count, oneChunk, ha, GridMsg.addrs, Chunkref.addrs]
  · simp [ChunkHeap.count, oneChunk, ha, GridMsg.addrs, Chunkref.addrs, Ne.symm ha]

/-- Three pipes are ready, the second of them is left out and the third asks to be released. -/
def threePipes : Dist := { count := 3, pipes := [10, 20, 30] }

theorem fans_every_threePipes :
    ∃ r, threePipes.sendMsg (fun p => p == 30) (some 20) { body := .chunk 1 } oneChunk = .ok r ∧
      r.given = [10, 30] ∧ r.dist.pipes = [10, 20] ∧ r.dist.count = 2 ∧ r.heap.count 1 = 2 ∧
        r.dist.Sound := by
  have hcount : ∀ a, oneChunk.count a ≤ 1 := fun a => by
    rw [count_oneChunk]
    exact List.nodup_iff_count_le_one.mp (by decide) a
  obtain ⟨⟨r, hsend, hout⟩, hsound⟩ := @fans_every (fun p => p == 30) (some 20)
    { body := .chunk 1 } threePipes oneChunk ⟨rfl, by decide, by decide⟩
    (fun a => Nat.le_of_eq (count_oneChunk a).symm)
    (fun a => by
      have hle := hcount a
      have hthree : threePipes.count = 3 := rfl
      rw [← count_oneChunk, hthree]
      omega)
  have hgiven : r.given = [10, 30] := hout.given
  have hkept : r.dist.pipes = [10, 20] := hout.kept
  refine ⟨r, hsend, hgiven, hkept, by rw [hout.count, hkept]; rfl, ?_, hsound r hout⟩
  have hrefs := hout.refs 1
  have hone : ({ body := .chunk 1 } : GridMsg).addrs.count 1 = 1 := by decide
  rw [hgiven, ← count_oneChunk] at hrefs
  rw [count_oneChunk, hone] at hrefs
  simp only [List.length_cons, List.length_nil] at hrefs
  omega

end Dist

end Protocols

end GridMq
