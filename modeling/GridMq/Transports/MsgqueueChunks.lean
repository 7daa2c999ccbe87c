import GridMq.Library.Transition
import GridMq.Transports.Msgqueue
import Mathlib.Data.Fintype.EquivFin
import Mathlib.Data.List.Chain
import Mathlib.Data.List.Nodup

set_option autoImplicit false

/-!
# The chunks of a message queue (`src/transports/inproc/msgqueue.c`)

The same queue with its memory: the chunks lie at addresses, each leads to the next one, and
one that is empty may be kept for later, with a link that means nothing any more.  Where the
allocator puts a new chunk is up to it.
-/

namespace GridMq.Transports

open GridMq.Library Msgqueue

/-- `struct grid_msgqueue_chunk`. -/
structure QueueChunk where
  msgs : MsgqueueChunk
  next : Option Nat

/-- `struct grid_msgqueue`, with the chunks that are allocated. -/
structure QueueMem where
  chunks : Nat → Option QueueChunk
  outChunk : Option Nat
  outPos : Nat := 0
  inChunk : Option Nat
  inPos : Nat := 0
  count : Nat := 0
  mem : Nat := 0
  maxmem : Nat
  cache : Option Nat := none

namespace QueueMem

/-- A chunk changes, appears or goes. -/
def set (self : QueueMem) (a : Nat) (c : Option QueueChunk) : QueueMem :=
  { self with chunks := fun b => if b = a then c else self.chunks b }

/-- The chunk that a pointer leads to. -/
def deref (self : QueueMem) (p : Option Nat) : Except Abort (Nat × QueueChunk) :=
  match p with
  | none => .error .nullPointer
  | some a =>
      match self.chunks a with
      | none => .error .nullPointer
      | some c => .ok (a, c)

/-- `grid_free`, of a chunk that is allocated. -/
def free (self : QueueMem) (p : Option Nat) : Except Abort QueueMem := do
  let c ← self.deref p
  return self.set c.1 none

/-- A chunk of the allocator.  No place of it is read before it is written. -/
def newChunk : QueueChunk := { msgs := fun _ => {}, next := none }

/-- `grid_msgqueue_init`. -/
def init (a maxmem : Nat) : QueueMem where
  chunks b := if b = a then some newChunk else none
  outChunk := some a
  inChunk := some a
  maxmem := maxmem

/-- `grid_chunkref_size` of the header and of the body. -/
def sizeOf (msg : Msg) : Nat := (msg.sphdr.length + msg.body.length) % 2 ^ 64

/-- The cached chunk, or a new one at the address `a`. -/
def fill (self : QueueMem) (a : Nat) : QueueMem :=
  match self.cache with
  | some _ => self
  | none => { self.set a (some newChunk) with cache := some a }

/-- What `grid_msgqueue_send` does when the last chunk is full: another one follows it. -/
def advance (self : QueueMem) (a : Nat) : Except Abort QueueMem := do
  let self := self.fill a
  let out ← self.deref self.outChunk
  let new := self.cache
  let self := self.set out.1 (some { out.2 with next := new })
  return { self with outChunk := new, cache := none, outPos := 0 }

/-- `grid_msgqueue_send`, or `none` for `-EAGAIN`; a new chunk is at the address `a`. -/
def send (self : QueueMem) (a : Nat) (msg : Msg) : Except Abort (Option QueueMem) :=
  let msgsz := sizeOf msg
  if self.count > 0 ∧ (self.mem + msgsz) % 2 ^ 64 ≥ self.maxmem then .ok none
  else do
    let out ← self.deref self.outChunk
    let written : QueueChunk :=
      { out.2 with msgs := fun i => if i = self.outPos then msg else out.2.msgs i }
    let self := { self.set out.1 (some written) with
      -- a message has memory of its own, so that they are never too many to be counted
      count := self.count + 1
      mem := (self.mem + msgsz) % 2 ^ 64
      outPos := self.outPos + 1 }
    if self.outPos = msgqueueGranularity then do
      let self ← self.advance a
      return some self
    else return some self

/-- What `grid_msgqueue_recv` does with the chunk `o` that was read to its end: it is kept for
later, or freed when one is kept already. -/
def leave (self : QueueMem) (o : Nat × QueueChunk) : Except Abort QueueMem :=
  match self.cache with
  | none => .ok { self with inChunk := o.2.next, inPos := 0, cache := some o.1 }
  | some _ => ({ self with inChunk := o.2.next, inPos := 0 } : QueueMem).free (some o.1)

/-- `grid_msgqueue_recv`, or `none` for `-EAGAIN`. -/
def recv (self : QueueMem) : Except Abort (Option (Msg × QueueMem)) :=
  if self.count = 0 then .ok none
  else do
    let o ← self.deref self.inChunk
    let msg := o.2.msgs self.inPos
    let self := { self with inPos := self.inPos + 1 }
    let self ← if self.inPos = msgqueueGranularity then self.leave o else pure self
    return some (msg, { self with
      count := self.count - 1
      mem := (self.mem + 2 ^ 64 - sizeOf msg) % 2 ^ 64 })

/-- The loop of `grid_msgqueue_term`, with a bound on its turns. -/
def drain : Nat → QueueMem → Except Abort QueueMem
  | 0, _ => .error .assertion
  | n + 1, self => do
      match ← self.recv with
      | none => return self
      | some (_, self) => drain n self

/-- `grid_msgqueue_term`. -/
def term (fuel : Nat) (self : QueueMem) : Except Abort QueueMem := do
  let self ← drain fuel self
  gridAssert (self.inChunk = self.outChunk)
  let self ← self.free self.inChunk
  match self.cache with
  | none => return self
  | some a => self.free (some a)

end QueueMem

/-! ## Runs -/

/-- A call, with what it returns. -/
inductive QueueOp where
  | send (a : Nat) (msg : Msg) (taken : Bool)
  | recv (r : Option Msg)

/-- Calls on a queue from its beginning on.  The bytes of a message are in memory, of which a
process has less than half of what 64 bits can address. -/
def queueSystem (maxmem : Nat) : System QueueMem QueueOp where
  init q := ∃ a, q = QueueMem.init a maxmem
  step q l q' :=
    match l with
    | .send a msg taken => q.chunks a = none ∧ msgSize msg < 2 ^ 63 ∧
        ∃ r, q.send a msg = .ok r ∧ taken = r.isSome ∧ q' = r.getD q
    | .recv msg => ∃ r, q.recv = .ok r ∧ msg = r.map Prod.fst ∧ q' = (r.map Prod.snd).getD q

/-- A bounded queue of messages: it takes a message if it is empty or if the sizes stay below
the bound, and gives them out in order. -/
def fifo (maxmem : Nat) : System (List Msg) QueueOp where
  init queue := queue = []
  step queue l queue' :=
    match l with
    | .send _ msg taken =>
        taken = decide ¬(queue ≠ [] ∧ sizes queue + msgSize msg ≥ maxmem) ∧
          queue' = if taken = true then queue ++ [msg] else queue
    | .recv msg => msg = queue.head? ∧ queue' = queue.tail

/-! ## The chunks in use -/

/-- One chunk leads to another. -/
def LeadsTo (chunks : Nat → Option QueueChunk) (a b : Nat) : Prop :=
  ∃ c, chunks a = some c ∧ c.next = some b

/-- The chunks in use are different ones that lead from the one that is read to the one that is
written; none of them is the cached one, and no others are allocated. -/
structure QueueMem.Intact (q : QueueMem) (before : List Nat) (out : Nat) : Prop where
  first : q.inChunk = (before ++ [out]).head?
  last : q.outChunk = some out
  linked : (before ++ [out]).IsChain (LeadsTo q.chunks)
  nodup : (before ++ [out]).Nodup
  spare : ∀ a, q.cache = some a → a ∉ before ++ [out]
  used : ∀ a, q.chunks a ≠ none ↔ a ∈ before ++ [out] ∨ q.cache = some a

/-- The messages of a chunk. -/
def QueueMem.msgsAt (q : QueueMem) (a : Nat) : Option MsgqueueChunk :=
  (q.chunks a).map QueueChunk.msgs

/-- The queue without its memory is that of the list of its chunks. -/
structure Rep (q : QueueMem) (m : Msgqueue) (before : List Nat) (out : Nat) : Prop where
  intact : q.Intact before out
  chunks : (before ++ [out]).map q.msgsAt = m.chunks.map some
  cache : m.cache = q.cache.bind q.msgsAt
  outPos : q.outPos = m.outPos
  inPos : q.inPos = m.inPos
  count : q.count = m.count
  mem : q.mem = m.mem
  maxmem : q.maxmem = m.maxmem

variable {q q' : QueueMem} {m m' : Msgqueue} {before : List Nat} {out a : Nat} {msg : Msg}
  {maxmem : Nat}

namespace QueueMem

@[simp] theorem set_chunks (q : QueueMem) (a b : Nat) (c : Option QueueChunk) :
    (q.set a c).chunks b = if b = a then c else q.chunks b := rfl

@[simp] theorem set_cache (q : QueueMem) (a : Nat) (c : Option QueueChunk) :
    (q.set a c).cache = q.cache := rfl

theorem deref_some {c : QueueChunk} (h : q.chunks a = some c) :
    q.deref (some a) = .ok (a, c) := by
  rw [deref]
  simp only [h]

/-- A pointer into the chunks in use leads to one. -/
theorem Intact.there (h : q.Intact before out) (ha : a ∈ before ++ [out]) :
    ∃ c, q.chunks a = some c :=
  Option.ne_none_iff_exists'.mp ((h.used a).mpr (Or.inl ha))

end QueueMem

/-- Links depend on nothing but the chunks that they come from. -/
theorem chain_same {chunks chunks' : Nat → Option QueueChunk} {before : List Nat} {out : Nat}
    (hsame : ∀ a ∈ before, chunks' a = chunks a)
    (h : (before ++ [out]).IsChain (LeadsTo chunks)) :
    (before ++ [out]).IsChain (LeadsTo chunks') := by
  induction before with
  | nil => exact List.isChain_singleton out
  | cons a before ih =>
      have hfirst : ∀ b, LeadsTo chunks a b → LeadsTo chunks' a b := by
        rintro b ⟨c, hc, hnext⟩
        exact ⟨c, (hsame a (List.mem_cons_self ..)).trans hc, hnext⟩
      have hrest : ∀ b ∈ before, chunks' b = chunks b := fun b hb =>
        hsame b (List.mem_cons_of_mem a hb)
      cases before with
      | nil =>
          obtain ⟨hlink, -⟩ := List.isChain_cons_cons.mp h
          exact List.isChain_cons_cons.mpr ⟨hfirst _ hlink, List.isChain_singleton out⟩
      | cons b before =>
          obtain ⟨hlink, htail⟩ := List.isChain_cons_cons.mp h
          exact List.isChain_cons_cons.mpr ⟨hfirst _ hlink, ih hrest htail⟩

/-- A link behind the last chunk makes a longer chain. -/
theorem chain_snoc {chunks : Nat → Option QueueChunk} {before : List Nat} {out new : Nat}
    (h : (before ++ [out]).IsChain (LeadsTo chunks)) (hlink : LeadsTo chunks out new) :
    ((before ++ [out]) ++ [new]).IsChain (LeadsTo chunks) := by
  refine List.isChain_append.mpr ⟨h, List.isChain_singleton new, ?_⟩
  intro x hx y hy
  rw [List.getLast?_concat] at hx
  obtain rfl := Option.some.inj hx
  obtain rfl := Option.some.inj hy
  exact hlink

theorem writeLast_concat (pos : Nat) (msg : Msg) (cs : List MsgqueueChunk) (c : MsgqueueChunk) :
    writeLast pos msg (cs ++ [c]) = cs ++ [fun i => if i = pos then msg else c i] := by
  induction cs with
  | nil => rfl
  | cons d cs ih =>
      cases cs with
      | nil => rfl
      | cons e cs => exact congrArg (d :: ·) ih

/-! ## Sending -/

/-- The chunk that is written, in the list of chunks. -/
theorem Rep.last (h : Rep q m before out) : ∃ c cs, q.chunks out = some c ∧
    m.chunks = cs ++ [c.msgs] ∧ before.map q.msgsAt = cs.map some := by
  obtain ⟨c, hc⟩ := h.intact.there (List.mem_append_right before (List.mem_singleton_self out))
  have hchunks := h.chunks
  rw [List.map_append, eq_comm, List.map_eq_append_iff] at hchunks
  obtain ⟨cs, last, hsplit, hcs, hlast⟩ := hchunks
  have hmsgs : q.msgsAt out = some c.msgs := by rw [QueueMem.msgsAt, hc, Option.map_some]
  rw [List.map_cons, List.map_nil, hmsgs] at hlast
  obtain ⟨d, rest, rfl, hd, hrest⟩ := List.map_eq_cons_iff.mp hlast
  obtain rfl := Option.some.inj hd
  obtain rfl := List.map_eq_nil_iff.mp hrest
  exact ⟨c, cs, hc, hsplit, hcs.symm⟩

/-- What changes in one chunk in use is seen in no other one. -/
theorem msgsAt_set {c : Option QueueChunk} {addrs : List Nat} (h : a ∉ addrs) :
    addrs.map (q.set a c).msgsAt = addrs.map q.msgsAt := by
  refine List.map_congr_left fun b hb => ?_
  have hne : b ≠ a := fun heq => h (heq ▸ hb)
  rw [QueueMem.msgsAt, QueueMem.msgsAt, QueueMem.set_chunks, if_neg hne]

/-- The chunks in use stay so when one of them is written. -/
theorem QueueMem.Intact.write (h : q.Intact before out) {c : QueueChunk} (c' : QueueChunk)
    (hout : q.chunks out = some c) : (q.set out (some c')).Intact before out where
  first := h.first
  last := h.last
  linked := by
    refine chain_same (fun a ha => ?_) h.linked
    have hne : a ≠ out := by
      rintro rfl
      exact (List.nodup_append.mp h.nodup).2.2 a ha a (List.mem_singleton_self a) rfl
    rw [set_chunks, if_neg hne]
  nodup := h.nodup
  spare := h.spare
  used a := by
    rw [set_cache, ← h.used a, set_chunks]
    by_cases ha : a = out
    · rw [if_pos ha, ha, hout]
      simp
    · rw [if_neg ha]

/-- The last chunk is full, and the next one is linked behind it. -/
theorem QueueMem.Intact.extend (h : q.Intact before out) {c : QueueChunk} {new : Nat}
    (hout : q.chunks out = some c) (hcache : q.cache = some new) :
    ({ q.set out (some { c with next := some new }) with
      outChunk := some new, cache := none, outPos := 0 } : QueueMem).Intact (before ++ [out])
        new := by
  have hwrite := h.write { c with next := some new } hout
  have hlink : LeadsTo (q.set out (some { c with next := some new })).chunks out new :=
    ⟨{ c with next := some new }, by rw [set_chunks, if_pos rfl], rfl⟩
  have hnew := h.spare new hcache
  refine ⟨?_, rfl, chain_snoc hwrite.linked hlink, ?_, by simp, ?_⟩
  · change q.inChunk = _
    rw [h.first]
    cases before with
    | nil => rfl
    | cons a before => rfl
  · refine h.nodup.append (List.nodup_singleton new) ?_
    intro a ha hnew'
    exact hnew (List.mem_singleton.mp hnew' ▸ ha)
  · intro a
    rw [hwrite.used a, List.mem_append, List.mem_singleton]
    change _ ∨ q.cache = some a ↔ _ ∨ none = some a
    rw [hcache, Option.some.injEq, eq_comm (a := new)]
    simp [or_assoc]

/-- A chunk is there to go on with, and it was not in use. -/
theorem QueueMem.Intact.fill (h : q.Intact before out) (ha : q.chunks a = none) :
    (q.fill a).Intact before out ∧ (∃ new, (q.fill a).cache = some new) ∧
      (∀ b ∈ before ++ [out], (q.fill a).chunks b = q.chunks b) ∧
      ∀ new, (q.fill a).cache = some new →
        (q.fill a).msgsAt new = some ((q.cache.bind q.msgsAt).getD fun _ => {}) := by
  have hnot : a ∉ before ++ [out] := by
    intro hmem
    obtain ⟨c, hc⟩ := h.there hmem
    exact absurd (ha.symm.trans hc) (by simp)
  unfold QueueMem.fill
  cases hcache : q.cache with
  | some k =>
      obtain ⟨c, hc⟩ := Option.ne_none_iff_exists'.mp ((h.used k).mpr (Or.inr hcache))
      refine ⟨h, ⟨k, hcache⟩, fun _ _ => rfl, ?_⟩
      intro new hnew
      obtain rfl := Option.some.inj (hcache.symm.trans hnew)
      rw [msgsAt, hc]
      simp [msgsAt, hc]
  | none =>
      have hsame : ∀ b ∈ before ++ [out], (q.set a (some newChunk)).chunks b = q.chunks b := by
        intro b hb
        rw [set_chunks, if_neg]
        rintro rfl
        exact hnot hb
      refine ⟨⟨h.first, h.last, ?_, h.nodup, ?_, ?_⟩, ⟨a, rfl⟩, hsame, ?_⟩
      · exact chain_same (fun b hb => hsame b (List.mem_append_left _ hb)) h.linked
      · intro b hb
        obtain rfl := Option.some.inj hb
        exact hnot
      · intro b
        change (if b = a then some newChunk else q.chunks b) ≠ none ↔ _ ∨ some a = some b
        by_cases hb : b = a
        · rw [if_pos hb, hb]
          simp
        · rw [if_neg hb, h.used b, hcache, Option.some.injEq, eq_comm (a := a)]
          simp [hb]
      · intro new hnew
        obtain rfl := Option.some.inj hnew
        change (if a = a then some newChunk else q.chunks a).map QueueChunk.msgs = _
        rw [if_pos rfl]
        rfl

/-- A message is written to the last chunk. -/
theorem Rep.write (h : Rep q m before out) (msg : Msg) : ∃ c, q.chunks out = some c ∧
    Rep { q.set out (some { c with msgs := fun i => if i = q.outPos then msg else c.msgs i }) with
        count := q.count + 1
        mem := q.mem + msgSize msg
        outPos := q.outPos + 1 }
      { m with
        count := m.count + 1
        mem := m.mem + msgSize msg
        chunks := writeLast m.outPos msg m.chunks
        outPos := m.outPos + 1 } before out := by
  obtain ⟨c, cs, hc, hsplit, hbefore⟩ := h.last
  have hwrite := h.intact.write
    { c with msgs := fun i => if i = q.outPos then msg else c.msgs i } hc
  have hnot : out ∉ before := by
    intro hmem
    exact (List.nodup_append.mp h.intact.nodup).2.2 out hmem out (List.mem_singleton_self out) rfl
  refine ⟨c, hc, ?_⟩
  refine ⟨⟨hwrite.first, hwrite.last, hwrite.linked, hwrite.nodup, hwrite.spare, hwrite.used⟩,
    ?_, ?_, congrArg (· + 1) h.outPos, h.inPos, congrArg (· + 1) h.count,
    congrArg (· + msgSize msg) h.mem, h.maxmem⟩
  · change (before ++ [out]).map (q.set out _).msgsAt = (writeLast m.outPos msg m.chunks).map some
    rw [hsplit, writeLast_concat, List.map_append, List.map_append, msgsAt_set hnot, hbefore,
      ← h.outPos]
    simp [QueueMem.msgsAt]
  · change m.cache = q.cache.bind (q.set out _).msgsAt
    rw [h.cache]
    cases hcache : q.cache with
    | none => rfl
    | some k =>
        have hne : k ≠ out := by
          rintro rfl
          exact h.intact.spare k hcache (List.mem_append_right _ (List.mem_singleton_self k))
        simp [QueueMem.msgsAt, hne]

/-- The next chunk is linked behind the last one. -/
theorem Rep.advance (h : Rep q m before out) (ha : q.chunks a = none) :
    ∃ q' new, q.advance a = .ok q' ∧ Rep q'
      { m with
        chunks := m.chunks ++ [m.cache.getD fun _ => {}]
        cache := none
        outPos := 0 } (before ++ [out]) new := by
  obtain ⟨hfilled, ⟨new, hnew⟩, hsame, hmsgs⟩ := h.intact.fill ha
  have hin : out ∈ before ++ [out] := List.mem_append_right before (List.mem_singleton_self out)
  obtain ⟨c, hc⟩ := hfilled.there hin
  have hne : new ≠ out := by
    rintro rfl
    exact hfilled.spare new hnew hin
  have hresult : q.advance a = .ok
      { (q.fill a).set out (some { c with next := some new }) with
        outChunk := some new, cache := none, outPos := 0 } := by
    rw [QueueMem.advance, hfilled.last, QueueMem.deref_some hc, ok_bind, hnew]
    rfl
  refine ⟨_, new, hresult, hfilled.extend hc hnew, ?_, rfl, rfl, ?_, ?_, ?_, ?_⟩
  · have hold : ∀ b ∈ before ++ [out],
        ((q.fill a).set out (some { c with next := some new })).msgsAt b = q.msgsAt b := by
      intro b hb
      rw [QueueMem.msgsAt, QueueMem.msgsAt, QueueMem.set_chunks, ← hsame b hb]
      by_cases hbo : b = out
      · rw [if_pos hbo, hbo, hc]
        rfl
      · rw [if_neg hbo]
    have hlast : ((q.fill a).set out (some { c with next := some new })).msgsAt new =
        some (m.cache.getD fun _ => {}) := by
      rw [h.cache, ← hmsgs new hnew, QueueMem.msgsAt, QueueMem.msgsAt, QueueMem.set_chunks,
        if_neg hne]
    change ((before ++ [out]) ++ [new]).map
      ((q.fill a).set out (some { c with next := some new })).msgsAt = _
    rw [List.map_append, List.map_congr_left hold, h.chunks, List.map_cons, hlast, List.map_append]
    rfl
  · change (q.fill a).inPos = m.inPos
    rw [← h.inPos, QueueMem.fill]
    split <;> rfl
  · change (q.fill a).count = m.count
    rw [← h.count, QueueMem.fill]
    split <;> rfl
  · change (q.fill a).mem = m.mem
    rw [← h.mem, QueueMem.fill]
    split <;> rfl
  · change (q.fill a).maxmem = m.maxmem
    rw [← h.maxmem, QueueMem.fill]
    split <;> rfl

/-- What a send does is what it does to the list of chunks. -/
theorem Rep.send (h : Rep q m before out) (ha : q.chunks a = none) (hsmall : m.mem < 2 ^ 63)
    (hmsg : msgSize msg < 2 ^ 63) :
    (q.send a msg = .ok none ∧ m.send msg = none) ∨
      ∃ q' m' before' out', q.send a msg = .ok (some q') ∧ m.send msg = some m' ∧
        Rep q' m' before' out' := by
  have hsize : QueueMem.sizeOf msg = msgSize msg := Nat.mod_eq_of_lt (Nat.lt_trans hmsg (by decide))
  have hsum : (q.mem + msgSize msg) % 2 ^ 64 = q.mem + msgSize msg := by
    rw [h.mem]
    exact Nat.mod_eq_of_lt (by omega)
  have hfull : (q.count > 0 ∧ (q.mem + QueueMem.sizeOf msg) % 2 ^ 64 ≥ q.maxmem) ↔
      (m.count > 0 ∧ m.mem + msgSize msg ≥ m.maxmem) := by
    rw [hsize, hsum, h.count, h.mem, h.maxmem]
  by_cases hrefused : m.count > 0 ∧ m.mem + msgSize msg ≥ m.maxmem
  · refine Or.inl ⟨?_, ?_⟩
    · rw [QueueMem.send, if_pos (hfull.mpr hrefused)]
    · rw [Msgqueue.send, if_pos hrefused]
  · have hmem : (q.mem + QueueMem.sizeOf msg) % 2 ^ 64 = q.mem + msgSize msg := by
      rw [hsize, hsum]
    obtain ⟨c, hc, hwritten⟩ := h.write msg
    have hfree : (q.set out (some { c with
        msgs := fun i => if i = q.outPos then msg else c.msgs i })).chunks a = none := by
      have hne : a ≠ out := by
        rintro rfl
        exact absurd (ha.symm.trans hc) (by simp)
      rw [QueueMem.set_chunks, if_neg hne, ha]
    rw [QueueMem.send, if_neg (fun hq => hrefused (hfull.mp hq)), Msgqueue.send,
      if_neg hrefused, hmem, h.intact.last, QueueMem.deref_some hc, ok_bind]
    simp only
    refine Or.inr ?_
    by_cases hlast : q.outPos + 1 = msgqueueGranularity
    · have hlast' : m.outPos + 1 = msgqueueGranularity := h.outPos ▸ hlast
      obtain ⟨q', new, hadvance, hextended⟩ := hwritten.advance hfree
      rw [if_pos hlast, if_pos hlast', hadvance, ok_bind]
      exact ⟨_, _, _, _, rfl, rfl, hextended⟩
    · have hlast' : ¬m.outPos + 1 = msgqueueGranularity := h.outPos ▸ hlast
      rw [if_neg hlast, if_neg hlast']
      exact ⟨_, _, _, _, rfl, rfl, hwritten⟩

/-! ## Receiving -/

/-- The chunk that is read, in the list of chunks. -/
theorem Rep.first (h : Rep q m before out) : ∃ i tl c cs, before ++ [out] = i :: tl ∧
    q.inChunk = some i ∧ q.chunks i = some c ∧ m.chunks = c.msgs :: cs ∧
    tl.map q.msgsAt = cs.map some := by
  cases haddrs : before ++ [out] with
  | nil => exact absurd haddrs (by simp)
  | cons i tl =>
      obtain ⟨c, hc⟩ := h.intact.there (haddrs ▸ List.mem_cons_self .. : i ∈ before ++ [out])
      have hchunks := h.chunks
      have hmsgs : q.msgsAt i = some c.msgs := by rw [QueueMem.msgsAt, hc, Option.map_some]
      rw [haddrs, List.map_cons, hmsgs, eq_comm, List.map_eq_cons_iff] at hchunks
      obtain ⟨d, cs, hsplit, hd, hcs⟩ := hchunks
      obtain rfl := Option.some.inj hd
      refine ⟨i, tl, c, cs, rfl, ?_, hc, hsplit, hcs.symm⟩
      rw [h.intact.first, haddrs, List.head?_cons]

/-- The chunk that is read leads to the one after it. -/
theorem QueueMem.Intact.next {i : Nat} {c : QueueChunk} (h : q.Intact (i :: before) out)
    (hc : q.chunks i = some c) : c.next = (before ++ [out]).head? := by
  have hlinked := h.linked
  cases hrest : before ++ [out] with
  | nil => exact absurd hrest (by simp)
  | cons b rest =>
      rw [List.cons_append, hrest] at hlinked
      obtain ⟨⟨c', hc', hnext⟩, -⟩ := List.isChain_cons_cons.mp hlinked
      obtain rfl := Option.some.inj (hc.symm.trans hc')
      exact hnext

/-- The first chunk was read to its end, and is kept for later. -/
theorem QueueMem.Intact.keep {i : Nat} {c : QueueChunk} (h : q.Intact (i :: before) out)
    (hc : q.chunks i = some c) (hcache : q.cache = none) :
    ({ q with inChunk := c.next, inPos := 0, cache := some i } : QueueMem).Intact before out := by
  obtain ⟨hnot, hnodup⟩ := List.nodup_cons.mp h.nodup
  refine ⟨h.next hc, h.last, h.linked.tail, hnodup, ?_, ?_⟩
  · intro a ha
    obtain rfl := Option.some.inj ha
    exact hnot
  · intro a
    change q.chunks a ≠ none ↔ _ ∨ some i = some a
    rw [h.used a, hcache, Option.some.injEq, List.cons_append, List.mem_cons, eq_comm (a := a)]
    simp [or_comm]

/-- The first chunk was read to its end, and is freed. -/
theorem QueueMem.Intact.drop {i : Nat} {c : QueueChunk} (h : q.Intact (i :: before) out)
    (hc : q.chunks i = some c) :
    ({ q.set i none with inChunk := c.next, inPos := 0 } : QueueMem).Intact before out := by
  obtain ⟨hnot, hnodup⟩ := List.nodup_cons.mp h.nodup
  refine ⟨h.next hc, h.last, ?_, hnodup, ?_, ?_⟩
  · refine chain_same (fun a ha => ?_) h.linked.tail
    have hne : a ≠ i := by
      rintro rfl
      exact hnot (List.mem_append_left _ ha)
    change (if a = i then none else q.chunks a) = q.chunks a
    rw [if_neg hne]
  · intro a ha hmem
    exact h.spare a ha (List.mem_cons_of_mem i hmem)
  · intro a
    change (if a = i then none else q.chunks a) ≠ none ↔ _ ∨ q.cache = some a
    by_cases ha : a = i
    · rw [if_pos ha, ha]
      refine iff_of_false (by simp) ?_
      rintro (hmem | hcache)
      · exact hnot hmem
      · exact h.spare i hcache (List.mem_cons_self ..)
    · rw [if_neg ha, h.used a, List.cons_append, List.mem_cons]
      simp [ha]

/-- What a receive does to the numbers. -/
def Msgqueue.taken (m : Msgqueue) (msg : Msg) : Msgqueue :=
  { m with count := m.count - 1, mem := m.mem - msgSize msg }

def QueueMem.taken (q : QueueMem) (msg : Msg) : QueueMem :=
  { q with count := q.count - 1, mem := (q.mem + 2 ^ 64 - QueueMem.sizeOf msg) % 2 ^ 64 }

/-- A receive within the first chunk, and one of the last place in it. -/
theorem recv_within {c : MsgqueueChunk} {cs : List MsgqueueChunk} (hcount : m.count ≠ 0)
    (hchunks : m.chunks = c :: cs) (hlast : m.inPos + 1 ≠ msgqueueGranularity) :
    m.recv = .ok (some (c m.inPos, ({ m with inPos := m.inPos + 1 } : Msgqueue).taken
      (c m.inPos))) := by
  rw [Msgqueue.recv, if_neg hcount, hchunks]
  simp only [if_neg hlast]
  rw [Msgqueue.taken]

theorem recv_last {c : MsgqueueChunk} {cs : List MsgqueueChunk} (hcount : m.count ≠ 0)
    (hchunks : m.chunks = c :: cs) (hlast : m.inPos + 1 = msgqueueGranularity) :
    m.recv = .ok (some (c m.inPos, ({ m with
      chunks := cs
      inPos := 0
      cache := some (m.cache.getD c) } : Msgqueue).taken (c m.inPos))) := by
  rw [Msgqueue.recv, if_neg hcount, hchunks]
  simp only [if_pos hlast]
  rfl

namespace QueueMem

/-- The same of the chunks in memory. -/
theorem recv_within {i : Nat} {c : QueueChunk} (hcount : q.count ≠ 0) (hin : q.inChunk = some i)
    (hc : q.chunks i = some c) (hlast : q.inPos + 1 ≠ msgqueueGranularity) :
    q.recv = .ok (some (c.msgs q.inPos, ({ q with inPos := q.inPos + 1 } : QueueMem).taken
      (c.msgs q.inPos))) := by
  have hread : q.deref q.inChunk = .ok (i, c) := by rw [hin, deref_some hc]
  rw [recv, if_neg hcount, hread, ok_bind]
  simp only [if_neg hlast]
  rfl

theorem recv_last {i : Nat} {c : QueueChunk} (hcount : q.count ≠ 0) (hin : q.inChunk = some i)
    (hc : q.chunks i = some c) (hlast : q.inPos + 1 = msgqueueGranularity)
    (hleave : ({ q with inPos := q.inPos + 1 } : QueueMem).leave (i, c) = .ok q') :
    q.recv = .ok (some (c.msgs q.inPos, q'.taken (c.msgs q.inPos))) := by
  have hread : q.deref q.inChunk = .ok (i, c) := by rw [hin, deref_some hc]
  rw [recv, if_neg hcount, hread, ok_bind]
  simp only [if_pos hlast, hleave]
  rfl

end QueueMem

/-- The numbers of both queues after a receive. -/
theorem Rep.taken (h : Rep q m before out) (hsmall : m.mem < 2 ^ 63)
    (hsize : msgSize msg ≤ m.mem) : Rep (q.taken msg) (m.taken msg) before out := by
  have hsz : QueueMem.sizeOf msg = msgSize msg :=
    Nat.mod_eq_of_lt (Nat.lt_of_le_of_lt hsize (Nat.lt_trans hsmall (by decide)))
  refine ⟨⟨h.intact.first, h.intact.last, h.intact.linked, h.intact.nodup, h.intact.spare,
    h.intact.used⟩, h.chunks, h.cache, h.outPos, h.inPos, congrArg (· - 1) h.count, ?_, h.maxmem⟩
  change (q.mem + 2 ^ 64 - QueueMem.sizeOf msg) % 2 ^ 64 = m.mem - msgSize msg
  rw [hsz, h.mem]
  omega

/-- The first chunk was read to its end: it is kept or freed. -/
theorem Rep.leave {i : Nat} {c : QueueChunk} {cs : List MsgqueueChunk}
    (h : Rep q m (i :: before) out) (hc : q.chunks i = some c) (hchunks : m.chunks = c.msgs :: cs) :
    ∃ q', q.leave (i, c) = .ok q' ∧
      Rep q' { m with chunks := cs, inPos := 0, cache := some (m.cache.getD c.msgs) } before
        out := by
  have hmap := h.chunks
  rw [List.cons_append, List.map_cons, hchunks, List.map_cons] at hmap
  have htl : (before ++ [out]).map q.msgsAt = cs.map some := (List.cons.inj hmap).2
  obtain ⟨hnot, -⟩ := List.nodup_cons.mp h.intact.nodup
  have hmsgs : q.msgsAt i = some c.msgs := by rw [QueueMem.msgsAt, hc, Option.map_some]
  cases hcache : q.cache with
  | none =>
      have hleave : q.leave (i, c) =
          .ok { q with inChunk := c.next, inPos := 0, cache := some i } := by
        rw [QueueMem.leave]
        simp only [hcache]
      refine ⟨_, hleave, h.intact.keep hc hcache, htl, ?_, h.outPos, rfl, h.count, h.mem, h.maxmem⟩
      change some (m.cache.getD c.msgs) = (some i).bind q.msgsAt
      rw [h.cache, hcache, Option.bind_some, hmsgs]
      rfl
  | some k =>
      have hne : k ≠ i := by
        rintro rfl
        exact h.intact.spare k hcache (List.mem_cons_self ..)
      have hleave : q.leave (i, c) = .ok { q.set i none with inChunk := c.next, inPos := 0 } := by
        have hread : ({ q with inChunk := c.next, inPos := 0 } : QueueMem).deref (some i) =
            .ok (i, c) := QueueMem.deref_some hc
        unfold QueueMem.leave
        split
        · rename_i hnone
          exact absurd (hcache.symm.trans hnone) (by simp)
        · rw [QueueMem.free, hread]
          rfl
      refine ⟨_, hleave, h.intact.drop hc, ?_, ?_, h.outPos, rfl, h.count, h.mem, h.maxmem⟩
      · change (before ++ [out]).map (q.set i none).msgsAt = cs.map some
        exact (msgsAt_set hnot).trans htl
      · change some (m.cache.getD c.msgs) = q.cache.bind (q.set i none).msgsAt
        obtain ⟨ck, hck⟩ := Option.ne_none_iff_exists'.mp ((h.intact.used k).mpr (Or.inr hcache))
        rw [h.cache, hcache, Option.bind_some, Option.bind_some, QueueMem.msgsAt, hck,
          QueueMem.msgsAt, QueueMem.set_chunks, if_neg hne, hck]
        rfl

/-- The chunk of the last message of a queue is the only one. -/
theorem Rep.single (h : Rep q m before out) (hwf : m.WF)
    (hrest : m.contents = [] ∨ (before = [] ∧ m.inPos + 1 = msgqueueGranularity)) :
    before = [] ∧ m.contents = [] ∧ m.inPos = m.outPos := by
  have hin := hwf.inPos
  have hout := hwf.outPos
  have hlength : before.length + 1 = m.chunks.length := by
    have hmap := congrArg List.length h.chunks
    rwa [List.length_map, List.length_map, List.length_append, List.length_singleton] at hmap
  cases hchunks : m.chunks with
  | nil => exact absurd hchunks hwf.chunks
  | cons c cs =>
      cases cs with
      | nil =>
          have hone : m.chunks.length = 1 := by rw [hchunks, List.length_singleton]
          have hle := hwf.single hone
          have hplaces : m.contents = places c m.inPos m.outPos := by
            rw [contents, hchunks, contentsOf]
          have hnil : m.outPos ≤ m.inPos := by
            rcases hrest with hempty | ⟨-, hlast⟩
            · by_contra hlt
              rw [hplaces, places_cons (by omega)] at hempty
              exact absurd hempty (by simp)
            · omega
          refine ⟨List.length_eq_zero_iff.mp (by omega), ?_, by omega⟩
          rw [hplaces, places_nil hnil]
      | cons d cs =>
          exfalso
          rcases hrest with hempty | ⟨rfl, -⟩
          · rw [contents, hchunks, contentsOf, places_cons hin] at hempty
            exact absurd hempty (by simp)
          · rw [hchunks] at hlength
            simp at hlength

/-- What a receive does is what it does to the list of chunks. -/
theorem Rep.recv (h : Rep q m before out) (hwf : m.WF) (hsmall : m.mem < 2 ^ 63) :
    (m.contents = [] ∧ q.recv = .ok none) ∨
      ∃ msg rest q' m' before', m.contents = msg :: rest ∧ q.recv = .ok (some (msg, q')) ∧
        Rep q' m' before' out ∧ m'.WF ∧ m'.contents = rest ∧ m'.maxmem = m.maxmem := by
  cases hcontents : m.contents with
  | nil =>
      refine Or.inl ⟨rfl, ?_⟩
      rw [QueueMem.recv, if_pos]
      rw [h.count, hwf.count, hcontents, List.length_nil]
  | cons msg rest =>
      refine Or.inr ?_
      have hcount : m.count ≠ 0 := by
        rw [hwf.count, hcontents]
        simp
      have hcount' : q.count ≠ 0 := h.count ▸ hcount
      obtain ⟨m', hrecv, hwf', hrest, hmax⟩ := recv_spec hwf hcontents
      have hsize : msgSize msg ≤ m.mem := by
        rw [hwf.mem, hcontents, sizes_cons]
        omega
      obtain ⟨i, tl, c, cs, haddrs, hinChunk, hc, hchunks, -⟩ := h.first
      by_cases hlast : m.inPos + 1 = msgqueueGranularity
      · rw [recv_last hcount hchunks hlast] at hrecv
        obtain ⟨hmsg, hm'⟩ := Prod.mk.inj (Option.some.inj (Except.ok.inj hrecv))
        cases before with
        | nil =>
            obtain ⟨-, hnil, -⟩ := h.single hwf (Or.inr ⟨rfl, hlast⟩)
            exact absurd (hcontents.symm.trans hnil) (by simp)
        | cons b before =>
            obtain rfl : b = i := (List.cons.inj haddrs).1
            have hmoved : Rep { q with inPos := q.inPos + 1 } { m with inPos := m.inPos + 1 }
                (b :: before) out :=
              ⟨⟨h.intact.first, h.intact.last, h.intact.linked, h.intact.nodup, h.intact.spare,
                h.intact.used⟩, h.chunks, h.cache, h.outPos, congrArg (· + 1) h.inPos, h.count,
                h.mem, h.maxmem⟩
            obtain ⟨q', hleave, hleft⟩ := hmoved.leave hc hchunks
            refine ⟨msg, rest, q'.taken msg, m', before, rfl, ?_, ?_, hwf', hrest, hmax⟩
            · have hlast' : q.inPos + 1 = msgqueueGranularity := h.inPos ▸ hlast
              rw [QueueMem.recv_last hcount' hinChunk hc hlast' hleave, h.inPos, hmsg]
            · rw [← hm', hmsg]
              exact hleft.taken hsmall hsize
      · rw [recv_within hcount hchunks hlast] at hrecv
        obtain ⟨hmsg, hm'⟩ := Prod.mk.inj (Option.some.inj (Except.ok.inj hrecv))
        have hmoved : Rep { q with inPos := q.inPos + 1 } { m with inPos := m.inPos + 1 }
            before out :=
          ⟨⟨h.intact.first, h.intact.last, h.intact.linked, h.intact.nodup, h.intact.spare,
            h.intact.used⟩, h.chunks, h.cache, h.outPos, congrArg (· + 1) h.inPos, h.count,
            h.mem, h.maxmem⟩
        refine ⟨msg, rest, _, m', before, rfl, ?_, hm' ▸ hmsg ▸ hmoved.taken hsmall hsize, hwf',
          hrest, hmax⟩
        have hlast' : ¬q.inPos + 1 = msgqueueGranularity := h.inPos ▸ hlast
        rw [QueueMem.recv_within hcount' hinChunk hc hlast', h.inPos, hmsg]

/-! ## Draining -/

/-- The loop takes out all that is in the queue. -/
theorem Rep.drain {queue : List Msg} (h : Rep q m before out) (hwf : m.WF)
    (hsmall : m.mem < 2 ^ 63) (hcontents : m.contents = queue) :
    ∃ q' m', QueueMem.drain (queue.length + 1) q = .ok q' ∧ Rep q' m' [] out ∧
      q'.inChunk = q'.outChunk := by
  induction queue generalizing q m before with
  | nil =>
      obtain ⟨rfl, -, -⟩ := h.single hwf (Or.inl hcontents)
      rcases h.recv hwf hsmall with ⟨-, hrecv⟩ | ⟨msg, rest, -, -, -, hcons, -⟩
      · refine ⟨q, m, ?_, h, ?_⟩
        · rw [List.length_nil, QueueMem.drain, hrecv]
          rfl
        · rw [h.intact.first, h.intact.last]
          rfl
      · exact absurd (hcontents.symm.trans hcons) (by simp)
  | cons msg queue ih =>
      rcases h.recv hwf hsmall with ⟨hnil, -⟩ | ⟨msg', rest, q₁, m₁, before₁, hcons, hrecv, h₁,
        hwf₁, hrest, -⟩
      · exact absurd (hcontents.symm.trans hnil) (by simp)
      · obtain ⟨rfl, rfl⟩ := List.cons.inj (hcontents.symm.trans hcons)
        have hsmall₁ : m₁.mem < 2 ^ 63 := by
          have hmem := hwf.mem
          rw [hcontents, sizes_cons] at hmem
          rw [hwf₁.mem, hrest]
          omega
        obtain ⟨q', m', hdrain, h', hshared⟩ := ih h₁ hwf₁ hsmall₁ hrest
        refine ⟨q', m', ?_, h', hshared⟩
        rw [List.length_cons, QueueMem.drain, hrecv, ok_bind]
        exact hdrain

/-- The last chunk is freed, and the one that is kept. -/
theorem QueueMem.Intact.free (h : q.Intact [] out) : ∃ q' q'', q.free q.inChunk = .ok q' ∧
    (match q'.cache with
      | none => pure q'
      | some a => q'.free (some a)) = Except.ok q'' ∧ ∀ a, q''.chunks a = none := by
  obtain ⟨c, hc⟩ := h.there (List.mem_singleton_self out)
  have hfirst : q.inChunk = some out := h.first
  have hfree : q.free q.inChunk = .ok (q.set out none) := by
    rw [QueueMem.free, hfirst, deref_some hc]
    rfl
  have hgone : ∀ a, (q.set out none).chunks a ≠ none → q.cache = some a := by
    intro a ha
    rw [set_chunks] at ha
    by_cases hout : a = out
    · rw [if_pos hout] at ha
      exact absurd rfl ha
    · rw [if_neg hout] at ha
      rcases (h.used a).mp ha with hmem | hcache
      · exact absurd (List.mem_singleton.mp hmem) hout
      · exact hcache
  refine ⟨q.set out none, ?_⟩
  rw [set_cache]
  cases hcache : q.cache with
  | none =>
      refine ⟨_, hfree, rfl, fun a => ?_⟩
      by_contra ha
      exact absurd (hcache.symm.trans (hgone a ha)) (by simp)
  | some k =>
      obtain ⟨ck, hck⟩ := Option.ne_none_iff_exists'.mp ((h.used k).mpr (Or.inr hcache))
      have hne : k ≠ out := by
        rintro rfl
        exact h.spare k hcache (List.mem_singleton_self k)
      have hthere : (q.set out none).chunks k = some ck := by
        rw [set_chunks, if_neg hne, hck]
      refine ⟨(q.set out none).set k none, hfree, ?_, fun a => ?_⟩
      · simp only
        rw [QueueMem.free, deref_some hthere]
        rfl
      · rw [set_chunks]
        by_cases ha : a = k
        · rw [if_pos ha]
        · rw [if_neg ha]
          by_contra hstill
          exact ha (Option.some.inj ((hgone a hstill).symm.trans hcache))

/-- The end of a queue: nothing stays allocated. -/
theorem Rep.term (h : Rep q m before out) (hwf : m.WF) (hsmall : m.mem < 2 ^ 63) :
    ∃ q', q.term (m.contents.length + 1) = .ok q' ∧ ∀ a, q'.chunks a = none := by
  obtain ⟨q₁, m₁, hdrain, h₁, hshared⟩ := h.drain hwf hsmall rfl
  obtain ⟨q₂, q₃, hfree, hcache, hgone⟩ := h₁.intact.free
  refine ⟨q₃, ?_, hgone⟩
  rw [QueueMem.term, hdrain, ok_bind, gridAssert, if_pos hshared, ok_bind, hfree, ok_bind]
  exact hcache

/-! ## The queue -/

/-- What holds of the chunks behind a queue of messages. -/
structure QueueMem.Holds (q : QueueMem) (queue : List Msg) : Prop where
  count : q.count = queue.length
  mem : q.mem = sizes queue
  intact : ∃ before out, q.Intact before out
  shared : queue = [] → q.inChunk = q.outChunk ∧ q.inPos = q.outPos
  sends : ∀ a msg, q.chunks a = none → msgSize msg < 2 ^ 63 → ∃ r, q.send a msg = .ok r
  recvs : ∃ r, q.recv = .ok r
  term : ∃ q', q.term (queue.length + 1) = .ok q' ∧ ∀ a, q'.chunks a = none

theorem Rep.holds (h : Rep q m before out) (hwf : m.WF) (hsmall : m.mem < 2 ^ 63) :
    q.Holds m.contents where
  count := h.count.trans hwf.count
  mem := h.mem.trans hwf.mem
  intact := ⟨before, out, h.intact⟩
  shared hnil := by
    obtain ⟨rfl, -, hpos⟩ := h.single hwf (Or.inl hnil)
    refine ⟨?_, by rw [h.inPos, h.outPos, hpos]⟩
    rw [h.intact.first, h.intact.last]
    rfl
  sends a msg ha hmsg := by
    rcases h.send ha hsmall hmsg with ⟨hsend, -⟩ | ⟨q', -, -, -, hsend, -⟩
    · exact ⟨none, hsend⟩
    · exact ⟨some q', hsend⟩
  recvs := by
    rcases h.recv hwf hsmall with ⟨-, hrecv⟩ | ⟨msg, -, q', -, -, -, hrecv, -⟩
    · exact ⟨none, hrecv⟩
    · exact ⟨some (msg, q'), hrecv⟩
  term := h.term hwf hsmall

theorem rep_init (a maxmem : Nat) : Rep (QueueMem.init a maxmem) (Msgqueue.init maxmem) [] a where
  intact := {
    first := rfl
    last := rfl
    linked := List.isChain_singleton a
    nodup := List.nodup_singleton a
    spare := by simp [QueueMem.init]
    used := by simp [QueueMem.init] }
  chunks := by simp [QueueMem.init, QueueMem.msgsAt, Msgqueue.init, QueueMem.newChunk]
  cache := rfl
  outPos := rfl
  inPos := rfl
  count := rfl
  mem := rfl
  maxmem := rfl

/-- A queue in memory that stands for a list of messages. -/
def StandsFor (maxmem : Nat) (q : QueueMem) (queue : List Msg) : Prop :=
  ∃ m before out, Rep q m before out ∧ m.WF ∧ m.mem < 2 ^ 63 ∧ m.maxmem = maxmem ∧
    m.contents = queue

theorem standsFor_init (a maxmem : Nat) : StandsFor maxmem (QueueMem.init a maxmem) [] :=
  ⟨Msgqueue.init maxmem, [], a, rep_init a maxmem, wf_init maxmem, by simp [Msgqueue.init], rfl, rfl⟩

/-- A message is refused by the list of chunks as it is by the bounded queue. -/
theorem send_none_iff (hwf : m.WF) :
    m.send msg = none ↔ m.contents ≠ [] ∧ sizes m.contents + msgSize msg ≥ m.maxmem := by
  have hcount : m.count > 0 ↔ m.contents ≠ [] := by
    rw [hwf.count]
    exact List.length_pos_iff
  rw [← hcount, ← hwf.mem, Msgqueue.send]
  split
  · rename_i hfull
    simp [hfull]
  · rename_i hroom
    refine iff_of_false ?_ hroom
    simp only
    split <;> simp

/-- A call does to the queue in memory what it does to the bounded queue. -/
theorem StandsFor.step {queue : List Msg} {op : QueueOp} (hmax : maxmem ≤ 2 ^ 63)
    (h : StandsFor maxmem q queue) (hstep : (queueSystem maxmem).step q op q') :
    ∃ queue', (fifo maxmem).step queue op queue' ∧ StandsFor maxmem q' queue' := by
  obtain ⟨m, before, out, hrep, hwf, hsmall, hmaxmem, rfl⟩ := h
  cases op with
  | send a msg taken =>
      obtain ⟨ha, hmsg, r, hsend, rfl, rfl⟩ := hstep
      have hrefused : m.send msg = none ↔ _ := send_none_iff hwf
      rw [hmaxmem] at hrefused
      rcases hrep.send ha hsmall hmsg with ⟨hsend', hnone⟩ | ⟨q', m', before', out', hsend', hsome,
        hrep'⟩
      · obtain rfl := Except.ok.inj (hsend.symm.trans hsend')
        refine ⟨m.contents, ⟨?_, rfl⟩, m, before, out, hrep, hwf, hsmall, hmaxmem, rfl⟩
        simp [hrefused.mp hnone]
      · obtain rfl := Except.ok.inj (hsend.symm.trans hsend')
        obtain ⟨hwf', hcontents', hmax'⟩ := send_spec hwf hsome
        have hroom : ¬(m.contents ≠ [] ∧ sizes m.contents + msgSize msg ≥ maxmem) := by
          rw [← hrefused, hsome]
          simp
        refine ⟨m.contents ++ [msg], ⟨?_, rfl⟩, m', before', out', hrep', hwf', ?_,
          hmax'.trans hmaxmem, hcontents'⟩
        · exact (decide_eq_true hroom).symm
        · rw [hwf'.mem, hcontents', sizes_concat]
          by_cases hnil : m.contents = []
          · rw [hnil]
            simpa [sizes] using hmsg
          · have hlt : ¬sizes m.contents + msgSize msg ≥ maxmem := fun hge => hroom ⟨hnil, hge⟩
            omega
  | recv r =>
      obtain ⟨r, hrecv, rfl, rfl⟩ := hstep
      rcases hrep.recv hwf hsmall with ⟨hnil, hrecv'⟩ | ⟨msg, rest, q', m', before', hcontents,
        hrecv', hrep', hwf', hrest, hmax'⟩
      · obtain rfl := Except.ok.inj (hrecv.symm.trans hrecv')
        refine ⟨m.contents, ?_, m, before, out, hrep, hwf, hsmall, hmaxmem, rfl⟩
        rw [hnil]
        exact ⟨rfl, rfl⟩
      · obtain rfl := Except.ok.inj (hrecv.symm.trans hrecv')
        refine ⟨rest, ?_, m', before', out, hrep', hwf', ?_, hmax'.trans hmaxmem, hrest⟩
        · rw [hcontents]
          exact ⟨rfl, rfl⟩
        · have hmem := hwf.mem
          rw [hcontents, sizes_cons] at hmem
          rw [hwf'.mem, hrest]
          omega

theorem StandsFor.holds {queue : List Msg} (h : StandsFor maxmem q queue) : q.Holds queue := by
  obtain ⟨m, before, out, hrep, hwf, hsmall, -, rfl⟩ := h
  exact hrep.holds hwf hsmall

/-- The calls on a queue, from its beginning on, are those on a bounded queue of messages, and
its chunks are in order after each of them. -/
theorem queue_is_fifo {calls : List QueueOp} (hmax : maxmem ≤ 2 ^ 63)
    (h : (queueSystem maxmem).Run calls q) :
    ∃ queue, (fifo maxmem).Run calls queue ∧ q.Holds queue := by
  have hstands : ∃ queue, (fifo maxmem).Run calls queue ∧ StandsFor maxmem q queue := by
    induction h with
    | start hinit =>
        obtain ⟨a, rfl⟩ := hinit
        exact ⟨[], .start rfl, standsFor_init a maxmem⟩
    | step hrun hstep ih =>
        obtain ⟨queue, hfifo, hstands⟩ := ih
        obtain ⟨queue', hcall, hstands'⟩ := hstands.step hmax hstep
        exact ⟨queue', .step hfifo hcall, hstands'⟩
  obtain ⟨queue, hfifo, hstands⟩ := hstands
  exact ⟨queue, hfifo, hstands.holds⟩

/-! ## A long run -/

/-- A message can be sent, and is taken if there is room. -/
theorem StandsFor.send {queue : List Msg} (hmax : maxmem ≤ 2 ^ 63)
    (h : StandsFor maxmem q queue) (msg : Msg) (hmsg : msgSize msg < 2 ^ 63) :
    ∃ a taken q', (queueSystem maxmem).step q (.send a msg taken) q' ∧
      taken = decide ¬(queue ≠ [] ∧ sizes queue + msgSize msg ≥ maxmem) ∧
      StandsFor maxmem q' (if taken = true then queue ++ [msg] else queue) := by
  obtain ⟨before, out, hintact⟩ := h.holds.intact
  obtain ⟨a, ha⟩ := Infinite.exists_notMem_finset (before ++ [out] ++ q.cache.toList).toFinset
  have hfree : q.chunks a = none := by
    by_contra hne
    refine ha (List.mem_toFinset.mpr (List.mem_append.mpr ?_))
    exact ((hintact.used a).mp hne).imp id Option.mem_toList.mpr
  obtain ⟨r, hsend⟩ := h.holds.sends a msg hfree hmsg
  have hstep : (queueSystem maxmem).step q (.send a msg r.isSome) (r.getD q) :=
    ⟨hfree, hmsg, r, hsend, rfl, rfl⟩
  obtain ⟨queue', ⟨htaken, rfl⟩, hstands⟩ := h.step hmax hstep
  exact ⟨a, _, _, hstep, htaken, hstands⟩

/-- Messages for which there is room are sent one after the other. -/
theorem run_sends (hmax : maxmem ≤ 2 ^ 63) (msgs : List Msg) :
    ∀ {calls : List QueueOp} {q : QueueMem} {queue : List Msg},
      (queueSystem maxmem).Run calls q → StandsFor maxmem q queue →
      sizes (queue ++ msgs) < maxmem → ∃ (as : List Nat) (q' : QueueMem),
        as.length = msgs.length ∧
        (queueSystem maxmem).Run (calls ++ as.zipWith (fun a msg => .send a msg true) msgs) q' ∧
        StandsFor maxmem q' (queue ++ msgs) := by
  induction msgs with
  | nil =>
      intro calls q queue hrun hstands _
      exact ⟨[], q, rfl, by simpa using hrun, by simpa using hstands⟩
  | cons msg rest ih =>
      intro calls q queue hrun hstands hroom
      have hsizes : sizes (queue ++ msg :: rest) = sizes queue + (msgSize msg + sizes rest) := by
        simp [sizes]
      obtain ⟨a, taken, q₁, hstep, htaken, hstands₁⟩ := hstands.send hmax msg (by omega)
      obtain rfl : taken = true := by
        rw [htaken, decide_eq_true_iff]
        omega
      rw [if_pos rfl] at hstands₁
      rw [List.append_cons] at hroom
      obtain ⟨as, q', hlength, hrun', hstands'⟩ := ih (hrun.step hstep) hstands₁ hroom
      refine ⟨a :: as, q', by simp [hlength], ?_, by rwa [List.append_cons]⟩
      rw [List.zipWith_cons_cons, List.append_cons]
      exact hrun'

/-- The messages of the queue are received one after the other. -/
theorem run_recvs (hmax : maxmem ≤ 2 ^ 63) (queue : List Msg) :
    ∀ {calls : List QueueOp} {q : QueueMem}, (queueSystem maxmem).Run calls q →
      StandsFor maxmem q queue →
        ∃ q', (queueSystem maxmem).Run (calls ++ queue.map fun msg => .recv (some msg)) q' := by
  induction queue with
  | nil =>
      intro calls q hrun _
      exact ⟨q, by simpa using hrun⟩
  | cons msg rest ih =>
      intro calls q hrun hstands
      obtain ⟨r, hrecv⟩ := hstands.holds.recvs
      have hstep : (queueSystem maxmem).step q (.recv (r.map Prod.fst))
          ((r.map Prod.snd).getD q) := ⟨r, hrecv, rfl, rfl⟩
      obtain ⟨queue', ⟨hmsg, rfl⟩, hstands₁⟩ := hstands.step hmax hstep
      rw [hmsg] at hstep
      obtain ⟨q', hrun'⟩ := ih (hrun.step hstep) hstands₁
      refine ⟨q', ?_⟩
      rw [List.map_cons, List.append_cons]
      exact hrun'

/-- Messages of one byte each fill more than two chunks, one more does not fit, and they are
received. -/
theorem queue_is_fifo_chunks :
    let msgs : List Msg := (List.range 299).map fun i => { body := [UInt8.ofNat i] }
    ∃ (as : List Nat) (a : Nat) (q : QueueMem), as.length = 299 ∧
      let calls := as.zipWith (fun a msg => QueueOp.send a msg true) msgs ++
        [.send a { body := [7] } false] ++ msgs.map fun msg => .recv (some msg)
      (queueSystem 300).Run calls q ∧ ∃ queue, (fifo 300).Run calls queue ∧ q.Holds queue := by
  intro msgs
  have hsizes : sizes msgs = 299 := by decide +kernel
  have hstart : (queueSystem 300).Run [] (QueueMem.init 0 300) := .start ⟨0, rfl⟩
  obtain ⟨as, q₁, hlength, hsent, hstands⟩ :=
    run_sends (by decide) msgs hstart (standsFor_init 0 300) (hsizes.trans_lt (by decide))
  obtain ⟨a, taken, q₂, hstep, htaken, hstands₂⟩ :=
    hstands.send (by decide) { body := [7] } (by decide)
  obtain rfl : taken = false := by
    rw [htaken, List.nil_append, hsizes]
    decide
  obtain ⟨q, hrun⟩ := run_recvs (by decide) msgs (hsent.step hstep) hstands₂
  exact ⟨as, a, q, hlength.trans (by simp [msgs]), hrun, queue_is_fifo (by decide) hrun⟩

end GridMq.Transports
