import GridMq.Utils.Err
import GridMq.Utils.Msg
import Mathlib.Data.List.Basic

set_option autoImplicit false

/-!
# Message queues (`src/transports/inproc/msgqueue.c`)

The messages lie in chunks of a fixed number of places, linked from the one that is
read to the one that is written.  `contents` is the queue they stand for; `send_spec`
and `recv_spec` are all that the rest of the development knows of the chunks.
-/

namespace GridMq.Transports

/-- `GRID_MSGQUEUE_GRANULARITY`. -/
def msgqueueGranularity : Nat := 126

/-- `struct grid_msgqueue_chunk`, without the link to the next one. -/
abbrev MsgqueueChunk := Nat → Msg

/-- `struct grid_msgqueue`.  `chunks` are those from `in.chunk` to `out.chunk`. -/
structure Msgqueue where
  chunks : List MsgqueueChunk
  outPos : Nat := 0
  inPos : Nat := 0
  count : Nat := 0
  mem : Nat := 0
  maxmem : Nat
  cache : Option MsgqueueChunk := none

/-- The size a message counts for. -/
def msgSize (msg : Msg) : Nat := msg.sphdr.length + msg.body.length

namespace Msgqueue

/-- `grid_msgqueue_init`. -/
def init (maxmem : Nat) : Msgqueue := { chunks := [fun _ => {}], maxmem := maxmem }

/-- `grid_msgqueue_empty`. -/
def empty (self : Msgqueue) : Bool := self.count == 0

/-- A message written to a place of the last chunk. -/
def writeLast (pos : Nat) (msg : Msg) : List MsgqueueChunk → List MsgqueueChunk
  | [] => []
  | [c] => [fun i => if i = pos then msg else c i]
  | c :: d :: cs => c :: writeLast pos msg (d :: cs)

/-- `grid_msgqueue_send`, or `none` for `-EAGAIN`. -/
def send (self : Msgqueue) (msg : Msg) : Option Msgqueue :=
  if self.count > 0 ∧ self.mem + msgSize msg ≥ self.maxmem then none
  else
    let self := { self with
      count := self.count + 1
      mem := self.mem + msgSize msg
      chunks := writeLast self.outPos msg self.chunks
      outPos := self.outPos + 1 }
    if self.outPos = msgqueueGranularity then
      some { self with
        chunks := self.chunks ++ [self.cache.getD fun _ => {}]
        cache := none
        outPos := 0 }
    else some self

/-- `grid_msgqueue_recv`, or `none` for `-EAGAIN`. -/
def recv (self : Msgqueue) : Except Abort (Option (Msg × Msgqueue)) :=
  if self.count = 0 then .ok none
  else
    match self.chunks with
    | [] => .error .nullPointer
    | c :: cs =>
        let msg := c self.inPos
        let self := { self with inPos := self.inPos + 1 }
        let self :=
          if self.inPos = msgqueueGranularity then
            { self with chunks := cs, inPos := 0, cache := some (self.cache.getD c) }
          else self
        .ok (some (msg, { self with
          count := self.count - 1
          mem := self.mem - msgSize msg }))

/-! ## The queue behind the chunks -/

/-- The messages from one place of a chunk up to another. -/
def places (c : MsgqueueChunk) (lo hi : Nat) : List Msg := (List.range' lo (hi - lo)).map c

/-- The messages from a place of the first chunk up to a place of the last one. -/
def contentsOf (hi : Nat) : List MsgqueueChunk → Nat → List Msg
  | [], _ => []
  | [c], lo => places c lo hi
  | c :: d :: cs, lo => places c lo msgqueueGranularity ++ contentsOf hi (d :: cs) 0

/-- The messages in the queue, the oldest one first. -/
def contents (self : Msgqueue) : List Msg := contentsOf self.outPos self.chunks self.inPos

/-- The bytes of the messages of a list. -/
def sizes (l : List Msg) : Nat := (l.map msgSize).sum

/-- The statistics count what is in the chunks. -/
structure WF (q : Msgqueue) : Prop where
  chunks : q.chunks ≠ []
  inPos : q.inPos < msgqueueGranularity
  outPos : q.outPos < msgqueueGranularity
  single : q.chunks.length = 1 → q.inPos ≤ q.outPos
  count : q.count = q.contents.length
  mem : q.mem = sizes q.contents

theorem places_nil {c : MsgqueueChunk} {lo hi : Nat} (h : hi ≤ lo) : places c lo hi = [] := by
  rw [places, Nat.sub_eq_zero_of_le h]
  rfl

theorem places_cons {c : MsgqueueChunk} {lo hi : Nat} (h : lo < hi) :
    places c lo hi = c lo :: places c (lo + 1) hi := by
  have hsub : hi - lo = (hi - (lo + 1)) + 1 := by omega
  rw [places, hsub, List.range'_succ, List.map_cons]
  rfl

/-- Writing the place behind the last one adds a message at the end. -/
theorem places_write {c : MsgqueueChunk} {lo hi : Nat} (msg : Msg) (h : lo ≤ hi) :
    places (fun i => if i = hi then msg else c i) lo (hi + 1) = places c lo hi ++ [msg] := by
  have hsub : hi + 1 - lo = (hi - lo) + 1 := by omega
  rw [places, hsub, List.range'_concat, List.map_append, places]
  congr 1
  · apply List.map_congr_left
    intro i hi'
    have hlt := (List.mem_range'_1.mp hi').2
    rw [if_neg (by omega)]
  · simp only [List.map_cons, List.map_nil]
    rw [if_pos (by omega)]

theorem contentsOf_writeLast {hi : Nat} (msg : Msg) {cs : List MsgqueueChunk} :
    ∀ {lo : Nat}, cs ≠ [] → (cs.length = 1 → lo ≤ hi) →
      contentsOf (hi + 1) (writeLast hi msg cs) lo = contentsOf hi cs lo ++ [msg] := by
  induction cs with
  | nil =>
      intro lo hne _
      exact absurd rfl hne
  | cons c cs ih =>
      intro lo _ hsingle
      cases cs with
      | nil => exact places_write msg (hsingle rfl)
      | cons d cs =>
          have hrest := @ih 0 (by simp) (fun _ => Nat.zero_le hi)
          have hshape : ∃ d' cs', writeLast hi msg (d :: cs) = d' :: cs' := by
            cases cs with
            | nil => exact ⟨_, _, rfl⟩
            | cons e cs => exact ⟨_, _, rfl⟩
          obtain ⟨d', cs', hd⟩ := hshape
          rw [writeLast, hd, contentsOf, ← hd, hrest, contentsOf, List.append_assoc]

/-- A full last chunk followed by an unused one holds the same messages. -/
theorem contentsOf_concat (d : MsgqueueChunk) {cs : List MsgqueueChunk} :
    ∀ {lo : Nat}, cs ≠ [] →
      contentsOf 0 (cs ++ [d]) lo = contentsOf msgqueueGranularity cs lo := by
  induction cs with
  | nil =>
      intro lo hne
      exact absurd rfl hne
  | cons c cs ih =>
      intro lo _
      cases cs with
      | nil =>
          change places c lo msgqueueGranularity ++ places d 0 0 = _
          rw [places_nil (Nat.le_refl 0), List.append_nil]
          rfl
      | cons e cs =>
          have hrest := @ih 0 (by simp)
          change places c lo msgqueueGranularity ++ contentsOf 0 (e :: cs ++ [d]) 0 = _
          rw [hrest]
          rfl

theorem writeLast_length (pos : Nat) (msg : Msg) (cs : List MsgqueueChunk) :
    (writeLast pos msg cs).length = cs.length := by
  induction cs with
  | nil => rfl
  | cons c cs ih =>
      cases cs with
      | nil => rfl
      | cons d cs =>
          rw [writeLast, List.length_cons, ih]
          rfl

theorem writeLast_ne_nil {pos : Nat} {msg : Msg} {cs : List MsgqueueChunk} (h : cs ≠ []) :
    writeLast pos msg cs ≠ [] := by
  intro hnil
  have hlen := writeLast_length pos msg cs
  rw [hnil] at hlen
  exact h (List.length_eq_zero_iff.mp hlen.symm)

theorem sizes_concat (l : List Msg) (msg : Msg) : sizes (l ++ [msg]) = sizes l + msgSize msg := by
  simp [sizes]

theorem sizes_cons (msg : Msg) (l : List Msg) : sizes (msg :: l) = msgSize msg + sizes l := by
  simp [sizes]

/-! ## The operations -/

theorem wf_init (maxmem : Nat) : (init maxmem).WF where
  chunks := by simp [init]
  inPos := by simp [init, msgqueueGranularity]
  outPos := by simp [init, msgqueueGranularity]
  single := by simp [init]
  count := by simp [init, contents, contentsOf, places]
  mem := by simp [init, contents, contentsOf, places, sizes]

@[simp] theorem contents_init (maxmem : Nat) : (init maxmem).contents = [] := rfl

theorem WF.empty_iff {self : Msgqueue} (h : self.WF) : self.empty = true ↔ self.contents = [] := by
  rw [empty, beq_iff_eq, h.count, List.length_eq_zero_iff]

theorem WF.empty_eq_false_iff {self : Msgqueue} (h : self.WF) :
    self.empty = false ↔ self.contents ≠ [] := by
  rw [← Bool.not_eq_true, h.empty_iff]

/-- The queue refuses a message only when there is one in it already. -/
theorem send_none {self : Msgqueue} {msg : Msg} (h : self.WF) (hsend : self.send msg = none) :
    self.contents ≠ [] := by
  unfold send at hsend
  split at hsend
  · rename_i hfull
    intro hnil
    have hcount := h.count
    rw [hnil] at hcount
    exact absurd hcount (by simp; omega)
  · simp only at hsend
    split at hsend <;> exact absurd hsend (by simp)

/-- A message that is accepted is the last one. -/
theorem send_spec {self self' : Msgqueue} {msg : Msg} (h : self.WF)
    (hsend : self.send msg = some self') :
    self'.WF ∧ self'.contents = self.contents ++ [msg] ∧ self'.maxmem = self.maxmem := by
  have hwrite := contentsOf_writeLast msg h.chunks h.single
  have hne : writeLast self.outPos msg self.chunks ≠ [] := writeLast_ne_nil h.chunks
  have hout := h.outPos
  unfold send at hsend
  split at hsend
  · exact absurd hsend (by simp)
  · simp only at hsend
    split at hsend
    · rename_i hfull
      obtain rfl := Option.some.inj hsend
      have hcontents : contentsOf 0 (writeLast self.outPos msg self.chunks ++
          [self.cache.getD fun _ => {}]) self.inPos = self.contents ++ [msg] := by
        rw [contentsOf_concat _ hne, ← hfull]
        exact hwrite
      refine ⟨⟨by simp, h.inPos, by simp [msgqueueGranularity], ?_, ?_, ?_⟩, hcontents, rfl⟩
      · intro hone
        have hpos := List.length_pos_iff.mpr hne
        simp only [List.length_append, List.length_singleton] at hone
        omega
      · change self.count + 1 = (contentsOf 0 _ self.inPos).length
        rw [hcontents, h.count, List.length_append, List.length_singleton]
      · change self.mem + msgSize msg = sizes (contentsOf 0 _ self.inPos)
        rw [hcontents, h.mem, sizes_concat]
    · rename_i hroom
      obtain rfl := Option.some.inj hsend
      refine ⟨⟨hne, h.inPos, ?_, ?_, ?_, ?_⟩, hwrite, rfl⟩
      · change self.outPos + 1 < msgqueueGranularity
        omega
      · intro hone
        have := h.single ((writeLast_length _ _ _).symm.trans hone)
        change self.inPos ≤ self.outPos + 1
        omega
      · change self.count + 1 = (contentsOf (self.outPos + 1) _ self.inPos).length
        rw [hwrite, List.length_append, List.length_singleton, h.count]
        rfl
      · change self.mem + msgSize msg = sizes (contentsOf (self.outPos + 1) _ self.inPos)
        rw [hwrite, sizes_concat, h.mem]
        rfl

/-- Taking the first message leaves the others. -/
theorem recv_spec {self : Msgqueue} {msg : Msg} {rest : List Msg} (h : self.WF)
    (hcontents : self.contents = msg :: rest) :
    ∃ self', self.recv = .ok (some (msg, self')) ∧ self'.WF ∧ self'.contents = rest ∧
      self'.maxmem = self.maxmem := by
  have hcount : self.count ≠ 0 := by
    rw [h.count, hcontents]
    simp
  have hstats : ∀ q : Msgqueue, q.contents = rest → q.count = self.count - 1 →
      q.count = q.contents.length := by
    intro q hq hc
    rw [hc, hq, h.count, hcontents]
    rfl
  have hbytes : ∀ q : Msgqueue, q.contents = rest → q.mem = self.mem - msgSize msg →
      q.mem = sizes q.contents := by
    intro q hq hm
    rw [hm, hq, h.mem, hcontents, sizes_cons]
    omega
  have hin := h.inPos
  have hout := h.outPos
  unfold recv
  rw [if_neg hcount]
  cases hchunks : self.chunks with
  | nil => exact absurd hchunks h.chunks
  | cons c cs =>
      simp only
      cases cs with
      | nil =>
          -- the chunk that is read is the one that is written
          have hplaces : places c self.inPos self.outPos = msg :: rest := by
            rw [← hcontents, contents, hchunks]
            rfl
          have hlt : self.inPos < self.outPos := by
            by_contra hle
            rw [places_nil (by omega)] at hplaces
            exact absurd hplaces (by simp)
          rw [places_cons hlt] at hplaces
          obtain ⟨hmsg, hrest⟩ := List.cons.inj hplaces
          have hcontents' : contentsOf self.outPos [c] (self.inPos + 1) = rest := hrest
          rw [if_neg (by omega), hmsg]
          refine ⟨_, rfl, ⟨by simp, ?_, hout, ?_, hstats _ hcontents' rfl,
            hbytes _ hcontents' rfl⟩, hcontents', rfl⟩
          · change self.inPos + 1 < msgqueueGranularity
            omega
          · intro _
            exact hlt
      | cons d cs =>
          have hplaces : c self.inPos :: (places c (self.inPos + 1) msgqueueGranularity ++
              contentsOf self.outPos (d :: cs) 0) = msg :: rest := by
            rw [← hcontents, contents, hchunks, contentsOf, places_cons hin]
            rfl
          obtain ⟨hmsg, hrest⟩ := List.cons.inj hplaces
          rw [hmsg]
          by_cases hlast : self.inPos + 1 = msgqueueGranularity
          · rw [if_pos hlast]
            have hcontents' : contentsOf self.outPos (d :: cs) 0 = rest := by
              rw [← hrest, places_nil (by omega), List.nil_append]
            refine ⟨_, rfl, ⟨by simp, by simp [msgqueueGranularity], hout, ?_,
              hstats _ hcontents' rfl, hbytes _ hcontents' rfl⟩,
              hcontents', rfl⟩
            intro _
            exact Nat.zero_le _
          · rw [if_neg hlast]
            have hcontents' :
                contentsOf self.outPos (c :: d :: cs) (self.inPos + 1) = rest := hrest
            refine ⟨_, rfl, ⟨by simp, ?_, hout, by simp, hstats _ hcontents' rfl,
              hbytes _ hcontents' rfl⟩, hcontents', rfl⟩
            change self.inPos + 1 < msgqueueGranularity
            omega

end Msgqueue

end GridMq.Transports
