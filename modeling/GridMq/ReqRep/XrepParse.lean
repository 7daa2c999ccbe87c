import Mathlib.Data.Nat.Find
import GridMq.Survey.Respondent
import GridMq.Utils.Chunkref

set_option autoImplicit false

/-!
# The backtrace of a received message (`grid_xrep_recv`, `grid_xrespondent_recv`)

The body that arrives is scanned for the first word with its top bit set.  The words up to
it are moved to the header, behind the key of the pipe.  Here the scan is that of the
source, with its counter and the bytes that it reads, and the message is made of references
to chunks.
-/

namespace GridMq.ReqRep

open GridMq.Core GridMq.Survey

/-- `INT_MAX`, the last value of the counter of the scan. -/
def scanMax : Nat := 2 ^ 31 - 1

/-- How the scan ends. -/
inductive ScanEnd where
  /-- the bottom of the stack is the last of so many words -/
  | bottom (i : Nat)
  /-- the body ends before -/
  | malformed
  /-- `i + 1` is not an `int` -/
  | overflow
  deriving DecidableEq, Repr

/-- The loop of `grid_xrep_recv` from a word on, with the offsets of the bytes it reads. -/
def scan (body : List UInt8) (i : Nat) : ScanEnd × List Nat :=
  if i = scanMax then (.overflow, [])
  else if _h : (i + 1) * 4 > body.length then (.malformed, [])
  else
    let reads := [i * 4, i * 4 + 1, i * 4 + 2, i * 4 + 3]
    if topBit (getl (body.drop (i * 4))) then (.bottom (i + 1), reads)
    else
      let rest := scan body (i + 1)
      (rest.1, reads ++ rest.2)
termination_by body.length - i * 4

/-- Why a call does not return. -/
inductive ParseFault where
  | abort (e : Abort)
  /-- an `int` that is incremented beyond `INT_MAX` -/
  | overflow
  deriving DecidableEq, Repr

def liftParse {α : Type} (x : Except Abort α) : Except ParseFault α := x.mapError .abort

/-- What a call returns: the message with its pipe, or `-EAGAIN`, and the offsets of the
bytes of the body that were read. -/
structure Received where
  socket : Xrep
  heap : ChunkHeap
  reads : List Nat
  msg : Option (Nat × GridMsg)

/-- The header and the body of a message whose first words are the backtrace stack, and the
key of the pipe in front of them. -/
def splitBacktrace (heap : ChunkHeap) (key i : Nat) (msg : GridMsg) :
    Except Abort (ChunkHeap × GridMsg) := do
  let data := heap.bytes msg.body
  gridAssert ((heap.bytes msg.sphdr).length = 0)
  let heap ← heap.term msg.sphdr
  let (heap, sphdr) ← heap.store (data.take (i * 4))
  let (heap, body) ← heap.trim (i * 4) msg.body
  -- prepend the header by the pipe key
  let (heap, ref) ← heap.store (putl key ++ heap.bytes sphdr)
  let heap ← heap.term sphdr
  return (heap, { msg with sphdr := ref, body := body })

/-- The common body of `grid_xrep_recv` and `grid_xrespondent_recv`.  The message that the
fair queue hands over is one that a transport made: all of it is in the body, and no other
reference to it exists. -/
def recvBacktrace (self : Xrep) (heap : ChunkHeap) : Except ParseFault Received := do
  let r ← liftParse self.fqRecv
  match r.2 with
  | none => return { socket := r.1, heap := heap, reads := [], msg := none }
  | some (p, wire) =>
      let (heap, body) ← liftParse (heap.store wire)
      let msg : GridMsg := { body := body }
      let scanned := scan (heap.bytes body) 0
      match scanned.1 with
      | .overflow => .error .overflow
      | .malformed =>
          let heap ← liftParse (msg.term heap)
          return { socket := r.1, heap := heap, reads := scanned.2, msg := none }
      | .bottom i =>
          let data ← liftParse (r.1.getData p)
          let (heap, msg) ← liftParse (splitBacktrace heap data.key i msg)
          return {
            socket := r.1
            heap := heap
            reads := scanned.2 ++ List.range (i * 4)
            msg := some (p, msg) }

/-- `grid_xrep_recv`. -/
def xrepRecv (self : Xrep) (heap : ChunkHeap) : Except ParseFault Received :=
  recvBacktrace self heap

/-- `grid_xrespondent_recv`. -/
def xrespondentRecv (self : Xrespondent) (heap : ChunkHeap) : Except ParseFault Received :=
  recvBacktrace self heap

/-! ## The scan -/

/-- A word inside the body with its top bit set. -/
def BottomAt (body : List UInt8) (k : Nat) : Prop :=
  (k + 1) * 4 ≤ body.length ∧ topBit (getl (body.drop (k * 4))) = true

instance (body : List UInt8) (k : Nat) : Decidable (BottomAt body k) :=
  inferInstanceAs (Decidable (_ ∧ _))

/-- The first such word. -/
def FirstBottom (body : List UInt8) (k : Nat) : Prop :=
  BottomAt body k ∧ ∀ j, j < k → ¬BottomAt body j

theorem exists_firstBottom {body : List UInt8} (h : ∃ k, BottomAt body k) :
    ∃ k, FirstBottom body k :=
  ⟨Nat.find h, Nat.find_spec h, fun _ hj => Nat.find_min h hj⟩

theorem FirstBottom.le {body : List UInt8} {k j : Nat} (h : FirstBottom body k)
    (hj : BottomAt body j) : k ≤ j := by
  by_contra hlt
  exact h.2 j (by omega) hj

variable {body : List UInt8}

/-- A word that is not the bottom is passed. -/
theorem scan_pass {i : Nat} (hi : i < scanMax) (hin : (i + 1) * 4 ≤ body.length)
    (hno : ¬BottomAt body i) : (scan body i).1 = (scan body (i + 1)).1 := by
  have hbit : ¬topBit (getl (body.drop (i * 4))) = true := fun h => hno ⟨hin, h⟩
  rw [scan, if_neg (by omega), dif_neg (by omega), if_neg hbit]

theorem scan_found {k : Nat} (h : FirstBottom body k) (hk : k < scanMax) {n : Nat} (hn : n ≤ k) :
    (scan body (k - n)).1 = .bottom (k + 1) := by
  induction n with
  | zero =>
      rw [Nat.sub_zero, scan, if_neg (by omega), dif_neg (Nat.not_lt.mpr h.1.1), if_pos h.1.2]
  | succ n ih =>
      have hin := h.1.1
      rw [scan_pass (by omega) (by omega) (h.2 _ (by omega)), ← ih (by omega)]
      congr 2
      omega

theorem scan_ends (hno : ∀ k, ¬BottomAt body k) (hshort : body.length / 4 < scanMax) {n : Nat}
    (hn : n ≤ body.length / 4) : (scan body (body.length / 4 - n)).1 = .malformed := by
  induction n with
  | zero => rw [Nat.sub_zero, scan, if_neg (by omega), dif_pos (by omega)]
  | succ n ih =>
      rw [scan_pass (by omega) (by omega) (hno _), ← ih (by omega)]
      congr 2
      omega

theorem scan_overflows (hno : ∀ k, k < scanMax → ¬BottomAt body k)
    (hlong : scanMax ≤ body.length / 4) {n : Nat} (hn : n ≤ scanMax) :
    (scan body (scanMax - n)).1 = .overflow := by
  induction n with
  | zero => rw [Nat.sub_zero, scan, if_pos rfl]
  | succ n ih =>
      rw [scan_pass (by omega) (by omega) (hno _ (by omega)), ← ih (by omega)]
      congr 2
      omega

/-- No byte past the end is read. -/
theorem scan_reads (body : List UInt8) (i : Nat) : ∀ off ∈ (scan body i).2, off < body.length := by
  induction i using scan.induct body with
  | case1 => rw [scan, if_pos rfl]; simp
  | case2 i hi hend => rw [scan, if_neg hi, dif_pos hend]; simp
  | case3 i hi hin hbit =>
      rw [scan, if_neg hi, dif_neg hin, if_pos hbit]
      simp only [List.mem_cons, List.not_mem_nil, or_false]
      omega
  | case4 i hi hin hbit ih =>
      rw [scan, if_neg hi, dif_neg hin, if_neg hbit]
      intro off hoff
      rcases List.mem_append.mp hoff with hoff | hoff
      · simp only [List.mem_cons, List.not_mem_nil, or_false] at hoff
        omega
      · exact ih off hoff

/-! ## The split -/

variable {heap : ChunkHeap} {ref : Chunkref} {wire : List UInt8} {i : Nat}

theorem fits_of_lt {size : Nat} (h : size < 2 ^ 33) : Fits size := by
  have hhdr : chunkHdrsize = 32 := rfl
  have hptr : ptrdiffMax = 2 ^ 63 - 1 := rfl
  change chunkHdrsize + size ≤ ptrdiffMax
  omega

/-- The words of the stack go to the header, the rest is the body. -/
theorem splitBacktrace_spec (h : heap.Fresh wire ref) (hle : i * 4 ≤ wire.length)
    (hroom : i * 4 < uint32Max) (key : Nat) :
    ∃ heap' msg, splitBacktrace heap key i { body := ref } = .ok (heap', msg) ∧
      msg.view heap' =
        { sphdr := putl key ++ wire.take (i * 4), body := wire.drop (i * 4) } := by
  have huint : uint32Max = 2 ^ 32 - 1 := rfl
  have hlen : (wire.take (i * 4)).length = i * 4 := by
    rw [List.length_take]
    omega
  -- the header is made
  obtain ⟨heap₁, sphdr, hstore⟩ :
      ∃ heap₁ sphdr, heap.store (wire.take (i * 4)) = .ok (heap₁, sphdr) :=
    ChunkHeap.store_of_fits (Or.inr (fits_of_lt (by omega)))
  obtain ⟨hnew, hnext₁, hsame₁⟩ := ChunkHeap.store_spec hstore
  have hsphdr₁ := ChunkHeap.fresh_store hstore
  have hbody₁ : heap₁.Fresh wire ref := h.frame fun a ha => hsame₁ a (h.lt_next a ha)
  -- the body is trimmed
  obtain ⟨heap₂, body, htrim, hdrop, haddrs, hnext₂, hsame₂⟩ := hbody₁.trim hle hroom
  have hapart : ∀ a ∈ sphdr.addrs, a ∉ ref.addrs := by
    intro a ha ha'
    have hlt := h.lt_next a ha'
    have hge := (hnew a ha).2
    omega
  have hsphdr₂ : heap₂.Fresh (wire.take (i * 4)) sphdr :=
    hsphdr₁.frame fun a ha => hsame₂ a (hapart a ha)
  -- the key is put in front
  have hheaderfits : Fits (putl key ++ wire.take (i * 4)).length := by
    rw [List.length_append, length_putl]
    exact fits_of_lt (by omega)
  obtain ⟨heap₃, header, hstore₃⟩ :
      ∃ heap₃ header, heap₂.store (putl key ++ wire.take (i * 4)) = .ok (heap₃, header) :=
    ChunkHeap.store_of_fits (Or.inr hheaderfits)
  obtain ⟨hnew₃, -, hsame₃⟩ := ChunkHeap.store_spec hstore₃
  have hsphdr₃ : heap₃.Fresh (wire.take (i * 4)) sphdr :=
    hsphdr₂.frame fun a ha => hsame₃ a (hsphdr₂.lt_next a ha)
  obtain ⟨heap₄, hterm⟩ := hsphdr₃.term
  refine ⟨heap₄, { sphdr := header, body := body }, ?_, ?_⟩
  · simp only [splitBacktrace, h.bytes]
    rw [gridAssert_pos (show (heap.bytes (.small [])).length = 0 from rfl), ok_bind,
      show heap.term (.small []) = .ok heap from rfl, ok_bind, hstore, ok_bind]
    simp only
    rw [htrim, ok_bind]
    simp only [hsphdr₂.bytes]
    rw [hstore₃, ok_bind]
    simp only
    rw [hterm, ok_bind]
    rfl
  · have hheader : heap₄.bytes header = putl key ++ wire.take (i * 4) := by
      rw [← ChunkHeap.bytes_store hstore₃]
      apply ChunkHeap.bytes_congr
      intro a ha
      apply ChunkHeap.term_other hterm
      intro ha'
      have hlt := hsphdr₂.lt_next a ha'
      have hge := (hnew₃ a ha).2
      omega
    have hbody : heap₄.bytes body = wire.drop (i * 4) := by
      rw [← hdrop]
      apply ChunkHeap.bytes_congr
      intro a ha
      rw [haddrs] at ha
      have hlt := h.lt_next a ha
      rw [ChunkHeap.term_other hterm fun ha' => hapart a ha' ha, hsame₃ a (by omega)]
    rw [GridMsg.view, hheader, hbody]

/-- A long stack ends the process. -/
theorem splitBacktrace_error (h : heap.Fresh wire ref) (hle : i * 4 ≤ wire.length)
    (hlong : uint32Max ≤ i * 4) (hfits : Fits wire.length) (key : Nat) :
    splitBacktrace heap key i { body := ref } = .error .assertion := by
  have hlen : (wire.take (i * 4)).length ≤ wire.length := by
    rw [List.length_take]
    omega
  have hfits' : Fits (wire.take (i * 4)).length := Nat.le_trans (Nat.add_le_add_left hlen _) hfits
  obtain ⟨heap₁, sphdr, hstore⟩ :
      ∃ heap₁ sphdr, heap.store (wire.take (i * 4)) = .ok (heap₁, sphdr) :=
    ChunkHeap.store_of_fits (Or.inr hfits')
  obtain ⟨-, -, hsame₁⟩ := ChunkHeap.store_spec hstore
  have hbody₁ : heap₁.Fresh wire ref := h.frame fun a ha => hsame₁ a (h.lt_next a ha)
  simp only [splitBacktrace, h.bytes]
  rw [gridAssert_pos (show (heap.bytes (.small [])).length = 0 from rfl), ok_bind,
    show heap.term (.small []) = .ok heap from rfl, ok_bind, hstore, ok_bind]
  simp only
  rw [hbody₁.trim_error hle hlong, error_bind]

/-! ## Receiving -/

/-- What the protocol says of a message that arrived on a pipe.  It is accepted if its
backtrace stack has a bottom, with the stack behind the key of the pipe in its header and
the rest in its body, and dropped otherwise. -/
structure Received.Right (r : Received) (p key : Nat) (wire : List UInt8) : Prop where
  inside : ∀ off ∈ r.reads, off < wire.length
  accepted : (∃ k, BottomAt wire k) → ∃ k msg, FirstBottom wire k ∧ r.msg = some (p, msg) ∧
    msg.view r.heap =
      { sphdr := putl key ++ wire.take ((k + 1) * 4), body := wire.drop ((k + 1) * 4) }
  dropped : (¬∃ k, BottomAt wire k) → r.msg = none
  whole : ∀ q msg, r.msg = some (q, msg) → (msg.view r.heap).wire = putl key ++ wire

/-- The call returns, and what it returns is right. -/
def ReceivesRight (recv : Xrep → ChunkHeap → Except ParseFault Received) (x x' : Xrep)
    (heap : ChunkHeap) (p key : Nat) (wire : List UInt8) : Prop :=
  ∃ r, recv x heap = .ok r ∧ r.socket = x' ∧ r.Right p key wire

/-- The stack is shorter than 2^32 - 1 bytes or, where it has no bottom, the body is shorter
than 2^31 - 1 words. -/
def Parsable (wire : List UInt8) : Prop :=
  (∃ k, BottomAt wire k ∧ (k + 1) * 4 < uint32Max) ∨
    (∀ k, ¬BottomAt wire k) ∧ wire.length / 4 < scanMax

variable {x x' : Xrep} {p : Nat} {data : XrepData}

/-- A message with a stack that is not too long. -/
theorem recvBacktrace_accepts (heap : ChunkHeap) (hfq : x.fqRecv = .ok (x', some (p, wire)))
    (hp : x'.pipes p = some data) (hfits : Fits wire.length) {k : Nat}
    (hk : FirstBottom wire k) (hroom : (k + 1) * 4 < uint32Max) :
    ReceivesRight recvBacktrace x x' heap p data.key wire := by
  have huint : uint32Max = 2 ^ 32 - 1 := rfl
  have hmax : scanMax = 2 ^ 31 - 1 := rfl
  obtain ⟨heap₁, ref, hstore⟩ : ∃ heap₁ ref, heap.store wire = .ok (heap₁, ref) :=
    ChunkHeap.store_of_fits (Or.inr hfits)
  have hfresh := ChunkHeap.fresh_store hstore
  obtain ⟨heap₂, msg, hsplit, hview⟩ := splitBacktrace_spec hfresh hk.1.1 hroom data.key
  have hscan : (scan wire 0).1 = .bottom (k + 1) := by
    rw [← scan_found hk (by omega) (Nat.le_refl k), Nat.sub_self]
  have hdata : x'.getData p = .ok data := by simp only [Xrep.getData, hp]
  refine ⟨⟨x', heap₂, (scan wire 0).2 ++ List.range ((k + 1) * 4), some (p, msg)⟩, ?_, rfl, ?_⟩
  · simp only [recvBacktrace, hfq, liftParse, Except.mapError, ok_bind, hstore, hfresh.bytes,
      hscan, hdata, hsplit]
    rfl
  · refine ⟨?_, fun _ => ⟨k, msg, hk, rfl, hview⟩, fun hno => absurd ⟨k, hk.1⟩ hno, ?_⟩
    · intro off hoff
      rcases List.mem_append.mp hoff with hoff | hoff
      · exact scan_reads wire 0 off hoff
      · exact Nat.lt_of_lt_of_le (List.mem_range.mp hoff) hk.1.1
    · intro q msg' hmsg
      obtain ⟨-, rfl⟩ := Prod.mk.inj (Option.some.inj hmsg)
      rw [hview, Msg.wire, List.append_assoc, List.take_append_drop]

/-- A message without a stack. -/
theorem recvBacktrace_drops (heap : ChunkHeap) (hfq : x.fqRecv = .ok (x', some (p, wire)))
    (hfits : Fits wire.length) (hno : ∀ k, ¬BottomAt wire k) (hshort : wire.length / 4 < scanMax)
    (key : Nat) : ReceivesRight recvBacktrace x x' heap p key wire := by
  obtain ⟨heap₁, ref, hstore⟩ : ∃ heap₁ ref, heap.store wire = .ok (heap₁, ref) :=
    ChunkHeap.store_of_fits (Or.inr hfits)
  have hfresh := ChunkHeap.fresh_store hstore
  obtain ⟨heap₂, hterm⟩ := hfresh.term
  have hscan : (scan wire 0).1 = .malformed := by
    rw [← scan_ends hno hshort (Nat.le_refl _), Nat.sub_self]
  have hmsg : GridMsg.term { body := ref } heap₁ = .ok heap₂ := hterm
  refine ⟨⟨x', heap₂, (scan wire 0).2, none⟩, ?_, rfl, ?_⟩
  · simp only [recvBacktrace, hfq, liftParse, Except.mapError, ok_bind, hstore, hfresh.bytes,
      hscan, hmsg]
    rfl
  · refine ⟨scan_reads wire 0, ?_, fun _ => rfl, ?_⟩
    · rintro ⟨k, hk⟩
      exact absurd hk (hno k)
    · intro q msg hsome
      exact absurd hsome (by simp)

/-- A stack that is too long, or a body that is too long and has none, is not survived. -/
theorem recvBacktrace_fails (heap : ChunkHeap) (hfq : x.fqRecv = .ok (x', some (p, wire)))
    (hp : x'.pipes p = some data) (hfits : Fits wire.length) (hlong : ¬Parsable wire) :
    ∃ e, recvBacktrace x heap = .error e := by
  have huint : uint32Max = 2 ^ 32 - 1 := rfl
  have hmax : scanMax = 2 ^ 31 - 1 := rfl
  obtain ⟨heap₁, ref, hstore⟩ : ∃ heap₁ ref, heap.store wire = .ok (heap₁, ref) :=
    ChunkHeap.store_of_fits (Or.inr hfits)
  have hfresh := ChunkHeap.fresh_store hstore
  have hdata : x'.getData p = .ok data := by simp only [Xrep.getData, hp]
  have hoverflow : (scan wire 0).1 = .overflow → ∃ e, recvBacktrace x heap = .error e := by
    intro hscan
    refine ⟨.overflow, ?_⟩
    simp only [recvBacktrace, hfq, liftParse, Except.mapError, ok_bind, hstore, hfresh.bytes, hscan]
  by_cases hsome : ∃ k, BottomAt wire k
  · obtain ⟨k, hk⟩ := exists_firstBottom hsome
    have hlarge : uint32Max ≤ (k + 1) * 4 := by
      by_contra hlt
      exact hlong (Or.inl ⟨k, hk.1, by omega⟩)
    by_cases hkmax : k < scanMax
    · have hscan : (scan wire 0).1 = .bottom (k + 1) := by
        rw [← scan_found hk hkmax (Nat.le_refl k), Nat.sub_self]
      have hsplit := splitBacktrace_error hfresh hk.1.1 hlarge hfits data.key
      refine ⟨.abort .assertion, ?_⟩
      simp only [recvBacktrace, hfq, liftParse, Except.mapError, ok_bind, hstore, hfresh.bytes,
        hscan, hdata, hsplit]
      rfl
    · have hin := hk.1.1
      apply hoverflow
      rw [← scan_overflows (fun j hj => hk.2 j (by omega)) (by omega) (Nat.le_refl scanMax),
        Nat.sub_self]
  · have hno : ∀ k, ¬BottomAt wire k := fun k hk => hsome ⟨k, hk⟩
    have hlen : scanMax ≤ wire.length / 4 := by
      by_contra hlt
      exact hlong (Or.inr ⟨hno, by omega⟩)
    apply hoverflow
    rw [← scan_overflows (fun j _ => hno j) hlen (Nat.le_refl scanMax), Nat.sub_self]

theorem recvBacktrace_iff (heap : ChunkHeap) (hfq : x.fqRecv = .ok (x', some (p, wire)))
    (hp : x'.pipes p = some data) (hfits : Fits wire.length) :
    ReceivesRight recvBacktrace x x' heap p data.key wire ↔ Parsable wire := by
  constructor
  · rintro ⟨r, hrecv, -⟩
    by_contra hlong
    obtain ⟨e, he⟩ := recvBacktrace_fails heap hfq hp hfits hlong
    exact absurd (hrecv.symm.trans he) (by simp)
  · rintro (⟨j, hj, hroom⟩ | ⟨hno, hshort⟩)
    · obtain ⟨k, hk⟩ := exists_firstBottom ⟨j, hj⟩
      have hle := hk.le hj
      exact recvBacktrace_accepts heap hfq hp hfits hk (by omega)
    · exact recvBacktrace_drops heap hfq hfits hno hshort data.key

/-! ## The socket that sees the bytes -/

theorem bottomAt_zero {b0 b1 b2 b3 : UInt8} {rest : List UInt8} :
    BottomAt (b0 :: b1 :: b2 :: b3 :: rest) 0 ↔ topBit (getl [b0, b1, b2, b3]) = true := by
  refine ⟨fun h => h.2, fun h => ⟨?_, h⟩⟩
  simp only [List.length_cons]
  omega

theorem bottomAt_succ {b0 b1 b2 b3 : UInt8} {rest : List UInt8} {k : Nat} :
    BottomAt (b0 :: b1 :: b2 :: b3 :: rest) (k + 1) ↔ BottomAt rest k := by
  have hdrop : (b0 :: b1 :: b2 :: b3 :: rest).drop ((k + 1) * 4) = rest.drop (k * 4) := by
    rw [Nat.add_mul]
    rfl
  have hlen : (b0 :: b1 :: b2 :: b3 :: rest).length = rest.length + 4 := rfl
  rw [BottomAt, BottomAt, hdrop, hlen]
  refine and_congr_left fun _ => ?_
  omega

/-- The words of the stack, as they were counted without the counter. -/
theorem stackWords_firstBottom (wire : List UInt8) :
    (∀ k, FirstBottom wire k → stackWords wire = some (k + 1)) ∧
      ((∀ k, ¬BottomAt wire k) → stackWords wire = none) := by
  induction wire using stackWords.induct with
  | case1 b0 b1 b2 b3 rest htop =>
      have hzero : BottomAt (b0 :: b1 :: b2 :: b3 :: rest) 0 := bottomAt_zero.mpr htop
      refine ⟨?_, fun hno => absurd hzero (hno 0)⟩
      intro k hk
      obtain rfl : k = 0 := Nat.le_zero.mp (hk.le hzero)
      rw [stackWords, if_pos htop]
  | case2 b0 b1 b2 b3 rest htop ih =>
      rw [stackWords, if_neg htop]
      constructor
      · intro k hk
        cases k with
        | zero => exact absurd (bottomAt_zero.mp hk.1) htop
        | succ k =>
            have hrest : FirstBottom rest k := by
              refine ⟨bottomAt_succ.mp hk.1, ?_⟩
              intro j hj hbottom
              exact hk.2 (j + 1) (by omega) (bottomAt_succ.mpr hbottom)
            rw [ih.1 k hrest]
            rfl
      · intro hno
        rw [ih.2 fun k hk => hno (k + 1) (bottomAt_succ.mpr hk)]
        rfl
  | case3 wire hshort =>
      have hnone : stackWords wire = none := by
        unfold stackWords
        split
        · exact absurd rfl (hshort _ _ _ _ _)
        · rfl
      refine ⟨?_, fun _ => hnone⟩
      intro k hk
      have hlen := hk.1.1
      rcases wire with _ | ⟨b0, _ | ⟨b1, _ | ⟨b2, _ | ⟨b3, rest⟩⟩⟩⟩
      · simp at hlen
      · simp at hlen; omega
      · simp at hlen; omega
      · simp at hlen; omega
      · exact absurd rfl (hshort b0 b1 b2 b3 rest)

/-- The socket does to the references what `Xrep.recv` says of the bytes. -/
theorem recvBacktrace_refines (heap : ChunkHeap) (hfq : x.fqRecv = .ok (x', some (p, wire)))
    (hp : x'.pipes p = some data) (hfits : Fits wire.length) (hparse : Parsable wire) :
    ∃ r, recvBacktrace x heap = .ok r ∧
      x.recv = .ok (r.socket, r.msg.map fun m => (m.1, wire, m.2.view r.heap)) := by
  obtain ⟨r, hrecv, hsocket, hright⟩ := (recvBacktrace_iff heap hfq hp hfits).mpr hparse
  refine ⟨r, hrecv, ?_⟩
  by_cases hsome : ∃ k, BottomAt wire k
  · obtain ⟨k, msg, hk, hmsg, hview⟩ := hright.accepted hsome
    have hsplit : xrepSplit wire =
        some { sphdr := wire.take ((k + 1) * 4), body := wire.drop ((k + 1) * 4) } := by
      rw [xrepSplit, (stackWords_firstBottom wire).1 k hk]
      rfl
    rw [hsocket, hmsg, Xrep.recv_of_fqRecv hfq hsplit hp]
    simp only [Option.map_some, hview]
  · have hnone : xrepSplit wire = none := by
      rw [xrepSplit, (stackWords_firstBottom wire).2 fun k hk => hsome ⟨k, hk⟩]
      rfl
    rw [hsocket, hright.dropped hsome]
    simp only [Xrep.recv, hfq, ok_bind, hnone, pure_eq_ok, Option.map_none]

/-! ## Both sockets -/

/-- The two sockets receive what arrived as the protocol says exactly if the stack, or the
body without one, is not too long. -/
theorem receives_right_iff (heap : ChunkHeap) (hfq : x.fqRecv = .ok (x', some (p, wire)))
    (hp : x.pipes p = some data) (hfits : Fits wire.length) :
    ReceivesRight xrepRecv x x' heap p data.key wire ∧
      ReceivesRight xrespondentRecv x x' heap p data.key wire ↔ Parsable wire := by
  obtain ⟨data₁, data', hdata₁, hp', hkey⟩ := Xrep.fqRecv_some hfq
  obtain rfl := Option.some.inj (hp.symm.trans hdata₁)
  have hiff := recvBacktrace_iff heap hfq hp' hfits
  rw [hkey] at hiff
  exact ⟨fun h => hiff.mp h.1, fun h => ⟨hiff.mpr h, hiff.mpr h⟩⟩

/-- A socket with one pipe, on which a message has arrived. -/
def arrived (wire : List UInt8) : Except Abort Xrep := do
  let x ← (Xrep.init 5).add 0 8 8
  let r ← x.receivedMsg 0 wire
  r.1.xrepIn 0

theorem arrived_fqRecv (wire : List UInt8) : ∃ x x' data, arrived wire = .ok x ∧
    x.fqRecv = .ok (x', some (0, wire)) ∧ x.pipes 0 = some data :=
  ⟨_, _, _, rfl, rfl, rfl⟩

theorem receives_right_request : ∃ x x' : Xrep, ∃ data : XrepData,
    x.fqRecv = .ok (x', some (0, putl 7 ++ putl (setTopBit 1) ++ [97])) ∧
      (ReceivesRight xrepRecv x x' {} 0 data.key (putl 7 ++ putl (setTopBit 1) ++ [97]) ∧
        ReceivesRight xrespondentRecv x x' {} 0 data.key
          (putl 7 ++ putl (setTopBit 1) ++ [97])) := by
  obtain ⟨x, x', data, -, hfq, hp⟩ := arrived_fqRecv (putl 7 ++ putl (setTopBit 1) ++ [97])
  exact ⟨x, x', data, hfq, (receives_right_iff {} hfq hp (by decide)).mpr
    (Or.inl ⟨1, by decide, by decide⟩)⟩

/-- A body of 2^30 words, the bottom of the stack in the last of them. -/
def longStack : List UInt8 := List.replicate (2 ^ 32 - 4) 0 ++ [0x80, 0, 0, 0]

/-- Words that are zero are not the bottom. -/
theorem bottomAt_zeros (n : Nat) (rest : List UInt8) :
    (∀ k, k < n → ¬BottomAt (List.replicate (n * 4) 0 ++ rest) k) ∧
      ∀ k, BottomAt (List.replicate (n * 4) 0 ++ rest) (n + k) ↔ BottomAt rest k := by
  induction n with
  | zero =>
      refine ⟨fun k hk => absurd hk (by omega), fun k => ?_⟩
      rw [Nat.zero_mul, List.replicate_zero, List.nil_append, Nat.zero_add]
  | succ n ih =>
      have hcons : List.replicate ((n + 1) * 4) (0 : UInt8) ++ rest =
          0 :: 0 :: 0 :: 0 :: (List.replicate (n * 4) 0 ++ rest) := by
        rw [Nat.add_mul]
        rfl
      rw [hcons]
      refine ⟨?_, fun k => ?_⟩
      · intro k hk
        cases k with
        | zero => exact fun h => absurd (bottomAt_zero.mp h) (by decide)
        | succ k => exact fun h => ih.1 k (by omega) (bottomAt_succ.mp h)
      · rw [show n + 1 + k = n + k + 1 by omega, bottomAt_succ]
        exact ih.2 k

theorem not_parsable_longStack : ¬Parsable longStack := by
  have huint : uint32Max = 2 ^ 32 - 1 := rfl
  obtain ⟨hzeros, hlast⟩ := bottomAt_zeros (2 ^ 30 - 1) [0x80, 0, 0, 0]
  have heq : longStack = List.replicate ((2 ^ 30 - 1) * 4) 0 ++ [0x80, 0, 0, 0] := rfl
  rw [← heq] at hzeros hlast
  rintro (⟨k, hk, hroom⟩ | ⟨hno, -⟩)
  · exact hzeros k (by omega) hk
  · exact hno (2 ^ 30 - 1 + 0) ((hlast 0).mpr (by decide))

theorem not_receives_right : ¬∀ (x x' : Xrep) (heap : ChunkHeap) (p : Nat) (data : XrepData)
    (wire : List UInt8), x.fqRecv = .ok (x', some (p, wire)) → x.pipes p = some data →
    Fits wire.length → ReceivesRight xrepRecv x x' heap p data.key wire ∧
      ReceivesRight xrespondentRecv x x' heap p data.key wire := by
  intro hall
  obtain ⟨x, x', data, -, hfq, hp⟩ := arrived_fqRecv longStack
  have hfits : Fits longStack.length := by
    rw [longStack, List.length_append, List.length_replicate]
    exact fits_of_lt (by decide)
  obtain ⟨data₁, data', hdata₁, hp', -⟩ := Xrep.fqRecv_some hfq
  obtain ⟨e, he⟩ := recvBacktrace_fails {} hfq hp' hfits not_parsable_longStack
  obtain ⟨⟨r, hrecv, -⟩, -⟩ := hall x x' {} 0 data longStack hfq hp hfits
  exact absurd (hrecv.symm.trans he) (by simp)

end GridMq.ReqRep
