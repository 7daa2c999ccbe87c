import GridMq.Core.Assemble
import GridMq.Core.Recvmsg

set_option autoImplicit false

/-!
# The buffers of a call (`grid_sendmsg` and `grid_recvmsg` in `src/core/global.c`)

What is gathered from the buffers of a send and scattered to those of a receive, and which
buffers make a receive fail after it has taken a message.
-/

namespace GridMq.Core

/-- `GRID_MSG`, as a length. -/
def gridMsgLen : Nat := 2 ^ 64 - 1

/-- `INT_MAX`. -/
def intMax : Nat := 2 ^ 31 - 1

namespace Iovec

/-- `iov_len`. -/
def len : Iovec → Nat
  | .gridMsg _ => gridMsgLen
  | .null len => len
  | .buffer base => base.length

/-- The memory of a buffer. -/
def bytes : Iovec → List UInt8
  | .buffer base => base
  | _ => []

/-- A buffer of the caller, or none where nothing has to be in it. -/
def Plain : Iovec → Prop
  | .gridMsg _ => False
  | .null len => len = 0
  | .buffer base => base.length < gridMsgLen

instance : DecidablePred Plain := fun iov =>
  match iov with
  | .gridMsg _ => inferInstanceAs (Decidable False)
  | .null len => inferInstanceAs (Decidable (len = 0))
  | .buffer base => inferInstanceAs (Decidable (base.length < gridMsgLen))

end Iovec

/-- The buffers before a `GRID_MSG` have no room for more than a body of some size. -/
def Reached (iov : List Iovec) (size : Nat) : Prop :=
  ∃ before chunk after, iov = before ++ .gridMsg chunk :: after ∧
    (before.map Iovec.len).sum ≤ size

/-- A list of buffers with a `GRID_MSG` that is not the only one and that a body of some size
comes to. -/
def Misplaced (iov : List Iovec) (size : Nat) : Prop := iov.length ≠ 1 ∧ Reached iov size

theorem not_reached_nil {size : Nat} : ¬Reached [] size := by
  rintro ⟨before, chunk, after, heq, -⟩
  exact absurd heq (by simp)

theorem reached_gridMsg (chunk : Option Nat) (rest : List Iovec) (size : Nat) :
    Reached (.gridMsg chunk :: rest) size :=
  ⟨[], chunk, rest, rfl, Nat.zero_le _⟩

theorem reached_cons {iov : Iovec} {rest : List Iovec} {size : Nat}
    (hbuf : ∀ chunk, iov ≠ .gridMsg chunk) :
    Reached (iov :: rest) size ↔ iov.len ≤ size ∧ Reached rest (size - iov.len) := by
  constructor
  · rintro ⟨before, chunk, after, heq, hsum⟩
    cases before with
    | nil => exact absurd (List.cons.inj heq).1 (hbuf chunk)
    | cons first before =>
        obtain ⟨rfl, hrest⟩ := List.cons.inj heq
        rw [List.map_cons, List.sum_cons] at hsum
        exact ⟨by omega, before, chunk, after, hrest, by omega⟩
  · rintro ⟨hlen, before, chunk, after, heq, hsum⟩
    refine ⟨iov :: before, chunk, after, by rw [heq, List.cons_append], ?_⟩
    rw [List.map_cons, List.sum_cons]
    omega

/-! ## Receiving into buffers -/

/-- The loop that copies the body stops at a `GRID_MSG` exactly if it comes to one. -/
theorem fill_refused {iov : List Iovec} :
    ∀ {data : List UInt8} {r : List Iovec × Bool}, fill iov data = .ok r →
      (r.2 = false ↔ Reached iov data.length) := by
  induction iov with
  | nil =>
      intro data r h
      obtain rfl := Except.ok.inj h
      exact iff_of_false (by simp) not_reached_nil
  | cons iov rest ih =>
      intro data r h
      cases iov with
      | gridMsg chunk =>
          obtain rfl := Except.ok.inj h
          exact iff_of_true rfl (reached_gridMsg chunk rest _)
      | null len =>
          rw [reached_cons (by simp), Iovec.len]
          rw [fill] at h
          split at h
          · exact absurd h (by simp)
          · split at h
            · rename_i hlong
              obtain rfl := Except.ok.inj h
              exact iff_of_false (by simp) (fun hr => absurd hr.1 (Nat.not_le.mpr hlong))
            · rename_i hshort
              obtain ⟨r', hfill, hr⟩ := bind_eq_ok_iff.mp h
              obtain rfl := Except.ok.inj hr
              have hrest := ih hfill
              rw [List.length_drop] at hrest
              rw [hrest]
              exact ⟨fun hr => ⟨Nat.not_lt.mp hshort, hr⟩, fun hr => hr.2⟩
      | buffer base =>
          rw [reached_cons (by simp), Iovec.len]
          rw [fill] at h
          split at h
          · rename_i hlong
            obtain rfl := Except.ok.inj h
            exact iff_of_false (by simp) (fun hr => absurd hr.1 (Nat.not_le.mpr hlong))
          · rename_i hshort
            obtain ⟨r', hfill, hr⟩ := bind_eq_ok_iff.mp h
            obtain rfl := Except.ok.inj hr
            have hrest := ih hfill
            rw [List.length_drop] at hrest
            rw [hrest]
            exact ⟨fun hr => ⟨Nat.not_lt.mp hshort, hr⟩, fun hr => hr.2⟩

/-- What was received can be allocated. -/
theorem fits_bytes {heap : ChunkHeap} {ref : Chunkref}
    (hshort : ∀ data, ref = .small data → data.length < chunkrefMax) :
    Fits (heap.bytes ref).length := by
  cases ref with
  | small data =>
      have hsmall : data.length < chunkrefMax := hshort data rfl
      exact Nat.le_trans (Nat.add_le_add_left (Nat.le_of_lt hsmall) _) (by decide)
  | chunk addr =>
      rw [ChunkHeap.bytes]
      cases heap.chunks addr with
      | none =>
          have hempty : Fits 0 := by decide
          exact hempty
      | some chunk => exact chunk.fits

namespace Handed

theorem fits_body (self : Handed) : Fits self.body.length :=
  fits_bytes fun _ h => self.short _ (by simp [← h])

end Handed

/-- The body is refused exactly if there is a misplaced `GRID_MSG`. -/
theorem recvBody_refused {heap : ChunkHeap} {msg : GridMsg} {iov : List Iovec} {b : BodyRecv}
    (h : recvBody heap msg iov = .ok b) :
    b.size = none ↔ Misplaced iov (heap.bytes msg.body).length := by
  unfold recvBody at h
  split at h
  · obtain ⟨r, -, h⟩ := bind_eq_ok_iff.mp h
    obtain ⟨chunk, -, h⟩ := bind_eq_ok_iff.mp h
    obtain rfl := Except.ok.inj h
    exact iff_of_false (by simp) (fun hm => hm.1 rfl)
  · rename_i hmany
    obtain ⟨r, hfill, h⟩ := bind_eq_ok_iff.mp h
    obtain rfl := Except.ok.inj h
    have hrefused := fill_refused hfill
    have hlen : Reached iov (heap.bytes msg.body).length → iov.length ≠ 1 := by
      intro hr hone
      obtain ⟨x, rfl⟩ := List.length_eq_one_iff.mp hone
      cases x with
      | gridMsg chunk => exact hmany chunk rfl
      | null len => exact not_reached_nil ((reached_cons (by simp)).mp hr).2
      | buffer base => exact not_reached_nil ((reached_cons (by simp)).mp hr).2
    rw [Misplaced, ← hrefused]
    cases hok : r.2 with
    | true => simp
    | false =>
        simp only [Bool.false_eq_true, if_false, true_iff]
        exact ⟨hlen (hrefused.mp hok), trivial⟩

/-- A message without its body has no more references. -/
theorem count_without_body (msg : GridMsg) (a : Nat) :
    ({ msg with body := .small [] } : GridMsg).addrs.count a ≤ msg.addrs.count a := by
  refine List.Sublist.count_le a ?_
  exact (List.Sublist.refl (msg.sphdr.addrs ++ msg.hdrs.addrs)).append (List.nil_sublist _)

/-- The body that is given away as it is, and what is left of the message. -/
theorem recvBody_single (m : Handed) (chunk : Option Nat) :
    ∃ b, recvBody m.heap m.msg [.gridMsg chunk] = .ok b ∧ b.size = some m.body.length ∧
      b.msg = { m.msg with body := .small [] } ∧ Extends m.heap b.heap ∧
      ∀ a, b.msg.addrs.count a ≤ b.heap.count a := by
  have hcounted := fun a => (count_without_body m.msg a).trans (m.counted a)
  cases hbody : m.msg.body with
  | small data =>
      have hfits : Fits data.length := by
        have hsize := m.fits_body
        rwa [Handed.body, hbody] at hsize
      refine ⟨⟨m.heap.alloc data hfits, { m.msg with body := .small [] },
        [.gridMsg (some m.heap.next)], some data.length⟩, ?_, ?_, rfl, extends_alloc data hfits, ?_⟩
      · have hnew : (m.heap.alloc data hfits).getptr m.heap.next =
            .ok { refcount := 1, data := data, fits := hfits } :=
          ChunkHeap.getptr_some (by rw [ChunkHeap.alloc_chunks, if_pos rfl])
        rw [recvBody, hbody, ChunkHeap.getchunk, dif_pos hfits, ok_bind, hnew]
        rfl
      · rw [Handed.body, hbody]
        rfl
      · intro a
        have hgrows : m.heap.count a ≤ (m.heap.alloc data hfits).count a := by
          rw [ChunkHeap.count, ChunkHeap.count, ChunkHeap.alloc_chunks]
          by_cases ha : a = m.heap.next
          · rw [ha, m.heap.fresh _ (Nat.le_refl _)]
            exact Nat.zero_le _
          · rw [if_neg ha]
        exact (hcounted a).trans hgrows
  | chunk addr =>
      have hone : 0 < m.heap.count addr := by
        have hle := m.counted addr
        rw [GridMsg.addrs, List.count_append, hbody, Chunkref.addrs,
          List.count_singleton_self] at hle
        omega
      cases hchunk : m.heap.chunks addr with
      | none => exact absurd hone (by simp [ChunkHeap.count, hchunk])
      | some c =>
          refine ⟨⟨m.heap, { m.msg with body := .small [] }, [.gridMsg (some addr)],
            some c.data.length⟩, ?_, ?_, rfl, .refl m.heap, hcounted⟩
          · rw [recvBody, hbody, ChunkHeap.getchunk, ok_bind, ChunkHeap.getptr_some hchunk]
            rfl
          · rw [Handed.body, hbody, ChunkHeap.bytes, hchunk]
            rfl

/-- The size that is returned is that of the body. -/
theorem recvBody_size {m : Handed} {iov : List Iovec} {b : BodyRecv} {sz : Nat}
    (h : recvBody m.heap m.msg iov = .ok b) (hsize : b.size = some sz) :
    sz = m.body.length := by
  by_cases hone : ∃ chunk, iov = [.gridMsg chunk]
  · obtain ⟨chunk, rfl⟩ := hone
    obtain ⟨b', hbody, hsize', -⟩ := recvBody_single m chunk
    obtain rfl := Except.ok.inj (h.symm.trans hbody)
    exact Option.some.inj (hsize.symm.trans hsize')
  · unfold recvBody at h
    split at h
    · exact absurd ⟨_, rfl⟩ hone
    · obtain ⟨r, -, h⟩ := bind_eq_ok_iff.mp h
      obtain rfl := Except.ok.inj h
      cases hok : r.2 with
      | true =>
          rw [hok, if_pos rfl] at hsize
          exact (Option.some.inj hsize).symm
      | false => simp [hok] at hsize

/-- The sizes that `(int) sz` makes the value of a call that has failed. -/
theorem intOf_eq_neg_one {sz : Nat} : intOf sz = -1 ↔ sz % 2 ^ 32 = 2 ^ 32 - 1 := by
  rw [intOf, BitVec.toInt_eq_toNat_cond, BitVec.toNat_ofNat]
  omega

/-- A message that the buffers refuse, or whose size makes `(int) sz` the value of a call that
has failed. -/
def Lost (iov : List Iovec) (size : Nat) : Prop :=
  Misplaced iov size ∨ size % 2 ^ 32 = 2 ^ 32 - 1

/-- What becomes of a message that was received: the call returns -1 exactly where it is lost. -/
theorem deliver_value {garbage : Nat → UInt8} {hdr : Msghdr} {iov : List Iovec} {m : Handed}
    {o : RecvOutcome} (h : deliver garbage hdr iov m = .ok o) :
    o.value = some (-1) ↔ Lost iov m.body.length := by
  obtain ⟨b, hbody, h⟩ := bind_eq_ok_iff.mp h
  have hrefused := recvBody_refused hbody
  rw [← Handed.body] at hrefused
  split at h
  · rename_i hnone
    obtain ⟨heap, -, h⟩ := bind_eq_ok_iff.mp h
    obtain rfl := Except.ok.inj h
    exact iff_of_true rfl (Or.inl (hrefused.mp hnone))
  · rename_i sz hsome
    obtain ⟨c, -, h⟩ := bind_eq_ok_iff.mp h
    obtain ⟨heap, -, h⟩ := bind_eq_ok_iff.mp h
    obtain rfl := Except.ok.inj h
    have hplaced : ¬ Misplaced iov m.body.length := fun hmis => by
      rw [hrefused.mpr hmis] at hsome
      exact absurd hsome (by simp)
    rw [RecvOutcome.value, Option.some.injEq, Lost, or_iff_right hplaced,
      ← recvBody_size hbody hsome]
    exact intOf_eq_neg_one

/-- A call that returns -1 has taken no message from the socket. -/
def RecvCall.Keeps (self : RecvCall) : Prop :=
  self.outcome.value = some (-1) → self.taken = none

section Calls

variable {T : RecvType} {hold : Option RecvErrno} {msghdr : Option Msghdr} {dontwait : Bool}
  {garbage : Nat → UInt8} {turn : RecvTurn T} {later : List (WaitResult × RecvTurn T)}
  {call : RecvCall}

/-- A call that has taken a message is one whose arguments were checked; the message is the one
that the socket has, and the call ends as its buffers let it. -/
theorem taken_spec {m : Handed}
    (h : recvmsg T hold msghdr dontwait garbage turn later = .ok call)
    (ht : call.taken = some m) :
    ∃ hdr iov, hold = none ∧ msghdr = some hdr ∧ hdr.iov = some iov ∧
      sockRecv T dontwait turn later = .ok (.message m) ∧
      deliver garbage hdr iov m = .ok call.outcome := by
  unfold recvmsg at h
  split at h
  · obtain rfl := Except.ok.inj h
    exact absurd ht (by simp)
  · split at h
    · obtain rfl := Except.ok.inj h
      exact absurd ht (by simp)
    · rename_i hdr
      split at h
      · obtain rfl := Except.ok.inj h
        exact absurd ht (by simp)
      · rename_i iov hiov
        obtain ⟨s, hrecv, h⟩ := bind_eq_ok_iff.mp h
        cases s with
        | failed e =>
            obtain rfl := Except.ok.inj h
            exact absurd ht (by simp)
        | waiting =>
            obtain rfl := Except.ok.inj h
            exact absurd ht (by simp)
        | message m' =>
            obtain ⟨o, hdeliver, h⟩ := bind_eq_ok_iff.mp h
            obtain rfl := Except.ok.inj h
            obtain rfl := Option.some.inj ht
            exact ⟨hdr, iov, rfl, rfl, hiov, hrecv, hdeliver⟩

/-- With arguments that are checked, a call does with a message of the socket what its buffers
let it. -/
theorem recvmsg_message {hdr : Msghdr} {iov : List Iovec} {m : Handed} (hiov : hdr.iov = some iov)
    (hrecv : sockRecv T dontwait turn later = .ok (.message m)) :
    recvmsg T none (some hdr) dontwait garbage turn later =
      (deliver garbage hdr iov m).map fun outcome => { taken := some m, outcome := outcome } := by
  simp only [recvmsg, hiov, hrecv, ok_bind]
  cases deliver garbage hdr iov m with
  | ok o => rfl
  | error e => rfl

/-- A receive that fails loses the message exactly if the buffers have a misplaced `GRID_MSG` or
the size of the body is one that `(int) sz` makes -1. -/
theorem keeps_iff (h : recvmsg T hold msghdr dontwait garbage turn later = .ok call) :
    call.Keeps ↔ ∀ hdr iov m, hold = none → msghdr = some hdr → hdr.iov = some iov →
      sockRecv T dontwait turn later = .ok (.message m) → ¬Lost iov m.body.length := by
  constructor
  · intro hkeeps hdr iov m hhold hhdr hiov hrecv hlost
    rw [hhold, hhdr, recvmsg_message hiov hrecv] at h
    cases hdeliver : deliver garbage hdr iov m with
    | error e => exact absurd (hdeliver ▸ h) (by simp [Except.map])
    | ok o =>
        rw [hdeliver] at h
        obtain rfl := Except.ok.inj h
        exact absurd (hkeeps ((deliver_value hdeliver).mpr hlost)) (by simp)
  · intro hbuf hfailed
    cases ht : call.taken with
    | none => rfl
    | some m =>
        obtain ⟨hdr, iov, hhold, hhdr, hiov, hrecv, hdeliver⟩ := taken_spec h ht
        have hlost := (deliver_value hdeliver).mp hfailed
        exact absurd hlost (hbuf hdr iov m hhold hhdr hiov hrecv)

end Calls

/-- A message of three bytes. -/
def threeBytes : Handed where
  heap := {}
  msg := { body := .small [1, 2, 3] }
  counted := by simp [GridMsg.addrs, Chunkref.addrs]
  short := by simp [chunkrefMax]

/-- A socket type that has one message for every call. -/
def oneMessage (m : Handed) : RecvType where
  State := Unit
  norecv := false
  recv _ := .ok (.ok m)

/-- Room for two bytes of it, and `GRID_MSG`. -/
def twoAndMsg : Msghdr := { iov := some [.buffer [0, 0], .gridMsg none] }

theorem keeps_iff_twoAndMsg :
    (RecvCall.mk (some threeBytes) (.failed .einval)).Keeps ↔
      ∀ hdr iov m, (none : Option RecvErrno) = none → some twoAndMsg = some hdr →
        hdr.iov = some iov →
        sockRecv (oneMessage threeBytes) true ⟨.active, ()⟩ [] = .ok (.message m) →
          ¬Lost iov m.body.length :=
  @keeps_iff (oneMessage threeBytes) none (some twoAndMsg) true (fun _ => 0) ⟨.active, ()⟩ []
    { taken := some threeBytes, outcome := .failed .einval } rfl

/-- The message is taken from the socket, and the call fails. -/
theorem not_keeps :
    ¬∀ (T : RecvType) (hold : Option RecvErrno) (msghdr : Option Msghdr) (dontwait : Bool)
      (garbage : Nat → UInt8) (turn : RecvTurn T) (later : List (WaitResult × RecvTurn T))
      (call : RecvCall),
      recvmsg T hold msghdr dontwait garbage turn later = .ok call → call.Keeps := by
  intro hall
  have hkeeps := hall (oneMessage threeBytes) none (some twoAndMsg) true (fun _ => 0) ⟨.active, ()⟩ []
    { taken := some threeBytes, outcome := .failed .einval } rfl
  exact absurd (hkeeps rfl) (by simp)

/-! ## Sending from buffers -/

end GridMq.Core
