import GridMq.Core.Sendmsg

set_option autoImplicit false

/-!
# The message of a call (`grid_sendmsg` in `src/core/global.c`)

What the message is made of before it is given to the socket: where its chunks come from, and
which bytes are in its three parts.
-/

namespace GridMq.Core

variable {heap heap' : ChunkHeap}

theorem liftAbort_eq_ok {α : Type} {x : Except Abort α} {a : α} (h : liftAbort x = .ok a) :
    x = .ok a := by
  cases x with
  | error e => exact absurd h (by simp [liftAbort, Except.mapError])
  | ok b => exact congrArg Except.ok (Except.ok.inj h)

/-! ## Where its chunks come from -/

/-- The reference is to a chunk that was allocated since. -/
def Since (heap : ChunkHeap) (ref : Chunkref) : Prop := ∀ a ∈ ref.addrs, heap.next ≤ a

/-- The reference is to the chunk of the caller, or to one that was allocated since. -/
def From (heap : ChunkHeap) (own : Option Nat) (ref : Chunkref) : Prop :=
  match own with
  | some a => ref = .chunk a
  | none => Since heap ref

/-- The chunks that were there are as they were. -/
structure Extends (heap heap' : ChunkHeap) : Prop where
  next : heap.next ≤ heap'.next
  same : ∀ a, a < heap.next → heap'.chunks a = heap.chunks a

theorem Extends.refl (heap : ChunkHeap) : Extends heap heap := ⟨Nat.le_refl _, fun _ _ => rfl⟩

theorem Extends.trans {heap₁ heap₂ heap₃ : ChunkHeap} (h : Extends heap₁ heap₂)
    (h' : Extends heap₂ heap₃) : Extends heap₁ heap₃ where
  next := Nat.le_trans h.next h'.next
  same a ha := (h'.same a (Nat.lt_of_lt_of_le ha h.next)).trans (h.same a ha)

theorem since_small (heap : ChunkHeap) (data : List UInt8) : Since heap (.small data) :=
  fun _ ha => absurd ha List.not_mem_nil

theorem Since.mono {ref : Chunkref} (h : Since heap' ref) (hext : Extends heap heap') :
    Since heap ref := fun a ha => Nat.le_trans hext.next (h a ha)

theorem From.mono {own : Option Nat} {ref : Chunkref} (h : From heap' own ref)
    (hext : Extends heap heap') : From heap own ref := by
  cases own with
  | some a => exact h
  | none => exact Since.mono h hext

/-- A reference of the message is to a chunk of the caller only where it was put there. -/
theorem From.notMem {own : Option Nat} {ref : Chunkref} (h : From heap own ref) {a : Nat}
    (ha : a < heap.next) (hne : own ≠ some a) : a ∉ ref.addrs := by
  intro hmem
  cases own with
  | some b =>
      rw [show ref = .chunk b from h] at hmem
      exact hne (congrArg some (List.mem_singleton.mp hmem).symm)
  | none => exact absurd (h a hmem) (Nat.not_le.mpr ha)

/-- A new chunk changes none of the others. -/
theorem extends_alloc (data : List UInt8) (fits : Fits data.length) :
    Extends heap (heap.alloc data fits) where
  next := Nat.le_succ _
  same _ ha := if_neg (Nat.ne_of_lt ha)

theorem extends_of_store {data : List UInt8} {ref : Chunkref}
    (h : heap.store data = .ok (heap', ref)) : Extends heap heap' ∧ Since heap ref := by
  obtain ⟨hnew, hnext, hsame⟩ := ChunkHeap.store_spec h
  exact ⟨⟨hnext, hsame⟩, fun a ha => (hnew a ha).2⟩

/-- The body is the chunk of the caller, or was allocated since. -/
theorem initBody_spec {src : MsgBody} {ref : Chunkref}
    (h : initBody heap src = .ok (heap', ref)) :
    Extends heap heap' ∧ From heap src.own ref := by
  cases src with
  | chunk addr =>
      obtain ⟨chunk, -, hret⟩ := bind_eq_ok_iff.mp h
      obtain ⟨rfl, rfl⟩ := Prod.mk.inj (Except.ok.inj hret)
      exact ⟨.refl heap, rfl⟩
  | scatter bytes => exact extends_of_store h

/-- So are the ancillary data. -/
theorem initHdrs_spec {control : MsgControl} {ref : Chunkref} {data : Control}
    (h : initHdrs heap control = .ok (heap', ref, data)) :
    Extends heap heap' ∧ From heap control.own ref := by
  cases control with
  | null =>
      obtain ⟨rfl, hrest⟩ := Prod.mk.inj (Except.ok.inj h)
      obtain ⟨rfl, -⟩ := Prod.mk.inj hrest
      exact ⟨.refl heap, since_small heap []⟩
  | gridMsg addr =>
      cases addr with
      | none => exact absurd h (by simp [initHdrs])
      | some addr =>
          obtain ⟨chunk, -, hret⟩ := bind_eq_ok_iff.mp h
          obtain ⟨rfl, hrest⟩ := Prod.mk.inj (Except.ok.inj hret)
          obtain ⟨rfl, -⟩ := Prod.mk.inj hrest
          exact ⟨.refl heap, rfl⟩
  | buffer data' =>
      obtain ⟨⟨heap₁, ref₁⟩, hstore, hret⟩ := bind_eq_ok_iff.mp h
      obtain ⟨rfl, hrest⟩ := Prod.mk.inj (Except.ok.inj hret)
      obtain ⟨rfl, -⟩ := Prod.mk.inj hrest
      exact extends_of_store hstore

/-- The message that is sent, and where its chunks come from. -/
structure Assembled (heap heap' : ChunkHeap) (hdr : Msghdr) (src : MsgBody) (msg : GridMsg) :
    Prop where
  extend : Extends heap heap'
  sphdr : Since heap msg.sphdr
  hdrs : From heap hdr.control.own msg.hdrs
  body : From heap src.own msg.body

theorem assemble_spec {fuel : Nat} {hdr : Msghdr} {src : MsgBody} {msg : GridMsg}
    (h : assemble fuel heap hdr src = .ok (heap', msg)) : Assembled heap heap' hdr src msg := by
  obtain ⟨⟨heap₁, body⟩, hbody, h⟩ := bind_eq_ok_iff.mp h
  obtain ⟨⟨heap₂, hdrs, data⟩, hhdrs, h⟩ := bind_eq_ok_iff.mp h
  obtain ⟨found, -, h⟩ := bind_eq_ok_iff.mp h
  obtain ⟨hext₁, hbody⟩ := initBody_spec (liftAbort_eq_ok hbody)
  obtain ⟨hext₂, hhdrs⟩ := initHdrs_spec (liftAbort_eq_ok hhdrs)
  cases found with
  | none =>
      obtain ⟨rfl, rfl⟩ := Prod.mk.inj (Except.ok.inj h)
      exact ⟨hext₁.trans hext₂, since_small heap [], hhdrs.mono hext₁, hbody⟩
  | some bytes =>
      obtain ⟨⟨heap₃, sphdr⟩, hsphdr, h⟩ := bind_eq_ok_iff.mp h
      obtain ⟨rfl, rfl⟩ := Prod.mk.inj (Except.ok.inj h)
      obtain ⟨hext₃, hsince⟩ := extends_of_store (liftAbort_eq_ok hsphdr)
      exact ⟨(hext₁.trans hext₂).trans hext₃, hsince.mono (hext₁.trans hext₂),
        hhdrs.mono hext₁, hbody⟩

/-! ## Its three parts -/

/-- What is searched was copied before, and only what fits is copied. -/
theorem fits_of_initHdrs {heap : ChunkHeap} {control : MsgControl}
    {r : ChunkHeap × Chunkref × Control} (h : initHdrs heap control = .ok r) :
    Fits r.2.2.length := by
  cases control with
  | null =>
      obtain rfl := Except.ok.inj h
      have hempty : Fits 0 := by decide
      exact hempty
  | gridMsg chunk =>
      cases chunk with
      | none => exact absurd h (by simp [initHdrs])
      | some addr =>
          obtain ⟨chunk, -, hr⟩ := bind_eq_ok_iff.mp h
          obtain rfl := Except.ok.inj hr
          exact chunk.fits
  | buffer data =>
      obtain ⟨stored, hstore, hr⟩ := bind_eq_ok_iff.mp h
      obtain rfl := Except.ok.inj hr
      exact ChunkHeap.fits_of_store hstore

/-- The message that is made of the arguments has the header that the control data give. -/
theorem assemble_eq {hdr : Msghdr} {src : MsgBody} {body : ChunkHeap × Chunkref}
    {hdrs : ChunkHeap × Chunkref × Control} (hbody : initBody heap src = .ok body)
    (hhdrs : initHdrs body.1 hdr.control = .ok hdrs) (fuel : Nat) :
    (∃ found r, hdrs.2.2.spHdr fuel = .ok found ∧ assemble fuel heap hdr src = .ok r ∧
      (r.2.view r.1).sphdr = found.getD []) ∨
    ∃ e, hdrs.2.2.spHdr fuel = .error e ∧ assemble fuel heap hdr src = .error e := by
  unfold assemble
  rw [hbody, show liftAbort (.ok body) = .ok body from rfl, ok_bind, hhdrs,
    show liftAbort (.ok hdrs) = .ok hdrs from rfl, ok_bind]
  cases hfound : hdrs.2.2.spHdr fuel with
  | error e => exact Or.inr ⟨e, rfl, rfl⟩
  | ok found =>
      refine Or.inl ⟨found, ?_⟩
      cases found with
      | none => exact ⟨_, rfl, rfl, rfl⟩
      | some bytes =>
          obtain ⟨heap', ref, hstore⟩ : ∃ heap' ref, hdrs.1.store bytes = .ok (heap', ref) := by
            apply ChunkHeap.store_of_fits
            have hle := Control.spHdr_length hfound
            exact Or.inr (Nat.le_trans (Nat.add_le_add_left hle _) (fits_of_initHdrs hhdrs))
          rw [ok_bind]
          simp only [hstore]
          exact ⟨_, trivial, rfl, ChunkHeap.bytes_store hstore⟩

/-- What was stored stays as it is when more is stored. -/
theorem Extends.bytes {ref : Chunkref} (h : Extends heap heap')
    (hlt : ∀ a ∈ ref.addrs, a < heap.next) : heap'.bytes ref = heap.bytes ref := by
  cases ref with
  | small _ => rfl
  | chunk addr =>
      rw [ChunkHeap.bytes, ChunkHeap.bytes, h.same addr (hlt addr (List.mem_singleton_self _))]

end GridMq.Core
