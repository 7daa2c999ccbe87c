import GridMq.Core.CmsgWalk
import GridMq.Core.RecvmsgBuffers

set_option autoImplicit false

/-!
# Ancillary data that are given back (`src/t/cmsg.c`)

The control data that a receive has filled in are read by a send: `SP_HDR` is their first
property, and the header of the message is found in it as it was.
-/

namespace GridMq.Core

open GridMq.Library

/-! ## Sizes -/

/-- The size of `SP_HDR`: that of its fields and of the header, and what is missing to a multiple
of eight. -/
theorem spTotal_eq {spsz : Nat} (h : Fits spsz) : spTotal spsz = (spsz + 15) / 8 * 8 + 16 := by
  have hlen : chunkHdrsize + spsz ≤ ptrdiffMax := h
  have hhdr : chunkHdrsize = 32 := rfl
  have hmax : ptrdiffMax = 2 ^ 63 - 1 := rfl
  have hspace : cmsgSpace = 16 := rfl
  have hsum : (spsz + 8) % 2 ^ 64 = spsz + 8 := Nat.mod_eq_of_lt (by omega)
  rw [spTotal, hsum, cmsgSpaceOf, Control.cmsgAlign_eq (by omega), Control.cmsgAlign_eq (by omega),
    hspace, Nat.mod_eq_of_lt (by omega)]

theorem length_spFields (spsz : Nat) : (spFields spsz).length = 24 := by
  simp only [spFields, List.length_append, length_nativeOf]

namespace Control

/-- What is read in front of a position depends on nothing behind it. -/
theorem read_take {self : Control} {pos n k : Nat} (h : pos + n ≤ k) :
    self.read pos n = Control.read (self.take k) pos n := by
  rw [read, read, List.drop_take, List.take_take, Nat.min_eq_left (by omega)]

/-- What was written between other bytes is read. -/
theorem read_append {before bytes after : List UInt8} {pos n : Nat} (hpos : before.length = pos)
    (hn : bytes.length = n) : Control.read (before ++ bytes ++ after) pos n = native bytes := by
  rw [read, List.append_assoc, List.drop_append_of_le_length (Nat.le_of_eq hpos.symm),
    List.drop_of_length_le (Nat.le_of_eq hpos), List.nil_append,
    List.take_append_of_le_length (Nat.le_of_eq hn.symm), List.take_of_length_le (Nat.le_of_eq hn)]

end Control

/-- The fields of `SP_HDR` in control data that begin with it. -/
theorem spFields_spec {control : Control} {spsz : Nat} {sphdr : List UInt8} (hfits : Fits spsz)
    (h : control.take (24 + sphdr.length) = spFields spsz ++ sphdr) :
    control.cmsgLen 0 = spTotal spsz ∧ control.IsSpHdr 0 ∧ control.spsz 0 = spsz := by
  have hlen : chunkHdrsize + spsz ≤ ptrdiffMax := hfits
  have hhdr : chunkHdrsize = 32 := rfl
  have hmax : ptrdiffMax = 2 ^ 63 - 1 := rfl
  have htotal := spTotal_eq hfits
  have hread : ∀ pos n, pos + n ≤ 24 → control.read pos n =
      Control.read (spFields spsz ++ sphdr) pos n := by
    intro pos n hle
    rw [Control.read_take (k := 24 + sphdr.length) (by omega), h]
  refine ⟨?_, ⟨?_, ?_⟩, ?_⟩
  · have hsplit : spFields spsz ++ sphdr = [] ++ nativeOf 8 (spTotal spsz) ++
        (nativeOf 4 protoSp ++ nativeOf 4 spHdrType ++ nativeOf 8 spsz ++ sphdr) := by
      simp only [spFields, List.append_assoc, List.nil_append]
    rw [Control.cmsgLen, hread 0 8 (by omega), hsplit,
      Control.read_append List.length_nil (length_nativeOf 8 _), native_nativeOf (by omega)]
  · have hsplit : spFields spsz ++ sphdr = nativeOf 8 (spTotal spsz) ++ nativeOf 4 protoSp ++
        (nativeOf 4 spHdrType ++ nativeOf 8 spsz ++ sphdr) := by
      simp only [spFields, List.append_assoc]
    rw [Control.cmsgLevel, hread 8 4 (by omega), hsplit,
      Control.read_append (length_nativeOf 8 _) (length_nativeOf 4 _),
      native_nativeOf (by decide)]
  · have hsplit : spFields spsz ++ sphdr =
        (nativeOf 8 (spTotal spsz) ++ nativeOf 4 protoSp) ++ nativeOf 4 spHdrType ++
          (nativeOf 8 spsz ++ sphdr) := by
      simp only [spFields, List.append_assoc]
    rw [Control.cmsgType, hread 12 4 (by omega), hsplit,
      Control.read_append (by rw [List.length_append, length_nativeOf, length_nativeOf])
        (length_nativeOf 4 _), native_nativeOf (by decide)]
  · have hsplit : spFields spsz ++ sphdr =
        (nativeOf 8 (spTotal spsz) ++ nativeOf 4 protoSp ++ nativeOf 4 spHdrType) ++
          nativeOf 8 spsz ++ sphdr := by
      simp only [spFields]
    have hpos : 0 + cmsgSpace = 16 := rfl
    rw [Control.spsz, hpos, hread 16 8 (by omega), hsplit,
      Control.read_append
        (by rw [List.length_append, List.length_append, length_nativeOf, length_nativeOf,
          length_nativeOf])
        (length_nativeOf 8 _), native_nativeOf (by omega)]

/-- A walk over control data that begin with `SP_HDR` stops there. -/
theorem nxthdr_spFields {control : Control} {spsz : Nat} (hfits : Fits spsz)
    (hlen : control.cmsgLen 0 = spTotal spsz) (hroom : spTotal spsz ≤ control.length) :
    control.nxthdr none = some 0 := by
  have hsize : chunkHdrsize + spsz ≤ ptrdiffMax := hfits
  have hhdr : chunkHdrsize = 32 := rfl
  have hmax : ptrdiffMax = 2 ^ 63 - 1 := rfl
  have hspace : cmsgSpace = 16 := rfl
  have htotal := spTotal_eq hfits
  rw [Control.nxthdr_eq, Control.begins, hlen, Control.cmsgAlign_eq (by omega), Nat.zero_add,
    Nat.zero_add, if_neg (by omega), if_neg]
  rw [Nat.mod_eq_of_lt (by omega), Nat.mod_eq_of_lt (by omega)]
  omega

/-- The header is read back from control data that begin with it. -/
theorem spHdr_spFields {control : Control} {sphdr : List UInt8} (hfits : Fits sphdr.length)
    (hroom : spTotal sphdr.length ≤ control.length)
    (h : control.take (24 + sphdr.length) = spFields sphdr.length ++ sphdr) (fuel : Nat) :
    control.spHdr (fuel + 1) = .ok (if sphdr = [] then none else some sphdr) := by
  obtain ⟨hlen, hsp, hspsz⟩ := spFields_spec hfits h
  have hspace : cmsgSpace = 16 := rfl
  have htotal := spTotal_eq hfits
  have hclen : control.clen 0 = spTotal sphdr.length - 16 := by
    rw [Control.clen_eq (by omega), hlen, hspace]
  have hdata : (control.drop 24).take sphdr.length = sphdr := by
    have hbehind : (spFields sphdr.length ++ sphdr).drop 24 = sphdr :=
      List.drop_left' (length_spFields sphdr.length)
    rw [← hbehind, ← h, List.drop_take]
    simp
  rw [Control.spHdr, Control.search, nxthdr_spFields hfits hlen hroom]
  simp only
  rw [if_pos hsp, ok_bind, Control.found, Control.body, hclen, hspsz, Nat.zero_add, hspace]
  by_cases hempty : sphdr = []
  · rw [if_pos hempty, if_neg]
    rw [hempty] at htotal ⊢
    rw [htotal]
    decide
  · have hpos := List.length_pos_iff.mpr hempty
    rw [if_neg hempty, if_pos (by omega), if_neg (by omega), if_pos (by omega),
      if_neg (by omega), hdata]

/-! ## The message between the calls -/

/-- `msg_controllen`. -/
def MsgControl.len : MsgControl → Nat
  | .null => 0
  | .gridMsg _ => gridMsgLen
  | .buffer data => data.length

/-- Control data that the caller holds begin with `SP_HDR` of a header. -/
def Begins (heap : ChunkHeap) (sphdr : List UInt8) (control : MsgControl) : Prop :=
  ∃ data : Control, spTotal sphdr.length ≤ data.length ∧
    data.take (24 + sphdr.length) = spFields sphdr.length ++ sphdr ∧
    (control = .buffer data ∨
      ∃ a chunk, control = .gridMsg (some a) ∧ heap.chunks a = some chunk ∧ chunk.data = data)

/-- A send with control data that begin with a header makes a message with that header. -/
theorem Begins.assemble {heap : ChunkHeap} {sphdr : List UInt8} {control : MsgControl}
    {src : MsgBody} {body : ChunkHeap × Chunkref}
    (hfits : Fits sphdr.length) (h : Begins heap sphdr control)
    (hbody : initBody heap src = .ok body) {hdrs : ChunkHeap × Chunkref × Control}
    (hhdrs : initHdrs body.1 control = .ok hdrs) (iov : Option (List Iovec)) (fuel : Nat) :
    ∃ r, Core.assemble (fuel + 1) heap { iov := iov, control := control } src = .ok r ∧
      (r.2.view r.1).sphdr = sphdr := by
  obtain ⟨data, hroom, htake, hdata⟩ := h
  have hfound : hdrs.2.2 = data := by
    rcases hdata with rfl | ⟨a, chunk, rfl, hchunk, rfl⟩
    · obtain ⟨stored, -, hr⟩ := bind_eq_ok_iff.mp hhdrs
      obtain rfl := Except.ok.inj hr
      rfl
    · obtain ⟨chunk', hget, hr⟩ := bind_eq_ok_iff.mp hhdrs
      obtain rfl := Except.ok.inj hr
      have hsame := (initBody_spec hbody).1.same a (ChunkHeap.lt_next hchunk)
      rw [ChunkHeap.getptr_eq_ok hget, hchunk] at hsame
      exact congrArg MsgChunk.data (Option.some.inj hsame)
  have hsphdr := spHdr_spFields hfits hroom htake fuel
  rw [← hfound] at hsphdr
  rcases @assemble_eq _ { iov := iov, control := control } _ _ _ hbody hhdrs (fuel + 1) with
    ⟨found, r, hspHdr, hr, hview⟩ | ⟨e, herror, -⟩
  · refine ⟨r, hr, ?_⟩
    rw [hview, ← Except.ok.inj (hsphdr.symm.trans hspHdr)]
    by_cases hempty : sphdr = []
    · rw [if_pos hempty, hempty, Option.getD_none]
    · rw [if_neg hempty, Option.getD_some]
  · exact absurd (hsphdr.symm.trans herror) (by simp)

/-- The memory of the control data is what they depend on. -/
theorem Begins.same {heap heap' : ChunkHeap} {sphdr : List UInt8} {control : MsgControl}
    (h : Begins heap sphdr control)
    (hsame : ∀ a, control = .gridMsg (some a) → heap'.chunks a = heap.chunks a) :
    Begins heap' sphdr control := by
  obtain ⟨data, hroom, htake, hdata⟩ := h
  refine ⟨data, hroom, htake, ?_⟩
  rcases hdata with hbuf | ⟨a, chunk, hown, hchunk, hdata⟩
  · exact Or.inl hbuf
  · exact Or.inr ⟨a, chunk, hown, (hsame a hown).trans hchunk, hdata⟩

/-- Control data that begin with a header can be copied where there is memory for it. -/
theorem Begins.initHdrs {heap heap' : ChunkHeap} {sphdr : List UInt8} {control : MsgControl}
    (h : Begins heap sphdr control) (hext : Extends heap heap')
    (hfits : ∀ data, control = .buffer data → Fits data.length) :
    ∃ hdrs, Core.initHdrs heap' control = .ok hdrs := by
  obtain ⟨data, -, -, hdata⟩ := h
  rcases hdata with rfl | ⟨a, chunk, rfl, hchunk, -⟩
  · obtain ⟨heap₁, ref, hstore⟩ := heap'.store_of_fits (Or.inr (hfits data rfl))
    refine ⟨(heap₁, ref, data), ?_⟩
    rw [Core.initHdrs, hstore]
    rfl
  · refine ⟨(heap', .chunk a, chunk.data), ?_⟩
    have hsame := (hext.same a (ChunkHeap.lt_next hchunk)).trans hchunk
    rw [Core.initHdrs, ChunkHeap.getptr_some hsame]
    rfl

end GridMq.Core
